import Mathlib.Data.Int.Notation
import Wavelength.Base.Machine
import Wavelength.Base.Table

/-! # The outbox and its publishers

The outbox table with its queries, and several publishers that claim batches of
pending rows and deliver them one by one. A claim and a delivery are one
transaction each; clock, fresh claim token, choice among rows of equal age and
failing transactions are arguments of the actions.
-/

namespace Wavelength.Outbox

abbrev MessageId := ℕ
abbrev ActorId := ℕ
abbrev ClaimToken := ℕ

inductive Status
  | pending
  | completed
  | deadLetter
  deriving DecidableEq

/-- A row of `outbox_messages`, also as a claim returns it to the publisher. -/
structure OutboxMessage where
  id : MessageId
  sourceActorId : ActorId
  targetActorId : ActorId
  messageType : String := ""
  payload : List UInt8 := []
  domainKey : Option ℕ := none
  version : ℤ := 0
  status : Status := .pending
  deliveryAttempts : ℤ := 0
  claimToken : Option ClaimToken := none
  claimedUntil : Option ℤ := none
  createdAt : ℤ := 0
  completedAt : Option ℤ := none
  deriving DecidableEq

structure Handoff where
  id : MessageId
  targetActorId : ActorId
  messageType : String
  payload : List UInt8
  deriving DecidableEq

abbrev OutboxTable := Table OutboxMessage OutboxMessage.id

namespace OutboxMessage

def handoff (m : OutboxMessage) : Handoff := ⟨m.id, m.targetActorId, m.messageType, m.payload⟩

def fresh (m : OutboxMessage) : OutboxMessage :=
  { m with
    status := .pending, deliveryAttempts := 0, claimToken := none, claimedUntil := none
    completedAt := none }

def Claimable (now : ℤ) (m : OutboxMessage) : Prop :=
  m.status = .pending ∧ ∀ u ∈ m.claimedUntil, u < now

instance (now : ℤ) (m : OutboxMessage) : Decidable (m.Claimable now) :=
  inferInstanceAs (Decidable (_ ∧ _))

def claim (token : ClaimToken) (claimedUntil : ℤ) (m : OutboxMessage) : OutboxMessage :=
  { m with
    deliveryAttempts := m.deliveryAttempts + 1, claimToken := some token
    claimedUntil := some claimedUntil }

/-- The update of `CompleteOutboxMessage` and `FailOutboxMessage`: it matches only
under the token of the row. -/
def settle (status : Status) (token : Option ClaimToken) (now : ℤ) (m : OutboxMessage) :
    OutboxMessage :=
  if m.claimToken = token ∧ token ≠ none then { m with status := status, completedAt := some now }
  else m

@[simp] theorem settle_id {status : Status} {now : ℤ} (m : OutboxMessage) :
    (m.settle status token now).id = m.id := by
  unfold settle; split <;> rfl

end OutboxMessage

/-- The rows that `ClaimOutboxBatch` may select: claimable, oldest first, up to the
limit; rows of equal age are all admitted. -/
def IsBatch (rows : List OutboxMessage) (now : ℤ) (limit : ℕ) (ids : List MessageId) : Prop :=
  ids.Nodup ∧ ids.length ≤ limit ∧ (∀ id ∈ ids, ∃ m ∈ rows, m.id = id ∧ m.Claimable now) ∧
    ∀ m ∈ rows, m.Claimable now → m.id ∉ ids →
      ids.length = limit ∧ ∀ m' ∈ rows, m'.id ∈ ids → m'.createdAt ≤ m.createdAt

instance (rows : List OutboxMessage) (now : ℤ) (limit : ℕ) (ids : List MessageId) :
    Decidable (IsBatch rows now limit ids) := by unfold IsBatch; infer_instance

def claimOutboxBatch (t : OutboxTable) (ids : List MessageId) (token : ClaimToken)
    (claimedUntil : ℤ) : OutboxTable :=
  t.map (fun m => if m.id ∈ ids then m.claim token claimedUntil else m) fun m => by
    split <;> rfl

structure OutboxPublisherConfig where
  batchSize : ℕ := 0
  maxDeliveryAttempts : ℤ := 0
  claimDuration : ℤ := 0
  /-- Whether the codec can read a payload. -/
  decodes : List UInt8 → Bool := fun _ => true

/-- `NewOutboxPublisher`: zero values are replaced by the defaults. -/
def newOutboxPublisher (cfg : OutboxPublisherConfig) : OutboxPublisherConfig :=
  { cfg with
    batchSize := if cfg.batchSize = 0 then 100 else cfg.batchSize
    maxDeliveryAttempts := if cfg.maxDeliveryAttempts = 0 then 10 else cfg.maxDeliveryAttempts
    claimDuration := if cfg.claimDuration = 0 then 30 else cfg.claimDuration }

/-- The outbox, what has been enqueued at the targets, and for every publisher the
rest of its batch. -/
structure State where
  outbox : OutboxTable
  handoffs : List Handoff
  now : ℤ
  publishers : List (List OutboxMessage)
  issued : List ClaimToken

namespace State

variable (s : State)

def completeOutbox (id : MessageId) (token : Option ClaimToken) : State :=
  { s with
    outbox := s.outbox.modify id (OutboxMessage.settle .completed token s.now)
      OutboxMessage.settle_id }

def failOutbox (id : MessageId) (token : Option ClaimToken) : State :=
  { s with
    outbox := s.outbox.modify id (OutboxMessage.settle .deadLetter token s.now)
      OutboxMessage.settle_id }

def tell (msg : OutboxMessage) : State := { s with handoffs := s.handoffs ++ [msg.handoff] }

def setBatch (p : ℕ) (batch : List OutboxMessage) : State :=
  { s with publishers := s.publishers.set p batch }

end State

/-- `deliverMessage`. When `fails` is set the transaction does not commit: the
`Tell`, the update or the commit itself has failed. -/
def deliverMessage (cfg : OutboxPublisherConfig) (s : State) (msg : OutboxMessage) (fails : Bool) :
    State :=
  if fails then s
  else if cfg.maxDeliveryAttempts < msg.deliveryAttempts then s.failOutbox msg.id msg.claimToken
  else if cfg.decodes msg.payload then (s.tell msg).completeOutbox msg.id msg.claimToken
  else s.failOutbox msg.id msg.claimToken

inductive Action
  | enqueue (m : OutboxMessage)
  | tick (seconds : ℕ)
  | claim (p : ℕ) (ids : List MessageId) (token : ClaimToken)
  | deliver (p : ℕ) (fails : Bool)
  | crash (p : ℕ)

section Step

variable (cfg : OutboxPublisherConfig) (s : State)

def stepClaim (p : ℕ) (ids : List MessageId) (token : ClaimToken) : Option State :=
  match s.publishers[p]? with
  | some [] =>
    if IsBatch s.outbox.rows s.now cfg.batchSize ids ∧ token ∉ s.issued then
      let outbox := claimOutboxBatch s.outbox ids token (s.now + cfg.claimDuration)
      some { s.setBatch p (ids.filterMap outbox.get?) with
        outbox := outbox
        issued := token :: s.issued }
    else none
  | _ => none

def stepDeliver (p : ℕ) (fails : Bool) : Option State :=
  match s.publishers[p]? with
  | some (msg :: rest) => some ((deliverMessage cfg s msg fails).setBatch p rest)
  | _ => none

def step : Action → Option State
  | .enqueue m => (s.outbox.insert? m.fresh).map fun t => { s with outbox := t }
  | .tick seconds => some { s with now := s.now + seconds }
  | .claim p ids token => stepClaim cfg s p ids token
  | .deliver p fails => stepDeliver cfg s p fails
  | .crash p => some (s.setBatch p [])

end Step

def State.initial (n : ℕ) (now : ℤ) : State := ⟨.empty, [], now, List.replicate n [], []⟩

def publishers (cfg : OutboxPublisherConfig) : Machine State Action where
  init s := ∃ n now, s = .initial n now
  step := step (newOutboxPublisher cfg)

end Wavelength.Outbox
