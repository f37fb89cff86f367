import Mathlib.Data.Int.Notation
import Wavelength.Base.Table

/-! # The durable mailbox store

The tables behind a durable mailbox and the queries on them, one definition per
query. Timestamps are unix seconds, as the store writes them. A query that
reports its affected rows returns that count with the new store.
-/

namespace Wavelength.Mailbox

abbrev MessageId := ℕ
abbrev MailboxId := ℕ
abbrev LeaseToken := ℕ
abbrev CorrelationKey := ℕ

structure Row where
  id : MessageId
  mailboxId : MailboxId
  messageType : String := ""
  payload : List UInt8 := []
  promiseId : Option ℕ := none
  callbackActorId : Option ℕ := none
  correlationId : Option ℕ := none
  priority : ℤ := 0
  leaseToken : Option LeaseToken := none
  leaseUntil : Option ℤ := none
  availableAt : ℤ := 0
  attempts : ℤ := 0
  maxAttempts : ℤ := 10
  createdAt : ℤ := 0
  correlationKey : Option CorrelationKey := none
  deriving DecidableEq

structure DeadLetter where
  id : MessageId
  actorId : MailboxId
  messageType : String
  payload : List UInt8
  failureReason : String
  attempts : ℤ
  createdAt : ℤ
  deriving DecidableEq

/-- The tables one durable actor reads and writes. `processed`, `askResults` and
`askResponses` hold the ids with a row in `processed_messages`, in `ask_results`
and, for a durable ask, in the outbox. -/
structure Store where
  messages : Table Row Row.id
  deadLetters : Table DeadLetter DeadLetter.id
  processed : List MessageId
  askResults : List MessageId
  askResponses : List MessageId

def Store.empty : Store := ⟨.empty, .empty, [], [], []⟩

namespace Row

def Unleased (now : ℤ) (m : Row) : Prop := ∀ u ∈ m.leaseUntil, u < now

def Leased (now : ℤ) (m : Row) : Prop := ∃ u ∈ m.leaseUntil, now ≤ u

def Exhausted (m : Row) : Prop := m.maxAttempts ≤ m.attempts

/-- `m2` keeps the keyed row `m` from being claimed. -/
def Blocks (m2 m : Row) : Prop :=
  m2.mailboxId = m.mailboxId ∧ m2.correlationKey = m.correlationKey ∧ m2.id < m.id ∧
    m2.attempts < m2.maxAttempts

def Before (a b : Row) : Prop :=
  b.priority < a.priority ∨ (a.priority = b.priority ∧
    (a.availableAt < b.availableAt ∨ (a.availableAt = b.availableAt ∧ a.createdAt < b.createdAt)))

/-- The inner select of the claim queries. -/
def Eligible (rows : List Row) (mailboxId : MailboxId) (now : ℤ) (m : Row) : Prop :=
  m.mailboxId = mailboxId ∧ m.availableAt ≤ now ∧ m.Unleased now ∧ m.attempts < m.maxAttempts ∧
    (m.correlationKey = none ∨ ¬ ∃ m2 ∈ rows, m2.Blocks m)

/-- The row that the claim queries return; rows that tie in the claim order are
all admitted. -/
def IsNext (rows : List Row) (mailboxId : MailboxId) (now : ℤ) (m : Row) : Prop :=
  m.Eligible rows mailboxId now ∧ ∀ m' ∈ rows, m'.Eligible rows mailboxId now → ¬ m'.Before m

instance (now : ℤ) (m : Row) : Decidable (m.Unleased now) :=
  inferInstanceAs (Decidable (∀ u ∈ m.leaseUntil, u < now))

instance (now : ℤ) (m : Row) : Decidable (m.Leased now) :=
  decidable_of_iff (¬ m.Unleased now) (by simp [Leased, Unleased])

instance (m : Row) : Decidable m.Exhausted :=
  inferInstanceAs (Decidable (m.maxAttempts ≤ m.attempts))

instance (m2 m : Row) : Decidable (m2.Blocks m) := by unfold Blocks; infer_instance

instance (a b : Row) : Decidable (a.Before b) := by unfold Before; infer_instance

instance (rows : List Row) (mailboxId : MailboxId) (now : ℤ) (m : Row) :
    Decidable (m.Eligible rows mailboxId now) := by unfold Eligible; infer_instance

instance (rows : List Row) (mailboxId : MailboxId) (now : ℤ) (m : Row) :
    Decidable (m.IsNext rows mailboxId now) := by unfold IsNext; infer_instance

def fresh (m : Row) : Row := { m with leaseToken := none, leaseUntil := none, attempts := 0 }

/-- The update of a lease: the claim itself counts as an attempt. -/
def lease (token : LeaseToken) (leaseUntil : ℤ) (m : Row) : Row :=
  { m with leaseToken := some token, leaseUntil := some leaseUntil, attempts := m.attempts + 1 }

def release (availableAt attempts : ℤ) (m : Row) : Row :=
  { m with leaseToken := none, leaseUntil := none, availableAt := availableAt, attempts := attempts }

def extend (leaseUntil : ℤ) (m : Row) : Row := { m with leaseUntil := some leaseUntil }

def expire (now : ℤ) (m : Row) : Row :=
  if ∃ u ∈ m.leaseUntil, u < now then { m with leaseToken := none, leaseUntil := none } else m

@[simp] theorem lease_id (m : Row) : (m.lease t u).id = m.id := rfl

@[simp] theorem release_id (m : Row) : (m.release a n).id = m.id := rfl

@[simp] theorem extend_id (m : Row) : (m.extend u).id = m.id := rfl

@[simp] theorem expire_id (m : Row) : (m.expire now).id = m.id := by
  unfold expire; split <;> rfl

end Row

namespace Store

variable (st : Store) (id : MessageId)

def modifyMessage (f : Row → Row) (hf : ∀ m, (f m).id = m.id) : Store :=
  { st with messages := st.messages.modify id f hf }

def deleteMailboxMessage : Store := { st with messages := st.messages.delete id }

def updateWhere (p : Row → Bool) (f : Row → Row) (hf : ∀ m, (f m).id = m.id) : Store × ℕ :=
  match st.messages.get? id with
  | none => (st, 0)
  | some m => if p m then (st.modifyMessage id f hf, 1) else (st, 0)

def deleteWhere (p : Row → Bool) : Store × ℕ :=
  match st.messages.get? id with
  | none => (st, 0)
  | some m => if p m then (st.deleteMailboxMessage id, 1) else (st, 0)

/-- The fence: the row carries this lease token. -/
def heldBy (token : LeaseToken) (m : Row) : Bool := m.leaseToken = some token

def enqueueMailboxMessage (m : Row) : Store :=
  { st with messages := st.messages.insertIgnore m.fresh }

/-- Lease the given row, which the caller has found to be next. -/
def leaseMailboxMessage (token : LeaseToken) (leaseUntil : ℤ) : Store :=
  st.modifyMessage id (Row.lease token leaseUntil) Row.lease_id

def ackMailboxMessage (token : LeaseToken) : Store × ℕ := st.deleteWhere id (heldBy token)

def ackMailboxMessageById : Store × ℕ := st.deleteWhere id fun _ => true

def nackMailboxMessage (token : LeaseToken) (availableAt : ℤ) : Store × ℕ :=
  st.updateWhere id (heldBy token) (fun m => m.release availableAt m.attempts) fun m => m.release_id

def nackMailboxMessageById (availableAt : ℤ) : Store × ℕ :=
  st.updateWhere id (fun _ => true) (fun m => m.release availableAt (m.attempts + 1))
    fun m => m.release_id

def postponeMailboxMessage (token : LeaseToken) (availableAt : ℤ) : Store × ℕ :=
  st.updateWhere id (heldBy token)
    (fun m => m.release availableAt (if 0 < m.attempts then m.attempts - 1 else 0))
    fun m => m.release_id

def postponeMailboxMessageById (availableAt : ℤ) : Store × ℕ :=
  st.updateWhere id (fun _ => true) (fun m => m.release availableAt m.attempts) fun m => m.release_id

def extendMailboxLease (token : LeaseToken) (leaseUntil : ℤ) : Store × ℕ :=
  st.updateWhere id (heldBy token) (Row.extend leaseUntil) Row.extend_id

def expireMailboxLeases (now : ℤ) : Store :=
  { st with messages := st.messages.map (Row.expire now) Row.expire_id }

def markMessageProcessed : Store :=
  { st with processed := if id ∈ st.processed then st.processed else st.processed ++ [id] }

def insertAskResult : Store :=
  { st with askResults := if id ∈ st.askResults then st.askResults else st.askResults ++ [id] }

/-- Copy the row to the dead letters and delete it, in one transaction. Fails
when the id already has a dead letter. -/
def moveToDeadLetter (reason : String) (now : ℤ) : Option Store :=
  match st.messages.get? id with
  | none => some st
  | some m =>
    (st.deadLetters.insert? ⟨m.id, m.mailboxId, m.messageType, m.payload, reason, m.attempts, now⟩).map
      fun d => { (st.deleteMailboxMessage id) with deadLetters := d }

end Store

variable {st : Store} {id : MessageId}

@[simp] theorem mem_markMessageProcessed :
    i ∈ (st.markMessageProcessed id).processed ↔ i ∈ st.processed ∨ i = id := by
  unfold Store.markMessageProcessed
  by_cases h : id ∈ st.processed
  · simp only [h, if_true]
    exact ⟨.inl, fun hi => hi.elim (fun h => h) fun e => e ▸ h⟩
  · simp [h]

@[simp] theorem markMessageProcessed_messages :
    (st.markMessageProcessed id).messages = st.messages := rfl

end Wavelength.Mailbox
