import Wavelength.Base.Machine
import Wavelength.Mailbox.Delivery

/-! # The worker pool of a durable mailbox

The workers of one durable actor over its mailbox, as a machine. Every store
transaction is one action, so workers interleave and crash between any two
transactions. The choices of the environment (the clock, the fresh lease token,
what the behavior does and returns, which transaction fails) are arguments of
the actions.
-/

namespace Wavelength.Mailbox

/-- Where a worker is in its delivery. `committed` is the flag of the exec core; `settled` records
that the worker's own bookkeeping has removed or released the row. -/
inductive Phase
  | idle
  | claimed (d : Delivery)
  | running (d : Delivery) (committed : Bool)
  | closing (d : Delivery) (settled : Bool) (plan : Plan)

def Phase.delivery? : Phase → Option Delivery
  | idle => none
  | claimed d | running d _ | closing d _ _ => some d

/-- The delivery whose lease a heartbeat extends: the one in the behavior's hands,
and without a transaction also while its result is handled. -/
def Phase.heartbeat? (path : Path) : Phase → Option Delivery
  | running d _ => if path = .inTx then none else some d
  | closing d _ _ => if path = .nonTx then some d else none
  | idle | claimed _ => none

inductive Write
  | stage (id : MessageId)
  | commit (id : MessageId) (key : Option CorrelationKey)
  | turn (id : MessageId)

def Write.commit? : Write → Option (MessageId × Option CorrelationKey)
  | commit id key => some (id, key)
  | stage _ | turn _ => none

structure State where
  store : Store
  now : ℤ
  workers : List Phase
  issued : List LeaseToken
  writes : List Write

inductive Action
  | enqueue (m : Row)
  | tick (seconds : ℕ)
  | expireLeases
  | claim (w : ℕ) (id : MessageId) (token : LeaseToken) (promise : Bool)
  | poison (w : ℕ) (reason : String)
  | dedup (w : ℕ) (lookupFails : Bool)
  | heartbeat (w : ℕ)
  | stage (w : ℕ) (fnOk : Bool)
  | commit (w : ℕ) (fnOk : Bool)
  | reject (w : ℕ) (txErr : Option String)
  | finish (w : ℕ) (o : Outcome) (outboxErr : String)
  | turn (w : ℕ) (o : Outcome) (txErr : Option String)
  | storeOp (w : ℕ) (fails : Bool)
  | crash (w : ℕ)

def Action.worker? : Action → Option ℕ
  | enqueue _ | tick _ | expireLeases => none
  | claim w _ _ _ | poison w _ | dedup w _ | heartbeat w | stage w _ | commit w _ | reject w _
  | finish w _ _ | turn w _ _ | storeOp w _ | crash w => some w

def Action.elapsed : Action → ℕ
  | tick seconds => seconds
  | _ => 0

section Exec

variable (d : Delivery) (st : Store)

/-- `execCore.stage`: extend the own lease as a fence, then the write function.
`none` is a rollback. -/
def execStage (leaseUntil : ℤ) (fnOk : Bool) : Option Store :=
  match d.leaseToken with
  | none => if fnOk then some st else none
  | some token =>
    (requireRows (st.extendMailboxLease d.id token leaseUntil)).bind fun st' =>
      if fnOk then some st' else none

/-- `execCore.commit`: the ack as a fence, the write function, the processed
mark. `none` is a rollback. -/
def execCommit (fnOk : Bool) : Option Store :=
  (requireRows (ackMessage st d.id d.leaseToken)).bind fun st' =>
    if fnOk then some (st'.markMessageProcessed d.id) else none

end Exec

namespace State

variable (s : State)

def setPhase (w : ℕ) (p : Phase) : State := { s with workers := s.workers.set w p }

def row (id : MessageId) : Option Row := s.store.messages.get? id

def commitLog : List (MessageId × Option CorrelationKey) :=
  s.writes.filterMap Write.commit?

def commits : List MessageId := s.commitLog.map Prod.fst

def Holds (w : ℕ) (d : Delivery) : Prop := s.workers[w]?.bind Phase.delivery? = some d

end State

/-- Operations after which the worker no longer answers for the row. -/
def StoreOp.settles : StoreOp → Bool
  | ack | nack _ | postpone _ | moveToDeadLetter _ | deleteMessage => true
  | writeAskResponse | markProcessed | saveAskResult => false

section Step

variable (cfg : Config) (s : State)

def stepClaim (w : ℕ) (id : MessageId) (token : LeaseToken) (promise : Bool) : Option State :=
  match s.workers[w]?, s.row id with
  | some .idle, some m =>
    if m.IsNext s.store.messages.rows cfg.mailboxId s.now ∧ (promise → m.promiseId.isSome) then
      if cfg.leaseless then some (s.setPhase w (.claimed (.ofPeekedRow m promise)))
      else if token ∈ s.issued then none
      else
        let leaseUntil := s.now + cfg.leaseDuration
        some { s.setPhase w (.claimed (.ofRow (m.lease token leaseUntil) promise)) with
          store := s.store.leaseMailboxMessage id token leaseUntil
          issued := token :: s.issued }
    else none
  | _, _ => none

def stepDedup (w : ℕ) (lookupFails : Bool) : Option State :=
  match s.workers[w]? with
  | some (.claimed d) =>
    if !lookupFails && d.id ∈ s.store.processed then
      some (s.setPhase w (.closing d false (.thenOnOk .ack .done)))
    else some (s.setPhase w (.running d false))
  | _ => none

def stepHeartbeat (w : ℕ) : Option State :=
  match s.workers[w]?.bind (Phase.heartbeat? cfg.path) with
  | some d =>
    match d.leaseToken with
    | none => none
    | some token =>
      some { s with
        store := (s.store.extendMailboxLease d.id token (s.now + cfg.leaseDuration)).1 }
  | none => none

def stepStage (w : ℕ) (fnOk : Bool) : Option State :=
  match cfg.path, s.workers[w]? with
  | .exec, some (.running d _) =>
    if d.isDurableAsk then none
    else
      match execStage d s.store (s.now + cfg.leaseDuration) fnOk with
      | none => some s
      | some st => some { s with store := st, writes := s.writes ++ [.stage d.id] }
  | _, _ => none

def stepCommit (w : ℕ) (fnOk : Bool) : Option State :=
  match cfg.path, s.workers[w]? with
  | .exec, some (.running d _) =>
    if d.isDurableAsk then none
    else
      match execCommit d s.store fnOk with
      | none => some s
      | some st =>
        some { s.setPhase w (.running d true) with
          store := st
          writes := s.writes ++ [.commit d.id ((s.row d.id).bind Row.correlationKey)] }
  | _, _ => none

def stepReject (w : ℕ) (txErr : Option String) : Option State :=
  match cfg.path, s.workers[w]? with
  | .exec, some (.running d false) =>
    if d.isDurableAsk then
      match txErr.elim (rejectDurableAsk d s.store) .error with
      | .error err => some (s.setPhase w (.closing d false (d.nack err 10)))
      | .ok st => some { s.setPhase w .idle with store := st }
    else none
  | _, _ => none

def stepFinish (w : ℕ) (o : Outcome) (outboxErr : String) : Option State :=
  match s.workers[w]? with
  | some (.running d committed) =>
    if cfg.path = .inTx ∨ (cfg.path = .exec ∧ d.isDurableAsk) then none
    else if committed then some (s.setPhase w .idle)
    else some (s.setPhase w (.closing d false (finishNonTx cfg d o outboxErr)))
  | _ => none

def stepTurn (w : ℕ) (o : Outcome) (txErr : Option String) : Option State :=
  match cfg.path, s.workers[w]? with
  | .inTx, some (.running d false) =>
    match txErr.elim (handleResultInTx cfg d o s.now s.store) (.error ∘ .failed) with
    | .ok st => some { s.setPhase w .idle with store := st, writes := s.writes ++ [.turn d.id] }
    | .error .lostLeaseMidTurn => some (s.setPhase w .idle)
    | .error (.failed err) => some (s.setPhase w (.closing d false (d.nack err 10)))
  | _, _ => none

def stepStoreOp (w : ℕ) (fails : Bool) : Option State :=
  match s.workers[w]? with
  | some (.closing _ _ .done) => some (s.setPhase w .idle)
  | some (.closing d settled (.op o onOk onErr)) =>
    match if fails then none else o.exec d s.now s.store with
    | none => some (s.setPhase w (.closing d settled onErr))
    | some st => some { s.setPhase w (.closing d (settled || o.settles) onOk) with store := st }
  | _ => none

def step : Action → Option State
  | .enqueue m => some { s with store := s.store.enqueueMailboxMessage m }
  | .tick seconds => some { s with now := s.now + seconds }
  | .expireLeases => some { s with store := s.store.expireMailboxLeases s.now }
  | .claim w id token promise => stepClaim cfg s w id token promise
  | .poison w reason =>
    match s.workers[w]? with
    | some (.claimed d) => some (s.setPhase w (.closing d false (handlePoisonMessage d reason)))
    | _ => none
  | .dedup w lookupFails => stepDedup s w lookupFails
  | .heartbeat w => stepHeartbeat cfg s w
  | .stage w fnOk => stepStage cfg s w fnOk
  | .commit w fnOk => stepCommit cfg s w fnOk
  | .reject w txErr => stepReject cfg s w txErr
  | .finish w o outboxErr => stepFinish cfg s w o outboxErr
  | .turn w o txErr => stepTurn cfg s w o txErr
  | .storeOp w fails => stepStoreOp s w fails
  | .crash w => some (s.setPhase w .idle)

end Step

def State.initial (cfg : Config) (now : ℤ) : State :=
  ⟨.empty, now, List.replicate cfg.numWorkers .idle, [], []⟩

def pool (cfg : Config) : Machine State Action where
  init s := ∃ now, s = .initial cfg now
  step := step cfg

end Wavelength.Mailbox
