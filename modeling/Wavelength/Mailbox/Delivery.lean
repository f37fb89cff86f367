import Mathlib.Algebra.Group.Int.Defs
import Wavelength.Mailbox.Store

/-! # Deliveries and the handling of their results

A delivery is one claim of a mailbox row. Its result is handled either inside
the transaction of the turn (`handleResultInTx`) or by a sequence of separate
store transactions (`finishNonTx`, `handleResult`), which is kept as a `Plan` so
that a worker can lose its lease or crash between any two of them.
-/

namespace Wavelength.Mailbox

/-- A claimed message. The lease token is absent on a peeked delivery. -/
structure Delivery where
  id : MessageId
  leaseToken : Option LeaseToken
  attempts : ℤ
  maxAttempts : ℤ
  promise : Bool
  callbackActorId : Option ℕ
  correlationId : Option ℕ

inductive Outcome
  | ok
  | postponed (delay : ℤ)
  | failed (err : String)

inductive Path
  | exec
  | inTx
  | nonTx
  deriving DecidableEq

def defaultTellRetryPolicy (_err : String) (attempts : ℤ) : Bool × ℤ :=
  if 5 ≤ attempts then (false, 0) else (true, min (2 ^ attempts.toNat) 60)

structure Config where
  mailboxId : MailboxId
  path : Path
  numWorkers : ℕ
  leaseDuration : ℤ := 30
  tellRetryPolicy : String → ℤ → Bool × ℤ := defaultTellRetryPolicy

/-- A single worker on the read/commit path peeks instead of leasing. -/
def Config.leaseless (cfg : Config) : Bool := cfg.numWorkers = 1 && cfg.path = .exec

namespace Delivery

def ofRow (m : Row) (promise : Bool) : Delivery :=
  ⟨m.id, m.leaseToken, m.attempts, m.maxAttempts, promise, m.callbackActorId, m.correlationId⟩

/-- The delivery of a peeked row: its token is dropped even if the row still
carries one of an expired lease. -/
def ofPeekedRow (m : Row) (promise : Bool) : Delivery := { ofRow m promise with leaseToken := none }

variable (d : Delivery)

def isAsk : Bool := d.promise

def isDurableAsk : Bool := d.callbackActorId.isSome && d.correlationId.isSome

def effectiveAttempts : ℤ := if d.leaseToken = none then d.attempts + 1 else d.attempts

def shouldDeadLetter : Bool := d.maxAttempts ≤ d.effectiveAttempts

end Delivery

def errLeaseExpired : String := "lease expired or claimed by another consumer"

def errLeaseLost : String := "lease lost: message reclaimed by another consumer"

/-- The store's error when an id already has a dead letter. -/
def errDeadLetterExists : String := "UNIQUE constraint failed: dead_letters.id"

section Routing

variable (st : Store) (id : MessageId)

/-- The fenced ack under a lease token, the ack by id without one. -/
def ackMessage : Option LeaseToken → Store × ℕ
  | none => st.ackMailboxMessageById id
  | some token => st.ackMailboxMessage id token

def nackMessage (now retryAfter : ℤ) : Option LeaseToken → Store × ℕ
  | none => st.nackMailboxMessageById id (now + retryAfter)
  | some token => st.nackMailboxMessage id token (now + retryAfter)

def postponeMessage (now retryAfter : ℤ) : Option LeaseToken → Store × ℕ
  | none => st.postponeMailboxMessageById id (now + retryAfter)
  | some token => st.postponeMailboxMessage id token (now + retryAfter)

end Routing

/-- The store transactions of the bookkeeping outside a turn's transaction. -/
inductive StoreOp
  | writeAskResponse
  | markProcessed
  | ack
  | saveAskResult
  | nack (retryAfter : ℤ)
  | postpone (retryAfter : ℤ)
  | moveToDeadLetter (reason : String)
  | deleteMessage

/-- Zero affected rows are an error of the operation. -/
def requireRows : Store × ℕ → Option Store
  | (_, 0) => none
  | (st, _ + 1) => some st

/-- The effect of one operation, `none` when it reports an error. -/
def StoreOp.exec (d : Delivery) (now : ℤ) (st : Store) : StoreOp → Option Store
  | writeAskResponse => some { st with askResponses := st.askResponses ++ [d.id] }
  | markProcessed => some (st.markMessageProcessed d.id)
  | ack => requireRows (ackMessage st d.id d.leaseToken)
  | saveAskResult => some (st.insertAskResult d.id)
  | nack retryAfter => requireRows (nackMessage st d.id now retryAfter d.leaseToken)
  | postpone retryAfter => requireRows (postponeMessage st d.id now retryAfter d.leaseToken)
  | moveToDeadLetter reason => st.moveToDeadLetter d.id reason now
  | deleteMessage => some (st.deleteMailboxMessage d.id)

inductive Plan
  | done
  | op (o : StoreOp) (onOk onErr : Plan)

namespace Plan

def thenAlways (o : StoreOp) (k : Plan) : Plan := op o k k

def thenOnOk (o : StoreOp) (k : Plan) : Plan := op o k done

end Plan

namespace Delivery

open Plan

variable (d : Delivery)

/-- `Delivery.Ack`: the ack, and for an ask the stored result after it. -/
def ack (k : Plan) : Plan :=
  thenOnOk .ack (if d.isAsk then thenOnOk .saveAskResult k else k)

/-- `Delivery.Nack`: dead-letter once the attempts are spent, otherwise release. -/
def nack (err : String) (retryAfter : ℤ) : Plan :=
  if d.shouldDeadLetter then
    thenOnOk (.moveToDeadLetter ("max attempts reached: " ++ err)) (thenOnOk .deleteMessage done)
  else thenOnOk (.nack retryAfter) done

end Delivery

section Result

open Plan

variable (cfg : Config) (d : Delivery)

/-- `outboxErr` is the error of the outbox write, for the case that it fails. -/
def handleResult (o : Outcome) (outboxErr : String) : Plan :=
  if d.isDurableAsk then
    op .writeAskResponse (thenAlways .markProcessed (d.ack done)) (d.nack outboxErr 5)
  else if d.isAsk then d.ack done
  else
    match o with
    | .postponed delay => thenOnOk (.postpone delay) done
    | .failed err =>
      let (retry, delay) := cfg.tellRetryPolicy err d.effectiveAttempts
      if retry then d.nack err delay
      else
        thenAlways (.moveToDeadLetter ("retry policy exhausted: " ++ err))
          (thenOnOk .deleteMessage done)
    | .ok => d.ack done

/-- Whether `finishNonTx` marks the message processed before it handles the
result: not for a durable ask, and not for a tell that will be redelivered. -/
def shouldMarkProcessed (o : Outcome) : Bool :=
  if d.isDurableAsk then false
  else
    match o with
    | .postponed _ => false
    | .failed err => !(cfg.tellRetryPolicy err d.effectiveAttempts).1
    | .ok => true

def finishNonTx (o : Outcome) (outboxErr : String) : Plan :=
  if d.isAsk then d.ack (thenOnOk .markProcessed done)
  else if shouldMarkProcessed cfg d o then
    thenAlways .markProcessed (handleResult cfg d o outboxErr)
  else handleResult cfg d o outboxErr

def handlePoisonMessage (reason : String) : Plan :=
  if d.shouldDeadLetter then
    thenOnOk (.moveToDeadLetter ("poison message (attempts " ++ toString d.attempts ++ "/" ++
      toString d.maxAttempts ++ "): " ++ reason)) (thenOnOk .deleteMessage done)
  else thenOnOk (.nack 60) done

inductive TurnError
  | lostLeaseMidTurn
  | failed (err : String)

def ackInTx (st : Store) : Except TurnError Store :=
  match requireRows (ackMessage st d.id d.leaseToken) with
  | none => .error (.failed errLeaseExpired)
  | some st' => .ok (if d.isAsk then st'.insertAskResult d.id else st')

/-- Zero released rows roll the turn back when the release was fenced. -/
def releasedRowsInTx : Store × ℕ → Except TurnError Store
  | (st, 0) => if d.leaseToken = none then .ok st else .error .lostLeaseMidTurn
  | (st, _ + 1) => .ok st

def handleResultInTx (o : Outcome) (now : ℤ) (st : Store) : Except TurnError Store :=
  if d.isDurableAsk then
    ackInTx d ({ st with askResponses := st.askResponses ++ [d.id] }.markMessageProcessed d.id)
  else if d.isAsk then ackInTx d (st.markMessageProcessed d.id)
  else
    match o with
    | .postponed delay => releasedRowsInTx d (postponeMessage st d.id now delay d.leaseToken)
    | .failed err =>
      let (retry, delay) := cfg.tellRetryPolicy err d.effectiveAttempts
      if retry && !d.shouldDeadLetter then
        releasedRowsInTx d (nackMessage st d.id now delay d.leaseToken)
      else
        let reason := if d.shouldDeadLetter then "max attempts reached: " ++ err else err
        match (st.markMessageProcessed d.id).moveToDeadLetter d.id reason now with
        | none => .error (.failed errDeadLetterExists)
        | some st' => .ok st'
    | .ok => ackInTx d (st.markMessageProcessed d.id)

/-- The rejection of a durable ask on the read/commit path, in one transaction. -/
def rejectDurableAsk (st : Store) : Except String Store :=
  match requireRows (ackMessage
    ({ st with askResponses := st.askResponses ++ [d.id] }.markMessageProcessed d.id)
    d.id d.leaseToken) with
  | none => .error errLeaseLost
  | some st' => .ok st'

end Result

end Wavelength.Mailbox
