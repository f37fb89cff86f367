import Wavelength.Credit.Operation

/-! # The actor of a credit operation

The registry writes the row of an operation before it starts the actor, and starts it again from
the row after a restart. A delivery that fails anywhere makes the next one begin with the row.
-/

namespace Wavelength.Credit

/-! ## Driving the state machine -/

/-- Mirror the next state onto the record; a new state has a poll budget of its own. -/
def Resumed.applyState (op : Resumed) (next : CreditState) : Resumed :=
  { op with
    awaitPolls := if op.record.state = .of next then op.awaitPolls else 0
    record := { op.record with
      state := .of next
      status := (State.of next).status }
    curState := next }

/-- Execute the outbox of a transition in order; whether the delivery ends here. -/
def flush (ans : Answers) : List CreditOutMsg → Op Bool
  | [] => pure false
  | .stageRecord :: outbox => do
    persist (ans.stage (← getOp).curState)
    flush ans outbox
  | .parkOp :: outbox => do
    let _ ← flush ans outbox
    pure true
  | .triggerRedeem availableSat :: outbox => do
    modify fun t => { t with pendingRedeem := some availableSat }
    flush ans outbox

def runFSM (cfg : OpActorConfig) (ans : Answers) : ℕ → Op Bool
  | 0 => pure false
  | fuel + 1 => do
    let s := (← getOp).curState
    if s.isTerminal then
      pure true
    else do
      let t ← processEvent cfg ans s
      modifyOp (·.applyState t.next)
      if ← flush ans t.outbox then do
        modify fun t => { t with armRetry := true }
        pure true
      else
        runFSM cfg ans fuel

def failCorrupt : Op Unit := do
  modifyRecord fun r => { r with
    lastError := "unrecognized persisted state " ++ r.state.text.quote }
  modifyOp (·.applyState .failed)
  modifyOp fun op => { op with corruptState := false }

/-- No path through the states is longer. -/
def maxSteps : ℕ := 7

def dispatch (cfg : OpActorConfig) (ans : Answers) : Op Unit := do
  modify fun t => { t with
    armRetry := false
    pendingRedeem := none }
  let op ← getOp
  if op.corruptState then
    failCorrupt
  else if op.curState.isTerminal then
    pure ()
  else do
    let _ ← runFSM cfg ans maxSteps
    pure ()

/-- Write the record together with the acknowledgement; whether the operation is over. -/
def commitAck (ans : Answers) : Op Bool := do
  let op ← getOp
  persist ans.commit
  pure op.record.state.isTerminal

/-- What is told to the registry and the timer once the delivery is committed. -/
def afterCommit (terminal : Bool) (t : Turn) : List Event :=
  (if terminal then [.terminalNotification]
    else if t.armRetry then [.armPollTimer] else []) ++
  t.pendingRedeem.toList.map .considerRedeem

/-! ## The actor and its registry -/

structure OpBehavior where
  op : Option Resumed
  acctKey : List UInt8 := []
  armRetry : Bool := false
  terminalCommitted : Bool := false
  commitFailed : Bool := false
  pendingRedeem : Option UInt64 := none

structure Node where
  child : Option OpBehavior := none
  row : Option Row := none
  log : List Event := []

/-- The reload at the start of a delivery that follows a failed one; `none` if the process ends,
an error if the row cannot be read. -/
def OpBehavior.reload (b : OpBehavior) (row : Option Row) (read : Write) :
    Option (Except Unit OpBehavior) :=
  if b.commitFailed then
    match read with
    | .ok => some (.ok { b with
        op := (row.map restore).or b.op
        commitFailed := false })
    | .failed _ => some (.error ())
    | .crash _ => none
  else
    some (.ok b)

def turn (cfg : OpActorConfig) (ans : Answers) : Op Bool := do
  dispatch cfg ans
  commitAck ans

def OpBehavior.start (b : OpBehavior) (op : Resumed) (row : Row) (log : List Event) : Turn where
  op := op
  acctKey := b.acctKey
  armRetry := b.armRetry
  pendingRedeem := b.pendingRedeem
  row := row
  log := log

/-- The node once the turn has ended; one that failed has the next delivery reload the row. -/
def OpBehavior.finish (b : OpBehavior) : EStateM.Result OpError Turn Bool → Node
  | .ok terminal t =>
    { child := some { b with
        op := some t.op
        acctKey := t.acctKey
        armRetry := t.armRetry
        terminalCommitted := terminal
        pendingRedeem := none }
      row := some t.row
      log := afterCommit terminal t ++ t.log }
  | .error .crash t =>
    { child := none
      row := some t.row
      log := t.log }
  | .error _ t =>
    { child := some { b with
        op := some t.op
        acctKey := t.acctKey
        armRetry := t.armRetry
        commitFailed := true
        pendingRedeem := t.pendingRedeem }
      row := some t.row
      log := t.log }

def Node.receive (cfg : OpActorConfig) (ans : Answers) (n : Node) : Node :=
  match n.child with
  | none => n
  | some b =>
    match b.reload n.row ans.getOperation with
    | none => { n with child := none }
    | some (.error _) => n
    | some (.ok b) =>
      match b.op, n.row with
      | some op, some row => b.finish ((turn cfg ans).run (b.start op row n.log))
      | _, _ => { n with child := some b }

inductive CreditMsg where
  | startCreditPay (opKey : String) (paymentHash : List UInt8) (invoice : String)
      (amountSat topupSat maxCreditSat maxFeeSat : UInt64) (creditOnly : Bool)
  | startCreditReceive (opKey : String) (amountSat : UInt64) (memo : String)
  | redeem (opKey : String) (amountSat : UInt64)

def buildRecord (opID : String) : CreditMsg → Row
  | .startCreditPay opKey paymentHash invoice amountSat topupSat maxCreditSat maxFeeSat creditOnly =>
    { record :=
        { opID := opID
          opKey := opKey
          kind := .pay
          state := .of (initialState .pay)
          paymentHash := paymentHash
          invoice := invoice
          amountSat := amountSat.toInt64
          topupSat := topupSat.toInt64
          maxCreditSat := maxCreditSat.toInt64
          maxFeeSat := maxFeeSat.toInt64 }
      snapshot := { creditOnly := creditOnly } }
  | .startCreditReceive opKey amountSat memo =>
    { record :=
        { opID := opID
          opKey := opKey
          kind := .receive
          state := .of (initialState .receive)
          amountSat := amountSat.toInt64 }
      snapshot := { memo := memo } }
  | .redeem opKey amountSat =>
    { record :=
        { opID := opID
          opKey := opKey
          kind := .redeem
          state := .of (initialState .redeem)
          amountSat := amountSat.toInt64 }
      snapshot := {} }

/-- The row of a receive once the server has made its invoice. -/
def createReceiveInvoice (row : Row) (res : CreateCreditResult) : Option Row :=
  if res.state.isTerminalFailure ∨ res.invoice = "" then
    none
  else
    some { row with record := { row.record with
      serverOpID := res.operationID
      invoice := res.invoice
      paymentHash := if res.paymentHash = [] then row.record.paymentHash else res.paymentHash
      state := .of .awaitingSettlement
      status := (State.of .awaitingSettlement).status } }

/-- The row that an admission writes and the calls made for it, under the identity key and the
server's answer. -/
def admission (opID : String) (msg : CreditMsg) (acctKey : List UInt8)
    (reply : Option CreateCreditResult) : Option (Row × List Event) :=
  let row := buildRecord opID msg
  match row.record.kind with
  | .receive => do
    let row' ← createReceiveInvoice row (← reply)
    pure (row', [.createCredit acctKey row.record.opKey .lightningReceive
      row.record.amountSat.toUInt64 row.snapshot.memo])
  | _ => some (row, [])

/-- The admission of one operation, the start of its actor, a delivery to it, the end of an actor
whose operation is over, and the end of the process. -/
inductive Action where
  | admitOp (opID : String) (msg : CreditMsg) (acctKey : List UInt8)
      (reply : Option CreateCreditResult)
  | spawn
  | deliver (ans : Answers)
  | reap
  | crash

/-- The row of the operation is written, unless it has one. -/
def Node.admitted (n : Node) (row : Option (Row × List Event)) : Node :=
  match n.row, row with
  | none, some (row, calls) =>
    { child := none
      row := some row
      log := .persisted row.record.state :: calls }
  | _, _ => n

/-- `ensureChild` for an operation whose actor is not resident. -/
def Node.spawn (n : Node) : Node :=
  match n.child, n.row with
  | none, some row =>
    if row.record.status.isTerminal then n
    else { n with child := some { op := some (restore row) } }
  | _, _ => n

def Node.reap (n : Node) : Node :=
  match n.row with
  | some row => if row.record.status.isTerminal then { n with child := none } else n
  | none => { n with child := none }

def Node.step (cfg : OpActorConfig) (n : Node) : Action → Node
  | .admitOp opID msg acctKey reply => n.admitted (admission opID msg acctKey reply)
  | .spawn => n.spawn
  | .deliver ans => n.receive cfg ans
  | .reap => n.reap
  | .crash => { n with child := none }

def Node.run (cfg : OpActorConfig) : List Action → Node → Node
  | [], n => n
  | a :: as, n => Node.run cfg as (n.step cfg a)

end Wavelength.Credit
