import Wavelength.Base.Action

/-! # Credit operations

A credit operation pays, receives or redeems credits. Its actor drives a state machine that calls
the credit server and the daemon in line, writes the operation to its row at checkpoints and once
more at the end of every delivery, and starts again from the row after a write that failed.
-/

namespace Wavelength.Credit

inductive OpKind where
  | pay
  | receive
  | redeem

inductive CreditState where
  | quoting
  | topupCreating
  | topupFunding
  | topupAwaitingCredit
  | paying
  | payAwaitingSettlement
  | receiveCreating
  | awaitingSettlement
  | redeemReserving
  | redeemSubmitting
  | awaitingOOR
  | completed
  | failed
  deriving DecidableEq

/-- The state column of a row, whose text may be one that no state has. -/
inductive State where
  | of (s : CreditState)
  | unrecognized (text : String)
  deriving DecidableEq

inductive CreditOpStatus where
  | pending
  | completed
  | failed

def CreditState.text : CreditState → String
  | .quoting => "quoting"
  | .topupCreating => "topup_creating"
  | .topupFunding => "topup_funding"
  | .topupAwaitingCredit => "topup_awaiting_credit"
  | .paying => "paying"
  | .payAwaitingSettlement => "pay_awaiting_settlement"
  | .receiveCreating => "receive_creating"
  | .awaitingSettlement => "awaiting_settlement"
  | .redeemReserving => "redeem_reserving"
  | .redeemSubmitting => "redeem_submitting"
  | .awaitingOOR => "awaiting_oor"
  | .completed => "completed"
  | .failed => "failed"

def State.text : State → String
  | .of s => s.text
  | .unrecognized text => text

def CreditState.isTerminal : CreditState → Bool
  | .completed | .failed => true
  | _ => false

def State.isTerminal : State → Bool
  | .of s => s.isTerminal
  | .unrecognized _ => false

def State.status : State → CreditOpStatus
  | .of .completed => .completed
  | .of .failed => .failed
  | _ => .pending

def CreditOpStatus.isTerminal : CreditOpStatus → Bool
  | .pending => false
  | .completed | .failed => true

def initialState : OpKind → CreditState
  | .pay => .quoting
  | .receive => .receiveCreating
  | .redeem => .redeemReserving

/-- The state of a row, and whether its text was recognized. -/
def decodeCreditState : State → CreditState × Bool
  | .of s => (s, true)
  | .unrecognized _ => (.failed, false)

structure CreditOperationRecord where
  opID : String
  opKey : String
  kind : OpKind
  state : State
  status : CreditOpStatus := .pending
  serverOpID : String := ""
  paymentHash : List UInt8 := []
  destinationPubkey : List UInt8 := []
  oorSessionID : String := ""
  invoice : String := ""
  amountSat : Int64 := 0
  topupSat : Int64 := 0
  maxCreditSat : Int64 := 0
  maxFeeSat : Int64 := 0
  lastError : String := ""

structure OpSnapshot where
  redeemPkScript : List UInt8 := []
  memo : String := ""
  creditOnly : Bool := false
  awaitPolls : UInt32 := 0

/-- A row of the store, the columns and the decoded snapshot. -/
structure Row where
  record : CreditOperationRecord
  snapshot : OpSnapshot

/-! ## The credit server and the daemon -/

inductive ServerCreditState where
  | created
  | awaitingPayment
  | credited
  | reserved
  | payingLightning
  | debited
  | sendingOOR
  | redeemed
  | released
  | expired
  | failed
  deriving DecidableEq

def ServerCreditState.text : ServerCreditState → String
  | .created => "created"
  | .awaitingPayment => "awaiting_payment"
  | .credited => "credited"
  | .reserved => "reserved"
  | .payingLightning => "paying_lightning"
  | .debited => "debited"
  | .sendingOOR => "sending_oor"
  | .redeemed => "redeemed"
  | .released => "released"
  | .expired => "expired"
  | .failed => "failed"

def ServerCreditState.isTerminalFailure : ServerCreditState → Bool
  | .failed | .expired | .released => true
  | _ => false

inductive CreditSource where
  | lightningReceive
  | arkTopUp

structure CreateCreditResult where
  operationID : String
  state : ServerCreditState
  invoice : String := ""
  paymentHash : List UInt8 := []
  destinationPubkey : List UInt8 := []

structure ServerCreditOp where
  amountSat : UInt64
  operationID : String
  state : ServerCreditState
  paymentHash : List UInt8 := []

structure CreditSnapshot where
  availableSat : UInt64
  operations : List ServerCreditOp

structure RedeemResult where
  operationID : String
  state : ServerCreditState

inductive Code where
  | canceled
  | unknown
  | invalidArgument
  | deadlineExceeded
  | notFound
  | alreadyExists
  | permissionDenied
  | resourceExhausted
  | failedPrecondition
  | aborted
  | outOfRange
  | unimplemented
  | internal
  | unavailable
  | dataLoss
  | unauthenticated
  deriving DecidableEq

/-- A failed call: its code, whether the context was canceled, whether the call was refused before
anything was created, and the text. -/
structure CallError where
  code : Code := .unknown
  canceled : Bool := false
  rejected : Bool := false
  text : String := ""

/-- What becomes of a call; the process may end before it is made or before its reply. -/
inductive Reply (α : Type) where
  | ok (a : α)
  | error (e : CallError)
  | crash (sent : Bool)

/-- What becomes of a write: it is made, or it fails although it may have been made, or the process
ends before or after it. -/
inductive Write where
  | ok
  | failed (written : Bool)
  | crash (written : Bool)

/-- What the world has seen of an operation: the calls with an effect, the scripts that the wallet
handed out, the look-ups at a script, the states written to the row, and what is told to the
registry and the timer. -/
inductive Event where
  | createCredit (accountPubKey : List UInt8) (idempotencyKey : String) (source : CreditSource)
      (amountSat : UInt64) (memo : String)
  | sendOOR (destinationPubKey : List UInt8) (amountSat : UInt64) (idempotencyKey : String)
      (existingOnly : Bool)
  | startPay (invoice : String) (maxFeeSat maxCreditSat : UInt64)
  | allocateReceiveScript (label : String)
  | allocated (pubKey pkScript : List UInt8)
  | redeemCredit (accountPubKey : List UInt8) (idempotencyKey : String) (amountSat : UInt64)
      (destinationPubKey : List UInt8)
  | findLiveVTXOByPkScript (pkScript : List UInt8)
  | persisted (s : State)
  | considerRedeem (availableSat : UInt64)
  | terminalNotification
  | armPollTimer

/-! ## One delivery -/

structure OpActorConfig where
  maxAwaitingPolls : UInt32 := 0
  autoRedeemEnabled : Bool := false
  minRedeemSat : UInt64 := 0

/-- The answers to the calls and writes of one delivery. It visits no state twice, so a call that
several states make is answered for each of them. -/
structure Answers where
  getOperation : Write := .ok
  identityPubKey : Reply (List UInt8) := .ok [2]
  createCredit : Reply CreateCreditResult := .error {}
  sendOOR : Bool → Reply String := fun _ => .error {}
  listCredits : CreditState → Reply (Option CreditSnapshot) := fun _ => .error {}
  startPay : Reply Unit := .error {}
  allocateReceiveScript : Reply (List UInt8 × List UInt8) := .error {}
  redeemCredit : Reply RedeemResult := .error {}
  findLiveVTXOByPkScript : Reply (Bool × Int64) := .error {}
  earmark : Option (Reply UInt64) := none
  vtxoFloor : Reply UInt64 := .error {}
  enqueuedFor : Option ℕ := none
  stage : CreditState → Write := fun _ => .ok
  commit : Write := .ok

inductive OpError where
  | failed
  | postponed
  | crash

structure Resumed where
  record : CreditOperationRecord
  redeemPkScript : List UInt8
  receiveMemo : String
  creditOnly : Bool
  awaitPolls : UInt32
  curState : CreditState
  corruptState : Bool

def restore (row : Row) : Resumed :=
  let (curState, known) := decodeCreditState row.record.state
  { record := row.record
    redeemPkScript := row.snapshot.redeemPkScript
    receiveMemo := row.snapshot.memo
    creditOnly := row.snapshot.creditOnly
    awaitPolls := row.snapshot.awaitPolls
    curState := curState
    corruptState := !known }

def Resumed.toRow (op : Resumed) : Row where
  record := op.record
  snapshot :=
    { redeemPkScript := op.redeemPkScript
      memo := op.receiveMemo
      creditOnly := op.creditOnly
      awaitPolls := op.awaitPolls }

structure Turn where
  op : Resumed
  acctKey : List UInt8
  armRetry : Bool
  pendingRedeem : Option UInt64
  row : Row
  log : List Event

abbrev Op (α : Type) := EStateM OpError Turn α

def getOp : Op Resumed := do
  pure (← get).op

def modifyOp (f : Resumed → Resumed) : Op Unit := modify fun t => { t with op := f t.op }

def modifyRecord (f : CreditOperationRecord → CreditOperationRecord) : Op Unit :=
  modifyOp fun op => { op with record := f op.record }

def note (e : Event) : Op Unit := modify fun t => { t with log := e :: t.log }

def call {α : Type} (e : Event) : Reply α → Op (Except CallError α)
  | .ok a => do
    note e
    pure (.ok a)
  | .error err => do
    note e
    pure (.error err)
  | .crash true => do
    note e
    throw .crash
  | .crash false => throw .crash

def ask {α : Type} : Reply α → Op (Except CallError α)
  | .ok a => pure (.ok a)
  | .error err => pure (.error err)
  | .crash _ => throw .crash

/-- `persist` in the transaction of a checkpoint or of the commit. -/
def writeRow : Op Unit :=
  modify fun t => { t with
    row := t.op.toRow
    log := .persisted t.op.record.state :: t.log }

def writeRowIf (c : Bool) : Op Unit := if c then writeRow else pure ()

def persist : Write → Op Unit
  | .ok => writeRow
  | .failed written => do
    writeRowIf written
    throw .failed
  | .crash written => do
    writeRowIf written
    throw .crash

/-! ## The transitions -/

inductive CreditOutMsg where
  | stageRecord
  | parkOp
  | triggerRedeem (availableSat : UInt64)

structure Transition where
  next : CreditState
  outbox : List CreditOutMsg := []

def fail (reason : String) : Op Transition := do
  modifyRecord fun r => { r with lastError := reason }
  pure { next := .failed }

def accountKey (ans : Answers) : Op (Except CallError (List UInt8)) := do
  let t ← get
  if t.acctKey ≠ [] then
    pure (.ok t.acctKey)
  else do
    match ← ask ans.identityPubKey with
    | .error e => pure (.error e)
    | .ok key => do
      modify fun t => { t with acctKey := key }
      pure (.ok key)

def orFail {α : Type} : Except CallError α → Op α
  | .ok a => pure a
  | .error _ => throw .failed

/-- One more poll of an awaiting state; whether the cap is exceeded. -/
def awaitExhausted (cfg : OpActorConfig) : Op Bool := do
  modifyOp fun op => { op with awaitPolls := op.awaitPolls + 1 }
  let op ← getOp
  pure (decide (cfg.maxAwaitingPolls > 0 ∧ op.awaitPolls > cfg.maxAwaitingPolls))

def transientLedgerReadError (e : CallError) : Bool :=
  if e.canceled then
    false
  else
    match e.code with
    | .canceled | .invalidArgument | .notFound | .alreadyExists | .permissionDenied
    | .unauthenticated | .failedPrecondition | .outOfRange | .unimplemented => false
    | _ => true

def listCreditsPostponeHorizon : ℕ := 600

def postponeListCreditsFetch (ans : Answers) (e : CallError) : OpError :=
  if !transientLedgerReadError e then
    .failed
  else
    match ans.enqueuedFor with
    | some age => if listCreditsPostponeHorizon ≤ age then .failed else .postponed
    | none => .postponed

/-- `listCredits` as the awaiting states call it, a failed read being postponed. -/
def listCredits (ans : Answers) (s : CreditState) : Op (Option CreditSnapshot) := do
  match ← accountKey ans with
  | .error e => throw (postponeListCreditsFetch ans e)
  | .ok _ => do
    match ← ask (ans.listCredits s) with
    | .error e => throw (postponeListCreditsFetch ans e)
    | .ok snapshot => pure snapshot

def serverOpState (snapshot : Option CreditSnapshot) (serverOpID : String) :
    Option ServerCreditState :=
  if serverOpID = "" then
    none
  else
    (snapshot.bind fun s => s.operations.find? (·.operationID = serverOpID)).map (·.state)

/-- The state of the pay operation, or why its accounting contradicts the caller's cap. -/
def authorizedPayState (snapshot : Option CreditSnapshot) (paymentHash : List UInt8)
    (maxCreditSat : UInt64) : Except String (Option ServerCreditState) :=
  if paymentHash = [] then
    .ok none
  else
    match snapshot.bind fun s => s.operations.find? (·.paymentHash = paymentHash) with
    | none => .ok none
    | some op =>
      if op.state.isTerminalFailure then
        .ok (some op.state)
      else if op.state ∈ [.debited, .reserved, .payingLightning] ∧ op.amountSat = 0 then
        .error ("credit operation " ++ op.operationID ++ " missing amount")
      else if op.amountSat > maxCreditSat then
        .error ("credit operation " ++ op.operationID ++ " amount " ++ toString op.amountSat ++
          " exceeds max_credit_sat " ++ toString maxCreditSat)
      else
        .ok (some op.state)

def isFundingAdmissionRejected (e : CallError) : Bool :=
  e.code ∈ [.resourceExhausted, .aborted, .outOfRange]

def earmarked (ans : Answers) : Op (Except CallError UInt64) :=
  match ans.earmark with
  | none => pure (.ok 0)
  | some reply => ask reply

def redeemWatermarkCleared (cfg : OpActorConfig) (ans : Answers)
    (snapshot : Option CreditSnapshot) : Op (Option UInt64) := do
  match snapshot with
  | none => pure none
  | some s =>
    if !cfg.autoRedeemEnabled then
      pure none
    else do
      match ← earmarked ans with
      | .error _ => pure none
      | .ok e => do
        let available := if e ≥ s.availableSat then 0 else s.availableSat - e
        if available < cfg.minRedeemSat then
          pure none
        else do
          match ← ask ans.vtxoFloor with
          | .error _ => pure none
          | .ok floor =>
            let threshold := if cfg.minRedeemSat < floor then floor else cfg.minRedeemSat
            if floor = 0 ∨ available < threshold then pure none else pure (some available)

def quoting : Op Transition := do
  let op ← getOp
  pure { next := if op.record.topupSat = 0 then .paying else .topupCreating }

def topupCreating (ans : Answers) : Op Transition := do
  let acctKey ← orFail (← accountKey ans)
  let op ← getOp
  match ← call (.createCredit acctKey op.record.opKey .arkTopUp op.record.topupSat.toUInt64 "")
      ans.createCredit with
  | .error e => if e.rejected then fail ("top-up rejected: " ++ e.text) else throw .failed
  | .ok res =>
    if res.state.isTerminalFailure then
      fail ("top-up credit ended in " ++ res.state.text)
    else if res.destinationPubkey = [] then
      fail "top-up credit missing destination pubkey"
    else do
      modifyRecord fun r => { r with
        serverOpID := res.operationID
        destinationPubkey := res.destinationPubkey }
      pure { next := .topupFunding, outbox := [.stageRecord] }

/-- The send of the top-up, which asks for an earlier transfer under the key when the daemon
refuses it for lack of free funds. -/
def topupFunding (ans : Answers) : Op Transition := do
  let op ← getOp
  let send (existingOnly : Bool) : Op (Except CallError String) :=
    call (.sendOOR op.record.destinationPubkey op.record.topupSat.toUInt64 op.record.opKey
      existingOnly) (ans.sendOOR existingOnly)
  let funded (sessionID : String) : Op Transition := do
    modifyRecord fun r => { r with oorSessionID := sessionID }
    pure { next := .topupAwaitingCredit, outbox := [.stageRecord] }
  match ← send false with
  | .ok sessionID => funded sessionID
  | .error rejection =>
    if isFundingAdmissionRejected rejection then do
      match ← send true with
      | .ok sessionID => funded sessionID
      | .error e =>
        if e.code = .notFound then
          fail ("fund top-up via OOR rejected: " ++ rejection.text)
        else
          throw .failed
    else
      throw .failed

def topupAwaitingCredit (cfg : OpActorConfig) (ans : Answers) : Op Transition := do
  let snapshot ← listCredits ans .topupAwaitingCredit
  let op ← getOp
  match serverOpState snapshot op.record.serverOpID with
  | some state =>
    if state.isTerminalFailure then
      fail ("top-up funding ended in " ++ state.text)
    else if state = .credited then
      pure { next := .paying }
    else awaitMore
  | none => awaitMore
where
  awaitMore : Op Transition := do
    if ← awaitExhausted cfg then
      fail "top-up credit not finalized within poll cap"
    else
      pure { next := .topupAwaitingCredit, outbox := [.parkOp] }

def paying (ans : Answers) : Op Transition := do
  let op ← getOp
  match ← call (.startPay op.record.invoice op.record.maxFeeSat.toUInt64
      op.record.maxCreditSat.toUInt64) ans.startPay with
  | .error e => if e.rejected then fail ("start pay rejected: " ++ e.text) else throw .failed
  | .ok _ =>
    if op.creditOnly ∧ op.record.paymentHash ≠ [] then
      pure { next := .payAwaitingSettlement, outbox := [.stageRecord] }
    else
      pure { next := .completed }

def payAwaitingSettlement (cfg : OpActorConfig) (ans : Answers) : Op Transition := do
  let snapshot ← listCredits ans .payAwaitingSettlement
  let op ← getOp
  let park : Transition := { next := .payAwaitingSettlement, outbox := [.parkOp] }
  match authorizedPayState snapshot op.record.paymentHash op.record.maxCreditSat.toUInt64 with
  | .error e => do
    modifyRecord fun r => { r with lastError := "credit pay requires intervention: " ++ e }
    pure park
  | .ok found =>
    if found = none ∧ op.record.lastError ≠ "" then
      -- Missing evidence does not take back what an earlier answer contradicted.
      pure park
    else do
      modifyRecord fun r => { r with lastError := "" }
      match found with
      | some state =>
        if state = .debited then
          pure { next := .completed }
        else if state.isTerminalFailure then
          fail ("credit pay ended in " ++ state.text)
        else awaitMore park
      | none => awaitMore park
where
  awaitMore (park : Transition) : Op Transition := do
    if ← awaitExhausted cfg then
      fail "credit pay not settled within poll cap"
    else
      pure park

def receiveCreating (ans : Answers) : Op Transition := do
  let acctKey ← orFail (← accountKey ans)
  let op ← getOp
  match ← call (.createCredit acctKey op.record.opKey .lightningReceive
      op.record.amountSat.toUInt64 op.receiveMemo) ans.createCredit with
  | .error _ => throw .failed
  | .ok res =>
    if res.state.isTerminalFailure then
      fail ("receive credit ended in " ++ res.state.text)
    else if res.invoice = "" then
      fail "receive credit missing invoice"
    else do
      modifyRecord fun r => { r with
        serverOpID := res.operationID
        invoice := res.invoice
        paymentHash := if res.paymentHash = [] then r.paymentHash else res.paymentHash }
      pure { next := .awaitingSettlement, outbox := [.stageRecord] }

def awaitingSettlement (cfg : OpActorConfig) (ans : Answers) : Op Transition := do
  let snapshot ← listCredits ans .awaitingSettlement
  let op ← getOp
  match serverOpState snapshot op.record.serverOpID with
  | some state =>
    if state.isTerminalFailure then
      fail ("receive funding ended in " ++ state.text)
    else if state = .credited then do
      match ← redeemWatermarkCleared cfg ans snapshot with
      | some available => pure { next := .completed, outbox := [.triggerRedeem available] }
      | none => pure { next := .completed }
    else
      pure { next := .awaitingSettlement, outbox := [.parkOp] }
  | none => pure { next := .awaitingSettlement, outbox := [.parkOp] }

def redeemReserving (ans : Answers) : Op Transition := do
  let op ← getOp
  if op.record.destinationPubkey ≠ [] ∧ op.redeemPkScript ≠ [] then
    pure { next := .redeemSubmitting }
  else do
    match ← call (.allocateReceiveScript "credit-redeem") ans.allocateReceiveScript with
    | .error _ => throw .failed
    | .ok (pubKey, pkScript) => do
      note (.allocated pubKey pkScript)
      if pubKey = [] ∨ pkScript = [] then
        fail "redeem destination is empty"
      else do
        modifyOp fun op => { op with
          record := { op.record with destinationPubkey := pubKey }
          redeemPkScript := pkScript }
        pure { next := .redeemSubmitting, outbox := [.stageRecord] }

def redeemSubmitting (ans : Answers) : Op Transition := do
  let acctKey ← orFail (← accountKey ans)
  let op ← getOp
  match ← call (.redeemCredit acctKey op.record.opKey op.record.amountSat.toUInt64
      op.record.destinationPubkey) ans.redeemCredit with
  | .error e => if e.rejected then fail ("redeem rejected: " ++ e.text) else throw .failed
  | .ok res =>
    if res.state.isTerminalFailure then
      fail ("redemption ended in " ++ res.state.text)
    else do
      modifyRecord fun r => { r with serverOpID := res.operationID }
      pure { next := .awaitingOOR, outbox := [.stageRecord] }

def awaitingOOR (cfg : OpActorConfig) (ans : Answers) : Op Transition := do
  let snapshot ← listCredits ans .awaitingOOR
  let op ← getOp
  match (serverOpState snapshot op.record.serverOpID).filter (·.isTerminalFailure) with
  | some state => fail ("redemption ended in " ++ state.text)
  | none => do
    match ← call (.findLiveVTXOByPkScript op.redeemPkScript) ans.findLiveVTXOByPkScript with
    | .error _ => throw .failed
    | .ok (found, amountSat) =>
      if found ∧ amountSat > 0 then do
        -- What landed is recorded, even where it is not what was asked for.
        modifyRecord fun r => { r with amountSat := amountSat }
        pure { next := .completed }
      else do
        if ← awaitExhausted cfg then
          fail "redeemed vtxo not seen within poll cap"
        else
          pure { next := .awaitingOOR, outbox := [.parkOp] }

def processEvent (cfg : OpActorConfig) (ans : Answers) : CreditState → Op Transition
  | .quoting => quoting
  | .topupCreating => topupCreating ans
  | .topupFunding => topupFunding ans
  | .topupAwaitingCredit => topupAwaitingCredit cfg ans
  | .paying => paying ans
  | .payAwaitingSettlement => payAwaitingSettlement cfg ans
  | .receiveCreating => receiveCreating ans
  | .awaitingSettlement => awaitingSettlement cfg ans
  | .redeemReserving => redeemReserving ans
  | .redeemSubmitting => redeemSubmitting ans
  | .awaitingOOR => awaitingOOR cfg ans
  | .completed => pure { next := .completed }
  | .failed => pure { next := .failed }

end Wavelength.Credit
