import Wavelength.Ledger.Store

/-! # The ledger actor

The messages of the ledger and their handlers. A handler checks the message, builds its
rows and writes them in one transaction: an error leaves the tables as they were.
-/

namespace Wavelength.Ledger

section Messages

inductive FeeType
  | boarding
  | refresh
  | onchainSweep
  | other (name : String)
  deriving DecidableEq

def FeeType.text : FeeType → String
  | boarding => "boarding"
  | refresh => "refresh"
  | onchainSweep => "onchain_sweep"
  | other name => name

inductive Source
  | roundBoarding
  | roundRefresh
  | roundTransfer
  | oor
  | oorSelfChange
  | other (name : String)
  deriving DecidableEq

def Source.text : Source → String
  | roundBoarding => "round_boarding"
  | roundRefresh => "round_refresh"
  | roundTransfer => "round_transfer"
  | oor => "oor"
  | oorSelfChange => "oor_self_change"
  | other name => name

structure FeePaidMsg where
  roundId : RoundId := .zero 16
  amountSat : ℤ
  feeType : FeeType
  blockHeight : UInt32 := 0
  idempotencyKey : List UInt8 := []
  deriving DecidableEq

structure VTXOReceivedMsg where
  outpoint : Outpoint
  amountSat : ℤ
  source : Source
  roundId : RoundId := .zero 16
  sessionId : SessionId := .zero 32
  deriving DecidableEq

structure VTXOSentMsg where
  sessionId : SessionId := .zero 32
  roundId : RoundId := .zero 16
  outpoint : Outpoint := ⟨.zero 32, 0⟩
  amountSat : ℤ
  idempotencyKey : List UInt8 := []
  proceedsOwnWallet : Bool := false
  deriving DecidableEq

structure ExitCostMsg where
  outpoint : Outpoint
  amountSat : ℤ
  exitCostSat : ℤ
  blockHeight : UInt32 := 0
  destinationOwnWallet : Bool := false
  deriving DecidableEq

structure UTXOCreatedMsg where
  outpoint : Outpoint
  amountSat : ℤ
  blockHeight : UInt32 := 0
  classification : Classification
  fundingInputs : List Outpoint := []
  deriving DecidableEq

structure UTXOSpentMsg where
  outpoint : Outpoint
  amountSat : ℤ
  blockHeight : UInt32 := 0
  classification : Classification
  deriving DecidableEq

structure SweepInput where
  outpoint : Outpoint
  amountSat : ℤ
  deriving DecidableEq

structure BoardingSweepConfirmedMsg where
  txid : Hash
  blockHeight : UInt32 := 0
  chainCostSat : ℤ
  inputs : List SweepInput
  destinationSat : ℤ
  destinationExternal : Bool := false
  deriving DecidableEq

inductive Msg
  | restart
  | feePaid (m : FeePaidMsg)
  | vtxoReceived (m : VTXOReceivedMsg)
  | vtxoSent (m : VTXOSentMsg)
  | exitCost (m : ExitCostMsg)
  | utxoCreated (m : UTXOCreatedMsg)
  | utxoSpent (m : UTXOSpentMsg)
  | boardingSweepConfirmed (m : BoardingSweepConfirmedMsg)
  deriving DecidableEq

end Messages

section Texts

/-- The text of a transaction hash, which shows its bytes in reverse. -/
def hashText (h : Hash) : String := hex h.data.reverse

def Outpoint.text (op : Outpoint) : String := hashText op.hash ++ ":" ++ toString op.index

/-- An outpoint printed from the bare bytes of its hash. -/
def Outpoint.rawText (op : Outpoint) : String := hex op.hash.data ++ ":" ++ toString op.index

/-- An outpoint whose hash is printed as the hexadecimal form of its text. -/
def Outpoint.hexText (op : Outpoint) : String :=
  hex (hashText op.hash).toUTF8.toList ++ ":" ++ toString op.index

def createdText (outpoint : Outpoint) (classification : Classification) (height : UInt32) : String :=
  "wallet UTXO confirmed at " ++ outpoint.rawText ++ " (classification " ++ classification.text ++
    ") at height " ++ toString height

/-- `outpoint` is the text of the outpoint, which differs between the handlers. -/
def spentText (outpoint : String) (classification : Classification) (height : UInt32) : String :=
  "wallet UTXO spent at " ++ outpoint ++ " (classification " ++ classification.text ++
    ") at height " ++ toString height

end Texts

section Keys

def outpointIdempotencyPayload (op : Outpoint) : List UInt8 := op.hash.data ++ be32 op.index

def ledgerIdempotencyKey (operation leg : String) (payload : List UInt8) : List UInt8 :=
  ("ledger:v1:" ++ operation ++ ":" ++ leg ++ ":").toUTF8.toList ++ payload

def sendProceedsIdempotencyKey (sendKey : List UInt8) : List UInt8 :=
  ledgerIdempotencyKey "send" "proceeds" sendKey

def refreshSendIdempotencyKey (op : Outpoint) : List UInt8 :=
  ledgerIdempotencyKey "round_refresh" "send" (outpointIdempotencyPayload op)

def exitSendIdempotencyKey (op : Outpoint) : List UInt8 :=
  ledgerIdempotencyKey "unilateral_exit" "send" (outpointIdempotencyPayload op)

def exitProceedsIdempotencyKey (op : Outpoint) : List UInt8 :=
  ledgerIdempotencyKey "unilateral_exit" "proceeds" (outpointIdempotencyPayload op)

def exitFeeIdempotencyKey (op : Outpoint) : List UInt8 :=
  ledgerIdempotencyKey "unilateral_exit" "fee" (outpointIdempotencyPayload op)

def walletUTXOIdempotencyKey (op : Outpoint) : List UInt8 := outpointIdempotencyPayload op

def classifiedUTXOIdempotencyKey (classification : Classification) (op : Outpoint) : List UInt8 :=
  ledgerIdempotencyKey classification.text "spend" (outpointIdempotencyPayload op)

end Keys

section Legs

variable (now : ℤ)

def feeEntry (m : FeePaidMsg) : Except Err LedgerEntry :=
  let roundText := m.feeType.text ++ " fee paid in round " ++ hex m.roundId.data
  match m.feeType with
  | .boarding =>
    .ok { debitAccount := .feesPaid, creditAccount := .walletBalance, amountSat := m.amountSat,
          roundId := m.roundId.nonzero, eventType := .boardingFeePaid, description := roundText,
          createdAt := now }
  | .refresh =>
    .ok { debitAccount := .feesPaid, creditAccount := .vtxoBalance, amountSat := m.amountSat,
          roundId := m.roundId.nonzero, eventType := .refreshFeePaid, description := roundText,
          createdAt := now }
  | .onchainSweep =>
    if m.idempotencyKey.length ≠ 32 then
      .error (.invalidMessage ("FeePaidMsg onchain-sweep idempotency_key must be 32 bytes (got " ++
        toString m.idempotencyKey.length ++ ")"))
    else
      .ok { debitAccount := .onchainFees, creditAccount := .walletClearing,
            amountSat := m.amountSat, eventType := .boardingSweepFeePaid,
            description := "boarding-sweep on-chain cost", createdAt := now,
            idempotencyKey := some m.idempotencyKey }
  | .other name => .error (.invalidMessage ("unknown fee type " ++ name))

def receiveCredit : Source → Except Err Account
  | .oor | .roundTransfer => .ok .transfersIn
  | .roundBoarding => .ok .walletBalance
  | .oorSelfChange | .roundRefresh => .ok .transfersOut
  | .other name => .error (.invalidMessage ("unknown vtxo source " ++ name))

def receivedEntry (m : VTXOReceivedMsg) (source : Source) (credit : Account) : LedgerEntry where
  debitAccount := .vtxoBalance
  creditAccount := credit
  amountSat := m.amountSat
  roundId := m.roundId.nonzero
  eventType := .vtxoReceived
  description := "VTXO received via " ++ source.text ++ ": " ++ m.outpoint.rawText
  createdAt := now
  idempotencyKey := some (walletUTXOIdempotencyKey m.outpoint)
  chainTxid := some m.outpoint.hash
  chainVout := some m.outpoint.index

def sentText (m : VTXOSentMsg) : String :=
  if m.sessionId.nonzero.isSome then "VTXO sent in OOR session " ++ hex m.sessionId.data
  else "VTXO sent in round " ++ hex m.roundId.data

def sentKey (m : VTXOSentMsg) : Option (List UInt8) :=
  if m.idempotencyKey ≠ [] then some m.idempotencyKey
  else if m.outpoint.hash ≠ .zero 32 then some (refreshSendIdempotencyKey m.outpoint)
  else none

def sentEntry (m : VTXOSentMsg) : LedgerEntry where
  debitAccount := .transfersOut
  creditAccount := .vtxoBalance
  amountSat := m.amountSat
  sessionId := m.sessionId.nonzero
  roundId := m.roundId.nonzero
  eventType := .vtxoSent
  description := sentText m
  createdAt := now
  idempotencyKey := sentKey m

def sentProceedsEntry (m : VTXOSentMsg) (key : List UInt8) : LedgerEntry where
  debitAccount := .walletBalance
  creditAccount := .transfersOut
  amountSat := m.amountSat
  sessionId := m.sessionId.nonzero
  roundId := m.roundId.nonzero
  eventType := .vtxoSent
  description := sentText m ++ " (own-wallet proceeds)"
  createdAt := now
  idempotencyKey := some (sendProceedsIdempotencyKey key)

/-- The legs of an exit, which differ in accounts, amount, text and key. -/
def exitLeg (m : ExitCostMsg) (debit credit : Account) (amountSat : ℤ) (eventType : EventType)
    (text : String) (key : List UInt8) : LedgerEntry where
  debitAccount := debit
  creditAccount := credit
  amountSat := amountSat
  eventType := eventType
  description := text ++ m.outpoint.rawText ++ " at height " ++ toString m.blockHeight
  createdAt := now
  idempotencyKey := some key
  chainTxid := some m.outpoint.hash
  chainVout := some m.outpoint.index
  confirmationHeight := some m.blockHeight

def exitSendLeg (m : ExitCostMsg) : LedgerEntry :=
  exitLeg now m .transfersOut .vtxoBalance (m.amountSat - m.exitCostSat) .vtxoSent
    "unilateral exit net value for " (exitSendIdempotencyKey m.outpoint)

def exitFeeLeg (m : ExitCostMsg) : LedgerEntry :=
  exitLeg now m .onchainFees .vtxoBalance m.exitCostSat .onchainFeePaid "exit cost for "
    (exitFeeIdempotencyKey m.outpoint)

def exitProceedsLeg (m : ExitCostMsg) : LedgerEntry :=
  exitLeg now m .walletBalance .transfersOut (m.amountSat - m.exitCostSat) .vtxoSent
    "unilateral exit proceeds to own wallet for " (exitProceedsIdempotencyKey m.outpoint)

def createdEntry (op : Outpoint) (amountSat : ℤ) (classification : Classification)
    (height : UInt32) : LedgerEntry where
  debitAccount := .walletBalance
  creditAccount :=
    if classification = .boardingSweepReturn then .walletClearing else .openingBalance
  amountSat := amountSat
  eventType := .walletUTXOCreated
  description := createdText op classification height
  createdAt := now
  idempotencyKey := some (walletUTXOIdempotencyKey op)
  chainTxid := some op.hash
  chainVout := some op.index
  confirmationHeight := some height

def sweptEntry (op : Outpoint) (text : String) (amountSat : ℤ) (height : UInt32) : LedgerEntry where
  debitAccount := .walletClearing
  creditAccount := .walletBalance
  amountSat := amountSat
  eventType := .walletUTXOSpent
  description := spentText text .boardingSweepInput height
  createdAt := now
  idempotencyKey := some (walletUTXOIdempotencyKey op)
  chainTxid := some op.hash
  chainVout := some op.index
  confirmationHeight := some height

/-- The leg that undoes the credit of an output that funds a boarding deposit. -/
def reversalEntry (op : Outpoint) (amountSat : ℤ) (height : UInt32) : LedgerEntry where
  debitAccount := .openingBalance
  creditAccount := .walletBalance
  amountSat := amountSat
  eventType := .walletUTXOSpent
  description := spentText op.text .depositFunding height
  createdAt := now
  idempotencyKey := some (classifiedUTXOIdempotencyKey .depositFunding op)
  chainTxid := some op.hash
  chainVout := some op.index
  confirmationHeight := some height

def sweepFeeEntry (m : BoardingSweepConfirmedMsg) : LedgerEntry where
  debitAccount := .onchainFees
  creditAccount := .walletClearing
  amountSat := m.chainCostSat
  eventType := .boardingSweepFeePaid
  description := "boarding-sweep on-chain cost"
  createdAt := now
  idempotencyKey := some m.txid.data

def sweepTransferEntry (m : BoardingSweepConfirmedMsg) : LedgerEntry where
  debitAccount := .transfersOut
  creditAccount := .walletClearing
  amountSat := m.destinationSat
  eventType := .walletSweepTransfer
  description := "wallet sweep external transfer for txid " ++ hex m.txid.data ++ " at height " ++
    toString m.blockHeight
  createdAt := now
  idempotencyKey := some ("wallet-sweep:".toUTF8.toList ++ m.txid.data)
  chainTxid := some m.txid
  confirmationHeight := some m.blockHeight

structure SweepLeg where
  audit : Option UTXOAuditEntry := none
  entry : LedgerEntry

def sweepInputLeg (m : BoardingSweepConfirmedMsg) (i : SweepInput) : SweepLeg where
  audit := some ⟨i.outpoint, i.amountSat, .spent, m.blockHeight, .boardingSweepInput, now⟩
  entry := sweptEntry now i.outpoint i.outpoint.hexText i.amountSat m.blockHeight

def BoardingSweepConfirmedMsg.returnPoint (m : BoardingSweepConfirmedMsg) : Outpoint := ⟨m.txid, 0⟩

def sweepDestinationLeg (m : BoardingSweepConfirmedMsg) : SweepLeg :=
  if m.destinationExternal then { entry := sweepTransferEntry now m }
  else
    { audit := some ⟨m.returnPoint, m.destinationSat, .created, m.blockHeight,
        .boardingSweepReturn, now⟩
      entry := createdEntry now m.returnPoint m.destinationSat .boardingSweepReturn m.blockHeight }

def boardingSweepLegs (m : BoardingSweepConfirmedMsg) : List SweepLeg :=
  { entry := sweepFeeEntry now m } :: (m.inputs.map (sweepInputLeg now m) ++
    [sweepDestinationLeg now m])

end Legs

section Identity

variable {e : LedgerEntry}

theorem LedgerEntry.identified_of_key (h : e.idempotencyKey = some key) (hkey : key ≠ []) :
    e.Identified := by
  refine ⟨?_, ?_⟩
  · simp [hasIdentity, keyLength, h, List.length_pos_iff.2 hkey]
  · rw [h]
    exact fun hk => hkey (Option.some_inj.1 hk)

theorem outpointIdempotencyPayload_ne_nil : outpointIdempotencyPayload op ≠ [] := by
  simp [outpointIdempotencyPayload, be32]

theorem ledgerIdempotencyKey_ne_nil (h : payload ≠ []) :
    ledgerIdempotencyKey operation leg payload ≠ [] := by
  simp [ledgerIdempotencyKey, h]

theorem Hash.data_ne_nil (h : Hash) : h.data ≠ [] := by
  intro hnil
  have := h.length
  simp [hnil] at this

theorem sentKey_ne_nil : sentKey m ≠ some [] := by
  unfold sentKey
  split
  · next h => exact fun hk => h (Option.some_inj.1 hk)
  split
  · exact fun hk => ledgerIdempotencyKey_ne_nil outpointIdempotencyPayload_ne_nil
      (Option.some_inj.1 hk)
  · nofun

theorem createdEntry_identified : (createdEntry now op amountSat c height).Identified :=
  LedgerEntry.identified_of_key rfl outpointIdempotencyPayload_ne_nil

theorem sweptEntry_identified : (sweptEntry now op text amountSat height).Identified :=
  LedgerEntry.identified_of_key rfl outpointIdempotencyPayload_ne_nil

theorem reversalEntry_identified : (reversalEntry now op amountSat height).Identified :=
  LedgerEntry.identified_of_key rfl (ledgerIdempotencyKey_ne_nil outpointIdempotencyPayload_ne_nil)

theorem sentEntry_identified (h : ¬ (m.sessionId.nonzero = none ∧ m.roundId.nonzero = none)) :
    (sentEntry now m).Identified := by
  refine ⟨?_, sentKey_ne_nil⟩
  simp only [LedgerEntry.hasIdentity, sentEntry, Bool.or_eq_true, Option.isSome_iff_ne_none]
  by_cases hs : m.sessionId.nonzero = none
  · exact .inr fun hr => h ⟨hs, hr⟩
  · exact .inl (.inr hs)

theorem sentProceedsEntry_identified (h : sentKey m = some key) :
    (sentProceedsEntry now m key).Identified := by
  refine LedgerEntry.identified_of_key rfl (ledgerIdempotencyKey_ne_nil fun hnil => ?_)
  exact sentKey_ne_nil (hnil ▸ h)

theorem exitLeg_identified {m : ExitCostMsg} {text operation leg : String} :
    (exitLeg now m debit credit amountSat event text
      (ledgerIdempotencyKey operation leg (outpointIdempotencyPayload m.outpoint))).Identified :=
  LedgerEntry.identified_of_key rfl (ledgerIdempotencyKey_ne_nil outpointIdempotencyPayload_ne_nil)

end Identity

section Handlers

variable (now : ℤ) (t : Tables)

def positive (name : String) (amountSat : ℤ) : Except Err Unit :=
  if amountSat ≤ 0 then
    .error (.invalidMessage (name ++ " must be positive (got " ++ toString amountSat ++ ")"))
  else .ok ()

def handleFeePaid (m : FeePaidMsg) : Except Err Tables := do
  positive "FeePaidMsg amount_sat" m.amountSat
  t.insertLedgerEntry (← feeEntry now m)

/-- The source under which a receive is booked: under a session with a send of ours it is
our own change. -/
def receiveSource (m : VTXOReceivedMsg) : Source :=
  if m.source = .oor ∧ m.sessionId ≠ .zero 32 ∧
      t.hasSessionEntry m.sessionId (.vtxoSent, .transfersOut, .vtxoBalance) then .oorSelfChange
  else m.source

def handleVTXOReceived (m : VTXOReceivedMsg) : Except Err Tables := do
  positive "VTXOReceivedMsg amount_sat" m.amountSat
  let credit ← receiveCredit m.source
  if t.hasEntryForKey (walletUTXOIdempotencyKey m.outpoint) .vtxoReceived then return t
  let source := receiveSource t m
  t.insertLedgerEntry
    (receivedEntry now m source (if source = m.source then credit else .transfersOut))

def handleVTXOSent (m : VTXOSentMsg) : Except Err Tables := do
  positive "VTXOSentMsg amount_sat" m.amountSat
  match m.sessionId.nonzero, m.roundId.nonzero with
  | none, none =>
    .error (.invalidMessage "VTXOSentMsg requires one of SessionID or RoundID to be non-zero")
  | some _, some _ => .error (.invalidMessage "VTXOSentMsg cannot set both SessionID and RoundID")
  | _, _ =>
    match m.proceedsOwnWallet, sentKey m with
    | true, none =>
      .error (.invalidMessage ("VTXOSentMsg sets proceeds_own_wallet without an idempotency " ++
        "key, which the proceeds leg is keyed from"))
    | true, some key =>
      (← t.insertLedgerEntry (sentEntry now m)).insertLedgerEntry (sentProceedsEntry now m key)
    | false, _ => t.insertLedgerEntry (sentEntry now m)

def handleExitCost (m : ExitCostMsg) : Except Err Tables := do
  if m.exitCostSat ≤ 0 ∨ m.amountSat ≤ 0 then
    throw (.invalidMessage ("exit cost requires positive amount_sat and exit_cost_sat (got " ++
      toString m.amountSat ++ ", " ++ toString m.exitCostSat ++ ")"))
  if m.amountSat ≤ m.exitCostSat then
    throw (.invalidMessage ("exit cost " ++ toString m.exitCostSat ++
      " exceeds or equals VTXO amount " ++ toString m.amountSat ++ " for " ++ m.outpoint.rawText))
  let t ← t.insertLedgerEntry (exitSendLeg now m)
  let t ← t.insertLedgerEntry (exitFeeLeg now m)
  if m.destinationOwnWallet then t.insertLedgerEntry (exitProceedsLeg now m) else return t

def creditAlreadyBooked : Classification → Bool
  | .exitProceeds | .leaveProceeds => true
  | _ => false

def bookProceedsReversal (op : Outpoint) (amountSat : ℤ) (height : UInt32) : Except Err Tables := do
  let t ← t.insertUTXOAuditEntry ⟨op, amountSat, .spent, height, .depositFunding, now⟩
  t.insertLedgerEntry (reversalEntry now op amountSat height)

def bookDepositFunding (m : UTXOCreatedMsg) : List Outpoint → Tables → Except Err Tables
  | [], t => .ok t
  | input :: inputs, t =>
    let t := t.insertDepositFundingInput input m.outpoint now
    match t.lookupCreatedUTXO input with
    | none => bookDepositFunding m inputs t
    | some created =>
      if isOwnWalletProceeds created.classifiedAs then do
        let t ← bookProceedsReversal now t input created.amountSat m.blockHeight
        bookDepositFunding m inputs t
      else bookDepositFunding m inputs t

def reverseIfDepositFunded (op : Outpoint) (amountSat : ℤ) : Except Err Tables :=
  match t.depositsFundedByInput op with
  | [] => .ok t
  | deposit :: _ =>
    match t.lookupCreatedUTXO deposit with
    | none => .error (.missingDeposit deposit op)
    | some created => bookProceedsReversal now t op amountSat created.blockHeight

/-- The credit leg, unless an earlier message has booked it. -/
def creditCreated (m : UTXOCreatedMsg) : Except Err Tables :=
  if creditAlreadyBooked m.classification then .ok t
  else
    t.insertLedgerEntry (createdEntry now m.outpoint m.amountSat m.classification m.blockHeight)

/-- Without an audit store the handler does nothing. -/
def handleUTXOCreated (audited : Bool) (m : UTXOCreatedMsg) : Except Err Tables := do
  if !audited then return t
  positive "UTXOCreatedMsg amount_sat" m.amountSat
  let t ← t.insertUTXOAuditEntry
    ⟨m.outpoint, m.amountSat, .created, m.blockHeight, m.classification, now⟩
  let t ← creditCreated now t m
  if m.classification = .deposit then bookDepositFunding now m m.fundingInputs t
  else if isOwnWalletProceeds m.classification then
    reverseIfDepositFunded now t m.outpoint m.amountSat
  else return t

def handleUTXOSpent (audited : Bool) (m : UTXOSpentMsg) : Except Err Tables := do
  if !audited then return t
  let audit : UTXOAuditEntry := ⟨m.outpoint, m.amountSat, .spent, m.blockHeight, m.classification, now⟩
  if m.classification = .boardingSweepInput then
    positive "UTXOSpentMsg amount_sat" m.amountSat
    (← t.insertUTXOAuditEntry audit).insertLedgerEntry
      (sweptEntry now m.outpoint m.outpoint.rawText m.amountSat m.blockHeight)
  else t.insertUTXOAuditEntry audit

def auditSweepLeg (audited : Bool) (leg : SweepLeg) (t : Tables) : Except Err Tables :=
  match leg.audit with
  | some audit => if audited then t.insertUTXOAuditEntry audit else .ok t
  | none => .ok t

def insertSweepLegs (audited : Bool) : List SweepLeg → Tables → Except Err Tables
  | [], t => .ok t
  | leg :: legs, t => do
    let t ← auditSweepLeg audited leg t
    let t ← t.insertLedgerEntry leg.entry
    insertSweepLegs audited legs t

def checkSweepInputs : List SweepInput → Except Err Unit
  | [] => .ok ()
  | i :: inputs => do
    positive ("BoardingSweepConfirmedMsg input " ++ i.outpoint.text ++ " amount_sat") i.amountSat
    checkSweepInputs inputs

def handleBoardingSweepConfirmed (audited : Bool) (m : BoardingSweepConfirmedMsg) :
    Except Err Tables := do
  positive "BoardingSweepConfirmedMsg chain_cost_sat" m.chainCostSat
  positive "BoardingSweepConfirmedMsg destination_sat" m.destinationSat
  if m.inputs = [] then
    throw (.invalidMessage "BoardingSweepConfirmedMsg must carry at least one input")
  checkSweepInputs m.inputs
  let t ← insertSweepLegs audited (boardingSweepLegs now m) t
  if m.destinationExternal || !audited then return t
  reverseIfDepositFunded now t m.returnPoint m.destinationSat

def receive (audited : Bool) : Msg → Except Err Tables
  | .restart => .ok t
  | .feePaid m => handleFeePaid now t m
  | .vtxoReceived m => handleVTXOReceived now t m
  | .vtxoSent m => handleVTXOSent now t m
  | .exitCost m => handleExitCost now t m
  | .utxoCreated m => handleUTXOCreated now t audited m
  | .utxoSpent m => handleUTXOSpent now t audited m
  | .boardingSweepConfirmed m => handleBoardingSweepConfirmed now t audited m

end Handlers

structure Delivery where
  now : ℤ
  msg : Msg
  deriving DecidableEq

/-- The tables after a delivery: an error rolls the transaction back. -/
def deliver (audited : Bool) (t : Tables) (d : Delivery) : Tables :=
  match receive d.now t audited d.msg with
  | .ok t' => t'
  | .error _ => t

def accepted (audited : Bool) (t : Tables) (d : Delivery) : Bool :=
  match receive d.now t audited d.msg with
  | .ok _ => true
  | .error _ => false

def deliveries (audited : Bool) (t : Tables) (ds : List Delivery) : Tables :=
  ds.foldl (deliver audited) t

end Wavelength.Ledger
