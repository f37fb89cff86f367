import Mathlib.Data.Int.Notation
import Wavelength.Base.Machine
import Wavelength.Swaps.Session
import Wavelength.Swaps.Timing

/-! # Receiving over Lightning

The receiver asks the swap server for a route, hands out an invoice, accepts the event that names
the vHTLC to be funded, waits for the funding and claims it with the preimage. The claim is what
reveals the preimage. What the server, the daemon and the indexer answer is an argument of each
action.
-/

namespace Wavelength.Swaps

/-- The wire configuration of a vHTLC; the key is `none` where its bytes are no key. -/
structure VHTLCConfig extends VHTLCTiming where
  swapServerPubkey : Option PubKey

/-- The policy of a vHTLC towards this client. Its script is a function of it. -/
structure VHTLCPolicy where
  sender : PubKey
  timing : VHTLCTiming
  deriving DecidableEq

structure SatAmount where
  sat : ℕ
  pos : 0 < sat
  le : sat ≤ 2100000000000000
  deriving DecidableEq

def SatAmount.toUInt64 (a : SatAmount) : UInt64 := .ofNat a.sat

structure RouteQuote where
  routeHintPaths : List (List ℕ)
  requestedAmountSat : UInt64
  vhtlcAmountSat : UInt64
  attachedCreditSat : UInt64

inductive SettlementType where
  | lightning
  | inArk
  deriving DecidableEq

structure DecodedOnion where
  amountToForward : UInt64
  totalAmount : UInt64
  paymentAddrMatches : Bool
  hasMPP : Bool

/-- A part with its onion, `none` where it does not decode. -/
structure OutSwapHtlcPart where
  amountMsat : UInt64
  onion : Option DecodedOnion

structure OutSwapHtlcEvent where
  paymentHash : PaymentHash
  requestedAmountSat : UInt64
  attachedCreditSat : UInt64
  amountSat : ℤ
  parts : List OutSwapHtlcPart
  /-- The onion of an event without parts. -/
  onion : Option DecodedOnion
  vhtlcConfig : VHTLCConfig

structure InArkHtlcEvent where
  paymentHash : PaymentHash
  requestedAmountSat : UInt64
  attachedCreditSat : UInt64
  amountSat : ℤ
  senderPubkey : Option PubKey
  vhtlcConfig : VHTLCConfig

inductive IncomingEvent where
  | outSwap (e : OutSwapHtlcEvent)
  | inArk (e : InArkHtlcEvent)
  | empty

structure IncomingVHTLCNotification where
  event : IncomingEvent
  ackCursor : UInt64
  hasAck : Bool

inductive ReceiveState where
  | created
  | invoiceCreated
  | htlcEventAccepted
  | vhtlcFunded
  | claimInitiated
  | completed
  | expired
  | needsIntervention
  | failed
  deriving DecidableEq

inductive ReceiveEvent where
  | invoiceCreated
  | htlcEventAccepted
  | vhtlcFunded
  | claimInitiated
  | completed
  | expired
  | needsIntervention
  | failed

def receiveTransitions : ReceiveState → ReceiveEvent → Option ReceiveState
  | .created, .invoiceCreated => some .invoiceCreated
  | .invoiceCreated, .htlcEventAccepted => some .htlcEventAccepted
  | .htlcEventAccepted, .vhtlcFunded => some .vhtlcFunded
  | .vhtlcFunded, .claimInitiated => some .claimInitiated
  | .claimInitiated, .completed => some .completed
  | .created, .expired => some .expired
  | .created, .needsIntervention => some .needsIntervention
  | .created, .failed => some .failed
  | .invoiceCreated, .expired => some .expired
  | .invoiceCreated, .needsIntervention => some .needsIntervention
  | .invoiceCreated, .failed => some .failed
  | .htlcEventAccepted, .expired => some .expired
  | .htlcEventAccepted, .needsIntervention => some .needsIntervention
  | .htlcEventAccepted, .failed => some .failed
  | .vhtlcFunded, .expired => some .expired
  | .vhtlcFunded, .needsIntervention => some .needsIntervention
  | .vhtlcFunded, .failed => some .failed
  | .claimInitiated, .expired => some .expired
  | .claimInitiated, .needsIntervention => some .needsIntervention
  | .claimInitiated, .failed => some .failed
  | _, _ => none

structure ReceiveSession where
  amountSat : SatAmount
  /-- `none` before there is an invoice. -/
  paymentHash : Option PaymentHash := none
  requestedAmountSat : UInt64 := 0
  attachedCreditSat : UInt64 := 0
  expectedVHTLCSat : UInt64 := 0
  /-- What the invoice and the credit that the quote attached to it come to. -/
  quotedSat : ℕ := 0
  state : ReceiveState := .created
  settlementType : Option SettlementType := none
  vhtlcPolicy : Option VHTLCPolicy := none
  vhtlcOutpoint : String := ""
  vhtlcAmount : ℤ := 0
  pendingHTLCAckCursor : UInt64 := 0
  hasClaimReceiveInfo : Bool := false
  claimSessionID : String := ""
  claimRecoveryID : String := ""
  claimIntentRecordedInProcess : Bool := false
  deriving DecidableEq

/-- The row of a session. The expected amount and the recorded intent are not in it. -/
structure ReceiveSwapRow where
  paymentHash : PaymentHash
  amountSat : SatAmount
  requestedAmountSat : Int64
  attachedCreditSat : Int64
  quotedSat : ℕ
  state : ReceiveState
  settlementType : Option SettlementType
  vhtlcPolicy : Option VHTLCPolicy
  vhtlcOutpoint : String
  vhtlcAmount : ℤ
  pendingHTLCAckCursor : UInt64
  hasClaimReceiveInfo : Bool
  claimSessionID : String
  claimRecoveryID : String

def ReceiveSession.save (s : ReceiveSession) : Option ReceiveSwapRow :=
  s.paymentHash.map fun h =>
    { paymentHash := h, amountSat := s.amountSat,
      requestedAmountSat := s.requestedAmountSat.toInt64,
      attachedCreditSat := s.attachedCreditSat.toInt64, quotedSat := s.quotedSat,
      state := s.state, settlementType := s.settlementType, vhtlcPolicy := s.vhtlcPolicy,
      vhtlcOutpoint := s.vhtlcOutpoint, vhtlcAmount := s.vhtlcAmount,
      pendingHTLCAckCursor := s.pendingHTLCAckCursor,
      hasClaimReceiveInfo := s.hasClaimReceiveInfo, claimSessionID := s.claimSessionID,
      claimRecoveryID := s.claimRecoveryID }

def receiveExpectedVHTLCSat (row : ReceiveSwapRow) : UInt64 :=
  let requested :=
    if row.requestedAmountSat.toUInt64 = 0 then row.amountSat.toUInt64
    else row.requestedAmountSat.toUInt64
  requested + row.attachedCreditSat.toUInt64

def receiveSessionFromRow (row : ReceiveSwapRow) : ReceiveSession :=
  { paymentHash := some row.paymentHash, amountSat := row.amountSat,
    requestedAmountSat := row.requestedAmountSat.toUInt64,
    attachedCreditSat := row.attachedCreditSat.toUInt64,
    expectedVHTLCSat := receiveExpectedVHTLCSat row, quotedSat := row.quotedSat,
    state := row.state, settlementType := row.settlementType, vhtlcPolicy := row.vhtlcPolicy,
    vhtlcOutpoint := row.vhtlcOutpoint, vhtlcAmount := row.vhtlcAmount,
    pendingHTLCAckCursor := row.pendingHTLCAckCursor,
    hasClaimReceiveInfo := row.hasClaimReceiveInfo, claimSessionID := row.claimSessionID,
    claimRecoveryID := row.claimRecoveryID }

/-- A spend of the output with the preimage, by a session that was to be paid `quotedSat`. -/
structure PreimageSpend where
  output : VTXOInfo
  quotedSat : ℕ
  deriving DecidableEq

structure ReceiveEnv where
  /-- The claims handed to the daemon. -/
  claims : List PreimageSpend := []
  /-- The recovery row of the daemon, under the request id of the swap. -/
  armed : Option PreimageSpend := none
  /-- The recoveries that were told to go on chain. -/
  escalated : List PreimageSpend := []
  /-- The output for which the responder may sign a forfeit. -/
  binding : Option VTXOInfo := none
  cosigned : List String := []
  /-- The outputs of the rounds that took a forfeited output in, each with the old outpoint. -/
  refreshed : List (String × String) := []

structure ReceiveConfig where
  exitAncestryDelay : UInt32
  recoveryMargin : UInt32
  refundLocktimeBuffer : UInt32
  claimMaxAttempts : ℕ
  /-- Whether a policy with these time locks can be built. -/
  policyBuilds : VHTLCTiming → Bool

abbrev Receive (α : Type) := Action ReceiveSession ReceiveSwapRow ReceiveEnv α

def ReceiveSession.transition (event : ReceiveEvent) (s : ReceiveSession) : Option ReceiveSession :=
  (receiveTransitions s.state event).map fun next => { s with state := next }

/-- The funded output, complete enough for its forfeit to be signed. -/
def receiveForfeitBinding (s : ReceiveSession) : Option VTXOInfo :=
  match s.state with
  | .vhtlcFunded | .claimInitiated | .completed =>
    if s.paymentHash.isSome && s.vhtlcOutpoint ≠ "" && 0 < s.vhtlcAmount &&
        s.vhtlcPolicy.isSome then
      some ⟨s.vhtlcOutpoint, s.vhtlcAmount⟩
    else none
  | _ => none

def publishReceiveForfeitBinding : Receive Unit := do
  match receiveForfeitBinding (← getSession) with
  | none => pure ()
  | some b => modifyEnv fun env => { env with binding := some b }

def mutateAndPersistReceive (mutate : ReceiveSession → Option ReceiveSession) : Receive Unit := do
  mutateAndPersist ReceiveSession.save mutate
  publishReceiveForfeitBinding

def markReceiveFailed (s : ReceiveSession) : Option ReceiveSession :=
  if s.state = .failed then some s else s.transition .failed

def failTerminal {α : Type} (mutate : ReceiveSession → ReceiveSession) : Receive α := do
  mutateAndPersistReceive fun s => markReceiveFailed (mutate s)
  throw .failure

/-! ## The invoice -/

structure InvoiceAnswers where
  keys : Except RemoteError Unit
  /-- The preimage, the key of the invoice and the script for the claim. -/
  setup : Except RemoteError Unit
  paymentHash : PaymentHash
  quote : Except RemoteError (Option RouteQuote)
  invoiceHash : Except RemoteError PaymentHash

def routeHintsValid : List (List ℕ) → Bool
  | [] => false
  | path :: paths => !path.isEmpty && paths.all fun p => !p.isEmpty && p.getLast? == path.getLast?

def maxUint64 : UInt64 := 18446744073709551615

def quoteAmounts (amountSat : SatAmount) (quote : RouteQuote) : Option (UInt64 × UInt64) :=
  let requested :=
    if quote.requestedAmountSat = 0 then amountSat.toUInt64 else quote.requestedAmountSat
  let expected := if quote.vhtlcAmountSat = 0 then requested else quote.vhtlcAmountSat
  if requested ≠ amountSat.toUInt64 then none
  else if maxUint64 - requested < quote.attachedCreditSat then none
  else if 0 < quote.attachedCreditSat ∧ expected ≠ requested + quote.attachedCreditSat then none
  else some (requested, expected)

def prepareInvoice (ans : InvoiceAnswers) : Receive Unit := do
  let s ← getSession
  callRetryable ans.keys
  call ans.setup
  match ← call ans.quote with
  | none => throw .failure
  | some quote =>
    if routeHintsValid quote.routeHintPaths then
      match quoteAmounts s.amountSat quote with
      | none => throw .failure
      | some (requested, expected) => do
        let hash ← call ans.invoiceHash
        if hash = ans.paymentHash then
          mutateAndPersistReceive fun s => ReceiveSession.transition .invoiceCreated
            { s with
              paymentHash := some hash, requestedAmountSat := requested,
              attachedCreditSat := quote.attachedCreditSat, expectedVHTLCSat := expected,
              quotedSat := s.amountSat.sat + quote.attachedCreditSat.toNat,
              hasClaimReceiveInfo := true }
        else throw .failure
    else throw .failure

/-! ## The event that names the vHTLC -/

def expectedOrInvoiceSat (s : ReceiveSession) : UInt64 :=
  if s.expectedVHTLCSat = 0 then s.amountSat.toUInt64 else s.expectedVHTLCSat

/-- The sum that the parts forward, if each of them is for this invoice. -/
def onionSum (expectedMsat : UInt64) : List OutSwapHtlcPart → UInt64 → Option UInt64
  | [], sum => some sum
  | part :: parts, sum =>
    match part.onion with
    | none => none
    | some o =>
      if o.amountToForward ≠ 0 ∧ o.amountToForward ≤ expectedMsat ∧
          o.amountToForward = part.amountMsat ∧ o.hasMPP = true ∧ o.paymentAddrMatches = true ∧
          o.totalAmount = expectedMsat then
        onionSum expectedMsat parts (sum + o.amountToForward)
      else none

def validateOnionPayload (s : ReceiveSession) (event : OutSwapHtlcEvent) : Bool :=
  let expectedMsat := s.amountSat.toUInt64 * 1000
  let parts := if event.parts.isEmpty then [⟨expectedMsat, event.onion⟩] else event.parts
  onionSum expectedMsat parts 0 == some expectedMsat

def validateReceiveClaimWindow (cfg : ReceiveConfig) (timing : VHTLCTiming)
    (height : Except RemoteError UInt32) : Receive Bool := do
  let height ← callRetryable height
  pure (timing.validateClaimWindow ⟨height, cfg.exitAncestryDelay, cfg.recoveryMargin⟩)

def acceptPolicy (policy : VHTLCPolicy) (settlement : ReceiveSession → Option SettlementType)
    (ackCursor : UInt64) : Receive Unit :=
  mutateAndPersistReceive fun s => ReceiveSession.transition .htlcEventAccepted
    { s with
      settlementType := settlement s, vhtlcPolicy := some policy,
      pendingHTLCAckCursor := ackCursor }

def acceptOutSwapHtlcEvent (cfg : ReceiveConfig) (event : OutSwapHtlcEvent) (ackCursor : UInt64)
    (height : Except RemoteError UInt32) : Receive Unit := do
  let s ← getSession
  let requested :=
    if event.requestedAmountSat = 0 then s.amountSat.toUInt64 else event.requestedAmountSat
  if some event.paymentHash ≠ s.paymentHash then failTerminal id
  else if requested ≠ s.amountSat.toUInt64 then failTerminal id
  else if event.attachedCreditSat ≠ s.attachedCreditSat then failTerminal id
  else if event.amountSat ≠ (expectedOrInvoiceSat s).toInt64.toInt then failTerminal id
  else if !validateOnionPayload s event then failTerminal id
  else do
    if ← validateReceiveClaimWindow cfg event.vhtlcConfig.toVHTLCTiming height then
      match event.vhtlcConfig.swapServerPubkey with
      | none => throw .failure
      | some sender =>
        if cfg.policyBuilds event.vhtlcConfig.toVHTLCTiming then
          acceptPolicy ⟨sender, event.vhtlcConfig.toVHTLCTiming⟩
            (fun s => s.settlementType.or (some .lightning)) ackCursor
        else throw .failure
    else failTerminal id

def validateCreditShapedInArkEvent (s : ReceiveSession) (event : InArkHtlcEvent) : Bool :=
  s.attachedCreditSat != 0 && event.requestedAmountSat == s.amountSat.toUInt64 &&
    event.attachedCreditSat == s.attachedCreditSat &&
    event.amountSat == s.expectedVHTLCSat.toInt64.toInt

/-- The amounts of an event of a payment inside the Ark, where the sender may have funded the
output already. -/
def inArkAmountsValid (s : ReceiveSession) (event : InArkHtlcEvent) : Bool :=
  if 0 < event.requestedAmountSat ∨ 0 < event.attachedCreditSat then
    validateCreditShapedInArkEvent s event
  else
    s.attachedCreditSat == 0 &&
      (s.expectedVHTLCSat == 0 || s.expectedVHTLCSat == s.amountSat.toUInt64) &&
      event.amountSat == (s.amountSat.sat : ℤ)

/-- A window that is too short is only a warning where the output exists already. -/
def admitClaimWindow (cfg : ReceiveConfig) (event : InArkHtlcEvent)
    (height : Except RemoteError UInt32) : Receive Unit := do
  if 0 < event.requestedAmountSat ∨ 0 < event.attachedCreditSat then
    if ← validateReceiveClaimWindow cfg event.vhtlcConfig.toVHTLCTiming height then pure ()
    else failTerminal id
  else pure ()

def acceptInArkHtlcEvent (cfg : ReceiveConfig) (event : InArkHtlcEvent) (ackCursor : UInt64)
    (height : Except RemoteError UInt32) : Receive Unit := do
  let s ← getSession
  if some event.paymentHash ≠ s.paymentHash then failTerminal id
  else if !inArkAmountsValid s event then failTerminal id
  else
    match event.senderPubkey, event.vhtlcConfig.swapServerPubkey with
    | none, _ => throw .failure
    | some _, none => throw .failure
    | some sender, some cfgSender =>
      if cfgSender ≠ sender then failTerminal id
      else do
        admitClaimWindow cfg event height
        if cfg.policyBuilds event.vhtlcConfig.toVHTLCTiming then
          acceptPolicy ⟨sender, event.vhtlcConfig.toVHTLCTiming⟩ (fun _ => some .inArk) ackCursor
        else throw .failure

inductive AckError where
  | terminal
  | transient

structure AckAnswers where
  ack : Except RemoteError Unit
  signature : Except RemoteError Unit
  server : Except AckError Unit

/-- The receipt by which the server knows that the event was accepted. -/
def acknowledgeOutSwapHTLC (ans : AckAnswers) : Receive Unit := do
  let s ← getSession
  if s.settlementType = some .inArk ∧ s.attachedCreditSat = 0 then pure ()
  else do
    callRetryable ans.signature
    match ans.server with
    | .ok _ => pure ()
    | .error .terminal => throw .failure
    | .error .transient => throw .retryable

def ackAcceptedHTLCEvent (ans : AckAnswers) : Receive Unit := do
  let s ← getSession
  if s.pendingHTLCAckCursor = 0 then pure ()
  else do
    callRetryable ans.ack
    acknowledgeOutSwapHTLC ans
    retryable (mutateAndPersistReceive fun s => some { s with pendingHTLCAckCursor := 0 })

inductive WaitError where
  | invoiceDeadline
  | remote (e : RemoteError)

structure EventAnswers where
  authKey : Except RemoteError Unit
  notification : Except WaitError (Option IncomingVHTLCNotification)
  height : Except RemoteError UInt32
  ack : AckAnswers

def acceptIncomingVHTLCNotification (cfg : ReceiveConfig) (n : IncomingVHTLCNotification)
    (height : Except RemoteError UInt32) : Receive Unit :=
  match n.event with
  | .outSwap e => acceptOutSwapHtlcEvent cfg e n.ackCursor height
  | .inArk e => acceptInArkHtlcEvent cfg e n.ackCursor height
  | .empty => throw .failure

def waitForHTLCEvent (cfg : ReceiveConfig) (ans : EventAnswers) : Receive Unit := do
  call ans.authKey
  match ans.notification with
  | .error .invoiceDeadline => throw .expired
  | .error (.remote e) => throw e.wrap
  | .ok none => throw .failure
  | .ok (some n) =>
    if n.hasAck ∧ n.ackCursor = 0 then throw .failure
    else do
      acceptIncomingVHTLCNotification cfg n ans.height
      ackAcceptedHTLCEvent ans.ack

/-! ## The funding -/

/-- Whether the request was carried out, when no answer came back. -/
inductive ArmReply where
  | ok (recoveryID : String)
  | error (done : Bool)

/-- Store a dormant recovery of the funded output with the daemon. The request id is that of the
swap, so that the first row stays. -/
def ensureReceiveClaimRecoveryArmed (reply : ArmReply) : Receive Unit := do
  let s ← getSession
  let arm : Receive Unit := modifyEnv fun env =>
    { env with
      armed := env.armed.or (some ⟨⟨s.vhtlcOutpoint, s.vhtlcAmount⟩, s.quotedSat⟩) }
  if s.claimRecoveryID ≠ "" then pure ()
  else if s.vhtlcOutpoint = "" ∨ s.vhtlcAmount ≤ 0 then throw .failure
  else if !s.hasClaimReceiveInfo || s.vhtlcPolicy.isNone then throw .failure
  else
    match reply with
    | .error done => do
      doIf done arm
      throw .retryable
    | .ok recoveryID => do
      arm
      if recoveryID = "" then throw .failure
      else mutateAndPersistReceive fun s => some { s with claimRecoveryID := recoveryID }

structure FundingPoll where
  live : Option VTXOInfo
  height : Option UInt32

/-- Poll until the output is live or the sender's refund is near; the polls end with the caller. -/
def waitForVHTLC (cfg : ReceiveConfig) (refundLocktime : UInt32) :
    List FundingPoll → Receive VTXOInfo
  | [] => throw .interrupt
  | poll :: polls =>
    match poll.live, poll.height with
    | some vtxo, _ => pure vtxo
    | none, none => waitForVHTLC cfg refundLocktime polls
    | none, some height =>
      if height + cfg.refundLocktimeBuffer < refundLocktime then
        waitForVHTLC cfg refundLocktime polls
      else throw .expired

/-- The funding must be of the expected amount before the claim can reveal the preimage. -/
def validateReceiveFunding (funding : VTXOInfo) : Receive Unit := do
  let s ← getSession
  if funding.amountSat ≠ (expectedOrInvoiceSat s).toInt64.toInt then
    failTerminal fun s =>
      { s with vhtlcOutpoint := funding.outpoint, vhtlcAmount := funding.amountSat }
  else pure ()

def recordFunding (funding : VTXOInfo) : Receive Unit :=
  mutateAndPersistReceive fun s => ReceiveSession.transition .vhtlcFunded
    { s with vhtlcOutpoint := funding.outpoint, vhtlcAmount := funding.amountSat }

structure FundingAnswers where
  ack : AckAnswers
  polls : List FundingPoll
  arm : ArmReply

def waitForFunding (cfg : ReceiveConfig) (ans : FundingAnswers) : Receive Unit := do
  ackAcceptedHTLCEvent ans.ack
  let s ← getSession
  match s.vhtlcPolicy with
  | none => throw .failure
  | some policy => do
    let funding ← waitForVHTLC cfg policy.timing.refundLocktime ans.polls
    validateReceiveFunding funding
    recordFunding funding
    ensureReceiveClaimRecoveryArmed ans.arm

def rememberReceiveFunding (outpoint : String) (amount : ℤ) : Receive Unit := do
  let s ← getSession
  if s.vhtlcOutpoint = outpoint ∧ s.vhtlcAmount = amount then pure ()
  else
    mutateAndPersistReceive fun s => some
      { s with
        vhtlcOutpoint := if outpoint ≠ "" then outpoint else s.vhtlcOutpoint,
        vhtlcAmount := if amount ≠ 0 then amount else s.vhtlcAmount }

/-! ## The claim -/

inductive ClaimLookup where
  | claimed
  | unclaimed
  | spentWithoutPreimage
  | error (e : RemoteError)

def receiveClaimAlreadyIndexed : ClaimLookup → Receive Bool
  | .claimed => pure true
  | .unclaimed => pure false
  | .spentWithoutPreimage => throw .intervention
  | .error e => throw e.wrap

/-- The lookup with an error that is worth another try, except for a spend without preimage. -/
def reconcileIndexedClaim : ClaimLookup → Receive Bool
  | .error _ => throw .retryable
  | l => receiveClaimAlreadyIndexed l

structure ClaimAttempt where
  send : Except RemoteError String
  indexed : ClaimLookup

/-- Hand the claim to the daemon, a few times. `none` says that a claim is indexed already. -/
def claimReceiveVHTLC : ℕ → List ClaimAttempt → Receive (Option String)
  | 0, _ => throw .failure
  | _ + 1, [] => throw .interrupt
  | n + 1, attempt :: attempts => do
    let s ← getSession
    modifyEnv fun env =>
      { env with
        claims := env.claims ++ [⟨⟨s.vhtlcOutpoint, s.vhtlcAmount⟩, s.quotedSat⟩] }
    match attempt.send with
    | .ok claimSessionID => pure (some claimSessionID)
    | .error e => do
      if ← receiveClaimAlreadyIndexed attempt.indexed then pure none
      else if n = 0 then throw e.wrap
      else claimReceiveVHTLC n attempts

def completeReceive : Receive Unit :=
  mutateAndPersistReceive (ReceiveSession.transition .completed)

/-- The recovery is cancelled before the session is completed. -/
def completeIndexedClaim (cancel : Except RemoteError Unit) : Receive Unit := do
  callRetryable cancel
  completeReceive

inductive Escalation where
  | deferred
  | escalated
  | failed (done : Bool)

/-- Tell the armed recovery to go on chain, if the policy says so. -/
def maybeEscalateReceiveClaimRecovery (esc : Escalation) : Receive Unit := do
  let s ← getSession
  let escalate : Receive Unit := modifyEnv fun env =>
    { env with escalated := env.escalated ++ env.armed.toList }
  if s.claimRecoveryID = "" then pure ()
  else
    match esc with
    | .deferred => pure ()
    | .escalated => escalate
    | .failed done => do
      doIf done escalate
      throw .retryable

inductive RecoveryReply where
  | error (e : RemoteError)
  | dormant
  | active
  | completed
  | failed

def reconcileReceiveClaimRecovery (reply : RecoveryReply) : Receive Bool := do
  let s ← getSession
  if s.claimRecoveryID = "" then pure false
  else
    match reply with
    | .error e => throw e.wrap
    | .dormant => pure false
    | .active => pure true
    | .completed => do
      completeReceive
      pure true
    | .failed => failTerminal id

structure ResolveAnswers where
  status : Except RemoteError OORStatus
  cancel : Except RemoteError Unit
  indexed : ClaimLookup
  escalation : Escalation
  recovery : RecoveryReply

def handleFailedClaimSession (beforePONR : Bool) (ans : ResolveAnswers) : Receive Unit := do
  if beforePONR then
    retryable (mutateAndPersistReceive fun s => some { s with claimSessionID := "" })
    maybeEscalateReceiveClaimRecovery ans.escalation
  else
    if ← reconcileIndexedClaim ans.indexed then completeIndexedClaim ans.cancel
    else do
      maybeEscalateReceiveClaimRecovery ans.escalation
      if ← retryable (reconcileReceiveClaimRecovery ans.recovery) then pure ()
      else throw .intervention

def resolveClaimSession (ans : ResolveAnswers) : Receive Unit := do
  match ← callRetryable ans.status with
  | .completed => do
    callRetryable ans.cancel
    retryable completeReceive
  | .failed beforePONR => handleFailedClaimSession beforePONR ans
  | .pending => pure ()

/-- Follow the live output at the script, which a refresh may have moved. -/
def reconcileLiveReceiveFunding (live : Except RemoteError (Option VTXOInfo)) : Receive Unit :=
  match live with
  | .ok (some vtxo) =>
    if vtxo.outpoint = "" then pure () else rememberReceiveFunding vtxo.outpoint vtxo.amountSat
  | _ => pure ()

/-- No claim is started once the sender's refund is near. -/
def ensureReceiveClaimStillPossible (cfg : ReceiveConfig)
    (height : Except RemoteError UInt32) : Receive Unit := do
  let height ← callRetryable height
  let s ← getSession
  if (s.vhtlcPolicy.elim 0 (·.timing.refundLocktime)) ≤ height + cfg.refundLocktimeBuffer then
    mutateAndPersistReceive (ReceiveSession.transition .expired)
    throw .expired
  else pure ()

structure ClaimAnswers where
  /-- A claim of an earlier process, or of this one, that the indexer may know of. -/
  indexed : ClaimLookup
  cancel : Except RemoteError Unit
  receiveInfo : Except RemoteError Bool
  arm : ArmReply
  recovery : RecoveryReply
  height : Except RemoteError UInt32
  live : Except RemoteError (Option VTXOInfo)
  attempts : List ClaimAttempt
  escalation : Escalation
  resolve : ResolveAnswers

def ensureClaimReceiveInfo (reply : Except RemoteError Bool) : Receive Unit := do
  let s ← getSession
  if s.hasClaimReceiveInfo then pure ()
  else do
    if ← callRetryable reply then
      mutateAndPersistReceive fun s => some { s with hasClaimReceiveInfo := true }
    else throw .failure

/-- The id is kept in memory even where it could not be written. -/
def persistClaimSessionID (claimSessionID : String) : Receive Unit := do
  let s ← getSession
  setSession { s with claimSessionID := claimSessionID }
  persist ReceiveSession.save

/-- Send the claim of the funded output, and what follows on its answer. -/
def submitClaim (cfg : ReceiveConfig) (ans : ClaimAnswers) : Receive Unit := do
  let sent : Option (Option String) ←
    tryCatch (some <$> claimReceiveVHTLC cfg.claimMaxAttempts ans.attempts)
      fun e => if e = .crash ∨ e = .intervention then throw e else pure none
  match sent with
  | none => maybeEscalateReceiveClaimRecovery ans.escalation
  | some none => completeIndexedClaim ans.cancel
  | some (some claimSessionID) =>
    if claimSessionID = "" then throw .failure
    else do
      retryable (persistClaimSessionID claimSessionID)
      let s ← getSession
      setSession { s with claimIntentRecordedInProcess := false }
      resolveClaimSession ans.resolve

def claimFundedVHTLC (cfg : ReceiveConfig) (ans : ClaimAnswers) : Receive Unit := do
  let s ← getSession
  if s.claimSessionID ≠ "" then resolveClaimSession ans.resolve
  else if ← reconcileIndexedClaim ans.indexed then completeIndexedClaim ans.cancel
  else do
    ensureClaimReceiveInfo ans.receiveInfo
    ensureReceiveClaimRecoveryArmed ans.arm
    if ← retryable (reconcileReceiveClaimRecovery ans.recovery) then pure ()
    else do
      ensureReceiveClaimStillPossible cfg ans.height
      reconcileLiveReceiveFunding ans.live
      submitClaim cfg ans

/-! ## The state machine -/

structure ReceiveAnswers where
  invoice : InvoiceAnswers
  event : EventAnswers
  funding : FundingAnswers
  claim : ClaimAnswers

def receiveHandler (cfg : ReceiveConfig) (ans : ReceiveAnswers) : ReceiveState → Receive Unit
  | .created => prepareInvoice ans.invoice
  | .invoiceCreated => waitForHTLCEvent cfg ans.event
  | .htlcEventAccepted => waitForFunding cfg ans.funding
  | .vhtlcFunded =>
    mutateAndPersistReceive fun s => ReceiveSession.transition .claimInitiated
      { s with claimIntentRecordedInProcess := true }
  | .claimInitiated => claimFundedVHTLC cfg ans.claim
  | _ => pure ()

def receiveFail (e : ActionError) : Receive Unit := do
  let s ← getSession
  handleFailure e (s.state = .expired) (s.state = .needsIntervention)
    (mutateAndPersistReceive (ReceiveSession.transition .expired))
    (mutateAndPersistReceive (ReceiveSession.transition .needsIntervention))
    (mutateAndPersistReceive markReceiveFailed)

def advanceReceive (cfg : ReceiveConfig) (ans : ReceiveAnswers) : Receive Unit := do
  let s ← getSession
  tryCatch (receiveHandler cfg ans s.state) receiveFail

def claimReceive (outpoint : String) (amount : ℤ) (reply : ArmReply) : Receive Unit := do
  let s ← getSession
  match s.state with
  | .htlcEventAccepted => do
    validateReceiveFunding ⟨outpoint, amount⟩
    recordFunding ⟨outpoint, amount⟩
    ensureReceiveClaimRecoveryArmed reply
  | .vhtlcFunded | .claimInitiated | .completed =>
    if s.vhtlcOutpoint = "" ∨ s.vhtlcAmount = 0 then
      rememberReceiveFunding (if s.vhtlcOutpoint = "" then outpoint else s.vhtlcOutpoint)
        (if s.vhtlcAmount = 0 then amount else s.vhtlcAmount)
    else pure ()
  | _ => throw .failure

abbrev ReceiveNode := Node ReceiveSession ReceiveSwapRow ReceiveEnv

/-- What happens next. A round may take a forfeited output in and pay out a new one at the same
script. -/
inductive ReceiveAction where
  | start (amountSat : SatAmount)
  | advance (writes : List Write) (ans : ReceiveAnswers)
  | claim (writes : List Write) (outpoint : String) (amount : ℤ) (reply : ArmReply)
  | crash
  | resume
  | cosign
  | refresh (old new : String)

def ReceiveNode.step (cfg : ReceiveConfig) (n : ReceiveNode) : ReceiveAction → Option ReceiveNode
  | .start amountSat =>
    match n.session, n.row with
    | none, none => some { n with session := some { amountSat := amountSat } }
    | _, _ => none
  | .advance writes ans => some ({ n with writes := writes }.after (advanceReceive cfg ans))
  | .claim writes outpoint amount reply =>
    some ({ n with writes := writes }.after (claimReceive outpoint amount reply))
  | .crash => some { n with session := none }
  | .resume =>
    match n.session, n.row with
    | none, some row => some
      { n with
        session := some (receiveSessionFromRow row)
        env := { n.env with
          binding := receiveForfeitBinding (receiveSessionFromRow row) } }
    | _, _ => none
  | .cosign =>
    match n.session, n.env.binding with
    | some _, some b => some
      { n with env := { n.env with cosigned := n.env.cosigned ++ [b.outpoint] } }
    | _, _ => none
  | .refresh old new =>
    if old ∈ n.env.cosigned then
      some { n with env := { n.env with refreshed := n.env.refreshed ++ [(old, new)] } }
    else none

def receiveMachine (cfg : ReceiveConfig) : Machine ReceiveNode ReceiveAction where
  init n := n = { env := {} }
  step := ReceiveNode.step cfg

end Wavelength.Swaps
