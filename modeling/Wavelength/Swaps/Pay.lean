import Wavelength.Swaps.Session
import Wavelength.Swaps.Timing

/-! # Paying over Lightning: the funding

The payer asks the swap server for the terms and funds the vHTLC that the server can claim with the
preimage. What the server, the daemon and the indexer answer is an argument of each action, and so
is how far the clock moves before each reading.
-/

namespace Wavelength.Swaps

inductive PayState where
  | created
  | swapCreated
  | fundingInitiated
  | vhtlcFunded
  | waitingForClaim
  | completed
  | expired
  | refundInitiated
  | refunded
  | needsIntervention
  | failed
  deriving DecidableEq

inductive PayEvent where
  | swapCreated
  | fundingInitiated
  | vhtlcFunded
  | waitForClaim
  | completed
  | expired
  | refundInitiated
  | refunded
  | needsIntervention
  | failed

def payTransitions : PayState → PayEvent → Option PayState
  | .created, .swapCreated => some .swapCreated
  | .created, .expired => some .expired
  | .created, .needsIntervention => some .needsIntervention
  | .created, .failed => some .failed
  | .swapCreated, .fundingInitiated => some .fundingInitiated
  | .swapCreated, .vhtlcFunded => some .vhtlcFunded
  | .swapCreated, .completed => some .completed
  | .swapCreated, .expired => some .expired
  | .swapCreated, .refundInitiated => some .refundInitiated
  | .swapCreated, .needsIntervention => some .needsIntervention
  | .swapCreated, .failed => some .failed
  | .fundingInitiated, .vhtlcFunded => some .vhtlcFunded
  | .fundingInitiated, .completed => some .completed
  | .fundingInitiated, .expired => some .expired
  | .fundingInitiated, .refundInitiated => some .refundInitiated
  | .fundingInitiated, .needsIntervention => some .needsIntervention
  | .fundingInitiated, .failed => some .failed
  | .vhtlcFunded, .waitForClaim => some .waitingForClaim
  | .vhtlcFunded, .completed => some .completed
  | .vhtlcFunded, .expired => some .expired
  | .vhtlcFunded, .refundInitiated => some .refundInitiated
  | .vhtlcFunded, .needsIntervention => some .needsIntervention
  | .vhtlcFunded, .failed => some .failed
  | .waitingForClaim, .completed => some .completed
  | .waitingForClaim, .expired => some .expired
  | .waitingForClaim, .refundInitiated => some .refundInitiated
  | .waitingForClaim, .refunded => some .refunded
  | .waitingForClaim, .needsIntervention => some .needsIntervention
  | .waitingForClaim, .failed => some .failed
  | .refundInitiated, .completed => some .completed
  | .refundInitiated, .refunded => some .refunded
  | .refundInitiated, .needsIntervention => some .needsIntervention
  | .refundInitiated, .failed => some .failed
  | _, _ => none

/-! ## The terms of a swap -/

structure PayInvoice where
  paymentHash : PaymentHash
  amountMsat : Option UInt64
  deriving DecidableEq

inductive PaySettlement where
  | lightning
  | inArk
  | credit
  | mixed
  | unknown
  deriving DecidableEq

structure CreditQuote where
  mustUseCredit : Bool
  creditAppliedSat : UInt64
  creditShortfallSat : UInt64
  creditTopupSat : UInt64
  arkFundingSat : UInt64
  deriving DecidableEq

/-- Times are nanoseconds after the zero time, which stands for no time at all. -/
abbrev Time := ℤ

/-- The whole seconds of a time, which is what the store keeps. -/
def Time.truncate (t : Time) : Time := t / 1000000000 * 1000000000

structure InSwapConfig where
  paymentHash : PaymentHash
  amountSat : Int64
  feeSat : UInt64
  expiry : Time
  serverPubkey : PubKey
  timing : VHTLCTiming
  settlementType : PaySettlement
  creditQuote : Option CreditQuote
  /-- The hash of the preimage that comes with a payment out of credit. -/
  preimageHash : Option PaymentHash
  deriving DecidableEq

structure PolicyTemplate where
  sender : PubKey
  receiver : PubKey
  server : PubKey
  preimageHash : PaymentHash
  timing : VHTLCTiming
  deriving DecidableEq

def maxInt64Uint : UInt64 := 9223372036854775807

def ceilMsatToSat (msat : UInt64) : UInt64 := (msat + 999) / 1000

/-- The credit leg is within what the caller allowed and adds up with the Ark leg. -/
def validatePayCredit (settlement : PaySettlement) (quote : Option CreditQuote)
    (maxCreditSat totalSat : UInt64) : Bool :=
  settlement != .unknown &&
    match quote with
    | none => settlement != .credit && settlement != .mixed
    | some q =>
      q.creditAppliedSat ≤ maxCreditSat &&
        q.creditShortfallSat ≤ maxCreditSat - q.creditAppliedSat &&
        q.creditShortfallSat == 0 && q.creditTopupSat == 0 &&
        match settlement with
        | .credit =>
          maxCreditSat != 0 && totalSat ≤ q.creditAppliedSat + q.creditShortfallSat &&
            q.arkFundingSat == 0
        | .mixed =>
          q.creditAppliedSat != 0 && q.creditAppliedSat < totalSat &&
            q.arkFundingSat == totalSat - q.creditAppliedSat
        | _ => q.creditAppliedSat + q.creditShortfallSat == 0 && !q.mustUseCredit

def validateInSwapQuote (invoice : PayInvoice) (maxFeeSat maxCreditSat : UInt64)
    (cfg : InSwapConfig) : Bool :=
  (0 < cfg.amountSat || cfg.settlementType == .credit) &&
    invoice.paymentHash == cfg.paymentHash &&
    match invoice.amountMsat with
    | none => false
    | some msat =>
      let amountSat := ceilMsatToSat msat
      let total := amountSat + cfg.feeSat
      msat != 0 && cfg.feeSat ≤ maxFeeSat && cfg.feeSat ≤ maxInt64Uint &&
        amountSat ≤ maxInt64Uint - cfg.feeSat &&
        validatePayCredit cfg.settlementType cfg.creditQuote maxCreditSat total &&
        match cfg.settlementType with
        | .credit => cfg.preimageHash == some cfg.paymentHash && cfg.amountSat.toUInt64 == 0
        | .mixed => cfg.creditQuote.any fun q => cfg.amountSat.toUInt64 == q.arkFundingSat
        | _ => cfg.amountSat.toUInt64 == total

/-! ## The session and its row -/

structure PaySession where
  invoice : PayInvoice
  maxFeeSat : UInt64
  maxCreditSat : UInt64
  state : PayState := .created
  cfg : Option InSwapConfig := none
  vhtlcPolicyTemplate : Option PolicyTemplate := none
  vhtlcOutpoint : String := ""
  vhtlcAmount : ℤ := 0
  fundingSessionID : String := ""
  /-- Whether a destination for the refund was allocated. -/
  hasRefundReceive : Bool := false
  refundSessionID : String := ""
  refundRecoveryID : String := ""
  hasPreimage : Bool := false
  updatedAt : Time := 0
  /-- Whether the loop that waits for the funded output is to go on. Not written. -/
  inFundingWait : Bool := false
  deriving DecidableEq

structure PaySwapRow where
  invoice : PayInvoice
  maxFeeSat : UInt64
  maxCreditSat : UInt64
  state : PayState
  cfg : InSwapConfig
  vhtlcPolicyTemplate : Option PolicyTemplate
  vhtlcOutpoint : String
  vhtlcAmount : ℤ
  fundingSessionID : String
  hasRefundReceive : Bool
  refundSessionID : String
  refundRecoveryID : String
  hasPreimage : Bool
  updatedAt : Time

/-- A session is written once it has its terms, under a hash that is not the zero hash. -/
def PaySession.save (s : PaySession) : Option PaySwapRow :=
  match s.cfg with
  | none => none
  | some cfg =>
    if cfg.paymentHash = 0 then none
    else some
      { invoice := s.invoice, maxFeeSat := s.maxFeeSat, maxCreditSat := s.maxCreditSat,
        state := s.state,
        cfg := { cfg with expiry := Time.truncate cfg.expiry, preimageHash := none },
        vhtlcPolicyTemplate := s.vhtlcPolicyTemplate, vhtlcOutpoint := s.vhtlcOutpoint,
        vhtlcAmount := s.vhtlcAmount, fundingSessionID := s.fundingSessionID,
        hasRefundReceive := s.hasRefundReceive, refundSessionID := s.refundSessionID,
        refundRecoveryID := s.refundRecoveryID, hasPreimage := s.hasPreimage,
        updatedAt := s.updatedAt }

def paySessionFromRow (row : PaySwapRow) : PaySession :=
  { invoice := row.invoice, maxFeeSat := row.maxFeeSat, maxCreditSat := row.maxCreditSat,
    state := row.state, cfg := some row.cfg, vhtlcPolicyTemplate := row.vhtlcPolicyTemplate,
    vhtlcOutpoint := row.vhtlcOutpoint, vhtlcAmount := row.vhtlcAmount,
    fundingSessionID := row.fundingSessionID, hasRefundReceive := row.hasRefundReceive,
    refundSessionID := row.refundSessionID, refundRecoveryID := row.refundRecoveryID,
    hasPreimage := row.hasPreimage, updatedAt := row.updatedAt }

/-! ## The daemon and the clock -/

/-- What became of the funding transfer: there is none, a send may still make it, it was made, or
it failed before the point of no return. -/
inductive Transfer where
  | none
  | pending
  | made
  | failed
  deriving DecidableEq

/-- There is no transfer and there will be none, unless it is asked for anew. -/
def Transfer.gone : Transfer → Bool
  | .none | .failed => true
  | .pending | .made => false

/-- Sends under one key make at most one transfer, and one for an existing transfer makes none. -/
def Transfer.next (existingOnly : Bool) (t effect : Transfer) : Transfer :=
  match t with
  | .none => if existingOnly then .none else effect
  | .pending => if effect = .none then .pending else effect
  | .made => .made
  | .failed => .failed

inductive Reading where
  | clock (t : Time)
  | height (h : UInt32)
  deriving DecidableEq

/-- A request to the daemon to fund the vHTLC, with the terms of the session that makes it and what
was read before it in the same pass. The idempotency key is that of the payment hash. -/
structure FundingSend where
  key : PaymentHash
  amountSat : Int64
  vhtlcPolicyTemplate : Option PolicyTemplate
  existingOnly : Bool
  terms : InSwapConfig
  readings : List Reading

structure OORSendResult where
  sessionID : String
  recipientOutpoint : String
  failed : Bool
  failedBeforePONR : Bool

/-- The answer to a send. An admission is rejected before any input is selected. -/
inductive SendReply where
  | ok (r : OORSendResult)
  | notFound
  | rejected
  | error (e : RemoteError)

/-- What a send does and what the client gets to know of it. -/
structure SendAnswer where
  effect : Transfer
  reply : SendReply

structure PayEnv where
  now : Time
  readings : List Reading := []
  sends : List FundingSend := []
  transfer : Transfer := .none
  /-- Whether each answer of the daemon on the fate of the transfer was true. -/
  truthful : Bool := true

/-- A send and its answer. With `final` a transfer that is not found will never be. -/
def PayEnv.send (env : PayEnv) (send : FundingSend) (final : Bool) (ans : SendAnswer) : PayEnv :=
  let t := env.transfer.next send.existingOnly ans.effect
  let env := { env with sends := env.sends ++ [send] }
  match ans.reply with
  | .notFound =>
    if send.existingOnly && final then
      { env with
        transfer := if t = .pending then .none else t
        truthful := env.truthful && t != .made }
    else { env with transfer := t }
  | .ok r =>
    { env with
      transfer := t
      truthful := env.truthful && (!(r.failed && r.failedBeforePONR) || t == .failed) }
  | _ => { env with transfer := t }

structure PayConfig where
  refundLocktimeBuffer : UInt32
  fundingExpiryBuffer : ℤ
  fundingResumeGracePeriod : ℤ
  waitPollInterval : ℤ
  /-- Whether a policy with these time locks can be built. -/
  policyBuilds : VHTLCTiming → Bool

def maxPayRefundWindowBlocks : UInt32 := 1008

abbrev Pay (α : Type) := Action PaySession PaySwapRow PayEnv α

/-- The terms of the session; reading them before there are any ends the process. -/
def getConfig : Pay InSwapConfig := do
  match (← getSession).cfg with
  | none => throw .crash
  | some cfg => pure cfg

def readClock (tick : ℕ) : Pay Time := do
  modifyEnv fun env =>
    { env with now := env.now + tick, readings := env.readings ++ [.clock (env.now + tick)] }
  pure (← getEnv).now

def recordHeight (h : UInt32) : Pay Unit :=
  modifyEnv fun env => { env with readings := env.readings ++ [.height h] }

/-- The block height; a lookup that fails says nothing of the chain. -/
def blockHeight (reply : Except RemoteError UInt32) : Pay UInt32 := do
  let h ← callRetryable reply
  recordHeight h
  pure h

def logged {α : Type} (d : α) (m : Pay α) : Pay α :=
  tryCatch m fun e => if e = .crash then throw e else pure d

def waitForFixedPoll (interrupted : Bool) : Pay Unit :=
  if interrupted then throw .interrupt else pure ()

/-! ## Mutations -/

def PaySession.transition (event : PayEvent) (s : PaySession) : Option PaySession :=
  (payTransitions s.state event).map fun next => { s with state := next }

/-- The time of the last write, for a session that has a row. -/
def PaySession.stamp (t : Time) (s : PaySession) : PaySession :=
  if s.save.isSome then { s with updatedAt := t } else s

def mutateAndPersistPay (mutate : PaySession → Option PaySession) : Pay Unit := do
  let env ← getEnv
  mutateAndPersist PaySession.save fun s =>
    (mutate s).map (PaySession.stamp (Time.truncate env.now))

def persistPay : Pay Unit := do
  let env ← getEnv
  persist fun s => (s.stamp (Time.truncate env.now)).save
  let s ← getSession
  setSession (s.stamp (Time.truncate env.now))

def markExpired {α : Type} : Pay α := do
  let s ← getSession
  if s.state = .expired then throw .expired
  else do
    mutateAndPersistPay (PaySession.transition .expired)
    throw .expired

def initiateRefund : Pay Unit := do
  let s ← getSession
  if s.state = .refundInitiated then pure ()
  else mutateAndPersistPay (PaySession.transition .refundInitiated)

def markPayNeedsIntervention (s : PaySession) : Option PaySession :=
  if s.state = .needsIntervention then some s else s.transition .needsIntervention

def needsIntervention {α : Type} (mutate : PaySession → PaySession) : Pay α := do
  mutateAndPersistPay fun s => markPayNeedsIntervention (mutate s)
  throw .intervention

def markPayFailed (s : PaySession) : Option PaySession :=
  if s.state = .failed then some s else s.transition .failed

def failTerminalPay {α : Type} : Pay α := do
  mutateAndPersistPay markPayFailed
  throw .failure

/-! ## The terms -/

structure CreateAnswers where
  identityKey : Except RemoteError PubKey
  authorize : Except RemoteError Unit
  config : Except RemoteError (Option InSwapConfig)
  operatorKey : Except RemoteError PubKey

/-- Ask the server for the terms and derive the script to be funded. -/
def createSwap (c : PayConfig) (ans : CreateAnswers) : Pay Unit := do
  let s ← getSession
  let clientKey ← callRetryable ans.identityKey
  call ans.authorize
  match ← call ans.config with
  | none => throw .failure
  | some cfg =>
    if cfg.expiry = 0 then throw .failure
    else if !validateInSwapQuote s.invoice s.maxFeeSat s.maxCreditSat cfg then throw .failure
    else if cfg.settlementType = .credit then
      mutateAndPersistPay fun s =>
        (PaySession.transition .swapCreated { s with cfg := some cfg, hasPreimage := true }).bind
          (PaySession.transition .completed)
    else if !cfg.timing.validateOrder then throw .failure
    else do
      let operatorKey ← callRetryable ans.operatorKey
      if c.policyBuilds cfg.timing then
        mutateAndPersistPay fun s => PaySession.transition .swapCreated
          { s with
            cfg := some cfg
            vhtlcPolicyTemplate := some
              ⟨clientKey, cfg.serverPubkey, operatorKey, cfg.paymentHash, cfg.timing⟩ }
      else throw .failure

/-! ## The recovery of the funded output -/

structure ArmAnswers where
  receiveScript : Except RemoteError Bool
  reply : Except RemoteError String

def refundPubKey (receiveScript : Except RemoteError Bool) : Pay Unit := do
  let s ← getSession
  if s.hasRefundReceive then pure ()
  else do
    if ← call receiveScript then
      mutateAndPersistPay fun s => some { s with hasRefundReceive := true }
    else throw .failure

def ensurePayRefundRecoveryArmed (ans : ArmAnswers) : Pay Unit := do
  let s ← getSession
  if s.refundRecoveryID ≠ "" then pure ()
  else if s.vhtlcOutpoint = "" ∨ s.vhtlcAmount ≤ 0 then throw .failure
  else do
    refundPubKey ans.receiveScript
    let recoveryID ← call ans.reply
    if recoveryID = "" then throw .failure
    else mutateAndPersistPay fun s => some { s with refundRecoveryID := recoveryID }

def cancelRecovery (cancel : Except RemoteError Unit) : Pay Unit := do
  let s ← getSession
  if s.refundRecoveryID = "" then pure () else call cancel

/-! ## The funding -/

/-- A lookup at the script; the indexer may not know the script for this client. -/
inductive LookupError where
  | unregistered
  | remote (e : RemoteError)

def LookupError.wrap : LookupError → ActionError
  | .unregistered => .failure
  | .remote e => e.wrap

def lookup {α : Type} : Except LookupError α → Pay α
  | .ok a => pure a
  | .error e => throw e.wrap

structure ObserveAnswers where
  live : Except LookupError (Option VTXOInfo)
  height : Except RemoteError UInt32
  arm : ArmAnswers

/-- Whether the output is live as it was quoted. One that is not, or comes late, is refunded. -/
def observeLiveVHTLC (c : PayConfig) (ans : ObserveAnswers) : Pay Bool := do
  match ← lookup ans.live with
  | none => pure false
  | some vtxo => do
    let cfg ← getConfig
    let refund : Pay Bool := do
      mutateAndPersistPay fun s => PaySession.transition .refundInitiated
        { s with vhtlcOutpoint := vtxo.outpoint, vhtlcAmount := vtxo.amountSat }
      pure false
    if vtxo.amountSat ≠ cfg.amountSat.toInt then refund
    else do
      let height ← blockHeight ans.height
      if cfg.timing.refundLocktime ≤ height + c.refundLocktimeBuffer then refund
      else do
        mutateAndPersistPay fun s => some
          { s with vhtlcOutpoint := vtxo.outpoint, vhtlcAmount := vtxo.amountSat }
        ensurePayRefundRecoveryArmed ans.arm
        pure true

/-- The time from which on no new transfer is admitted. -/
def fundingAdmissionDeadline (c : PayConfig) (cfg : InSwapConfig) : Time :=
  if cfg.expiry = 0 then 0 else cfg.expiry - c.fundingExpiryBuffer

def deadlinePassed (deadline now : Time) : Bool := deadline != 0 && deadline ≤ now

def fundingAdmissionClosed (c : PayConfig) (tick : ℕ) : Pay Bool := do
  let cfg ← getConfig
  let now ← readClock tick
  pure (deadlinePassed (fundingAdmissionDeadline c cfg) now)

structure SafeAnswers where
  tick : ℕ
  height : Except RemoteError UInt32

/-- Refuse funding that comes too late or whose refund would. -/
def ensureFundingStillSafe (c : PayConfig) (ans : SafeAnswers) : Pay Unit := do
  if ← fundingAdmissionClosed c ans.tick then markExpired
  else do
    let height ← blockHeight ans.height
    let cfg ← getConfig
    let s ← getSession
    if cfg.timing.refundLocktime ≤ height + c.refundLocktimeBuffer then failTerminalPay
    else if s.state = .swapCreated ∧
        cfg.timing.validateRefundWindow height maxPayRefundWindowBlocks = false then
      failTerminalPay
    else pure ()

/-- The request to fund the vHTLC, under the key of the payment. -/
def sendFunding (existingOnly final : Bool) (ans : SendAnswer) : Pay SendReply := do
  let s ← getSession
  let cfg ← getConfig
  modifyEnv fun env => env.send
    { key := cfg.paymentHash, amountSat := cfg.amountSat,
      vhtlcPolicyTemplate := s.vhtlcPolicyTemplate, existingOnly := existingOnly,
      terms := cfg, readings := env.readings } final ans
  pure ans.reply

def fundedFromLocalMetadata (s : PaySession) : Option PaySession :=
  match s.state with
  | .swapCreated | .fundingInitiated => s.transition .vhtlcFunded
  | _ => some s

def markVHTLCFundedFromLocalMetadata (ans : ArmAnswers) : Pay Unit := do
  retryable (ensurePayRefundRecoveryArmed ans)
  mutateAndPersistPay fundedFromLocalMetadata

/-- The session id and the output are kept in memory even where they could not be written. -/
def persistFundingResult (cfg : InSwapConfig) (result : OORSendResult) : Pay Unit := do
  let s ← getSession
  setSession
    { s with
      fundingSessionID := result.sessionID, vhtlcOutpoint := result.recipientOutpoint,
      vhtlcAmount := cfg.amountSat.toInt }
  persistPay

/-- Only a failure before the point of no return says that there is no output. -/
def handleFailedFundingReplay (result : OORSendResult) : Pay Unit :=
  if result.failedBeforePONR then failTerminalPay else needsIntervention id

def settleFunding (result : OORSendResult) (arm : ArmAnswers) : Pay Unit := do
  if result.sessionID = "" then throw .retryable
  else if result.failed then handleFailedFundingReplay result
  else if result.recipientOutpoint = "" then throw .retryable
  else do
    let cfg ← getConfig
    retryable (persistFundingResult cfg result)
    markVHTLCFundedFromLocalMetadata arm

structure SubmitAnswers where
  graceTick : ℕ
  tick : ℕ
  height : Except RemoteError UInt32
  send : SendAnswer
  observe : ObserveAnswers
  probe : SendAnswer
  arm : ArmAnswers

/-- Look for the output again before a failed send is passed on; a rejected admission is probed for
an earlier attempt of the same swap. -/
def reconcileFailedSend (c : PayConfig) (rejected : Bool) (ans : SubmitAnswers) : Pay Unit := do
  let funded ← logged false (observeLiveVHTLC c ans.observe)
  let s ← getSession
  if s.state = .refundInitiated then pure ()
  else if funded then mutateAndPersistPay (PaySession.transition .vhtlcFunded)
  else if !rejected then throw .retryable
  else do
    match ← sendFunding true true ans.probe with
    | .ok result => settleFunding result ans.arm
    | .notFound => failTerminalPay
    | _ => throw .retryable

/-- Send only for an existing transfer where a new one would be too late or unsafe. -/
def chooseExistingOnly (closed : Bool) (height : Except RemoteError UInt32) : Pay Bool := do
  if closed then pure true
  else do
    let height ← blockHeight height
    let cfg ← getConfig
    pure (!cfg.timing.validateRefundWindow height maxPayRefundWindowBlocks)

def submitFunding (c : PayConfig) (ans : SubmitAnswers) : Pay Unit := do
  let closed ← fundingAdmissionClosed c ans.tick
  let existingOnly ← chooseExistingOnly closed ans.height
  match ← sendFunding existingOnly closed ans.send with
  | .ok result => settleFunding result ans.arm
  | .notFound =>
    if existingOnly then (if closed then markExpired else pure ())
    else reconcileFailedSend c false ans
  | .rejected => reconcileFailedSend c true ans
  | .error _ => reconcileFailedSend c false ans

/-- A send whose answer was lost is given some time before it is repeated. -/
def inResumeGrace (c : PayConfig) (tick : ℕ) : Pay Bool := do
  let s ← getSession
  let now ← readClock tick
  pure (0 < c.fundingResumeGracePeriod && s.updatedAt != 0 &&
    now < s.updatedAt + c.fundingResumeGracePeriod)

def ensureFundingSubmitted (c : PayConfig) (allowImmediate : Bool) (ans : SubmitAnswers) :
    Pay Unit := do
  let s ← getSession
  if s.fundingSessionID ≠ "" then
    (if s.vhtlcOutpoint ≠ "" ∧ 0 < s.vhtlcAmount then markVHTLCFundedFromLocalMetadata ans.arm
      else pure ())
  else if allowImmediate then submitFunding c ans
  else do
    if ← inResumeGrace c ans.graceTick then pure () else submitFunding c ans

structure FundAnswers where
  observe : ObserveAnswers
  safe : SafeAnswers
  submit : SubmitAnswers

/-- The intent to fund is written before anything is sent. -/
def recordFundingIntent : Pay Unit := do
  let s ← getSession
  if s.state = .swapCreated then
    mutateAndPersistPay (PaySession.transition .fundingInitiated)
  else pure ()

def fundOrAdoptVHTLC (c : PayConfig) (ans : FundAnswers) : Pay Unit := do
  let funded ← logged false (observeLiveVHTLC c ans.observe)
  let s ← getSession
  if s.state = .refundInitiated then pure ()
  else if funded then mutateAndPersistPay (PaySession.transition .vhtlcFunded)
  else do
    ensureFundingStillSafe c ans.safe
    recordFundingIntent
    ensureFundingSubmitted c true ans.submit

structure RejectedAnswers where
  session : Except RemoteError (Option OORStatus)
  cancel : Except RemoteError Unit

/-- Whether the daemon says of the funding that it failed, and when. -/
def checkFundingRejected (ans : RejectedAnswers) : Pay Unit := do
  let s ← getSession
  if s.fundingSessionID = "" then pure ()
  else
    match ans.session with
    | .ok (some (.failed beforePONR)) =>
      if beforePONR then do
        modifyEnv fun env => { env with truthful := env.truthful && env.transfer == .failed }
        retryable (cancelRecovery ans.cancel)
        throw .failure
      else needsIntervention id
    | _ => pure ()

end Wavelength.Swaps
