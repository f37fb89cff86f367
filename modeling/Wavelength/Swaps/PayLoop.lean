import Wavelength.Base.Machine
import Wavelength.Swaps.Pay

/-! # Paying over Lightning: the state machine

Once the vHTLC is funded the payer waits for the claim of the server; if none comes it takes the
funding back. One action is one turn of the wait loop of the current state.
-/

namespace Wavelength.Swaps

/-! ## Waiting -/

structure PollAnswers where
  tick₁ : ℕ
  tick₂ : ℕ
  interrupted : Bool

/-- Sleep until the next turn; the swap deadline cuts that short. -/
def waitForNextPoll (c : PayConfig) (ans : PollAnswers) : Pay Unit := do
  let cfg ← getConfig
  let now ← readClock ans.tick₁
  if deadlinePassed cfg.expiry now then throw .expired
  else do
    let now ← readClock ans.tick₂
    let wait :=
      if cfg.expiry = 0 then c.waitPollInterval else min c.waitPollInterval (cfg.expiry - now)
    if wait ≤ 0 then throw .expired else waitForFixedPoll ans.interrupted

inductive ClaimObservation where
  | preimage
  | spent (vtxo : VTXOInfo) (spentByTxID : String)
  | nothing

/-- A lookup that fails is made again in the next turn. -/
def ClaimObservation.ofReply : Except RemoteError ClaimObservation → ClaimObservation
  | .ok o => o
  | .error _ => .nothing

def completePay (cancel : Except RemoteError Unit) : Pay Unit := do
  retryable (cancelRecovery cancel)
  mutateAndPersistPay fun s => PaySession.transition .completed { s with hasPreimage := true }

structure FundedAnswers where
  rejected : RejectedAnswers
  observation : Except RemoteError ClaimObservation
  cancel : Except RemoteError Unit
  observe : ObserveAnswers
  tick : ℕ
  safe : SafeAnswers
  submit : SubmitAnswers
  poll : PollAnswers
  submitAgain : SubmitAnswers

/-- The poll at the end of a turn. At the hard deadline an unknown transfer is looked for once
more. -/
def pollForFunding (c : PayConfig) (ans : FundedAnswers) : Pay Bool :=
  tryCatch (do
    waitForNextPoll c ans.poll
    pure true) fun e =>
    if e = .expired then do
      let s ← getSession
      (if s.fundingSessionID ≠ "" then waitForFixedPoll ans.poll.interrupted
        else ensureFundingSubmitted c true ans.submitAgain)
      pure false
    else throw e

/-- Fund what is not funded yet, and wait; whether the wait goes on. -/
def submitAndPoll (c : PayConfig) (ans : FundedAnswers) : Pay Bool := do
  let closed ← fundingAdmissionClosed c ans.tick
  doIf (!closed) (ensureFundingStillSafe c ans.safe)
  ensureFundingSubmitted c false ans.submit
  let s ← getSession
  if s.state = .vhtlcFunded then pure false else pollForFunding c ans

/-- One turn of the wait for the funded output; whether another one follows. -/
def waitForFundedVHTLC (c : PayConfig) (ans : FundedAnswers) : Pay Bool := do
  checkFundingRejected ans.rejected
  match ClaimObservation.ofReply ans.observation with
  | .preimage => do
    completePay ans.cancel
    pure false
  | .spent vtxo _ => needsIntervention fun s =>
      { s with vhtlcOutpoint := vtxo.outpoint, vhtlcAmount := vtxo.amountSat }
  | .nothing => do
    let funded ← logged false (observeLiveVHTLC c ans.observe)
    let s ← getSession
    if s.state = .refundInitiated then pure false
    else if funded then do
      mutateAndPersistPay (PaySession.transition .vhtlcFunded)
      pure false
    else submitAndPoll c ans

/-! ## The refund -/

/-- The live output at the destination of the refund, if it has the amount of the vHTLC. -/
def observeRefundOutput (reply : Except RemoteError (Option VTXOInfo)) : Pay (Option VTXOInfo) := do
  let s ← getSession
  if !s.hasRefundReceive then pure none
  else do
    match ← call reply with
    | none => pure none
    | some v =>
      if v.outpoint = s.vhtlcOutpoint then pure none
      else if s.vhtlcAmount ≠ 0 ∧ v.amountSat ≠ s.vhtlcAmount then pure none
      else pure (some v)

def markRefundOutputIndexed (cancel : Except RemoteError Unit) : Pay Unit := do
  retryable (cancelRecovery cancel)
  mutateAndPersistPay (PaySession.transition .refunded)

def markRefunded (spent : VTXOInfo) (spentByTxID : String) (cancel : Except RemoteError Unit) :
    Pay Unit := do
  retryable (cancelRecovery cancel)
  mutateAndPersistPay fun s => PaySession.transition .refunded
    { s with
      vhtlcOutpoint := if spent.outpoint ≠ "" then spent.outpoint else s.vhtlcOutpoint
      vhtlcAmount := if spent.amountSat ≠ 0 then spent.amountSat else s.vhtlcAmount
      refundSessionID := if s.refundSessionID = "" then spentByTxID else s.refundSessionID }

structure RefundableAnswers where
  live : Except LookupError (Option VTXOInfo)
  arm : ArmAnswers

/-- The output to be refunded; what is known locally serves where the script is not registered. -/
def observeRefundableVHTLC (ans : RefundableAnswers) : Pay Bool := do
  let s ← getSession
  match ans.live with
  | .error .unregistered =>
    if s.vhtlcOutpoint ≠ "" ∧ 0 < s.vhtlcAmount then do
      ensurePayRefundRecoveryArmed ans.arm
      pure true
    else throw .failure
  | .error (.remote e) => throw e.wrap
  | .ok none => pure false
  | .ok (some vtxo) => do
    mutateAndPersistPay fun s => some
      { s with vhtlcOutpoint := vtxo.outpoint, vhtlcAmount := vtxo.amountSat }
    ensurePayRefundRecoveryArmed ans.arm
    pure true

/-- The signing data of the refund, which may lack the input or its checkpoint. -/
inductive PreparedRefund where
  | ok
  | incomplete
  deriving DecidableEq

inductive AuthorizeReply where
  | ok
  | unavailable
  | empty
  | error (e : RemoteError)

structure CoopAnswers where
  refundable : RefundableAnswers
  receiveScript : Except RemoteError Bool
  prepared : Except RemoteError PreparedRefund
  authorize : AuthorizeReply
  send : Except RemoteError String

def persistRefundSessionID (refundSessionID : String) : Pay Unit := do
  let s ← getSession
  setSession { s with refundSessionID := refundSessionID }
  persistPay

def submitCoopRefund (ans : CoopAnswers) : Pay Bool := do
  let refundSessionID ← callRetryable ans.send
  if refundSessionID = "" then throw .failure
  else do
    retryable (persistRefundSessionID refundSessionID)
    retryable initiateRefund
    pure true

/-- A refund that the server signs once its payment has failed for good. -/
def tryCooperativeRefund (ans : CoopAnswers) : Pay Bool := do
  let s ← getSession
  if s.refundSessionID ≠ "" then do
    initiateRefund
    pure true
  else do
    if ← retryable (observeRefundableVHTLC ans.refundable) then do
      refundPubKey ans.receiveScript
      match ← callRetryable ans.prepared with
      | .incomplete => throw .failure
      | .ok =>
        match ans.authorize with
        | .unavailable => pure false
        | .empty => throw .retryable
        | .error _ => throw .retryable
        | .ok => submitCoopRefund ans
    else pure false

inductive RecoveryState where
  | dormant
  | active
  | completed
  | failed

structure ClaimWaitAnswers where
  rejected : RejectedAnswers
  observation : Except RemoteError ClaimObservation
  cancel : Except RemoteError Unit
  refundOutput : Except RemoteError (Option VTXOInfo)
  coop : CoopAnswers
  height : Except RemoteError UInt32
  poll : PollAnswers

/-- A spend that shows no preimage is the refund, where one was under way. -/
def settleSpend (vtxo : VTXOInfo) (spentByTxID : String)
    (refundOutput : Except RemoteError (Option VTXOInfo)) (cancel : Except RemoteError Unit) :
    Pay Unit := do
  match ← retryable (observeRefundOutput refundOutput) with
  | some _ => markRefundOutputIndexed cancel
  | none => do
    let s ← getSession
    if s.hasRefundReceive then markRefunded vtxo spentByTxID cancel
    else needsIntervention fun s =>
      { s with vhtlcOutpoint := vtxo.outpoint, vhtlcAmount := vtxo.amountSat }

/-- The refund by time starts at its lock time or at the deadline of the claim. -/
def awaitRefundTime (c : PayConfig) (ans : ClaimWaitAnswers) : Pay Unit := do
  let poll : Pay Unit := tryCatch (waitForNextPoll c ans.poll) fun e =>
    if e = .expired then initiateRefund else throw e
  match ans.height with
  | .error _ => poll
  | .ok height => do
    recordHeight height
    let cfg ← getConfig
    if cfg.timing.refundLocktime ≤ height then initiateRefund else poll

def waitForClaimPreimage (c : PayConfig) (ans : ClaimWaitAnswers) : Pay Unit := do
  checkFundingRejected ans.rejected
  match ClaimObservation.ofReply ans.observation with
  | .preimage => completePay ans.cancel
  | .spent vtxo spentByTxID => settleSpend vtxo spentByTxID ans.refundOutput ans.cancel
  | .nothing => do
    let refunded ← tryCatch (tryCooperativeRefund ans.coop) fun e =>
      if e = .retryable then pure false else throw e
    if refunded then pure () else awaitRefundTime c ans

structure RefundAnswers where
  observation : Except RemoteError ClaimObservation
  cancel : Except RemoteError Unit
  refundOutput : Except RemoteError (Option VTXOInfo)
  recovery : Except RemoteError RecoveryState
  session : Except RemoteError (Option OORStatus)
  refundable : RefundableAnswers
  height : Except RemoteError UInt32
  receiveScript : Except RemoteError Bool
  send : Except RemoteError String
  arm : ArmAnswers
  escalate : Except RemoteError Unit
  interrupted : Bool

def reconcilePayRefundRecovery (ans : RefundAnswers) : Pay Bool := do
  let s ← getSession
  if s.refundRecoveryID = "" then pure false
  else do
    match ← call ans.recovery with
    | .dormant => pure false
    | .active => do
      waitForFixedPoll ans.interrupted
      pure true
    | .completed => do
      mutateAndPersistPay (PaySession.transition .refunded)
      pure true
    | .failed => needsIntervention id

/-- Whether a refund that the daemon has accepted is still to be waited for. -/
def reconcilePayRefundSession (ans : RefundAnswers) : Pay Bool := do
  let s ← getSession
  if s.refundSessionID = "" then pure false
  else do
    match ← call ans.session with
    | some .completed => do
      cancelRecovery ans.cancel
      mutateAndPersistPay (PaySession.transition .refunded)
      pure true
    | some (.failed _) => do
      mutateAndPersistPay fun s => some { s with refundSessionID := "" }
      pure false
    | _ => do
      waitForFixedPoll ans.interrupted
      pure true

def maybeEscalatePayRefundRecovery (escalate : Except RemoteError Unit) : Pay Unit := do
  let s ← getSession
  if s.refundRecoveryID = "" then pure () else call escalate

/-- The refund by time. A send that fails leaves it to the recovery. -/
def submitRefund (ans : RefundAnswers) : Pay Unit := do
  refundPubKey ans.receiveScript
  match ans.send with
  | .error _ => do
    retryable (ensurePayRefundRecoveryArmed ans.arm)
    retryable (maybeEscalatePayRefundRecovery ans.escalate)
    waitForFixedPoll ans.interrupted
  | .ok refundSessionID =>
    if refundSessionID = "" then throw .failure
    else do
      retryable (persistRefundSessionID refundSessionID)
      waitForFixedPoll ans.interrupted

def refundLive (ans : RefundAnswers) : Pay Unit := do
  if ← retryable (reconcilePayRefundRecovery ans) then pure ()
  else if ← retryable (reconcilePayRefundSession ans) then pure ()
  else if ← retryable (observeRefundableVHTLC ans.refundable) then do
    let height ← blockHeight ans.height
    let cfg ← getConfig
    if height < cfg.timing.refundLocktime then waitForFixedPoll ans.interrupted
    else submitRefund ans
  else waitForFixedPoll ans.interrupted

/-- The output of the refund; while a refund is accepted its lookup may fail. -/
def refundOutputOrNone (reply : Except RemoteError (Option VTXOInfo)) : Pay (Option VTXOInfo) :=
  tryCatch (observeRefundOutput reply) fun e => do
    let s ← getSession
    if e = .crash then throw .crash
    else if s.refundSessionID = "" then throw .retryable
    else pure none

def completeRefund (ans : RefundAnswers) : Pay Unit := do
  match ← callRetryable ans.observation with
  | .preimage => completePay ans.cancel
  | .spent vtxo spentByTxID => do
    match ← refundOutputOrNone ans.refundOutput with
    | some _ => markRefundOutputIndexed ans.cancel
    | none => markRefunded vtxo spentByTxID ans.cancel
  | .nothing => do
    match ← refundOutputOrNone ans.refundOutput with
    | some _ => markRefundOutputIndexed ans.cancel
    | none => refundLive ans

/-! ## The state machine -/

structure PayAnswers where
  fund : FundAnswers
  funded : FundedAnswers
  claim : ClaimWaitAnswers
  refund : RefundAnswers

def payHandler (c : PayConfig) (ans : PayAnswers) : PayState → Pay Unit
  | .swapCreated => fundOrAdoptVHTLC c ans.fund
  | .vhtlcFunded => mutateAndPersistPay (PaySession.transition .waitForClaim)
  | .waitingForClaim => waitForClaimPreimage c ans.claim
  | .refundInitiated => completeRefund ans.refund
  | _ => pure ()

/-- The wait for the funded output is left only by its own decision. -/
def payTurn (c : PayConfig) (ans : PayAnswers) (s : PaySession) : Pay Bool :=
  if s.inFundingWait || s.state = .fundingInitiated then waitForFundedVHTLC c ans.funded
  else do
    payHandler c ans s.state
    pure false

def payFail (e : ActionError) : Pay Unit := do
  let s ← getSession
  handleFailure e (s.state = .expired) (s.state = .needsIntervention)
    (mutateAndPersistPay (PaySession.transition .expired))
    (mutateAndPersistPay (PaySession.transition .needsIntervention))
    (mutateAndPersistPay markPayFailed)

def advancePay (c : PayConfig) (ans : PayAnswers) : Pay Unit := do
  modifyEnv fun env => { env with readings := [] }
  let s ← getSession
  let again ← tryCatch (payTurn c ans s) fun e => do
    payFail e
    pure false
  let s ← getSession
  setSession { s with inFundingWait := again }

def startPay (c : PayConfig) (ans : CreateAnswers) : Pay Unit :=
  tryCatch (createSwap c ans) payFail

abbrev PayNode := Node PaySession PaySwapRow PayEnv

def PaySession.started (s : PaySession) : Bool := s.state = .swapCreated || s.state = .completed

def PayNode.start (c : PayConfig) (n : PayNode) (invoice : PayInvoice)
    (maxFeeSat maxCreditSat : UInt64) (writes : List Write) (ans : CreateAnswers) : PayNode :=
  let session : PaySession :=
    { invoice := invoice, maxFeeSat := maxFeeSat, maxCreditSat := maxCreditSat }
  let n' := { n with session := some session, writes := writes }.after (startPay c ans)
  { n' with session := n'.session.filter PaySession.started }

/-- Time passes, or a send that was still under way comes to its end. -/
inductive PayWorld where
  | tick (k : ℕ)
  | land (t : Transfer)

def PayEnv.evolve (env : PayEnv) : PayWorld → PayEnv
  | .tick k => { env with now := env.now + k }
  | .land t => { env with transfer := env.transfer.next true t }

inductive PayAction where
  | start (maxFeeSat maxCreditSat : UInt64) (writes : List Write) (ans : CreateAnswers)
  | advance (writes : List Write) (ans : PayAnswers)
  | crash
  | resume
  | world (w : PayWorld)

def PayNode.step (c : PayConfig) (invoice : PayInvoice) (n : PayNode) : PayAction → Option PayNode
  | .start maxFeeSat maxCreditSat writes ans =>
    match n.session, n.row with
    | none, none => some (PayNode.start c n invoice maxFeeSat maxCreditSat writes ans)
    | _, _ => none
  | .advance writes ans => some ({ n with writes := writes }.after (advancePay c ans))
  | .crash => some { n with session := none }
  | .resume =>
    match n.session, n.row with
    | none, some row => some { n with session := some (paySessionFromRow row) }
    | _, _ => none
  | .world w => some { n with env := n.env.evolve w }

/-- A payment of one invoice, with its store, its daemon and the clock. -/
def payMachine (c : PayConfig) (invoice : PayInvoice) : Machine PayNode PayAction where
  init n := n.session = none ∧ n.row = none ∧ n.env.sends = [] ∧ n.env.transfer = .none ∧
    n.env.truthful = true
  step := PayNode.step c invoice

/-! ## Several sessions for one invoice -/

/-- A client in which the invoice may have been started more than once. A start looks for a row
before it asks for terms. -/
structure PayClient where
  starting : List (UInt64 × UInt64) := []
  sessions : List PaySession := []
  row : Option PaySwapRow := none
  env : PayEnv

inductive ClientAction where
  | begin (maxFeeSat maxCreditSat : UInt64)
  | create (i : ℕ) (writes : List Write) (ans : CreateAnswers)
  | resume
  | advance (i : ℕ) (writes : List Write) (ans : PayAnswers)
  | crash
  | world (w : PayWorld)

def PayClient.crash (w : PayClient) : PayClient := { w with starting := [], sessions := [] }

/-- The process ends where a pass ends it. -/
def PayClient.advance (c : PayConfig) (w : PayClient) (i : ℕ) (s : PaySession)
    (writes : List Write) (ans : PayAnswers) : PayClient :=
  let n := Node.after ⟨some s, w.row, writes, w.env⟩ (advancePay c ans)
  let w' := { w with row := n.row, env := n.env }
  match n.session with
  | none => w'.crash
  | some s' => { w' with sessions := w.sessions.set i s' }

def PayClient.create (c : PayConfig) (invoice : PayInvoice) (w : PayClient) (i : ℕ)
    (limits : UInt64 × UInt64) (writes : List Write) (ans : CreateAnswers) : PayClient :=
  let n := PayNode.start c ⟨none, w.row, [], w.env⟩ invoice limits.1 limits.2 writes ans
  { starting := w.starting.eraseIdx i, sessions := w.sessions ++ n.session.toList,
    row := n.row, env := n.env }

def PayClient.step (c : PayConfig) (invoice : PayInvoice) (w : PayClient) :
    ClientAction → Option PayClient
  | .begin maxFeeSat maxCreditSat =>
    match w.row with
    | none => some { w with starting := w.starting ++ [(maxFeeSat, maxCreditSat)] }
    | some _ => none
  | .create i writes ans =>
    (w.starting[i]?).map fun limits => w.create c invoice i limits writes ans
  | .resume => w.row.map fun row => { w with sessions := w.sessions ++ [paySessionFromRow row] }
  | .advance i writes ans => (w.sessions[i]?).map fun s => w.advance c i s writes ans
  | .crash => some w.crash
  | .world a => some { w with env := w.env.evolve a }

def payClient (c : PayConfig) (invoice : PayInvoice) : Machine PayClient ClientAction where
  init w := w.starting = [] ∧ w.sessions = [] ∧ w.row = none ∧ w.env.sends = []
  step := PayClient.step c invoice

end Wavelength.Swaps
