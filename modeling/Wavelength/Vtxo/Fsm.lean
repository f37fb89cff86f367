import Wavelength.Vtxo.Expiry

/-! # The state machine of one VTXO

The nine states, the events and `processEvent`, one definition per state. Building
and signing a forfeit transaction is outside the model: its outcome comes with the
request.
-/

namespace Wavelength.Vtxo

abbrev Outpoint := ℕ

/-- `none` is the empty string. -/
abbrev RoundId := Option ℕ

abbrev TxId := ℕ

structure Tx where
  txid : TxId
  deriving DecidableEq

inductive UnrollTrigger
  | criticalExpiry
  | manual
  | fraudSpend
  deriving DecidableEq

inductive Reason
  | given (text : String)
  | manualUnroll
  | manualUnrollPendingForfeit
  | manualUnrollForfeiting
  | manualUnrollSpending
  | criticalExpiryIn (blocksRemaining : Height)
  | criticalExpiryPendingForfeit
  | criticalExpiry
  | criticalExpiryWhileSpending
  | recoveredFromStorage
  | batchExpiryImminent
  | forfeitTimeout
  | roundStalled
  | spendTimeout
  | forfeitedInRound (round : RoundId)
  | oorSpendCompleted
  | exitConfirmed
  deriving DecidableEq

inductive State
  | live (lastCheckedHeight : Height)
  | pendingForfeit (requestedAtHeight : Height)
  | spending (lastCheckedHeight : Height)
  | spent
  | forfeiting (lastCheckedHeight : Height) (newRoundId : RoundId) (forfeitTxId : TxId)
    (forfeitTx : Option Tx)
  | forfeited (newRoundId : RoundId)
  | unilateralExit (reason : Reason) (lastCheckedHeight : Height)
  | failed
  | expired (observedHeight : Height)
  deriving DecidableEq

def State.isLive : State → Bool
  | .live _ => true
  | _ => false

/-- `signed` is the outcome of building and signing the forfeit transaction, `none` when a step of
that fails; an empty `reason` is `none`. -/
inductive Event
  | blockEpoch (height : Height)
  | criticalRefresh (height : Height)
  | cohortRefresh (height batchExpiry : Height) (leader : Outpoint) (generation : ℕ)
  | spendReserve
  | pendingForfeit
  | forfeitRequest (round : RoundId) (signed : Option Tx)
  | forfeitSigned (txid : TxId)
  | forfeitConfirmed
  | forfeitReleased (round : RoundId)
  | spendReleased
  | spendCompleted
  | resume
  | forceUnroll (reason : Option String) (trigger : UnrollTrigger) (exitPolicy : Option ℕ)
  | exitFailed
  | exitConfirmed
  | exitConflicted
  | vtxoFailed
  deriving DecidableEq

inductive OutMsg
  | forfeitRequest (lastCheckedHeight : Height) (expandCohort cohortMember : Bool)
  | forfeitSignature (round : RoundId) (tx : Tx)
  | statusUpdate (newStatus : Status) (round : RoundId := none) (forfeitTx : Option Tx := none)
    (releaseSpendReservation : Bool := false)
  | expiring (blocksRemaining : Height) (reason : Reason) (trigger : UnrollTrigger)
    (exitPolicy : Option ℕ)
  | terminated (finalState : Status) (reason : Reason)
  deriving DecidableEq

inductive Refusal
  | unexpectedEvent
  | assetRequiresTransition
  | signing
  | cohortNotOwner
  | forfeitInFlight (state : Status) (round : RoundId)
  | releaseRoundMismatch (reserved release : RoundId)
  | cannotReserveForSpend
  | cannotAcceptPendingForfeit
  | alreadyReservedForSpend

/-- A transition: `current` is the old state with the fields it has written in place,
which stand even if the outbox fails. -/
structure Transition where
  current : State
  next : State
  outbox : List OutMsg := []

def stay (s : State) : Transition := ⟨s, s, []⟩

section Shared

variable (c : ExpiryConfig) (terms : Terms) (d : Descriptor) (current : State)

def stateAfterForfeitRelease (lastHeight : Height) : State :=
  if 0 < lastHeight ∧ c.checkExpiry terms d lastHeight = .expired then .expired lastHeight
  else .live lastHeight

def releaseStatus : State → Status
  | .expired _ => .expired
  | _ => .live

def forfeitReleaseTransition (next : State) : Transition :=
  ⟨current, next, [.statusUpdate (releaseStatus next)]⟩

def autoRefreshTransition (height : Height) (cohortMember : Bool) : Transition :=
  if !terms.canAutoRefresh d height then stay current
  else
    ⟨current, .pendingForfeit height,
      [.forfeitRequest height (!cohortMember) cohortMember, .statusUpdate .pendingForfeit]⟩

/-- Sign the forfeit for a round; `height` is the last height the state has seen. -/
def handleForfeitRequest (height : Height) (round : RoundId) (signed : Option Tx) :
    Except Refusal Transition :=
  if d.taprootAssetRoot then .error .assetRequiresTransition
  else
    match signed with
    | none => .error .signing
    | some tx =>
      .ok ⟨current, .forfeiting height round tx.txid (some tx),
        [.forfeitSignature round tx, .statusUpdate .forfeiting round (some tx)]⟩

theorem handleForfeitRequest_eq_ok {d current} {round : RoundId}
    (h : handleForfeitRequest d current height round signed = .ok t) :
    d.taprootAssetRoot = false ∧ ∃ tx, signed = some tx ∧
      t = ⟨current, .forfeiting height round tx.txid (some tx),
        [.forfeitSignature round tx, .statusUpdate .forfeiting round (some tx)]⟩ := by
  unfold handleForfeitRequest at h
  split at h
  · cases h
  next hroot =>
  split at h
  · cases h
  · next tx =>
    cases h
    exact ⟨Bool.eq_false_iff.2 hroot, tx, rfl, rfl⟩

def exitTransition (blocksRemaining : Height) (notified reason : Reason) (trigger : UnrollTrigger)
    (exitPolicy : Option ℕ) (height : Height) (releaseSpendReservation : Bool) : Transition :=
  ⟨current, .unilateralExit reason height,
    [.expiring blocksRemaining notified trigger exitPolicy,
      .statusUpdate .unilateralExit none none releaseSpendReservation]⟩

/-- The exit of an expiry that has become critical at `height`. -/
def criticalExit (notified reason : Reason) (height : Height) (releaseSpendReservation : Bool) :
    Transition :=
  exitTransition current (d.blocksUntilExpiry height) notified reason .criticalExpiry none height
    releaseSpendReservation

def forcedExit (reason : Option String) (default : Reason) (trigger : UnrollTrigger)
    (exitPolicy : Option ℕ) (height : Height) (releaseSpendReservation : Bool) : Transition :=
  let reason := (reason.map Reason.given).getD default
  exitTransition current 0 reason reason trigger exitPolicy height releaseSpendReservation

end Shared

section ProcessEvent

variable (c : ExpiryConfig) (terms : Terms) (d : Descriptor)

def processLive (lastCheckedHeight : Height) : Event → Except Refusal Transition
  | .blockEpoch height =>
    match c.checkExpiry terms d height with
    | .safe | .unknown => .ok (stay (.live height))
    | .needsRefresh => .ok (autoRefreshTransition terms d (.live height) height false)
    | .critical =>
      .ok (criticalExit d (.live height) .batchExpiryImminent
        (.criticalExpiryIn (d.blocksUntilExpiry height)) height false)
    | .expired => .ok ⟨.live height, .expired height, [.statusUpdate .expired]⟩
  | .criticalRefresh height => .ok (autoRefreshTransition terms d (.live height) height false)
  | .cohortRefresh height batchExpiry _ _ =>
    if batchExpiry ≤ 0 ∨ d.batchExpiry ≠ batchExpiry then .ok (stay (.live lastCheckedHeight))
    else
      match c.checkExpiry terms d height with
      | .safe | .needsRefresh => .ok (autoRefreshTransition terms d (.live height) height true)
      | .critical | .expired | .unknown => .ok (stay (.live lastCheckedHeight))
  | .spendReserve =>
    if d.taprootAssetRoot then .error .assetRequiresTransition
    else
      .ok ⟨.live lastCheckedHeight, .spending lastCheckedHeight, [.statusUpdate .spending]⟩
  | .pendingForfeit =>
    if d.taprootAssetRoot then .error .assetRequiresTransition
    else .ok ⟨.live lastCheckedHeight, .pendingForfeit 0, [.statusUpdate .pendingForfeit]⟩
  | .forfeitRequest round signed =>
    handleForfeitRequest d (.live lastCheckedHeight) lastCheckedHeight round signed
  | .forceUnroll reason trigger exitPolicy =>
    .ok (forcedExit (.live lastCheckedHeight) reason .manualUnroll trigger exitPolicy
      lastCheckedHeight false)
  | .resume | .exitFailed | .exitConfirmed | .exitConflicted => .ok (stay (.live lastCheckedHeight))
  | .vtxoFailed => .ok ⟨.live lastCheckedHeight, .failed, []⟩
  | .forfeitSigned _ | .forfeitConfirmed | .forfeitReleased _ | .spendReleased
  | .spendCompleted => .error .unexpectedEvent

def processPendingForfeit (requestedAtHeight : Height) : Event → Except Refusal Transition
  | .cohortRefresh height batchExpiry _ _ =>
    if requestedAtHeight ≤ 0 ∨ requestedAtHeight ≠ height ∨ batchExpiry ≤ 0 ∨
        d.batchExpiry ≠ batchExpiry then .error .cohortNotOwner
    else
      .ok ⟨.pendingForfeit requestedAtHeight, .pendingForfeit requestedAtHeight,
        [.forfeitRequest requestedAtHeight false true]⟩
  | .blockEpoch height =>
    if c.checkExpiry terms d height = .critical then
      .ok (criticalExit d (.pendingForfeit requestedAtHeight) .forfeitTimeout
        .criticalExpiryPendingForfeit height false)
    else .ok (stay (.pendingForfeit requestedAtHeight))
  | .forceUnroll reason trigger exitPolicy =>
    .ok (forcedExit (.pendingForfeit requestedAtHeight) reason .manualUnrollPendingForfeit trigger
      exitPolicy requestedAtHeight false)
  | .forfeitRequest round signed =>
    handleForfeitRequest d (.pendingForfeit requestedAtHeight) requestedAtHeight round signed
  | .pendingForfeit => .error (.forfeitInFlight .pendingForfeit none)
  | .forfeitReleased _ =>
    .ok (forfeitReleaseTransition (.pendingForfeit requestedAtHeight)
      (stateAfterForfeitRelease c terms d requestedAtHeight))
  | .spendReserve => .error .cannotReserveForSpend
  | .criticalRefresh _ | .resume => .ok (stay (.pendingForfeit requestedAtHeight))
  | .vtxoFailed => .ok ⟨.pendingForfeit requestedAtHeight, .failed, []⟩
  | .forfeitSigned _ | .forfeitConfirmed | .spendReleased | .spendCompleted | .exitFailed
  | .exitConfirmed | .exitConflicted => .error .unexpectedEvent

def forfeitSignatureIssued (forfeitTxId : TxId) (forfeitTx : Option Tx) : Bool :=
  forfeitTxId ≠ 0 || forfeitTx.isSome

def processForfeiting (lastCheckedHeight : Height) (newRoundId : RoundId) (forfeitTxId : TxId)
    (forfeitTx : Option Tx) : Event → Except Refusal Transition :=
  let current := State.forfeiting lastCheckedHeight newRoundId forfeitTxId forfeitTx
  fun
  | .forfeitSigned txid =>
    .ok ⟨current, .forfeiting lastCheckedHeight newRoundId txid forfeitTx, []⟩
  | .forfeitConfirmed =>
    .ok ⟨current, .forfeited newRoundId, [.statusUpdate .forfeited none forfeitTx,
      .terminated .forfeited (.forfeitedInRound newRoundId)]⟩
  | .blockEpoch height =>
    if c.checkExpiry terms d height = .critical ∧
        forfeitSignatureIssued forfeitTxId forfeitTx = false then
      .ok (criticalExit d current .roundStalled .criticalExpiry height false)
    else .ok (stay current)
  | .resume => .ok (stay current)
  | .forceUnroll reason trigger exitPolicy =>
    if trigger = .criticalExpiry ∧ forfeitSignatureIssued forfeitTxId forfeitTx = true then
      .ok (stay current)
    else
      .ok (forcedExit current reason .manualUnrollForfeiting trigger exitPolicy 0 false)
  | .forfeitReleased round =>
    if round = none ∨ round ≠ newRoundId then .error (.releaseRoundMismatch newRoundId round)
    else
      .ok (forfeitReleaseTransition current (stateAfterForfeitRelease c terms d lastCheckedHeight))
  | .vtxoFailed => .ok ⟨current, .failed, []⟩
  | .pendingForfeit => .error (.forfeitInFlight .forfeiting newRoundId)
  | .criticalRefresh _ | .cohortRefresh _ _ _ _ | .spendReserve | .forfeitRequest _ _
  | .spendReleased | .spendCompleted | .exitFailed | .exitConfirmed | .exitConflicted =>
    .error .unexpectedEvent

def processSpending (lastCheckedHeight : Height) : Event → Except Refusal Transition
  | .spendCompleted =>
    .ok ⟨.spending lastCheckedHeight, .spent, [.statusUpdate .spent none none true,
      .terminated .spent .oorSpendCompleted]⟩
  | .spendReleased =>
    let next := stateAfterForfeitRelease c terms d lastCheckedHeight
    .ok ⟨.spending lastCheckedHeight, next, [.statusUpdate (releaseStatus next) none none true]⟩
  | .blockEpoch height =>
    if c.checkExpiry terms d height = .critical then
      .ok (criticalExit d (.spending height) .spendTimeout .criticalExpiryWhileSpending height true)
    else .ok (stay (.spending height))
  | .pendingForfeit => .error .cannotAcceptPendingForfeit
  | .spendReserve => .error .alreadyReservedForSpend
  | .resume => .ok (stay (.spending lastCheckedHeight))
  | .forceUnroll reason trigger exitPolicy =>
    .ok (forcedExit (.spending lastCheckedHeight) reason .manualUnrollSpending trigger exitPolicy
      lastCheckedHeight true)
  | .vtxoFailed => .ok ⟨.spending lastCheckedHeight, .failed, []⟩
  | .criticalRefresh _ | .cohortRefresh _ _ _ _ | .forfeitRequest _ _ | .forfeitSigned _
  | .forfeitConfirmed | .forfeitReleased _ | .exitFailed | .exitConfirmed | .exitConflicted =>
    .error .unexpectedEvent

def processUnilateralExit (reason : Reason) (lastCheckedHeight : Height) :
    Event → Except Refusal Transition :=
  let current := State.unilateralExit reason lastCheckedHeight
  fun
  | .forceUnroll given trigger exitPolicy =>
    .ok ⟨current, current, [.expiring 0 ((given.map Reason.given).getD reason) trigger exitPolicy]⟩
  | .exitFailed => .ok ⟨current, .live lastCheckedHeight, [.statusUpdate .live]⟩
  | .exitConfirmed =>
    .ok ⟨current, .spent, [.statusUpdate .spent, .terminated .spent .exitConfirmed]⟩
  | .exitConflicted => .ok ⟨current, .expired 0, [.statusUpdate .expired]⟩
  -- everything else is absorbed, admission requests included
  | _ => .ok (stay current)

def processExpired (observedHeight : Height) : Event → Except Refusal Transition
  | .blockEpoch height =>
    if c.checkExpiry terms d height ≠ .expired then
      .ok (forfeitReleaseTransition (.expired height) (.live height))
    else if !terms.canAutoRefresh d height then .ok (stay (.expired height))
    else
      .ok ⟨.expired height, .pendingForfeit height,
        [.forfeitRequest height false false, .statusUpdate .pendingForfeit]⟩
  | .pendingForfeit =>
    if d.taprootAssetRoot then .error .assetRequiresTransition
    else
      .ok ⟨.expired observedHeight, .pendingForfeit observedHeight, [.statusUpdate .pendingForfeit]⟩
  | .forfeitRequest round signed =>
    handleForfeitRequest d (.expired observedHeight) observedHeight round signed
  | .vtxoFailed => .ok ⟨.expired observedHeight, .failed, []⟩
  | .spendReserve | .resume | .forceUnroll _ _ _ | .spendReleased | .spendCompleted
  | .forfeitReleased _ | .exitFailed | .exitConfirmed | .exitConflicted =>
    .ok (stay (.expired observedHeight))
  | .criticalRefresh _ | .cohortRefresh _ _ _ _ | .forfeitSigned _ | .forfeitConfirmed =>
    .error .unexpectedEvent

def processEvent : State → Event → Except Refusal Transition
  | .live lastCheckedHeight => processLive c terms d lastCheckedHeight
  | .pendingForfeit requestedAtHeight => processPendingForfeit c terms d requestedAtHeight
  | .forfeiting lastCheckedHeight newRoundId forfeitTxId forfeitTx =>
    processForfeiting c terms d lastCheckedHeight newRoundId forfeitTxId forfeitTx
  | .spending lastCheckedHeight => processSpending c terms d lastCheckedHeight
  | .unilateralExit reason lastCheckedHeight => processUnilateralExit reason lastCheckedHeight
  | .expired observedHeight => processExpired c terms d observedHeight
  | .spent => fun _ => .ok (stay .spent)
  | .forfeited newRoundId => fun _ => .ok (stay (.forfeited newRoundId))
  | .failed => fun _ => .ok (stay .failed)

end ProcessEvent

end Wavelength.Vtxo
