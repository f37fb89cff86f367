import Wavelength.Base.Machine
import Wavelength.Txconfirm.Tracked

/-! # The transaction-confirmation actor

The handlers of the actor's messages, first as what each does to one entry (`none` when the
entry is no longer tracked afterwards) and then as the steps of the actor among its subscribers,
where deferred and detached deliveries make their own steps at any time.
-/

namespace Wavelength.Txconfirm

open Turn

section Notifications

variable (e : Entry)

/-- Remove one subscriber. The entry goes with the last one, unless its state cannot be read. -/
def handleCancel (subscriberId : SubscriberId) : Turn (Option Entry) := do
  let e := e.deleteSubscriber subscriberId
  if e.subscribers ≠ [] then
    pure (some e)
  else
    match ← e.currentFSMState with
    | none => pure (some e)
    | some _ => pure none

def removeStoppedConfirmedSubscribers (subscribers : List Subscriber) : Turn (Option Entry) := do
  let e' := { e with subscribers := subscribers }
  if e.subscribers = [] ∨ subscribers ≠ [] then
    pure (some e')
  else
    match ← e'.currentFSMState with
    | none => pure (some e')
    | some _ => pure none

def confirmOne (blockHeight : ℤ) (blockHash : BlockHash) (numConfs : ℕ) (s : Subscriber) :
    Turn (Option Subscriber) := do
  match ← notifyOneConfirmed e s.ref blockHeight blockHash numConfs with
  | .delivered => pure (some { s with pendingConfirmed := false })
  | .subscriberStopped => pure none
  | .pending => pure (some s)

def notifyConfirmed (blockHeight : ℤ) (blockHash : BlockHash) (numConfs : ℕ) :
    Turn (Option Entry) := do
  let subscribers ← forSubscribers (fun s => do
    if s.pendingConfirmed then confirmOne e blockHeight blockHash numConfs s
    else do
      notifyReversibleAsync e s.ref (.confirmed blockHeight blockHash numConfs)
      pure (some s)) e.subscribers
  removeStoppedConfirmedSubscribers e subscribers

def retryConfirmedRedelivery (confirmHeight : ℤ) (confirmBlockHash : BlockHash) :
    Turn (Option Entry) := do
  let subscribers ← forSubscribers (fun s => do
    if s.pendingConfirmed then confirmOne e confirmHeight confirmBlockHash e.targetConfs s
    else pure (some s)) e.subscribers
  removeStoppedConfirmedSubscribers e subscribers

def notifyReorged : Turn Entry := do
  let subscribers ← forSubscribers (fun s => do
    if s.pendingConfirmed then pure (some s)
    else do
      notifyReversibleAsync e s.ref .reorged
      pure (some s)) e.subscribers
  pure { e with subscribers := subscribers }

def finalizeOne (confirmHeight : ℤ) (s : Subscriber) : Turn (Option Subscriber) := do
  match ← notifyOneFinalized e s.ref confirmHeight e.targetConfs with
  | .pending => pure (some s)
  | _ => pure none

/-- A subscriber that is still owed its first `TxConfirmed` gets it before `TxFinalized`. -/
def notifyFinalized (confirmHeight : ℤ) (confirmBlockHash : BlockHash) : Turn (Option Entry) := do
  modify (·.storeSealed e.gen)
  let subscribers ← forSubscribers (fun s => do
    if s.pendingConfirmed then
      match ← notifyOneConfirmed e s.ref confirmHeight confirmBlockHash e.targetConfs with
      | .delivered => finalizeOne e confirmHeight { s with pendingConfirmed := false }
      | .subscriberStopped => pure none
      | .pending => pure (some s)
    else finalizeOne e confirmHeight s) e.subscribers
  pure (if subscribers = [] then none else some { e with subscribers := subscribers })

def notifyFailed (reason : String) : Turn (Option Entry) := do
  modify (·.storeSealed e.gen)
  let subscribers ← forSubscribers (fun s => do
    match ← notifyOneFailed e s.ref reason with
    | .pending => pure (some s)
    | _ => pure none) e.subscribers
  pure (if subscribers = [] then none else some { e with subscribers := subscribers })

/-- The entry is evicted once a terminal notification has reached every subscriber. -/
def retryLifecycleNotifications : Turn (Option Entry) := do
  match ← e.currentFSMState with
  | some (.confirmed _ height hash) => retryConfirmedRedelivery e height hash
  | some (.finalized _ height hash) => notifyFinalized e height hash
  | some (.failed _ reason) => notifyFailed e reason
  | _ => pure (some e)

end Notifications

section Broadcast

variable (bestHeight : ℤ) (e : Entry)

/-- The entry after its terminal failure, and whether the machine has confirmed it. -/
def failTrackedTx (reason : String) : Turn (Option Entry × Bool) := do
  let (e, ok) ← { e with pendingFailureReason := some reason }.advanceTrackedTxFSM (.failed reason)
  if ok then
    pure (← notifyFailed { e with pendingFailureReason := none } reason, true)
  else
    pure (some e, false)

def recordBroadcastFailure : Turn (Option Entry × Bool) := do
  match ← e.currentFSMState with
  | none => pure (some e, false)
  | some _ =>
    let (e, ok) ← e.advanceTrackedTxFSM (.broadcastFailed (some bestHeight))
    pure (some e, ok)

def recordInitialBroadcastOutcome : Option BroadcastError → Turn (Option Entry × Bool)
  | none => pure (some e, true)
  | some err => do
    if err.parentAlreadyBroadcast then
      let (e, ok) ← e.advanceTrackedTxFSM (.broadcastAccepted (some bestHeight))
      pure (some e, ok)
    else if err.nonTRUCParent ∨ (e.anchor = .none ∧ err.classified) then
      failTrackedTx e ("broadcast: " ++ err.text)
    else if err.ambiguousSpend ∨ e.retryUntilAccepted ∨ e.anchor ≠ .none then
      recordBroadcastFailure bestHeight e
    else
      failTrackedTx e ("broadcast: " ++ err.text)

/-- `start` is the event of the state that is entered. -/
def broadcastTrackedTx (start : TxEvent) : Turn (Entry × Option BroadcastError) := do
  let (e, ok) ← e.advanceTrackedTxFSM start
  if ok then
    match (← answer).submit with
    | some err => pure (e, some err)
    | none =>
      let (e, ok) ← e.advanceTrackedTxFSM (.broadcastAccepted (some bestHeight))
      if ok then pure (e, none) else pure (e, some { text := (← answer).text })
  else
    pure (e, some { text := (← answer).text })

def submitInitial : Turn (Option Entry × Bool) := do
  let (e, err) ← broadcastTrackedTx bestHeight e .broadcastStarted
  recordInitialBroadcastOutcome bestHeight e err

def submitFeeBump : Turn (Option Entry) := do
  let (e, err) ← broadcastTrackedTx bestHeight e .feeBumpStarted
  match err with
  | none => pure (some e)
  | some _ =>
    let (e, _) ← e.advanceTrackedTxFSM (.broadcastAccepted (some bestHeight))
    pure (some e)

/-- The entry to go on with, or what the retry of a pending failure has left of it. -/
def retryPendingFailure : Turn (Except (Option Entry) Entry) := do
  match e.pendingFailureReason with
  | none => pure (.ok e)
  | some reason =>
    match ← e.currentFSMState with
    | none => pure (.error (some e))
    | some state =>
      if state.isBroadcasting then
        let (e, _) ← failTrackedTx e reason
        pure (.error e)
      else
        pure (.ok { e with pendingFailureReason := none })

def broadcastIntervalElapsed (feeBumpIntervalBlocks : ℤ) (want : TxState → Option (Option ℤ)) :
    Turn Bool := do
  match (← e.currentFSMState).bind want with
  | none => pure false
  | some _ =>
    match (← e.currentFSMState).bind want with
    | some (some last) => pure (decide (feeBumpIntervalBlocks ≤ bestHeight - last))
    | _ => pure false

def shouldRetryBroadcast (feeBumpIntervalBlocks : ℤ) : Turn Bool :=
  broadcastIntervalElapsed bestHeight e feeBumpIntervalBlocks fun
    | .broadcasting last => some last
    | _ => none

def shouldFeeBump (feeBumpIntervalBlocks : ℤ) : Turn Bool :=
  broadcastIntervalElapsed bestHeight e feeBumpIntervalBlocks fun
    | .awaitingConfirmation last => some last
    | _ => none

end Broadcast

section Messages

variable (bestHeight : ℤ) (e : Entry)

def handleConfirmationObserved (blockHeight : ℤ) (blockHash : BlockHash) (numConfs : ℕ) :
    Turn (Option Entry) := do
  match ← e.currentFSMState with
  | none => pure (some e)
  | some state =>
    if state.isTerminal then
      retryLifecycleNotifications e
    else if state.isConfirmed then
      notifyConfirmed { e with pendingFailureReason := none } blockHeight blockHash numConfs
    else
      let (e, ok) ← { e with pendingFailureReason := none }.advanceTrackedTxFSM
        (.confirmed blockHeight blockHash)
      if ok then notifyConfirmed e blockHeight blockHash numConfs else pure (some e)

def handleConfirmationReorged : Turn (Option Entry) := do
  match ← e.currentFSMState with
  | some (.confirmed _ _ _) =>
    let (e, ok) ← e.advanceTrackedTxFSM .reorged
    if ok then some <$> notifyReorged e else pure (some e)
  | _ => pure (some e)

def handleConfirmationDone : Turn (Option Entry) := do
  match ← e.currentFSMState with
  | some (.confirmed _ _ _) =>
    match ← e.currentFSMState with
    | some (.confirmed _ height hash) =>
      let (e, ok) ← e.advanceTrackedTxFSM .finalized
      if ok then notifyFinalized e height hash else pure (some e)
    | _ => pure (some e)
  | _ => pure (some e)

def observeBlock (feeBumpIntervalBlocks : ℤ) : Turn (Option Entry) := do
  match ← retryPendingFailure e with
  | .error e => pure e
  | .ok e =>
    match ← e.currentFSMState with
    | none => pure (some e)
    | some state =>
      if state.isTerminal ∨ state.isConfirmed then
        retryLifecycleNotifications e
      else if ← shouldRetryBroadcast bestHeight e feeBumpIntervalBlocks then
        Prod.fst <$> submitInitial bestHeight e
      else if ← shouldFeeBump bestHeight e feeBumpIntervalBlocks then
        submitFeeBump bestHeight e
      else
        pure (some e)

def retryBroadcastingParent : Turn (Option Entry) := do
  match ← retryPendingFailure e with
  | .error e => pure e
  | .ok e =>
    match ← e.currentFSMState with
    | some (.broadcasting _) => Prod.fst <$> submitInitial bestHeight e
    | _ => pure (some e)

/-- A forced fee bump. A funded parent that no mempool has yet is submitted again instead. -/
def handleBumpNow : Turn (Option Entry) := do
  match ← e.currentFSMState with
  | none => pure (some e)
  | some state =>
    if e.pendingFailureReason.isSome then pure (some e)
    else
      match state with
      | .new | .feeBumping _ | .confirmed _ _ _ | .failed _ _ => pure (some e)
      | .broadcasting _ =>
        if e.anchor = .funded then Prod.fst <$> submitInitial bestHeight e else pure (some e)
      | .awaitingConfirmation _ | .finalized _ _ _ =>
        if e.anchor = .none then pure (some e) else submitFeeBump bestHeight e

def attachExistingSubscriber (ref : Ref) : Turn (Option Entry) := do
  match ← e.currentFSMState with
  | none => pure (some e)
  | some state =>
    if e.pendingFailureReason.isSome then pure (some e)
    else
      match state with
      | .confirmed _ height hash =>
        match ← notifyOneConfirmed e ref height hash e.targetConfs with
        | .delivered => pure (some (e.putSubscriber ⟨ref, false⟩))
        | .pending => pure (some (e.putSubscriber ⟨ref, true⟩))
        | .subscriberStopped => pure (some e)
      | .finalized _ height _ =>
        match ← notifyOneFinalized e ref height e.targetConfs with
        | .pending => pure (some (e.putSubscriber ⟨ref, false⟩))
        | _ => pure (some e)
      | .failed _ reason =>
        match ← notifyOneFailed e ref reason with
        | .pending => pure (some (e.putSubscriber ⟨ref, true⟩))
        | _ => pure (some e)
      | _ => pure (some (e.putSubscriber ⟨ref, true⟩))

/-- A deferred first `TxConfirmed` has been accepted. If the confirmation is gone by now, the
subscriber is told that too. -/
def confirmedDelivered (subscriberId : SubscriberId) : Turn (Option Entry) := do
  match e.subscribers.find? (·.ref.id = subscriberId) with
  | none => pure (some e)
  | some s =>
    let e := e.clearPendingConfirmed subscriberId
    match ← e.currentFSMState with
    | none => pure (some e)
    | some state =>
      if state.isConfirmed ∨ state.isTerminal then pure (some e)
      else do
        notifyReversibleAsync e s.ref .reorged
        pure (some e)

def terminalDelivered (subscriberId : SubscriberId) : Turn (Option Entry) := do
  let e := e.deleteSubscriber subscriberId
  if e.subscribers ≠ [] then
    pure (some e)
  else
    match ← e.currentFSMState with
    | none => pure (some e)
    | some state => pure (if state.isTerminal then none else some e)

/-- The result of a deferred delivery comes back; it names the kind and the subscriber's id. -/
def handleTerminalNotifyResult (kind : Kind) (subscriberId : SubscriberId) :
    TellResult → Turn (Option Entry)
  | .stopped => handleCancel e subscriberId
  | .error => pure (some e)
  | .ok =>
    match kind with
    | .confirmed => confirmedDelivered e subscriberId
    | .finalized | .failed => terminalDelivered e subscriberId

end Messages

structure EnsureReq where
  txid : Txid
  outputs : List (List UInt8) := [[0]]
  anchor : Anchor := .none
  confirmationPkScript : List UInt8 := []
  targetConfs : ℕ := 0
  retryUntilAccepted : Bool := false
  subscriber : Ref

namespace EnsureReq

variable (req : EnsureReq)

def normalizeTargetConfs : ℕ := if req.targetConfs = 0 then 1 else req.targetConfs

def confirmationPkScriptForRequest : Option (List UInt8) :=
  if req.confirmationPkScript ≠ [] then some req.confirmationPkScript
  else
    match req.outputs with
    | [] | [] :: _ => none
    | script :: _ => some script

def validateEnsureMatch (e : Entry) : Bool :=
  req.retryUntilAccepted = e.retryUntilAccepted && req.normalizeTargetConfs = e.targetConfs &&
    req.confirmationPkScriptForRequest = some e.confirmationPkScript

def newTrackedTx (confirmationPkScript : List UInt8) (gen : ℕ) : Entry where
  txid := req.txid
  gen := gen
  confirmationPkScript := confirmationPkScript
  targetConfs := req.normalizeTargetConfs
  retryUntilAccepted := req.retryUntilAccepted
  anchor := req.anchor
  fsm := .running .new
  subscribers := [⟨req.subscriber, true⟩]
  pendingFailureReason := none

end EnsureReq

/-- The block subscription, whose flag it returns, the confirmation watch and the first submission
of a new entry. A failed submission leaves the entry without its subscriber. -/
def admitTx (bestHeight : ℤ) (blockSubscriptionActive : Bool) (e : Entry) (ref : Ref) :
    Turn (Option Entry × Bool) := do
  if blockSubscriptionActive ∨ (← answer).chain then
    if (← answer).chain then
      let (e, ok) ← submitInitial bestHeight e
      pure (if ok then e else e.map (·.deleteSubscriber ref.id), true)
    else
      pure (none, true)
  else
    pure (none, false)

structure World where
  tracked : Table Entry Entry.txid := .empty
  nextGen : ℕ := 0
  bestHeight : ℤ := 0
  hasBestHeight : Bool := false
  blockSubscriptionActive : Bool := false
  post : Post := {}

namespace World

variable (w : World)

def withPost (post : Post) : World := { w with post := post }

def withScript (script : List Answer) : World := w.withPost { w.post with script := script }

def store (txid : Txid) (r : Option Entry × Post) : World :=
  { w with
    tracked :=
      match r.1 with
      | none => w.tracked.delete txid
      | some e => w.tracked.put e
    post := r.2 }

def handle (txid : Txid) (f : Entry → Turn (Option Entry)) : World :=
  match w.tracked.get? txid with
  | none => w
  | some e => w.store txid ((f e).run w.post)

def handleAll (f : ℤ → Entry → Turn (Option Entry)) : World :=
  (w.tracked.rows.map Entry.txid).foldl (fun w txid => w.handle txid (f w.bestHeight)) w

def ensureBestHeight : Turn (Option ℤ) := do
  if w.hasBestHeight then pure (some w.bestHeight)
  else
    let a ← answer
    pure (if a.chain then some a.height else none)

def startTracking (req : EnsureReq) : World :=
  match w.ensureBestHeight.run w.post with
  | (none, post) => { w with post := post }
  | (some height, post) =>
    let w' := { w with bestHeight := height, hasBestHeight := true, post := post }
    match req.confirmationPkScriptForRequest with
    | none => w'
    | some script =>
      let r := (admitTx height w.blockSubscriptionActive (req.newTrackedTx script w.nextGen)
        req.subscriber).run post
      { w'.store req.txid (r.1.1, r.2) with
        nextGen := w.nextGen + 1
        blockSubscriptionActive := r.1.2 }

def handleEnsure (req : EnsureReq) : World :=
  match w.tracked.get? req.txid with
  | none => w.startTracking req
  | some e =>
    if req.validateEnsureMatch e then
      w.handle req.txid (attachExistingSubscriber · req.subscriber)
    else w

def handleBlockObserved (feeBumpIntervalBlocks height : ℤ) : World :=
  let w := if !w.hasBestHeight || w.bestHeight < height then
    { w with bestHeight := height, hasBestHeight := true } else w
  w.handleAll fun best e => observeBlock best e feeBumpIntervalBlocks

def retryBroadcastingParents : World := w.handleAll retryBroadcastingParent

/-- The `Tell` of a deferred delivery returns and its result is sent to the actor. -/
def deferredReturns (i : ℕ) (res : TellResult) : Option World := do
  let d ← w.post.deferred[i]?
  let p := w.post.told d.receipt res
  some (w.withPost { p with deferred := p.deferred.eraseIdx i, results := p.results ++ [(d, res)] })

def resultObserved (i : ℕ) : Option World := do
  let (d, res) ← w.post.results[i]?
  some ((w.withPost (w.post.takeResult i d)).handle d.txid fun e =>
    handleTerminalNotifyResult e d.kind d.ref.id res)

/-- A detached delivery reads the sealed flag of its entry. -/
def detachedReads (i : ℕ) : Option World := do
  let d ← w.post.detached[i]?
  if d.checked then none
  else if d.gen ∈ w.post.sealed then
    some (w.withPost { w.post with detached := w.post.detached.eraseIdx i })
  else
    some (w.withPost { w.post with detached := w.post.detached.set i { d with checked := true } })

def detachedSends (i : ℕ) (res : TellResult) : Option World := do
  let d ← w.post.detached[i]?
  if d.checked then
    let p := w.post.told d.receipt res
    some (w.withPost { p with detached := p.detached.eraseIdx i })
  else none

end World

/-- A turn of the actor with what its surroundings answer, or a step of a delivery outside it. -/
inductive Action
  | ensure (req : EnsureReq) (script : List Answer)
  | cancel (txid : Txid) (subscriberId : SubscriberId) (script : List Answer)
  | bumpNow (txid : Txid) (script : List Answer)
  | confirmationObserved (txid : Txid) (blockHeight : ℤ) (blockHash : BlockHash) (numConfs : ℕ)
      (script : List Answer)
  | confirmationReorged (txid : Txid) (script : List Answer)
  | confirmationDone (txid : Txid) (script : List Answer)
  | blockObserved (height : ℤ) (script : List Answer)
  | fanoutConfirmed (script : List Answer)
  | resultObserved (i : ℕ) (script : List Answer)
  | deferredReturns (i : ℕ) (res : TellResult)
  | detachedReads (i : ℕ)
  | detachedSends (i : ℕ) (res : TellResult)

def World.step (feeBumpIntervalBlocks : ℤ) (w : World) : Action → Option World
  | .ensure req script => some ((w.withScript script).handleEnsure req)
  | .cancel txid id script => some ((w.withScript script).handle txid (handleCancel · id))
  | .bumpNow txid script => some ((w.withScript script).handle txid (handleBumpNow w.bestHeight))
  | .confirmationObserved txid height hash numConfs script =>
    some ((w.withScript script).handle txid (handleConfirmationObserved · height hash numConfs))
  | .confirmationReorged txid script =>
    some ((w.withScript script).handle txid handleConfirmationReorged)
  | .confirmationDone txid script => some ((w.withScript script).handle txid handleConfirmationDone)
  | .blockObserved height script =>
    some ((w.withScript script).handleBlockObserved feeBumpIntervalBlocks height)
  | .fanoutConfirmed script => some (w.withScript script).retryBroadcastingParents
  | .resultObserved i script => (w.withScript script).resultObserved i
  | .deferredReturns i res => w.deferredReturns i res
  | .detachedReads i => w.detachedReads i
  | .detachedSends i res => w.detachedSends i res

def machine (feeBumpIntervalBlocks : ℤ) : Machine World Action where
  init w := w = {}
  step := World.step feeBumpIntervalBlocks

end Wavelength.Txconfirm
