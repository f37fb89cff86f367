import Wavelength.Base.Machine
import Wavelength.Vtxo.Fsm

/-! # The actor around the state machine

`receive` with its preflight checks, the writes of the outbox and the row they go
to, and the state rebuilt from the row after a restart. Everything outside the actor
answers through `Answers`.
-/

namespace Wavelength.Vtxo

/-- The part of the stored row that the lifecycle writes. `spendReservation` says
whether the outpoint has a row in the spending-reservation index. -/
structure Row where
  status : Status := .live
  forfeitRoundId : RoundId := none
  forfeitTx : Option Tx := none
  spendReservation : Bool := false

structure Actor where
  desc : Descriptor
  state : State
  lastObservedHeight : Height := 0
  lastEpochHeight : Height := 0
  autoRefreshRetryHeight : Height := 0
  lastAutoRefreshTermsHeight : Option Height := none
  autoRefreshCohort : Option (Outpoint × ℕ) := none

structure Config where
  expiry : ExpiryConfig := {}
  /-- A `FetchOperatorKey` callback is set. -/
  fetchOperatorKey : Bool := true

/-- The messages of the actor. A start tip is `none` when the ask has failed. -/
inductive Msg
  | event (e : Event)
  | cohortRefreshRelease (leader : Outpoint) (generation : ℕ)
  | startTip (tip : Option Height)

/-- The surroundings of one `receive`: what a repair and the exit assessor say, the operator terms
before and after the fetch of the operator key, and whether the fetch, the output template and the
writes succeed. -/
structure Answers where
  repairedHeight : Option Height := none
  feasible : Option Bool := none
  termsBefore : Terms := {}
  fetchOk : Bool := true
  terms : Terms := {}
  templateOk : Bool := true
  writeOk : Bool := true
  rollbackOk : Bool := true

def autoRefreshRetryDelayBlocks : Height := 6

def autoRefreshTermsPollBlocks : ℤ := 6

def automaticRefreshHeight : Event → Option Height
  | .blockEpoch height | .criticalRefresh height | .cohortRefresh height _ _ _ => some height
  | _ => none

section Admit

variable (cfg : Config) (a : Actor)

def startTipEpoch (tip : Option Height) : Option Event :=
  match a.state, tip with
  | .live _, some height => if height ≤ a.lastEpochHeight then none else some (.blockEpoch height)
  | _, _ => none

/-- The event that a message stands for. A release of a cohort counts only for the
cohort that has reserved the VTXO. -/
def Msg.event? : Msg → Option Event
  | .event e => some e
  | .cohortRefreshRelease leader generation =>
    if a.autoRefreshCohort = some (leader, generation) then some (.forfeitReleased none) else none
  | .startTip tip => startTipEpoch a tip

def repairLegacyCreatedHeight (repaired : Option Height) : Actor :=
  if a.desc.batchExpiry ≤ 0 ∨ a.desc.createdHeight ≤ a.desc.batchExpiry then a
  else
    match repaired with
    | none => a
    | some height => { a with desc := { a.desc with createdHeight := height } }

def noteEpoch (ans : Answers) : Event → Actor
  | .blockEpoch height =>
    repairLegacyCreatedHeight { a with lastEpochHeight := max a.lastEpochHeight height }
      ans.repairedHeight
  | _ => a

/-- The retry cooldown; `true` when it defers the event. -/
def deferAutomaticRefresh (terms : Terms) (height : Height) : Actor × Bool :=
  if a.autoRefreshRetryHeight ≤ 0 then (a, false)
  else if a.autoRefreshRetryHeight ≤ height then ({ a with autoRefreshRetryHeight := 0 }, false)
  else
    match a.state with
    | .live _ =>
      match cfg.expiry.checkExpiry terms a.desc height with
      | .critical | .expired => ({ a with autoRefreshRetryHeight := 0 }, false)
      | .safe | .needsRefresh | .unknown => ({ a with state := .live height }, true)
    | .expired _ => ({ a with autoRefreshRetryHeight := 0 }, false)
    | _ => (a, false)

/-- Divert a critical block to cooperative refresh when the exit cannot be funded. -/
def preflightCriticalExit (ans : Answers) (event : Event) : Event :=
  match event, a.state with
  | .blockEpoch height, .live _ | .blockEpoch height, .pendingForfeit _ =>
    if a.desc.taprootAssetRoot then event
    else if cfg.expiry.checkExpiry ans.termsBefore a.desc height ≠ .critical then event
    else if ans.feasible = some false then .criticalRefresh height
    else event
  | _, _ => event

inductive Preflight
  | proceed
  | deferred
  | failed

/-- Refresh the operator terms before a live VTXO is reserved automatically. -/
def preflightLive (ans : Answers) (critical : Bool) (height : Height) : Actor × Preflight :=
  let throttled := a.lastAutoRefreshTermsHeight.any fun last =>
    ans.termsBefore.shouldWaitForFreeRefreshWindow a.desc height &&
      0 ≤ height.toInt - last.toInt && height.toInt - last.toInt < autoRefreshTermsPollBlocks
  if throttled then ({ a with state := .live height }, .deferred)
  else
    let a := { a with lastAutoRefreshTermsHeight := some height }
    if !ans.fetchOk then (a, .failed)
    else if critical then (a, .proceed)
    else if a.desc.blocksUntilExpiry height ≤
          cfg.expiry.calculateRefreshThreshold ans.terms a.desc ∧
        !ans.terms.shouldWaitForFreeRefreshWindow a.desc height then (a, .proceed)
    else ({ a with state := .live height }, .deferred)

def preflightAutoRefresh (ans : Answers) (event : Event) : Actor × Preflight :=
  if !cfg.fetchOperatorKey || a.desc.taprootAssetRoot then (a, .proceed)
  else
    match event, a.state with
    | .blockEpoch height, .live _ =>
      if cfg.expiry.checkExpiry ans.termsBefore a.desc height = .needsRefresh then
        preflightLive cfg a ans false height
      else (a, .proceed)
    | .criticalRefresh height, .live _ => preflightLive cfg a ans true height
    | .blockEpoch height, .expired _ | .criticalRefresh height, .expired _ =>
      if cfg.expiry.checkExpiry ans.termsBefore a.desc height = .expired ∧ ans.fetchOk = false then
        (a, .failed)
      else (a, .proceed)
    | _, _ => (a, .proceed)

/-- What is left of a message after the checks of `receive`: an event for the state
machine, or an answer without one. -/
inductive Admission
  | process (event : Event)
  | done (ok : Bool)

/-- The cooldown of an automatic event, with its height noted. -/
def coolDown (terms : Terms) (event : Event) : Actor × Bool :=
  match automaticRefreshHeight event with
  | none => (a, false)
  | some height =>
    deferAutomaticRefresh cfg { a with lastObservedHeight := max a.lastObservedHeight height }
      terms height

def admitEvent (ans : Answers) (event : Event) : Actor × Admission :=
  match coolDown cfg (noteEpoch a ans event) ans.termsBefore event with
  | (a, true) => (a, .done true)
  | (a, false) =>
    let event := preflightCriticalExit cfg a ans event
    match preflightAutoRefresh cfg a ans event with
    | (a, .proceed) => (a, .process event)
    | (a, .deferred) => (a, .done true)
    | (a, .failed) => (a, .done false)

def admitMsg (ans : Answers) (msg : Msg) : Actor × Admission :=
  match msg.event? a with
  | some event => admitEvent cfg a ans event
  | none => (a, .done true)

end Admit

def Row.update (row : Row) (status : Status) (round : RoundId) (forfeitTx : Option Tx)
    (releaseSpendReservation : Bool) : Row :=
  if status = .forfeiting ∧ forfeitTx.isSome = true then
    { row with status := status, forfeitRoundId := round, forfeitTx := forfeitTx }
  else if releaseSpendReservation then { row with status := status, spendReservation := false }
  else { row with status := status }

def OutMsg.write (row : Row) : OutMsg → Row
  | .statusUpdate status round forfeitTx release => row.update status round forfeitTx release
  | _ => row

def OutMsg.status? : OutMsg → Option Status
  | .statusUpdate status _ _ _ => some status
  | _ => none

def OutMsg.isForfeitRequest : OutMsg → Bool
  | .forfeitRequest _ _ _ => true
  | _ => false

def OutMsg.isCohortMember : OutMsg → Bool
  | .forfeitRequest _ _ cohortMember => cohortMember
  | _ => false

/-- What a `receive` leaves behind. `writes` are the statuses persisted, `outbox` the
messages sent. -/
structure Receipt where
  actor : Actor
  row : Row
  ok : Bool
  outbox : List OutMsg := []
  writes : List Status := []

section Receive

variable (a : Actor) (row : Row) (ans : Answers)

def isPendingForfeitState : State → Bool
  | .pendingForfeit _ => true
  | _ => false

def settle (event : Event) (next : State) : Actor :=
  let retry :=
    match event, a.state with
    | .forfeitReleased _, .pendingForfeit requested =>
      if requested ≤ 0 then a.autoRefreshRetryHeight
      else max requested a.lastObservedHeight + autoRefreshRetryDelayBlocks
    | _, _ => a.autoRefreshRetryHeight
  let cohort :=
    match event, a.state, next with
    | .cohortRefresh _ _ leader generation, .live _, .pendingForfeit _ => some (leader, generation)
    | .forfeitReleased _, _, _ => none
    | _, _, _ => a.autoRefreshCohort
  { a with state := next, autoRefreshRetryHeight := retry, autoRefreshCohort := cohort }

/-- The writes come first; when one fails nothing else happens. A refresh request whose template
fails takes its reservation back. Then comes the move to the next state. -/
def processOutbox (event : Event) (t : Transition) : Receipt :=
  let a := { a with state := t.current }
  let writes := t.outbox.filterMap OutMsg.status?
  if writes ≠ [] ∧ ans.writeOk = false then { actor := a, row := row, ok := false }
  else
    let row := t.outbox.foldl OutMsg.write row
    if t.outbox.any OutMsg.isForfeitRequest && !ans.templateOk then
      if (t.outbox.any OutMsg.isCohortMember && isPendingForfeitState t.current) ||
          !ans.rollbackOk then
        { actor := a, row := row, ok := false, writes := writes }
      else
        { actor := a, row := row.update (releaseStatus t.current) none none false, ok := false,
          writes := writes ++ [releaseStatus t.current] }
    else
      { actor := settle a event t.next, row := row, ok := true, outbox := t.outbox,
        writes := writes }

def receive (cfg : Config) (msg : Msg) : Receipt :=
  match admitMsg cfg a ans msg with
  | (a, .done ok) => { actor := a, row := row, ok := ok }
  | (a, .process event) =>
    match processEvent cfg.expiry ans.terms a.desc a.state event with
    | .error _ => { actor := a, row := row, ok := false }
    | .ok t => processOutbox a row ans event t

end Receive

/-- The state rebuilt from the row; `read` says whether the stored forfeit transaction
can be read back. -/
def statusToState (d : Descriptor) (row : Row) (read : Bool) : State :=
  match row.status with
  | .live => .live d.createdHeight
  | .spending => .spending d.createdHeight
  | .expired => .expired 0
  | .pendingForfeit => .pendingForfeit 0
  | .forfeiting => .forfeiting 0 row.forfeitRoundId 0 (if read then row.forfeitTx else none)
  | .forfeited => .forfeited row.forfeitRoundId
  | .spent => .spent
  | .unilateralExit => .unilateralExit .recoveredFromStorage 0
  | .failed => .failed

def newActor (d : Descriptor) (row : Row) (read : Bool) : Actor where
  desc := d
  state := statusToState d row read

end Wavelength.Vtxo
