import Mathlib.Logic.Function.Basic
import Wavelength.Coinselect.Selector
import Wavelength.Vtxo.Actor

/-! # The VTXO manager

The actors by outpoint, the reservation marks with their epochs, coin selection and
the handlers that reserve, release and complete. The manager asks an actor once the
actor has worked off its inbox; only a detached reserve is left in the inbox.
-/

namespace Wavelength.Vtxo

open List

structure Candidate where
  outpoint : Outpoint
  amount : Amount

/-- The rows of one listing are those of different outpoints. -/
structure Listing where
  rows : List Candidate
  nodup : (rows.map Candidate.outpoint).Nodup

inductive Lookup
  | found (desc : Descriptor) (row : Row)
  | notFound
  | failed

/-- What the store answers during a request: the live candidates, the non-terminal
VTXOs and single rows. `none` is a failed read. -/
structure Reads where
  candidates : Option Listing
  nonTerminal : Option (List (Descriptor × Status)) := some []
  lookup : Outpoint → Lookup := fun _ => .notFound

structure ReserveParams where
  targetAmount : Amount
  minChangeAmount : Amount := 0
  exactOutpoints : List Outpoint := []

structure SelectedVTXO where
  outpoint : Outpoint
  amount : Amount
  reserveEpoch : ℕ := 0

inductive Denial
  | targetNotPositive
  | listLive
  | duplicateExact (op : Outpoint)
  | exactReserved (op : Outpoint)
  | exactUnknown (op : Outpoint)
  | exactLookup (op : Outpoint)
  | assetRequiresTransition
  | exactLocked (op : Outpoint) (status : Status)
  | exactUnspendable (op : Outpoint) (status : Status)
  | exactShort (total target : Amount)
  | changeBelowMin (change minChange : Amount)
  | classifyLiquidity
  | liquidityLocked (need spendable locked : Amount)
  | insufficientFunds (need spendable : Amount)
  | noActor (op : Outpoint)
  | spendReserved (op : Outpoint)
  | reserve (op : Outpoint)
  | release (op : Outpoint)
  | complete (op : Outpoint)
  deriving DecidableEq

/-- An event in the inbox of an actor. `watch` is the epoch of a detached reserve whose
outcome is watched. -/
structure Item where
  event : Event
  watch : Option ℕ := none

structure Child where
  actor : Actor
  inbox : List Item := []

structure Stored where
  desc : Descriptor
  row : Row

/-- The manager, its actors and the rows that these write. -/
structure Manager where
  actors : Outpoint → Option Child := fun _ => none
  store : Outpoint → Option Stored := fun _ => none
  reserved : Outpoint → Option ℕ := fun _ => none
  reserveEpoch : ℕ := 0

/-- The outcome of an ask: whether the reply comes in time, and the surroundings of the
turn that it asks for. -/
structure Reply where
  answered : Bool := true
  ans : Answers := {}

namespace Manager

variable (m : Manager) (op : Outpoint)

def markReserved : Manager × ℕ :=
  let epoch := m.reserveEpoch + 1
  ({ m with reserveEpoch := epoch, reserved := Function.update m.reserved op (some epoch) }, epoch)

def markReservedUnknown : Manager :=
  { m with reserved := Function.update m.reserved op (some 0) }

def dropReserved : Manager :=
  { m with reserved := Function.update m.reserved op none }

def dropReservedEpoch (epoch : ℕ) : Manager × Bool :=
  if m.reserved op = some epoch then (m.dropReserved op, true) else (m, false)

def isReserved : Bool := (m.reserved op).isSome

def row : Row := ((m.store op).map Stored.row).getD {}

def put (child : Child) (row : Row) : Manager :=
  { m with
    actors := Function.update m.actors op (some child)
    store := Function.update m.store op ((m.store op).map fun s => { s with row := row }) }

def enqueue (item : Item) : Manager :=
  { m with
    actors := Function.update m.actors op
      ((m.actors op).map fun c => { c with inbox := c.inbox ++ [item] }) }

/-- The actor of an outpoint, spawned if it is not resident. -/
def resident (spawn : Outpoint → Option Child) : Option Manager :=
  match m.actors op with
  | some _ => some m
  | none =>
    (spawn op).map fun child => { m with actors := Function.update m.actors op (some child) }

end Manager

variable (cfg : Config)

/-- Ask an actor; `false` is an error. The event of an ask that is not answered in time
stays in the inbox. -/
def ask (m : Manager) (op : Outpoint) (event : Event) (reply : Reply) : Manager × Bool :=
  match m.actors op with
  | none => (m, false)
  | some child =>
    if !reply.answered then (m.enqueue op { event := event }, false)
    else
      let r := receive child.actor (m.row op) reply.ans cfg (.event event)
      (m.put op { child with actor := r.actor } r.row, r.ok)

section Select

variable (m : Manager) (reads : Reads)

def exactSpendUnavailableError (op : Outpoint) : Denial :=
  match reads.lookup op with
  | .notFound => .exactUnknown op
  | .failed => .exactLookup op
  | .found desc row =>
    if desc.taprootAssetRoot then .assetRequiresTransition
    else
      match row.status with
      | .live | .pendingForfeit | .forfeiting | .spending => .exactLocked op row.status
      | .forfeited | .spent | .unilateralExit | .failed | .expired =>
        .exactUnspendable op row.status

def insufficientLiquidityError (liveCandidates : List Candidate) (target : Amount) : Denial :=
  let liveTotal := (liveCandidates.map Candidate.amount).sum
  match reads.nonTerminal with
  | none => .classifyLiquidity
  | some nonTerminal =>
    let locked := nonTerminal.filter fun (d, status) => !d.taprootAssetRoot && status ≠ .live
    let lockedTotal := (locked.map fun (d, _) => d.amount).sum
    if 0 < lockedTotal ∧ target ≤ liveTotal + lockedTotal then
      .liquidityLocked target liveTotal lockedTotal
    else .insufficientFunds target liveTotal

def resolveExact (candidates : List Candidate) :
    List Outpoint → List Outpoint → Except Denial (List Candidate)
  | [], _ => .ok []
  | op :: ops, seen =>
    if op ∈ seen then .error (.duplicateExact op)
    else if m.isReserved op then .error (.exactReserved op)
    else
      match candidates.find? (·.outpoint = op) with
      | none => .error (exactSpendUnavailableError reads op)
      | some candidate => (resolveExact candidates ops (op :: seen)).map (candidate :: ·)

def selectExactReservationCandidates (candidates : List Candidate) (p : ReserveParams) :
    Except Denial (List Candidate) :=
  match resolveExact m reads candidates p.exactOutpoints [] with
  | .error e => .error e
  | .ok selected =>
    let total := (selected.map Candidate.amount).sum
    if total < p.targetAmount then .error (.exactShort total p.targetAmount)
    else
      let change := total - p.targetAmount
      if 0 < change ∧ change < p.minChangeAmount then
        .error (.changeBelowMin change p.minChangeAmount)
      else .ok selected

def selectReservationCandidates (candidates : List Candidate) (p : ReserveParams) :
    Except Denial (List Candidate) :=
  if p.exactOutpoints ≠ [] then selectExactReservationCandidates m reads candidates p
  else
    match Coinselect.largestFirst Candidate.amount
        { target := p.targetAmount, minChange := p.minChangeAmount } candidates with
    | .ok res => .ok res.selected
    | .error (.changeBelowMin, total) =>
      .error (.changeBelowMin (total - p.targetAmount) p.minChangeAmount)
    | .error (.selectionShortfall, _) | .error (.noCandidates, _) =>
      .error (insufficientLiquidityError reads candidates p.targetAmount)
    -- the target has been checked before
    | .error (.invalidTarget, _) => .error .targetNotPositive

/-- The selection of `selectAndReserveVTXOs`: live rows without a mark. -/
def selectVTXOs (p : ReserveParams) : Except Denial (List Candidate) :=
  if p.targetAmount ≤ 0 then .error .targetNotPositive
  else
    match reads.candidates with
    | none => .error .listLive
    | some listing =>
      selectReservationCandidates m reads (listing.rows.filter fun c => !m.isReserved c.outpoint) p

end Select

section Reserve

variable (reads : Reads) (spawnOk : Outpoint → Bool)

/-- Only a live row brings its actor back. -/
def respawnActorFromStore (op : Outpoint) : Option Child :=
  match reads.lookup op with
  | .found desc row =>
    if row.status = .live ∧ spawnOk op = true then some { actor := newActor desc row true }
    else none
  | .notFound | .failed => none

/-- The release of each outpoint, behind the reserve in its inbox. -/
def rollbackSpend (m : Manager) (ops : List Outpoint) : Manager :=
  ops.foldl (fun m op => (m.dropReserved op).enqueue op { event := .spendReleased }) m

def rollbackForfeit (m : Manager) (rollback : Outpoint → Reply) (ops : List Outpoint) : Manager :=
  ops.foldl (fun m op => (ask cfg m op (.forfeitReleased none) (rollback op)).1) m

/-- The loop over the selected rows with `detached` set. -/
def reserveDetached : List Candidate → List SelectedVTXO → Manager →
    Manager × Except Denial (List SelectedVTXO)
  | [], reserved, m => (m, .ok reserved)
  | c :: selected, reserved, m =>
    match m.resident c.outpoint (respawnActorFromStore reads spawnOk) with
    | none => (rollbackSpend m (reserved.map SelectedVTXO.outpoint), .error (.noActor c.outpoint))
    | some m =>
      let (m, epoch) := m.markReserved c.outpoint
      let m := m.enqueue c.outpoint { event := .spendReserve, watch := some epoch }
      reserveDetached selected (reserved ++ [⟨c.outpoint, c.amount, epoch⟩]) m

def handleSelectAndReserveSpend (m : Manager) (p : ReserveParams) :
    Manager × Except Denial (List SelectedVTXO) :=
  match selectVTXOs m reads p with
  | .error e => (m, .error e)
  | .ok selected => reserveDetached reads spawnOk selected [] m

/-- Ask for a pending forfeit of each outpoint in turn and take everything back when one
of them refuses. -/
def reserveForfeits (spawn : Outpoint → Option Child) (replies rollback : Outpoint → Reply) :
    List Outpoint → List Outpoint → Manager → Manager × Except Denial Unit
  | [], _, m => (m, .ok ())
  | op :: ops, reserved, m =>
    match m.resident op spawn with
    | none => (rollbackForfeit cfg m rollback reserved, .error (.noActor op))
    | some m =>
      match ask cfg m op .pendingForfeit (replies op) with
      | (m, true) => reserveForfeits spawn replies rollback ops (reserved ++ [op]) m
      | (m, false) => (rollbackForfeit cfg m rollback reserved, .error (.reserve op))

def handleSelectAndReserveForfeit (m : Manager) (targetAmount : Amount)
    (replies rollback : Outpoint → Reply) : Manager × Except Denial (List SelectedVTXO) :=
  match selectVTXOs m reads { targetAmount := targetAmount } with
  | .error e => (m, .error e)
  | .ok selected =>
    let r := reserveForfeits cfg (respawnActorFromStore reads spawnOk) replies rollback
      (selected.map Candidate.outpoint) [] m
    (r.1, r.2.map fun _ => selected.map fun c => ⟨c.outpoint, c.amount, 0⟩)

def dedupOutpoints : List Outpoint → List Outpoint → List Outpoint
  | [], _ => []
  | op :: ops, seen =>
    if op ∈ seen then dedupOutpoints ops seen else op :: dedupOutpoints ops (op :: seen)

/-- The check of `handleReserveForfeit` before anything is reserved. -/
def admissible (m : Manager) : List Outpoint → Except Denial Unit
  | [] => .ok ()
  | op :: ops =>
    if (m.actors op).isNone then .error (.noActor op)
    else if m.isReserved op then .error (.spendReserved op)
    else admissible m ops

def handleReserveForfeit (m : Manager) (ops : List Outpoint) (replies rollback : Outpoint → Reply) :
    Manager × Except Denial Unit :=
  let ops := dedupOutpoints ops []
  match admissible m ops with
  | .error e => (m, .error e)
  | .ok () => reserveForfeits cfg (fun _ => none) replies rollback ops [] m

/-- Whether the watch of a detached reserve reports a failure. `reply` is `none` after a deadline or
a cancellation; `lookup` is the row read then. -/
def detachedReserveFails (reply : Option Bool) (lookup : Lookup) : Bool :=
  match reply with
  | some ok => !ok
  | none =>
    match lookup with
    | .found _ row => row.status = .live
    | .notFound | .failed => true

end Reserve

section Release

/-- A release that names another epoch than the live mark. A zero on either side is an
unknown epoch and not refused. -/
def superseded (m : Manager) (op : Outpoint) (epoch : ℕ) : Bool :=
  epoch ≠ 0 && (m.reserved op).any fun cur => cur ≠ 0 && cur ≠ epoch

/-- The loop of `handleReleaseSpend`, with the outpoints released and the errors. -/
def releaseSpends (epochs : Outpoint → ℕ) (replies : Outpoint → Reply) :
    List Outpoint → Manager → Manager × List Outpoint × List Denial
  | [], m => (m, [], [])
  | op :: ops, m =>
    if superseded m op (epochs op) then releaseSpends epochs replies ops m
    else
      match ask cfg m op .spendReleased (replies op) with
      | (m, true) =>
        let r := releaseSpends epochs replies ops (m.dropReserved op)
        (r.1, op :: r.2.1, r.2.2)
      | (m, false) =>
        let r := releaseSpends epochs replies ops m
        (r.1, r.2.1, .release op :: r.2.2)

def handleReleaseSpend (m : Manager) (ops : List Outpoint) (epochs : Outpoint → ℕ)
    (replies : Outpoint → Reply) : Manager × List Outpoint × List Denial :=
  releaseSpends cfg epochs replies (dedupOutpoints ops []) m

/-- One outpoint of `handleCompleteSpend`. An actor that is gone must have left a spent
row. -/
def completeSpend (m : Manager) (op : Outpoint) (lookup : Lookup) (reply : Reply) :
    Manager × Bool :=
  match m.actors op with
  | none =>
    match lookup with
    | .found _ row => if row.status = .spent then (m.dropReserved op, true) else (m, false)
    | .notFound | .failed => (m, false)
  | some _ =>
    match ask cfg m op .spendCompleted reply with
    | (m, true) => (m.dropReserved op, true)
    | (m, false) => (m, false)

/-- The loop of `handleCompleteSpend`, with the outpoints completed before the first
error. -/
def completeSpends (reads : Reads) (replies : Outpoint → Reply) :
    List Outpoint → Manager → Manager × List Outpoint × Except Denial Unit
  | [], m => (m, [], .ok ())
  | op :: ops, m =>
    match completeSpend cfg m op (reads.lookup op) (replies op) with
    | (m, true) =>
      let r := completeSpends reads replies ops m
      (r.1, op :: r.2.1, r.2.2)
    | (m, false) => (m, [], .error (.complete op))

def handleCompleteSpend (m : Manager) (reads : Reads) (ops : List Outpoint)
    (replies : Outpoint → Reply) : Manager × List Outpoint × Except Denial Unit :=
  completeSpends cfg reads replies (dedupOutpoints ops []) m

def releaseForfeits (round : RoundId) (replies : Outpoint → Reply) :
    List Outpoint → Manager → Manager × List Denial
  | [], m => (m, [])
  | op :: ops, m =>
    match ask cfg m op (.forfeitReleased round) (replies op) with
    | (m, true) => releaseForfeits round replies ops m
    | (m, false) =>
      let r := releaseForfeits round replies ops m
      (r.1, .release op :: r.2)

def handleReleaseForfeit (m : Manager) (ops : List Outpoint) (round : RoundId)
    (replies : Outpoint → Reply) : Manager × List Denial :=
  releaseForfeits cfg round replies (dedupOutpoints ops []) m

def handleVTXOTerminated (m : Manager) (op : Outpoint) : Manager :=
  { m.dropReserved op with actors := Function.update m.actors op none }

end Release

section Selected

theorem resolveExact_ok (h : resolveExact m reads candidates ops seen = .ok selected) :
    selected.map Candidate.outpoint = ops ∧ ops.Nodup ∧ (∀ op ∈ ops, op ∉ seen) ∧
      ∀ c ∈ selected, c ∈ candidates := by
  induction ops generalizing seen selected with
  | nil =>
    cases h
    simp
  | cons op ops ih =>
    simp only [resolveExact] at h
    split at h
    · cases h
    next hseen =>
    split at h
    · cases h
    split at h
    · cases h
    next candidate hfind =>
    cases hrest : resolveExact m reads candidates ops (op :: seen) with
    | error e =>
      rw [hrest] at h
      cases h
    | ok rest =>
      rw [hrest] at h
      cases h
      obtain ⟨hmap, hnodup, hfresh, hmem⟩ := ih hrest
      have hop : candidate.outpoint = op := by simpa using find?_some hfind
      refine ⟨by rw [map_cons, hmap, hop], nodup_cons.2 ⟨fun hin => ?_, hnodup⟩, ?_, ?_⟩
      · exact hfresh op hin mem_cons_self
      · rintro op' (_ | ⟨_, hin⟩)
        · exact hseen
        · exact fun hs => hfresh op' hin (mem_cons_of_mem _ hs)
      · rintro c (_ | ⟨_, hin⟩)
        · exact mem_of_find?_eq_some hfind
        · exact hmem c hin

theorem selectReservationCandidates_ok (hnodup : (candidates.map Candidate.outpoint).Nodup)
    (h : selectReservationCandidates m reads candidates p = .ok selected) :
    (selected.map Candidate.outpoint).Nodup ∧ ∀ c ∈ selected, c ∈ candidates := by
  unfold selectReservationCandidates selectExactReservationCandidates at h
  split at h
  · split at h
    · cases h
    next resolved hexact =>
    obtain ⟨hmap, hops, -, hmem⟩ := resolveExact_ok hexact
    simp only at h
    split at h
    · cases h
    split at h
    · cases h
    · cases h
      exact ⟨hmap ▸ hops, hmem⟩
  · split at h
    · next res hres =>
      cases h
      obtain ⟨⟨taken, hperm, hsub⟩, -, -⟩ := Coinselect.largestFirst_ok rfl hres
      refine ⟨?_, fun c hc => hsub.subset (hperm.mem_iff.2 hc)⟩
      exact (hperm.map Candidate.outpoint).nodup_iff.1 (hnodup.sublist (hsub.map _))
    all_goals cases h

/-- Selected rows are live rows without a mark, each of them once. -/
theorem selectVTXOs_ok (h : selectVTXOs m reads p = .ok selected) :
    ∃ listing, reads.candidates = some listing ∧ (selected.map Candidate.outpoint).Nodup ∧
      ∀ c ∈ selected, c ∈ listing.rows ∧ m.isReserved c.outpoint = false := by
  unfold selectVTXOs at h
  split at h
  · cases h
  split at h
  · cases h
  next listing hlisting =>
  obtain ⟨hnodup, hmem⟩ := selectReservationCandidates_ok
    (listing.nodup.sublist (filter_sublist.map _)) h
  refine ⟨listing, hlisting, hnodup, fun c hc => ?_⟩
  simpa using mem_filter.1 (hmem c hc)

theorem dedupOutpoints_spec (ops seen : List Outpoint) :
    (dedupOutpoints ops seen).Nodup ∧
      ∀ op, op ∈ dedupOutpoints ops seen ↔ op ∈ ops ∧ op ∉ seen := by
  induction ops generalizing seen with
  | nil => simp [dedupOutpoints]
  | cons op ops ih =>
    simp only [dedupOutpoints]
    split
    · next hseen =>
      refine ⟨(ih seen).1, fun op' => ?_⟩
      rw [(ih seen).2]
      grind
    next hseen =>
    obtain ⟨hnodup, hmem⟩ := ih (op :: seen)
    refine ⟨nodup_cons.2 ⟨fun h => ?_, hnodup⟩, fun op' => ?_⟩
    · exact ((hmem op).1 h).2 mem_cons_self
    · rw [mem_cons, hmem]
      grind

theorem mem_dedupOutpoints : op ∈ dedupOutpoints ops [] ↔ op ∈ ops := by
  simp [(dedupOutpoints_spec ops []).2]

end Selected

end Wavelength.Vtxo
