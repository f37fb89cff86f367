import Wavelength.Base.Machine
import Wavelength.Vtxo.Manager

/-! # Runs of the manager and the holders of spend reservations

The manager's turns, the turns of its actors, the watches of detached reserves, the
checkpoints of the sessions and restarts, as a machine. For the statements the system
records who holds a VTXO, every reservation issued, and what the last step has handed
out.
-/

namespace Wavelength.Vtxo

structure Holder where
  epoch : ℕ
  lifetime : ℕ
  deriving DecidableEq

structure Holders where
  m : Manager := {}
  /-- Failure reports on their way to the manager. -/
  reports : List (Outpoint × ℕ) := []
  lifetime : ℕ := 0
  held : Outpoint → Option Holder := fun _ => none
  issued : List (Outpoint × Holder) := []
  handed : List Outpoint := []

/-- The steps of a run. `order` is the order in which the store lists its rows; `ans`
are the surroundings of each actor's turn. -/
inductive Act
  | spend (order : List Outpoint) (readOk : Bool) (spawnOk : Outpoint → Bool) (p : ReserveParams)
  | selectForfeit (order : List Outpoint) (readOk : Bool) (spawnOk : Outpoint → Bool)
    (target : Amount) (ans rollback : Outpoint → Answers)
  | reserveForfeit (ops : List Outpoint) (ans rollback : Outpoint → Answers)
  | releaseSpend (ops : List Outpoint) (epochs : Outpoint → ℕ) (ans : Outpoint → Answers)
  | completeSpend (ops : List Outpoint) (readOk : Bool) (ans : Outpoint → Answers)
  | releaseForfeit (ops : List Outpoint) (round : RoundId) (ans : Outpoint → Answers)
  | reserveFailed (op : Outpoint) (epoch : ℕ)
  /-- The actor of a spent VTXO reports its end. -/
  | terminated (op : Outpoint)
  /-- An actor handles the first event of its inbox; `late` if its reply misses the
  deadline of the watch, which then reads the row. -/
  | turn (op : Outpoint) (ans : Answers) (late readOk : Bool)
  /-- The watch of a reserve gives up before the actor's turn. -/
  | timeout (op : Outpoint) (epoch : ℕ) (readOk : Bool)
  /-- A session writes its reservation row. -/
  | checkpoint (op : Outpoint)
  /-- A new process; `lost` are the actors that cannot be recovered. -/
  | restart (lost : List Outpoint) (listsOk pendingOk : Bool)

section Reads

variable (m : Manager)

def Manager.lookup (readOk : Bool) (op : Outpoint) : Lookup :=
  if !readOk then .failed
  else
    match m.store op with
    | some s => .found s.desc s.row
    | none => .notFound

/-- The projection of a live row that holds no asset. -/
def Manager.candidate (op : Outpoint) : Option Candidate :=
  (m.store op).bind fun s =>
    if s.row.status = .live ∧ s.desc.taprootAssetRoot = false then some ⟨op, s.desc.amount⟩
    else none

theorem candidate_outpoint {m : Manager} {op : Outpoint} {c : Candidate}
    (h : m.candidate op = some c) : c.outpoint = op ∧ (m.row op).status = .live := by
  unfold Manager.candidate at h
  obtain ⟨s, hs, h⟩ := Option.bind_eq_some_iff.1 h
  split at h
  · next hlive =>
    cases h
    exact ⟨rfl, by simp [Manager.row, hs, hlive.1]⟩
  · cases h

theorem candidates_nodup (ops : List Outpoint) (h : ops.Nodup) :
    ((ops.filterMap m.candidate).map Candidate.outpoint).Nodup := by
  refine h.sublist ?_
  clear h
  induction ops with
  | nil => exact List.Sublist.refl _
  | cons op ops ih =>
    cases hc : m.candidate op with
    | none =>
      rw [List.filterMap_cons_none hc]
      exact ih.cons op
    | some c =>
      rw [List.filterMap_cons_some hc, List.map_cons, (candidate_outpoint hc).1]
      exact ih.cons_cons op

/-- What the store answers in a turn of the manager. -/
def Manager.reads (order : List Outpoint) (readOk : Bool) : Reads where
  candidates :=
    if readOk then
      some ⟨(dedupOutpoints order []).filterMap m.candidate,
        candidates_nodup m _ (dedupOutpoints_spec order []).1⟩
    else none
  nonTerminal :=
    if readOk then some (order.filterMap fun op => (m.store op).map fun s => (s.desc, s.row.status))
    else none
  lookup := m.lookup readOk

end Reads

/-- The actors that a request asks have worked off their inboxes. -/
def Manager.Idle (m : Manager) (ops : List Outpoint) : Prop :=
  ∀ op ∈ ops, ∀ child ∈ m.actors op, child.inbox = []

instance (m : Manager) (ops : List Outpoint) : Decidable (m.Idle ops) := by
  unfold Manager.Idle
  infer_instance

def answer (ans : Outpoint → Answers) (op : Outpoint) : Reply := { ans := ans op }

/-- The statuses whose actors are recovered at a start. -/
def Status.recoverable : Status → Bool
  | .live | .pendingForfeit | .forfeiting | .spending | .expired => true
  | .forfeited | .spent | .unilateralExit | .failed => false

/-- The start of a process for one row: the recovered actor with what the sweeps send to it, and its
mark. `listsOk` and `pendingOk` say whether the two sweeps can read their lists. -/
def recover (listsOk pendingOk : Bool) (s : Stored) : Child × Option ℕ :=
  let actor := newActor s.desc s.row true
  let forfeit : List Item :=
    if pendingOk ∧ s.row.status = .pendingForfeit then [{ event := .forfeitReleased none }] else []
  -- an unreadable list aborts the sweep
  if !listsOk then ({ actor := actor, inbox := forfeit }, none)
  else if s.row.status = .spending then
    if s.row.spendReservation then ({ actor := actor }, none)
    -- no reservation row: the session died before its checkpoint
    else ({ actor := actor, inbox := [{ event := .spendReleased }] }, none)
  else if s.row.spendReservation then
    ({ actor := actor, inbox := { event := .spendReserve } :: forfeit }, some 0)
  else ({ actor := actor, inbox := forfeit }, none)

section Step

variable (cfg : Config) (s : Holders)

def Holders.finish (m : Manager) (ops : List Outpoint) : Holders :=
  { s with m := m, handed := [], held := fun op => if op ∈ ops then none else s.held op }

def holderOf (vtxos : List SelectedVTXO) (lifetime : ℕ) (op : Outpoint) : Option Holder :=
  (vtxos.find? (·.outpoint = op)).map fun v => ⟨v.reserveEpoch, lifetime⟩

def stepSpend (reads : Reads) (spawnOk : Outpoint → Bool) (p : ReserveParams) : Holders :=
  match handleSelectAndReserveSpend reads spawnOk s.m p with
  | (m, .error _) => { s with m := m, handed := [] }
  | (m, .ok vtxos) =>
    { s with
      m := m
      held := fun op => (holderOf vtxos s.lifetime op).or (s.held op)
      issued := s.issued ++ vtxos.map fun v => (v.outpoint, ⟨v.reserveEpoch, s.lifetime⟩)
      handed := vtxos.map SelectedVTXO.outpoint }

def stepSelectForfeit (reads : Reads) (spawnOk : Outpoint → Bool) (target : Amount)
    (ans rollback : Outpoint → Answers) : Holders :=
  match handleSelectAndReserveForfeit cfg reads spawnOk s.m target (answer ans)
      (answer rollback) with
  | (m, .error _) => { s with m := m, handed := [] }
  | (m, .ok vtxos) => { s with m := m, handed := vtxos.map SelectedVTXO.outpoint }

def stepReserveForfeit (ops : List Outpoint) (ans rollback : Outpoint → Answers) : Holders :=
  match handleReserveForfeit cfg s.m ops (answer ans) (answer rollback) with
  | (m, .error _) => { s with m := m, handed := [] }
  | (m, .ok ()) => { s with m := m, handed := ops }

def stepReserveFailed (op : Outpoint) (epoch : ℕ) : Holders :=
  match s.m.dropReservedEpoch op epoch with
  | (m, true) => { s.finish m [op] with reports := s.reports.erase (op, epoch) }
  | (m, false) => { s with m := m, handed := [], reports := s.reports.erase (op, epoch) }

/-- A watch that reports is on its way to the manager. -/
def report (m : Manager) (op : Outpoint) (watch : Option ℕ) (reply : Option Bool) (readOk : Bool) :
    List (Outpoint × ℕ) :=
  match watch with
  | none => []
  | some epoch =>
    if detachedReserveFails reply (m.lookup readOk op) then [(op, epoch)] else []

def stepTurn (op : Outpoint) (child : Child) (item : Item) (rest : List Item) (ans : Answers)
    (late readOk : Bool) : Holders :=
  let r := receive child.actor (s.m.row op) ans cfg (.event item.event)
  let m := s.m.put op { actor := r.actor, inbox := rest } r.row
  { s with
    m := m
    handed := []
    reports := s.reports ++ report m op item.watch (if late then none else some r.ok) readOk }

def unwatch (epoch : ℕ) (item : Item) : Item :=
  if item.watch = some epoch then { item with watch := none } else item

def stepTimeout (op : Outpoint) (child : Child) (epoch : ℕ) (readOk : Bool) : Holders :=
  { s with
    m := { s.m with
      actors := Function.update s.m.actors op
        (some { child with inbox := child.inbox.map (unwatch epoch) }) }
    handed := []
    reports := s.reports ++ report s.m op (some epoch) none readOk }

def stepCheckpoint (op : Outpoint) : Holders :=
  { s with
    m := { s.m with
      store := Function.update s.m.store op
        ((s.m.store op).map fun r => { r with row := { r.row with spendReservation := true } }) }
    handed := [] }

/-- Marks, inboxes, reports and the epoch counter are lost. A reservation without a row
ends here. -/
def stepRestart (lost : List Outpoint) (listsOk pendingOk : Bool) : Holders :=
  let recovered := fun op => (s.m.store op).bind fun r =>
    if r.row.status.recoverable ∧ op ∉ lost then some (recover listsOk pendingOk r) else none
  { s with
    m := {
      actors := fun op => (recovered op).map Prod.fst
      store := s.m.store
      reserved := fun op => (recovered op).bind Prod.snd }
    reports := []
    lifetime := s.lifetime + 1
    held := fun op => if (s.m.row op).spendReservation then s.held op else none
    handed := [] }

def Holders.step : Act → Option Holders
  | .spend order readOk spawnOk p => some (stepSpend s (s.m.reads order readOk) spawnOk p)
  | .selectForfeit order readOk spawnOk target ans rollback =>
    if s.m.Idle order then
      some (stepSelectForfeit cfg s (s.m.reads order readOk) spawnOk target ans rollback)
    else none
  | .reserveForfeit ops ans rollback =>
    if s.m.Idle ops then some (stepReserveForfeit cfg s ops ans rollback) else none
  | .releaseSpend ops epochs ans =>
    if s.m.Idle ops then
      let r := handleReleaseSpend cfg s.m ops epochs (answer ans)
      some (s.finish r.1 r.2.1)
    else none
  | .completeSpend ops readOk ans =>
    if s.m.Idle ops then
      let r := handleCompleteSpend cfg s.m (s.m.reads ops readOk) ops (answer ans)
      some (s.finish r.1 r.2.1)
    else none
  | .releaseForfeit ops round ans =>
    if s.m.Idle ops then
      some { s with m := (handleReleaseForfeit cfg s.m ops round (answer ans)).1, handed := [] }
    else none
  | .reserveFailed op epoch =>
    if (op, epoch) ∈ s.reports then some (stepReserveFailed s op epoch) else none
  | .terminated op =>
    if (s.m.row op).status = .spent then some (s.finish (handleVTXOTerminated s.m op) [op]) else none
  | .turn op ans late readOk =>
    match s.m.actors op with
    | some child =>
      match child.inbox with
      | item :: rest => some (stepTurn cfg s op child item rest ans late readOk)
      | [] => none
    | none => none
  | .timeout op epoch readOk =>
    match s.m.actors op with
    | some child =>
      if child.inbox.any (·.watch = some epoch) then some (stepTimeout s op child epoch readOk)
      else none
    | none => none
  | .checkpoint op => some (stepCheckpoint s op)
  | .restart lost listsOk pendingOk => some (stepRestart s lost listsOk pendingOk)

end Step

/-- A run begins with a store and no process. -/
def holders (cfg : Config) : Machine Holders Act where
  init s := ∃ store, s = { m := { store := store } }
  step := Holders.step cfg

end Wavelength.Vtxo
