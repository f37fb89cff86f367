import Mathlib.Data.List.Sort
import Wavelength.Base.Table
import Wavelength.Base.Wire
import Wavelength.Vtxo.Expiry

/-! # The watch plan of a VTXO

A VTXO received out of round rests on transaction trees. Its watch plan has the input of every
transaction of their paths and the output of every leaf, each with the hash of the sweep leaf that
the operator may take to spend it.
-/

namespace Wavelength.Fraud

open List

/-- A transaction of a tree: the hash of the transaction that it becomes, the outpoint it spends,
the scripts of its outputs and the transactions that spend them. -/
inductive Node where
  | mk (txid : ℕ) (input : OutPoint) (outputs : List Script) (children : List (ℕ × Node))

structure Tree where
  root : Option Node
  batchOutput : Option Script
  /-- Empty for a connector tree. -/
  sweepTapscriptRoot : List UInt8

structure Descriptor where
  outpoint : OutPoint
  status : Vtxo.Status
  chainDepth : ℤ
  createdHeight : ℤ
  ancestry : List (Option Tree)

/-- Why no watch is armed. The first three are `ErrWatchUnavailable`, the next three
`ErrWatchInvalid`. -/
inductive WatchError where
  | missingAncestry
  | missingTreePath (i : ℕ)
  | missingBatchOutput (i : ℕ)
  | leafOutput
  | childOutputIndexOutOfRange (i : ℕ)
  | childInputMismatch (input expected : OutPoint)
  | register (outpoint : OutPoint)
  | unregister (outpoint : OutPoint)

structure WatchPoint where
  outpoint : OutPoint
  pkScript : Script
  heightHint : ℤ
  /-- Empty where no spend can be the operator's. -/
  sweepLeafHash : List UInt8

abbrev WatchMap := Table WatchPoint WatchPoint.outpoint

structure WatchPlan where
  targetOutpoint : OutPoint
  watches : WatchMap

def anchorPkScript : Script := [0x51, 0x02, 0x4e, 0x73]

def nonAnchorIndex (outputs : List Script) : Option ℕ :=
  outputs.findIdx? (· ≠ anchorPkScript)

def getNonAnchorOutpoint (txid : ℕ) (outputs : List Script) : Option OutPoint :=
  (nonAnchorIndex outputs).map (⟨txid, ·⟩)

mutual

def collectTreeWatches (heightHint : ℤ) (sweepLeafHash : List UInt8) :
    Node → Script → WatchMap → Except WatchError WatchMap
  | .mk txid input outputs children, inputPkScript, watches =>
    let watches := watches.put ⟨input, inputPkScript, heightHint, sweepLeafHash⟩
    if children.isEmpty then
      match getNonAnchorOutpoint txid outputs with
      | none => .error .leafOutput
      | some leaf => .ok (watches.put ⟨leaf, outputs.getD leaf.index [], heightHint, []⟩)
    else
      collectChildWatches heightHint sweepLeafHash txid outputs children watches

def collectChildWatches (heightHint : ℤ) (sweepLeafHash : List UInt8) (txid : ℕ)
    (outputs : List Script) : List (ℕ × Node) → WatchMap → Except WatchError WatchMap
  | [], watches => .ok watches
  | (i, .mk childTxid childInput childOutputs grandchildren) :: rest, watches =>
    match outputs[i]? with
    | none => .error (.childOutputIndexOutOfRange i)
    | some pkScript =>
      if childInput ≠ ⟨txid, i⟩ then .error (.childInputMismatch childInput ⟨txid, i⟩)
      else
        match collectTreeWatches heightHint sweepLeafHash
            (.mk childTxid childInput childOutputs grandchildren) pkScript watches with
        | .error e => .error e
        | .ok watches => collectChildWatches heightHint sweepLeafHash txid outputs rest watches

end

def heightHintFromCreatedHeight (createdHeight : ℤ) : ℤ :=
  if createdHeight ≤ 0 then 1 else createdHeight

def outpointLess (a b : OutPoint) : Bool :=
  a.hash < b.hash || (a.hash = b.hash && a.index < b.index)

def sortWatchPoints (watches : WatchMap) : WatchMap where
  rows := watches.rows.insertionSort fun a b => !outpointLess b.outpoint a.outpoint
  nodup := ((List.perm_insertionSort _ _).map _).nodup_iff.2 watches.nodup

def collectAncestry (heightHint : ℤ) :
    ℕ → List (Option Tree) → WatchMap → Except WatchError WatchMap
  | _, [], watches => .ok watches
  | i, none :: _, _ => .error (.missingTreePath i)
  | i, some treePath :: rest, watches =>
    match treePath.root, treePath.batchOutput with
    | none, _ => .error (.missingTreePath i)
    | some _, none => .error (.missingBatchOutput i)
    | some root, some pkScript =>
      match collectTreeWatches heightHint treePath.sweepTapscriptRoot root pkScript watches with
      | .error e => .error e
      | .ok watches => collectAncestry heightHint (i + 1) rest watches

def buildWatchPlan (desc : Descriptor) : Except WatchError WatchPlan :=
  if desc.ancestry.isEmpty then .error .missingAncestry
  else
    (collectAncestry (heightHintFromCreatedHeight desc.createdHeight) 0 desc.ancestry .empty).map
      fun watches => ⟨desc.outpoint, sortWatchPoints watches⟩

mutual

def Node.outpoints : Node → List OutPoint
  | .mk txid input outputs children =>
    input :: if children.isEmpty then (getNonAnchorOutpoint txid outputs).toList
      else childOutpoints children

def childOutpoints : List (ℕ × Node) → List OutPoint
  | [] => []
  | (_, .mk txid input outputs children) :: rest =>
    (Node.mk txid input outputs children).outpoints ++ childOutpoints rest

end

def Tree.outpoints (t : Tree) : List OutPoint := t.root.elim [] Node.outpoints

def Descriptor.outpoints (desc : Descriptor) : List OutPoint :=
  desc.ancestry.flatMap fun t => t.elim [] Tree.outpoints

def WatchMap.outpoints (m : WatchMap) : List OutPoint := m.rows.map WatchPoint.outpoint

def WatchPlan.outpoints (plan : WatchPlan) : List OutPoint := plan.watches.outpoints

variable {m m' : WatchMap}

theorem WatchMap.mem_outpoints_put :
    o ∈ WatchMap.outpoints (m.put p) ↔ o = p.outpoint ∨ o ∈ m.outpoints :=
  Table.mem_keys_put

/-- The outpoints `os` are added, with the sweep leaf `l` or with none. -/
structure Collected (l : List UInt8) (os : List OutPoint) (m m' : WatchMap) : Prop where
  mem : ∀ o, o ∈ m'.outpoints ↔ o ∈ os ∨ o ∈ m.outpoints
  label : ∀ p ∈ m'.rows, p ∈ m.rows ∨ p.sweepLeafHash = l ∨ p.sweepLeafHash = []

theorem Collected.put {p : WatchPoint} (hp : p.sweepLeafHash = l ∨ p.sweepLeafHash = []) :
    Collected l [p.outpoint] m (m.put p) := by
  refine ⟨fun o => by rw [WatchMap.mem_outpoints_put, mem_singleton], fun q hq => ?_⟩
  rcases Table.mem_rows_put hq with rfl | hq
  · exact .inr hp
  · exact .inl hq

theorem Collected.append (h : Collected l os m m') (h' : Collected l os' m' m'') :
    Collected l (os ++ os') m m'' := by
  refine ⟨fun o => ?_, fun p hp => ?_⟩
  · rw [h'.mem, h.mem, mem_append]
    tauto
  · rcases h'.label p hp with hp | hp
    · exact h.label p hp
    · exact .inr hp

mutual

theorem collectTreeWatches_spec : ∀ (n : Node) {s : Script} {m m' : WatchMap},
    collectTreeWatches h l n s m = .ok m' → Collected l n.outpoints m m'
  | .mk txid input outputs children, s, m, m', hm => by
    have hinput : Collected l [input] m (m.put ⟨input, s, h, l⟩) :=
      .put (p := ⟨input, s, h, l⟩) (.inl rfl)
    unfold collectTreeWatches at hm
    unfold Node.outpoints
    dsimp only at hm
    split at hm
    · next hc =>
      rw [if_pos hc]
      split at hm
      · cases hm
      · next leaf hl =>
        cases hm
        rw [hl]
        exact hinput.append (.put (p := ⟨leaf, _, h, []⟩) (.inr rfl))
    · next hc =>
      rw [if_neg hc]
      exact hinput.append (collectChildWatches_spec children hm)

theorem collectChildWatches_spec : ∀ (cs : List (ℕ × Node)) {txid : ℕ} {outputs : List Script}
    {m m' : WatchMap}, collectChildWatches h l txid outputs cs m = .ok m' →
      Collected l (childOutpoints cs) m m'
  | [], _, _, m, m', hm => by
    cases hm
    exact ⟨fun o => by simp [childOutpoints], fun p hp => .inl hp⟩
  | (i, .mk txid' input outputs' children) :: rest, txid, outputs, m, m', hm => by
    unfold collectChildWatches at hm
    split at hm
    · cases hm
    split at hm
    · cases hm
    split at hm
    · cases hm
    next m₁ hm₁ =>
      exact (collectTreeWatches_spec _ hm₁).append (collectChildWatches_spec rest hm)

end

def Allowed (ts : List (Option Tree)) (p : WatchPoint) : Prop :=
  p.sweepLeafHash = [] ∨ ∃ t, some t ∈ ts ∧ p.sweepLeafHash = t.sweepTapscriptRoot

theorem collectAncestry_spec : ∀ (ts : List (Option Tree)) {i : ℕ} {m m' : WatchMap},
    collectAncestry h i ts m = .ok m' →
      (∀ o, o ∈ m'.outpoints ↔ o ∈ ts.flatMap (·.elim [] Tree.outpoints) ∨ o ∈ m.outpoints) ∧
      ∀ p ∈ m'.rows, p ∈ m.rows ∨ Allowed ts p
  | [], i, m, m', hm => by
    simp only [collectAncestry, Except.ok.injEq] at hm
    subst hm
    exact ⟨fun o => by simp, fun p hp => .inl hp⟩
  | none :: _, i, m, m', hm => by simp [collectAncestry] at hm
  | some t :: ts, i, m, m', hm => by
    unfold collectAncestry at hm
    split at hm
    · cases hm
    · cases hm
    next root s hroot _ =>
      split at hm
      · cases hm
      next m₁ hm₁ =>
        have htree := collectTreeWatches_spec root hm₁
        obtain ⟨hmem, hlabel⟩ := collectAncestry_spec ts hm
        constructor
        · intro o
          rw [hmem, htree.mem, flatMap_cons, mem_append]
          simp only [Option.elim_some, Tree.outpoints, hroot]
          tauto
        intro p hp
        rcases hlabel p hp with hp | hp | ⟨t', ht', hp⟩
        · rcases htree.label p hp with hp | hp | hp
          · exact .inl hp
          · exact .inr (.inr ⟨t, mem_cons_self, hp⟩)
          · exact .inr (.inl hp)
        · exact .inr (.inl hp)
        · exact .inr (.inr ⟨t', mem_cons_of_mem _ ht', hp⟩)

theorem mem_sortWatchPoints : p ∈ (sortWatchPoints m).rows ↔ p ∈ m.rows := by
  unfold sortWatchPoints
  exact (perm_insertionSort _ _).mem_iff

/-- A plan watches the tree inputs and the leaf outputs of the ancestry, no more and no less, and
excuses only a spend by the sweep leaf of one of its trees. -/
theorem buildWatchPlan_spec (hp : buildWatchPlan desc = .ok plan) :
    plan.targetOutpoint = desc.outpoint ∧
      (∀ o, o ∈ plan.outpoints ↔ o ∈ desc.outpoints) ∧
      ∀ p ∈ plan.watches.rows, Allowed desc.ancestry p := by
  unfold buildWatchPlan at hp
  split at hp
  · cases hp
  cases hm : collectAncestry (heightHintFromCreatedHeight desc.createdHeight) 0 desc.ancestry
      .empty with
  | error e => simp [hm, Except.map] at hp
  | ok m =>
    simp only [hm, Except.map, Except.ok.injEq] at hp
    subst hp
    obtain ⟨hmem, hlabel⟩ := collectAncestry_spec _ hm
    refine ⟨rfl, fun o => ?_, fun p hp => ?_⟩
    · have h := hmem o
      simp only [WatchMap.outpoints, Table.empty, map_nil, not_mem_nil, or_false] at h
      rw [Descriptor.outpoints, ← h]
      simp [WatchPlan.outpoints, WatchMap.outpoints, mem_sortWatchPoints]
    · rcases hlabel p (mem_sortWatchPoints.1 hp) with hp | hp
      · exact absurd hp not_mem_nil
      · exact hp

def Descriptor.watchPoints (desc : Descriptor) : List WatchPoint :=
  match buildWatchPlan desc with
  | .ok plan => plan.watches.rows
  | .error _ => []

theorem Descriptor.watchPoints_eq (hp : buildWatchPlan desc = .ok plan) :
    desc.watchPoints = plan.watches.rows := by
  rw [watchPoints, hp]

end Wavelength.Fraud
