import Wavelength.Vtxotree.Extract

/-! # Paths to numbered leaves

A path can be cut out by the numbers of its leaves. The leaves are counted along the outputs of each
branch, up to the last but one: the last output is the anchor. A child that hangs at the last output
has leaves that are counted in total but never reached.
-/

namespace Wavelength.Vtxotree

open List

inductive IndexError where
  | noTargetIndices
  | negative (idx : ℤ)
  | outOfBounds (idx : ℤ) (totalLeaves : ℕ)
  | noPaths

mutual

def countLeaves : Node → ℕ
  | .node _ cs => if cs.isEmpty then 1 else countLeavesAll cs

def countLeavesAll : List (ℕ × Node) → ℕ
  | [] => 0
  | (_, child) :: rest => countLeaves child + countLeavesAll rest

end

/-- The bound of the loop over the outputs, which wraps around for a node without outputs. -/
def childLimit (d : NodeData) : ℕ :=
  if d.outputs.isEmpty then 2 ^ 32 - 1 else d.outputs.length - 1

/-- From the number of the first leaf below a node, the path below the node and the number of the
next leaf. -/
abbrev Cutter := ℕ → Option Node × ℕ

/-- The loop over the indices of outputs, with the number of the next leaf and the children that have
been found. -/
def visitChildren (children : List (ℕ × Cutter)) :
    List ℕ → ℕ → List (ℕ × Node) → List (ℕ × Node) × ℕ
  | [], leafIndex, extracted => (extracted, leafIndex)
  | i :: rest, leafIndex, extracted =>
    match children.lookup i with
    | none => visitChildren children rest leafIndex extracted
    | some cutter =>
      match cutter leafIndex with
      | (none, newLeafIndex) => visitChildren children rest newLeafIndex extracted
      | (some child, newLeafIndex) =>
        visitChildren children rest newLeafIndex (extracted ++ [(i, child)])

section

variable (targetSet : List ℤ)

mutual

def extractPathForIndicesRecursive : Node → Cutter
  | .node d cs => fun currentIndex =>
    if cs.isEmpty then
      if (currentIndex : ℤ) ∈ targetSet then (some (.node d.cut []), currentIndex + 1)
      else (none, currentIndex + 1)
    else
      let (extracted, leafIndex) :=
        visitChildren (childCutters cs) (List.range (childLimit d)) currentIndex []
      if extracted.isEmpty then (none, leafIndex)
      else (some (.node d.cut extracted), leafIndex)

def childCutters : List (ℕ × Node) → List (ℕ × Cutter)
  | [] => []
  | (i, child) :: rest => (i, extractPathForIndicesRecursive child) :: childCutters rest

end

end

def checkIndices (totalLeaves : ℕ) : List ℤ → Except IndexError Unit
  | [] => .ok ()
  | idx :: rest => do
    require (0 ≤ idx) (.negative idx)
    require (idx < totalLeaves) (.outOfBounds idx totalLeaves)
    checkIndices totalLeaves rest

def extractNodePathForIndices (n : Node) (targetIndices : List ℤ) : Except IndexError Node := do
  require (targetIndices ≠ []) .noTargetIndices
  checkIndices (countLeaves n) targetIndices
  match (extractPathForIndicesRecursive targetIndices n 0).1 with
  | none => .error .noPaths
  | some extracted => return extracted

/-- Without an index there is no tree, and no error either. -/
def Tree.extractPathForIndices (t : Tree) (leafIndices : List ℤ) :
    Except IndexError (Option Tree) := do
  if leafIndices = [] then return none
  let extractedRoot ← extractNodePathForIndices t.root leafIndices
  return some (t.withRoot extractedRoot)

/-! ## Counts and checks -/

theorem countLeaves_eq (n : Node) : countLeaves n = n.leaves.length := by
  induction n using Rose.ind with
  | node d cs ih =>
    rw [countLeaves, Rose.leaves]
    split
    · rfl
    clear * - ih
    induction cs with
    | nil => rfl
    | cons p cs ihcs =>
      rw [countLeavesAll, Rose.leavesAll, length_append, ih p mem_cons_self,
        ihcs fun q hq => ih q (mem_cons_of_mem _ hq)]

theorem checkIndices_eq_ok :
    checkIndices totalLeaves targetIndices = .ok u ↔
      ∀ idx ∈ targetIndices, 0 ≤ idx ∧ idx < totalLeaves := by
  induction targetIndices with
  | nil => simp [checkIndices]
  | cons idx rest ih =>
    simp only [checkIndices, bind_eq_ok, require_eq_ok, exists_const, ih, forall_mem_cons,
      and_assoc]

/-! ## The loop over the outputs -/

section

variable {children : List (ℕ × Cutter)}

def walkChildren : List (ℕ × Cutter) → ℕ → List (ℕ × Node) → List (ℕ × Node) × ℕ
  | [], leafIndex, extracted => (extracted, leafIndex)
  | (i, cutter) :: rest, leafIndex, extracted =>
    match cutter leafIndex with
    | (none, newLeafIndex) => walkChildren rest newLeafIndex extracted
    | (some child, newLeafIndex) => walkChildren rest newLeafIndex (extracted ++ [(i, child)])

theorem visitChildren_cons_of_notMem (h : i ∉ is) (leafIndex : ℕ) (extracted : List (ℕ × Node)) :
    visitChildren ((i, cutter) :: children) is leafIndex extracted =
      visitChildren children is leafIndex extracted := by
  induction is generalizing leafIndex extracted with
  | nil => rfl
  | cons j is ih =>
    obtain ⟨hij, hrest⟩ := not_or.1 (mt mem_cons.2 h)
    have hlookup : ((i, cutter) :: children).lookup j = children.lookup j := by
      rw [lookup_cons, beq_false_of_ne (Ne.symm hij)]
    simp only [visitChildren, hlookup, ih hrest]

theorem visitChildren_eq (start count leafIndex : ℕ) (extracted : List (ℕ × Node))
    (hsorted : (children.map Prod.fst).Pairwise (· < ·)) (hstart : ∀ p ∈ children, start ≤ p.1) :
    visitChildren children (range' start count) leafIndex extracted =
      walkChildren (children.filter (·.1 < start + count)) leafIndex extracted := by
  induction count generalizing children start leafIndex extracted with
  | zero =>
    rw [filter_eq_nil_iff.2]
    · rfl
    intro p hp
    have := hstart p hp
    simp only [decide_eq_true_eq]
    omega
  | succ count ih =>
    rw [range'_succ]
    have hnext : start + 1 + count = start + (count + 1) := by omega
    by_cases hfirst : ∃ cutter rest, children = (start, cutter) :: rest
    · obtain ⟨cutter, rest, rfl⟩ := hfirst
      rw [map_cons, pairwise_cons] at hsorted
      have hrest : ∀ p ∈ rest, start + 1 ≤ p.1 := fun p hp => hsorted.1 p.1 (mem_map_of_mem hp)
      have hnot : start ∉ range' (start + 1) count := by
        rw [mem_range'_1]
        omega
      have hkept : (((start, cutter) :: rest).filter (·.1 < start + (count + 1))) =
          (start, cutter) :: rest.filter (·.1 < start + 1 + count) := by
        rw [filter_cons, if_pos (by simp), hnext]
      rw [hkept, visitChildren, lookup_cons, beq_self_eq_true, walkChildren]
      simp only [visitChildren_cons_of_notMem hnot, ih (start + 1) _ _ hsorted.2 hrest]
    · have hlater : ∀ p ∈ children, start + 1 ≤ p.1 := by
        cases children with
        | nil => simp
        | cons q rest =>
          have hq : start ≠ q.1 := by
            rintro rfl
            exact hfirst ⟨q.2, rest, rfl⟩
          have hle := hstart q mem_cons_self
          rw [map_cons, pairwise_cons] at hsorted
          rw [forall_mem_cons]
          refine ⟨by omega, fun p hp => ?_⟩
          have := hsorted.1 p.1 (mem_map_of_mem hp)
          omega
      have hlookup : children.lookup start = none := by
        rw [lookup_eq_none_iff]
        intro p hp
        have := hlater p hp
        rw [bne_iff_ne]
        omega
      rw [visitChildren, hlookup]
      dsimp only
      rw [ih (start + 1) leafIndex extracted hsorted hlater, hnext]

end

/-! ## The leaves that are found -/

/-- The outputs that the loop looks at. -/
def beforeLast (d : NodeData) (i : ℕ) : Bool := i + 1 < d.outputs.length

def cutLeaf (leaf : Node) : Node := .node leaf.label.cut []

/-- Every way down the path is a way down the tree. -/
def PathOf (n path : Node) : Prop :=
  ∀ ks bs m, path.Trail ks bs m → ∃ as m', n.Trail ks as m' ∧ bs = as.map NodeData.cut

theorem PathOf.node (h : ∀ q ∈ ds, ∃ c, (q.1, c) ∈ cs ∧ PathOf c q.2) :
    PathOf (.node d cs) (.node d.cut ds) := by
  intro ks bs m htrail
  cases htrail with
  | root => exact ⟨[d], _, .root _, rfl⟩
  | @step _ _ i q m ks bs child rest =>
    obtain ⟨c, hc, hpath⟩ := h _ child
    obtain ⟨as, m', htrail, rfl⟩ := hpath _ _ _ rest
    exact ⟨d :: as, m', .step hc htrail, rfl⟩

/-- What a cutter finds below a node. -/
structure Finds (targetSet : List ℤ) (n : Node) (cutter : Cutter) : Prop where
  next : ∀ i, (cutter i).2 = i + (n.reached beforeLast).length
  leaves : ∀ i, (cutter i).1.toList.flatMap Rose.leaves =
    (Rose.pick (fun j => (j : ℤ) ∈ targetSet) i (n.reached beforeLast)).map cutLeaf
  path : ∀ i path, (cutter i).1 = some path → PathOf n path

section

variable {children : List (ℕ × Node)}

theorem walkChildren_finds (f : Node → Cutter) (h : ∀ p ∈ children, Finds targetSet p.2 (f p.2))
    (leafIndex : ℕ) (extracted : List (ℕ × Node)) :
    ∃ found, walkChildren (children.map fun p => (p.1, f p.2)) leafIndex extracted =
        (extracted ++ found, leafIndex + (children.flatMap (·.2.reached beforeLast)).length) ∧
      found.flatMap (·.2.leaves) = (Rose.pick (fun j => (j : ℤ) ∈ targetSet) leafIndex
        (children.flatMap (·.2.reached beforeLast))).map cutLeaf ∧
      ∀ q ∈ found, ∃ c, (q.1, c) ∈ children ∧ PathOf c q.2 := by
  induction children generalizing leafIndex extracted with
  | nil => exact ⟨[], by simp [walkChildren], rfl, by simp⟩
  | cons p children ih =>
    obtain ⟨hp, hrest⟩ := forall_mem_cons.1 h
    have hnext := hp.next leafIndex
    have hleaves := hp.leaves leafIndex
    have hpath := hp.path leafIndex
    rw [map_cons, walkChildren, flatMap_cons, Rose.pick_append, map_append,
      length_append, ← Nat.add_assoc, ← hleaves, ← hnext]
    cases hcut : f p.2 leafIndex with
    | mk result newLeafIndex =>
      cases result with
      | none =>
        obtain ⟨found, hwalk, hfound, hall⟩ := ih hrest newLeafIndex extracted
        refine ⟨found, hwalk, hfound, fun q hq => ?_⟩
        obtain ⟨c, hc, hpath⟩ := hall q hq
        exact ⟨c, mem_cons_of_mem _ hc, hpath⟩
      | some path =>
        rw [hcut] at hpath
        obtain ⟨found, hwalk, hfound, hall⟩ := ih hrest newLeafIndex (extracted ++ [(p.1, path)])
        refine ⟨(p.1, path) :: found, ?_, ?_, ?_⟩
        · dsimp only
          rw [hwalk, append_assoc]
          rfl
        · rw [flatMap_cons, hfound]
          simp
        rw [forall_mem_cons]
        refine ⟨⟨p.2, mem_cons_self, hpath path rfl⟩, fun q hq => ?_⟩
        obtain ⟨c, hc, hpath⟩ := hall q hq
        exact ⟨c, mem_cons_of_mem _ hc, hpath⟩

theorem childCutters_eq (cs : List (ℕ × Node)) : childCutters targetSet cs =
    cs.map fun p => (p.1, extractPathForIndicesRecursive targetSet p.2) := by
  induction cs with
  | nil => rfl
  | cons p cs ih =>
    rw [childCutters, ih]
    rfl

/-- The children are listed in ascending order of the outputs that they hang at. -/
def Ascending (n : Node) : Prop := ∀ m ∈ n.nodes, (m.children.map Prod.fst).Pairwise (· < ·)

theorem ascending_node :
    Ascending (.node d cs) ↔ (cs.map Prod.fst).Pairwise (· < ·) ∧ ∀ p ∈ cs, Ascending p.2 :=
  Rose.forall_nodes_node

theorem Finds.leaf (d : NodeData) :
    Finds targetSet (.node d []) (extractPathForIndicesRecursive targetSet (.node d [])) := by
  constructor
  case next =>
    intro i
    simp only [extractPathForIndicesRecursive, isEmpty_nil, if_true, Rose.reached_nil]
    split <;> rfl
  case leaves =>
    intro i
    simp only [extractPathForIndicesRecursive, isEmpty_nil, if_true, Rose.reached_nil, Rose.pick]
    by_cases hi : (i : ℤ) ∈ targetSet
    · simp [hi, cutLeaf]
    · simp [hi]
  case path =>
    intro i path hpath
    simp only [extractPathForIndicesRecursive, isEmpty_nil, if_true] at hpath
    split at hpath
    · cases hpath
      exact .node (by simp)
    · cases hpath

theorem Finds.branch (houtputs : d.outputs ≠ []) (hne : children ≠ [])
    (hsorted : (children.map Prod.fst).Pairwise (· < ·))
    (h : ∀ p ∈ children, Finds targetSet p.2 (extractPathForIndicesRecursive targetSet p.2)) :
    Finds targetSet (.node d children)
      (extractPathForIndicesRecursive targetSet (.node d children)) := by
  have hlimit : ∀ j, j < 0 + childLimit d ↔ beforeLast d j = true := by
    intro j
    rw [childLimit, if_neg (by simpa using houtputs), beforeLast, decide_eq_true_iff]
    have := length_pos_iff.2 houtputs
    omega
  have hkept : (childCutters targetSet children).filter (·.1 < 0 + childLimit d) =
      (children.filter (beforeLast d ·.1)).map
        fun p => (p.1, extractPathForIndicesRecursive targetSet p.2) := by
    rw [childCutters_eq, filter_map]
    congr 1
    refine filter_congr fun p _ => ?_
    rw [Bool.eq_iff_iff, Function.comp_apply, decide_eq_true_iff, hlimit]
  have hloop : ∀ i, ∃ found,
      visitChildren (childCutters targetSet children) (range (childLimit d)) i [] =
        (found, i + ((Rose.node d children).reached beforeLast).length) ∧
      found.flatMap (·.2.leaves) = (Rose.pick (fun j => (j : ℤ) ∈ targetSet) i
        ((Rose.node d children).reached beforeLast)).map cutLeaf ∧
      ∀ q ∈ found, ∃ c, (q.1, c) ∈ children ∧ PathOf c q.2 := by
    intro i
    have hkeys : (childCutters targetSet children).map Prod.fst = children.map Prod.fst := by
      rw [childCutters_eq, map_map]
      rfl
    rw [range_eq_range', visitChildren_eq _ _ _ _ (hkeys ▸ hsorted) (by simp), hkept,
      Rose.reached_node hne]
    obtain ⟨found, hwalk, hleaves, hall⟩ := walkChildren_finds
      (extractPathForIndicesRecursive targetSet)
      (fun p hp => h p (mem_filter.1 hp).1) i []
    refine ⟨found, hwalk, hleaves, fun q hq => ?_⟩
    obtain ⟨c, hc, hpath⟩ := hall q hq
    exact ⟨c, (mem_filter.1 hc).1, hpath⟩
  have hresult : ∀ i, ∃ found, extractPathForIndicesRecursive targetSet (.node d children) i =
        (if found.isEmpty then none else some (.node d.cut found),
          i + ((Rose.node d children).reached beforeLast).length) ∧
      found.flatMap (·.2.leaves) = (Rose.pick (fun j => (j : ℤ) ∈ targetSet) i
        ((Rose.node d children).reached beforeLast)).map cutLeaf ∧
      ∀ q ∈ found, ∃ c, (q.1, c) ∈ children ∧ PathOf c q.2 := by
    intro i
    obtain ⟨found, hvisit, hrest⟩ := hloop i
    refine ⟨found, ?_, hrest⟩
    have hchildren : ¬ children.isEmpty = true := by simpa using hne
    rw [extractPathForIndicesRecursive]
    dsimp only
    rw [if_neg hchildren, hvisit]
    dsimp only
    split <;> rfl
  constructor
  case next =>
    intro i
    obtain ⟨found, heq, -⟩ := hresult i
    rw [heq]
  case leaves =>
    intro i
    obtain ⟨found, heq, hleaves, -⟩ := hresult i
    rw [heq, ← hleaves]
    rcases eq_or_ne found [] with rfl | hfound
    · rfl
    · rw [if_neg (by simpa using hfound), Option.toList_some, flatMap_singleton,
        Rose.leaves_node hfound]
  case path =>
    intro i path hpath
    obtain ⟨found, heq, -, hall⟩ := hresult i
    rw [heq] at hpath
    dsimp only at hpath
    split at hpath
    · cases hpath
    · cases hpath
      exact .node hall

/-- The recursion finds the leaves by the numbers that they have among those that are reached. -/
theorem extractPathForIndicesRecursive_finds (hascending : Ascending n)
    (houtputs : n.Nodes fun d => d.outputs ≠ []) :
    Finds targetSet n (extractPathForIndicesRecursive targetSet n) := by
  induction n using Rose.ind with
  | node d cs ih =>
    rw [ascending_node] at hascending
    rw [Rose.nodes_node] at houtputs
    rcases eq_or_ne cs [] with rfl | hne
    · exact .leaf d
    · refine .branch houtputs.1 hne hascending.1 fun p hp => ?_
      exact ih p hp (hascending.2 p hp) (houtputs.2 p hp)

end

/-! ## Extraction -/

section

variable {t : Tree} {leafIndices : List ℤ}

theorem extractNodePathForIndices_eq_ok :
    extractNodePathForIndices n leafIndices = .ok path ↔
      leafIndices ≠ [] ∧ (∀ idx ∈ leafIndices, 0 ≤ idx ∧ idx < n.leaves.length) ∧
        (extractPathForIndicesRecursive leafIndices n 0).1 = some path := by
  simp only [extractNodePathForIndices, bind_eq_ok, require_eq_ok, exists_const,
    checkIndices_eq_ok, countLeaves_eq]
  cases (extractPathForIndicesRecursive leafIndices n 0).1 with
  | none => simp
  | some path => simp [pure, Except.pure]

theorem outputs_ne_nil (h : t.verify crypto = .ok ()) : t.root.Nodes fun d => d.outputs ≠ [] := by
  obtain ⟨batchOutput, -, hroot, hedges⟩ := verify_eq_ok.1 h
  rw [Rose.nodes_iff_edges]
  constructor
  · exact hroot.valid.outputs
  · intro m hm p hp
    obtain ⟨o, -, hspends⟩ := hedges m hm p hp
    exact hspends.valid.outputs

/-- Indices of leaves are found, and the path has the leaves with these indices. -/
theorem exists_path (hverify : t.verify crypto = .ok ()) (hascending : Ascending t.root)
    (hne : leafIndices ≠ [])
    (hrange : ∀ idx ∈ leafIndices, 0 ≤ idx ∧ idx < t.root.leaves.length)
    (hbefore : ∀ idx ∈ leafIndices, ∀ (k : ℕ) leaf, k ≤ idx →
      (t.root.leavesVia beforeLast)[k]? = some leaf → leaf.2 = true) :
    ∃ path, (extractPathForIndicesRecursive leafIndices t.root 0).1 = some path ∧
      PathOf t.root path ∧
      path.leaves = (Rose.pick (fun i => (i : ℤ) ∈ leafIndices) 0 t.root.leaves).map cutLeaf := by
  have hfinds : Finds leafIndices t.root (extractPathForIndicesRecursive leafIndices t.root) :=
    extractPathForIndicesRecursive_finds hascending (outputs_ne_nil hverify)
  have hpick : Rose.pick (fun i => (i : ℤ) ∈ leafIndices) 0 (t.root.reached beforeLast) =
      Rose.pick (fun i => (i : ℤ) ∈ leafIndices) 0 t.root.leaves := by
    rw [Rose.reached, Rose.pick_filter, Rose.map_fst_leavesVia]
    intro j k leaf hj hle hleaf
    exact hbefore j (of_decide_eq_true hj) k leaf (by omega) hleaf
  have hleaves := hfinds.leaves 0
  rw [hpick] at hleaves
  cases hpath : (extractPathForIndicesRecursive leafIndices t.root 0).1 with
  | some path =>
    rw [hpath, Option.toList_some, flatMap_singleton] at hleaves
    exact ⟨path, rfl, hfinds.path 0 path hpath, hleaves⟩
  | none =>
    -- The first index is the number of a leaf.
    obtain ⟨idx, hidx⟩ := exists_mem_of_ne_nil leafIndices hne
    rw [hpath, Option.toList_none, flatMap_nil, eq_comm, map_eq_nil_iff] at hleaves
    obtain ⟨hnonneg, hlt⟩ := hrange idx hidx
    obtain ⟨k, rfl⟩ := Int.eq_ofNat_of_zero_le hnonneg
    have hleaf := getElem?_eq_getElem (Int.ofNat_lt.1 hlt)
    have hmem := Rose.mem_pick (p := fun i => (i : ℤ) ∈ leafIndices) (i := 0) hleaf
      (by simpa using hidx)
    rw [hleaves] at hmem
    exact absurd hmem not_mem_nil

end

def twoLeaves (rest : List TxOut) : Tree where
  root := .node ⟨⟨7, 0⟩, [⟨3, []⟩, ⟨2, []⟩] ++ rest, [], 0, none⟩
    [(0, .node ⟨⟨0, 0⟩, [⟨3, []⟩], [], 0, none⟩ []), (1, .node ⟨⟨0, 1⟩, [⟨2, []⟩], [], 0, none⟩ [])]
  batchOutpoint := ⟨7, 0⟩
  batchOutput := some ⟨5, []⟩
  sweepTapscriptRoot := []
  assetContext := none

end Wavelength.Vtxotree
