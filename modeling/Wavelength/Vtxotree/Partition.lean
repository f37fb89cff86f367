import Mathlib.Algebra.Order.BigOperators.Group.List
import Mathlib.Algebra.Order.Ring.Int
import Mathlib.Data.Prod.Lex
import Wavelength.Base.StableSort
import Wavelength.Vtxotree.Build

/-! # The partition of the leaves

Each leaf goes to the lightest group. No leaf is lost. The heaviest leaf comes first, and if it has
a weight the second leaf goes to another group, so that no group takes all leaves. Leaves without
a weight come last and all go to the same group.
-/

namespace Wavelength.Vtxotree

open List

theorem add64_eq (hlow : 0 ≤ a + b) (hhigh : a + b ≤ maxInt64) : add64 a b = a + b := by
  unfold maxInt64 at hhigh
  apply Int.bmod_eq_of_le <;> omega

/-! ## The lightest group -/

/-- The loop has seen `done`, whose smallest weight `w` is at `m`. -/
theorem minIdxFrom_spec {m : ℕ} {w : ℤ} {done rest : List ℤ} (hm : done[m]? = some w)
    (hmin : ∀ v ∈ done, w ≤ v) :
    ∃ u, (done ++ rest)[minIdxFrom m w done.length rest]? = some u ∧ ∀ v ∈ done ++ rest, u ≤ v := by
  induction rest generalizing m w done with
  | nil =>
    rw [append_nil]
    exact ⟨w, hm, hmin⟩
  | cons v rest ih =>
    rw [minIdxFrom, append_cons]
    have hlen : (done ++ [v]).length = done.length + 1 := length_append
    split
    · next hlt =>
      rw [← hlen]
      apply ih getElem?_concat_length
      rw [forall_mem_append, forall_mem_singleton]
      exact ⟨fun x hx => hlt.le.trans (hmin x hx), le_rfl⟩
    · next hle =>
      rw [← hlen]
      apply ih
      · rw [List.getElem?_append_left (List.getElem?_eq_some_iff.1 hm).1]
        exact hm
      rw [forall_mem_append, forall_mem_singleton]
      exact ⟨hmin, not_lt.1 hle⟩

theorem minIdx_spec {weights : List ℤ} (h : weights ≠ []) :
    ∃ u, weights[minIdx weights]? = some u ∧ ∀ v ∈ weights, u ≤ v := by
  cases weights with
  | nil => exact absurd rfl h
  | cons w rest => exact @minIdxFrom_spec 0 w [w] rest rfl (by simp)

theorem exists_lightest {groups : List Group} (h : groups ≠ []) :
    ∃ before g after, groups = before ++ g :: after ∧
      before.length = minIdx (groups.map Prod.snd) ∧ ∀ g' ∈ groups, g.2 ≤ g'.2 := by
  have hweights : groups.map Prod.snd ≠ [] := by simpa using h
  obtain ⟨u, hu, hmin⟩ := minIdx_spec hweights
  have hlt : minIdx (groups.map Prod.snd) < groups.length := by
    simpa using (List.getElem?_eq_some_iff.1 hu).1
  obtain ⟨before, g, after, hgroups, hlen, -⟩ := exists_of_modify id hlt
  refine ⟨before, g, after, hgroups, hlen, ?_⟩
  intro g' hg'
  have hg : groups[minIdx (groups.map Prod.snd)]? = some g := by
    rw [← hlen]
    conv_lhs => rw [hgroups]
    simp
  rw [getElem?_map, hg] at hu
  cases hu
  exact hmin g'.2 (mem_map_of_mem hg')

theorem assign_append {before after : List Group} {g : Group} (wl : WeightedLeaf)
    (h : before.length = minIdx ((before ++ g :: after).map Prod.snd)) :
    assign (before ++ g :: after) wl =
      before ++ (g.1 ++ [wl.leaf], add64 g.2 wl.weight) :: after := by
  rw [assign, ← h, modify_eq_set_getElem?]
  simp

theorem assign_spec {groups : List Group} (h : groups ≠ []) (wl : WeightedLeaf) :
    ∃ before g after, groups = before ++ g :: after ∧ (∀ g' ∈ groups, g.2 ≤ g'.2) ∧
      assign groups wl = before ++ (g.1 ++ [wl.leaf], add64 g.2 wl.weight) :: after := by
  obtain ⟨before, g, after, rfl, hlen, hmin⟩ := exists_lightest h
  exact ⟨before, g, after, rfl, hmin, assign_append wl hlen⟩

theorem length_assign : (assign groups wl).length = groups.length := length_modify _ _ _

/-- What holds of every group and of the lightest one with the leaf holds after it is assigned. -/
theorem assign_forall {P : Group → Prop} (hne : groups ≠ []) (h : ∀ g ∈ groups, P g)
    (hnew : ∀ g ∈ groups, (∀ g' ∈ groups, g.2 ≤ g'.2) →
      P (g.1 ++ [wl.leaf], add64 g.2 wl.weight)) : ∀ g ∈ assign groups wl, P g := by
  obtain ⟨before, g, after, rfl, hmin, hassign⟩ := assign_spec hne wl
  rw [hassign]
  have hg := hnew g (by simp) hmin
  rw [forall_mem_append, forall_mem_cons] at h ⊢
  exact ⟨h.1, hg, h.2.2⟩

/-! ## What is true after each leaf -/

def clipped (weightFn : LeafDescriptor → ℤ) (l : LeafDescriptor) : ℤ := max 0 (weightFn l)

/-- The groups when the leaves of `done` have been assigned. -/
structure Dealt (weightFn : LeafDescriptor → ℤ) (radix : ℕ) (done : List LeafDescriptor)
    (groups : List Group) : Prop where
  length : groups.length = radix
  perm : (groups.flatMap Prod.fst).Perm done
  weight : ∀ g ∈ groups, g.2 = ((g.1.map (clipped weightFn)).sum).bmod (2 ^ 64)

variable {weighted : List WeightedLeaf}

section

variable {leaves done : List LeafDescriptor}

theorem Dealt.init : Dealt weightFn radix [] (replicate radix ([], 0)) where
  length := length_replicate
  perm := by simp [flatMap_replicate]
  weight := by
    intro g hg
    rw [eq_of_mem_replicate hg]
    rfl

variable (h : Dealt weightFn radix done groups) (hradix : 2 ≤ radix)
include h hradix

theorem Dealt.ne_nil : groups ≠ [] := by
  rintro rfl
  have := h.length
  rw [length_nil] at this
  omega

theorem Dealt.assign
    (hweight : wl.weight = clipped weightFn wl.leaf) :
    Dealt weightFn radix (done ++ [wl.leaf]) (assign groups wl) := by
  constructor
  · exact length_assign.trans h.length
  · obtain ⟨before, g, after, rfl, -, hassign⟩ := assign_spec (h.ne_nil hradix) wl
    rw [hassign]
    have hperm := h.perm
    rw [flatMap_append, flatMap_cons] at hperm ⊢
    calc (before.flatMap Prod.fst ++ ((g.1 ++ [wl.leaf]) ++ after.flatMap Prod.fst))
        = (before.flatMap Prod.fst ++ g.1) ++ ([wl.leaf] ++ after.flatMap Prod.fst) := by simp
      _ |>.Perm ((before.flatMap Prod.fst ++ g.1) ++ (after.flatMap Prod.fst ++ [wl.leaf])) :=
        perm_append_comm.append_left _
      _ = (before.flatMap Prod.fst ++ (g.1 ++ after.flatMap Prod.fst)) ++ [wl.leaf] := by simp
      _ |>.Perm (done ++ [wl.leaf]) := hperm.append_right _
  · refine assign_forall (h.ne_nil hradix) h.weight fun g hg _ => ?_
    rw [h.weight g hg, hweight, add64, Int.bmod_add_bmod, map_append, sum_append, map_singleton,
      sum_singleton]

theorem Dealt.foldl
    (hweight : ∀ wl ∈ weighted, wl.weight = clipped weightFn wl.leaf) :
    Dealt weightFn radix (done ++ weighted.map WeightedLeaf.leaf)
      (weighted.foldl Vtxotree.assign groups) := by
  induction weighted generalizing done groups with
  | nil => simpa using h
  | cons wl rest ih =>
    rw [map_cons, append_cons, foldl_cons]
    apply ih (h.assign hradix (hweight wl mem_cons_self))
    exact fun wl' hwl' => hweight wl' (mem_cons_of_mem _ hwl')

omit h hradix

theorem sum_nonneg_of_pos (hpos : ∀ l ∈ leaves, 0 < weightFn l) : 0 ≤ (leaves.map weightFn).sum := by
  apply sum_nonneg
  simpa using fun l hl => (hpos l hl).le

/-! ## No group takes all leaves -/

/-- The second leaf does not go to the group of the first, which has a weight. -/
theorem spread_two (hradix : 2 ≤ radix) (hpos : 0 < a.weight) (hmax : a.weight ≤ maxInt64) :
    ∀ g ∈ assign (assign (replicate radix ([], 0)) a) b, g.1.length < 2 := by
  have hne : replicate radix (([], 0) : Group) ≠ [] := by
    rw [ne_eq, replicate_eq_nil_iff]
    omega
  obtain ⟨before, g₀, after, hgroups, -, hassign⟩ := assign_spec hne a
  have hempty : ∀ g ∈ before ++ g₀ :: after, g = ([], 0) := by
    rw [← hgroups]
    exact fun g hg => eq_of_mem_replicate hg
  rw [forall_mem_append, forall_mem_cons] at hempty
  obtain ⟨hbefore, rfl, hafter⟩ := hempty
  have hadd : add64 0 a.weight = a.weight := by
    rw [add64_eq] <;> omega
  rw [hassign, nil_append, hadd]
  have hcases : ∀ g ∈ before ++ ([a.leaf], a.weight) :: after,
      g = ([a.leaf], a.weight) ∨ g = ([], 0) := by
    rw [forall_mem_append, forall_mem_cons]
    exact ⟨fun g hg => .inr (hbefore g hg), .inl rfl, fun g hg => .inr (hafter g hg)⟩
  -- Since the radix is at least two, a group is still empty.
  have hother : (([], 0) : Group) ∈ before ++ ([a.leaf], a.weight) :: after := by
    have hlen := congrArg length hgroups
    rw [length_replicate, length_append, length_cons] at hlen
    match before, after with
    | g :: _, _ => simp [hbefore g mem_cons_self]
    | [], g :: _ => simp [hafter g mem_cons_self]
    | [], [] =>
      simp at hlen
      omega
  refine assign_forall (ne_nil_of_mem hother) ?_ ?_
  · intro g hg
    rcases hcases g hg with rfl | rfl <;> simp
  · intro g hg hmin
    rcases hcases g hg with rfl | rfl
    · have := hmin _ hother
      dsimp only at this
      omega
    · simp

theorem spread_foldl (hne : groups ≠ []) (h : ∀ g ∈ groups, g.1.length < n) :
    ∀ g ∈ weighted.foldl assign groups, g.1.length < n + weighted.length := by
  induction weighted generalizing groups n with
  | nil => simpa using h
  | cons wl rest ih =>
    rw [foldl_cons, length_cons, Nat.add_comm rest.length, ← Nat.add_assoc]
    apply ih
    · rwa [← length_pos_iff, length_assign, length_pos_iff]
    refine assign_forall hne ?_ ?_
    · exact fun g hg => (h g hg).trans (Nat.lt_succ_self n)
    · exact fun g hg _ => by simpa using h g hg

/-! ## Leaves without a weight -/

theorem foldl_light {before after : List Group} {g : Group}
    (hweight : ∀ wl ∈ weighted, wl.weight = 0)
    (hidx : before.length = minIdx ((before ++ g :: after).map Prod.snd))
    (hzero : add64 g.2 0 = g.2) :
    weighted.foldl assign (before ++ g :: after) =
      before ++ (g.1 ++ weighted.map WeightedLeaf.leaf, g.2) :: after := by
  induction weighted generalizing g with
  | nil => simp
  | cons wl rest ih =>
    rw [foldl_cons, assign_append wl hidx, hweight wl mem_cons_self, hzero, ih]
    · simp
    · exact fun wl' hwl' => hweight wl' (mem_cons_of_mem _ hwl')
    · simpa using hidx
    · exact hzero

/-- They go to the group that is the lightest of those of the other leaves. -/
theorem Dealt.light (h : Dealt weightFn radix done groups) (hradix : 2 ≤ radix)
    (hweight : ∀ wl ∈ weighted, wl.weight = 0) :
    ∃ before g after, groups = before ++ g :: after ∧ (∀ g' ∈ groups, g.2 ≤ g'.2) ∧
      weighted.foldl Vtxotree.assign groups =
        before ++ (g.1 ++ weighted.map WeightedLeaf.leaf, g.2) :: after := by
  obtain ⟨before, g, after, rfl, hidx, hmin⟩ := exists_lightest (h.ne_nil hradix)
  refine ⟨before, g, after, rfl, hmin, foldl_light hweight hidx ?_⟩
  rw [h.weight g (by simp), add64, add_zero, Int.bmod_bmod]

end

/-! ## The order of the leaves -/

theorem less_byKey : ByKey WeightedLeaf.less fun a => toLex (-a.weight, a.index) := by
  intro a b
  rw [Prod.Lex.toLex_lt_toLex]
  unfold WeightedLeaf.less
  split <;> simp <;> omega

def sortWeighted (weighted : List WeightedLeaf) : List WeightedLeaf :=
  weighted.insertionSort fun a b => b.less a = false

theorem sortWeighted_pairwise (weighted : List WeightedLeaf) :
    (sortWeighted weighted).Pairwise fun a b => b.weight ≤ a.weight := by
  refine (less_byKey.pairwise weighted).imp ?_
  intro a b h
  rw [Prod.Lex.toLex_le_toLex] at h
  omega

theorem exists_append_of_pairwise (h : weighted.Pairwise fun a b => b.weight ≤ a.weight) :
    ∃ heavy light, weighted = heavy ++ light ∧ (∀ wl ∈ heavy, 0 < wl.weight) ∧
      ∀ wl ∈ light, wl.weight ≤ 0 := by
  induction weighted with
  | nil => exact ⟨[], [], rfl, by simp, by simp⟩
  | cons wl rest ih =>
    rw [pairwise_cons] at h
    rcases lt_or_ge 0 wl.weight with hpos | hle
    · obtain ⟨heavy, light, rfl, hheavy, hlight⟩ := ih h.2
      exact ⟨wl :: heavy, light, rfl, forall_mem_cons.2 ⟨hpos, hheavy⟩, hlight⟩
    · refine ⟨[], wl :: rest, rfl, by simp, forall_mem_cons.2 ⟨hle, ?_⟩⟩
      exact fun wl' hwl' => (h.1 wl' hwl').trans hle

theorem mem_weighLeaves (h : wl ∈ weighLeaves weightFn leaves) :
    wl.leaf ∈ leaves ∧ wl.weight = clipped weightFn wl.leaf := by
  obtain ⟨⟨leaf, i⟩, hmem, rfl⟩ := mem_map.1 h
  exact ⟨fst_mem_of_mem_zipIdx hmem, rfl⟩

theorem map_leaf_weighLeaves (weightFn : LeafDescriptor → ℤ) (leaves : List LeafDescriptor) :
    (weighLeaves weightFn leaves).map WeightedLeaf.leaf = leaves := by
  rw [weighLeaves, map_map]
  exact zipIdx_map_fst 0 leaves

/-- The leaves in the order in which they are assigned. -/
structure Ordered (weightFn : LeafDescriptor → ℤ) (leaves : List LeafDescriptor)
    (sorted : List WeightedLeaf) : Prop where
  perm : (sorted.map WeightedLeaf.leaf).Perm leaves
  weight : ∀ wl ∈ sorted, wl.weight = clipped weightFn wl.leaf
  pairwise : sorted.Pairwise fun a b => b.weight ≤ a.weight

theorem sortWeighted_ordered (weightFn : LeafDescriptor → ℤ) (leaves : List LeafDescriptor) :
    Ordered weightFn leaves (sortWeighted (weighLeaves weightFn leaves)) := by
  have hperm : (sortWeighted (weighLeaves weightFn leaves)).Perm (weighLeaves weightFn leaves) :=
    perm_insertionSort _ _
  constructor
  · have := hperm.map WeightedLeaf.leaf
    rwa [map_leaf_weighLeaves] at this
  · intro wl hwl
    exact (mem_weighLeaves (hperm.mem_iff.1 hwl)).2
  · exact sortWeighted_pairwise _

/-! ## The partition -/

section

variable {weightFn : LeafDescriptor → ℤ} {leaves : List LeafDescriptor}

/-- The groups of a partition before those without leaves are dropped. -/
def weighGroups (weightFn : LeafDescriptor → ℤ) (radix : ℕ) (leaves : List LeafDescriptor) :
    List Group :=
  (sortWeighted (weighLeaves weightFn leaves)).foldl assign (List.replicate radix ([], 0))

theorem partitionLeavesByWeight_eq :
    partitionLeavesByWeight leaves radix weightFn =
      ((weighGroups weightFn radix leaves).map Prod.fst).filter (!·.isEmpty) := rfl

variable (weightFn leaves) in
theorem weighGroups_dealt (hradix : 2 ≤ radix) :
    ∃ done, done.Perm leaves ∧ Dealt weightFn radix done (weighGroups weightFn radix leaves) := by
  have hordered := sortWeighted_ordered weightFn leaves
  exact ⟨_, hordered.perm, Dealt.init.foldl hradix hordered.weight⟩

/-- A leaf without a weight; the partition does not tell such leaves apart. -/
abbrev isLight (weightFn : LeafDescriptor → ℤ) (l : LeafDescriptor) : Bool := weightFn l ≤ 0

theorem clipped_le_zero : clipped weightFn l ≤ 0 ↔ isLight weightFn l := by
  rw [clipped, decide_eq_true_eq]
  omega

/-- With two leaves of which one has a weight, the heaviest leaf is not alone. -/
theorem weighGroups_spread (hradix : 2 ≤ radix) (hlen : 2 ≤ leaves.length)
    (hlight : leaves.countP (isLight weightFn) ≤ 1) (hmax : ∀ l ∈ leaves, weightFn l ≤ maxInt64) :
    ∀ g ∈ weighGroups weightFn radix leaves, g.1.length < leaves.length := by
  have hordered := sortWeighted_ordered weightFn leaves
  have hlength := hordered.perm.length_eq
  rw [weighGroups]
  generalize sortWeighted (weighLeaves weightFn leaves) = sorted at hordered hlength
  rw [length_map] at hlength
  match sorted, hlength with
  | a :: b :: rest, hlength =>
    have ha : 0 < a.weight := by
      by_contra hle
      -- Otherwise no leaf has a weight.
      have hall : ∀ l ∈ (a :: b :: rest).map WeightedLeaf.leaf, isLight weightFn l := by
        intro l hl
        obtain ⟨wl, hwl, rfl⟩ := mem_map.1 hl
        rw [← clipped_le_zero, ← hordered.weight wl hwl]
        rcases mem_cons.1 hwl with rfl | hwl
        · exact not_lt.1 hle
        · exact ((pairwise_cons.1 hordered.pairwise).1 wl hwl).trans (not_lt.1 hle)
      have hcount := countP_eq_length.2 hall
      rw [hordered.perm.countP_eq, hordered.perm.length_eq] at hcount
      omega
    have hamax : a.weight ≤ maxInt64 := by
      rw [hordered.weight a mem_cons_self, clipped, max_le_iff]
      refine ⟨by decide, hmax _ (hordered.perm.mem_iff.1 ?_)⟩
      exact mem_map_of_mem mem_cons_self
    rw [foldl_cons, foldl_cons, ← hlength, length_cons, length_cons,
      Nat.add_assoc, Nat.add_comm rest.length]
    have hdealt : Dealt weightFn radix ([] ++ [a, b].map WeightedLeaf.leaf) _ :=
      Dealt.init.foldl hradix fun wl hwl => hordered.weight wl (by
        simp only [mem_cons, not_mem_nil, or_false] at hwl ⊢
        exact hwl.imp_right .inl)
    exact spread_foldl (hdealt.ne_nil hradix) (spread_two hradix ha hamax)
  | [], hlength | [_], hlength =>
    rw [← hlength] at hlen
    simp at hlen

variable (weightFn leaves) in
theorem partitionLeavesByWeight_perm (hradix : 2 ≤ radix) :
    (partitionLeavesByWeight leaves radix weightFn).flatten.Perm leaves := by
  obtain ⟨done, hperm, hdealt⟩ := weighGroups_dealt weightFn leaves hradix
  rw [partitionLeavesByWeight_eq, flatten_filter_not_isEmpty]
  exact hdealt.perm.trans hperm

variable (weightFn leaves) in
theorem partitionLeavesByWeight_length (hradix : 2 ≤ radix) :
    (partitionLeavesByWeight leaves radix weightFn).length ≤ radix := by
  obtain ⟨done, -, hdealt⟩ := weighGroups_dealt weightFn leaves hradix
  rw [partitionLeavesByWeight_eq]
  exact (length_filter_le _ _).trans_eq ((length_map _).trans hdealt.length)

theorem partitionLeavesByWeight_smaller (hradix : 2 ≤ radix) (hlen : 2 ≤ leaves.length)
    (hlight : leaves.countP (isLight weightFn) ≤ 1) (hmax : ∀ l ∈ leaves, weightFn l ≤ maxInt64) :
    ∀ g ∈ partitionLeavesByWeight leaves radix weightFn, g.length < leaves.length := by
  intro g hg
  obtain ⟨⟨ls, w⟩, hmem, rfl⟩ := mem_map.1 (mem_filter.1 hg).1
  exact weighGroups_spread hradix hlen hlight hmax _ hmem

variable (weightFn leaves) in
/-- The heavy leaves are dealt first, and all light ones go to the lightest group. -/
theorem weighGroups_light (hradix : 2 ≤ radix) :
    ∃ heavy light before g after, (heavy ++ light).Perm leaves ∧
      (∀ l ∈ heavy, isLight weightFn l = false) ∧ (∀ l ∈ light, isLight weightFn l) ∧
      Dealt weightFn radix heavy (before ++ g :: after) ∧
      (∀ g' ∈ before ++ g :: after, g.2 ≤ g'.2) ∧
      weighGroups weightFn radix leaves = before ++ (g.1 ++ light, g.2) :: after := by
  have hordered := sortWeighted_ordered weightFn leaves
  obtain ⟨heavy, light, hsorted, hheavy, hlight⟩ := exists_append_of_pairwise hordered.pairwise
  rw [hsorted] at hordered
  have hdealt : Dealt weightFn radix ([] ++ heavy.map WeightedLeaf.leaf) _ :=
    Dealt.init.foldl hradix fun wl hwl => hordered.weight wl (mem_append_left _ hwl)
  have hzero : ∀ wl ∈ light, wl.weight = 0 := by
    intro wl hwl
    have hweight := hordered.weight wl (mem_append_right _ hwl)
    have hle := hlight wl hwl
    rw [clipped] at hweight
    omega
  obtain ⟨before, g, after, hgroups, hmin, hfold⟩ := hdealt.light hradix hzero
  refine ⟨heavy.map WeightedLeaf.leaf, light.map WeightedLeaf.leaf, before, g, after, ?_, ?_, ?_,
    hgroups ▸ hdealt, hgroups ▸ hmin, ?_⟩
  · rw [← map_append]
    exact hordered.perm
  · intro l hl
    obtain ⟨wl, hwl, rfl⟩ := mem_map.1 hl
    rw [← Bool.not_eq_true, ← clipped_le_zero, ← hordered.weight wl (mem_append_left _ hwl)]
    exact not_le.2 (hheavy wl hwl)
  · intro l hl
    obtain ⟨wl, hwl, rfl⟩ := mem_map.1 hl
    rw [← clipped_le_zero, ← hordered.weight wl (mem_append_right _ hwl)]
    exact hlight wl hwl
  · rw [weighGroups, hsorted, foldl_append, hfold]

theorem light_together (hradix : 2 ≤ radix) (hlight : 0 < leaves.countP (isLight weightFn)) :
    ∃ g ∈ partitionLeavesByWeight leaves radix weightFn,
      leaves.countP (isLight weightFn) ≤ g.countP (isLight weightFn) := by
  obtain ⟨heavy, light, before, g, after, hperm, hheavy, -, -, -, hgroups⟩ :=
    weighGroups_light weightFn leaves hradix
  have hcount : leaves.countP (isLight weightFn) = light.countP (isLight weightFn) := by
    rw [← hperm.countP_eq, countP_append, Nat.add_eq_right, countP_eq_zero]
    intro l hl
    rw [hheavy l hl]
    exact Bool.false_ne_true
  rw [hcount] at hlight ⊢
  refine ⟨g.1 ++ light, ?_, ?_⟩
  · rw [partitionLeavesByWeight_eq, hgroups, mem_filter, mem_map]
    refine ⟨⟨_, mem_append_right _ mem_cons_self, rfl⟩, ?_⟩
    obtain ⟨l, hl, -⟩ := countP_pos_iff.1 hlight
    simp [ne_nil_of_mem hl]
  · rw [countP_append]
    exact Nat.le_add_left _ _

end

end Wavelength.Vtxotree
