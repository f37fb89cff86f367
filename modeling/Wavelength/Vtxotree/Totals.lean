import Wavelength.Vtxotree.Termination

/-! # Totals

The amount of a branch is the sum of the amounts of its children in 64-bit integers. Where the
total of all leaves fits, so does the total of every branch: only one leaf can have a negative
amount, and it goes to the group whose total has wrapped around.
-/

namespace Wavelength.Vtxotree

open List

variable {children : List (ℕ × Rose ℕ Shape)} {shape : Shape}

def IsInt64 (a : ℤ) : Prop := -2 ^ 63 ≤ a ∧ a ≤ maxInt64

instance (a : ℤ) : Decidable (IsInt64 a) := inferInstanceAs (Decidable (_ ∧ _))

theorem isInt64_bmod (a : ℤ) : IsInt64 (a.bmod (2 ^ 64)) := by
  have hlow := Int.le_bmod (x := a) (m := 2 ^ 64) (by decide)
  have hhigh := Int.bmod_lt (x := a) (m := 2 ^ 64) (by decide)
  unfold IsInt64 maxInt64
  omega

theorem IsInt64.bmod_eq (h : IsInt64 a) : a.bmod (2 ^ 64) = a := by
  unfold IsInt64 maxInt64 at h
  apply Int.bmod_eq_of_le <;> omega

theorem foldl_add64_eq_bmod (hstart : IsInt64 start) (amounts : List ℤ) :
    amounts.foldl add64 start = (start + amounts.sum).bmod (2 ^ 64) := by
  induction amounts generalizing start with
  | nil => rw [foldl_nil, sum_nil, add_zero, hstart.bmod_eq]
  | cons a amounts ih =>
    rw [foldl_cons, add64, ih (isInt64_bmod _), sum_cons, Int.bmod_add_bmod, add_assoc]

theorem bmod_neg (hlow : maxInt64 < a) (hhigh : a < 2 ^ 64) : a.bmod (2 ^ 64) < 0 := by
  unfold maxInt64 at hlow
  rw [Int.bmod_def, Int.emod_eq_of_lt (by omega) (by simpa using hhigh), if_neg]
  · simp only [Nat.cast_pow, Nat.cast_ofNat]
    omega
  · simp only [Nat.cast_pow, Nat.cast_ofNat]
    omega

/-! ## The totals of the groups -/

section

variable {leaves heavy : List LeafDescriptor} {before after : List Group}

def amounts (ls : List LeafDescriptor) : ℤ := (ls.map LeafDescriptor.amount).sum

@[simp] theorem amounts_append (ls ls' : List LeafDescriptor) :
    amounts (ls ++ ls') = amounts ls + amounts ls' := by
  rw [amounts, map_append, sum_append]
  rfl

theorem amounts_perm (h : ls.Perm ls') : amounts ls = amounts ls' := (h.map _).sum_eq

theorem amounts_nonneg (h : ∀ l ∈ ls, 0 < l.amount) : 0 ≤ amounts ls := sum_nonneg_of_pos h

/-- The weight of a group of heavy leaves is their total, wrapped around. -/
theorem Dealt.weight_heavy (h : Dealt LeafDescriptor.amount radix heavy groups)
    (hheavy : ∀ l ∈ heavy, 0 < l.amount) (hg : g ∈ groups) :
    (∀ l ∈ g.1, 0 < l.amount) ∧ g.2 = (amounts g.1).bmod (2 ^ 64) := by
  have hpos : ∀ l ∈ g.1, 0 < l.amount := fun l hl =>
    hheavy l (h.perm.mem_iff.1 (mem_flatMap.2 ⟨g, hg, hl⟩))
  refine ⟨hpos, ?_⟩
  rw [h.weight g hg, amounts]
  congr 2
  exact map_congr_left fun l hl => max_eq_right (hpos l hl).le

theorem Dealt.amounts_le (h : Dealt LeafDescriptor.amount radix heavy (before ++ g :: after))
    (hheavy : ∀ l ∈ heavy, 0 < l.amount) :
    (amounts g.1 ≤ amounts heavy) ∧
      ∀ g' ∈ before ++ after, amounts g.1 + amounts g'.1 ≤ amounts heavy := by
  have hperm : (g.1 ++ (before ++ after).flatMap Prod.fst).Perm heavy := by
    refine Perm.trans ?_ h.perm
    rw [flatMap_append, flatMap_append, flatMap_cons]
    exact perm_append_comm_assoc _ _ _
  have hall : ∀ l ∈ (before ++ after).flatMap Prod.fst, 0 < l.amount := fun l hl =>
    hheavy l (hperm.mem_iff.1 (mem_append_right _ hl))
  rw [← amounts_perm hperm, amounts_append]
  constructor
  · exact le_add_of_nonneg_right (amounts_nonneg hall)
  intro g' hg'
  apply add_le_add_right
  have hsub : g'.1.Sublist ((before ++ after).flatMap Prod.fst) :=
    sublist_flatten_of_mem (mem_map_of_mem hg')
  apply (hsub.map LeafDescriptor.amount).sum_le_sum
  intro a ha
  obtain ⟨l, hl, rfl⟩ := mem_map.1 ha
  exact (hall l hl).le

theorem group_isInt64 (hradix : 2 ≤ radix) (hrange : ∀ l ∈ leaves, IsInt64 l.amount)
    (hlight : leaves.countP (isLight LeafDescriptor.amount) ≤ 1) (htotal : IsInt64 (amounts leaves))
    (hls : ls ∈ partitionLeavesByWeight leaves radix LeafDescriptor.amount) :
    IsInt64 (amounts ls) := by
  obtain ⟨heavy, light, before, g, after, hperm, hheavy, hl, hdealt, hmin, hgroups⟩ :=
    weighGroups_light LeafDescriptor.amount leaves hradix
  have hheavy : ∀ l ∈ heavy, 0 < l.amount := fun l hl => by simpa using hheavy l hl
  have hpositive := amounts_nonneg hheavy
  have hsplit : amounts heavy + amounts light = amounts leaves := by
    rw [← amounts_perm hperm, amounts_append]
  -- The light leaves are at most one leaf.
  have hlow : -2 ^ 63 ≤ amounts light ∧ amounts light ≤ 0 := by
    have hcount : light.length ≤ 1 := by
      rw [← hperm.countP_eq, countP_append, countP_eq_length.2 hl] at hlight
      omega
    match light, hcount with
    | [], _ => decide
    | [l], _ =>
      have hle : l.amount ≤ 0 := by simpa using hl l mem_cons_self
      have := hrange l (hperm.mem_iff.1 (by simp))
      rw [amounts, map_singleton, sum_singleton]
      exact ⟨this.1, hle⟩
  obtain ⟨hle, hpair⟩ := hdealt.amounts_le hheavy
  obtain ⟨hpos, hweight⟩ := hdealt.weight_heavy hheavy (g := g) (by simp)
  have hnonneg := amounts_nonneg hpos
  unfold IsInt64 maxInt64 at htotal
  have hother : ∀ g' ∈ before ++ after, IsInt64 (amounts g'.1) := by
    intro g' hg'
    have hmem : g' ∈ before ++ g :: after := by
      simp only [mem_append, mem_cons] at hg' ⊢
      exact hg'.imp_right .inr
    obtain ⟨hpos', hweight'⟩ := hdealt.weight_heavy hheavy hmem
    have hnonneg' := amounts_nonneg hpos'
    have hsum := hpair g' hg'
    refine ⟨by omega, ?_⟩
    by_contra hlt
    -- The other group has wrapped around, but then it is the lighter one.
    have hneg := bmod_neg (not_le.1 hlt) (by omega)
    have hlighter := hmin g' hmem
    unfold maxInt64 at hlt
    have hexact : IsInt64 (amounts g.1) := by
      unfold IsInt64 maxInt64
      omega
    rw [hweight, hweight', hexact.bmod_eq] at hlighter
    omega
  rw [partitionLeavesByWeight_eq, hgroups] at hls
  obtain ⟨g', hg', rfl⟩ := mem_map.1 (mem_filter.1 hls).1
  rcases mem_append.1 hg' with hg' | hg'
  · exact hother g' (mem_append_left _ hg')
  rcases mem_cons.1 hg' with rfl | hg'
  · unfold IsInt64 maxInt64
    rw [amounts_append]
    omega
  · exact hother g' (mem_append_right _ hg')

end

/-! ## The structure -/

theorem forall₂_imp_of_mem {α β : Type} {R S : α → β → Prop} {l₁ : List α} {l₂ : List β}
    (h : Forall₂ R l₁ l₂) (himp : ∀ a ∈ l₁, ∀ b, R a b → S a b) : Forall₂ S l₁ l₂ := by
  refine ((forall₂_and_left _ _).2 ⟨fun a ha => ha, h⟩).imp ?_
  exact fun a b hab => himp a hab.1 b hab.2

/-- The amount of a branch is the exact sum of those of its children. -/
def Shape.Sums (shape : Shape) (children : List Shape) : Prop :=
  children ≠ [] → (children.map Shape.amount).sum = shape.amount

def NodeData.Sums (d : NodeData) (children : List NodeData) : Prop :=
  children ≠ [] → (children.map NodeData.amount).sum = d.amount

section

variable {leaves : List LeafDescriptor}

theorem buildChildren_eq_ok (hne : ∀ g ∈ groups, g ≠ [])
    (h : buildChildren build i groups = .ok children) :
    children.map Prod.fst = range' i children.length ∧
      Forall₂ (fun g c => build g = .ok c.2) groups children := by
  induction groups generalizing i children with
  | nil =>
    cases h
    exact ⟨rfl, .nil⟩
  | cons g groups ih =>
    rw [forall_mem_cons] at hne
    rw [buildChildren, if_neg (by simpa using hne.1)] at h
    obtain ⟨child, hchild, h⟩ := bind_eq_ok.1 h
    obtain ⟨rest, hrest, h⟩ := bind_eq_ok.1 h
    cases h
    obtain ⟨hkeys, hall⟩ := ih hne.2 hrest
    exact ⟨congrArg (i :: ·) hkeys, .cons hchild hall⟩

/-- The last call, on one leaf or on the groups of a partition. -/
theorem buildStructureRecursive_eq_ok
    (h : buildStructureRecursive operator radix LeafDescriptor.amount fuel leaves = .ok t) :
    (∃ leaf, leaves = [leaf] ∧ t = buildLeafStructure leaf operator) ∨
      ∃ fuel' children, fuel = fuel' + 1 ∧ t = buildBranch operator children ∧
        children.map Prod.fst = range' 0 children.length ∧
        Forall₂ (fun g c =>
            buildStructureRecursive operator radix LeafDescriptor.amount fuel' g = .ok c.2)
          (partitionLeavesByWeight leaves radix LeafDescriptor.amount) children := by
  unfold buildStructureRecursive at h
  split at h
  · cases h
    exact .inl ⟨_, rfl, rfl⟩
  · cases h
  obtain ⟨children, hchildren, h⟩ := bind_eq_ok.1 h
  cases h
  exact .inr ⟨_, children, rfl, rfl,
    buildChildren_eq_ok (fun g hg => by simpa using (mem_filter.1 hg).2) hchildren⟩

theorem isInt64_root (hrange : ∀ l ∈ leaves, IsInt64 l.amount)
    (h : buildStructureRecursive operator radix LeafDescriptor.amount fuel leaves = .ok t) :
    IsInt64 t.label.amount := by
  rcases buildStructureRecursive_eq_ok h with ⟨leaf, rfl, rfl⟩ | ⟨fuel', children, -, rfl, -⟩
  · exact hrange leaf mem_cons_self
  rw [buildBranch, Rose.label_node]
  dsimp only
  rw [foldl_add64_eq_bmod (by decide)]
  exact isInt64_bmod _

theorem sums_leaf (leaf : LeafDescriptor) :
    (buildLeafStructure leaf operator).Locally Shape.Sums ∧
      (buildLeafStructure leaf operator).label.amount = amounts [leaf] := by
  rw [buildLeafStructure, Rose.locally_node]
  simp [Shape.Sums, amounts]

theorem sum_groups (h : Forall₂ (fun g c => c.2.label.amount = amounts g) groups children) :
    (children.map (·.2.label.amount)).sum = amounts groups.flatten := by
  induction h with
  | nil => rfl
  | cons hc _ ih => rw [map_cons, sum_cons, flatten_cons, amounts_append, hc, ih]

theorem sums_of_isInt64 (hradix : 2 ≤ radix) (hrange : ∀ l ∈ leaves, IsInt64 l.amount)
    (hlight : leaves.countP (isLight LeafDescriptor.amount) ≤ 1) (htotal : IsInt64 (amounts leaves))
    (h : buildStructureRecursive operator radix LeafDescriptor.amount fuel leaves = .ok t) :
    t.Locally Shape.Sums ∧ t.label.amount = amounts leaves := by
  induction fuel using Nat.strong_induction_on generalizing leaves t with
  | _ fuel ih =>
    rcases buildStructureRecursive_eq_ok h with ⟨leaf, rfl, rfl⟩ | ⟨fuel', children, rfl, rfl, -, hall⟩
    · exact sums_leaf leaf
    have hperm := partitionLeavesByWeight_perm LeafDescriptor.amount leaves hradix
    have hbelow : Forall₂
        (fun g c => c.2.Locally Shape.Sums ∧ c.2.label.amount = amounts g)
        (partitionLeavesByWeight leaves radix LeafDescriptor.amount) children := by
      refine forall₂_imp_of_mem hall fun g hg c hbuild => ?_
      have hsub := sublist_flatten_of_mem hg
      apply ih fuel' (Nat.lt_succ_self _) _ _ _ hbuild
      · exact fun l hl => hrange l (hperm.mem_iff.1 (hsub.subset hl))
      · exact (hsub.countP_le.trans_eq (hperm.countP_eq _)).trans hlight
      · exact group_isInt64 hradix hrange hlight htotal hg
    have hsum : (children.map (·.2.label.amount)).sum = amounts leaves :=
      (sum_groups (hbelow.imp fun _ _ h => h.2)).trans (amounts_perm hperm)
    have hamount : (buildBranch operator children).label.amount = amounts leaves := by
      rw [buildBranch, Rose.label_node, foldl_add64_eq_bmod (by decide), zero_add, hsum,
        htotal.bmod_eq]
    refine ⟨Rose.locally_node.2 ⟨?_, ?_⟩, hamount⟩
    · intro _
      rw [map_map]
      exact hsum.trans hamount.symm
    · intro c hc
      obtain ⟨g, -, h⟩ := exists_of_forall₂ hbelow hc
      exact h.1

end

/-! ## The transactions -/

section

theorem materialize_eq_ok (h : materialize crypto tweak input (.node shape children) = .ok n) :
    (children = [] ∧ ∃ d, materializeLeaf crypto tweak input shape = .ok d ∧ n = .node d []) ∨
      (children ≠ [] ∧ ∃ d nodes,
        materializeBranch crypto tweak input shape (children.map (·.2.label)) = .ok d ∧
        materializeChildren crypto tweak (d.txid crypto) 0 children = .ok nodes ∧
        n = .node d nodes) := by
  rw [materialize] at h
  split at h
  · next hempty =>
    obtain ⟨d, hd, h⟩ := bind_eq_ok.1 h
    cases h
    exact .inl ⟨isEmpty_iff.1 hempty, d, hd, rfl⟩
  next hne =>
  obtain ⟨d, hd, h⟩ := bind_eq_ok.1 h
  obtain ⟨nodes, hnodes, h⟩ := bind_eq_ok.1 h
  cases h
  exact .inr ⟨by simpa using hne, d, nodes, hd, hnodes, rfl⟩

theorem materializeChildren_eq_ok
    (h : materializeChildren crypto tweak txHash i children = .ok nodes) :
    Forall₂ (fun p q => q.1 = p.1 ∧ ∃ input, materialize crypto tweak input p.2 = .ok q.2)
      children nodes := by
  induction children generalizing i nodes with
  | nil =>
    cases h
    exact .nil
  | cons p children ih =>
    rw [materializeChildren] at h
    obtain ⟨node, hnode, h⟩ := bind_eq_ok.1 h
    obtain ⟨rest, hrest, h⟩ := bind_eq_ok.1 h
    cases h
    exact .cons ⟨rfl, _, hnode⟩ (ih hrest)

/-- What a transaction takes over from the structure. -/
structure Shape.Kept (shape : Shape) (d : NodeData) : Prop where
  coSigners : d.coSigners = shape.coSigners
  amount : d.amount = shape.amount

theorem materializeLeaf_eq_ok (h : materializeLeaf crypto tweak input shape = .ok d) :
    shape.Kept d ∧ d.outputs = [⟨shape.amount, shape.leafScript⟩, anchorOutput] := by
  obtain ⟨_, -, h⟩ := bind_eq_ok.1 h
  obtain ⟨_, -, h⟩ := bind_eq_ok.1 h
  cases h
  exact ⟨⟨rfl, rfl⟩, rfl⟩

theorem materializeBranch_kept {children : List Shape}
    (h : materializeBranch crypto tweak input shape children = .ok d) : shape.Kept d := by
  obtain ⟨_, -, h⟩ := bind_eq_ok.1 h
  obtain ⟨_, -, h⟩ := bind_eq_ok.1 h
  cases h
  exact ⟨rfl, rfl⟩

/-- What holds at each node of the structure holds at each node of the tree. -/
theorem materialize_locally {P : Shape → List Shape → Prop} {Q : NodeData → List NodeData → Prop}
    (hPQ : ∀ shape d shapes ds, Shape.Kept shape d → Forall₂ Shape.Kept shapes ds →
      P shape shapes → Q d ds)
    (h : materialize crypto tweak input t = .ok n) :
    t.label.Kept n.label ∧ (t.Locally P → n.Locally Q) := by
  induction t using Rose.ind generalizing input n with
  | node shape children ih =>
    rcases materialize_eq_ok h with ⟨rfl, d, hd, rfl⟩ | ⟨hne, d, nodes, hd, hnodes, rfl⟩
    · have hkept := (materializeLeaf_eq_ok hd).1
      refine ⟨hkept, fun hlocal => ?_⟩
      rw [Rose.locally_node] at hlocal ⊢
      exact ⟨hPQ _ _ _ _ hkept .nil hlocal.1, by simp⟩
    have hkept := materializeBranch_kept hd
    refine ⟨hkept, fun hlocal => ?_⟩
    rw [Rose.locally_node] at hlocal ⊢
    have hbelow : Forall₂ (fun p q => p.2.label.Kept q.2.label ∧ q.2.Locally Q) children nodes := by
      refine forall₂_imp_of_mem (materializeChildren_eq_ok hnodes) ?_
      rintro p hp q ⟨-, input, hq⟩
      obtain ⟨hlabel, hlocally⟩ := ih p hp hq
      exact ⟨hlabel, hlocally (hlocal.2 p hp)⟩
    constructor
    · refine hPQ _ _ _ _ hkept ?_ hlocal.1
      rw [forall₂_map_left_iff, forall₂_map_right_iff]
      exact hbelow.imp fun _ _ h => h.1
    · intro q hq
      obtain ⟨p, -, h⟩ := exists_of_forall₂ hbelow hq
      exact h.2

theorem Shape.Sums.kept (hd : shape.Kept d) (hds : Forall₂ Shape.Kept shapes ds)
    (h : shape.Sums shapes) : d.Sums ds := by
  intro hne
  have hamounts : ds.map NodeData.amount = shapes.map Shape.amount := by
    rw [← forall₂_eq_eq_eq, forall₂_map_left_iff, forall₂_map_right_iff]
    exact hds.flip.imp fun _ _ h => h.amount
  rw [hamounts, hd.amount]
  apply h
  rintro rfl
  cases hds
  exact hne rfl

theorem buildTree_eq_ok
    (h : buildTree crypto tweak operator radix rootInput rootOutput leaves = .ok tree) :
    ∃ radix' shape, 2 ≤ radix' ∧ leaves ≠ [] ∧
      buildStructureRecursive operator radix' LeafDescriptor.amount leaves.length leaves =
        .ok shape ∧
      shape.label.amount = rootOutput.value ∧
      materialize crypto tweak rootInput shape = .ok tree.root := by
  simp only [buildTree, bind_eq_ok, require_eq_ok, exists_const] at h
  obtain ⟨hne, hradix, shape, hshape, hamount, root, hroot, h⟩ := h
  cases h
  refine ⟨_, shape, ?_, hne, hshape, hamount, hroot⟩
  unfold defaultRadix at hradix ⊢
  split <;> omega

variable {crypto : Crypto} {tweak : List UInt8}

end

end Wavelength.Vtxotree
