import Mathlib.Data.List.Forall2
import Wavelength.Vtxotree.Partition

/-! # Termination of the structure builder

The builder calls itself on the groups of a partition. By count every group is smaller than the
whole. By weight the leaves that have no weight stay in one group, whatever the radix, and two of
them are never separated.
-/

namespace Wavelength.Vtxotree

open List

/-! ## Partition by count -/

theorem nextWithCapacity_eq_none (hidx : idx < caps.length)
    (h : nextWithCapacity caps fuel idx = none) :
    ∀ k < fuel, caps.getD ((idx + k) % caps.length) 0 = 0 := by
  induction fuel generalizing idx with
  | zero => exact fun k hk => absurd hk (Nat.not_lt_zero k)
  | succ fuel ih =>
    rw [nextWithCapacity] at h
    split at h
    · next hzero =>
      intro k hk
      cases k with
      | zero =>
        rw [Nat.add_zero, Nat.mod_eq_of_lt hidx]
        exact hzero
      | succ k =>
        have hnext := ih (Nat.mod_lt _ (Nat.zero_lt_of_lt hidx)) h k (by omega)
        rwa [Nat.mod_add_mod, Nat.add_assoc, Nat.add_comm 1 k] at hnext
    · cases h

theorem nextWithCapacity_eq_some (h : nextWithCapacity caps fuel idx = some i) :
    caps.getD i 0 ≠ 0 := by
  induction fuel generalizing idx with
  | zero => cases h
  | succ fuel ih =>
    rw [nextWithCapacity] at h
    split at h
    · exact ih h
    · next hne =>
      cases h
      exact hne

theorem exists_nextWithCapacity (hidx : idx < caps.length) (hsum : caps.sum ≠ 0) :
    ∃ i, nextWithCapacity caps caps.length idx = some i := by
  rw [← Option.ne_none_iff_exists']
  intro hnone
  have hzero := nextWithCapacity_eq_none hidx hnone
  apply hsum
  apply sum_eq_zero
  intro cap hcap
  obtain ⟨j, hj, rfl⟩ := getElem_of_mem hcap
  -- Some turn of the loop looks at the group `j`.
  have hturn := hzero ((j + caps.length - idx) % caps.length) (Nat.mod_lt _ (by omega))
  rw [Nat.add_mod_mod, show idx + (j + caps.length - idx) = j + caps.length by omega,
    Nat.add_mod_right, Nat.mod_eq_of_lt hj] at hturn
  simpa [getD_eq_getElem?_getD, hj] using hturn

theorem exists_of_forall₂ {α β : Type} {R : α → β → Prop} {l₁ : List α} {l₂ : List β}
    (h : Forall₂ R l₁ l₂) {b : β} (hb : b ∈ l₂) : ∃ a ∈ l₁, R a b := by
  induction h with
  | nil => exact absurd hb not_mem_nil
  | cons hR _ ih =>
    rcases mem_cons.1 hb with rfl | hb
    · exact ⟨_, mem_cons_self, hR⟩
    · obtain ⟨a, ha, hR⟩ := ih hb
      exact ⟨a, mem_cons_of_mem _ ha, hR⟩

/-- Every group and its capacity stay below a bound. -/
def Within (bound : ℕ) (groups : List (List LeafDescriptor)) (caps : List ℕ) : Prop :=
  List.Forall₂ (fun g cap => g.length + cap ≤ bound) groups caps

theorem Within.take (h : Within bound groups caps) (hcap : caps.getD i 0 ≠ 0)
    (leaf : LeafDescriptor) :
    Within bound (groups.modify i (· ++ [leaf])) (caps.modify i (· - 1)) ∧
      (caps.modify i (· - 1)).sum + 1 = caps.sum := by
  induction h generalizing i with
  | nil => simp at hcap
  | @cons g cap groups caps hle hrest ih =>
    cases i with
    | zero =>
      simp only [getD_cons_zero] at hcap
      constructor
      · refine .cons ?_ hrest
        rw [length_append, length_singleton]
        dsimp only
        omega
      · simp only [modify_zero_cons, sum_cons]
        omega
    | succ i =>
      rw [getD_cons_succ] at hcap
      obtain ⟨hwithin, hsum⟩ := ih hcap
      constructor
      · exact .cons hle hwithin
      · simp only [modify_succ_cons, sum_cons]
        omega

theorem dealLeaves_spec (h : Within bound groups caps) (hidx : idx < caps.length)
    (hsum : caps.sum = leaves.length) :
    ∃ groups', dealLeaves groups caps idx leaves = some groups' ∧
      ∀ g ∈ groups', g.length ≤ bound := by
  induction leaves generalizing groups caps idx with
  | nil =>
    refine ⟨groups, rfl, ?_⟩
    intro g hg
    obtain ⟨cap, -, hle⟩ := exists_of_forall₂ h.flip hg
    exact (Nat.le_add_right _ _).trans hle
  | cons leaf rest ih =>
    obtain ⟨i, hi⟩ := exists_nextWithCapacity hidx (by rw [hsum]; simp)
    obtain ⟨hwithin, hrest⟩ := h.take (nextWithCapacity_eq_some hi) leaf
    have hlength : (caps.modify i (· - 1)).length = caps.length := length_modify _ _ _
    rw [dealLeaves, hi, ← hlength]
    refine ih hwithin (Nat.mod_lt _ (by omega)) ?_
    rw [length_cons] at hsum
    omega

theorem sum_extra (h : extra ≤ n) :
    ((range n).map fun i => if i < extra then 1 else 0).sum = extra := by
  induction n with
  | zero => exact (Nat.le_zero.1 h).symm
  | succ n ih =>
    rw [range_succ, map_append, sum_append, map_singleton, sum_singleton]
    rcases Nat.lt_or_eq_of_le h with hlt | rfl
    · rw [ih (by omega), if_neg (by omega), Nat.add_zero]
    have hall : (range n).map (fun i => if i < n + 1 then 1 else 0) = (range n).map fun _ => 1 := by
      refine map_congr_left fun i hi => if_pos ?_
      have := mem_range.1 hi
      omega
    rw [hall, if_pos (Nat.lt_succ_self n)]
    simp

theorem partitionLeavesByCount_spec (hradix : 2 ≤ radix) (hlen : 2 ≤ leaves.length) :
    ∃ groups, partitionLeavesByCount leaves radix = some groups ∧
      ∀ g ∈ groups, g.length < leaves.length := by
  unfold partitionLeavesByCount
  extract_lets m sizes
  have hm : m = leaves.length := rfl
  split
  · refine ⟨_, rfl, ?_⟩
    intro g hg
    obtain ⟨leaf, -, rfl⟩ := mem_map.1 hg
    rw [length_singleton]
    omega
  · next hlt =>
    have hdiv : m / radix ≤ m / 2 := Nat.div_le_div_left hradix (by omega)
    have hwithin : Within (m / radix + 1) (replicate radix []) sizes := by
      rw [← length_range (n := radix), ← map_const', length_range]
      apply forall₂_map_left_iff.2 (forall₂_map_right_iff.2 (forall₂_same.2 _))
      intro i _
      split <;> simp
    have hsum : sizes.sum = leaves.length := by
      rw [sum_map_add, sum_extra (Nat.mod_lt m (by omega)).le, map_const',
        sum_replicate_nat, length_range, Nat.div_add_mod]
    have hidx : 0 < sizes.length := by
      rw [length_map, length_range]
      omega
    obtain ⟨groups, hdeal, hle⟩ := dealLeaves_spec hwithin hidx hsum
    rw [hdeal]
    dsimp only
    split
    · refine ⟨_, rfl, ?_⟩
      intro g hg
      simp only [mem_cons, not_mem_nil, or_false] at hg
      rcases hg with rfl | rfl
      · rw [length_take]
        omega
      · rw [length_drop]
        omega
    · refine ⟨_, rfl, ?_⟩
      intro g hg
      have := hle g (mem_filter.1 hg).1
      omega

/-! ## The calls of the builder -/

/-- The builder on `leaves` calls itself on `group`. -/
def Calls (radix : ℕ) (weightFn : Option (LeafDescriptor → ℤ))
    (leaves group : List LeafDescriptor) : Prop :=
  leaves.length ≠ 1 ∧
    ∃ groups, partitionLeaves leaves radix weightFn = some groups ∧ group ∈ groups ∧ group ≠ []

/-- Every call below the one on `leaves` is made on fewer leaves than its caller has. -/
def Shrinks (radix : ℕ) (weightFn : Option (LeafDescriptor → ℤ)) (leaves : List LeafDescriptor) :
    Prop :=
  ∀ ls, Relation.ReflTransGen (Calls radix weightFn) leaves ls →
    ∀ group, Calls radix weightFn ls group → group.length < ls.length

/-- The builder comes to its end on `leaves`. -/
inductive Terminates (radix : ℕ) (weightFn : Option (LeafDescriptor → ℤ)) :
    List LeafDescriptor → Prop where
  | leaf (leaf : LeafDescriptor) : Terminates radix weightFn [leaf]
  | branch {leaves : List LeafDescriptor} {groups : List (List LeafDescriptor)}
      (length : leaves.length ≠ 1) (partition : partitionLeaves leaves radix weightFn = some groups)
      (calls : ∀ g ∈ groups, g ≠ [] → Terminates radix weightFn g) :
      Terminates radix weightFn leaves

section

variable {radix : ℕ} {leaves : List LeafDescriptor}

variable (leaves) in
theorem exists_partitionLeaves (hradix : 2 ≤ radix) (weightFn : Option (LeafDescriptor → ℤ))
    (hlen : 2 ≤ leaves.length) : ∃ groups, partitionLeaves leaves radix weightFn = some groups := by
  cases weightFn with
  | none =>
    obtain ⟨groups, hgroups, -⟩ := partitionLeavesByCount_spec hradix hlen
    exact ⟨groups, hgroups⟩
  | some weightFn => exact ⟨_, rfl⟩

theorem Shrinks.calls {weightFn : Option (LeafDescriptor → ℤ)} (h : Shrinks radix weightFn leaves)
    (hcall : Calls radix weightFn leaves group) : Shrinks radix weightFn group :=
  fun ls hls => h ls (.head hcall hls)

theorem Shrinks.terminates (hradix : 2 ≤ radix) {weightFn : Option (LeafDescriptor → ℤ)}
    (hne : leaves ≠ []) (h : Shrinks radix weightFn leaves) : Terminates radix weightFn leaves := by
  induction hlen : leaves.length using Nat.strong_induction_on generalizing leaves with
  | _ n ih =>
    match leaves, hne with
    | [leaf], _ => exact .leaf leaf
    | first :: second :: rest, _ =>
      obtain ⟨groups, hgroups⟩ :=
        exists_partitionLeaves (first :: second :: rest) hradix weightFn (by simp)
      refine .branch (by simp) hgroups fun g hg hgne => ?_
      have hcall : Calls radix weightFn (first :: second :: rest) g :=
        ⟨by simp, groups, hgroups, hg, hgne⟩
      exact ih g.length (hlen ▸ h _ .refl g hcall) hgne (h.calls hcall) rfl

theorem Terminates.light (hradix : 2 ≤ radix)
    (h : Terminates radix (some weightFn) leaves) : leaves.countP (isLight weightFn) ≤ 1 := by
  induction h with
  | leaf leaf => exact countP_le_length.trans le_rfl
  | @branch leaves groups length partition calls ih =>
    by_contra hlight
    cases partition
    obtain ⟨g, hg, hcount⟩ := light_together hradix (by omega : 0 < leaves.countP (isLight weightFn))
    have hgne : g ≠ [] := by
      rintro rfl
      rw [countP_nil] at hcount
      omega
    have := ih g hg hgne
    omega

theorem buildChildren_isOk :
    (∃ children, buildChildren build i groups = .ok children) ↔
      ∀ g ∈ groups, g ≠ [] → ∃ child, build g = .ok child := by
  induction groups generalizing i with
  | nil => exact ⟨by simp, fun _ => ⟨[], rfl⟩⟩
  | cons g groups ih =>
    rw [buildChildren, forall_mem_cons, ← @ih (i + 1)]
    rcases eq_or_ne g [] with rfl | hg
    · simp
    rw [if_neg (by simpa using hg)]
    simp only [bind_eq_ok, hg, ne_eq, not_false_eq_true, true_imp_iff]
    constructor
    · rintro ⟨_, child, hchild, children, hchildren, -⟩
      exact ⟨⟨child, hchild⟩, children, hchildren⟩
    · rintro ⟨⟨child, hchild⟩, children, hchildren⟩
      exact ⟨_, child, hchild, children, hchildren, rfl⟩

theorem buildStructureRecursive_succ (hlen : leaves.length ≠ 1) :
    (∃ shape, buildStructureRecursive operator radix weightFn (fuel + 1) leaves = .ok shape) ↔
      ∀ g ∈ partitionLeavesByWeight leaves radix weightFn, g ≠ [] →
        ∃ shape, buildStructureRecursive operator radix weightFn fuel g = .ok shape := by
  have hsucc : buildStructureRecursive operator radix weightFn (fuel + 1) leaves =
      buildChildren (buildStructureRecursive operator radix weightFn fuel) 0
        (partitionLeavesByWeight leaves radix weightFn) >>= fun children =>
          .ok (buildBranch operator children) := by
    rw [buildStructureRecursive]
    · rfl
    · rintro leaf rfl
      exact hlen rfl
  rw [hsucc, ← buildChildren_isOk]
  simp only [bind_eq_ok]
  constructor
  · rintro ⟨_, children, hchildren, -⟩
    exact ⟨children, hchildren⟩
  · rintro ⟨children, hchildren⟩
    exact ⟨_, children, hchildren, rfl⟩

/-- A result of the builder, with whatever fuel, is a terminating run of it. -/
theorem terminates_of_build
    (h : ∃ shape, buildStructureRecursive operator radix weightFn fuel leaves = .ok shape) :
    Terminates radix (some weightFn) leaves := by
  induction fuel generalizing leaves with
  | zero =>
    obtain ⟨shape, h⟩ := h
    match leaves, h with
    | [leaf], _ => exact .leaf leaf
  | succ fuel ih =>
    by_cases hlen : leaves.length = 1
    · obtain ⟨leaf, rfl⟩ := length_eq_one_iff.1 hlen
      exact .leaf leaf
    · rw [buildStructureRecursive_succ hlen] at h
      exact .branch hlen rfl fun g hg hne => ih (h g hg hne)

/-- Where every call is smaller than its caller, as much fuel as there are leaves is enough. -/
theorem Shrinks.build (h : Shrinks radix (some weightFn) leaves) (hne : leaves ≠ [])
    (hfuel : leaves.length ≤ fuel) :
    ∃ shape, buildStructureRecursive operator radix weightFn fuel leaves = .ok shape := by
  induction fuel generalizing leaves with
  | zero => exact absurd (eq_nil_of_length_eq_zero (Nat.le_zero.1 hfuel)) hne
  | succ fuel ih =>
    by_cases hlen : leaves.length = 1
    · obtain ⟨leaf, rfl⟩ := length_eq_one_iff.1 hlen
      exact ⟨_, rfl⟩
    rw [buildStructureRecursive_succ hlen]
    intro g hg hgne
    have hcall : Calls radix (some weightFn) leaves g := ⟨hlen, _, rfl, hg, hgne⟩
    have := h _ .refl g hcall
    exact ih (h.calls hcall) hgne (by omega)

/-! ## When the builder terminates -/

theorem shrinks_of_invariant {weightFn : Option (LeafDescriptor → ℤ)}
    {I : List LeafDescriptor → Prop} (hI : I leaves)
    (hcall : ∀ ls g, I ls → Calls radix weightFn ls g → I g ∧ g.length < ls.length) :
    Shrinks radix weightFn leaves := by
  intro ls hreach
  have hls : I ls := by
    induction hreach with
    | refl => exact hI
    | tail _ hstep ih => exact (hcall _ _ ih hstep).1
  exact fun g hg => (hcall ls g hls hg).2

theorem two_le_length (hne : leaves ≠ []) (hlen : leaves.length ≠ 1) : 2 ≤ leaves.length := by
  have := length_pos_iff.2 hne
  omega

theorem shrinks_count (hradix : 2 ≤ radix) (hne : leaves ≠ []) : Shrinks radix none leaves := by
  apply shrinks_of_invariant (I := (· ≠ [])) hne
  rintro ls g hls ⟨hlen, groups, hgroups, hg, hgne⟩
  obtain ⟨groups', hgroups', hsmaller⟩ :=
    partitionLeavesByCount_spec hradix (two_le_length hls hlen)
  cases hgroups.symm.trans hgroups'
  exact ⟨hgne, hsmaller g hg⟩

theorem shrinks_weight (hradix : 2 ≤ radix) (hne : leaves ≠ [])
    (hmax : ∀ l ∈ leaves, weightFn l ≤ maxInt64)
    (hlight : leaves.countP (isLight weightFn) ≤ 1) : Shrinks radix (some weightFn) leaves := by
  apply shrinks_of_invariant (I := fun ls => ls ≠ [] ∧ (∀ l ∈ ls, weightFn l ≤ maxInt64) ∧
    ls.countP (isLight weightFn) ≤ 1) ⟨hne, hmax, hlight⟩
  rintro ls g ⟨hls, hmax, hlight⟩ ⟨hlen, _, hgroups, hg, hgne⟩
  cases hgroups
  have hsub := sublist_flatten_of_mem hg
  have hperm := partitionLeavesByWeight_perm weightFn ls hradix
  refine ⟨⟨hgne, ?_, ?_⟩, ?_⟩
  · exact fun l hl => hmax l (hperm.mem_iff.1 (hsub.subset hl))
  · exact (hsub.countP_le.trans_eq (hperm.countP_eq _)).trans hlight
  · exact partitionLeavesByWeight_smaller hradix (two_le_length hls hlen) hlight hmax g hg

/-- By count the builder always terminates, on fewer leaves at every call. By weight it does
exactly when at most one leaf has no weight. -/
theorem structure_terminates (operator : PublicKey) (weightFn : LeafDescriptor → ℤ)
    (hradix : 2 ≤ radix) (hne : leaves ≠ []) (hmax : ∀ l ∈ leaves, weightFn l ≤ maxInt64) :
    (Shrinks radix none leaves ∧ Terminates radix none leaves) ∧
    (Shrinks radix (some weightFn) leaves ↔ leaves.countP (isLight weightFn) ≤ 1) ∧
    (Terminates radix (some weightFn) leaves ↔ leaves.countP (isLight weightFn) ≤ 1) ∧
    ((∃ fuel shape, buildStructureRecursive operator radix weightFn fuel leaves = .ok shape) ↔
      leaves.countP (isLight weightFn) ≤ 1) := by
  have hcount := shrinks_count hradix hne
  have hweight := shrinks_weight hradix hne hmax
  refine ⟨⟨hcount, hcount.terminates hradix hne⟩, ?_, ?_, ?_⟩
  · exact ⟨fun h => (h.terminates hradix hne).light hradix, hweight⟩
  · exact ⟨fun h => h.light hradix, fun h => (hweight h).terminates hradix hne⟩
  constructor
  · rintro ⟨fuel, h⟩
    exact (terminates_of_build h).light hradix
  · intro h
    exact ⟨leaves.length, (hweight h).build hne le_rfl⟩

end

def leavesOf (amounts : List ℤ) : List LeafDescriptor :=
  amounts.zipIdx.map fun (amount, i) => ⟨[0x51], amount, ⟨.lastByte 31 (.ofNat i), false⟩⟩

theorem structure_terminates_mixed :
    2 ≤ 2 ∧ leavesOf [5, 0, 3] ≠ [] ∧ (∀ l ∈ leavesOf [5, 0, 3], l.amount ≤ maxInt64) ∧
      ∃ fuel shape, buildStructureRecursive ⟨.zero 32, false⟩ 2 LeafDescriptor.amount fuel
        (leavesOf [5, 0, 3]) = .ok shape :=
  ⟨by decide, by decide, by decide,
    (structure_terminates ⟨.zero 32, false⟩ LeafDescriptor.amount (by decide) (by decide)
      (by decide)).2.2.2.2 (by decide)⟩

/-- Two leaves with amount zero: the builder calls itself on the same leaves and never ends. -/
theorem structure_diverges :
    Calls 2 (some LeafDescriptor.amount) (leavesOf [0, 0]) (leavesOf [0, 0]) ∧
      ¬ Terminates 2 (some LeafDescriptor.amount) (leavesOf [0, 0]) ∧
      ∀ fuel shape, buildStructureRecursive ⟨.zero 32, false⟩ 2 LeafDescriptor.amount fuel
        (leavesOf [0, 0]) ≠ .ok shape := by
  have hlight : ¬ (leavesOf [0, 0]).countP (isLight LeafDescriptor.amount) ≤ 1 := by decide
  refine ⟨⟨by decide, _, rfl, by decide, by decide⟩, ?_, ?_⟩
  · exact fun h => hlight (h.light le_rfl)
  · exact fun fuel shape h => hlight ((terminates_of_build ⟨shape, h⟩).light le_rfl)

end Wavelength.Vtxotree
