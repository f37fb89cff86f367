import Wavelength.Vtxotree.Owners

/-! # The transactions of a built tree

The recursion over the groups ends where all amounts are positive, and filling in the transactions
of its structure never fails. Each output that a child spends has the amount of the child and is
locked to its cosigners.
-/

namespace Wavelength.Vtxotree

open List

/-! ## What can be filled in -/

/-- A node of the structure whose children hang at its outputs in order and have its amount. -/
structure Fillable (radix : ℕ) (bound : ℤ) (m : Rose ℕ Shape) : Prop where
  coSigners : m.label.coSigners ≠ []
  nonneg : 0 ≤ m.label.amount
  amount_le : m.label.amount ≤ bound
  length : m.children.length ≤ radix
  indices : m.children.map Prod.fst = List.range' 0 m.children.length
  script : m.children = [] → m.label.leafScript ≠ []
  sums : m.label.Sums (m.children.map (·.2.label))

theorem uniqueCosigners_ne_nil (key : PublicKey) (keys : List PublicKey) :
    uniqueCosigners (key :: keys) ≠ [] := by
  simp [uniqueCosigners, uniqueFrom]

section

variable {leaves : List LeafDescriptor}

variable (hpos : ∀ l ∈ leaves, 0 < l.amount)
include hpos

theorem countP_light_of_pos : leaves.countP (isLight LeafDescriptor.amount) = 0 := by
  rw [countP_eq_zero]
  intro l hl
  simpa using hpos l hl

theorem le_amounts_of_sublist (h : ls.Sublist leaves) : amounts ls ≤ amounts leaves := by
  apply (h.map LeafDescriptor.amount).sum_le_sum
  intro amount hamount
  obtain ⟨l, hl, rfl⟩ := mem_map.1 hamount
  exact (hpos l hl).le

theorem isInt64_of_pos (hmax : amounts leaves ≤ maxInt64) :
    IsInt64 (amounts leaves) ∧ ∀ l ∈ leaves, IsInt64 l.amount := by
  have hnonneg := amounts_nonneg hpos
  refine ⟨⟨by omega, hmax⟩, fun l hl => ?_⟩
  have hle := le_amounts_of_sublist hpos (singleton_sublist.2 hl)
  rw [amounts, map_singleton, sum_singleton] at hle
  have := hpos l hl
  exact ⟨by omega, hle.trans hmax⟩

omit hpos

/-- With as much fuel as there are leaves the recursion comes to its end. -/
theorem exists_structure (operator : PublicKey) (hradix : 2 ≤ radix) (hne : leaves ≠ [])
    (hpos : ∀ l ∈ leaves, 0 < l.amount) (hmax : amounts leaves ≤ maxInt64) :
    ∃ t, buildStructureRecursive operator radix LeafDescriptor.amount leaves.length leaves =
      .ok t :=
  (shrinks_weight hradix hne (fun l hl => ((isInt64_of_pos hpos hmax).2 l hl).2)
    ((countP_light_of_pos hpos).trans_le zero_le_one)).build hne le_rfl

theorem structure_fillable (hradix : 2 ≤ radix) (hne : leaves ≠ [])
    (hpos : ∀ l ∈ leaves, 0 < l.amount) (hscripts : ∀ l ∈ leaves, l.pkScript ≠ [])
    (hmax : amounts leaves ≤ maxInt64) (hbound : amounts leaves ≤ bound)
    (h : buildStructureRecursive operator radix LeafDescriptor.amount fuel leaves = .ok t) :
    t.label.amount = amounts leaves ∧ ∀ m ∈ t.nodes, Fillable radix bound m := by
  induction fuel using Nat.strong_induction_on generalizing leaves t with
  | _ fuel ih =>
    obtain ⟨htotal, hrange⟩ := isInt64_of_pos hpos hmax
    obtain ⟨hsums, hamount⟩ := sums_of_isInt64 hradix hrange
      ((countP_light_of_pos hpos).trans_le zero_le_one) htotal h
    refine ⟨hamount, ?_⟩
    have hnonneg : 0 ≤ t.label.amount := hamount ▸ amounts_nonneg hpos
    have hle : t.label.amount ≤ bound := hamount ▸ hbound
    have hroot := hsums t (Rose.self_mem_nodes t)
    rcases buildStructureRecursive_eq_ok h with
      ⟨leaf, rfl, rfl⟩ | ⟨fuel', children, rfl, rfl, hindices, hall⟩
    · intro m hm
      obtain rfl : m = buildLeafStructure leaf operator := mem_singleton.1 hm
      exact ⟨uniqueCosigners_ne_nil _ _, hnonneg, hle, Nat.zero_le _, rfl,
        fun _ => hscripts leaf mem_cons_self, hroot⟩
    have hperm := partitionLeavesByWeight_perm LeafDescriptor.amount leaves hradix
    have hlength : children.length ≤ radix :=
      hall.length_eq ▸ partitionLeavesByWeight_length LeafDescriptor.amount leaves hradix
    have hchildren : children ≠ [] := by
      rintro rfl
      rw [forall₂_nil_right_iff.1 hall] at hperm
      exact hne hperm.nil_eq.symm
    intro m hm
    rcases Rose.mem_nodes_node.1 hm with rfl | ⟨c, hc, hm⟩
    · exact ⟨uniqueCosigners_ne_nil _ _, hnonneg, hle, hlength, hindices,
        fun hnil => absurd hnil hchildren, hroot⟩
    obtain ⟨g, ⟨hg, hbuild⟩⟩ := exists_of_forall₂ hall hc
    have hsub := sublist_flatten_of_mem hg
    have hmem : ∀ l ∈ g, l ∈ leaves := fun l hl => hperm.mem_iff.1 (hsub.subset hl)
    have hless : amounts g ≤ amounts leaves := by
      rw [← amounts_perm hperm]
      exact le_amounts_of_sublist (fun l hl => hpos l (hperm.mem_iff.1 hl)) hsub
    exact (ih fuel' (Nat.lt_succ_self _) (by simpa using (mem_filter.1 hg).2)
      (fun l hl => hpos l (hmem l hl)) (fun l hl => hscripts l (hmem l hl)) (hless.trans hmax)
      (hless.trans hbound) hbuild).2 m hm

end

/-! ## Filling in -/

/-- The outputs of a node have the value of the leaves below it. -/
structure NodeData.Filled (bound : ℤ) (d : NodeData) : Prop where
  total : d.total = d.amount
  nonneg : ∀ o ∈ d.outputs, 0 ≤ o.value
  amount_le : d.amount ≤ bound
  anchored : d.Anchored

def lockScript (crypto : Crypto) (tweak : List UInt8) (coSigners : List PublicKey) : Script :=
  ((cosignerScript crypto coSigners tweak).toOption).getD []

/-- The child spends an output with its own amount that its cosigners can spend. -/
structure Funds (crypto : Crypto) (tweak : List UInt8) (a : NodeData) (i : ℕ) (b : NodeData) :
    Prop where
  input : b.input = ⟨a.txid crypto, i⟩
  coSigners : b.coSigners ≠ []
  output : a.outputs[i]? = some ⟨b.amount, lockScript crypto tweak b.coSigners⟩

/-- A tree of transactions over a structure. -/
structure Filled (crypto : Crypto) (tweak : List UInt8) (radix : ℕ) (bound : ℤ) (shape : Shape)
    (input : OutPoint) (n : Node) : Prop where
  input : n.label.input = input
  kept : shape.Kept n.label
  nodes : n.Nodes (NodeData.Filled bound)
  edges : n.Edges (Funds crypto tweak)
  length : ∀ m ∈ n.nodes, m.children.length ≤ radix

section

variable {children : List (ℕ × Rose ℕ Shape)}

theorem computeFinalKey_of_ne_nil (crypto : Crypto) (tweak : List UInt8) {keys : List PublicKey}
    (h : keys ≠ []) : ∃ key, computeFinalKey crypto keys tweak = .ok key := by
  match keys, h with
  | [_], _ => exact ⟨_, rfl⟩
  | _ :: _ :: _, _ => exact ⟨_, rfl⟩

theorem cosignerScript_of_ne_nil {keys : List PublicKey} (h : keys ≠ []) :
    cosignerScript crypto keys tweak = .ok (lockScript crypto tweak keys) := by
  obtain ⟨key, hkey⟩ := computeFinalKey_of_ne_nil crypto tweak h
  rw [lockScript, cosignerScript, hkey]
  rfl

theorem childOutputs_eq (h : ∀ s ∈ shapes, s.coSigners ≠ []) :
    childOutputs crypto tweak shapes =
      .ok (shapes.map fun s => ⟨s.amount, lockScript crypto tweak s.coSigners⟩) := by
  induction shapes with
  | nil => rfl
  | cons s shapes ih =>
    rw [childOutputs, cosignerScript_of_ne_nil (h s mem_cons_self),
      ih fun s' hs' => h s' (mem_cons_of_mem _ hs')]
    rfl

theorem materializeChildren_spec {Q : Rose ℕ Shape → OutPoint → Node → Prop}
    (hindices : children.map Prod.fst = range' i children.length)
    (h : ∀ p ∈ children, ∀ input, ∃ n, materialize crypto tweak input p.2 = .ok n ∧ Q p.2 input n) :
    ∃ nodes, materializeChildren crypto tweak txHash i children = .ok nodes ∧
      Forall₂ (fun p q => q.1 = p.1 ∧ Q p.2 ⟨txHash, p.1⟩ q.2) children nodes := by
  induction children generalizing i with
  | nil => exact ⟨[], rfl, .nil⟩
  | cons p children ih =>
    rw [map_cons, length_cons, range'_succ, cons.injEq] at hindices
    obtain ⟨n, hn, hQ⟩ := h p mem_cons_self ⟨txHash, p.1⟩
    obtain ⟨nodes, hnodes, hall⟩ := ih hindices.2 fun q hq => h q (mem_cons_of_mem _ hq)
    refine ⟨(p.1, n) :: nodes, ?_, .cons ⟨rfl, hQ⟩ hall⟩
    rw [materializeChildren, ← hindices.1, hn, hindices.1, hnodes]
    rfl

theorem materialize_leaf (h : Fillable radix bound (.node shape [])) :
    ∃ n, materialize crypto tweak input (.node shape []) = .ok n ∧
      Filled crypto tweak radix bound shape input n := by
  obtain ⟨key, hkey⟩ := computeFinalKey_of_ne_nil crypto tweak h.coSigners
  let d : NodeData :=
    { input := input
      outputs := [⟨shape.amount, shape.leafScript⟩, anchorOutput]
      coSigners := shape.coSigners
      amount := shape.amount
      finalKey := some key }
  have hleaf : materializeLeaf crypto tweak input shape = .ok d := by
    simp only [materializeLeaf, bind_eq_ok, require_eq_ok, exists_const]
    exact ⟨key, hkey, h.script rfl, rfl⟩
  have hfilled : d.Filled bound := by
    constructor
    · simp [d, NodeData.total, anchorOutput]
    · simpa [d, anchorOutput] using h.nonneg
    · exact h.amount_le
    · rfl
  refine ⟨.node d [], ?_, rfl, ⟨rfl, rfl⟩, ?_, ?_, ?_⟩
  · rw [materialize, if_pos (by rfl), hleaf]
    rfl
  · exact Rose.nodes_node.2 ⟨hfilled, by simp⟩
  · exact Rose.edges_node.2 (by simp)
  · intro m hm
    rw [mem_singleton.1 hm]
    exact Nat.zero_le _

theorem getElem?_of_indices (hindices : children.map Prod.fst = range' 0 children.length)
    (hp : p ∈ children) : children[p.1]? = some p := by
  obtain ⟨k, hk, rfl⟩ := getElem_of_mem hp
  have hkey : (children.map Prod.fst)[k]? = (range' 0 children.length)[k]? := by rw [hindices]
  rw [getElem?_map, getElem?_range' hk, getElem?_eq_getElem hk, Option.map_some,
    Option.some.injEq] at hkey
  rw [hkey, zero_add, one_mul, getElem?_eq_getElem hk]

theorem materialize_filled (h : ∀ m ∈ t.nodes, Fillable radix bound m) :
    ∃ n, materialize crypto tweak input t = .ok n ∧
      Filled crypto tweak radix bound t.label input n := by
  induction t using Rose.ind generalizing input with
  | node shape children ih =>
    obtain ⟨hroot, hbelow⟩ := Rose.forall_nodes_node.1 h
    rcases eq_or_ne children [] with rfl | hne
    · exact materialize_leaf hroot
    have hindices : children.map Prod.fst = range' 0 children.length := hroot.indices
    have hchild : ∀ p ∈ children, Fillable radix bound p.2 := fun p hp =>
      hbelow p hp p.2 (Rose.self_mem_nodes _)
    obtain ⟨key, hkey⟩ := computeFinalKey_of_ne_nil crypto tweak hroot.coSigners
    let d : NodeData :=
      { input := input
        outputs := ((children.map (·.2.label)).map fun s =>
          ⟨s.amount, lockScript crypto tweak s.coSigners⟩) ++ [anchorOutput]
        coSigners := shape.coSigners
        amount := shape.amount
        finalKey := some key }
    have hbranch : materializeBranch crypto tweak input shape (children.map (·.2.label)) =
        .ok d := by
      simp only [materializeBranch, bind_eq_ok]
      refine ⟨key, hkey, _, childOutputs_eq fun s hs => ?_, rfl⟩
      obtain ⟨p, hp, rfl⟩ := mem_map.1 hs
      exact (hchild p hp).coSigners
    have hparts : ∀ p ∈ children, ∀ input, ∃ n, materialize crypto tweak input p.2 = .ok n ∧
        Filled crypto tweak radix bound p.2.label input n := fun p hp input => ih p hp (hbelow p hp)
    obtain ⟨nodes, hnodes, hall⟩ := materializeChildren_spec
      (Q := fun t => Filled crypto tweak radix bound t.label) hindices hparts
    have hfilled : d.Filled bound := by
      constructor
      · have hsums : ((children.map (·.2.label)).map Shape.amount).sum = shape.amount :=
          hroot.sums (by simpa using hne)
        rw [NodeData.total, map_append, sum_append, map_map]
        exact (add_zero _).trans hsums
      · intro o ho
        rcases mem_append.1 ho with ho | ho
        · obtain ⟨s, hs, rfl⟩ := mem_map.1 ho
          obtain ⟨p, hp, rfl⟩ := mem_map.1 hs
          exact (hchild p hp).nonneg
        · rw [mem_singleton.1 ho]
          exact le_rfl
      · exact hroot.amount_le
      · exact getLast?_concat
    refine ⟨.node d nodes, ?_, rfl, ⟨rfl, rfl⟩, ?_, ?_, ?_⟩
    · rw [materialize, if_neg (by simpa using hne), hbranch, ok_bind, hnodes]
      rfl
    · refine Rose.nodes_node.2 ⟨hfilled, fun q hq => ?_⟩
      obtain ⟨p, -, hp⟩ := exists_of_forall₂ hall hq
      exact hp.2.nodes
    · refine Rose.edges_node.2 fun q hq => ?_
      obtain ⟨p, hp, hindex, hq⟩ := exists_of_forall₂ hall hq
      refine ⟨⟨hindex ▸ hq.input, hq.kept.coSigners ▸ (hchild p hp).coSigners, ?_⟩, hq.edges⟩
      have hat := getElem?_of_indices hindices hp
      have hlt : p.1 < children.length := (List.getElem?_eq_some_iff.1 hat).1
      rw [hindex, hq.kept.coSigners, hq.kept.amount, getElem?_append_left (by simpa using hlt),
        getElem?_map, getElem?_map, hat]
      rfl
    · refine Rose.forall_nodes_node.2 ⟨hall.length_eq ▸ hroot.length, fun q hq => ?_⟩
      obtain ⟨p, -, hp⟩ := exists_of_forall₂ hall hq
      exact hp.2.length

end

end Wavelength.Vtxotree
