import Wavelength.Vtxotree.Acceptance
import Wavelength.Vtxotree.Extract
import Wavelength.Vtxotree.Totals

/-! # The paths of owners

Every node of a tree that has been built has the operator's key and the keys of the owners below it.
So the key of an owner leads to the leaf of this owner. A key with the x coordinate of the
operator's key is dropped from the tree, and the operator's own key leads everywhere.
-/

namespace Wavelength.Vtxotree

open List Option

/-! ## The keys of the structure -/

theorem mem_uniqueFrom {keys : List PublicKey} (hinj : ∀ a ∈ keys, ∀ b ∈ keys, a.x = b.x → a = b) :
    key ∈ uniqueFrom seen keys ↔ key ∈ keys ∧ key.x ∉ seen := by
  induction keys generalizing seen with
  | nil => simp [uniqueFrom]
  | cons k keys ih =>
    have hbelow : ∀ a ∈ keys, ∀ b ∈ keys, a.x = b.x → a = b := fun a ha b hb =>
      hinj a (mem_cons_of_mem _ ha) b (mem_cons_of_mem _ hb)
    rw [uniqueFrom]
    split
    · next hseen =>
      rw [ih hbelow, mem_cons]
      constructor
      · rintro ⟨hkey, hx⟩
        exact ⟨.inr hkey, hx⟩
      · rintro ⟨rfl | hkey, hx⟩
        · exact absurd hseen hx
        · exact ⟨hkey, hx⟩
    · next hfresh =>
      rw [mem_cons, mem_cons, ih hbelow, mem_cons, not_or]
      constructor
      · rintro (rfl | ⟨hkey, -, hx⟩)
        · exact ⟨.inl rfl, hfresh⟩
        · exact ⟨.inr hkey, hx⟩
      rintro ⟨rfl | hkey, hx⟩
      · exact .inl rfl
      · by_cases heq : key.x = k.x
        · exact .inl (hinj key (mem_cons_of_mem _ hkey) k mem_cons_self heq)
        · exact .inr ⟨hkey, heq, hx⟩

theorem nodup_uniqueFrom {keys : List PublicKey} :
    (uniqueFrom seen keys).Nodup ∧ ∀ key ∈ uniqueFrom seen keys, key.x ∉ seen := by
  induction keys generalizing seen with
  | nil => simp [uniqueFrom]
  | cons k keys ih =>
    rw [uniqueFrom]
    split
    · exact ih
    next hfresh =>
    obtain ⟨hnodup, hall⟩ := @ih (k.x :: seen)
    refine ⟨nodup_cons.2 ⟨fun hk => hall k hk mem_cons_self, hnodup⟩, ?_⟩
    rintro key (_ | ⟨_, hkey⟩)
    · exact hfresh
    · exact fun hmem => hall key hkey (mem_cons_of_mem _ hmem)

/-- The keys of a node over leaves. -/
def Signs (operator : PublicKey) (leaves : List LeafDescriptor) (key : PublicKey) : Prop :=
  key = operator ∨ key.x ≠ operator.x ∧ ∃ l ∈ leaves, l.coSignerKey = key

def Shape.Covered (shape : Shape) (children : List Shape) : Prop :=
  children ≠ [] → ∀ key, key ∈ shape.coSigners ↔ ∃ child ∈ children, key ∈ child.coSigners

theorem Shape.Covered.kept {shape : Shape} {ds : List NodeData} (hd : shape.Kept d)
    (hds : Forall₂ Shape.Kept shapes ds) (h : shape.Covered shapes) : Vtxotree.Covered d ds := by
  intro hne key
  have hne' : shapes ≠ [] := by
    rintro rfl
    cases hds
    exact hne rfl
  rw [hd.coSigners, h hne' key]
  constructor
  · rintro ⟨child, hchild, hkey⟩
    obtain ⟨d, hd, hkept⟩ := exists_of_forall₂ hds.flip hchild
    exact ⟨d, hd, hkept.coSigners ▸ hkey⟩
  · rintro ⟨d, hd, hkey⟩
    obtain ⟨child, hchild, hkept⟩ := exists_of_forall₂ hds hd
    exact ⟨child, hchild, hkept.coSigners ▸ hkey⟩

section

variable {leaves : List LeafDescriptor}

theorem Signs.inj (hnodup : (leaves.map (·.coSignerKey.x)).Nodup) (ha : Signs operator leaves a)
    (hb : Signs operator leaves b) (hx : a.x = b.x) : a = b := by
  rcases ha with rfl | ⟨hneA, l, hl, rfl⟩ <;> rcases hb with rfl | ⟨hneB, l', hl', rfl⟩
  · rfl
  · exact absurd hx.symm hneB
  · exact absurd hx hneA
  · rw [inj_on_of_nodup_map hnodup hl hl' hx]

theorem nodup_coSigners
    (h : buildStructureRecursive operator radix LeafDescriptor.amount fuel leaves = .ok t) :
    t.label.coSigners.Nodup := by
  rcases buildStructureRecursive_eq_ok h with ⟨leaf, -, rfl⟩ | ⟨_, children, -, rfl, -⟩ <;>
    exact nodup_uniqueFrom.1

theorem mem_leaf_coSigners :
    key ∈ (buildLeafStructure leaf operator).label.coSigners ↔ Signs operator [leaf] key := by
  rw [buildLeafStructure, Rose.label_node]
  simp only [uniqueCosigners, uniqueFrom, not_mem_nil, if_false, mem_singleton, Signs,
    exists_eq_left]
  split
  · next hx =>
    rw [mem_singleton]
    constructor
    · exact .inl
    · rintro (h | ⟨hne, rfl⟩)
      · exact h
      · exact absurd hx hne
  · next hx =>
    rw [mem_cons, mem_singleton]
    constructor
    · rintro (h | rfl)
      · exact .inl h
      · exact .inr ⟨hx, rfl⟩
    · rintro (h | ⟨-, rfl⟩)
      · exact .inl h
      · exact .inr rfl

/-- What the recursion makes of leaves with different keys. -/
structure Owned (operator : PublicKey) (leaves : List LeafDescriptor) (t : Rose ℕ Shape) :
    Prop where
  keys : ∀ key, key ∈ t.label.coSigners ↔ Signs operator leaves key
  covered : t.Locally Shape.Covered
  leaves : (t.leaves.map Rose.label).Perm
    (leaves.map fun leaf => (buildLeafStructure leaf operator).label)

theorem Owned.leaf (leaf : LeafDescriptor) :
    Owned operator [leaf] (buildLeafStructure leaf operator) := by
  refine ⟨fun key => mem_leaf_coSigners, ?_, ?_⟩
  · rw [buildLeafStructure, Rose.locally_node]
    simp [Shape.Covered]
  · rw [buildLeafStructure, Rose.leaves_nil]
    exact .refl _

theorem perm_flatMap_leaves {f : LeafDescriptor → Shape} {children : List (ℕ × Rose ℕ Shape)}
    (h : Forall₂ (fun g c => (c.2.leaves.map Rose.label).Perm (g.map f)) groups children) :
    ((children.flatMap (·.2.leaves)).map Rose.label).Perm (groups.flatten.map f) := by
  induction h with
  | nil => exact .refl _
  | cons hc _ ih =>
    rw [flatMap_cons, map_append, flatten_cons, map_append]
    exact hc.append ih

theorem Owned.branch {children : List (ℕ × Rose ℕ Shape)}
    (hnodup : (leaves.map (·.coSignerKey.x)).Nodup) (hne : leaves ≠ [])
    (hperm : groups.flatten.Perm leaves)
    (hall : Forall₂ (fun g c => Owned operator g c.2) groups children) :
    Owned operator leaves (buildBranch operator children) := by
  have hchildren : children ≠ [] := by
    rintro rfl
    cases hall
    exact hne hperm.nil_eq.symm
  have hbelow : ∀ key, (∃ c ∈ children, key ∈ c.2.label.coSigners) ↔ Signs operator leaves key := by
    intro key
    constructor
    · rintro ⟨c, hc, hkey⟩
      obtain ⟨g, hg, howned⟩ := exists_of_forall₂ hall hc
      refine ((howned.keys key).1 hkey).imp_right ?_
      rintro ⟨hx, l, hl, heq⟩
      exact ⟨hx, l, hperm.mem_iff.1 (mem_flatten.2 ⟨g, hg, hl⟩), heq⟩
    · rintro (rfl | ⟨hx, l, hl, heq⟩)
      · obtain ⟨c, hc⟩ := exists_mem_of_ne_nil children hchildren
        obtain ⟨g, -, howned⟩ := exists_of_forall₂ hall hc
        exact ⟨c, hc, (howned.keys key).2 (.inl rfl)⟩
      · obtain ⟨g, hg, hlg⟩ := mem_flatten.1 (hperm.mem_iff.2 hl)
        obtain ⟨c, hc, howned⟩ := exists_of_forall₂ hall.flip hg
        exact ⟨c, hc, (howned.keys key).2 (.inr ⟨hx, l, hlg, heq⟩)⟩
  have hmem : ∀ key, key ∈ operator :: children.flatMap (·.2.label.coSigners) ↔
      Signs operator leaves key := by
    intro key
    rw [mem_cons, mem_flatMap, hbelow]
    exact or_iff_right_of_imp .inl
  have hkeys : ∀ key, key ∈ (buildBranch operator children).label.coSigners ↔
      Signs operator leaves key := by
    intro key
    rw [buildBranch, Rose.label_node]
    dsimp only
    rw [uniqueCosigners, mem_uniqueFrom, hmem]
    · simp
    · intro a ha b hb
      exact ((hmem a).1 ha).inj hnodup ((hmem b).1 hb)
  refine ⟨hkeys, Rose.locally_node.2 ⟨?_, ?_⟩, ?_⟩
  · intro _ key
    refine (hkeys key).trans ((hbelow key).symm.trans ?_)
    simp
  · intro c hc
    obtain ⟨g, -, howned⟩ := exists_of_forall₂ hall hc
    exact howned.covered
  · rw [buildBranch, Rose.leaves_node hchildren]
    exact (perm_flatMap_leaves (hall.imp fun _ _ h => h.leaves)).trans (hperm.map _)

theorem structure_owned (hradix : 2 ≤ radix) (hnodup : (leaves.map (·.coSignerKey.x)).Nodup)
    (hne : leaves ≠ [])
    (h : buildStructureRecursive operator radix LeafDescriptor.amount fuel leaves = .ok t) :
    Owned operator leaves t := by
  induction fuel using Nat.strong_induction_on generalizing leaves t with
  | _ fuel ih =>
    rcases buildStructureRecursive_eq_ok h with ⟨leaf, rfl, rfl⟩ | ⟨fuel', children, rfl, rfl, -, hall⟩
    · exact .leaf leaf
    have hperm := partitionLeavesByWeight_perm LeafDescriptor.amount leaves hradix
    refine .branch hnodup hne hperm (forall₂_imp_of_mem hall fun g hg c hbuild => ?_)
    have hsub := (sublist_flatten_of_mem hg).map (·.coSignerKey.x)
    apply ih fuel' (Nat.lt_succ_self _) _ _ hbuild
    · exact ((hperm.map _).nodup_iff.2 hnodup).sublist hsub
    · simpa using (mem_filter.1 hg).2

end

/-! ## The transactions -/

def NodeData.view (d : NodeData) : List PublicKey × List TxOut := (d.coSigners, d.outputs)

def Shape.view (shape : Shape) : List PublicKey × List TxOut :=
  (shape.coSigners, [⟨shape.amount, shape.leafScript⟩, anchorOutput])

theorem materialize_leaves (h : materialize crypto tweak input t = .ok n) :
    n.leaves.map (·.label.view) = t.leaves.map (·.label.view) := by
  induction t using Rose.ind generalizing input n with
  | node shape children ih =>
    rcases materialize_eq_ok h with ⟨rfl, d, hd, rfl⟩ | ⟨hne, d, nodes, hd, hnodes, rfl⟩
    · obtain ⟨hkept, houtputs⟩ := materializeLeaf_eq_ok hd
      rw [Rose.leaves_nil, Rose.leaves_nil]
      simp [Rose.label_node, NodeData.view, Shape.view, hkept.coSigners, houtputs]
    have hchildren := materializeChildren_eq_ok hnodes
    have hne' : nodes ≠ [] := by
      rintro rfl
      cases hchildren
      exact hne rfl
    have hviews : nodes.map (fun q => q.2.leaves.map (·.label.view)) =
        children.map (fun p => p.2.leaves.map (·.label.view)) := by
      rw [← forall₂_eq_eq_eq, forall₂_map_left_iff, forall₂_map_right_iff]
      refine (forall₂_imp_of_mem hchildren ?_).flip
      rintro p hp q ⟨-, input, hq⟩
      exact ih p hp hq
    rw [Rose.leaves_node hne, Rose.leaves_node hne', map_flatMap, map_flatMap,
      flatMap_def, flatMap_def, hviews]

theorem views_path (hcov : n.Locally Covered) (h : extractNodePath [key] n = some path) :
    path.leaves.map (·.label.view) = (n.leaves.map (·.label.view)).filter (key ∈ ·.1) := by
  rw [Covered.leaves hcov h, List.map_filterMap, List.filter_map, ← List.filterMap_eq_map,
    ← filterMap_eq_filter, filterMap_filterMap]
  refine filterMap_congr fun l _ => ?_
  by_cases hkey : key ∈ l.label.coSigners
  · have hcut : extractNode [key] l.label = some l.label.cut :=
      extractNode_keys.2 ⟨⟨key, mem_singleton_self key, hkey⟩, rfl⟩
    simp [hcut, NodeData.view, NodeData.cut, Option.guard, hkey]
  have hnone : extractNode [key] l.label = none := by
    rw [← not_isSome_iff_eq_none, extractNode_isSome]
    rintro ⟨key', hkey', hmem⟩
    rw [mem_singleton.1 hkey'] at hmem
    exact hkey hmem
  simp [hnone, NodeData.view, Option.guard, hkey]

theorem validateDescriptors_eq_ok :
    validateDescriptors i seen vtxos = .ok u ↔
      (∀ v ∈ vtxos, 0 < v.amount ∧ v.pkScript ≠ [] ∧ isPayToTaproot v.pkScript) ∧
        (vtxos.map (·.coSignerKey.x)).Nodup ∧ ∀ v ∈ vtxos, v.coSignerKey.x ∉ seen := by
  induction vtxos generalizing i seen with
  | nil => simp [validateDescriptors]
  | cons v vtxos ih =>
    simp only [validateDescriptors, bind_eq_ok, require_eq_ok, exists_const, ih,
      List.forall_mem_cons, List.map_cons, List.nodup_cons, List.mem_map]
    constructor
    · rintro ⟨hpos, hne, htaproot, hfresh, hall, hnodup, hseen⟩
      refine ⟨⟨⟨hpos, hne, htaproot⟩, hall⟩, ⟨?_, hnodup⟩, hfresh,
        fun w hw => not_mem_of_not_mem_cons (hseen w hw)⟩
      rintro ⟨w, hw, heq⟩
      exact ne_of_not_mem_cons (hseen w hw) heq
    · rintro ⟨⟨⟨hpos, hne, htaproot⟩, hall⟩, ⟨hother, hnodup⟩, hfresh, hseen⟩
      refine ⟨hpos, hne, htaproot, hfresh, hall, hnodup, fun w hw => ?_⟩
      exact not_mem_cons_of_ne_of_not_mem (fun heq => hother ⟨w, hw, heq⟩) (hseen w hw)

theorem isPayToTaproot_ne_nil (h : isPayToTaproot script) : script ≠ [] := by
  rintro rfl
  exact absurd h (by decide)

theorem validateVTXODescriptors_eq_ok :
    validateVTXODescriptors vtxos = .ok u ↔
      vtxos ≠ [] ∧ (∀ v ∈ vtxos, 0 < v.amount ∧ isPayToTaproot v.pkScript) ∧
        (vtxos.map (·.coSignerKey.x)).Nodup := by
  simp only [validateVTXODescriptors, bind_eq_ok, require_eq_ok, exists_const,
    validateDescriptors_eq_ok, not_mem_nil, not_false_eq_true, implies_true, and_true]
  constructor
  · rintro ⟨hne, hall, hnodup⟩
    exact ⟨hne, fun v hv => ⟨(hall v hv).1, (hall v hv).2.2⟩, hnodup⟩
  · rintro ⟨hne, hall, hnodup⟩
    exact ⟨hne, fun v hv => ⟨(hall v hv).1, isPayToTaproot_ne_nil (hall v hv).2, (hall v hv).2⟩,
      hnodup⟩

theorem buildVTXOTree_owned
    (h : buildVTXOTree crypto batchOutpoint batchOutput vtxos operator sweepKey sweepDelay radix =
      .ok t) :
    (vtxos.map (·.coSignerKey.x)).Nodup ∧
      (t.root.label.coSigners.Nodup ∧ ∀ key, key ∈ t.root.label.coSigners ↔
        Signs operator (vtxos.map VTXODescriptor.toLeafDescriptor) key) ∧
      t.root.Locally Covered ∧
      (t.root.leaves.map (·.label.view)).Perm
        (vtxos.map fun v => (buildLeafStructure v.toLeafDescriptor operator).label.view) := by
  simp only [buildVTXOTree, bind_eq_ok, require_eq_ok, exists_const] at h
  obtain ⟨_, hvalid, -, _, -, htree⟩ := h
  obtain ⟨-, -, hnodup⟩ := validateVTXODescriptors_eq_ok.1 hvalid
  obtain ⟨radix', shape, hradix, hne, hshape, -, hroot⟩ := buildTree_eq_ok htree
  have hsorted : (sortLeaves (vtxos.map VTXODescriptor.toLeafDescriptor)).Perm
      (vtxos.map VTXODescriptor.toLeafDescriptor) := perm_insertionSort _ _
  have hleaves : ((sortLeaves (vtxos.map VTXODescriptor.toLeafDescriptor)).map
      (·.coSignerKey.x)).Nodup := by
    rw [(hsorted.map _).nodup_iff, List.map_map]
    exact hnodup
  have howned := structure_owned hradix hleaves hne hshape
  obtain ⟨hlabel, hcovered⟩ := materialize_locally (fun _ _ _ _ => Shape.Covered.kept) hroot
  refine ⟨hnodup, ?_, hcovered howned.covered, ?_⟩
  · rw [hlabel.coSigners]
    refine ⟨nodup_coSigners hshape, fun key => ?_⟩
    simp only [howned.keys, Signs, hsorted.mem_iff]
  have hviews := (howned.leaves.trans (hsorted.map _)).map Shape.view
  rw [List.map_map, List.map_map, List.map_map] at hviews
  rw [materialize_leaves hroot]
  exact hviews

theorem view_owner {v : VTXODescriptor} (hx : v.coSignerKey.x ≠ operator.x) :
    (buildLeafStructure v.toLeafDescriptor operator).label.view =
      ([operator, v.coSignerKey], [⟨v.amount, v.pkScript⟩, anchorOutput]) := by
  have hunique : uniqueCosigners [operator, v.coSignerKey] = [operator, v.coSignerKey] := by
    simp [uniqueCosigners, uniqueFrom, hx]
  unfold buildLeafStructure VTXODescriptor.toLeafDescriptor Shape.view
  rw [Rose.label_node, hunique]

theorem owner_path
    (h : buildVTXOTree crypto batchOutpoint batchOutput vtxos operator sweepKey sweepDelay radix =
      .ok t) {v : VTXODescriptor} (hv : v ∈ vtxos) (hx : v.coSignerKey.x ≠ operator.x) :
    ∃ client, t.extractPathForCoSigners [v.coSignerKey] = .ok (some client) ∧
      client.root.leaves.map (·.label.view) =
        [([operator, v.coSignerKey], [⟨v.amount, v.pkScript⟩, anchorOutput])] := by
  obtain ⟨hnodup, hkeys, hcov, hleaves⟩ := buildVTXOTree_owned h
  obtain ⟨path, hpath⟩ : ∃ path, extractNodePath [v.coSignerKey] t.root = some path := by
    rw [← isSome_iff_exists, extractNodePath_isSome]
    exact ⟨_, mem_singleton_self _, (hkeys.2 _).2 (.inr ⟨hx, _, mem_map_of_mem hv, rfl⟩)⟩
  refine ⟨t.withRoot path, extractPathForCoSigners_eq_ok.2 ⟨path, hpath, rfl⟩, ?_⟩
  -- Of all leaves only the one of the owner has the key.
  have hsole : (vtxos.filter (fun w => v.coSignerKey ∈
      (buildLeafStructure w.toLeafDescriptor operator).label.view.1)).Perm [v] := by
    refine (perm_ext_iff_of_nodup (hnodup.of_map.filter _) (nodup_singleton v)).2 ?_
    intro w
    rw [mem_filter, mem_singleton, decide_eq_true_iff]
    constructor
    · rintro ⟨hw, hkey⟩
      rcases mem_leaf_coSigners.1 hkey with heq | ⟨-, l, hl, heq⟩
      · exact absurd (congrArg PublicKey.x heq) hx
      · rw [mem_singleton.1 hl] at heq
        exact inj_on_of_nodup_map hnodup hw hv (congrArg PublicKey.x heq)
    · rintro rfl
      exact ⟨hv, mem_leaf_coSigners.2 (.inr ⟨hx, _, mem_singleton_self _, rfl⟩)⟩
  have hperm := hleaves.filter (v.coSignerKey ∈ ·.1)
  rw [← views_path hcov hpath, List.filter_map] at hperm
  rw [← view_owner hx]
  exact perm_singleton.1 (hperm.trans (hsole.map _))

/-! ## Extraction -/

/-- What a tree and the path that was cut out of it have to do with each other. -/
structure Extracted (crypto : Crypto) (t : Tree) (keys : List PublicKey) (client : Tree) :
    Prop where
  /-- A node is kept, with its input, its outputs and its keys, where it and all nodes above it have
  one of the keys. -/
  trails : ∀ ks bs, (∃ m, client.root.Trail ks bs m) ↔
    ∃ as m, t.root.Trail ks as m ∧ (∀ a ∈ as, a.HasKey keys) ∧ bs = as.map NodeData.cut
  again : client.extractPathForCoSigners keys = .ok (some client)
  verify : t.verify crypto = .ok () → client.verify crypto = .ok ()
  scripts : t.assetContext = none ∨ t.root.Locally Covered →
    t.validateChildScripts crypto = .ok () → client.validateChildScripts crypto = .ok ()
  leaves : t.root.Locally Covered → ∀ ks bs leaf, client.root.Trail ks bs (.node leaf []) ↔
    ∃ as leaf', t.root.Trail ks as (.node leaf' []) ∧ leaf'.HasKey keys ∧
      bs = as.map NodeData.cut ∧ leaf = leaf'.cut
  union : t.root.Locally Covered → ∀ ks bs, (∃ m, client.root.Trail ks bs m) ↔
    ∃ key ∈ keys, ∃ single m, t.extractPathForCoSigners [key] = .ok (some single) ∧
      single.root.Trail ks bs m

section

variable {keys : List PublicKey} {n path : Node} {t client : Tree}

theorem exists_trail_path (h : extractNodePath keys n = some path) :
    (∃ m, path.Trail ks bs m) ↔
      ∃ as m, n.Trail ks as m ∧ (∀ a ∈ as, a.HasKey keys) ∧ bs = as.map .cut := by
  constructor
  · rintro ⟨m', htrail⟩
    obtain ⟨as, m, htrail, hkeys, hbs, -⟩ := (trail_path h).1 htrail
    exact ⟨as, m, htrail, hkeys, hbs⟩
  rintro ⟨as, m, htrail, hkeys, hbs⟩
  have hlast : m.label.HasKey keys := hkeys _ (mem_of_getLast? htrail.getLast?)
  obtain ⟨m', hm'⟩ := isSome_iff_exists.1 (extractNodePath_isSome.2 hlast)
  exact ⟨m', (trail_path h).2 ⟨as, m, htrail, hkeys, hbs, hm'⟩⟩

/-- On a covered tree a key of the last node is a key of the whole trail. -/
theorem Covered.hasKey_trail (hcov : n.Locally Covered) (htrail : n.Trail ks as m) :
    m.label.HasKey keys ↔ ∃ key ∈ keys, ∀ a ∈ as, a.HasKey [key] := by
  constructor
  · rintro ⟨key, hkey, hm⟩
    exact ⟨key, hkey, fun a ha => ⟨key, mem_singleton_self key, trail hcov htrail hm a ha⟩⟩
  rintro ⟨key, hkey, hall⟩
  obtain ⟨key', hkey', hm⟩ := hall _ (mem_of_getLast? htrail.getLast?)
  rw [mem_singleton.1 hkey'] at hm
  exact ⟨key, hkey, hm⟩

theorem NodeData.HasKey.of_singleton {d : NodeData} (hkey : key ∈ keys) (h : d.HasKey [key]) : d.HasKey keys := by
  obtain ⟨key', hkey', hd⟩ := h
  rw [mem_singleton.1 hkey'] at hd
  exact ⟨key, hkey, hd⟩

theorem trail_path_leaf (hcov : n.Locally Covered) (h : extractNodePath keys n = some path)
    {leaf : NodeData} : path.Trail ks bs (.node leaf []) ↔
      ∃ as leaf', n.Trail ks as (.node leaf' []) ∧ leaf'.HasKey keys ∧
        bs = as.map .cut ∧ leaf = leaf'.cut := by
  rw [trail_path h]
  constructor
  · rintro ⟨as, m, htrail, -, hbs, hm⟩
    have hbelow : m.Locally Covered := fun m' hm' =>
      hcov m' (Rose.mem_nodes_trans htrail.mem_nodes hm')
    have hnil := Covered.children_eq_nil hbelow hm rfl
    cases m with
    | node leaf' cs =>
      rw [Rose.children_node] at hnil
      rw [hnil] at htrail
      obtain ⟨hkey, hcut⟩ := extractNode_keys.1 (Rose.label_prune hm)
      exact ⟨as, leaf', htrail, hkey, hbs, hcut⟩
  · rintro ⟨as, leaf', htrail, hkey, hbs, rfl⟩
    obtain ⟨key, hmem, hall⟩ := (Covered.hasKey_trail hcov htrail).1 hkey
    refine ⟨as, _, htrail, fun a ha => (hall a ha).of_singleton hmem, hbs, ?_⟩
    exact Rose.prune_eq_some.2 ⟨_, extractNode_keys.2 ⟨hkey, rfl⟩, rfl⟩

theorem trail_path_union (hcov : t.root.Locally Covered)
    (h : extractNodePath keys t.root = some path) :
    (∃ m, path.Trail ks bs m) ↔ ∃ key ∈ keys, ∃ single m,
      t.extractPathForCoSigners [key] = .ok (some single) ∧ single.root.Trail ks bs m := by
  rw [exists_trail_path h]
  constructor
  · rintro ⟨as, m, htrail, hall, hbs⟩
    have hlast : m.label.HasKey keys := hall _ (mem_of_getLast? htrail.getLast?)
    obtain ⟨key, hmem, hsingle⟩ := (Covered.hasKey_trail hcov htrail).1 hlast
    obtain ⟨root, hroot⟩ := isSome_iff_exists.1
      (extractNodePath_isSome.2 (hsingle _ htrail.label_mem))
    obtain ⟨m', hm'⟩ := (exists_trail_path hroot).2 ⟨as, m, htrail, hsingle, hbs⟩
    exact ⟨key, hmem, t.withRoot root, m', extractPathForCoSigners_eq_ok.2 ⟨root, hroot, rfl⟩, hm'⟩
  · rintro ⟨key, hmem, single, m, hsingle, htrail⟩
    obtain ⟨root, hroot, rfl⟩ := extractPathForCoSigners_eq_ok.1 hsingle
    obtain ⟨as, m', htrail, hall, hbs⟩ := (exists_trail_path hroot).1 ⟨m, htrail⟩
    exact ⟨as, m', htrail, fun a ha => (hall a ha).of_singleton hmem, hbs⟩

theorem extracted_of_ok (h : t.extractPathForCoSigners keys = .ok (some client)) :
    Extracted crypto t keys client := by
  obtain ⟨hne, path, hpath, rfl⟩ := extractPath_eq_ok.1 h
  constructor
  case trails => exact fun ks bs => exists_trail_path hpath
  case again =>
    exact extractPath_eq_ok.2 ⟨hne, path, extractNodePath_again hpath, withRoot_withRoot.symm⟩
  case verify => exact verify_path hpath
  case scripts => exact fun hcov => validateChildScripts_path hcov hpath
  case leaves => exact fun hcov ks bs leaf => trail_path_leaf hcov hpath
  case union => exact fun hcov ks bs => trail_path_union hcov hpath

theorem extractPath_eq_none :
    t.extractPathForCoSigners keys = .ok none ↔ keys ≠ [] ∧ ¬ t.root.label.HasKey keys := by
  simp only [Tree.extractPathForCoSigners, bind_eq_ok, require_eq_ok, exists_const]
  rw [← extractNodePath_isSome]
  cases extractNodePath keys t.root with
  | none | some root => simp [pure, Except.pure]

end

/-- Extraction cuts a tree down to the nodes that lead to one of the keys. In a tree that is built
an owner gets its own leaf unless it uses the operator's key. -/
theorem extractPathForCoSigners_spec (crypto : Crypto) (t : Tree) (keys : List PublicKey)
    (hkeys : keys ≠ []) :
    (t.extractPathForCoSigners keys = .ok none ∧ ¬ t.root.label.HasKey keys ∨
      ∃ client, t.extractPathForCoSigners keys = .ok (some client) ∧
        Extracted crypto t keys client) ∧
    ∀ batchOutpoint batchOutput vtxos operator sweepKey sweepDelay radix,
      buildVTXOTree crypto batchOutpoint batchOutput vtxos operator sweepKey sweepDelay radix =
        .ok t →
      t.root.Locally Covered ∧ ∀ v ∈ vtxos, v.coSignerKey.x ≠ operator.x →
        ∃ client, t.extractPathForCoSigners [v.coSignerKey] = .ok (some client) ∧
          client.root.leaves.map (fun leaf => (leaf.label.coSigners, leaf.label.outputs)) =
            [([operator, v.coSignerKey], [⟨v.amount, v.pkScript⟩, anchorOutput])] := by
  constructor
  · by_cases hroot : t.root.label.HasKey keys
    · obtain ⟨path, hpath⟩ := isSome_iff_exists.1 (extractNodePath_isSome.2 hroot)
      have hclient := extractPath_eq_ok.2 ⟨hkeys, path, hpath, rfl⟩
      exact .inr ⟨_, hclient, extracted_of_ok hclient⟩
    · exact .inl ⟨extractPath_eq_none.2 ⟨hkeys, hroot⟩, hroot⟩
  · intro batchOutpoint batchOutput vtxos operator sweepKey sweepDelay radix h
    exact ⟨(buildVTXOTree_owned h).2.2.1, fun v hv hx => owner_path h hv hx⟩

def pairVtxo (n : UInt8) (amount : ℤ) : VTXODescriptor :=
  ⟨payToTaprootScript ⟨.lastByte 31 n, false⟩, amount, ⟨.lastByte 31 n, false⟩⟩

def pairVtxos : List VTXODescriptor := [pairVtxo 2 1000, pairVtxo 3 2000]

/-- An owner of two gets a path with one leaf. -/
theorem extractPathForCoSigners_spec_pair :
    ∃ t client, buildVTXOTree .sum ⟨7, 0⟩ ⟨3000, []⟩ pairVtxos soleOperator soleOperator 144
        2 = .ok t ∧
      t.extractPathForCoSigners [(pairVtxo 2 1000).coSignerKey] = .ok (some client) ∧
      client.root.leaves.length = 1 := by
  obtain ⟨t, ht⟩ : ∃ t, buildVTXOTree .sum ⟨7, 0⟩ ⟨3000, []⟩ pairVtxos soleOperator
      soleOperator 144 2 = .ok t := ⟨_, rfl⟩
  have hspec := extractPathForCoSigners_spec .sum t [soleOperator] (by decide)
  obtain ⟨client, hclient, hleaves⟩ := (hspec.2 _ _ _ _ _ _ _ ht).2 (pairVtxo 2 1000)
    mem_cons_self (by decide)
  have hlength := congrArg length hleaves
  rw [length_map] at hlength
  exact ⟨t, client, ht, hclient, hlength⟩

/-- A leaf with a key that the node above it does not have. Both carry an asset. -/
def uncovered : Tree where
  root := .node ⟨⟨0, 0⟩, [⟨5, payToTaprootScript soleOwner⟩], [soleOperator], 5, none⟩
    [(0, .node ⟨⟨1, 0⟩, [⟨5, []⟩], [soleOwner], 5, none⟩ [])]
  batchOutpoint := ⟨0, 0⟩
  batchOutput := none
  sweepTapscriptRoot := []
  assetContext := some
    { amountsByInput := fun _ => 1
      leafRootsByInput := fun input => List.replicate (32 * input.hash) 0
      tweaksByInput := fun _ => List.replicate 32 0
      assetRef := "asset" }

/-- Without a key there is an error. A key that does not lead to its leaf is not found, and without
the leaf the child scripts are not valid any more. An owner with the operator's key finds all
leaves. -/
theorem extractPathForCoSigners_misses :
    ¬ (∃ client, uncovered.extractPathForCoSigners [] = .ok client) ∧
    (∃ leaf ∈ uncovered.root.leaves, soleOwner ∈ leaf.label.coSigners) ∧
    uncovered.extractPathForCoSigners [soleOwner] = .ok none ∧
    uncovered.validateChildScripts .sum = .ok () ∧
    (∃ both, uncovered.extractPathForCoSigners [soleOperator, soleOwner] = .ok (some both) ∧
      both.root.nodes.length = 2) ∧
    (∃ single, uncovered.extractPathForCoSigners [soleOperator] = .ok (some single) ∧
      single.root.nodes.length = 1 ∧ single.validateChildScripts .sum ≠ .ok ()) ∧
    ([pairVtxo 1 1000, pairVtxo 3 2000].map VTXODescriptor.coSignerKey).Nodup ∧
    ∃ t client, buildVTXOTree .sum ⟨7, 0⟩ ⟨3000, []⟩ [pairVtxo 1 1000, pairVtxo 3 2000]
        soleOperator soleOperator 144 2 = .ok t ∧
      t.extractPathForCoSigners [(pairVtxo 1 1000).coSignerKey] = .ok (some client) ∧
      client.root.leaves.length = 2 := by
  refine ⟨?_, ?_, ?_, ?_, ?_, ?_, ?_, ?_⟩
  · rintro ⟨client, h⟩
    cases h
  · decide
  · rfl
  · rfl
  · exact ⟨_, rfl, rfl⟩
  · refine ⟨_, rfl, rfl, ?_⟩
    intro h
    cases h
  · decide
  · exact ⟨_, _, rfl, rfl, rfl⟩

end Wavelength.Vtxotree
