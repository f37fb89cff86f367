import Wavelength.Vtxotree.Accepted

/-! # Extracted paths

An extraction keeps a node if it and all nodes above it have one of the keys. In a tree whose
branches have the keys of their children, and no others, these are the paths to the leaves that
have one of the keys.
-/

namespace Wavelength.Vtxotree

open List

/-! ## Asset contexts -/

section

variable {n : Node}

def AssetTreeContext.total (c : AssetTreeContext) (children : List NodeData) : ℕ :=
  (children.map fun d => c.amountsByInput d.input).sum

/-- What an asset context has to record of a node. -/
structure AssetNode (c : AssetTreeContext) (d : NodeData) (children : List NodeData) : Prop where
  amount : c.amountsByInput d.input ≠ 0
  tweak : (c.tweaksByInput d.input).length = 32
  leaf : children = [] → (c.leafRootsByInput d.input).length = 32
  branch : children ≠ [] → (c.leafRootsByInput d.input).length = 0
  total_le : c.total children ≤ c.amountsByInput d.input
  total_max : c.total children ≤ AssetTreeContext.maxUint64

theorem validateChildren_eq_ok {input : OutPoint} {start total : ℕ} {cs : List (ℕ × Node)}
    (hstart : start ≤ AssetTreeContext.maxUint64)
    (hcs : ∀ p ∈ cs, ∀ a, c.validateNode p.2 = .ok a ↔
      p.2.Locally (AssetNode c) ∧ a = c.amountsByInput p.2.label.input) :
    c.validateChildren input start cs = .ok total ↔
      (∀ p ∈ cs, p.2.Locally (AssetNode c)) ∧
        start + c.total (cs.map (·.2.label)) ≤ AssetTreeContext.maxUint64 ∧
        total = start + c.total (cs.map (·.2.label)) := by
  induction cs generalizing start with
  | nil => simp [AssetTreeContext.validateChildren, AssetTreeContext.total, hstart, eq_comm]
  | cons p cs ih =>
    obtain ⟨i, child⟩ := p
    rw [forall_mem_cons] at hcs ⊢
    have htotal : c.total (((i, child) :: cs).map (·.2.label)) =
        c.amountsByInput child.label.input + c.total (cs.map (·.2.label)) := rfl
    rw [htotal, AssetTreeContext.validateChildren, ← Nat.add_assoc]
    cases hchild : c.validateNode child with
    | error e =>
      have hlocal : ¬ Rose.Locally (AssetNode c) child := fun h => by
        have := (hcs.1 _).2 ⟨h, rfl⟩
        rw [hchild] at this
        cases this
      simp [hlocal]
    | ok a =>
      obtain ⟨hlocal, rfl⟩ := (hcs.1 a).1 hchild
      simp only [hlocal, true_and]
      split
      · next hlt =>
        constructor
        · rintro ⟨⟩
        · rintro ⟨-, hle, -⟩
          omega
      · next hle => exact ih (by omega) hcs.2

theorem validateNode_eq_ok {a : ℕ} :
    c.validateNode n = .ok a ↔ n.Locally (AssetNode c) ∧ a = c.amountsByInput n.label.input := by
  induction n using Rose.ind generalizing a with
  | node d cs ih =>
    have hchildren := fun total => @validateChildren_eq_ok c d.input 0 total cs (Nat.zero_le _)
      fun p hp a => ih p hp
    rw [AssetTreeContext.validateNode, Rose.locally_node, Rose.label_node]
    split
    · next hzero => exact ⟨by rintro ⟨⟩, fun h => absurd hzero h.1.1.amount⟩
    split
    · next htweak => exact ⟨by rintro ⟨⟩, fun h => absurd h.1.1.tweak htweak⟩
    next hzero htweak =>
    rw [ne_eq, not_not] at htweak
    split
    · next hempty =>
      obtain rfl := isEmpty_iff.1 hempty
      split
      · next hroot => exact ⟨by rintro ⟨⟩, fun h => absurd (h.1.1.leaf rfl) hroot⟩
      next hroot =>
      rw [ne_eq, not_not] at hroot
      have hnode : AssetNode c d [] := ⟨hzero, htweak, fun _ => hroot, fun h => absurd rfl h,
        Nat.zero_le _, Nat.zero_le _⟩
      simp [hnode, eq_comm]
    · next hne =>
      have hne : cs.map (·.2.label) ≠ [] := by simpa using hne
      split
      · next hroot => exact ⟨by rintro ⟨⟩, fun h => absurd (h.1.1.branch hne) hroot⟩
      next hroot =>
      rw [ne_eq, not_not] at hroot
      split
      · next e herror =>
        refine ⟨by rintro ⟨⟩, fun h => ?_⟩
        have := (hchildren _).2 ⟨h.1.2, by simpa using h.1.1.total_max, rfl⟩
        rw [herror] at this
        cases this
      · next total hok =>
        obtain ⟨hlocal, hmax, rfl⟩ := (hchildren _).1 hok
        rw [Nat.zero_add] at hmax ⊢
        split
        · next hlt => exact ⟨by rintro ⟨⟩, fun h => absurd h.1.1.total_le (not_le.2 hlt)⟩
        next hle =>
        have hnode : AssetNode c d (cs.map (·.2.label)) :=
          ⟨hzero, htweak, fun h => absurd h hne, fun _ => hroot, not_lt.1 hle, hmax⟩
        simp only [hnode, true_and, Except.ok.injEq, eq_comm, iff_and_self]
        exact fun _ => hlocal

theorem checkUniqueInputs_eq_ok :
    checkUniqueInputs seen inputs = .ok u ↔ inputs.Nodup ∧ ∀ input ∈ inputs, input ∉ seen := by
  induction inputs generalizing seen with
  | nil => simp [checkUniqueInputs]
  | cons input inputs ih =>
    rw [forall_mem_cons, nodup_cons]
    simp only [checkUniqueInputs, bind_eq_ok, require_eq_ok, exists_const, ih, mem_cons, not_or]
    constructor
    · rintro ⟨hseen, hnodup, hrest⟩
      exact ⟨⟨fun h => (hrest input h).1 rfl, hnodup⟩, hseen, fun i hi => (hrest i hi).2⟩
    · rintro ⟨⟨hinput, hnodup⟩, hseen, hrest⟩
      exact ⟨hseen, hnodup, fun i hi => ⟨fun h => hinput (h ▸ hi), hrest i hi⟩⟩

theorem validate_eq_ok :
    c.validate n = .ok u ↔ c.assetRef ≠ "" ∧ (n.nodes.map (·.label.input)).Nodup ∧
      n.Locally (AssetNode c) := by
  simp only [AssetTreeContext.validate, validateUniqueAssetInputs, bind_eq_ok, require_eq_ok,
    exists_const, checkUniqueInputs_eq_ok, validateNode_eq_ok]
  simp [pure, Except.pure]

end

/-! ## What an extraction keeps -/

def NodeData.HasKey (keys : List PublicKey) (d : NodeData) : Prop := ∃ key ∈ keys, key ∈ d.coSigners

def NodeData.cut (d : NodeData) : NodeData := { d with amount := 0 }

/-- A branch has the keys of its children, and no others. -/
def Covered (d : NodeData) (children : List NodeData) : Prop :=
  children ≠ [] → ∀ key, key ∈ d.coSigners ↔ ∃ child ∈ children, key ∈ child.coSigners

variable {d : NodeData} {c : AssetTreeContext}

section

variable {keys : List PublicKey} {n path : Node} {t client : Tree}

theorem extractNode_keys : extractNode keys d = some d' ↔ d.HasKey keys ∧ d' = d.cut := by
  have hany : keys.any (containsCosigner d.coSigners) = true ↔ d.HasKey keys := by
    simp [containsCosigner, NodeData.HasKey]
  rw [extractNode, ← hany]
  split
  · next htrue => simp [htrue, NodeData.cut, eq_comm]
  · next hfalse => simp [hfalse]

theorem extractNode_isSome : (extractNode keys d).isSome ↔ d.HasKey keys := by
  simp only [Option.isSome_iff_exists, extractNode_keys, exists_and_left, exists_eq, and_true]

theorem extractNodePath_isSome : (extractNodePath keys n).isSome ↔ n.label.HasKey keys := by
  rw [extractNodePath, Rose.isSome_prune, extractNode_isSome]

/-- A node is kept together with all nodes above it, or not at all. -/
theorem trail_path (h : extractNodePath keys n = some path) :
    path.Trail ks bs m' ↔ ∃ as m, n.Trail ks as m ∧ (∀ a ∈ as, a.HasKey keys) ∧
      bs = as.map .cut ∧ extractNodePath keys m = some m' := by
  have hkept : ∀ as bs : List NodeData, Forall₂ (fun a b => extractNode keys a = some b) as bs ↔
      (∀ a ∈ as, a.HasKey keys) ∧ bs = as.map .cut := by
    intro as bs
    simp only [extractNode_keys]
    rw [forall₂_and_left, ← forall₂_eq_eq_eq, forall₂_map_right_iff]
    exact and_congr_right fun _ => ⟨fun h => h.flip, fun h => h.flip⟩
  rw [Rose.trail_prune h]
  simp only [hkept, and_assoc]
  rfl

theorem extractNodePath_again (h : extractNodePath keys n = some path) :
    extractNodePath keys path = some path := by
  have hall : n.Nodes fun _ => True := fun _ _ => trivial
  apply Rose.prune_eq_self
  refine hall.prune h fun a b hab _ => ?_
  obtain ⟨hkey, rfl⟩ := extractNode_keys.1 hab
  exact extractNode_keys.2 ⟨hkey, rfl⟩

/-! ## Verification of a path -/

theorem NodeData.Spends.cut (h : d.Spends op value) : d.cut.Spends op value :=
  ⟨h.input, ⟨h.valid.outputs, h.valid.nonneg, h.valid.total⟩, h.total⟩

theorem ValueLink.cut (h : ValueLink crypto a i b) : ValueLink crypto a.cut i b.cut := by
  obtain ⟨o, ho, hspends⟩ := h
  exact ⟨o, ho, hspends.cut⟩

theorem verify_path (hpath : extractNodePath keys t.root = some path)
    (h : t.verify crypto = .ok ()) : (t.withRoot path).verify crypto = .ok () := by
  obtain ⟨batchOutput, hbatch, hroot, hedges⟩ := verify_eq_ok.1 h
  refine verify_eq_ok.2 ⟨batchOutput, hbatch, ?_, ?_⟩
  · have hlabel := (extractNode_keys.1 (Rose.label_prune hpath)).2
    rw [Tree.withRoot, hlabel]
    exact hroot.cut
  refine hedges.prune hpath fun a i b a' b' ha hb hlink => ?_
  obtain ⟨-, rfl⟩ := extractNode_keys.1 ha
  obtain ⟨-, rfl⟩ := extractNode_keys.1 hb
  exact hlink.cut

theorem cloneForRoot_amounts (hn : n ∈ root.nodes) :
    (c.cloneForRoot root).amountsByInput n.label.input = c.amountsByInput n.label.input ∧
      (c.cloneForRoot root).leafRootsByInput n.label.input = c.leafRootsByInput n.label.input ∧
      (c.cloneForRoot root).tweaksByInput n.label.input = c.tweaksByInput n.label.input := by
  have hmem : n.label.input ∈ root.nodes.map (·.label.input) :=
    mem_map_of_mem (f := fun n : Node => n.label.input) hn
  simp only [AssetTreeContext.cloneForRoot, if_pos hmem, and_self]

theorem locally_cloneForRoot (hlocal : n.Locally (AssetNode c)) :
    n.Locally (AssetNode (c.cloneForRoot n)) := by
  intro m hm
  obtain ⟨hamount, hroot, htweak⟩ := cloneForRoot_amounts (c := c) hm
  have htotal : (c.cloneForRoot n).total (m.children.map (·.2.label)) =
      c.total (m.children.map (·.2.label)) := by
    rw [AssetTreeContext.total, AssetTreeContext.total, map_map, map_map]
    congr 1
    refine map_congr_left fun p hp => ?_
    exact (cloneForRoot_amounts (Rose.child_mem_nodes hm hp)).1
  have h := hlocal m hm
  constructor
  · rw [hamount]
    exact h.amount
  · rw [htweak]
    exact h.tweak
  · rw [hroot]
    exact h.leaf
  · rw [hroot]
    exact h.branch
  · rw [htotal, hamount]
    exact h.total_le
  · rw [htotal]
    exact h.total_max

/-! ## Covered trees -/

theorem Covered.trail (hcov : n.Locally Covered) (htrail : n.Trail ks as m)
    (hkey : key ∈ m.label.coSigners) : ∀ a ∈ as, key ∈ a.coSigners := by
  induction htrail with
  | root n =>
    intro a ha
    rw [mem_singleton.1 ha]
    exact hkey
  | @step a cs i c m ks as child rest ih =>
    rw [Rose.locally_node] at hcov
    have hbelow := ih (hcov.2 _ child) hkey
    have hchild : key ∈ c.label.coSigners := by
      cases rest with
      | root => exact hkey
      | step => exact hbelow _ mem_cons_self
    have hmem : c.label ∈ cs.map (·.2.label) :=
      mem_map_of_mem (f := fun p : ℕ × Node => p.2.label) child
    rw [forall_mem_cons]
    exact ⟨(hcov.1 (ne_nil_of_mem hmem) key).2 ⟨_, hmem, hchild⟩, hbelow⟩

theorem Covered.hasKey (h : Covered d children) (hne : children ≠ []) :
    d.HasKey keys ↔ ∃ child ∈ children, child.HasKey keys := by
  constructor
  · rintro ⟨key, hkey, hd⟩
    obtain ⟨child, hchild, hc⟩ := (h hne key).1 hd
    exact ⟨child, hchild, key, hkey, hc⟩
  · rintro ⟨child, hchild, key, hkey, hc⟩
    exact ⟨key, hkey, (h hne key).2 ⟨child, hchild, hc⟩⟩

variable (hcov : n.Locally Covered) (h : extractNodePath keys n = some path)
include hcov h

theorem Covered.leaves :
    path.leaves = n.leaves.filterMap fun l => (extractNode keys l.label).map (.node · []) := by
  have hleaves := Rose.leaves_prune (f := extractNode keys) (t := n) fun m hm hne => by
    rw [extractNode_isSome, (hcov m hm).hasKey (by simpa using hne)]
    simp only [mem_map, extractNode_isSome]
    constructor
    · rintro ⟨_, ⟨p, hp, rfl⟩, hkey⟩
      exact ⟨p, hp, hkey⟩
    · rintro ⟨p, hp, hkey⟩
      exact ⟨_, ⟨p, hp, rfl⟩, hkey⟩
  rw [← hleaves, ← extractNodePath, h]
  simp

theorem Covered.children_eq_nil
    (hpath : path.children = []) : n.children = [] := by
  by_contra hne
  have hlabels := Rose.map_label_children_prune h
  have hroot := hcov n (Rose.self_mem_nodes n)
  obtain ⟨child, hchild, hkey⟩ :=
    (hroot.hasKey (by simpa using hne)).1 (extractNode_keys.1 (Rose.label_prune h)).1
  rw [hpath, map_nil, eq_comm, filterMap_eq_nil_iff] at hlabels
  have hnone := hlabels child hchild
  rw [extractNode_keys.2 ⟨hkey, rfl⟩] at hnone
  cases hnone

omit hcov h

/-- The context of the path is sound where branches keep some of their children. -/
theorem AssetNode.prune (h : AssetNode c d children) (hcov : Covered d children)
    (hkey : d.HasKey keys) : AssetNode c d.cut (children.filterMap (extractNode keys)) := by
  have htotal : c.total (children.filterMap (extractNode keys)) ≤ c.total children := by
    clear h hcov hkey
    induction children with
    | nil => exact le_refl _
    | cons child children ih =>
      rw [filterMap_cons]
      cases hc : extractNode keys child with
      | none =>
        refine ih.trans ?_
        simp [AssetTreeContext.total]
      | some d =>
        obtain ⟨-, rfl⟩ := extractNode_keys.1 hc
        simp only [AssetTreeContext.total, map_cons, sum_cons] at ih ⊢
        exact Nat.add_le_add_left ih _
  have hnil : children.filterMap (extractNode keys) = [] ↔ children = [] := by
    constructor
    · intro hfilter
      by_contra hne
      obtain ⟨child, hchild, hkey⟩ := (hcov.hasKey hne).1 hkey
      have hnone := filterMap_eq_nil_iff.1 hfilter child hchild
      rw [extractNode_keys.2 ⟨hkey, rfl⟩] at hnone
      cases hnone
    · rintro rfl
      rfl
  refine ⟨h.amount, h.tweak, fun hempty => h.leaf (hnil.1 hempty),
    fun hne => h.branch (mt hnil.2 hne), htotal.trans h.total_le, htotal.trans h.total_max⟩

theorem validate_path (hcov : n.Locally Covered) (hpath : extractNodePath keys n = some path)
    (h : c.validate n = .ok ()) :
    (c.cloneForRoot path).validate path = .ok () := by
  obtain ⟨href, hunique, hlocal⟩ := validate_eq_ok.1 h
  refine validate_eq_ok.2 ⟨href, hunique.sublist ?_, locally_cloneForRoot ?_⟩
  · apply Rose.nodes_prune_sublist (g := NodeData.input) (h := hpath)
    intro a b hab
    rw [(extractNode_keys.1 hab).2]
    rfl
  have hboth : n.Locally fun d children => AssetNode c d children ∧ Covered d children :=
    fun m hm => ⟨hlocal m hm, hcov m hm⟩
  refine hboth.prune hpath fun a b children hab hnode => ?_
  obtain ⟨hkey, rfl⟩ := extractNode_keys.1 hab
  exact hnode.1.prune hnode.2 hkey

theorem childSigningTweak_withRoot (hn : n ∈ path.nodes) :
    (t.withRoot path).childSigningTweak n.label = t.childSigningTweak n.label := by
  unfold Tree.childSigningTweak Tree.withRoot
  cases t.assetContext with
  | none => rfl
  | some c => exact (cloneForRoot_amounts hn).2.2

theorem validateChildScripts_path (hcov : t.assetContext = none ∨ t.root.Locally Covered)
    (hpath : extractNodePath keys t.root = some path)
    (h : t.validateChildScripts crypto = .ok ()) :
    (t.withRoot path).validateChildScripts crypto = .ok () := by
  obtain ⟨hasset, hedges⟩ := validateChildScripts_eq_ok.1 h
  refine validateChildScripts_eq_ok.2 ⟨?_, ?_⟩
  · cases hcontext : t.assetContext with
    | none =>
      unfold Tree.validateAssetContext Tree.withRoot
      rw [hcontext]
      rfl
    | some c =>
      unfold Tree.validateAssetContext Tree.withRoot at *
      rw [hcontext] at hasset hcov ⊢
      have hcov := hcov.resolve_left (by rintro ⟨⟩)
      exact mapError_eq_ok.2 (validate_path hcov hpath (mapError_eq_ok.1 hasset))
  · have hcut : path.Edges (ScriptLink crypto t.childSigningTweak) := by
      refine hedges.prune hpath fun a i b a' b' ha hb hlink => ?_
      obtain ⟨-, rfl⟩ := extractNode_keys.1 ha
      obtain ⟨-, rfl⟩ := extractNode_keys.1 hb
      exact hlink
    intro m hm p hp
    unfold ScriptLink
    have hchild : p.2 ∈ path.nodes := Rose.child_mem_nodes hm hp
    rw [childSigningTweak_withRoot hchild]
    exact hcut m hm p hp

theorem withRoot_withRoot : (t.withRoot path).withRoot path = t.withRoot path := by
  unfold Tree.withRoot
  cases t.assetContext with
  | none => rfl
  | some c =>
    have hclone : (c.cloneForRoot path).cloneForRoot path = c.cloneForRoot path := by
      unfold AssetTreeContext.cloneForRoot
      congr 1 <;> funext input <;> split <;> simp_all
    rw [Option.map_some, Option.map_some, hclone]

end

end Wavelength.Vtxotree
