import Wavelength.Vtxotree.Filled

/-! # Every batch gets its tree

The tree that is built from valid descriptors passes all validators, and so does the path that each
owner cuts out of it.
-/

namespace Wavelength.Vtxotree

open List

section

variable {input : OutPoint}

/-! ## The validators on a filled tree -/

theorem NodeData.Filled.valid {d : NodeData} (h : d.Filled bound) (hbound : bound ≤ maxSatoshi) :
    d.Valid where
  outputs := by
    intro hnil
    have hanchored := h.anchored
    rw [NodeData.Anchored, hnil] at hanchored
    cases hanchored
  nonneg := h.nonneg
  total := h.total ▸ h.amount_le.trans hbound

/-- Both conditions on an edge. -/
def Linked (crypto : Crypto) (tweak : List UInt8) (a : NodeData) (i : ℕ) (b : NodeData) : Prop :=
  ValueLink crypto a i b ∧ ScriptLink crypto (fun _ => tweak) a i b

theorem Filled.linked (h : Filled crypto tweak radix bound shape input n)
    (hbound : bound ≤ maxSatoshi) : n.Edges (Linked crypto tweak) := by
  refine h.edges.imp h.nodes fun a i b _ hb hfunds => ?_
  constructor
  · exact ⟨_, hfunds.output, hfunds.input, hb.valid hbound, hb.total⟩
  · exact ⟨_, hfunds.output, cosignerScript_of_ne_nil hfunds.coSigners⟩

/-! ## Assembled trees -/

variable {t : Tree}

/-- A Bitcoin tree over a filled root, on an output that holds the total of the leaves. -/
structure Assembled (crypto : Crypto) (radix : ℕ) (batchOutput : TxOut) (shape : Shape) (t : Tree) :
    Prop where
  filled : Filled crypto t.sweepTapscriptRoot radix batchOutput.value shape t.batchOutpoint t.root
  batch : t.batchOutput = some batchOutput
  asset : t.assetContext = none
  sum : shape.amount = batchOutput.value

theorem childSigningTweak_bitcoin (h : t.assetContext = none) :
    t.childSigningTweak = fun _ => t.sweepTapscriptRoot := by
  funext d
  rw [Tree.childSigningTweak, h]

theorem validateAssetContext_bitcoin (h : t.assetContext = none) :
    t.validateAssetContext = .ok () := by
  rw [Tree.validateAssetContext, h]

variable (h : Assembled crypto radix batchOutput shape t)
include h

theorem Assembled.total : t.root.label.total = batchOutput.value := by
  rw [(h.filled.nodes _ (Rose.self_mem_nodes _)).total, h.filled.kept.amount, h.sum]

theorem Assembled.spends
    (hmax : batchOutput.value ≤ maxSatoshi) :
    t.root.label.Spends t.batchOutpoint batchOutput.value :=
  ⟨h.filled.input, (h.filled.nodes _ (Rose.self_mem_nodes _)).valid hmax, h.total⟩

theorem Assembled.verify
    (hmax : batchOutput.value ≤ maxSatoshi) :
    t.verify crypto = .ok () ∧ t.validateChildScripts crypto = .ok () := by
  have hedges := h.filled.linked hmax
  constructor
  · rw [verify_eq_ok]
    exact ⟨batchOutput, h.batch, h.spends hmax, fun m hm p hp => (hedges m hm p hp).1⟩
  · rw [validateChildScripts_eq_ok, childSigningTweak_bitcoin h.asset]
    exact ⟨validateAssetContext_bitcoin h.asset, fun m hm p hp => (hedges m hm p hp).2⟩

omit h

end

/-! ## Building from descriptors -/

section

variable {vtxos : List VTXODescriptor} {crypto : Crypto} {operator sweepKey : PublicKey}

variable (vtxos) in
theorem sortLeaves_perm : (sortLeaves (vtxos.map VTXODescriptor.toLeafDescriptor)).Perm
    (vtxos.map VTXODescriptor.toLeafDescriptor) := perm_insertionSort _ _

theorem amounts_sortLeaves : amounts (sortLeaves (vtxos.map VTXODescriptor.toLeafDescriptor)) =
    (vtxos.map VTXODescriptor.amount).sum := by
  rw [amounts_perm (sortLeaves_perm vtxos), amounts, map_map]
  rfl

theorem leaves_of_valid (hvalid : validateVTXODescriptors vtxos = .ok ()) :
    sortLeaves (vtxos.map VTXODescriptor.toLeafDescriptor) ≠ [] ∧
      ∀ l ∈ sortLeaves (vtxos.map VTXODescriptor.toLeafDescriptor),
        0 < l.amount ∧ l.pkScript ≠ [] := by
  obtain ⟨hne, hall, -⟩ := validateVTXODescriptors_eq_ok.1 hvalid
  constructor
  · intro hnil
    exact hne (map_eq_nil_iff.1 (hnil ▸ sortLeaves_perm vtxos).nil_eq.symm)
  · intro l hl
    obtain ⟨v, hv, rfl⟩ := mem_map.1 ((sortLeaves_perm vtxos).mem_iff.1 hl)
    exact ⟨(hall v hv).1, isPayToTaproot_ne_nil (hall v hv).2⟩

variable (crypto operator batchOutpoint) in
/-- Valid descriptors whose total is the batch output become a tree. -/
theorem buildVTXOTree_spec (hvalid : validateVTXODescriptors vtxos = .ok ()) (hradix : 2 ≤ radix)
    (hleaf : unilateralCSVTimeoutTapLeaf sweepKey sweepDelay = .ok sweepLeaf)
    (hsum : (vtxos.map VTXODescriptor.amount).sum = batchOutput.value)
    (hmax : batchOutput.value ≤ maxInt64) :
    ∃ t shape, buildVTXOTree crypto batchOutpoint batchOutput vtxos operator sweepKey sweepDelay
        radix = .ok t ∧
      t.batchOutpoint = batchOutpoint ∧ t.sweepTapscriptRoot = crypto.tapHash sweepLeaf ∧
      Assembled crypto radix batchOutput shape t := by
  obtain ⟨hne, hall⟩ := leaves_of_valid hvalid
  have htotal := amounts_sortLeaves.trans hsum
  obtain ⟨shape, hshape⟩ :=
    exists_structure operator hradix hne (fun l hl => (hall l hl).1) (htotal ▸ hmax)
  obtain ⟨hamount, hfillable⟩ := structure_fillable hradix hne (fun l hl => (hall l hl).1)
    (fun l hl => (hall l hl).2) (htotal ▸ hmax) htotal.le hshape
  obtain ⟨root, hroot, hfilled⟩ : ∃ root,
      materialize crypto (crypto.tapHash sweepLeaf) batchOutpoint shape = .ok root ∧
        Filled crypto (crypto.tapHash sweepLeaf) radix batchOutput.value shape.label batchOutpoint
          root := materialize_filled hfillable
  refine ⟨⟨root, batchOutpoint, some batchOutput, crypto.tapHash sweepLeaf, none⟩, shape.label, ?_,
    rfl, rfl, hfilled, rfl, rfl, hamount.trans htotal⟩
  have hdefault : (if radix = 0 then defaultRadix else radix) = radix := if_neg (by omega)
  simp only [buildVTXOTree, buildTree, bind_eq_ok, require_eq_ok, exists_const, hdefault]
  exact ⟨(), hvalid, hradix, sweepLeaf, hleaf, hne, .inl hradix, shape, hshape,
    hamount.trans htotal, root, hroot, rfl⟩

/-- An owner of a tree that passes the checks accepts the path that it cuts out of it. -/
theorem owner_accepts
    (h : buildVTXOTree crypto batchOutpoint batchOutput vtxos operator sweepKey sweepDelay radix =
      .ok t) (hverify : t.verify crypto = .ok ())
    (hscripts : t.validateChildScripts crypto = .ok ()) (hv : v ∈ vtxos)
    (hx : v.coSignerKey.x ≠ operator.x) (hscript : v.pkScript ≠ []) :
    ∃ client, t.extractPathForCoSigners [v.coSignerKey] = .ok (some client) ∧
      client.validatePath crypto v.coSignerKey v.toLeafDescriptor operator = .ok client := by
  obtain ⟨client, hclient, hviews⟩ := owner_path h hv hx
  obtain ⟨path, hpath, rfl⟩ := extractPathForCoSigners_eq_ok.1 hclient
  obtain ⟨leaf, hleaves, hview⟩ := map_eq_singleton_iff.1 hviews
  rw [NodeData.view, Prod.mk.injEq] at hview
  have hagain := extractPathForCoSigners_eq_ok.2
    ⟨path, extractNodePath_again hpath, (withRoot_withRoot (t := t)).symm⟩
  have hall : t.root.Nodes fun _ => True := fun _ _ => trivial
  have hsigns : path.Nodes (v.coSignerKey ∈ ·.coSigners) := by
    refine hall.prune hpath fun a b hab _ => ?_
    obtain ⟨⟨key, hkey, hmem⟩, rfl⟩ := extractNode_keys.1 hab
    exact mem_singleton.1 hkey ▸ hmem
  refine ⟨_, hclient, validatePath_eq_ok.2 ⟨hagain, leaf, _, _, hscript,
    verify_path hpath hverify, ?_, hleaves, hview.2, rfl, rfl, hsigns, rfl, ?_⟩⟩
  · exact validateChildScripts_path (.inr (buildVTXOTree_owned h).2.2.1) hpath hscripts
  · rw [hview.1]
    exact mem_cons_self

end

/-- The tree of a batch passes every check, has the leaves that were asked for, and serves every
owner. -/
structure Serves (crypto : Crypto) (vtxos : List VTXODescriptor) (operator : PublicKey)
    (radix : ℕ) (batchOutput : TxOut) (t : Tree) : Prop where
  verify : t.verify crypto = .ok ()
  childScripts : t.validateChildScripts crypto = .ok ()
  anchors : t.validateAnchors = .ok ()
  leaves : (t.root.leaves.map fun l => (l.label.outputs, l.label.coSigners)).Perm
    (vtxos.map fun v => ([⟨v.amount, v.pkScript⟩, anchorOutput], [operator, v.coSignerKey]))
  branches : ∀ n ∈ t.root.nodes, n.children.length ≤ radix
  root_value : t.root.label.total = batchOutput.value
  values : t.root.Edges fun a i b => ∃ o, a.outputs[i]? = some o ∧ b.total = o.value
  paths : ∀ v ∈ vtxos, ∃ client,
    t.extractPathForCoSigners [v.coSignerKey] = .ok (some client) ∧
      client.validatePath crypto v.coSignerKey v.toLeafDescriptor operator = .ok client

/-- Every valid batch gets a tree. The scripts have to be taproot scripts, the delay has to be a
block delay, and no owner may use the operator's key. -/
theorem buildVTXOTree_complete (crypto : Crypto) (batchOutpoint : OutPoint) (batchOutput : TxOut)
    (vtxos : List VTXODescriptor) (operator sweepKey : PublicKey) (sweepDelay radix : ℕ)
    (hne : vtxos ≠ []) (hpos : ∀ v ∈ vtxos, 0 < v.amount)
    (hnodup : (vtxos.map (·.coSignerKey.x)).Nodup)
    (hsum : (vtxos.map VTXODescriptor.amount).sum = batchOutput.value)
    (hmax : batchOutput.value ≤ maxSatoshi) (hradix : 2 ≤ radix)
    (htaproot : ∀ v ∈ vtxos, isPayToTaproot v.pkScript)
    (hdelay : 1 ≤ sweepDelay ∧ sweepDelay ≤ 0xffff)
    (hoperator : ∀ v ∈ vtxos, v.coSignerKey.x ≠ operator.x) :
    ∃ t, buildVTXOTree crypto batchOutpoint batchOutput vtxos operator sweepKey sweepDelay radix =
        .ok t ∧ Serves crypto vtxos operator radix batchOutput t := by
  have hvalid : validateVTXODescriptors vtxos = .ok () :=
    validateVTXODescriptors_eq_ok.2 ⟨hne, fun v hv => ⟨hpos v hv, htaproot v hv⟩, hnodup⟩
  obtain ⟨sweepLeaf, hleaf⟩ : ∃ sweepLeaf,
      unilateralCSVTimeoutTapLeaf sweepKey sweepDelay = .ok sweepLeaf := by
    simp only [unilateralCSVTimeoutTapLeaf, bind_eq_ok, require_eq_ok, exists_const]
    exact ⟨_, ⟨by omega, hdelay.2⟩, rfl⟩
  have hint64 : batchOutput.value ≤ maxInt64 := hmax.trans (by decide)
  obtain ⟨t, shape, hbuild, -, -, h⟩ :=
    buildVTXOTree_spec crypto operator batchOutpoint hvalid hradix hleaf hsum hint64
  obtain ⟨hverify, hscripts⟩ := h.verify hmax
  refine ⟨t, hbuild, hverify, hscripts, ?_, ?_, h.filled.length, h.total, ?_, ?_⟩
  · rw [validateAnchors_eq_ok]
    exact h.filled.nodes.imp fun _ hd => hd.anchored
  · have hleaves := (buildVTXOTree_owned hbuild).2.2.2.map Prod.swap
    rw [map_map, map_map] at hleaves
    refine hleaves.trans (.of_eq (map_congr_left fun v hv => ?_))
    rw [Function.comp_apply, view_owner (hoperator v hv)]
    rfl
  · intro m hm p hp
    obtain ⟨⟨o, ho, hspends⟩, -⟩ := h.filled.linked hmax m hm p hp
    exact ⟨o, ho, hspends.total⟩
  · intro v hv
    exact owner_accepts hbuild hverify hscripts hv (hoperator v hv)
      (isPayToTaproot_ne_nil (htaproot v hv))

theorem buildVTXOTree_complete_pair :
    ∃ t, buildVTXOTree .sum ⟨7, 0⟩ ⟨3000, []⟩ pairVtxos soleOperator soleOperator 144 2 =
        .ok t ∧ Serves .sum pairVtxos soleOperator 2 ⟨3000, []⟩ t :=
  buildVTXOTree_complete .sum ⟨7, 0⟩ ⟨3000, []⟩ pairVtxos soleOperator soleOperator 144 2
    (by decide) (by decide) (by decide) (by decide) (by decide) (by decide) (by decide) (by decide)
    (by decide)

/-- No tree is built for a delay of zero or for a script that is not a taproot script. An owner with
the operator's key gets a tree in which it does not find its own path. -/
theorem buildVTXOTree_refuses :
    (¬ ∃ t, buildVTXOTree .sum ⟨7, 0⟩ ⟨3000, []⟩ pairVtxos soleOperator soleOperator 0 2 =
        .ok t) ∧
      (¬ ∃ t, buildVTXOTree .sum ⟨7, 0⟩ ⟨1000, []⟩ [{ pairVtxo 2 1000 with pkScript := [0x6a] }]
        soleOperator soleOperator 144 2 = .ok t) ∧
      ¬ ∃ t, buildVTXOTree .sum ⟨7, 0⟩ ⟨3000, []⟩ [pairVtxo 1 1000, pairVtxo 3 2000]
          soleOperator soleOperator 144 2 = .ok t ∧
        ∃ client, t.extractPathForCoSigners [soleOperator] = .ok (some client) ∧
          client.validatePath .sum soleOperator (pairVtxo 1 1000).toLeafDescriptor
            soleOperator = .ok client := by
  refine ⟨?_, ?_, ?_⟩
  · rintro ⟨t, h⟩
    cases h
  · rintro ⟨t, h⟩
    cases h
  -- The operator signs for both leaves, so its path has two of them.
  have hrejected : ((buildVTXOTree .sum ⟨7, 0⟩ ⟨3000, []⟩
      [pairVtxo 1 1000, pairVtxo 3 2000] soleOperator soleOperator 144 2).toOption.any fun t =>
        (t.extractPathForCoSigners [soleOperator]).toOption.join.any fun client =>
          (client.validatePath .sum soleOperator (pairVtxo 1 1000).toLeafDescriptor
            soleOperator).toOption.isSome) = false := by
    decide +kernel
  rintro ⟨t, hbuild, client, hclient, hvalid⟩
  rw [hbuild] at hrejected
  simp [Except.toOption, hclient, hvalid] at hrejected

end Wavelength.Vtxotree
