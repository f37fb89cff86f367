import Wavelength.Vtxotree.Complete

/-! # The batch output and the root of the tree

The batch output is computed from the list of descriptors, the root of the tree from a recursion
over groups of them. Both end with the same total and the same set of keys, in whatever order the
descriptors come.
-/

namespace Wavelength.Vtxotree

open List

section

/-- The loop adds the amounts and collects the keys, where the descriptors have different keys. -/
theorem collectSigners_ok (htotal : total ≤ maxInt64) (hnodup : (vtxos.map (·.coSignerKey.x)).Nodup)
    (hseen : ∀ v ∈ vtxos, v.coSignerKey.x ∈ seen → v.coSignerKey.x = operator.x)
    (h : collectSigners operator i total seen signers vtxos = .ok r) :
    r = (total + (vtxos.map VTXODescriptor.amount).sum,
        signers ++ vtxos.map VTXODescriptor.coSignerKey) ∧
      (∀ v ∈ vtxos, v.coSignerKey.x ≠ operator.x) ∧ r.1 ≤ maxInt64 := by
  induction vtxos generalizing i total seen signers with
  | nil =>
    cases h
    simpa using htotal
  | cons v vtxos ih =>
    simp only [collectSigners, bind_eq_ok, require_eq_ok, exists_const] at h
    obtain ⟨-, hle, hoperator, h⟩ := h
    rw [map_cons, nodup_cons] at hnodup
    rw [if_neg fun hmem => hoperator (hseen v mem_cons_self hmem)] at h
    have hrest : ∀ w ∈ vtxos, w.coSignerKey.x ∈ v.coSignerKey.x :: seen →
        w.coSignerKey.x = operator.x := by
      intro w hw hmem
      rcases mem_cons.1 hmem with heq | hmem
      · exact absurd (heq ▸ mem_map_of_mem hw) hnodup.1
      · exact hseen w (mem_cons_of_mem _ hw) hmem
    obtain ⟨rfl, hothers, hmax⟩ := ih (by omega) hnodup.2 hrest h
    refine ⟨?_, ?_, hmax⟩
    · rw [map_cons, map_cons, sum_cons, append_assoc, ← add_assoc]
      rfl
    · exact forall_mem_cons.2 ⟨hoperator, hothers⟩

theorem buildBatchOutputSpec_ok (hnodup : (vtxos.map (·.coSignerKey.x)).Nodup)
    (h : buildBatchOutputSpec crypto vtxos operator sweepKey sweepDelay = .ok spec) :
    unilateralCSVTimeoutTapLeaf sweepKey sweepDelay = .ok spec.sweepLeaf ∧
      spec.output = ⟨(vtxos.map VTXODescriptor.amount).sum,
        payToTaprootScript (crypto.aggregateKeys
          (operator :: vtxos.map VTXODescriptor.coSignerKey)
          (crypto.tapHash spec.sweepLeaf)).finalKey⟩ ∧
      (∀ v ∈ vtxos, v.coSignerKey.x ≠ operator.x) ∧ spec.output.value ≤ maxInt64 := by
  simp only [buildBatchOutputSpec, bind_eq_ok, require_eq_ok, exists_const] at h
  obtain ⟨-, sweepLeaf, hleaf, r, hr, hspec⟩ := h
  obtain ⟨rfl, hoperator, hmax⟩ := collectSigners_ok (by decide) hnodup (by simp) hr
  cases hspec
  rw [zero_add] at hmax ⊢
  exact ⟨hleaf, rfl, hoperator, hmax⟩

variable (h : buildVTXOTree crypto batchOutpoint batchOutput vtxos operator sweepKey sweepDelay radix = .ok t)
include h

theorem buildVTXOTree_ok :
    validateVTXODescriptors vtxos = .ok () ∧ 2 ≤ radix ∧
      ∃ shape, buildStructureRecursive operator radix LeafDescriptor.amount
          (sortLeaves (vtxos.map VTXODescriptor.toLeafDescriptor)).length
          (sortLeaves (vtxos.map VTXODescriptor.toLeafDescriptor)) = .ok shape ∧
        shape.label.amount = batchOutput.value := by
  simp only [buildVTXOTree, buildTree, bind_eq_ok, require_eq_ok, exists_const] at h
  obtain ⟨_, hvalid, hradix, _, -, -, -, shape, hshape, hamount, -⟩ := h
  rw [if_neg (by omega)] at hshape
  exact ⟨hvalid, hradix, shape, hshape, hamount⟩

/-- A tree is built only on an output that has the total of the descriptors. -/
theorem sum_of_built (hmax : (vtxos.map VTXODescriptor.amount).sum ≤ maxInt64) :
    (vtxos.map VTXODescriptor.amount).sum = batchOutput.value := by
  obtain ⟨hvalid, hradix, shape, hshape, hamount⟩ := buildVTXOTree_ok h
  obtain ⟨hne, hall⟩ := leaves_of_valid hvalid
  rw [← hamount, ← amounts_sortLeaves, (structure_fillable hradix hne (fun l hl => (hall l hl).1)
    (fun l hl => (hall l hl).2) (amounts_sortLeaves.trans_le hmax) le_rfl hshape).1]

omit h

theorem cosignerScript_perm {keys keys' : List PublicKey} (h : keys.Perm keys')
    (hlength : 2 ≤ keys'.length) :
    cosignerScript crypto keys tweak =
      .ok (payToTaprootScript (crypto.aggregateKeys keys' tweak).finalKey) := by
  rw [← crypto.aggregateKeys_perm _ _ tweak h]
  match keys, h.length_eq ▸ hlength with
  | _ :: _ :: _, _ => rfl

end

/-- The output and the root agree on value and script, and a commitment with that output is accepted
if its value is in the monetary range. -/
theorem batchOutput_matches_root (crypto : Crypto) (batchOutpoint : OutPoint) (batchOutput : TxOut)
    (vtxos vtxos' : List VTXODescriptor) (operator sweepKey : PublicKey) (sweepDelay radix : ℕ)
    (spec : BatchOutputSpec) (t : Tree) (hperm : vtxos'.Perm vtxos)
    (hspec : buildBatchOutputSpec crypto vtxos operator sweepKey sweepDelay = .ok spec)
    (htree : buildVTXOTree crypto batchOutpoint batchOutput vtxos' operator sweepKey sweepDelay
      radix = .ok t) :
    spec.output.value = batchOutput.value ∧ spec.output.value = t.root.label.total ∧
      cosignerScript crypto t.root.label.coSigners t.sweepTapscriptRoot = .ok spec.output.pkScript ∧
      (batchOutput = spec.output → spec.output.value ≤ maxSatoshi →
        ∀ commitmentTx : MsgTx, batchOutpoint.hash = crypto.txHash commitmentTx →
          commitmentTx.txOut[batchOutpoint.index]? = some spec.output →
          verifyVTXOTreeRoot crypto commitmentTx (crypto.txHash commitmentTx) batchOutpoint.index
            t = .ok ()) := by
  obtain ⟨hvalid, hradix, -⟩ := buildVTXOTree_ok htree
  have hnodup : (vtxos.map (·.coSignerKey.x)).Nodup :=
    (hperm.map _).nodup_iff.1 (validateVTXODescriptors_eq_ok.1 hvalid).2.2
  obtain ⟨hleaf, houtput, hoperator, hmax⟩ := buildBatchOutputSpec_ok hnodup hspec
  have htotal : (vtxos'.map VTXODescriptor.amount).sum = spec.output.value := by
    rw [houtput, (hperm.map _).sum_eq]
  have hsum := sum_of_built htree (htotal ▸ hmax)
  have hvalue : spec.output.value = batchOutput.value := htotal.symm.trans hsum
  obtain ⟨t', shape, hbuild, houtpoint, hroot, h⟩ := buildVTXOTree_spec crypto operator batchOutpoint
    hvalid hradix hleaf hsum (hvalue ▸ hmax)
  cases htree.symm.trans hbuild
  have hscript : cosignerScript crypto t.root.label.coSigners t.sweepTapscriptRoot =
      .ok spec.output.pkScript := by
    obtain ⟨hsigners, hkeys⟩ := (buildVTXOTree_owned htree).2.1
    have hall : (operator :: vtxos.map VTXODescriptor.coSignerKey).Nodup := by
      refine nodup_cons.2 ⟨fun hmem => ?_, .of_map PublicKey.x ?_⟩
      · obtain ⟨v, hv, heq⟩ := mem_map.1 hmem
        exact hoperator v hv (congrArg PublicKey.x heq)
      · rwa [map_map]
    rw [hroot, houtput]
    apply cosignerScript_perm
    · refine (perm_ext_iff_of_nodup hsigners hall).2 fun key => ?_
      rw [hkeys, mem_cons, mem_map]
      refine or_congr_right ⟨?_, ?_⟩
      · rintro ⟨-, l, hl, rfl⟩
        obtain ⟨v, hv, rfl⟩ := mem_map.1 hl
        exact ⟨v, hperm.mem_iff.1 hv, rfl⟩
      · rintro ⟨v, hv, rfl⟩
        exact ⟨hoperator v hv, _, mem_map_of_mem (hperm.mem_iff.2 hv), rfl⟩
    · have hne := hperm.length_eq ▸ length_pos_iff.2 (validateVTXODescriptors_eq_ok.1 hvalid).1
      rw [length_cons, length_map]
      omega
  refine ⟨hvalue, ?_, hscript, ?_⟩
  · rw [h.total, hvalue]
  rintro rfl hrange commitmentTx hhash hcommitted
  rw [verifyVTXOTreeRoot_eq_ok]
  have hedges := h.filled.linked hrange
  have htweak := childSigningTweak_bitcoin h.asset
  refine ⟨spec.output, h.batch, by rw [houtpoint], by rw [houtpoint, hhash],
    by rw [houtpoint, hcommitted], validateAssetContext_bitcoin h.asset, ?_, ?_,
    h.spends hrange, fun m hm p hp => (hedges m hm p hp).1⟩
  · rw [htweak]
    exact hscript
  · rw [htweak]
    exact fun m hm p hp => (hedges m hm p hp).2

def commitmentWith (output : TxOut) : MsgTx := ⟨2, [], [output]⟩

/-- The tree is built from the descriptors in the other order. -/
theorem batchOutput_matches_root_pair :
    ∃ spec t, buildBatchOutputSpec .sum pairVtxos soleOperator soleOperator 144 = .ok spec ∧
      buildVTXOTree .sum ⟨0, 0⟩ spec.output pairVtxos.reverse soleOperator soleOperator 144
        2 = .ok t ∧
      spec.output.value = t.root.label.total ∧
      verifyVTXOTreeRoot .sum (commitmentWith spec.output) 0 0 t = .ok () := by
  obtain ⟨spec, hspec⟩ : ∃ spec, buildBatchOutputSpec .sum pairVtxos soleOperator
      soleOperator 144 = .ok spec := ⟨_, rfl⟩
  obtain ⟨hleaf, houtput, -, hmax⟩ := buildBatchOutputSpec_ok (by decide) hspec
  have hvalue : spec.output.value = 3000 := by rw [houtput]; rfl
  obtain ⟨t, shape, htree, -⟩ := buildVTXOTree_spec .sum soleOperator ⟨0, 0⟩
    (show validateVTXODescriptors pairVtxos.reverse = .ok () from rfl) (show 2 ≤ 2 from le_rfl)
    hleaf (by rw [hvalue]; rfl) hmax
  obtain ⟨-, htotal, -, haccept⟩ := batchOutput_matches_root .sum ⟨0, 0⟩ spec.output pairVtxos
    pairVtxos.reverse soleOperator soleOperator 144 2 spec t (reverse_perm _) hspec htree
  have hrange : spec.output.value ≤ maxSatoshi := by rw [hvalue]; decide
  exact ⟨spec, t, hspec, htree, htotal, haccept rfl hrange (commitmentWith spec.output) rfl rfl⟩

def hugeVtxos : List VTXODescriptor := [pairVtxo 2 (maxSatoshi + 1)]

/-- Both succeed with a total above the monetary range, which is then not accepted. -/
theorem batchOutput_above_range :
    ∃ spec t, buildBatchOutputSpec .sum hugeVtxos soleOperator soleOperator 144 = .ok spec ∧
      buildVTXOTree .sum ⟨0, 0⟩ spec.output hugeVtxos soleOperator soleOperator 144 2 = .ok t ∧
      (commitmentWith spec.output).txOut[0]? = some spec.output ∧
      verifyVTXOTreeRoot .sum (commitmentWith spec.output) 0 0 t ≠ .ok () := by
  obtain ⟨spec, hspec⟩ : ∃ spec, buildBatchOutputSpec .sum hugeVtxos soleOperator
      soleOperator 144 = .ok spec := ⟨_, rfl⟩
  obtain ⟨hleaf, houtput, -, hmax⟩ := buildBatchOutputSpec_ok (by decide) hspec
  have hvalue : spec.output.value = maxSatoshi + 1 := by rw [houtput]; rfl
  obtain ⟨t, shape, htree, -, -, h⟩ := buildVTXOTree_spec .sum soleOperator ⟨0, 0⟩
    (show validateVTXODescriptors hugeVtxos = .ok () from rfl) (show 2 ≤ 2 from le_rfl) hleaf
    (by rw [hvalue]; rfl) hmax
  refine ⟨spec, t, hspec, htree, rfl, ?_⟩
  rw [ne_eq, verifyVTXOTreeRoot_eq_ok]
  rintro ⟨committed, haccepted⟩
  cases h.batch.symm.trans haccepted.batchOutput
  have := haccepted.conserved.root.range.2
  omega

end Wavelength.Vtxotree
