import Mathlib.Algebra.Order.BigOperators.Group.List
import Mathlib.Algebra.Order.Ring.Int
import Wavelength.Vtxotree.Validate

/-! # What the validators accept

Each walk accepts the trees whose nodes and edges meet a condition that looks at one node, or at a
node and one of its children.
-/

namespace Wavelength.Vtxotree

open List Option

/-- The outputs of a node are in the monetary range. -/
structure NodeData.Valid (d : NodeData) : Prop where
  outputs : d.outputs ≠ []
  nonneg : ∀ o ∈ d.outputs, 0 ≤ o.value
  total : d.total ≤ maxSatoshi

def NodeData.Anchored (d : NodeData) : Prop := d.outputs.getLast? = some anchorOutput

/-- The node spends an outpoint and passes all of its value on. -/
structure NodeData.Spends (d : NodeData) (outpoint : OutPoint) (value : ℤ) : Prop where
  input : d.input = outpoint
  valid : d.Valid
  total : d.total = value

/-- The child spends the output it hangs at. -/
def ValueLink (crypto : Crypto) (a : NodeData) (i : ℕ) (b : NodeData) : Prop :=
  ∃ o, a.outputs[i]? = some o ∧ b.Spends ⟨a.txid crypto, i⟩ o.value

/-- The output the child hangs at is locked to the key of its cosigners. -/
def ScriptLink (crypto : Crypto) (tweak : NodeData → List UInt8) (a : NodeData) (i : ℕ)
    (b : NodeData) : Prop :=
  ∃ o, a.outputs[i]? = some o ∧ cosignerScript crypto b.coSigners (tweak b) = .ok o.pkScript

section

variable {node : Node} {d : NodeData} {t : Tree}

/-! ## Values -/

theorem validateSatoshiValue_eq_ok :
    validateSatoshiValue value = .ok u ↔ 0 ≤ value ∧ value ≤ maxSatoshi := by
  simp [validateSatoshiValue, bind_eq_ok, require_eq_ok]

theorem sumOutputs_eq_ok (htotal : 0 ≤ total) (hmax : total ≤ maxSatoshi) :
    sumOutputs total outputs = .ok r ↔
      (∀ o ∈ outputs, 0 ≤ o.value) ∧ total + (outputs.map TxOut.value).sum ≤ maxSatoshi ∧
        r = total + (outputs.map TxOut.value).sum := by
  induction outputs generalizing total with
  | nil => simp [sumOutputs, hmax, eq_comm]
  | cons o rest ih =>
    simp only [sumOutputs, bind_eq_ok, validateSatoshiValue_eq_ok, require_eq_ok, exists_const,
      forall_mem_cons, map_cons, sum_cons, ← add_assoc]
    constructor
    · rintro ⟨⟨hnonneg, -⟩, hle, hrest⟩
      obtain ⟨hall, hsum, hr⟩ := (ih (by omega) (by omega)).1 hrest
      exact ⟨⟨hnonneg, hall⟩, hsum, hr⟩
    rintro ⟨⟨hnonneg, hall⟩, hsum, hr⟩
    have hrest : 0 ≤ (rest.map TxOut.value).sum := by
      apply sum_nonneg
      simpa using hall
    exact ⟨⟨hnonneg, by omega⟩, by omega, (ih (by omega) (by omega)).2 ⟨hall, hsum, hr⟩⟩

theorem visitValue_eq_ok :
    visitValue crypto expected d = .ok r ↔
      d.Spends expected.1 expected.2 ∧ r = (d.txid crypto, d.outputs) := by
  simp only [visitValue, bind_eq_ok, require_eq_ok, exists_const]
  constructor
  · rintro ⟨hinput, hne, total, hsum, hle, hge, hr⟩
    obtain ⟨hnonneg, hmax, rfl⟩ := (sumOutputs_eq_ok (by decide) (by decide)).1 hsum
    rw [zero_add] at hmax hle hge
    cases hr
    exact ⟨⟨hinput, ⟨hne, hnonneg, hmax⟩, le_antisymm hle hge⟩, rfl⟩
  · rintro ⟨h, rfl⟩
    have hsum : sumOutputs 0 d.outputs = .ok d.total := by
      rw [sumOutputs_eq_ok (by decide) (by decide), zero_add]
      exact ⟨h.valid.nonneg, h.valid.total, rfl⟩
    exact ⟨h.input, h.valid.outputs, d.total, hsum, h.total.le, h.total.ge, rfl⟩

theorem enterValue_eq_ok :
    enterValue parent i d = .ok expected ↔
      ∃ o, parent.2[i]? = some o ∧ expected = (⟨parent.1, i⟩, o.value) := by
  rw [enterValue]
  cases parent.2[i]? with
  | none => simp
  | some o => simp [eq_comm]

theorem validateNodeValueConservation_eq_ok :
    validateNodeValueConservation crypto node op value = .ok u ↔
      node.label.Spends op value ∧ node.Edges (ValueLink crypto) := by
  apply Rose.walk_eq_ok_iff (fun d : NodeData => (d.txid crypto, d.outputs))
    (fun (s : OutPoint × ℤ) d => d.Spends s.1 s.2) (ValueLink crypto)
  · intro s a r
    exact visitValue_eq_ok
  intro a i b
  simp only [enterValue_eq_ok]
  constructor
  · rintro ⟨o, ho, hspends⟩
    exact ⟨_, ⟨o, ho, rfl⟩, hspends⟩
  · rintro ⟨_, ⟨o, ho, rfl⟩, hspends⟩
    exact ⟨o, ho, hspends⟩

/-- The root spends the batch output, and no node keeps or adds value. -/
structure Conserved (crypto : Crypto) (t : Tree) (batchOutput : TxOut) : Prop where
  root : t.root.label.Spends t.batchOutpoint batchOutput.value
  edges : t.root.Edges (ValueLink crypto)

theorem NodeData.Spends.range (h : d.Spends op value) : 0 ≤ value ∧ value ≤ maxSatoshi := by
  rw [← h.total]
  constructor
  · apply sum_nonneg
    simpa using h.valid.nonneg
  · exact h.valid.total

theorem validateValueConservation_eq_ok :
    t.validateValueConservation crypto = .ok u ↔
      ∃ batchOutput, t.batchOutput = some batchOutput ∧ Conserved crypto t batchOutput := by
  rw [Tree.validateValueConservation]
  cases t.batchOutput with
  | none => simp
  | some batchOutput =>
    simp only [bind_eq_ok, validateSatoshiValue_eq_ok, mapError_eq_ok, exists_const,
      validateNodeValueConservation_eq_ok, some_inj, exists_eq_left']
    constructor
    · rintro ⟨-, hroot, hedges⟩
      exact ⟨hroot, hedges⟩
    · rintro ⟨hroot, hedges⟩
      exact ⟨hroot.range, hroot, hedges⟩

theorem verify_eq_ok :
    t.verify crypto = .ok u ↔
      ∃ batchOutput, t.batchOutput = some batchOutput ∧ Conserved crypto t batchOutput := by
  simp only [Tree.verify, bind_eq_ok, require_eq_ok, exists_const, mapError_eq_ok,
    validateValueConservation_eq_ok]
  constructor
  · exact And.right
  · rintro ⟨batchOutput, hbatch, h⟩
    exact ⟨h.root.input, batchOutput, hbatch, h⟩

/-! ## Scripts and anchors -/

theorem enterScript_eq_ok :
    enterScript crypto tweak outputs i d = .ok u ↔
      ∃ o, outputs[i]? = some o ∧ cosignerScript crypto d.coSigners (tweak d) = .ok o.pkScript := by
  rw [enterScript]
  cases outputs[i]? with
  | none => simp
  | some o =>
    simp only [bind_eq_ok, mapError_eq_ok, require_eq_ok, some_inj, exists_eq_left']
    constructor
    · rintro ⟨script, hscript, rfl⟩
      exact hscript
    · intro h
      exact ⟨o.pkScript, h, rfl⟩

theorem validateNodeChildScripts_eq_ok :
    validateNodeChildScripts crypto node tweak = .ok u ↔ node.Edges (ScriptLink crypto tweak) := by
  rw [validateNodeChildScripts, Rose.walk_eq_ok_iff NodeData.outputs (fun _ _ => True)
    (ScriptLink crypto tweak), true_and]
  · intro s a r
    simp [eq_comm]
  · intro a i b
    simp only [enterScript_eq_ok, and_true, exists_const]
    rfl

theorem validateChildScripts_eq_ok :
    t.validateChildScripts crypto = .ok u ↔
      t.validateAssetContext = .ok () ∧ t.root.Edges (ScriptLink crypto t.childSigningTweak) := by
  simp only [Tree.validateChildScripts, bind_eq_ok, validateNodeChildScripts_eq_ok]
  constructor
  · rintro ⟨_, h, hedges⟩
    exact ⟨h, hedges⟩
  · rintro ⟨h, hedges⟩
    exact ⟨(), h, hedges⟩

theorem visitAnchor_eq_ok : visitAnchor d = .ok u ↔ d.Anchored := by
  simp only [visitAnchor, bind_eq_ok, require_eq_ok, exists_const, NodeData.Anchored]
  cases d.outputs.getLast? with
  | none => simp
  | some o =>
    obtain ⟨value, pkScript⟩ := o
    simp [NodeData.toTx, bind_eq_ok, anchorOutput]

theorem validateAnchors_eq_ok : t.validateAnchors = .ok u ↔ t.root.Nodes NodeData.Anchored := by
  rw [Rose.nodes_iff_edges, Tree.validateAnchors, forEach]
  apply Rose.walk_eq_ok_iff (fun _ => ()) (fun (_ : Unit) (d : NodeData) => d.Anchored)
  · intro s a r
    simp [visitAnchor_eq_ok]
  · intro a i b
    simp

/-! ## Paths -/

/-- The tree with another root, for which only a part of its asset context is kept. -/
def Tree.withRoot (t : Tree) (root : Node) : Tree :=
  { t with root := root, assetContext := t.assetContext.map (·.cloneForRoot root) }

theorem extractPath_eq_ok {keys : List PublicKey} :
    t.extractPathForCoSigners keys = .ok (some client) ↔
      keys ≠ [] ∧ ∃ root, extractNodePath keys t.root = some root ∧ client = t.withRoot root := by
  simp only [Tree.extractPathForCoSigners, bind_eq_ok, require_eq_ok, exists_const]
  cases extractNodePath keys t.root with
  | none => simp [pure, Except.pure]
  | some root => simp [pure, Except.pure, Tree.withRoot, eq_comm]

theorem extractPathForCoSigners_eq_ok :
    t.extractPathForCoSigners [key] = .ok (some client) ↔
      ∃ root, extractNodePath [key] t.root = some root ∧ client = t.withRoot root := by
  rw [extractPath_eq_ok]
  simp

theorem verifyVTXOLeaf_eq_ok :
    verifyVTXOLeaf leaves script = .ok () ↔
      ∃ leaf vtxo anchor, leaves = [leaf] ∧ leaf.label.outputs = [vtxo, anchor] ∧
        vtxo.pkScript = script ∧ anchor.value = 0 := by
  unfold verifyVTXOLeaf
  split
  · next leaf =>
    split
    · next vtxo anchor h => simp [bind_eq_ok, h]
    next h =>
    constructor
    · exact fun h => (nomatch h)
    · rintro ⟨_, vtxo, anchor, hl, ho, -⟩
      cases hl
      exact absurd ho (h vtxo anchor)
  · next h =>
    constructor
    · exact fun h => (nomatch h)
    · rintro ⟨leaf, _, _, hl, -⟩
      exact absurd hl (h leaf)

theorem validateLeaf_eq_ok :
    validateLeaf leaves want operator = .ok () ↔
      ∃ leaf rest vtxo others, leaves = leaf :: rest ∧ leaf.label.outputs = vtxo :: others ∧
        vtxo.value = want.amount ∧ operator ∈ leaf.label.coSigners := by
  unfold validateLeaf
  cases leaves with
  | nil => simp
  | cons leaf rest =>
    dsimp only
    cases hout : leaf.label.outputs with
    | nil => simp [hout]
    | cons vtxo others => simp [bind_eq_ok, containsCosigner, hout]

/-- What the checks of a client find in the path that belongs to its key. -/
structure PathAccepted (crypto : Crypto) (client : Tree) (key : PublicKey) (want : LeafDescriptor)
    (operator : PublicKey) (leaf : Node) (vtxo anchor : TxOut) : Prop where
  script_ne : want.pkScript ≠ []
  verified : client.verify crypto = .ok ()
  scripts : client.validateChildScripts crypto = .ok ()
  leaves : client.root.leaves = [leaf]
  outputs : leaf.label.outputs = [vtxo, anchor]
  script : vtxo.pkScript = want.pkScript
  anchor_value : anchor.value = 0
  signs : client.root.Nodes (key ∈ ·.coSigners)
  value : vtxo.value = want.amount
  operator_signs : operator ∈ leaf.label.coSigners

theorem validatePath_eq_ok :
    t.validatePath crypto key want operator = .ok client ↔
      t.extractPathForCoSigners [key] = .ok (some client) ∧
        ∃ leaf vtxo anchor, PathAccepted crypto client key want operator leaf vtxo anchor := by
  simp only [Tree.validatePath, Tree.verifyVTXOPath, bind_eq_ok, mapError_eq_ok, require_eq_ok,
    exists_const]
  constructor
  · rintro ⟨_, ⟨hne, found, hfound, hverify⟩, found', hfound', hclient⟩
    cases hfound.symm.trans hfound'
    cases found with
    | none => cases hverify
    | some c =>
      simp only [bind_eq_ok, mapError_eq_ok, require_eq_ok] at hverify hclient
      obtain ⟨_, hv, _, hs, _, hleaf, hsigns⟩ := hverify
      obtain ⟨_, hwant, hpure⟩ := hclient
      cases hpure
      obtain ⟨leaf, vtxo, anchor, hleaves, hout, hscript, hanchor⟩ := verifyVTXOLeaf_eq_ok.1 hleaf
      obtain ⟨leaf', _, vtxo', _, hl, ho, hvalue, hop⟩ := validateLeaf_eq_ok.1 hwant
      cases hleaves.symm.trans hl
      cases hout.symm.trans ho
      refine ⟨hfound, leaf, vtxo, anchor, hne, hv, hs, hleaves, hout, hscript, hanchor, ?_, hvalue,
        hop⟩
      intro n hn
      simpa [containsCosigner] using hsigns n hn
  · rintro ⟨hfound, leaf, vtxo, anchor, h⟩
    refine ⟨(), ⟨h.script_ne, some client, hfound, ?_⟩, some client, hfound, ?_⟩
    · simp only [bind_eq_ok, mapError_eq_ok, require_eq_ok]
      refine ⟨(), h.verified, (), h.scripts, (), ?_, ?_⟩
      · exact verifyVTXOLeaf_eq_ok.2
          ⟨leaf, vtxo, anchor, h.leaves, h.outputs, h.script, h.anchor_value⟩
      · intro n hn
        simpa [containsCosigner] using h.signs n hn
    · simp only [bind_eq_ok]
      refine ⟨(), validateLeaf_eq_ok.2 ?_, rfl⟩
      exact ⟨leaf, [], vtxo, [anchor], h.leaves, h.outputs, h.value, h.operator_signs⟩

/-! ## Binding -/

theorem bindCommitted_eq_ok :
    bindCommitted tx txid idx t batchOutput = .ok committed ↔
      idx = t.batchOutpoint.index ∧ t.batchOutpoint.hash = txid ∧
        tx.txOut[t.batchOutpoint.index]? = some committed ∧ committed = batchOutput := by
  simp only [bindCommitted, bind_eq_ok, require_eq_ok, exists_const]
  refine and_congr_right fun _ => and_congr_right fun _ => ?_
  cases tx.txOut[t.batchOutpoint.index]? with
  | none => simp
  | some o =>
    obtain ⟨value, pkScript⟩ := o
    obtain ⟨batchValue, batchScript⟩ := batchOutput
    simp only [bind_eq_ok, require_eq_ok, exists_const, pure, Except.pure, Except.ok.injEq,
      some_inj]
    constructor
    · rintro ⟨rfl, rfl, rfl⟩
      exact ⟨rfl, rfl⟩
    · rintro ⟨rfl, h⟩
      cases h
      exact ⟨rfl, rfl, rfl⟩

/-- A tree that spends an output of the commitment transaction. -/
structure RootAccepted (crypto : Crypto) (tx : MsgTx) (txid : ℕ) (idx : ℤ) (t : Tree)
    (committed : TxOut) : Prop where
  batchOutput : t.batchOutput = some committed
  index : idx = t.batchOutpoint.index
  hash : t.batchOutpoint.hash = txid
  output : tx.txOut[t.batchOutpoint.index]? = some committed
  asset : t.validateAssetContext = .ok ()
  script : cosignerScript crypto t.root.label.coSigners (t.childSigningTweak t.root.label) =
    .ok committed.pkScript
  scripts : t.root.Edges (ScriptLink crypto t.childSigningTweak)
  conserved : Conserved crypto t committed

theorem verifyVTXOTreeRoot_eq_ok {idx : ℤ} :
    verifyVTXOTreeRoot crypto tx txid idx t = .ok () ↔
      ∃ committed, RootAccepted crypto tx txid idx t committed := by
  rw [verifyVTXOTreeRoot]
  cases hbatch : t.batchOutput with
  | none => exact ⟨fun h => (nomatch h), fun ⟨_, h⟩ => (nomatch hbatch.symm.trans h.batchOutput)⟩
  | some batchOutput =>
    simp only [bind_eq_ok, require_eq_ok, exists_const, mapError_eq_ok, bindCommitted_eq_ok,
      validateChildScripts_eq_ok, validateValueConservation_eq_ok, hbatch, some_inj]
    constructor
    · rintro ⟨-, _, ⟨hidx, hhash, hout, rfl⟩, _, hasset, _, hscript, rfl, ⟨-, hscripts⟩, _, rfl,
        hconserved⟩
      exact ⟨_, hbatch, hidx, hhash, hout, hasset, hscript, hscripts, hconserved⟩
    rintro ⟨committed, h⟩
    have heq : batchOutput = committed := some_inj.1 (hbatch.symm.trans h.batchOutput)
    refine ⟨?_, committed, ⟨h.index, h.hash, h.output, heq.symm⟩, (), h.asset, _, h.script, rfl,
      ⟨h.asset, h.scripts⟩, committed, heq, h.conserved⟩
    intro hnil
    have hscript := h.script
    rw [hnil] at hscript
    cases hscript

end

end Wavelength.Vtxotree
