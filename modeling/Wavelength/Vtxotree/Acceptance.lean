import Wavelength.Vtxotree.Accepted

/-! # What a client gets that accepts a tree

A tree comes from the operator, who is not trusted. If the checks of a client accept it, a chain of
its transactions leads from the committed output to the output that the client asked for, and the
client signs every one of them.
-/

namespace Wavelength.Vtxotree

/-- A node spends an output that is locked to the key of its cosigners, with the client among them,
and creates no value. -/
structure NodeData.Cosigned (crypto : Crypto) (tweak : NodeData → List UInt8) (key : PublicKey)
    (d : NodeData) (outpoint : OutPoint) (spent : TxOut) : Prop where
  input : d.input = outpoint
  script : cosignerScript crypto d.coSigners (tweak d) = .ok spent.pkScript
  signs : key ∈ d.coSigners
  value : d.total ≤ spent.value

/-- A chain of nodes of a tree from its root, which spends `spent`, to an output `out`. -/
inductive Chain (crypto : Crypto) (tweak : NodeData → List UInt8) (key : PublicKey) :
    Node → OutPoint → TxOut → TxOut → Prop where
  | last {node : Node} {outpoint : OutPoint} {spent out : TxOut} (i : ℕ)
      (cosigned : node.label.Cosigned crypto tweak key outpoint spent)
      (output : node.label.outputs[i]? = some out) : Chain crypto tweak key node outpoint spent out
  | next {node child : Node} {outpoint : OutPoint} {spent between out : TxOut} (i : ℕ)
      (cosigned : node.label.Cosigned crypto tweak key outpoint spent)
      (child_mem : (i, child) ∈ node.children)
      (output : node.label.outputs[i]? = some between)
      (chain : Chain crypto tweak key child ⟨node.label.txid crypto, i⟩ between out) :
      Chain crypto tweak key node outpoint spent out

section

variable {node path leaf : Node}

theorem extractNode_eq_some :
    extractNode [key] d = some d' ↔ key ∈ d.coSigners ∧ d' = { d with amount := 0 } := by
  simp [extractNode, containsCosigner, eq_comm]

theorem cosigned_of_spends (hextract : extractNode [key] d = some d')
    (hspends : d.Spends outpoint spent.value)
    (hscript : cosignerScript crypto d.coSigners (tweak d) = .ok spent.pkScript) :
    d.Cosigned crypto tweak key outpoint spent where
  input := hspends.input
  script := hscript
  signs := (extractNode_eq_some.1 hextract).1
  value := hspends.total.le

theorem chain_of_leaf (hvalues : node.Edges (ValueLink crypto))
    (hscripts : node.Edges (ScriptLink crypto tweak))
    (hpath : extractNodePath [key] node = some path)
    (hspends : node.label.Spends outpoint spent.value)
    (hscript : cosignerScript crypto node.label.coSigners (tweak node.label) = .ok spent.pkScript)
    (hleaf : leaf ∈ path.leaves) {i : ℕ} (hout : leaf.label.outputs[i]? = some out) :
    Chain crypto tweak key node outpoint spent out := by
  induction node using Rose.ind generalizing path outpoint spent with
  | node a cs ih =>
    have hlabel := Rose.label_prune hpath
    have hcosigned := cosigned_of_spends hlabel hspends hscript
    cases path with
    | node b ds =>
      rcases eq_or_ne ds [] with rfl | hds
      · -- The path ends here, with the outputs of this node.
        rw [Rose.leaves_nil, List.mem_singleton] at hleaf
        have hb : b = { a with amount := 0 } := (extractNode_eq_some.1 hlabel).2
        rw [hleaf, Rose.label_node, hb] at hout
        exact .last i hcosigned hout
      · rw [Rose.leaves_node hds, List.mem_flatMap] at hleaf
        obtain ⟨q, hq, hleaf⟩ := hleaf
        obtain ⟨⟨j, child⟩, hp, -, hchild⟩ := Rose.mem_children_prune hpath hq
        obtain ⟨⟨o, ho, hspends'⟩, hvalues'⟩ := Rose.edges_node.1 hvalues _ hp
        obtain ⟨⟨o', ho', hscript'⟩, hscripts'⟩ := Rose.edges_node.1 hscripts _ hp
        cases ho.symm.trans ho'
        exact .next j hcosigned hp ho (ih _ hp hvalues' hscripts' hchild hspends' hscript' hleaf)

end

/-! ## Acceptance -/

/-- If the tree is bound to the commitment transaction and the path of the client is valid, a chain
of the tree's transactions leads from the committed output to an output with the script and the
amount that the client asked for. -/
theorem accepted_chain (crypto : Crypto) (commitmentTx : MsgTx) (outputIdx : ℤ) (t client : Tree)
    (key operator : PublicKey) (want : LeafDescriptor)
    (hroot : verifyVTXOTreeRoot crypto commitmentTx (crypto.txHash commitmentTx) outputIdx t =
      .ok ())
    (hpath : t.validatePath crypto key want operator = .ok client) :
    ∃ (index : ℕ) (committed out : TxOut), outputIdx = index ∧
      commitmentTx.txOut[index]? = some committed ∧
      out.pkScript = want.pkScript ∧ out.value = want.amount ∧
      Chain crypto t.childSigningTweak key t.root ⟨crypto.txHash commitmentTx, index⟩ committed
        out := by
  obtain ⟨committed, haccepted⟩ := verifyVTXOTreeRoot_eq_ok.1 hroot
  obtain ⟨hextract, leaf, vtxo, anchor, hclient⟩ := validatePath_eq_ok.1 hpath
  obtain ⟨root, hnode, rfl⟩ := extractPathForCoSigners_eq_ok.1 hextract
  refine ⟨t.batchOutpoint.index, committed, vtxo, haccepted.index, haccepted.output,
    hclient.script, hclient.value, ?_⟩
  have hout : leaf.label.outputs[0]? = some vtxo := by rw [hclient.outputs]; rfl
  have hleaf : leaf ∈ root.leaves := by
    have hleaves : root.leaves = [leaf] := hclient.leaves
    rw [hleaves]
    exact List.mem_singleton_self leaf
  rw [← haccepted.hash]
  exact chain_of_leaf haccepted.conserved.edges haccepted.scripts hnode haccepted.conserved.root
    haccepted.script hleaf hout

def soleOperator : PublicKey := ⟨.lastByte 31 1, false⟩

def soleOwner : PublicKey := ⟨.lastByte 31 2, false⟩

def soleWant : LeafDescriptor := ⟨payToTaprootScript soleOwner, 1000, soleOwner⟩

def soleSweepRoot : List UInt8 := List.replicate 31 0 ++ [9]

def soleCommitment (tweak : List UInt8) : MsgTx where
  version := 2
  txIn := []
  txOut := [⟨1000,
    payToTaprootScript (Crypto.sum.aggregateKeys [soleOperator, soleOwner] tweak).finalKey⟩]

def soleTree (tweak : List UInt8) (asset : Option AssetTreeContext) : Tree where
  root := .node ⟨⟨0, 0⟩, [⟨1000, soleWant.pkScript⟩, anchorOutput], [soleOperator, soleOwner], 0,
    none⟩ []
  batchOutpoint := ⟨0, 0⟩
  batchOutput := (soleCommitment tweak).txOut.head?
  sweepTapscriptRoot := soleSweepRoot
  assetContext := asset

def soleAssetTweak : List UInt8 := List.replicate 31 0 ++ [7]

def soleAsset : AssetTreeContext where
  amountsByInput _ := 1
  leafRootsByInput _ := List.replicate 32 0
  tweaksByInput _ := soleAssetTweak
  assetRef := "asset"

theorem accepted_chain_sole :
    ∃ (index : ℕ) (committed out : TxOut), (0 : ℤ) = index ∧
      (soleCommitment soleSweepRoot).txOut[index]? = some committed ∧
      out.pkScript = soleWant.pkScript ∧ out.value = soleWant.amount ∧
      Chain .sum (soleTree soleSweepRoot none).childSigningTweak soleOwner
        (soleTree soleSweepRoot none).root ⟨0, index⟩ committed out :=
  accepted_chain .sum (soleCommitment soleSweepRoot) 0 (soleTree soleSweepRoot none)
    (soleTree soleSweepRoot none) soleOwner soleOperator soleWant rfl rfl

/-- In an asset tree the outputs are locked with the tweak of the asset, not with the sweep root. -/
theorem asset_chain_not_sweep :
    verifyVTXOTreeRoot .sum (soleCommitment soleAssetTweak) 0 0
        (soleTree soleAssetTweak (some soleAsset)) = .ok () ∧
      (∃ client, (soleTree soleAssetTweak (some soleAsset)).validatePath .sum soleOwner
        soleWant soleOperator = .ok client) ∧
      ¬ ∃ (index : ℕ) (committed out : TxOut), (0 : ℤ) = index ∧
        (soleCommitment soleAssetTweak).txOut[index]? = some committed ∧
        Chain .sum (fun _ => soleSweepRoot) soleOwner
          (soleTree soleAssetTweak (some soleAsset)).root ⟨0, index⟩ committed out := by
  refine ⟨rfl, ⟨_, rfl⟩, ?_⟩
  rintro ⟨index, committed, out, hidx, hout, hchain⟩
  cases Int.natCast_eq_zero.1 hidx.symm
  cases hout
  have hscript : cosignerScript .sum [soleOperator, soleOwner] soleSweepRoot ≠
      .ok (payToTaprootScript
        (Crypto.sum.aggregateKeys [soleOperator, soleOwner] soleAssetTweak).finalKey) := by
    intro h
    have hdata := congrArg (List.getLast?) (Except.ok.inj h)
    exact absurd hdata (by decide)
  cases hchain with
  | last i cosigned output | next i cosigned child_mem output chain => exact hscript cosigned.script

end Wavelength.Vtxotree
