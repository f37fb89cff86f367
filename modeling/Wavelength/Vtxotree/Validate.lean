import Wavelength.Vtxotree.Node

/-! # Validation of transaction trees

Every check of a tree is a walk from the root. The walks look at the value of the outputs, at the
scripts of the outputs that children spend and at the anchors. A client cuts the path of its own
key out of the tree before it checks it.
-/

namespace Wavelength.Vtxotree

def maxSatoshi : ℤ := 2100000000000000

section

variable (crypto : Crypto)

/-! ## Values -/

def validateSatoshiValue (value : ℤ) : Except TreeError Unit := do
  require (0 ≤ value) (.negativeValue value)
  require (value ≤ maxSatoshi) (.valueTooLarge value)

/-- The loop over the outputs, with the total of those that are done. -/
def sumOutputs : ℤ → List TxOut → Except TreeError ℤ
  | total, [] => .ok total
  | total, output :: rest => do
    validateSatoshiValue output.value
    require (total ≤ maxSatoshi - output.value) .totalValue
    sumOutputs (total + output.value) rest

/-- What is checked at a node that has to spend an outpoint of some value. Its children need its
hash and its outputs. -/
def visitValue (expected : OutPoint × ℤ) (d : NodeData) : Except TreeError (ℕ × List TxOut) := do
  require (d.input = expected.1) (.input d.input expected.1)
  require (d.outputs ≠ []) .noOutputs
  let total ← sumOutputs 0 d.outputs
  require (total ≤ expected.2) (.outputsExceed total expected.2)
  require (expected.2 ≤ total) (.outputsBelow total expected.2)
  return (d.txid crypto, d.outputs)

def enterValue (parent : ℕ × List TxOut) (outputIndex : ℕ) (_ : NodeData) :
    Except TreeError (OutPoint × ℤ) :=
  match parent.2[outputIndex]? with
  | none => .error (.childIndex outputIndex)
  | some output => .ok (⟨parent.1, outputIndex⟩, output.value)

def validateNodeValueConservation (node : Node) (expectedInput : OutPoint) (inputValue : ℤ) :
    Except TreeError Unit :=
  node.walk (visitValue crypto) enterValue .child (expectedInput, inputValue)

def Tree.validateValueConservation (t : Tree) : Except TreeError Unit :=
  match t.batchOutput with
  | none => .error .nilBatchOutput
  | some batchOutput => do
    validateSatoshiValue batchOutput.value
    (validateNodeValueConservation crypto t.root t.batchOutpoint batchOutput.value).mapError .root

def Tree.verify (t : Tree) : Except TreeError Unit := do
  require (t.root.label.input = t.batchOutpoint) .rootInput
  (t.validateValueConservation crypto).mapError .valueConservation

/-! ## Asset trees -/

/-- The first input that is in `seen` or twice in the list. -/
def checkUniqueInputs (seen : List OutPoint) : List OutPoint → Except TreeError Unit
  | [] => .ok ()
  | input :: rest => do
    require (input ∉ seen) (.inputReused input)
    checkUniqueInputs (input :: seen) rest

def validateUniqueAssetInputs (root : Node) : Except TreeError Unit :=
  checkUniqueInputs [] (root.nodes.map (·.label.input))

namespace AssetTreeContext

variable (c : AssetTreeContext)

def maxUint64 : ℕ := 2 ^ 64 - 1

mutual

def validateNode : Node → Except TreeError ℕ
  | .node d children =>
    let amount := c.amountsByInput d.input
    let leafRoot := c.leafRootsByInput d.input
    if amount = 0 then .error (.assetAmount d.input)
    else if (c.tweaksByInput d.input).length ≠ 32 then .error (.signingTweak d.input)
    else if children.isEmpty then
      if leafRoot.length ≠ 32 then .error (.leafAssetRoot d.input) else .ok amount
    else if leafRoot.length ≠ 0 then .error (.branchAssetRoot d.input)
    else
      match validateChildren d.input 0 children with
      | .error e => .error e
      | .ok childTotal =>
        if amount < childTotal then .error (.assetTotal childTotal amount) else .ok amount

def validateChildren (input : OutPoint) : ℕ → List (ℕ × Node) → Except TreeError ℕ
  | childTotal, [] => .ok childTotal
  | childTotal, (_, child) :: rest =>
    match validateNode child with
    | .error e => .error e
    | .ok childAmount =>
      if maxUint64 - childTotal < childAmount then .error (.assetOverflow input)
      else validateChildren input (childTotal + childAmount) rest

end

def validate (root : Node) : Except TreeError Unit := do
  require (c.assetRef ≠ "") .assetRef
  validateUniqueAssetInputs root
  let _ ← c.validateNode root

/-- What is recorded of the nodes of an extracted path. -/
def cloneForRoot (root : Node) : AssetTreeContext where
  amountsByInput input :=
    if input ∈ root.nodes.map (·.label.input) then c.amountsByInput input else 0
  leafRootsByInput input :=
    if input ∈ root.nodes.map (·.label.input) then c.leafRootsByInput input else []
  tweaksByInput input :=
    if input ∈ root.nodes.map (·.label.input) then c.tweaksByInput input else []
  assetRef := c.assetRef

end AssetTreeContext

def Tree.validateAssetContext (t : Tree) : Except TreeError Unit :=
  match t.assetContext with
  | none => .ok ()
  | some c => (c.validate t.root).mapError .assetContext

/-! ## Scripts and anchors -/

def enterScript (tweak : NodeData → List UInt8) (outputs : List TxOut) (outputIdx : ℕ)
    (child : NodeData) : Except TreeError Unit :=
  match outputs[outputIdx]? with
  | none => .error (.childIndex outputIdx)
  | some parentOutput => do
    let expectedScript ←
      (cosignerScript crypto child.coSigners (tweak child)).mapError (.child outputIdx)
    require (parentOutput.pkScript = expectedScript) (.childScript outputIdx)

def validateNodeChildScripts (node : Node) (tweak : NodeData → List UInt8) :
    Except TreeError Unit :=
  node.walk (fun _ d => .ok d.outputs) (enterScript crypto tweak) .child ()

def Tree.validateChildScripts (t : Tree) : Except TreeError Unit := do
  t.validateAssetContext
  validateNodeChildScripts crypto t.root t.childSigningTweak

def visitAnchor (d : NodeData) : Except TreeError Unit := do
  require (d.toTx.version = 3) (.version d.toTx.version)
  match d.outputs.getLast? with
  | none => .error .noOutputs
  | some anchor => do
    require (anchor.value = 0) (.anchorValue anchor.value)
    require (anchor.pkScript = anchorPkScript) .anchorScript

/-- `ForEach` with a callback that reads a node without its children. -/
def forEach (callback : NodeData → Except TreeError Unit) (node : Node) : Except TreeError Unit :=
  node.walk (fun _ d => callback d) (fun _ _ _ => .ok ()) (fun _ e => e) ()

def Tree.validateAnchors (t : Tree) : Except TreeError Unit := forEach visitAnchor t.root

/-! ## Paths -/

/-- The copy of a node in an extracted path, if one of the keys is among its cosigners. -/
def extractNode (targetKeys : List PublicKey) (d : NodeData) : Option NodeData :=
  if targetKeys.any (containsCosigner d.coSigners) then some { d with amount := 0 } else none

def extractNodePath (targetKeys : List PublicKey) (node : Node) : Option Node :=
  node.prune (extractNode targetKeys)

def Tree.extractPathForCoSigners (t : Tree) (targetKeys : List PublicKey) :
    Except TreeError (Option Tree) := do
  require (targetKeys ≠ []) .noTargetKeys
  match extractNodePath targetKeys t.root with
  | none => return none
  | some root =>
    return some { t with root := root, assetContext := t.assetContext.map (·.cloneForRoot root) }

def verifyVTXOLeaf (leaves : List Node) (expectedVTXOScript : Script) : Except TreeError Unit :=
  match leaves with
  | [leaf] =>
    match leaf.label.outputs with
    | [vtxo, anchor] => do
      require (vtxo.pkScript = expectedVTXOScript) .vtxoScript
      require (anchor.value = 0) (.anchorValue anchor.value)
    | outputs => .error (.leafOutputs outputs.length)
  | leaves => .error (.leafCount leaves.length)

def Tree.verifyVTXOPath (t : Tree) (coSignerKey : PublicKey) (expectedVTXOScript : Script) :
    Except TreeError Unit := do
  require (expectedVTXOScript ≠ []) .emptyExpectedScript
  match ← t.extractPathForCoSigners [coSignerKey] with
  | none => .error .noPath
  | some extracted => do
    (extracted.verify crypto).mapError .treeStructure
    (extracted.validateChildScripts crypto).mapError .childScripts
    verifyVTXOLeaf extracted.root.leaves expectedVTXOScript
    require (∀ node ∈ extracted.root.nodes, containsCosigner node.label.coSigners coSignerKey)
      .cosignerMissing

/-- The checks of the leaf against the request; `verifyVTXOPath` has counted the leaves and the
outputs. -/
def validateLeaf (leaves : List Node) (expectedLeaf : LeafDescriptor) (operatorKey : PublicKey) :
    Except TreeError Unit :=
  match leaves with
  | [] => .error (.leafCount 0)
  | leaf :: _ =>
    match leaf.label.outputs with
    | [] => .error (.leafOutputs 0)
    | vtxoOutput :: _ => do
      require (vtxoOutput.value = expectedLeaf.amount)
        (.vtxoValue vtxoOutput.value expectedLeaf.amount)
      require (containsCosigner leaf.label.coSigners operatorKey) .operatorMissing

/-- The client's part of the tree, if the path to its leaf is as requested. -/
def Tree.validatePath (t : Tree) (signingKey : PublicKey) (expectedLeaf : LeafDescriptor)
    (operatorKey : PublicKey) : Except TreeError Tree := do
  (t.verifyVTXOPath crypto signingKey expectedLeaf.pkScript).mapError .vtxoPath
  match ← t.extractPathForCoSigners [signingKey] with
  | none => .error .noPath
  | some clientTree => do
    validateLeaf clientTree.root.leaves expectedLeaf operatorKey
    return clientTree

/-! ## Binding to the commitment transaction -/

/-- The committed output has to be the one that the tree names. -/
def bindCommitted (commitmentTx : MsgTx) (commitmentTxID : ℕ) (outputIdx : ℤ) (t : Tree)
    (batchOutput : TxOut) : Except TreeError TxOut := do
  require (outputIdx = t.batchOutpoint.index) (.mapKey outputIdx t.batchOutpoint.index)
  require (t.batchOutpoint.hash = commitmentTxID) (.batchHash t.batchOutpoint.hash commitmentTxID)
  match commitmentTx.txOut[t.batchOutpoint.index]? with
  | none => .error (.batchIndex t.batchOutpoint.index commitmentTx.txOut.length)
  | some committed => do
    require (committed.value = batchOutput.value)
      (.committedValue committed.value batchOutput.value)
    require (committed.pkScript = batchOutput.pkScript) .committedScript
    return committed

def verifyVTXOTreeRoot (commitmentTx : MsgTx) (commitmentTxID : ℕ) (outputIdx : ℤ)
    (vtxoTree : Tree) : Except TreeError Unit :=
  match vtxoTree.batchOutput with
  | none => .error .nilBatchOutput
  | some batchOutput => do
    require (vtxoTree.root.label.coSigners ≠ []) .noCosigners
    let committed ← bindCommitted commitmentTx commitmentTxID outputIdx vtxoTree batchOutput
    vtxoTree.validateAssetContext
    let rootScript ← cosignerScript crypto vtxoTree.root.label.coSigners
      (vtxoTree.childSigningTweak vtxoTree.root.label)
    require (rootScript = committed.pkScript) .rootScript
    (vtxoTree.validateChildScripts crypto).mapError .childScripts
    (vtxoTree.validateValueConservation crypto).mapError .valueConservation

/-- Every tree of a round against the commitment transaction, by the index of its output. -/
def validateVTXOTreeBinding (commitmentTx : MsgTx) : List (ℤ × Tree) → Except TreeError Unit
  | [] => .ok ()
  | (outputIdx, vtxoTree) :: rest => do
    verifyVTXOTreeRoot crypto commitmentTx (crypto.txHash commitmentTx) outputIdx vtxoTree
    validateVTXOTreeBinding commitmentTx rest

end

end Wavelength.Vtxotree
