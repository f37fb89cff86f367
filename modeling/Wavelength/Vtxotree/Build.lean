import Mathlib.Data.List.Sort
import Wavelength.Vtxotree.Node

/-! # Building transaction trees

The descriptors are partitioned into groups of about the same value, over and over, until a group
has one descriptor. That gives the shape of the tree with the cosigners and the amount of each
node, from the leaves up. The transactions are then filled in from the root down, since a child
spends an output of the transaction above it.
-/

namespace Wavelength.Vtxotree

def add64 (a b : ℤ) : ℤ := (a + b).bmod (2 ^ 64)

def maxInt64 : ℤ := 2 ^ 63 - 1

structure VTXODescriptor where
  pkScript : Script
  amount : ℤ
  coSignerKey : PublicKey

def VTXODescriptor.toLeafDescriptor (v : VTXODescriptor) : LeafDescriptor :=
  ⟨v.pkScript, v.amount, v.coSignerKey⟩

/-- The loop over the descriptors, of which `i` are done and have the keys `seen`. -/
def validateDescriptors (i : ℕ) (seen : List (Bytes 32)) :
    List VTXODescriptor → Except TreeError Unit
  | [] => .ok ()
  | vtxo :: rest => do
    require (0 < vtxo.amount) (.invalidAmount i vtxo.amount)
    require (vtxo.pkScript ≠ []) (.emptyPkScript i)
    require (isPayToTaproot vtxo.pkScript) (.invalidTaprootScript i)
    require (vtxo.coSignerKey.x ∉ seen) (.duplicateCoSigner i)
    validateDescriptors (i + 1) (vtxo.coSignerKey.x :: seen) rest

def validateVTXODescriptors (vtxos : List VTXODescriptor) : Except TreeError Unit := do
  require (vtxos ≠ []) .noDescriptors
  validateDescriptors 0 [] vtxos

/-! ## The sweep leaf -/

/-- The bytes of a number of at most 16 bits, least significant first and not negative. -/
def scriptNumBytes (n : ℕ) : List UInt8 :=
  if n < 0x80 then [.ofNat n]
  else if n < 0x8000 then [.ofNat (n % 256), .ofNat (n / 256)]
  else [.ofNat (n % 256), .ofNat (n / 256), 0]

/-- `OP_1` to `OP_16`, or a push of the bytes. -/
def pushInt (n : ℕ) : Script :=
  if n ≤ 16 then [.ofNat (0x50 + n)]
  else .ofNat (scriptNumBytes n).length :: scriptNumBytes n

/-- The key may spend alone after the delay. -/
def unilateralCSVTimeoutTapLeaf (timeoutKey : PublicKey) (csvDelay : ℕ) :
    Except TreeError Script := do
  require (csvDelay ≠ 0 ∧ csvDelay ≤ 0xffff) (.csvLock csvDelay)
  return 0x20 :: timeoutKey.x.data ++ [0xac] ++ pushInt csvDelay ++ [0xb2, 0x75]

/-! ## Partition by weight -/

structure WeightedLeaf where
  leaf : LeafDescriptor
  weight : ℤ
  index : ℕ

def WeightedLeaf.less (a b : WeightedLeaf) : Bool :=
  if a.weight = b.weight then a.index < b.index else b.weight < a.weight

def weighLeaves (weightFn : LeafDescriptor → ℤ) (leaves : List LeafDescriptor) :
    List WeightedLeaf :=
  leaves.zipIdx.map fun (leaf, i) => ⟨leaf, max 0 (weightFn leaf), i⟩

/-- The loop for the first of the smallest weights. `w` is the weight at `minIdx`, and `i` is the
index of the weights that are left. -/
def minIdxFrom (minIdx : ℕ) (w : ℤ) (i : ℕ) : List ℤ → ℕ
  | [] => minIdx
  | v :: rest => if v < w then minIdxFrom i v (i + 1) rest else minIdxFrom minIdx w (i + 1) rest

def minIdx : List ℤ → ℕ
  | [] => 0
  | w :: rest => minIdxFrom 0 w 1 rest

abbrev Group := List LeafDescriptor × ℤ

def assign (groups : List Group) (wl : WeightedLeaf) : List Group :=
  groups.modify (minIdx (groups.map Prod.snd)) fun g => (g.1 ++ [wl.leaf], add64 g.2 wl.weight)

def partitionLeavesByWeight (leaves : List LeafDescriptor) (radix : ℕ)
    (weightFn : LeafDescriptor → ℤ) : List (List LeafDescriptor) :=
  let weighted := (weighLeaves weightFn leaves).insertionSort fun a b => b.less a = false
  let groups := weighted.foldl assign (List.replicate radix ([], 0))
  (groups.map Prod.fst).filter (!·.isEmpty)

/-! ## Partition by count -/

/-- The loop for the next group with capacity, from `idx` on and around. It makes at most as many
turns as there is fuel; without capacity it would not stop. -/
def nextWithCapacity (caps : List ℕ) : ℕ → ℕ → Option ℕ
  | 0, _ => none
  | fuel + 1, idx =>
    if caps.getD idx 0 = 0 then nextWithCapacity caps fuel ((idx + 1) % caps.length) else some idx

def dealLeaves (groups : List (List LeafDescriptor)) (caps : List ℕ) (idx : ℕ) :
    List LeafDescriptor → Option (List (List LeafDescriptor))
  | [] => some groups
  | leaf :: rest =>
    match nextWithCapacity caps caps.length idx with
    | none => none
    | some idx =>
      dealLeaves (groups.modify idx (· ++ [leaf])) (caps.modify idx (· - 1))
        ((idx + 1) % caps.length) rest

def partitionLeavesByCount (leaves : List LeafDescriptor) (radix : ℕ) :
    Option (List (List LeafDescriptor)) :=
  let m := leaves.length
  if m ≤ radix then some (leaves.map fun leaf => [leaf])
  else
    let sizes := (List.range radix).map fun i => m / radix + if i < m % radix then 1 else 0
    match dealLeaves (List.replicate radix []) sizes 0 leaves with
    | none => none
    | some groups =>
      let nonEmpty := groups.filter (!·.isEmpty)
      if nonEmpty.length ≤ 1 ∧ 1 < m then some [leaves.take (m / 2), leaves.drop (m / 2)]
      else some nonEmpty

/-- Without a weight function leaves are partitioned purely by count. -/
def partitionLeaves (leaves : List LeafDescriptor) (radix : ℕ) :
    Option (LeafDescriptor → ℤ) → Option (List (List LeafDescriptor))
  | none => partitionLeavesByCount leaves radix
  | some weightFn => some (partitionLeavesByWeight leaves radix weightFn)

/-! ## Structure -/

/-- A node before its transaction is known. -/
structure Shape where
  coSigners : List PublicKey
  amount : ℤ
  /-- The entry of the map of leaf scripts; empty for a branch. -/
  leafScript : Script

def buildLeafStructure (leaf : LeafDescriptor) (operatorKey : PublicKey) : Rose ℕ Shape :=
  .node ⟨uniqueCosigners [operatorKey, leaf.coSignerKey], leaf.amount, leaf.pkScript⟩ []

def buildChildren (build : List LeafDescriptor → Except TreeError (Rose ℕ Shape)) :
    ℕ → List (List LeafDescriptor) → Except TreeError (List (ℕ × Rose ℕ Shape))
  | _, [] => .ok []
  | i, group :: rest =>
    if group.isEmpty then buildChildren build (i + 1) rest
    else do
      let child ← build group
      let children ← buildChildren build (i + 1) rest
      return (i, child) :: children

def buildBranch (operatorKey : PublicKey) (children : List (ℕ × Rose ℕ Shape)) : Rose ℕ Shape :=
  .node
    { coSigners := uniqueCosigners (operatorKey :: children.flatMap (·.2.label.coSigners))
      amount := (children.map (·.2.label.amount)).foldl add64 0
      leafScript := [] }
    children

/-- The recursion stops by itself where every group is smaller than the whole; the fuel is for the
partitions that put all leaves into one group. -/
def buildStructureRecursive (operatorKey : PublicKey) (radix : ℕ) (weightFn : LeafDescriptor → ℤ) :
    ℕ → List LeafDescriptor → Except TreeError (Rose ℕ Shape)
  | _, [leaf] => .ok (buildLeafStructure leaf operatorKey)
  | 0, _ => .error .outOfFuel
  | fuel + 1, leaves => do
    let children ← buildChildren (buildStructureRecursive operatorKey radix weightFn fuel) 0
      (partitionLeavesByWeight leaves radix weightFn)
    return buildBranch operatorKey children

/-! ## Materialization -/

section

variable (crypto : Crypto) (sweepTapscriptRoot : List UInt8)

def materializeLeaf (input : OutPoint) (shape : Shape) : Except TreeError NodeData := do
  let finalKey ← computeFinalKey crypto shape.coSigners sweepTapscriptRoot
  require (shape.leafScript ≠ []) .leafPkScript
  return { input := input
           outputs := [⟨shape.amount, shape.leafScript⟩, anchorOutput]
           coSigners := shape.coSigners
           amount := shape.amount
           finalKey := some finalKey }

def childOutputs : List Shape → Except TreeError (List TxOut)
  | [] => .ok []
  | child :: rest => do
    let pkScript ← cosignerScript crypto child.coSigners sweepTapscriptRoot
    let outputs ← childOutputs rest
    return ⟨child.amount, pkScript⟩ :: outputs

def materializeBranch (input : OutPoint) (shape : Shape) (children : List Shape) :
    Except TreeError NodeData := do
  let finalKey ← computeFinalKey crypto shape.coSigners sweepTapscriptRoot
  let outputs ← childOutputs crypto sweepTapscriptRoot children
  return { input := input
           outputs := outputs ++ [anchorOutput]
           coSigners := shape.coSigners
           amount := shape.amount
           finalKey := some finalKey }

mutual

/-- Fill in a node, then its children from the first to the last. -/
def materialize : OutPoint → Rose ℕ Shape → Except TreeError Node
  | input, .node shape children =>
    if children.isEmpty then do
      let d ← materializeLeaf crypto sweepTapscriptRoot input shape
      return .node d []
    else do
      let d ← materializeBranch crypto sweepTapscriptRoot input shape (children.map (·.2.label))
      let nodes ← materializeChildren (d.txid crypto) 0 children
      return .node d nodes

/-- The children spend the outputs of their parent in order. -/
def materializeChildren (txHash : ℕ) :
    ℕ → List (ℕ × Rose ℕ Shape) → Except TreeError (List (ℕ × Node))
  | _, [] => .ok []
  | i, (idx, child) :: rest => do
    let node ← materialize ⟨txHash, i⟩ child
    let nodes ← materializeChildren txHash (i + 1) rest
    return (idx, node) :: nodes

end

/-! ## Trees -/

def defaultRadix : ℕ := 2

def buildTree (operatorKey : PublicKey) (radix : ℕ) (rootInput : OutPoint) (rootOutput : TxOut)
    (leaves : List LeafDescriptor) : Except TreeError Tree := do
  require (leaves ≠ []) .noLeaves
  require (defaultRadix ≤ radix ∨ radix = 0) (.radix radix)
  let shape ← buildStructureRecursive operatorKey (if radix = 0 then defaultRadix else radix)
    LeafDescriptor.amount leaves.length leaves
  require (shape.label.amount = rootOutput.value) (.leafSum shape.label.amount rootOutput.value)
  let root ← materialize crypto sweepTapscriptRoot rootInput shape
  return { root := root
           batchOutpoint := rootInput
           batchOutput := some rootOutput
           sweepTapscriptRoot := sweepTapscriptRoot
           assetContext := none }

end

/-- Larger amounts first, then the script. -/
def leafLess (a b : LeafDescriptor) : Bool :=
  if a.amount = b.amount then a.pkScript < b.pkScript else b.amount < a.amount

def sortLeaves (leaves : List LeafDescriptor) : List LeafDescriptor :=
  leaves.insertionSort fun a b => leafLess b a = false

section

variable (crypto : Crypto)

def buildVTXOTree (batchOutpoint : OutPoint) (batchOutput : TxOut) (vtxos : List VTXODescriptor)
    (operatorCoSignKey sweepKey : PublicKey) (sweepDelay radix : ℕ) : Except TreeError Tree := do
  validateVTXODescriptors vtxos
  require (2 ≤ radix) (.radix radix)
  let sweepTapLeaf ← unilateralCSVTimeoutTapLeaf sweepKey sweepDelay
  buildTree crypto (crypto.tapHash sweepTapLeaf) operatorCoSignKey radix batchOutpoint batchOutput
    (sortLeaves (vtxos.map VTXODescriptor.toLeafDescriptor))

/-! ## The batch output -/

structure BatchOutputSpec where
  output : TxOut
  internalKey : PublicKey
  sweepLeaf : Script

/-- The loop over the descriptors, of which `i` are done: their total, the keys seen and the
signers. -/
def collectSigners (operatorMuSigKey : PublicKey) (i : ℕ) (totalAmount : ℤ)
    (seenSigners : List (Bytes 32)) (signers : List PublicKey) :
    List VTXODescriptor → Except TreeError (ℤ × List PublicKey)
  | [] => .ok (totalAmount, signers)
  | vtxo :: rest => do
    require (0 ≤ vtxo.amount) .negativeAmount
    require (totalAmount ≤ maxInt64 - vtxo.amount) .totalAmount
    require (vtxo.coSignerKey.x ≠ operatorMuSigKey.x) (.operatorCoSigner i)
    if vtxo.coSignerKey.x ∈ seenSigners then
      collectSigners operatorMuSigKey (i + 1) (totalAmount + vtxo.amount) seenSigners signers rest
    else
      collectSigners operatorMuSigKey (i + 1) (totalAmount + vtxo.amount)
        (vtxo.coSignerKey.x :: seenSigners) (signers ++ [vtxo.coSignerKey]) rest

def buildBatchOutputSpec (vtxos : List VTXODescriptor) (operatorMuSigKey sweepKey : PublicKey)
    (sweepDelay : ℕ) : Except TreeError BatchOutputSpec := do
  require (vtxos ≠ []) .noDescriptors
  let sweepTapLeaf ← unilateralCSVTimeoutTapLeaf sweepKey sweepDelay
  let (totalAmount, signers) ←
    collectSigners operatorMuSigKey 0 0 [operatorMuSigKey.x] [operatorMuSigKey] vtxos
  let aggKey := crypto.aggregateKeys signers (crypto.tapHash sweepTapLeaf)
  return { output := ⟨totalAmount, payToTaprootScript aggKey.finalKey⟩
           internalKey := aggKey.preTweakedKey
           sweepLeaf := sweepTapLeaf }

end

end Wavelength.Vtxotree
