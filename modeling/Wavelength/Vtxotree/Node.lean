import Mathlib.Algebra.BigOperators.Group.List.Basic
import Mathlib.Algebra.GroupWithZero.Nat
import Mathlib.Algebra.Ring.Int.Defs
import Mathlib.Data.UInt
import Wavelength.Base.Bytes
import Wavelength.Base.Checks
import Wavelength.Base.Rose
import Wavelength.Base.Wire

/-! # Transaction trees

A node of a tree is a transaction with one input. Its outputs are spent by its children, and the
last one is an anchor. An output that is spent by a child is locked to the aggregated key of the
cosigners of the child.
-/

namespace Wavelength.Vtxotree

/-- A public key: its x coordinate, which is how schnorr signatures serialize it, and the parity
of its y coordinate. -/
structure PublicKey where
  x : Bytes 32
  odd : Bool
  deriving DecidableEq

structure TxIn where
  previousOutPoint : OutPoint
  sequence : ℕ

structure TxOut where
  value : ℤ
  pkScript : Script

structure MsgTx where
  version : ℤ
  txIn : List TxIn
  txOut : List TxOut

/-- A leaf output and the key of its owner. -/
structure LeafDescriptor where
  pkScript : Script
  amount : ℤ
  coSignerKey : PublicKey
  deriving DecidableEq

structure AggregateKey where
  finalKey : PublicKey
  preTweakedKey : PublicKey

/-- The hashes and the key arithmetic. Keys are sorted before they are aggregated. -/
structure Crypto where
  aggregateKeys : List PublicKey → List UInt8 → AggregateKey
  aggregateKeys_perm : ∀ keys keys' tweak, keys.Perm keys' →
    aggregateKeys keys tweak = aggregateKeys keys' tweak
  computeTaprootOutputKey : PublicKey → List UInt8 → PublicKey
  tapHash : Script → List UInt8
  txHash : MsgTx → ℕ

def Crypto.sum : Crypto where
  aggregateKeys keys tweak :=
    let total := (keys.map fun key => (key.x.data.getLastD 0).toNat).sum
    { finalKey := ⟨.lastByte 31 (.ofNat total + tweak.sum), false⟩
      preTweakedKey := ⟨.lastByte 31 (.ofNat total), false⟩ }
  aggregateKeys_perm keys keys' tweak h := by
    rw [(h.map fun key => (key.x.data.getLastD 0).toNat).sum_eq]
  computeTaprootOutputKey key tweak := ⟨.lastByte 31 (key.x.data.getLastD 0 + tweak.sum), key.odd⟩
  tapHash script := List.replicate 31 0 ++ [script.sum]
  txHash _ := 0

inductive TreeError where
  -- Descriptors
  | noDescriptors
  | invalidAmount (i : ℕ) (amount : ℤ)
  | emptyPkScript (i : ℕ)
  | invalidTaprootScript (i : ℕ)
  | duplicateCoSigner (i : ℕ)
  | negativeAmount
  | totalAmount
  | operatorCoSigner (i : ℕ)
  -- Building
  | radix (radix : ℕ)
  | csvLock (lock : ℕ)
  | noCosigners
  | noLeaves
  | leafSum (sum value : ℤ)
  | leafPkScript
  | outOfFuel
  -- Values
  | rootInput
  | nilBatchOutput
  | negativeValue (value : ℤ)
  | valueTooLarge (value : ℤ)
  | input (input expected : OutPoint)
  | noOutputs
  | totalValue
  | outputsExceed (total value : ℤ)
  | outputsBelow (total value : ℤ)
  | childIndex (i : ℕ)
  | child (i : ℕ) (err : TreeError)
  | root (err : TreeError)
  | valueConservation (err : TreeError)
  -- Scripts and anchors
  | childScript (i : ℕ)
  | childScripts (err : TreeError)
  | version (version : ℤ)
  | anchorValue (value : ℤ)
  | anchorScript
  -- Asset trees
  | assetRef
  | inputReused (input : OutPoint)
  | assetAmount (input : OutPoint)
  | signingTweak (input : OutPoint)
  | leafAssetRoot (input : OutPoint)
  | branchAssetRoot (input : OutPoint)
  | assetOverflow (input : OutPoint)
  | assetTotal (total amount : ℕ)
  | assetContext (err : TreeError)
  -- Paths
  | noTargetKeys
  | emptyExpectedScript
  | noPath
  | treeStructure (err : TreeError)
  | leafCount (n : ℕ)
  | leafOutputs (n : ℕ)
  | vtxoScript
  | cosignerMissing
  | vtxoPath (err : TreeError)
  | vtxoValue (value expected : ℤ)
  | operatorMissing
  -- Binding to the commitment
  | mapKey (outputIdx : ℤ) (index : ℕ)
  | batchHash (hash txid : ℕ)
  | batchIndex (index outputs : ℕ)
  | committedValue (value batch : ℤ)
  | committedScript
  | rootScript
  deriving DecidableEq

/-! ## Keys and scripts -/

/-- `OP_1` and a push of the x coordinate. -/
def payToTaprootScript (key : PublicKey) : Script := 0x51 :: 0x20 :: key.x.data

def isPayToTaproot (script : Script) : Bool :=
  script.length = 34 && script.take 2 = [0x51, 0x20]

def anchorPkScript : Script := [0x51, 0x02, 0x4e, 0x73]

def anchorOutput : TxOut := ⟨0, anchorPkScript⟩

/-- The keys whose x coordinate is not in `seen` or earlier in the list. -/
def uniqueFrom (seen : List (Bytes 32)) : List PublicKey → List PublicKey
  | [] => []
  | key :: keys =>
    if key.x ∈ seen then uniqueFrom seen keys else key :: uniqueFrom (key.x :: seen) keys

def uniqueCosigners (cosigners : List PublicKey) : List PublicKey := uniqueFrom [] cosigners

def containsCosigner (cosigners : List PublicKey) (targetKey : PublicKey) : Bool :=
  cosigners.contains targetKey

section

variable (crypto : Crypto)

def computeFinalKey (cosigners : List PublicKey) (sweepTapscriptRoot : List UInt8) :
    Except TreeError PublicKey :=
  match cosigners with
  | [] => .error .noCosigners
  | [key] => .ok (crypto.computeTaprootOutputKey key sweepTapscriptRoot)
  | keys => .ok (crypto.aggregateKeys keys sweepTapscriptRoot).finalKey

def cosignerScript (cosigners : List PublicKey) (tweak : List UInt8) : Except TreeError Script := do
  let key ← computeFinalKey crypto cosigners tweak
  return payToTaprootScript key

end

/-! ## Nodes -/

structure NodeData where
  input : OutPoint
  outputs : List TxOut
  coSigners : List PublicKey
  /-- The total of the leaves below; zero in an extracted path. -/
  amount : ℤ
  finalKey : Option PublicKey

abbrev Node := Rose ℕ NodeData

def maxTxInSequenceNum : ℕ := 0xffffffff

def NodeData.toTx (d : NodeData) : MsgTx where
  version := 3
  txIn := [⟨d.input, maxTxInSequenceNum⟩]
  txOut := d.outputs

def NodeData.txid (crypto : Crypto) (d : NodeData) : ℕ := crypto.txHash d.toTx

def NodeData.total (d : NodeData) : ℤ := (d.outputs.map TxOut.value).sum

/-- What an asset tree records of the inputs of its nodes. An input that is not recorded has
amount zero, no tweak and no root. -/
structure AssetTreeContext where
  amountsByInput : OutPoint → ℕ
  leafRootsByInput : OutPoint → List UInt8
  tweaksByInput : OutPoint → List UInt8
  assetRef : String

structure Tree where
  root : Node
  batchOutpoint : OutPoint
  batchOutput : Option TxOut
  sweepTapscriptRoot : List UInt8
  assetContext : Option AssetTreeContext

/-- The tweak of the key that signs for the input of a node. -/
def Tree.childSigningTweak (t : Tree) (d : NodeData) : List UInt8 :=
  match t.assetContext with
  | some c => c.tweaksByInput d.input
  | none => t.sweepTapscriptRoot

end Wavelength.Vtxotree
