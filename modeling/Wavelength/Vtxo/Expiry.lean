import Mathlib.Algebra.Group.Int.Defs
import Mathlib.Data.Int.Notation
import Mathlib.Data.List.Basic
import Mathlib.Tactic.Common

/-! # Batch expiry of a VTXO

The expiry check and the thresholds behind it, over 32-bit heights. The operator
terms, which the source reads through callbacks, are an argument.
-/

namespace Wavelength.Vtxo

abbrev Height := Int32

abbrev Amount := ℤ

inductive Status
  | live
  | pendingForfeit
  | forfeiting
  | forfeited
  | spent
  | unilateralExit
  | failed
  | spending
  | expired
  deriving DecidableEq

/-- The fields of a descriptor that the lifecycle reads. `ancestry` holds the tree
depth of each fragment. -/
structure Descriptor where
  amount : Amount := 0
  taprootAssetRoot : Bool := false
  ancestry : List ℕ := []
  batchExpiry : Height
  relativeExpiry : UInt32 := 0
  chainDepth : ℤ := 0
  createdHeight : Height := 0

inductive ExpiryStatus
  | safe
  | needsRefresh
  | critical
  | expired
  | unknown
  deriving DecidableEq

structure ExpiryConfig where
  refreshThresholdBlocks : Height := 144
  criticalThresholdBlocks : Height := 36
  minRefreshBuffer : Height := 72
  treeDepthMultiplier : Height := 6
  maxPaymentCLTV : Height := 0

/-- What the operator-terms callbacks return; `none` for a nil callback. -/
structure Terms where
  minRefreshAmount : Option Amount := none
  freeRefreshWindow : Option UInt32 := none

def maxInt32 : ℤ := 2 ^ 31 - 1

/-- A Go `uint64(x)` of an `int32`. -/
def toUint64 (x : Height) : ℕ := (x.toInt % 2 ^ 64).toNat

namespace Descriptor

variable (d : Descriptor)

def hasUsableBatchExpiry : Bool :=
  0 < d.batchExpiry && (d.createdHeight ≤ 0 || d.createdHeight ≤ d.batchExpiry)

def maxTreeDepth : ℕ := d.ancestry.foldl max 0

def exitTxDepth : Height :=
  let depth : ℤ := d.maxTreeDepth + max d.chainDepth 0
  if maxInt32 < depth then .ofInt maxInt32 else .ofInt depth

def blocksUntilExpiry (currentHeight : Height) : Height := d.batchExpiry - currentHeight

end Descriptor

namespace ExpiryConfig

variable (c : ExpiryConfig) (terms : Terms) (d : Descriptor)

def calculateCriticalThreshold : Height :=
  max c.criticalThresholdBlocks (d.exitTxDepth * c.treeDepthMultiplier + d.relativeExpiry.toInt32)

/-- The sum in 64 bits, capped at the largest 32-bit value. -/
def saturate (floor : ℤ) : Height := .ofInt (min floor maxInt32)

def refreshSafetyFloor (criticalThreshold : Height) : Height :=
  saturate (criticalThreshold.toInt + c.minRefreshBuffer.toInt + (max c.maxPaymentCLTV 0).toInt)

def baseRefreshSafetyFloor (criticalThreshold : Height) : Height :=
  saturate (criticalThreshold.toInt + c.minRefreshBuffer.toInt)

def canReserveMaxPaymentCLTV (criticalThreshold : Height) : Bool :=
  if c.maxPaymentCLTV ≤ 0 ∨ 0 < d.chainDepth ∨ d.createdHeight ≤ 0 ∨
      d.batchExpiry ≤ d.createdHeight then true
  else
    (c.refreshSafetyFloor criticalThreshold).toInt + (max c.minRefreshBuffer 0).toInt ≤
      d.batchExpiry.toInt - d.createdHeight.toInt

def effectiveRefreshSafetyFloor (criticalThreshold : Height) : Height :=
  if c.canReserveMaxPaymentCLTV d criticalThreshold then c.refreshSafetyFloor criticalThreshold
  else c.baseRefreshSafetyFloor criticalThreshold

def calculateRefreshThreshold : Height :=
  let safetyFloor := c.effectiveRefreshSafetyFloor d (c.calculateCriticalThreshold d)
  let refreshThreshold := max c.refreshThresholdBlocks safetyFloor
  match terms.freeRefreshWindow with
  | none => refreshThreshold
  | some windowBlocks =>
    if windowBlocks = 0 ∨ toUint64 refreshThreshold ≤ windowBlocks.toNat then refreshThreshold
    else if windowBlocks.toNat < toUint64 safetyFloor then refreshThreshold
    else windowBlocks.toInt32

def checkExpiry (currentHeight : Height) : ExpiryStatus :=
  if !d.hasUsableBatchExpiry then .unknown
  else
    let blocksRemaining := d.blocksUntilExpiry currentHeight
    if blocksRemaining ≤ 0 then .expired
    else if blocksRemaining ≤ c.calculateCriticalThreshold d then .critical
    else if blocksRemaining ≤ c.calculateRefreshThreshold terms d then .needsRefresh
    else .safe

end ExpiryConfig

namespace Terms

variable (terms : Terms) (d : Descriptor) (currentHeight : Height)

def shouldWaitForFreeRefreshWindow : Bool :=
  match terms.freeRefreshWindow with
  | none => false
  | some window =>
    let remaining := d.blocksUntilExpiry currentHeight
    d.hasUsableBatchExpiry && 0 < remaining && window.toNat < toUint64 remaining

def canAutoRefresh : Bool :=
  !d.taprootAssetRoot && !terms.shouldWaitForFreeRefreshWindow d currentHeight &&
    terms.minRefreshAmount.all (· ≤ d.amount)

end Terms

section Past

variable {c : ExpiryConfig} {d : Descriptor}

/-- A height that is known and at or past the usable expiry. -/
def Descriptor.Past (d : Descriptor) (h : Height) : Prop :=
  d.hasUsableBatchExpiry = true ∧ d.batchExpiry ≤ h

instance : Decidable (d.Past h) := inferInstanceAs (Decidable (_ ∧ _))

theorem Descriptor.Past.mono (hp : d.Past h) (hle : h ≤ h') : d.Past h' :=
  ⟨hp.1, Int32.le_trans hp.2 hle⟩

theorem Descriptor.Past.pos (hp : d.Past h) : 0 < h := by
  have hexp : 0 < d.batchExpiry := by
    have := hp.1
    simp only [hasUsableBatchExpiry, Bool.and_eq_true, decide_eq_true_eq] at this
    exact this.1
  exact Int32.lt_of_lt_of_le hexp hp.2

/-- Between a positive expiry and a positive height the difference does not wrap. -/
theorem blocksUntilExpiry_le_zero_iff (hexp : 0 < d.batchExpiry) (hpos : 0 < h) :
    d.blocksUntilExpiry h ≤ 0 ↔ d.batchExpiry ≤ h := by
  rw [Int32.lt_iff_toInt_lt] at hexp hpos
  rw [Int32.le_iff_toInt_le, Int32.le_iff_toInt_le, Descriptor.blocksUntilExpiry, Int32.toInt_sub]
  have hexp' := d.batchExpiry.toInt_lt
  have hpos' := h.toInt_lt
  rw [Int32.toInt_zero] at *
  rw [Int.bmod_eq_of_le] <;> omega

theorem checkExpiry_eq_expired_iff (hpos : 0 < h) :
    c.checkExpiry terms d h = .expired ↔ d.Past h := by
  unfold ExpiryConfig.checkExpiry Descriptor.Past
  cases hu : d.hasUsableBatchExpiry with
  | false => simp
  | true =>
    have hexp : 0 < d.batchExpiry := by
      simp only [Descriptor.hasUsableBatchExpiry, Bool.and_eq_true, decide_eq_true_eq] at hu
      exact hu.1
    simp only [Bool.not_true, Bool.false_eq_true, if_false, true_and,
      ← blocksUntilExpiry_le_zero_iff hexp hpos]
    split
    · next hle => exact ⟨fun _ => hle, fun _ => rfl⟩
    next hle =>
    refine ⟨fun heq => ?_, fun h => absurd h hle⟩
    split at heq
    · cases heq
    · split at heq <;> cases heq

theorem Descriptor.Past.checkExpiry (hp : d.Past h) : c.checkExpiry terms d h = .expired :=
  (checkExpiry_eq_expired_iff hp.pos).2 hp

end Past

end Wavelength.Vtxo
