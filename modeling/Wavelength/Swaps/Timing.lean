import Mathlib.Algebra.Group.Nat.Defs
import Mathlib.Tactic.Common

/-! # The time locks of a vHTLC

The four block constraints of a vHTLC policy and the checks made before it is funded or accepted.
Heights and delays are 32-bit words.
-/

namespace Wavelength.Swaps

structure VHTLCTiming where
  refundLocktime : UInt32
  unilateralClaimDelay : UInt32
  unilateralRefundDelay : UInt32
  unilateralRefundWithoutReceiverDelay : UInt32
  deriving DecidableEq

structure VHTLCClaimWindow where
  currentHeight : UInt32
  exitAncestryDelay : UInt32
  recoveryMargin : UInt32

/-- Lock times from here on are dates. -/
def lockTimeThreshold : UInt32 := 500000000

namespace VHTLCTiming

variable (t : VHTLCTiming)

def validateOrder : Bool :=
  t.unilateralClaimDelay ≤ t.unilateralRefundDelay &&
    t.unilateralRefundDelay ≤ t.unilateralRefundWithoutReceiverDelay

def validateRefundWindow (currentHeight maxBlocks : UInt32) : Bool :=
  t.validateOrder && maxBlocks != 0 && t.refundLocktime < lockTimeThreshold &&
    currentHeight < t.refundLocktime && t.refundLocktime - currentHeight ≤ maxBlocks &&
    t.unilateralRefundWithoutReceiverDelay ≤ maxBlocks

/-- The receiver has time to publish the ancestry, wait for its claim and keep the margin. -/
def validateClaimWindow (window : VHTLCClaimWindow) : Bool :=
  t.validateOrder && window.currentHeight < t.refundLocktime &&
    window.exitAncestryDelay.toUInt64 + t.unilateralClaimDelay.toUInt64 +
      window.recoveryMargin.toUInt64 < (t.refundLocktime - window.currentHeight).toUInt64

variable {t}

theorem window_of_validateRefundWindow (hv : t.validateRefundWindow h m = true) :
    h < t.refundLocktime ∧ t.refundLocktime.toNat - h.toNat ≤ m.toNat ∧
      t.unilateralRefundWithoutReceiverDelay ≤ m := by
  simp only [validateRefundWindow, Bool.and_eq_true, decide_eq_true_eq] at hv
  obtain ⟨⟨⟨-, hlt⟩, hle⟩, hdelay⟩ := hv
  refine ⟨hlt, ?_, hdelay⟩
  rw [UInt32.le_iff_toNat_le, UInt32.toNat_sub_of_le _ _ (UInt32.le_of_lt hlt)] at hle
  exact hle

end VHTLCTiming

end Wavelength.Swaps
