import Mathlib.Algebra.Group.Nat.Defs
import Mathlib.Order.MinMax
import Wavelength.Vtxo.Expiry

/-! # Soundness of the expiry thresholds

The refresh threshold lies at or above the critical one and a growing height only
moves the status forward. The critical threshold covers a unilateral exit as long
as the 32-bit sum behind it, which does not saturate, stays in range.
-/

namespace Wavelength.Vtxo

variable {c : ExpiryConfig} {terms : Terms} {d : Descriptor} {h h' : Height}

structure ExpiryConfig.NonNeg (c : ExpiryConfig) : Prop where
  refresh : 0 ≤ c.refreshThresholdBlocks
  critical : 0 ≤ c.criticalThresholdBlocks
  buffer : 0 ≤ c.minRefreshBuffer
  multiplier : 0 ≤ c.treeDepthMultiplier
  payment : 0 ≤ c.maxPaymentCLTV

/-- The blocks that a unilateral exit takes, over the integers. -/
def ExpiryConfig.exitBlocks (c : ExpiryConfig) (d : Descriptor) : ℤ :=
  d.exitTxDepth.toInt * c.treeDepthMultiplier.toInt + d.relativeExpiry.toNat

/-- How far along its life a status stands. -/
def ExpiryStatus.stage : ExpiryStatus → ℕ
  | .safe => 0
  | .needsRefresh => 1
  | .critical => 2
  | .expired => 3
  | .unknown => 4

theorem maxInt32_eq : maxInt32 = 2147483647 := rfl

theorem toInt_max (a b : Int32) : (max a b).toInt = max a.toInt b.toInt := by
  change (if a ≤ b then b else a).toInt = _
  simp only [max_def, ← Int32.le_iff_toInt_le]
  split <;> rfl

theorem toInt_toInt32 (x : UInt32) : x.toInt32.toInt = (x.toNat : ℤ).bmod (2 ^ 32) :=
  BitVec.toInt_eq_toNat_bmod _

/-- The buffers are added up in 32 bits. -/
theorem toInt_calculateCriticalThreshold : (c.calculateCriticalThreshold d).toInt =
    max c.criticalThresholdBlocks.toInt ((c.exitBlocks d).bmod (2 ^ 32)) := by
  rw [ExpiryConfig.calculateCriticalThreshold, toInt_max, Int32.toInt_add, Int32.toInt_mul,
    toInt_toInt32, Int.bmod_add_bmod, Int.add_bmod_bmod, ExpiryConfig.exitBlocks]

theorem toInt_saturate (hfloor : 0 ≤ floor) :
    (ExpiryConfig.saturate floor).toInt = min floor maxInt32 := by
  have hsize : Int32.size = 4294967296 := rfl
  rw [ExpiryConfig.saturate, Int32.toInt_ofInt, maxInt32_eq, Int.bmod_eq_of_le] <;> omega

theorem exitBlocks_nonneg (hc : c.NonNeg) : 0 ≤ c.exitBlocks d := by
  have hdepth : 0 ≤ d.exitTxDepth.toInt := by
    have hsize : Int32.size = 4294967296 := rfl
    rw [Descriptor.exitTxDepth]
    split
    · decide
    · next hle =>
      rw [maxInt32_eq] at hle
      rw [Int32.toInt_ofInt, Int.bmod_eq_of_le] <;> omega
  have hmul := Int.mul_nonneg hdepth (Int32.le_iff_toInt_le.1 hc.multiplier)
  unfold ExpiryConfig.exitBlocks
  omega

theorem calculateCriticalThreshold_nonneg (hc : c.NonNeg) :
    0 ≤ (c.calculateCriticalThreshold d).toInt := by
  rw [toInt_calculateCriticalThreshold]
  exact le_max_of_le_left (Int32.le_iff_toInt_le.1 hc.critical)

theorem le_effectiveRefreshSafetyFloor (hc : c.NonNeg) (ht : 0 ≤ t.toInt) :
    t.toInt ≤ (c.effectiveRefreshSafetyFloor d t).toInt := by
  have hbuffer : 0 ≤ c.minRefreshBuffer.toInt := Int32.le_iff_toInt_le.1 hc.buffer
  have hlt := t.toInt_lt
  have hpayment : 0 ≤ (max c.maxPaymentCLTV 0).toInt := by
    rw [toInt_max]
    exact le_max_right _ _
  rw [ExpiryConfig.effectiveRefreshSafetyFloor]
  split
  · rw [ExpiryConfig.refreshSafetyFloor, toInt_saturate (by omega), maxInt32_eq]
    omega
  · rw [ExpiryConfig.baseRefreshSafetyFloor, toInt_saturate (by omega), maxInt32_eq]
    omega

theorem toUint64_eq (hh : 0 ≤ h.toInt) : (toUint64 h : ℤ) = h.toInt := by
  have hlt := h.toInt_lt
  rw [toUint64]
  omega

theorem critical_le_refresh (hc : c.NonNeg) :
    (c.calculateCriticalThreshold d).toInt ≤ (c.calculateRefreshThreshold terms d).toInt := by
  have hpos := calculateCriticalThreshold_nonneg (d := d) hc
  have hfloor := le_effectiveRefreshSafetyFloor (d := d) hc hpos
  simp only [ExpiryConfig.calculateRefreshThreshold]
  generalize c.effectiveRefreshSafetyFloor d (c.calculateCriticalThreshold d) = floor at hfloor
  have hmax := toInt_max c.refreshThresholdBlocks floor
  generalize max c.refreshThresholdBlocks floor = threshold at hmax
  have hle : (c.calculateCriticalThreshold d).toInt ≤ threshold.toInt := by omega
  cases terms.freeRefreshWindow with
  | none => exact hle
  | some window =>
    simp only
    split
    · exact hle
    split
    · exact hle
    -- the window opens between the floor and the threshold, so it fits 32 bits
    next hlate hearly =>
    have hthreshold := toUint64_eq (hpos.trans hle)
    have hfloor' := toUint64_eq (hpos.trans hfloor)
    have hlt := threshold.toInt_lt
    rw [not_or] at hlate
    rw [toInt_toInt32, Int.bmod_eq_of_le] <;> omega

variable (hd : d.hasUsableBatchExpiry = true) (hh : 0 ≤ h)
include hd hh

theorem toInt_blocksUntilExpiry :
    (d.blocksUntilExpiry h).toInt = d.batchExpiry.toInt - h.toInt := by
  simp only [Descriptor.hasUsableBatchExpiry, Bool.and_eq_true, decide_eq_true_eq] at hd
  have hexp : 0 < d.batchExpiry.toInt := Int32.lt_iff_toInt_lt.1 hd.1
  have hpos : 0 ≤ h.toInt := Int32.le_iff_toInt_le.1 hh
  have hlt := d.batchExpiry.toInt_lt
  have hlt' := h.toInt_lt
  rw [Descriptor.blocksUntilExpiry, Int32.toInt_sub, Int.bmod_eq_of_le] <;> omega

theorem stage_checkExpiry :
    (c.checkExpiry terms d h).stage =
      if d.batchExpiry.toInt - h.toInt ≤ 0 then 3
      else if d.batchExpiry.toInt - h.toInt ≤ (c.calculateCriticalThreshold d).toInt then 2
      else if d.batchExpiry.toInt - h.toInt ≤ (c.calculateRefreshThreshold terms d).toInt then 1
      else 0 := by
  simp only [ExpiryConfig.checkExpiry, hd, Bool.not_true, Bool.false_eq_true, if_false,
    Int32.le_iff_toInt_le, toInt_blocksUntilExpiry hd hh, Int32.toInt_zero]
  split
  · rfl
  split
  · rfl
  split <;> rfl

/-- The status only moves forward. -/
theorem stage_checkExpiry_mono (hle : h ≤ h') :
    (c.checkExpiry terms d h).stage ≤ (c.checkExpiry terms d h').stage := by
  rw [stage_checkExpiry hd hh, stage_checkExpiry hd (Int32.le_trans hh hle)]
  rw [Int32.le_iff_toInt_le] at hle
  split
  · rw [if_pos (by omega)]
  split
  · split
    · omega
    · rw [if_pos (by omega)]
  · repeat' split
    all_goals omega

omit hd hh

/-- What the thresholds promise. -/
structure ExpiryConfig.Sound (c : ExpiryConfig) (terms : Terms) (d : Descriptor) : Prop where
  base : c.criticalThresholdBlocks ≤ c.calculateCriticalThreshold d
  exit : min (c.exitBlocks d) maxInt32 ≤ (c.calculateCriticalThreshold d).toInt
  refresh : c.calculateCriticalThreshold d ≤ c.calculateRefreshThreshold terms d
  forward : ∀ h h', 0 ≤ h → h ≤ h' →
    (c.checkExpiry terms d h).stage ≤ (c.checkExpiry terms d h').stage

/-- The thresholds are sound exactly where the blocks of an exit fit 32 bits, or
wrap to the largest value, or the configured base is that value. -/
theorem thresholds_sound_iff (hd : d.hasUsableBatchExpiry = true) (hc : c.NonNeg) :
    c.Sound terms d ↔ c.exitBlocks d ≤ maxInt32 ∨ c.exitBlocks d % 2 ^ 32 = maxInt32 ∨
      c.criticalThresholdBlocks.toInt = maxInt32 := by
  have hcrit := toInt_calculateCriticalThreshold (c := c) (d := d)
  have hpos := exitBlocks_nonneg (d := d) hc
  have hlt := c.criticalThresholdBlocks.toInt_lt
  have hmod := Int.bmod_def (c.exitBlocks d) (2 ^ 32)
  have hexit : min (c.exitBlocks d) maxInt32 ≤ (c.calculateCriticalThreshold d).toInt ↔
      c.exitBlocks d ≤ maxInt32 ∨ c.exitBlocks d % 2 ^ 32 = maxInt32 ∨
        c.criticalThresholdBlocks.toInt = maxInt32 := by
    rw [hcrit, hmod, maxInt32_eq]
    split <;> omega
  refine ⟨fun hs => hexit.1 hs.exit, fun hwhen => ⟨?_, hexit.2 hwhen, ?_, fun h h' => ?_⟩⟩
  · rw [Int32.le_iff_toInt_le, hcrit]
    exact le_max_left _ _
  · exact Int32.le_iff_toInt_le.2 (critical_le_refresh hc)
  · exact stage_checkExpiry_mono hd

theorem thresholds_sound_iff_default :
    ({} : ExpiryConfig).Sound {} { batchExpiry := 1000, ancestry := [3], relativeExpiry := 144 } :=
  (thresholds_sound_iff (by decide) ⟨by decide, by decide, by decide, by decide, by decide⟩).2
    (.inl (by decide))

/-- Two levels of `2 ^ 30` blocks each wrap to a negative sum, and the threshold
falls back to the base. -/
theorem critical_threshold_wraps :
    ({ treeDepthMultiplier := 1073741824 } : ExpiryConfig).calculateCriticalThreshold
      { batchExpiry := 1000, ancestry := [2] } = 36 ∧
    ¬ ({ treeDepthMultiplier := 1073741824 } : ExpiryConfig).Sound {}
      { batchExpiry := 1000, ancestry := [2] } :=
  ⟨by decide, fun h => absurd h.exit (by decide)⟩

end Wavelength.Vtxo
