import Wavelength.Unrollplan.Planner

/-! # When the target matures

Session and planner subtract the height from the maturity height in 32 bits. The difference
is exact unless the height is so far below zero that it leaves their range.
-/

namespace Wavelength.Unrollplan

open Recovery

/-- The report on a target that has confirmed at `confirmHeight`, over the integers. -/
def ExactAt (confirmHeight : Int32) (csvDelay : UInt32) (height blocksRemaining : Int32)
    (ready : Bool) : Prop :=
  (ready = true ↔ blocksRemaining = 0) ∧
    blocksRemaining.toInt = max 0 (confirmHeight.toInt + csvDelay.toNat - height.toInt)

instance (confirmHeight : Int32) (csvDelay : UInt32) (height blocksRemaining : Int32)
    (ready : Bool) : Decidable (ExactAt confirmHeight csvDelay height blocksRemaining ready) :=
  inferInstanceAs (Decidable (_ ∧ _))

/-- The difference of 32 bits, as long as it is in their range. -/
theorem toInt_remaining (height : Int32) (hm : 0 ≤ maturityHeight.toInt) :
    (maturityHeight - height).toInt = maturityHeight.toInt - height.toInt ∧
        maturityHeight.toInt - height.toInt < 2 ^ 31 ∨
      (maturityHeight - height).toInt < 0 ∧ 2 ^ 31 ≤ maturityHeight.toInt - height.toInt := by
  have hmax := maturityHeight.toInt_lt
  have hlow := height.le_toInt
  have hhigh := height.toInt_lt
  rw [Int32.toInt_sub]
  by_cases hrange : maturityHeight.toInt - height.toInt < 2 ^ 31
  · refine .inl ⟨Int.bmod_eq_of_le ?_ ?_, hrange⟩
    · omega
    · omega
  have hwrap : (maturityHeight.toInt - height.toInt).bmod (2 ^ 32) =
      maturityHeight.toInt - height.toInt - 2 ^ 32 := by
    rw [← Int.sub_bmod_right]
    exact Int.bmod_eq_of_le (by omega) (by omega)
  exact .inr ⟨by omega, by omega⟩

theorem exactAt_iff (h : computeMaturityHeight confirmHeight csvDelay = .ok maturityHeight) :
    ExactAt confirmHeight csvDelay height
        (if maturityHeight - height < 0 then 0 else maturityHeight - height)
        (decide (height ≥ maturityHeight)) ↔
      confirmHeight.toInt + csvDelay.toNat - height.toInt < 2 ^ 31 := by
  have hzero : ∀ a : Int32, a < 0 ↔ a.toInt < 0 := fun a => Int32.lt_iff_toInt_lt
  have hready : (decide (height ≥ maturityHeight) = true) ↔
      maturityHeight.toInt ≤ height.toInt := by
    rw [decide_eq_true_iff, ge_iff_le, Int32.le_iff_toInt_le]
  obtain ⟨hsum, hnonneg⟩ := computeMaturityHeight_ok h
  unfold ExactAt
  rw [hready, ← hsum]
  rcases toInt_remaining height hnonneg with ⟨hdiff, hrange⟩ | ⟨hneg, hrange⟩
  · refine iff_of_true ?_ hrange
    split
    · next hlt =>
      rw [hzero, hdiff] at hlt
      exact ⟨iff_of_true (by omega) rfl, by rw [max_eq_left (by omega)]; rfl⟩
    next hge =>
    rw [hzero, hdiff] at hge
    rw [← Int32.toInt_inj, hdiff, max_eq_right (by omega)]
    exact ⟨by rw [Int32.toInt_zero]; omega, rfl⟩
  · refine iff_of_false ?_ (by omega)
    rw [if_pos ((hzero _).2 hneg)]
    rintro ⟨hfalse, -⟩
    exact absurd (hfalse.2 rfl) (by omega)

theorem csvStatusAt_exact {s : Session} {status : CSVStatus}
    (h : s.csvStatusAt height = .ok status) :
    ∃ k, s.confirmHeights.lookup s.proof.targetOutpoint.hash = some k ∧
      (ExactAt k s.proof.csvDelay height status.blocksRemaining status.ready ↔
        k.toInt + s.proof.csvDelay.toNat - height.toInt < 2 ^ 31) := by
  unfold Session.csvStatusAt at h
  split at h
  · cases h
  next k hk =>
  refine ⟨k, hk, ?_⟩
  cases hm : computeMaturityHeight k s.proof.csvDelay with
  | error e =>
    rw [hm] at h
    cases h
  | ok maturityHeight =>
    rw [hm] at h
    cases h
    exact exactAt_iff hm

theorem csvInfoAt_exact (h : csvInfoAt p height targetConfirmHeight = .ok info) :
    ∃ k, targetConfirmHeight = some k ∧
      (ExactAt k p.csvDelay height info.blocksRemaining info.ready ↔
        k.toInt + p.csvDelay.toNat - height.toInt < 2 ^ 31) := by
  unfold csvInfoAt at h
  split at h
  · cases h
  next k =>
  refine ⟨k, rfl, ?_⟩
  split at h
  · cases h
  · next maturityHeight hm =>
    cases h
    exact exactAt_iff hm

theorem csv_of_snapshotAt {s : Session} {status : CSVStatus} (h : s.snapshotAt height = .ok snap)
    (hcsv : snap.csv = some status) : s.csvStatusAt height = .ok status := by
  rw [Session.snapshotAt_eq] at h
  split at h
  · cases h
    cases hcsv
  split at h
  · cases h
    cases hcsv
  cases hs : s.csvStatusAt height with
  | error e =>
    rw [hs] at h
    cases h
  | ok status' =>
    rw [hs] at h
    cases h
    cases hcsv
    rfl

theorem csv_of_plan (h : plan p height st = .ok snap) (hcsv : snap.csv = some info) :
    csvInfoAt p height st.targetConfirmHeight = .ok info := by
  have hvalid : Valid p st := by
    refine validate_eq_ok.1 ?_
    unfold plan at h
    cases hv : st.validate p with
    | error e =>
      rw [hv] at h
      cases h
    | ok u => rfl
  rw [plan_eq hvalid, targetInfo] at h
  split at h
  · cases hi : csvInfoAt p height st.targetConfirmHeight with
    | error e =>
      rw [hi] at h
      cases h
    | ok info' =>
      rw [hi] at h
      cases h
      cases hcsv
      rfl
  · cases h
    cases hcsv

/-- What a session and a plan report of the target is exact just when the blocks to go are in
the range of 32 bits. -/
theorem csv_exact_iff (height : Int32) :
    (∀ (s : Session) (snap : Recovery.Snapshot) (status : CSVStatus),
      s.snapshotAt height = .ok snap → snap.csv = some status →
      ∃ k, s.confirmHeights.lookup s.proof.targetOutpoint.hash = some k ∧
        (ExactAt k s.proof.csvDelay height status.blocksRemaining status.ready ↔
          k.toInt + s.proof.csvDelay.toNat - height.toInt < 2 ^ 31)) ∧
    ∀ (p : Proof) (st : State) (snap : Snapshot) (info : CSVInfo),
      plan p height st = .ok snap → snap.csv = some info →
      ∃ k, st.targetConfirmHeight = some k ∧
        (ExactAt k p.csvDelay height info.blocksRemaining info.ready ↔
          k.toInt + p.csvDelay.toNat - height.toInt < 2 ^ 31) :=
  ⟨fun _ _ _ h hcsv => csvStatusAt_exact (csv_of_snapshotAt h hcsv),
    fun _ _ _ _ h hcsv => csvInfoAt_exact (csv_of_plan h hcsv)⟩

/-- The session in which the only transaction has confirmed at height 7. -/
def soleConfirmed : Session :=
  (newSession soleProof).after [.broadcasted soleTx.txHash, .confirmed soleTx.txHash 7]

/-- At the lowest height no block is to go, and the target is not ready. -/
theorem csv_wraps :
    (∃ snap status, soleConfirmed.snapshotAt (-2147483648) = .ok snap ∧
      snap.csv = some status ∧ status.blocksRemaining = 0 ∧ status.ready = false ∧
      ¬ ExactAt 7 soleProof.csvDelay (-2147483648) status.blocksRemaining status.ready) ∧
    ∃ snap info, plan soleProof (-2147483648)
        ⟨[soleTx.txHash], [], some 7, ⟨.pending, none, none⟩⟩ = .ok snap ∧
      snap.csv = some info ∧ info.blocksRemaining = 0 ∧ info.ready = false ∧
      ¬ ExactAt 7 soleProof.csvDelay (-2147483648) info.blocksRemaining info.ready :=
  ⟨⟨_, _, rfl, rfl, by decide +kernel, by decide +kernel, by decide +kernel⟩,
    _, _, rfl, rfl, by decide +kernel, by decide +kernel, by decide +kernel⟩

end Wavelength.Unrollplan
