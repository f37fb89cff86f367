import Wavelength.Ledger.Replay

/-! # The books of a unilateral exit

The legs of an exit are keyed by its outpoint, the proceeds apart from the send, so
that a message which first learns of the own-wallet destination adds its leg to an
exit that is already booked.
-/

namespace Wavelength.Ledger

open List

variable {t t₀ t' : Tables}

def LedgerEntry.effect (e : LedgerEntry) (a : Account) : ℤ :=
  (if e.debitAccount = a then e.amountSat else 0) - if e.creditAccount = a then e.amountSat else 0

def accounts : List Account :=
  [.walletBalance, .vtxoBalance, .feesPaid, .onchainFees, .transfersIn, .transfersOut,
    .openingBalance, .walletClearing]

def Tables.booked (t : Tables) (e : LedgerEntry) : Bool :=
  t.entries.any fun r => r.idempotencyKey = e.idempotencyKey ∧ r.leg = e.leg

theorem sum_effect (e : LedgerEntry) : (accounts.map e.effect).sum = 0 := by
  unfold LedgerEntry.effect
  cases e.debitAccount <;> cases e.creditAccount <;> simp [accounts]

theorem accountBalance_append (a : Account) :
    ({ t with entries := t.entries ++ [e] } : Tables).accountBalance a =
      t.accountBalance a + e.effect a := by
  have hsum : ∀ b : Account, ((filter (fun _ => decide (b = a)) [e]).map LedgerEntry.amountSat).sum =
      if b = a then e.amountSat else 0 := by
    intro b
    by_cases hb : b = a <;> simp [hb]
  have hd := hsum e.debitAccount
  have hc := hsum e.creditAccount
  simp only [Tables.accountBalance, LedgerEntry.effect, filter_append, map_append, sum_append] at *
  simp only [filter_singleton] at *
  omega

/-- An accepted insert under a key adds the row unless one of the key and the leg is there;
`e'` is the entry at another time and height. -/
theorem insertLedgerEntry_keyed (e' : LedgerEntry) (hid : e.Identified)
    (hsome : e.idempotencyKey ≠ none) (hkey : e.idempotencyKey = e'.idempotencyKey)
    (hleg : e.leg = e'.leg) (heffect : e.effect = e'.effect) :
    Yields (t.insertLedgerEntry e) fun t' => t'.booked e' = true ∧
      (∀ r, r.leg ≠ e'.leg → t'.booked r = t.booked r) ∧
      ∀ a, t'.accountBalance a = t.accountBalance a + if t.booked e' then 0 else e'.effect a := by
  intro t' h
  have hbooked : ∀ t : Tables, t.booked e' = t.booked e := by simp [Tables.booked, hkey, hleg]
  cases hb : t.booked e' with
  | true =>
    obtain ⟨w, hw, hrow⟩ := any_eq_true.1 (hbooked t ▸ hb)
    obtain ⟨hwkey, hwleg⟩ := of_decide_eq_true hrow
    obtain rfl := insertLedgerEntry_of_key hw hsome hwkey hwleg h
    exact ⟨hb, fun _ _ => rfl, fun a => (add_zero _).symm⟩
  | false =>
    obtain ⟨rfl | rfl, hrec⟩ := insertLedgerEntry_ok h
    · obtain ⟨w, hw, hpay⟩ := (hrec hid.1 hid.2).row
      have hrow := any_eq_false.1 (hbooked _ ▸ hb) w hw
      rw [LedgerEntry.eq_of_payload hpay] at hrow
      exact absurd (decide_eq_true ⟨rfl, rfl⟩) hrow
    · refine ⟨by simp [Tables.booked, hkey, hleg], fun r hr => ?_, fun a => ?_⟩
      · simp [Tables.booked, hleg, Ne.symm hr]
      · rw [accountBalance_append, heffect]
        rfl

def ExitCostMsg.again (m : ExitCostMsg) (height : UInt32) (own : Bool) : ExitCostMsg :=
  { m with blockHeight := height, destinationOwnWallet := own }

/-- The exit is booked in `t`, over `t₀`, if `sent`, with its proceeds if `own`. -/
structure ExitBooked (m : ExitCostMsg) (t₀ t : Tables) (sent own : Bool) : Prop where
  send : t.booked (exitSendLeg 0 m) = sent
  fee : t.booked (exitFeeLeg 0 m) = sent
  proceeds : t.booked (exitProceedsLeg 0 m) = own
  balance : ∀ a, t.accountBalance a = t₀.accountBalance a +
    (if sent then (exitSendLeg 0 m).effect a + (exitFeeLeg 0 m).effect a else 0) +
    if own then (exitProceedsLeg 0 m).effect a else 0

theorem ExitBooked.handle (h : ExitBooked m t₀ t sent own) :
    Yields (handleExitCost now t (m.again height own'))
      fun t' => ExitBooked m t₀ t' true (own || own') := by
  refine .ite (fun _ => .throw) fun _ => .ite (fun _ => .throw) fun _ => ?_
  refine .bind (insertLedgerEntry_keyed (exitSendLeg 0 m) exitLeg_identified nofun rfl rfl rfl)
    fun t₁ ⟨hsend₁, hother₁, hsum₁⟩ => ?_
  refine .bind (insertLedgerEntry_keyed (exitFeeLeg 0 m) exitLeg_identified nofun rfl rfl rfl)
    fun t₂ ⟨hfee₂, hother₂, hsum₂⟩ => ?_
  have hbooked : ExitBooked m t₀ t₂ true own := by
    refine ⟨(hother₂ _ (by nofun)).trans hsend₁, hfee₂, ?_, fun a => ?_⟩
    · rw [hother₂ _ (by nofun), hother₁ _ (by nofun), h.proceeds]
    · rw [hsum₂, hsum₁, hother₁ _ (by nofun), h.fee, h.send, h.balance]
      cases sent <;> simp only [if_true, if_false, Bool.false_eq_true] <;> omega
  refine .ite (fun hown => ?_) fun hown => ?_
  · obtain rfl : own' = true := hown
    intro t₃ hok
    obtain ⟨hproceeds₃, hother₃, hsum₃⟩ :=
      insertLedgerEntry_keyed (e := exitProceedsLeg now (m.again height true))
        (exitProceedsLeg 0 m) exitLeg_identified nofun rfl rfl rfl t₃ hok
    refine ⟨(hother₃ _ (by nofun)).trans hbooked.send,
      (hother₃ _ (by nofun)).trans hbooked.fee, ?_, fun a => ?_⟩
    · rw [hproceeds₃, Bool.or_true]
    · rw [hsum₃, hbooked.proceeds, hbooked.balance]
      cases own <;> simp
  · obtain rfl : own' = false := Bool.eq_false_iff.2 hown
    rw [Bool.or_false]
    exact Yields.pure_iff.2 hbooked

/-- The reports of an exit: when each is delivered, its height and its destination. -/
def ExitCostMsg.reports (m : ExitCostMsg) (ps : List (ℤ × UInt32 × Bool)) : List Delivery :=
  ps.map fun p => ⟨p.1, .exitCost (m.again p.2.1 p.2.2)⟩

/-- The reports that are accepted, by their destination. -/
def ExitCostMsg.accepted (m : ExitCostMsg) (audited : Bool) :
    Tables → List (ℤ × UInt32 × Bool) → List Bool
  | _, [] => []
  | t, p :: ps =>
    let d : Delivery := ⟨p.1, .exitCost (m.again p.2.1 p.2.2)⟩
    let rest := m.accepted audited (deliver audited t d) ps
    if Ledger.accepted audited t d then p.2.2 :: rest else rest

theorem ExitBooked.deliveries (h : ExitBooked m t₀ t sent own) (audited : Bool)
    (ps : List (ℤ × UInt32 × Bool)) :
    ExitBooked m t₀ (deliveries audited t (m.reports ps))
      (sent || m.accepted audited t ps ≠ []) (own || (m.accepted audited t ps).any id) := by
  induction ps generalizing t sent own with
  | nil =>
    simp only [ExitCostMsg.accepted, any_nil, ne_eq, not_true, decide_false, Bool.or_false]
    exact h
  | cons p ps ih =>
    obtain ⟨now, height, own'⟩ := p
    have hrest : ∀ {t' sent own}, ExitBooked m t₀ t' sent own →
        deliver audited t ⟨now, .exitCost (m.again height own')⟩ = t' →
        ExitBooked m t₀ (Ledger.deliveries audited t (m.reports ((now, height, own') :: ps)))
          (sent || m.accepted audited t' ps ≠ []) (own || (m.accepted audited t' ps).any id) := by
      rintro _ sent own h' rfl
      exact ih h'
    cases hok : handleExitCost now t (m.again height own') with
    | error err =>
      have hd : deliver audited t ⟨now, .exitCost (m.again height own')⟩ = t := by
        simp [deliver, receive, hok]
      simpa [ExitCostMsg.accepted, Ledger.accepted, receive, hok, hd] using hrest h hd
    | ok t' =>
      have hd : deliver audited t ⟨now, .exitCost (m.again height own')⟩ = t' := by
        simp [deliver, receive, hok]
      simpa [ExitCostMsg.accepted, Ledger.accepted, receive, hok, hd, Bool.or_assoc] using
        hrest (h.handle t' hok) hd

def exitLegs (m : ExitCostMsg) : List LedgerEntry :=
  [exitSendLeg 0 m, exitFeeLeg 0 m, exitProceedsLeg 0 m]

/-- However often an exit is reported and wherever it goes by each report, the accepted
reports book it once, and once for our wallet if any of them says so. -/
theorem exit_booked_once (audited : Bool) (m : ExitCostMsg) (ps : List (ℤ × UInt32 × Bool))
    (hnew : ∀ leg ∈ exitLegs m, t.booked leg = false) :
    (m.accepted audited t ps = [] →
      ∀ a, (deliveries audited t (m.reports ps)).accountBalance a = t.accountBalance a) ∧
    (m.accepted audited t ps ≠ [] →
      ∀ a, (deliveries audited t (m.reports ps)).accountBalance a = t.accountBalance a +
        match a, (m.accepted audited t ps).any id with
        | .vtxoBalance, _ => - m.amountSat
        | .onchainFees, _ => m.exitCostSat
        | .walletBalance, true | .transfersOut, false => m.amountSat - m.exitCostSat
        | _, _ => 0) ∧
    ∀ leg ∈ exitLegs m, (accounts.map leg.effect).sum = 0 := by
  simp only [exitLegs, forall_mem_cons] at hnew
  have hstart : ExitBooked m t t false false := ⟨hnew.1, hnew.2.1, hnew.2.2.1, by simp⟩
  have hend := hstart.deliveries audited ps
  refine ⟨fun hnil a => ?_, fun hne a => ?_, fun leg _ => sum_effect leg⟩
  · rw [hend.balance, hnil]
    simp
  · rw [hend.balance]
    cases (m.accepted audited t ps).any id <;> cases a <;>
      simp [hne, LedgerEntry.effect, exitSendLeg, exitFeeLeg, exitProceedsLeg, exitLeg]
    all_goals omega

/-- The second report is the first to name our wallet, the third comes with another height. -/
theorem exit_booked_once_upgraded :
    (deliveries true {} (ExitCostMsg.reports ⟨exampleOutpoint 1, 700, 100, 0, false⟩
      [(1, 5, false), (2, 5, true), (3, 6, true)])).accountBalance .walletBalance = 600 :=
  ((exit_booked_once true ⟨exampleOutpoint 1, 700, 100, 0, false⟩
    [(1, 5, false), (2, 5, true), (3, 6, true)] (by decide +kernel)).2.1 (by decide +kernel)
    .walletBalance).trans (by decide +kernel)

end Wavelength.Ledger
