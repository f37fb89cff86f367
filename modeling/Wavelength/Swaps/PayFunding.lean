import Wavelength.Swaps.PayRuns

/-! # Funding is sent under one set of terms and only while it is safe

The row of a payment keeps its terms once it has them, and every session for the invoice has the
terms of the row. A send that may make a new transfer follows readings of the clock and of the
block height, made in the same pass, that admit one.
-/

namespace Wavelength.Swaps

open List

/-- The part of the terms that a send commits to, with the expiry as the store keeps it. -/
structure Terms where
  paymentHash : PaymentHash
  amountSat : Int64
  timing : VHTLCTiming
  expiry : Time
  template : Option PolicyTemplate

def InSwapConfig.toTerms (cfg : InSwapConfig) (template : Option PolicyTemplate) : Terms :=
  ⟨cfg.paymentHash, cfg.amountSat, cfg.timing, Time.truncate cfg.expiry, template⟩

theorem Time.truncate_truncate (t : Time) : Time.truncate (Time.truncate t) = Time.truncate t := by
  unfold Time.truncate
  rw [Int.mul_ediv_cancel _ (by decide)]

def InSwapConfig.stored (cfg : InSwapConfig) : InSwapConfig :=
  { cfg with expiry := Time.truncate cfg.expiry, preimageHash := none }

@[simp] theorem InSwapConfig.toTerms_stored {cfg : InSwapConfig} {p : Option PolicyTemplate} :
    cfg.stored.toTerms p = cfg.toTerms p := by
  unfold toTerms stored
  rw [Time.truncate_truncate]

/-- The deadline of the funding is a time, in memory and in the store. The zero time is none. -/
def Dated (c : PayConfig) (cfg : InSwapConfig) : Prop :=
  fundingAdmissionDeadline c cfg ≠ 0 ∧ fundingAdmissionDeadline c cfg.stored ≠ 0

instance {c : PayConfig} {cfg : InSwapConfig} : Decidable (Dated c cfg) :=
  inferInstanceAs (Decidable (_ ∧ _))

theorem Dated.stored (h : Dated c cfg) : Dated c cfg.stored := by
  constructor
  · exact h.2
  have hexpiry : cfg.stored.stored.expiry = cfg.stored.expiry := Time.truncate_truncate _
  unfold fundingAdmissionDeadline
  rw [hexpiry]
  exact h.2

theorem Dated.lt_of_open (h : Dated c cfg)
    (hopen : deadlinePassed (fundingAdmissionDeadline c cfg) t = false) :
    t < cfg.expiry - c.fundingExpiryBuffer := by
  have hne := h.1
  have hlt : ¬ fundingAdmissionDeadline c cfg ≤ t := by
    intro hle
    simp [deadlinePassed, hne, hle] at hopen
  unfold fundingAdmissionDeadline at hne hlt
  split at hlt
  · next hzero =>
    rw [if_pos hzero] at hne
    exact absurd rfl hne
  · exact Int.not_le.1 hlt

structure Guarded (c : PayConfig) (cfg : InSwapConfig) (readings : List Reading) : Prop where
  clock : ∃ t, .clock t ∈ readings ∧ t < cfg.expiry - c.fundingExpiryBuffer
  locktime : ∃ h : UInt32, .height h ∈ readings ∧
    h.toNat + c.refundLocktimeBuffer.toNat < cfg.timing.refundLocktime.toNat
  window : ∃ h : UInt32, .height h ∈ readings ∧ h < cfg.timing.refundLocktime ∧
    cfg.timing.refundLocktime.toNat - h.toNat ≤ maxPayRefundWindowBlocks.toNat ∧
    cfg.timing.unilateralRefundWithoutReceiverDelay ≤ maxPayRefundWindowBlocks

structure Sent (c : PayConfig) (T : Terms) (send : FundingSend) : Prop where
  key : send.key = send.terms.paymentHash
  amountSat : send.amountSat = send.terms.amountSat
  terms : send.terms.toTerms send.vhtlcPolicyTemplate = T
  guarded : send.existingOnly = false → Guarded c send.terms send.readings

/-- The funding is closed, or a height was read that is safe. -/
def Checked (c : PayConfig) (cfg : InSwapConfig) (env : PayEnv) : Prop :=
  deadlinePassed (fundingAdmissionDeadline c cfg) env.now = true ∨
    ∃ h : UInt32, .height h ∈ env.readings ∧
      h.toNat + c.refundLocktimeBuffer.toNat < cfg.timing.refundLocktime.toNat

/-- A property of the world that readings and good sends keep. -/
structure Stable (c : PayConfig) (T : Terms) (K : PayEnv → Prop) : Prop where
  clock : ∀ env (k : ℕ), K env → K { env with
    now := env.now + k, readings := env.readings ++ [.clock (env.now + k)] }
  height : ∀ env h, K env → K { env with readings := env.readings ++ [.height h] }
  truthful : ∀ env b, K env → K { env with truthful := b }
  send : ∀ env send final ans, K env → Sent c T send → K (env.send send final ans)

def AllSent (c : PayConfig) (T : Terms) (env : PayEnv) : Prop := ∀ send ∈ env.sends, Sent c T send

variable {K : PayEnv → Prop} {α : Type} {s s' : PaySession}

theorem PayEnv.send_log {env : PayEnv} {send : FundingSend} :
    (env.send send final ans).sends = env.sends ++ [send] ∧
      (env.send send final ans).readings = env.readings := by
  unfold PayEnv.send
  cases ans.reply with
  | notFound =>
    dsimp only
    split <;> exact ⟨rfl, rfl⟩
  | _ => exact ⟨rfl, rfl⟩

theorem stable_allSent : Stable c T (AllSent c T) := by
  constructor
  · exact fun _ _ h => h
  · exact fun _ _ h => h
  · exact fun _ _ h => h
  · intro env send final ans h hsend x hx
    rw [PayEnv.send_log.1, mem_append, mem_singleton] at hx
    rcases hx with hx | rfl
    · exact h x hx
    · exact hsend

theorem deadlinePassed_mono {k : ℕ} (h : deadlinePassed d t = true) :
    deadlinePassed d (t + k) = true := by
  simp only [deadlinePassed, Bool.and_eq_true, decide_eq_true_eq] at h ⊢
  obtain ⟨hd, hle⟩ := h
  exact ⟨hd, Int.le_trans hle (Int.le_add_of_nonneg_right (Int.natCast_nonneg k))⟩

theorem Checked.mono {env env' : PayEnv} (h : Checked c cfg env)
    (hnow : deadlinePassed (fundingAdmissionDeadline c cfg) env.now = true →
      deadlinePassed (fundingAdmissionDeadline c cfg) env'.now = true)
    (hread : env.readings ⊆ env'.readings) : Checked c cfg env' := by
  rcases h with h | ⟨x, hx, hlt⟩
  · exact .inl (hnow h)
  · exact .inr ⟨x, hread hx, hlt⟩

theorem Stable.checked (hK : Stable c T K) : Stable c T fun env => K env ∧ Checked c cfg env := by
  constructor
  · rintro env k ⟨h, hc⟩
    exact ⟨hK.clock env k h, hc.mono deadlinePassed_mono (subset_append_left _ _)⟩
  · rintro env x ⟨h, hc⟩
    exact ⟨hK.height env x h, hc.mono id (subset_append_left _ _)⟩
  · rintro env b ⟨h, hc⟩
    exact ⟨hK.truthful env b h, hc⟩
  · rintro env send final ans ⟨h, hc⟩ hsend
    refine ⟨hK.send env send final ans h hsend, hc.mono ?_ ?_⟩
    · rw [PayEnv.now_send]
      exact id
    · rw [PayEnv.send_log.2]
      exact Subset.refl _

/-! ## What a pass keeps -/

/-- No height that is read makes the sum with the buffer wrap. -/
def PayAnswers.Unwrapped (c : PayConfig) (ans : PayAnswers) : Prop :=
  (∀ h, ans.fund.safe.height = .ok h → h.toNat + c.refundLocktimeBuffer.toNat < 2 ^ 32) ∧
    ∀ h, ans.funded.safe.height = .ok h → h.toNat + c.refundLocktimeBuffer.toNat < 2 ^ 32

instance {ans : PayAnswers} : Decidable (ans.Unwrapped c) := inferInstanceAs (Decidable (_ ∧ _))

/-- A pass over a session with the terms `cfg` and `p`, whose row has them too. -/
structure Passing (c : PayConfig) (cfg : InSwapConfig) (p : Option PolicyTemplate)
    (K : PayEnv → Prop) (n : PayNode) : Prop where
  session : ∀ s, n.session = some s → s.cfg = some cfg ∧ s.vhtlcPolicyTemplate = p
  row : ∃ r, n.row = some r ∧ r.cfg.toTerms r.vhtlcPolicyTemplate = cfg.toTerms p ∧
    r.cfg.stored.expiry = r.cfg.expiry ∧ Dated c r.cfg
  env : K n.env

namespace Passing

theorem of_save (hd : Dated c cfg) {r : PaySwapRow} (hs : s.cfg = some cfg)
    (hp : s.vhtlcPolicyTemplate = p) (hr : s.save = some r) :
    r.cfg.toTerms r.vhtlcPolicyTemplate = cfg.toTerms p ∧ r.cfg.stored.expiry = r.cfg.expiry ∧
      Dated c r.cfg := by
  unfold PaySession.save at hr
  rw [hs] at hr
  dsimp only at hr
  split at hr
  · cases hr
  cases hr
  refine ⟨?_, Time.truncate_truncate _, hd.stored⟩
  rw [hp]
  exact InSwapConfig.toTerms_stored

theorem wrote {n' : PayNode} (h : Passing c cfg p K n) (hd : Dated c cfg) (hs : s.cfg = some cfg)
    (hp : s.vhtlcPolicyTemplate = p) (hrow : n'.row = s.save.or n.row) :
    ∃ r, n'.row = some r ∧ r.cfg.toTerms r.vhtlcPolicyTemplate = cfg.toTerms p ∧
      r.cfg.stored.expiry = r.cfg.expiry ∧ Dated c r.cfg := by
  cases hsave : s.save with
  | none =>
    rw [hsave, Option.none_or] at hrow
    rw [hrow]
    exact h.row
  | some r =>
    rw [hsave, Option.some_or] at hrow
    exact ⟨r, hrow, of_save hd hs hp hsave⟩

theorem stamp_template : (s.stamp t).vhtlcPolicyTemplate = s.vhtlcPolicyTemplate := by
  unfold PaySession.stamp
  split <;> rfl

def KeepsPolicy (f : PaySession → PaySession) : Prop :=
  ∀ s, (f s).cfg = s.cfg ∧ (f s).vhtlcPolicyTemplate = s.vhtlcPolicyTemplate

variable (hd : Dated c cfg)
include hd

theorem mutate {m : PaySession → Option PaySession}
    (hm : ∀ s s', m s = some s' → s'.cfg = s.cfg ∧ s'.vhtlcPolicyTemplate = s.vhtlcPolicyTemplate) :
    Keeps (Passing c cfg p K) (mutateAndPersistPay m) := by
  intro n hn
  have hterms : ∀ s s', n.session = some s → stamped m n s = some s' →
      s'.cfg = some cfg ∧ s'.vhtlcPolicyTemplate = p := by
    intro s s' hs hs'
    obtain ⟨x, hx, rfl⟩ := Option.map_eq_some_iff.1 hs'
    obtain ⟨hc, hp⟩ := hm s x hx
    obtain ⟨hcfg, htemplate⟩ := hn.session s hs
    rw [PaySession.stamp_cfg, stamp_template]
    exact ⟨hc.trans hcfg, hp.trans htemplate⟩
  refine (mutateAndPersistPay_run m n).imp (fun _ h => h) (fun _ n' hrun => ?_)
    (fun e n' hrun => ?_) n rfl
  · obtain ⟨x, s', hx, hs', hsession, hrow⟩ := hrun.session
    obtain ⟨hcfg, hp⟩ := hterms x s' hx hs'
    exact ⟨forall_some hsession ⟨hcfg, hp⟩, hn.wrote hd hcfg hp hrow, hrun.env ▸ hn.env⟩
  refine ⟨hrun.session ▸ hn.session, ?_, hrun.env ▸ hn.env⟩
  rcases hrun.row with hrow | ⟨x, s', r, hx, hs', hr, hrow⟩
  · rw [hrow]
    exact hn.row
  · obtain ⟨hcfg, hp⟩ := hterms x s' hx hs'
    exact ⟨r, hrow, of_save hd hcfg hp hr⟩

theorem transition (hf : KeepsPolicy f) :
    Keeps (Passing c cfg p K) (mutateAndPersistPay fun s => (f s).transition event) := by
  refine mutate hd fun s s' hs' => ?_
  obtain ⟨next, -, rfl⟩ := PaySession.transition_eq_some hs'
  exact hf s

theorem move : Keeps (Passing c cfg p K) (mutateAndPersistPay (PaySession.transition event)) :=
  transition (f := id) hd fun _ => ⟨rfl, rfl⟩

theorem markFailed : Keeps (Passing c cfg p K) (mutateAndPersistPay markPayFailed) := by
  refine mutate hd fun s s' hs' => ?_
  rcases markPayFailed_eq_some hs' with ⟨-, rfl⟩ | rfl
  · exact ⟨rfl, rfl⟩
  · exact ⟨rfl, rfl⟩

theorem update (hf : KeepsPolicy f) :
    Keeps (Passing c cfg p K) (mutateAndPersistPay fun s => some (f s)) := by
  refine mutate hd fun s s' hs' => ?_
  cases hs'
  exact hf s

omit hd

theorem setSession (hf : KeepsPolicy f) :
    Keeps (Passing c cfg p K) (do let s ← getSession; Swaps.setSession (f s) : Pay Unit) := by
  refine getSession_bind (fun s => .modify fun n hn => ?_) fun _ _ h => h
  obtain ⟨hn, hs⟩ := hn
  refine ⟨fun x hx => ?_, hn.row, hn.env⟩
  cases hx
  rw [(hf s).1, (hf s).2]
  exact hn.session s hs

theorem persistPay (hd : Dated c cfg) : Keeps (Passing c cfg p K) Swaps.persistPay := by
  refine getEnv_bind fun env => .pre ?_ fun _ h => h.1
  refine .bind (fun n hn => ?_) fun _ => setSession fun _ => ⟨PaySession.stamp_cfg, stamp_template⟩
  refine (persist_run (fun s => (s.stamp (.truncate env.now)).save) n).imp (fun _ h => h)
    (fun _ n' hrun => ?_) (fun e n' hrun => ?_) n rfl
  · refine ⟨hrun.session ▸ hn.session, ?_, hrun.env ▸ hn.env⟩
    obtain ⟨s, hs, hrow⟩ := hrun.row
    obtain ⟨hcfg, hp⟩ := hn.session s hs
    exact hn.wrote hd (PaySession.stamp_cfg.trans hcfg) (stamp_template.trans hp) hrow
  refine ⟨hrun.session ▸ hn.session, ?_, hrun.env ▸ hn.env⟩
  rcases hrun.row with hrow | ⟨s, r, hs, hr, hrow⟩
  · rw [hrow]
    exact hn.row
  · obtain ⟨hcfg, hp⟩ := hn.session s hs
    exact ⟨r, hrow, of_save hd (PaySession.stamp_cfg.trans hcfg) (stamp_template.trans hp) hr⟩

theorem setEnv {f : PayEnv → PayEnv} (hf : ∀ env, K env → K (f env)) :
    Keeps (Passing c cfg p K) (modifyEnv f : Pay Unit) :=
  .modify fun _ hn => ⟨hn.session, hn.row, hf _ hn.env⟩

theorem getConfig_bind {β : Type} {k : InSwapConfig → Pay β} {P : PayNode → Prop}
    {Q : β → PayNode → Prop} {F : ActionError → PayNode → Prop}
    (hP : ∀ n, P n → Passing c cfg p K n) (hk : Ensures P (k cfg) Q F) (hF : ∀ n, P n → F .crash n) :
    Ensures P (getConfig >>= k) Q F := by
  unfold getConfig
  rw [bind_assoc]
  refine getSession_bind_error (fun s => ?_) fun n hn _ => hF n hn
  by_cases hc : s.cfg = some cfg
  · rw [hc]
    exact hk.pre fun _ h => h.1
  · intro n hn
    exact absurd ((hP n hn.1).session s hn.2).1 hc

theorem checked_then (hm : Keeps (Passing c cfg p fun env => K env ∧ Checked c cfg env) m) :
    Ensures (fun n => Passing c cfg p K n ∧ Checked c cfg n.env) m (fun _ => Passing c cfg p K)
      fun _ => Passing c cfg p K :=
  hm.imp (fun _ h => ⟨h.1.session, h.1.row, h.1.env, h.2⟩)
    (fun _ _ h => ⟨h.session, h.row, h.env.1⟩) fun _ _ h => ⟨h.session, h.row, h.env.1⟩

theorem waitForFixedPoll : Keeps (Passing c cfg p K) (Swaps.waitForFixedPoll interrupted) :=
  .ite (fun _ => .throw) fun _ => .pure

section Parts

variable (hd : Dated c cfg) (hK : Stable c (cfg.toTerms p) K)

include hK

theorem readClock : Keeps (Passing c cfg p K) (Swaps.readClock k) := by
  refine .bind (setEnv fun env h => hK.clock env k h) fun _ => ?_
  exact getEnv_bind fun _ => .pure fun _ h => h.1

/-- A height that is read counts among the readings of the pass. -/
theorem blockHeight_spec {P : PayNode → Prop} (hP : ∀ n h, P n → P { n with env := { n.env with
      readings := n.env.readings ++ [.height h] } }) :
    Ensures (fun n => Passing c cfg p K n ∧ P n) (Swaps.blockHeight reply)
      (fun h n => (Passing c cfg p K n ∧ P n) ∧ .height h ∈ n.env.readings ∧ reply = .ok h)
      fun _ => Passing c cfg p K := by
  refine .bind (callRetryable_spec.onError fun _ _ h => h.1.1) fun h => ?_
  refine .bind (Q := fun _ n => (Passing c cfg p K n ∧ P n) ∧ .height h ∈ n.env.readings ∧
    reply = .ok h) (.modify ?_) fun _ => .pure fun _ h => h
  rintro n ⟨⟨hn, hp⟩, hreply⟩
  refine ⟨⟨⟨hn.session, hn.row, hK.height n.env h hn.env⟩, hP n h hp⟩, ?_, hreply⟩
  exact mem_append_right _ (mem_singleton_self _)

theorem blockHeight : Keeps (Passing c cfg p K) (Swaps.blockHeight reply) :=
  (blockHeight_spec hK (P := fun _ => True) fun _ _ h => h).imp (fun _ h => ⟨h, trivial⟩)
    (fun _ _ h => h.1.1) fun _ _ h => h

theorem waitForNextPoll {ans : PollAnswers} :
    Keeps (Passing c cfg p K) (Swaps.waitForNextPoll c ans) := by
  refine getConfig_bind (fun _ h => h) ?_ fun _ h => h
  refine Keeps.bind (readClock hK) fun now => Keeps.ite (fun _ => Keeps.throw) fun _ => ?_
  refine Keeps.bind (readClock hK) fun now => Keeps.ite (fun _ => Keeps.throw) fun _ => ?_
  exact Keeps.ite (fun _ => Keeps.throw) fun _ => Keeps.pure

omit hK
include hd

theorem failTerminalPay {Q : α → PayNode → Prop} :
    Ensures (Passing c cfg p K) Swaps.failTerminalPay Q fun _ => Passing c cfg p K := by
  exact .bind (markFailed hd) fun _ => .throw fun _ h => h

theorem markExpired {Q : α → PayNode → Prop} :
    Ensures (Passing c cfg p K) Swaps.markExpired Q fun _ => Passing c cfg p K := by
  refine getSession_bind (fun s => .pre ?_ fun _ h => h.1) fun _ _ h => h
  refine .ite (fun _ => .throw fun _ h => h) fun _ => ?_
  exact .bind (move hd) fun _ => .throw fun _ h => h

theorem initiateRefund : Keeps (Passing c cfg p K) Swaps.initiateRefund := by
  refine getSession_keeps fun s => .ite (fun _ => .pure) fun _ => ?_
  exact move hd

theorem needsIntervention (hf : KeepsPolicy f) :
    Keeps (Passing c cfg p K) (Swaps.needsIntervention f : Pay α) := by
  refine .bind (mutate hd fun s s' hs' => ?_) fun _ => .throw
  unfold markPayNeedsIntervention at hs'
  split at hs'
  · cases hs'
    exact hf s
  · obtain ⟨next, -, rfl⟩ := PaySession.transition_eq_some hs'
    exact hf s

theorem refundPubKey : Keeps (Passing c cfg p K) (Swaps.refundPubKey receiveScript) := by
  refine getSession_keeps fun s => .ite (fun _ => .pure) fun _ => ?_
  refine .bind call_keeps fun ok => .ite (fun _ => ?_) fun _ => .throw
  exact update hd fun _ => ⟨rfl, rfl⟩

theorem ensurePayRefundRecoveryArmed {ans : ArmAnswers} :
    Keeps (Passing c cfg p K) (Swaps.ensurePayRefundRecoveryArmed ans) := by
  refine getSession_keeps fun s => .ite (fun _ => .pure) fun _ => ?_
  refine .ite (fun _ => .throw) fun _ => .bind (refundPubKey hd) fun _ => ?_
  refine .bind call_keeps fun id => .ite (fun _ => .throw) fun _ => ?_
  exact update hd fun _ => ⟨rfl, rfl⟩

include hK

theorem observeLiveVHTLC {ans : ObserveAnswers} :
    Keeps (Passing c cfg p K) (Swaps.observeLiveVHTLC c ans) := by
  have hrefund : ∀ vtxo : VTXOInfo, Keeps (Passing c cfg p K) (do
      mutateAndPersistPay fun s => PaySession.transition .refundInitiated
        { s with vhtlcOutpoint := vtxo.outpoint, vhtlcAmount := vtxo.amountSat }
      pure false : Pay Bool) := fun vtxo =>
    Keeps.bind (transition hd fun _ => ⟨rfl, rfl⟩) fun _ => Keeps.pure
  have hlookup : Keeps (Passing c cfg p K) (lookup ans.live) := by
    cases ans.live with
    | ok a => exact Keeps.pure
    | error e => exact Keeps.throw
  refine Keeps.bind hlookup fun live => ?_
  cases live with
  | none => exact Keeps.pure
  | some vtxo =>
    refine getConfig_bind (fun _ h => h) ?_ fun _ h => h
    refine Keeps.ite (fun _ => hrefund vtxo) fun _ => Keeps.bind (blockHeight hK) fun height => ?_
    refine Keeps.ite (fun _ => hrefund vtxo) fun _ => ?_
    refine Keeps.bind (update hd fun _ => ⟨rfl, rfl⟩) fun _ => ?_
    exact Keeps.bind (ensurePayRefundRecoveryArmed hd) fun _ => Keeps.pure

theorem logged_observe {ans : ObserveAnswers} :
    Keeps (Passing c cfg p K) (logged false (Swaps.observeLiveVHTLC c ans)) :=
  (observeLiveVHTLC hd hK).tryCatch fun _ => .ite (fun _ => .throw) fun _ => .pure

omit hd

/-- The reading of the clock that says whether the funding is closed. -/
theorem fundingAdmissionClosed :
    Ensures (Passing c cfg p K) (Swaps.fundingAdmissionClosed c k)
      (fun closed n => Passing c cfg p K n ∧ .clock n.env.now ∈ n.env.readings ∧
        closed = deadlinePassed (fundingAdmissionDeadline c cfg) n.env.now)
      fun _ => Passing c cfg p K := by
  refine getConfig_bind (fun _ h => h) ?_ fun _ h => h
  refine .bind (Q := fun now n => Passing c cfg p K n ∧ .clock n.env.now ∈ n.env.readings ∧
    now = n.env.now) ?_ fun now => ?_
  · refine .bind (Q := fun _ n => Passing c cfg p K n ∧ .clock n.env.now ∈ n.env.readings)
      (.modify fun n hn => ?_) fun _ => ?_
    · refine ⟨⟨hn.session, hn.row, hK.clock n.env k hn.env⟩, ?_⟩
      exact mem_append_right _ (mem_singleton_self _)
    · refine getEnv_bind fun env => .pure ?_
      rintro n ⟨hn, rfl⟩
      exact ⟨hn.1, hn.2, rfl⟩
  · refine .pure ?_
    rintro n ⟨hn, hread, rfl⟩
    exact ⟨hn, hread, rfl⟩

include hd

theorem ensureFundingStillSafe {ans : SafeAnswers}
    (hwrap : ∀ h, ans.height = .ok h → h.toNat + c.refundLocktimeBuffer.toNat < 2 ^ 32) :
    Ensures (Passing c cfg p K) (Swaps.ensureFundingStillSafe c ans)
      (fun _ n => Passing c cfg p K n ∧ Checked c cfg n.env) fun _ => Passing c cfg p K := by
  refine .bind (fundingAdmissionClosed hK) fun closed => .ite (fun _ => ?_) fun _ => ?_
  · exact (markExpired hd).pre fun _ h => h.1
  refine .pre (P := fun n => Passing c cfg p K n ∧ True) ?_ fun _ h => ⟨h.1, trivial⟩
  refine .bind (blockHeight_spec hK fun _ _ h => h) fun h => ?_
  refine getConfig_bind (fun _ hn => hn.1.1) ?_ fun _ hn => hn.1.1
  refine getSession_bind (fun s => .pre ?_ fun _ hn => hn.1) fun _ _ hn => hn.1.1
  refine .ite (fun _ => (failTerminalPay hd).pre fun _ hn => hn.1.1) fun hsafe => ?_
  refine .ite (fun _ => (failTerminalPay hd).pre fun _ hn => hn.1.1) fun _ => ?_
  refine .pure fun n hn => ⟨hn.1.1, .inr ⟨h, hn.2.1, ?_⟩⟩
  -- Without a wrap the sum of the words is the sum of the numbers.
  have hlt : h + c.refundLocktimeBuffer < cfg.timing.refundLocktime := UInt32.not_le.1 hsafe
  rw [UInt32.lt_iff_toNat_lt, UInt32.toNat_add, Nat.mod_eq_of_lt (hwrap h hn.2.2)] at hlt
  exact hlt

/-! ## The sends -/

omit hd

/-- A send that may make a new transfer needs readings that admit one. -/
theorem sendFunding :
    Ensures (fun n => Passing c cfg p K n ∧
        (existingOnly = false → Guarded c cfg n.env.readings))
      (Swaps.sendFunding existingOnly final ans) (fun _ => Passing c cfg p K)
      fun _ => Passing c cfg p K := by
  refine getSession_bind (fun s => ?_) fun _ _ h => h.1
  refine getConfig_bind (fun _ h => h.1.1) ?_ fun _ h => h.1.1
  refine .bind (Q := fun _ => Passing c cfg p K) (.modify ?_) fun _ => .ret
  rintro n ⟨⟨hn, hguard⟩, hs⟩
  refine ⟨hn.session, hn.row, hK.send n.env _ final ans hn.env ⟨rfl, rfl, ?_, hguard⟩⟩
  change cfg.toTerms s.vhtlcPolicyTemplate = cfg.toTerms p
  rw [(hn.session s hs).2]

theorem probe : Keeps (Passing c cfg p K) (Swaps.sendFunding true final ans) :=
  (sendFunding hK).pre fun _ h => ⟨h, nofun⟩

omit hK
include hd

theorem markVHTLCFundedFromLocalMetadata {ans : ArmAnswers} :
    Keeps (Passing c cfg p K) (Swaps.markVHTLCFundedFromLocalMetadata ans) := by
  refine .bind (retryable_keeps (ensurePayRefundRecoveryArmed hd)) fun _ => ?_
  refine mutate hd fun s s' hs' => ?_
  unfold fundedFromLocalMetadata at hs'
  split at hs'
  · obtain ⟨next, -, rfl⟩ := PaySession.transition_eq_some hs'
    exact ⟨rfl, rfl⟩
  · obtain ⟨next, -, rfl⟩ := PaySession.transition_eq_some hs'
    exact ⟨rfl, rfl⟩
  · cases hs'
    exact ⟨rfl, rfl⟩

theorem settleFunding {arm : ArmAnswers} :
    Keeps (Passing c cfg p K) (Swaps.settleFunding result arm) := by
  refine .ite (fun _ => .throw) fun _ => .ite (fun _ => ?_) fun _ => ?_
  · exact .ite (fun _ => failTerminalPay hd) fun _ => needsIntervention hd fun _ => ⟨rfl, rfl⟩
  refine .ite (fun _ => .throw) fun _ => ?_
  refine getConfig_bind (fun _ h => h) ?_ fun _ h => h
  refine .bind (retryable_keeps ?_) fun _ => markVHTLCFundedFromLocalMetadata hd
  have hset : Keeps (Passing c cfg p K) ((do
      let s ← getSession
      Swaps.setSession
        { s with
          fundingSessionID := result.sessionID, vhtlcOutpoint := result.recipientOutpoint,
          vhtlcAmount := cfg.amountSat.toInt } : Pay Unit) >>= fun _ => Swaps.persistPay) :=
    .bind (setSession fun _ => ⟨rfl, rfl⟩) fun _ => persistPay hd
  rwa [bind_assoc] at hset

theorem completePay : Keeps (Passing c cfg p K) (Swaps.completePay cancel) :=
  .bind (retryable_keeps cancelRecovery_keeps) fun _ => transition hd fun _ => ⟨rfl, rfl⟩

theorem markRefundOutputIndexed :
    Keeps (Passing c cfg p K) (Swaps.markRefundOutputIndexed cancel) :=
  .bind (retryable_keeps cancelRecovery_keeps) fun _ => move hd

theorem markRefunded : Keeps (Passing c cfg p K) (Swaps.markRefunded vtxo txid cancel) :=
  .bind (retryable_keeps cancelRecovery_keeps) fun _ => transition hd fun _ => ⟨rfl, rfl⟩

theorem observeRefundableVHTLC {ans : RefundableAnswers} :
    Keeps (Passing c cfg p K) (Swaps.observeRefundableVHTLC ans) := by
  refine getSession_keeps fun s => ?_
  cases ans.live with
  | error e =>
    cases e with
    | unregistered =>
      exact .ite (fun _ => .bind (ensurePayRefundRecoveryArmed hd) fun _ => .pure) fun _ => .throw
    | remote e => exact .throw
  | ok live =>
    cases live with
    | none => exact .pure
    | some vtxo =>
      refine .bind (update hd fun _ => ⟨rfl, rfl⟩) fun _ => ?_
      exact .bind (ensurePayRefundRecoveryArmed hd) fun _ => .pure

theorem persistRefundSessionID {id : String} :
    Keeps (Passing c cfg p K) (Swaps.persistRefundSessionID id) := by
  have hset : Keeps (Passing c cfg p K) ((do
      let s ← getSession
      Swaps.setSession { s with refundSessionID := id } : Pay Unit) >>= fun _ => Swaps.persistPay) :=
    .bind (setSession fun _ => ⟨rfl, rfl⟩) fun _ => persistPay hd
  rwa [bind_assoc] at hset

theorem tryCooperativeRefund {ans : CoopAnswers} :
    Keeps (Passing c cfg p K) (Swaps.tryCooperativeRefund ans) := by
  refine getSession_keeps fun s => .ite (fun _ => ?_) fun _ => ?_
  · exact .bind (initiateRefund hd) fun _ => .pure
  refine .bind (retryable_keeps (observeRefundableVHTLC hd)) fun live =>
    .ite (fun _ => ?_) fun _ => .pure
  refine .bind (refundPubKey hd) fun _ => .bind callRetryable_keeps fun prepared => ?_
  cases prepared with
  | incomplete => exact .throw
  | ok =>
    cases ans.authorize with
    | unavailable => exact .pure
    | empty | error e => exact .throw
    | ok =>
      refine .bind callRetryable_keeps fun id => .ite (fun _ => .throw) fun _ => ?_
      refine .bind (retryable_keeps (persistRefundSessionID hd)) fun _ => ?_
      exact .bind (retryable_keeps (initiateRefund hd)) fun _ => .pure

theorem settleSpend : Keeps (Passing c cfg p K) (Swaps.settleSpend vtxo txid output cancel) := by
  refine .bind (retryable_keeps observeRefundOutput_keeps) fun output => ?_
  cases output with
  | some v => exact markRefundOutputIndexed hd
  | none =>
    refine getSession_keeps fun s => .ite (fun _ => markRefunded hd) fun _ => ?_
    exact needsIntervention hd fun _ => ⟨rfl, rfl⟩

theorem reconcilePayRefundRecovery :
    Keeps (Passing c cfg p K) (Swaps.reconcilePayRefundRecovery ans) := by
  refine getSession_keeps fun s => .ite (fun _ => .pure) fun _ => ?_
  refine .bind call_keeps fun state => ?_
  cases state with
  | dormant => exact .pure
  | active => exact .bind (waitForFixedPoll) fun _ => .pure
  | completed => exact .bind (move hd) fun _ => .pure
  | failed => exact needsIntervention hd fun _ => ⟨rfl, rfl⟩

theorem reconcilePayRefundSession :
    Keeps (Passing c cfg p K) (Swaps.reconcilePayRefundSession ans) := by
  have hwait : Keeps (Passing c cfg p K) (do
      Swaps.waitForFixedPoll ans.interrupted
      pure true : Pay Bool) := .bind (waitForFixedPoll) fun _ => .pure
  refine getSession_keeps fun s => .ite (fun _ => .pure) fun _ => ?_
  refine .bind call_keeps fun status => ?_
  cases status with
  | none => exact hwait
  | some status =>
    cases status with
    | pending => exact hwait
    | completed =>
      refine .bind cancelRecovery_keeps fun _ => ?_
      exact .bind (move hd) fun _ => .pure
    | failed beforePONR =>
      have hdrop : Keeps (Passing c cfg p K) (mutateAndPersistPay fun s =>
        some { s with refundSessionID := "" }) := update hd fun _ => ⟨rfl, rfl⟩
      exact .bind hdrop fun _ => .pure

theorem submitRefund : Keeps (Passing c cfg p K) (Swaps.submitRefund ans) := by
  refine .bind (refundPubKey hd) fun _ => ?_
  cases ans.send with
  | error e =>
    refine .bind (retryable_keeps (ensurePayRefundRecoveryArmed hd)) fun _ => ?_
    refine .bind (retryable_keeps ?_) fun _ => waitForFixedPoll
    exact getSession_keeps fun s => .ite (fun _ => .pure) fun _ => call_keeps
  | ok id =>
    refine .ite (fun _ => .throw) fun _ => ?_
    exact .bind (retryable_keeps (persistRefundSessionID hd)) fun _ => waitForFixedPoll

theorem payFail : Keeps (Passing c cfg p K) (Swaps.payFail e) := by
  exact getSession_keeps fun s => handleFailure_keeps (move hd) (move hd) (markFailed hd)

include hK

theorem reconcileFailedSend {ans : SubmitAnswers} :
    Keeps (Passing c cfg p K) (Swaps.reconcileFailedSend c rejected ans) := by
  refine .bind (logged_observe hd hK) fun funded => getSession_keeps fun s => ?_
  refine .ite (fun _ => .pure) fun _ => .ite (fun _ => ?_) fun _ => ?_
  · exact move hd
  refine .ite (fun _ => .throw) fun _ => .bind (probe hK) fun reply => ?_
  cases reply with
  | ok result => exact settleFunding hd
  | notFound => exact failTerminalPay hd
  | rejected | error e => exact .throw

/-- Once the height was checked or the funding is closed, a send needs no more than its own
readings. -/
theorem submitFunding {ans : SubmitAnswers} (hchecked : ∀ env, K env → Checked c cfg env) :
    Keeps (Passing c cfg p K) (Swaps.submitFunding c ans) := by
  refine Ensures.bind (fundingAdmissionClosed hK) fun closed => ?_
  have hchoose : Ensures (fun n => Passing c cfg p K n ∧ .clock n.env.now ∈ n.env.readings ∧
        closed = deadlinePassed (fundingAdmissionDeadline c cfg) n.env.now)
      (chooseExistingOnly closed ans.height)
      (fun existingOnly n => Passing c cfg p K n ∧
        (existingOnly = false → Guarded c cfg n.env.readings)) fun _ => Passing c cfg p K := by
    refine Ensures.ite (fun _ => Ensures.pure fun _ h => ⟨h.1, nofun⟩) fun hopen => ?_
    rw [Bool.not_eq_true] at hopen
    refine Ensures.bind (blockHeight_spec hK (P := fun n => .clock n.env.now ∈ n.env.readings ∧
      closed = deadlinePassed (fundingAdmissionDeadline c cfg) n.env.now) fun n h hn => ?_)
      fun h => ?_
    · exact ⟨mem_append_left _ hn.1, hn.2⟩
    refine getConfig_bind (fun _ hn => hn.1.1) (Ensures.pure fun n hn => ⟨hn.1.1, fun hv => ?_⟩)
      fun _ hn => hn.1.1
    obtain ⟨⟨hn, hclock, hdead⟩, hread, -⟩ := hn
    rw [hopen] at hdead
    constructor
    · exact ⟨n.env.now, hclock, hd.lt_of_open hdead.symm⟩
    · exact (hchecked n.env hn.env).resolve_left fun h => (nomatch hdead.trans h)
    · refine ⟨h, hread, VHTLCTiming.window_of_validateRefundWindow ?_⟩
      simpa using hv
  refine Ensures.bind hchoose fun existingOnly => Ensures.bind (sendFunding hK) fun reply => ?_
  cases reply with
  | ok result => exact settleFunding hd
  | notFound =>
    refine Keeps.ite (fun _ => ?_) fun _ => reconcileFailedSend hd hK
    exact Keeps.ite (fun _ => markExpired hd) fun _ => Keeps.pure
  | rejected | error e => exact reconcileFailedSend hd hK

theorem ensureFundingSubmitted {ans : SubmitAnswers} (hchecked : ∀ env, K env → Checked c cfg env) :
    Keeps (Passing c cfg p K) (Swaps.ensureFundingSubmitted c allowImmediate ans) := by
  refine getSession_keeps fun s => .ite (fun _ => ?_) fun _ => .ite (fun _ => ?_) fun _ => ?_
  · exact .ite (fun _ => markVHTLCFundedFromLocalMetadata hd) fun _ => .pure
  · exact submitFunding hd hK hchecked
  · refine .bind (getSession_keeps fun s => .bind (readClock hK) fun _ => .pure)
      fun grace => ?_
    exact .ite (fun _ => .pure) fun _ => submitFunding hd hK hchecked

theorem fundOrAdoptVHTLC {ans : FundAnswers}
    (hwrap : ∀ h, ans.safe.height = .ok h → h.toNat + c.refundLocktimeBuffer.toNat < 2 ^ 32) :
    Keeps (Passing c cfg p K) (Swaps.fundOrAdoptVHTLC c ans) := by
  refine Keeps.bind (logged_observe hd hK) fun funded => getSession_keeps fun s => ?_
  refine Keeps.ite (fun _ => Keeps.pure) fun _ => Keeps.ite (fun _ => ?_) fun _ => ?_
  · exact move hd
  refine Ensures.bind (ensureFundingStillSafe hd hK hwrap) fun _ => checked_then ?_
  refine Keeps.bind (getSession_keeps fun s => Keeps.ite (fun _ => ?_) fun _ => Keeps.pure)
    fun _ => ensureFundingSubmitted hd hK.checked fun _ h => h.2
  exact move hd

theorem checkFundingRejected {ans : RejectedAnswers} :
    Keeps (Passing c cfg p K) (Swaps.checkFundingRejected ans) := by
  refine getSession_keeps fun s => .ite (fun _ => .pure) fun _ => ?_
  cases ans.session with
  | error e => exact .pure
  | ok status =>
    cases status with
    | none => exact .pure
    | some status =>
      cases status with
      | pending | completed => exact .pure
      | failed beforePONR =>
        refine .ite (fun _ => ?_) fun _ => needsIntervention hd fun _ => ⟨rfl, rfl⟩
        refine .bind (setEnv fun env h => hK.truthful env _ h) fun _ => ?_
        exact .bind (retryable_keeps cancelRecovery_keeps) fun _ => .throw

theorem pollForFunding {ans : FundedAnswers} (hchecked : ∀ env, K env → Checked c cfg env) :
    Keeps (Passing c cfg p K) (Swaps.pollForFunding c ans) := by
  refine .tryCatch (.bind (waitForNextPoll hK) fun _ => .pure) fun e => ?_
  refine .ite (fun _ => getSession_keeps fun s => .bind ?_ fun _ => .pure) fun _ => .throw
  exact .ite (fun _ => waitForFixedPoll) fun _ => ensureFundingSubmitted hd hK hchecked

theorem submitAndPoll {ans : FundedAnswers}
    (hwrap : ∀ h, ans.safe.height = .ok h → h.toNat + c.refundLocktimeBuffer.toNat < 2 ^ 32) :
    Keeps (Passing c cfg p K) (Swaps.submitAndPoll c ans) := by
  refine Ensures.bind (fundingAdmissionClosed hK) fun closed => ?_
  -- Either the funding is closed, and stays so, or the height is checked.
  refine Ensures.bind (Q := fun _ n => Passing c cfg p K n ∧ Checked c cfg n.env) ?_ fun _ =>
    checked_then ?_
  · refine Ensures.ite (fun _ => (ensureFundingStillSafe hd hK hwrap).pre fun _ h => h.1)
      fun hclosed => Ensures.pure fun n hn => ⟨hn.1, .inl ?_⟩
    rw [← hn.2.2]
    simpa using hclosed
  · refine Keeps.bind (ensureFundingSubmitted hd hK.checked fun _ h => h.2) fun _ => ?_
    exact getSession_keeps fun s => Keeps.ite (fun _ => Keeps.pure) fun _ =>
      pollForFunding hd hK.checked fun _ h => h.2

theorem waitForFundedVHTLC {ans : FundedAnswers}
    (hwrap : ∀ h, ans.safe.height = .ok h → h.toNat + c.refundLocktimeBuffer.toNat < 2 ^ 32) :
    Keeps (Passing c cfg p K) (Swaps.waitForFundedVHTLC c ans) := by
  refine .bind (checkFundingRejected hd hK) fun _ => ?_
  cases ClaimObservation.ofReply ans.observation with
  | preimage => exact .bind (completePay hd) fun _ => .pure
  | spent vtxo txid => exact needsIntervention hd fun _ => ⟨rfl, rfl⟩
  | nothing =>
    refine .bind (logged_observe hd hK) fun funded => getSession_keeps fun s => ?_
    refine .ite (fun _ => .pure) fun _ => .ite (fun _ => ?_) fun _ => ?_
    · exact .bind (move hd) fun _ => .pure
    · exact submitAndPoll hd hK hwrap

/-! ## The refund -/

theorem waitForClaimPreimage {ans : ClaimWaitAnswers} :
    Keeps (Passing c cfg p K) (Swaps.waitForClaimPreimage c ans) := by
  have hpoll : Keeps (Passing c cfg p K) (tryCatch (Swaps.waitForNextPoll c ans.poll) fun e =>
      if e = .expired then Swaps.initiateRefund else throw e) :=
    (waitForNextPoll hK).tryCatch fun _ => .ite (fun _ => initiateRefund hd) fun _ => .throw
  have hawait : Keeps (Passing c cfg p K) (awaitRefundTime c ans) := by
    unfold awaitRefundTime
    cases ans.height with
    | error e => exact hpoll
    | ok height =>
      refine .bind (setEnv fun env h => hK.height env height h) fun _ => ?_
      refine getConfig_bind (fun _ h => h) ?_ fun _ h => h
      exact .ite (fun _ => initiateRefund hd) fun _ => hpoll
  refine .bind (checkFundingRejected hd hK) fun _ => ?_
  cases ClaimObservation.ofReply ans.observation with
  | preimage => exact completePay hd
  | spent vtxo txid => exact settleSpend hd
  | nothing =>
    refine .bind ((tryCooperativeRefund hd).tryCatch fun _ =>
      .ite (fun _ => .pure) fun _ => .throw) fun refunded => ?_
    exact .ite (fun _ => .pure) fun _ => hawait

theorem completeRefund : Keeps (Passing c cfg p K) (Swaps.completeRefund ans) := by
  have houtput : Keeps (Passing c cfg p K) (refundOutputOrNone ans.refundOutput) :=
    observeRefundOutput_keeps.tryCatch fun _ => getSession_keeps fun s =>
      .ite (fun _ => .throw) fun _ => .ite (fun _ => .throw) fun _ => .pure
  have hlive : Keeps (Passing c cfg p K) (refundLive ans) := by
    refine .bind (retryable_keeps (reconcilePayRefundRecovery hd)) fun _ =>
      .ite (fun _ => .pure) fun _ => ?_
    refine .bind (retryable_keeps (reconcilePayRefundSession hd)) fun _ =>
      .ite (fun _ => .pure) fun _ => ?_
    refine .bind (retryable_keeps (observeRefundableVHTLC hd)) fun _ =>
      .ite (fun _ => ?_) fun _ => waitForFixedPoll
    refine .bind (blockHeight hK) fun height => getConfig_bind (fun _ h => h) ?_ fun _ h => h
    exact .ite (fun _ => waitForFixedPoll) fun _ => submitRefund hd
  refine .bind callRetryable_keeps fun seen => ?_
  cases seen with
  | preimage => exact completePay hd
  | spent vtxo txid =>
    refine .bind houtput fun output => ?_
    cases output with
    | some v => exact markRefundOutputIndexed hd
    | none => exact markRefunded hd
  | nothing =>
    refine .bind houtput fun output => ?_
    cases output with
    | some v => exact markRefundOutputIndexed hd
    | none => exact hlive

/-! ## A pass -/

theorem payTurn {ans : PayAnswers}
    (hfund : ∀ h, ans.fund.safe.height = .ok h → h.toNat + c.refundLocktimeBuffer.toNat < 2 ^ 32)
    (hfunded : ∀ h, ans.funded.safe.height = .ok h →
      h.toNat + c.refundLocktimeBuffer.toNat < 2 ^ 32) :
    Keeps (Passing c cfg p K) (Swaps.payTurn c ans s) := by
  refine .ite (fun _ => waitForFundedVHTLC hd hK hfunded) fun _ => .bind ?_ fun _ => .pure
  cases s.state with
  | swapCreated => exact fundOrAdoptVHTLC hd hK hfund
  | vhtlcFunded => exact move hd
  | waitingForClaim => exact waitForClaimPreimage hd hK
  | refundInitiated => exact completeRefund hd hK
  | _ => exact .pure

end Parts

theorem advancePay {ans : PayAnswers} (hd : Dated c cfg) (hwrap : ans.Unwrapped c) :
    Keeps (Passing c cfg p (AllSent c (cfg.toTerms p))) (Swaps.advancePay c ans) := by
  refine .bind (setEnv fun _ h => h) fun _ => getSession_keeps fun s => ?_
  refine .bind ((payTurn hd stable_allSent hwrap.1 hwrap.2).tryCatch fun e =>
    .bind (payFail hd) fun _ => .pure) fun again => ?_
  exact setSession fun _ => ⟨rfl, rfl⟩

end Passing

/-! ## Runs of the client -/

def PaySwapRow.toTerms (r : PaySwapRow) : Terms := r.cfg.toTerms r.vhtlcPolicyTemplate

/-- All sessions and all sends have the terms of the row. -/
structure Uniform (c : PayConfig) (w : PayClient) : Prop where
  bare : w.row = none → w.sessions = [] ∧ w.env.sends = []
  dated : ∀ r, w.row = some r → r.cfg.stored.expiry = r.cfg.expiry ∧ Dated c r.cfg
  sent : ∀ r, w.row = some r → AllSent c r.toTerms w.env
  sessions : ∀ r, w.row = some r → ∀ s ∈ w.sessions, ∃ cfg, s.cfg = some cfg ∧
    cfg.toTerms s.vhtlcPolicyTemplate = r.toTerms ∧ Dated c cfg

/-- A step in which no second start gets terms of its own, every deadline is a time, and no sum
wraps. -/
def Fundable (c : PayConfig) (invoice : PayInvoice) (w : PayClient) : ClientAction → Prop
  | .create _ _ ans => invoice.paymentHash ≠ 0 ∧ w.row = none ∧
      ∀ q, ans.config = .ok q → ∀ cfg ∈ q, Dated c cfg
  | .advance _ _ ans => ans.Unwrapped c
  | _ => True

instance {invoice : PayInvoice} {w : PayClient} {a : ClientAction} :
    Decidable (Fundable c invoice w a) := by
  unfold Fundable
  split <;> infer_instance

variable (h : Uniform c w)
include h

theorem Uniform.crash : Uniform c w.crash := by
  constructor
  · exact fun hr => ⟨rfl, (h.bare hr).2⟩
  · exact h.dated
  · exact h.sent
  · exact fun _ _ _ hs => (nomatch hs)

theorem Uniform.resume {row : PaySwapRow} (hrow : w.row = some row) :
    Uniform c { w with sessions := w.sessions ++ [paySessionFromRow row] } := by
  refine ⟨fun hr => (nomatch hrow.symm.trans hr), h.dated, h.sent, forall_some hrow fun s hs => ?_⟩
  rcases mem_append.1 hs with hs | hs
  · exact h.sessions row hrow s hs
  · obtain rfl := mem_singleton.1 hs
    exact ⟨row.cfg, rfl, rfl, (h.dated row hrow).2⟩

theorem Uniform.advance {ans : PayAnswers} (hs : w.sessions[i]? = some s) (hwrap : ans.Unwrapped c)
    :
    Uniform c (w.advance c i s writes ans) := by
  have hmem : s ∈ w.sessions := mem_of_getElem? hs
  obtain ⟨row, hrow⟩ : ∃ row, w.row = some row := by
    rcases Option.eq_none_or_eq_some w.row with hr | hr
    · rw [(h.bare hr).1] at hmem
      cases hmem
    · exact hr
  obtain ⟨cfg, hcfg, hterms, hd⟩ := h.sessions row hrow s hmem
  have hpass : Passing c cfg s.vhtlcPolicyTemplate
      (AllSent c (cfg.toTerms s.vhtlcPolicyTemplate)) (Node.after ⟨some s, w.row, writes, w.env⟩
        (advancePay c ans)) := by
    refine Node.after_of_keeps (Passing.advancePay hd hwrap) (fun n hn => ?_) ?_
    · exact ⟨forall_none rfl, hn.row, hn.env⟩
    · exact ⟨forall_some rfl ⟨hcfg, rfl⟩, ⟨row, hrow, hterms.symm, h.dated row hrow⟩,
        hterms ▸ h.sent row hrow⟩
  generalize hn : Node.after ⟨some s, w.row, writes, w.env⟩ (advancePay c ans) = n at hpass
  obtain ⟨r, hr, hrterms, hrdated⟩ := hpass.row
  have hsame : r.toTerms = row.toTerms := hrterms.trans hterms
  -- The row is another one, but its terms are not.
  have huniform : ∀ sessions : List PaySession, (∀ x ∈ sessions, x ∈ w.sessions ∨
      n.session = some x) →
      Uniform c { w with row := n.row, env := n.env, sessions := sessions } := by
    intro sessions hsub
    rw [hterms, ← hsame] at hpass
    refine ⟨fun hnone => (nomatch hr.symm.trans hnone), forall_some hr hrdated,
      forall_some hr hpass.env, forall_some hr fun y hy => ?_⟩
    rw [hsame]
    rcases hsub y hy with hy | hy
    · exact h.sessions row hrow y hy
    · obtain ⟨hycfg, hyp⟩ := hpass.session y hy
      exact ⟨cfg, hycfg, hyp ▸ hterms, hd⟩
  unfold PayClient.advance
  rw [hn]
  dsimp only
  rcases Option.eq_none_or_eq_some n.session with hnone | ⟨s', hs'⟩
  · rw [hnone]
    exact (huniform w.sessions fun _ hx => .inl hx).crash
  rw [hs']
  refine huniform (w.sessions.set i s') fun x hx => ?_
  rcases mem_or_eq_of_mem_set hx with hx | rfl
  · exact .inl hx
  · exact .inr hs'

theorem Uniform.create {ans : CreateAnswers} (hhash : invoice.paymentHash ≠ 0)
    (hnone : w.row = none) (hdated : ∀ q, ans.config = .ok q → ∀ cfg ∈ q, Dated c cfg) :
    Uniform c (w.create c invoice i limits writes ans) := by
  obtain ⟨hsessions, hsends⟩ := h.bare hnone
  have hstart : StartOf invoice ans ⟨none, w.row, [], w.env⟩
      (PayNode.start c ⟨none, w.row, [], w.env⟩ invoice limits.1 limits.2 writes ans) :=
    PayNode.start_spec
  unfold PayClient.create
  generalize PayNode.start c ⟨none, w.row, [], w.env⟩ invoice limits.1 limits.2 writes ans = n'
    at hstart
  obtain ⟨henv, s₀, hinvoice, -, hcases⟩ := hstart
  have hsent : ∀ T, AllSent c T n'.env := by
    intro T send hsend
    rw [henv, hsends] at hsend
    cases hsend
  have hcreated : ∀ s, Created ans s₀ s → ∃ cfg r, s.cfg = some cfg ∧ s.save = some r ∧
      Dated c cfg ∧ r.toTerms = cfg.toTerms s.vhtlcPolicyTemplate ∧
      r.cfg.stored.expiry = r.cfg.expiry ∧ Dated c r.cfg := by
    intro s hs
    obtain ⟨cfg, hcfg, hh, hans⟩ := hs.terms
    rw [hinvoice] at hh
    obtain ⟨r, hr, -, -⟩ := PaySession.save_of_cfg hcfg (hh ▸ hhash)
    have hd := hdated _ hans cfg rfl
    obtain ⟨h₁, h₂, h₃⟩ := Passing.of_save hd hcfg rfl hr
    exact ⟨cfg, r, hcfg, hr, hd, h₁, h₂, h₃⟩
  rw [hnone] at hcases
  rcases hcases with ⟨hsession, hrow⟩ | ⟨s', hs', hsession, hrow⟩
  · constructor
    · intro _
      refine ⟨?_, ?_⟩
      · change w.sessions ++ n'.session.toList = []
        rw [hsessions, hsession]
        rfl
      · change n'.env.sends = []
        rw [henv]
        exact hsends
    · rcases hrow with hrow | ⟨s', r', hs', hr', hrow⟩
      · exact forall_none hrow
      · obtain ⟨cfg, x, -, hx, -, -, hd⟩ := hcreated s' hs'
        cases hr'.symm.trans hx
        exact forall_some hrow hd
    · exact fun _ _ => hsent _
    · intro r _ s hs
      change s ∈ w.sessions ++ n'.session.toList at hs
      rw [hsessions, hsession] at hs
      cases hs
  · obtain ⟨cfg, r, hcfg, hr, hd, hterms, hrd⟩ := hcreated s' hs'
    change n'.row = s'.save.or none at hrow
    rw [hr, Option.some_or] at hrow
    refine ⟨fun hnone => (nomatch hrow.symm.trans hnone), forall_some hrow hrd,
      fun _ _ => hsent _, forall_some hrow fun s hs => ?_⟩
    change s ∈ w.sessions ++ n'.session.toList at hs
    rw [hsessions, hsession] at hs
    obtain rfl := mem_singleton.1 hs
    exact ⟨cfg, hcfg, hterms.symm, hd⟩

theorem Uniform.step (hf : Fundable c invoice w a) (hstep : PayClient.step c invoice w a = some w') :
    Uniform c w' := by
  cases a with
  | begin maxFee maxCredit =>
    simp only [PayClient.step] at hstep
    split at hstep
    · cases hstep
      exact ⟨h.bare, h.dated, h.sent, h.sessions⟩
    · cases hstep
  | create i writes ans =>
    obtain ⟨limits, -, rfl⟩ := Option.map_eq_some_iff.1 hstep
    exact h.create hf.1 hf.2.1 hf.2.2
  | resume =>
    obtain ⟨row, hrow, rfl⟩ := Option.map_eq_some_iff.1 hstep
    exact h.resume hrow
  | advance i writes ans =>
    obtain ⟨s, hs, rfl⟩ := Option.map_eq_some_iff.1 hstep
    exact h.advance hs hf
  | crash =>
    cases hstep
    exact h.crash
  | world a =>
    cases hstep
    have hsends : (w.env.evolve a).sends = w.env.sends := by
      cases a with
      | tick k | land t => rfl
    refine ⟨fun hr => ⟨(h.bare hr).1, hsends.trans (h.bare hr).2⟩, h.dated, ?_, h.sessions⟩
    intro r hr send hsend
    exact h.sent r hr send (hsends ▸ hsend)

omit h

variable {c : PayConfig} {w : PayClient} {invoice : PayInvoice}

/-- All sends have the key, the amount and the policy of the row, and one that may make a new
transfer comes after readings of the same pass that admit it. -/
theorem funding_sent_safely {w₀ : PayClient} {as : List ClientAction}
    (h₀ : (payClient c invoice).init w₀)
    (hf : (payClient c invoice).Along (fun w a _ => Fundable c invoice w a) w₀ as)
    (hrun : (payClient c invoice).run w₀ as = some w) :
    ∀ send ∈ w.env.sends, ∃ row, w.row = some row ∧
      send.key = row.cfg.paymentHash ∧ send.amountSat = row.cfg.amountSat ∧
      send.vhtlcPolicyTemplate = row.vhtlcPolicyTemplate ∧
      send.terms.timing = row.cfg.timing ∧ Time.truncate send.terms.expiry = row.cfg.expiry ∧
      (send.existingOnly = false → Guarded c send.terms send.readings) := by
  have hinit : Uniform c w₀ := by
    obtain ⟨-, hsessions, hrow, hsends⟩ := h₀
    exact ⟨fun _ => ⟨hsessions, hsends⟩, forall_none hrow, forall_none hrow, forall_none hrow⟩
  have h := Machine.run_invariant (M := payClient c invoice) (Uniform c)
    (fun _ _ _ h hf hstep => h.step hf hstep) hinit hf hrun
  intro send hsend
  rcases Option.eq_none_or_eq_some w.row with hr | ⟨row, hr⟩
  · rw [(h.bare hr).2] at hsend
    cases hsend
  obtain ⟨hkey, hamount, hterms, hguard⟩ := h.sent row hr send hsend
  have hexpiry : Time.truncate row.cfg.expiry = row.cfg.expiry := (h.dated row hr).1
  simp only [InSwapConfig.toTerms, PaySwapRow.toTerms, Terms.mk.injEq] at hterms
  obtain ⟨hh, ha, ht, he, hp⟩ := hterms
  exact ⟨row, hr, hkey.trans hh, hamount.trans ha, hp, ht, he.trans hexpiry, hguard⟩

/-! ## Runs on fixed answers -/

section Runs

def clientStart : PayClient := { env := { now := 1000 } }

theorem clientStart_init : (payClient payConfig payInvoice).init clientStart := ⟨rfl, rfl, rfl, rfl⟩

/-- The reply to the first send is lost and the process ends; the resumed session sends again. -/
def resumedRun : List ClientAction :=
  [.begin 0 0, .create 0 [] createAnswers,
    .advance 0 [] (payAnswers ⟨.pending, .error .other⟩ 0 100), .crash, .resume,
    .advance 0 [] (payAnswers ⟨.made, .error .other⟩ 0 100)]

theorem resumedRun_sent_safely : ∃ w,
    (payClient payConfig payInvoice).run clientStart resumedRun = some w ∧
      w.env.sends.map (fun send => (send.key, send.amountSat, send.existingOnly)) =
        [(7, 10000, false), (7, 10000, false)] ∧
      ∀ send ∈ w.env.sends, send.existingOnly = false →
        Guarded payConfig send.terms send.readings := by
  have hout : ((payClient payConfig payInvoice).run clientStart resumedRun).map
      (fun w => w.env.sends.map fun send => (send.key, send.amountSat, send.existingOnly)) =
        some [(7, 10000, false), (7, 10000, false)] := by decide +kernel
  have hf : (payClient payConfig payInvoice).Along
      (fun w a _ => Fundable payConfig payInvoice w a) clientStart resumedRun := by decide +kernel
  obtain ⟨w, hrun, hw⟩ := Option.map_eq_some_iff.1 hout
  refine ⟨w, hrun, hw, fun send hsend => ?_⟩
  obtain ⟨row, -, -, -, -, -, -, hguard⟩ := funding_sent_safely clientStart_init hf hrun send hsend
  exact hguard

def feeQuote : InSwapConfig := { payQuote with feeSat := 50, amountSat := 10050 }

def racingRun : List ClientAction :=
  [.begin 100 0, .begin 100 0, .create 0 [] createAnswers,
    .advance 0 [] (payAnswers ⟨.made, .error .other⟩ 0 100),
    .create 0 [] { createAnswers with config := .ok (some feeQuote) },
    .advance 1 [] (payAnswers ⟨.made, .error .other⟩ 0 100)]

def twoHeights (h₁ h₂ : UInt32) : PayAnswers :=
  let ans := payAnswers ⟨.made, .error .other⟩ 0 h₁
  { ans with funded := { ans.funded with submit := { ans.funded.submit with height := .ok h₂ } } }

/-- What a send that may make a new transfer had read of the clock and of the height. -/
def FundingSend.readBefore (send : FundingSend) : Option (List Reading) :=
  if send.existingOnly then none else some send.readings

/-- A second start changes the amount under one key. A sum that wraps hides a height at which the
refund is near. A deadline at the zero time never comes. -/
theorem racingRun_sent_unsafely :
    (payClient payConfig payInvoice).init clientStart ∧
    ((payClient payConfig payInvoice).run clientStart racingRun).map
      (fun w => w.env.sends.map fun send => (send.key, send.amountSat)) =
        some [(7, 10000), (7, 10050)] ∧
    ((payClient payConfig payInvoice).run clientStart
        [.begin 0 0, .create 0 [] createAnswers,
          .advance 0 [] (payAnswers ⟨.none, .error .other⟩ 0 100),
          .advance 0 [] (twoHeights 4294967290 195)]).map
      (fun w => w.env.sends.map FundingSend.readBefore) =
        some [some [.clock 1000, .height 100, .clock 1000, .height 100],
          some [.clock 1000, .clock 1000, .height 4294967290, .clock 1000, .clock 1000,
            .height 195]] ∧
    ((payClient payConfig payInvoice).run clientStart
        [.begin 0 0, .create 0 []
            { createAnswers with config := .ok (some { payQuote with expiry := 100 }) },
          .advance 0 [] (payAnswers ⟨.made, .error .other⟩ 0 100)]).map
      (fun w => w.env.sends.map FundingSend.readBefore) =
        some [some [.clock 1000, .height 100, .clock 1000, .height 100]] :=
  ⟨clientStart_init, by decide +kernel, by decide +kernel, by decide +kernel⟩

end Runs

end Wavelength.Swaps
