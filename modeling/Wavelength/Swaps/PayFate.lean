import Wavelength.Swaps.PayLoop

/-! # What becomes of a payment that is written off

A session is given up, as expired or as failed, only if there is no funding transfer and there will
be none. Until then the terms of the session are those of its row, and no send is made before the
row says that one may be.
-/

namespace Wavelength.Swaps

/-- The session is written off. -/
def PayState.bad : PayState → Bool
  | .expired | .failed => true
  | _ => false

def PayState.early : PayState → Bool
  | .created | .swapCreated => true
  | _ => false

/-- There is no transfer and there will be none, if the daemon told the truth. -/
def PayEnv.Clear (env : PayEnv) : Prop := env.truthful = true → env.transfer.gone = true

def ActionError.ends (e : ActionError) : Prop := e = .failure ∨ e = .expired

instance (e : ActionError) : Decidable e.ends := inferInstanceAs (Decidable (_ ∨ _))

structure Sound (n : PayNode) : Prop where
  bad : ∀ s, n.session = some s → s.state.bad = true → n.env.Clear
  badRow : ∀ r, n.row = some r → r.state.bad = true → n.env.Clear
  stored : ∀ s, n.session = some s → s.state.early = false →
    ∃ r, n.row = some r ∧ r.state.early = false
  final : ∀ s, n.session = some s → s.state.bad = true → ∃ r, n.row = some r ∧ r.state.bad = true
  fresh : ∀ s, n.session = some s → s.state.early = true → n.env.transfer.gone = true
  unsent : (∀ r, n.row = some r → r.state.early = true) → n.env.transfer.gone = true
  terms : ∀ s, n.session = some s → ∃ cfg, s.cfg = some cfg ∧ cfg.paymentHash ≠ 0
  termsRow : ∀ r, n.row = some r → r.cfg.paymentHash ≠ 0

/-- A pass that has not given the session up. With `D` a transfer may exist in this pass, and then
every write that fails says why. -/
structure Going (D : Prop) (n : PayNode) : Prop extends Sound n where
  notBad : ∀ s, n.session = some s → s.state.bad = false
  notBadRow : ∀ r, n.row = some r → r.state.bad = false
  harmless : D ∨ n.env.transfer.gone = true
  writes : D → ∀ w ∈ n.writes, w.error ≠ some .failure

def At (st : PayState) (cfg : InSwapConfig) (t : Time) (n : PayNode) : Prop :=
  (∃ s, n.session = some s ∧ s.state = st ∧ s.cfg = some cfg) ∧ n.env.now = t

def Stopped (e : ActionError) (n : PayNode) : Prop := Sound n ∧ (e.ends → n.env.Clear)

variable {D : Prop} {st st' : PayState} {cfg : InSwapConfig} {t : Time} {α : Type} {n : PayNode}
  {s s' : PaySession} {e : ActionError} {env : PayEnv} {mutate : PaySession → Option PaySession}
  {next : PayState} {Q : α → PayNode → Prop} {f : PaySession → PaySession}
  {F : ActionError → PayNode → Prop} {send : FundingSend}

theorem At.session (h : At st cfg t n) (hs : n.session = some s) :
    s.state = st ∧ s.cfg = some cfg := by
  obtain ⟨⟨x, hx, h⟩, -⟩ := h
  cases hs.symm.trans hx
  exact h

theorem PayEnv.clear_of_gone (h : env.transfer.gone = true) : env.Clear := fun _ => h

/-! ## The mutations -/

@[simp] theorem PaySession.stamp_state : (s.stamp t).state = s.state := by
  unfold PaySession.stamp
  split <;> rfl

@[simp] theorem PaySession.stamp_cfg : (s.stamp t).cfg = s.cfg := by
  unfold PaySession.stamp
  split <;> rfl

theorem PaySession.save_of_cfg (hcfg : s.cfg = some cfg) (hhash : cfg.paymentHash ≠ 0) :
    ∃ r, s.save = some r ∧ r.state = s.state ∧ r.cfg.paymentHash = cfg.paymentHash := by
  unfold PaySession.save
  rw [hcfg]
  simp only [hhash, if_false]
  exact ⟨_, rfl, rfl, rfl⟩

theorem Write.error_ne_expired (w : Write) : w.error ≠ some .expired := by
  cases w with
  | ok => exact nofun
  | crash written => simp [Write.error]
  | failed written e => cases e <;> simp [Write.error, RemoteError.wrap]

theorem Sound.of_written (hs : n'.session = some s) (hr : n'.row = some r) (henv : n'.env = n.env)
    (hsb : s.state.bad = true → n.env.Clear) (hrb : r.state.bad = true → n.env.Clear)
    (hstored : s.state.early = false → r.state.early = false)
    (hfinal : s.state.bad = true → r.state.bad = true)
    (hse : s.state.early = true → n.env.transfer.gone = true)
    (hre : r.state.early = true → n.env.transfer.gone = true)
    (hterms : ∃ cfg, s.cfg = some cfg ∧ cfg.paymentHash ≠ 0) (hhash : r.cfg.paymentHash ≠ 0) :
    Sound n' := by
  rw [← henv] at hsb hrb hse hre
  constructor
  · exact forall_some hs hsb
  · exact forall_some hr hrb
  · exact forall_some hs fun he => ⟨r, hr, hstored he⟩
  · exact forall_some hs fun hb => ⟨r, hr, hfinal hb⟩
  · exact forall_some hs hse
  · exact fun h => hre (h r hr)
  · exact forall_some hs hterms
  · exact forall_some hr hhash

theorem Going.wrote (h : Going D n) (hs : n.session = some s) (hbad : st'.bad = false)
    (hearly : st'.early = true → s.state.early = true) (hr : n'.row = some r) (hrst : r.state = st')
    (hrhash : r.cfg.paymentHash ≠ 0) (hs' : n'.session = some s')
    (hst' : s'.state = st' ∨ s'.state = s.state)
    (hterms : ∃ cfg, s'.cfg = some cfg ∧ cfg.paymentHash ≠ 0) (henv : n'.env = n.env)
    (hwrites : n'.writes ⊆ n.writes) : Going D n' := by
  subst hrst
  obtain ⟨hnotBad, hsearly, hstored⟩ : s'.state.bad = false ∧
      (s'.state.early = true → s.state.early = true) ∧
      (s'.state.early = false → r.state.early = false) := by
    rcases hst' with hst' | hst' <;> rw [hst']
    · exact ⟨hbad, hearly, id⟩
    · refine ⟨h.notBad s hs, id, fun he => Bool.eq_false_iff.2 fun hr => ?_⟩
      cases he.symm.trans (hearly hr)
  have hsound : Sound n' := by
    refine Sound.of_written hs' hr henv ?_ ?_ hstored ?_ ?_ ?_ hterms hrhash
    · rw [hnotBad]
      exact nofun
    · rw [hbad]
      exact nofun
    · rw [hnotBad]
      exact nofun
    · exact fun he => h.fresh s hs (hsearly he)
    · exact fun he => h.fresh s hs (hearly he)
  exact ⟨hsound, forall_some hs' hnotBad, forall_some hr hbad, henv ▸ h.harmless,
    fun hD w hw => h.writes hD w (hwrites hw)⟩

theorem Sound.same (h : Sound n) (hs : n'.session = n.session)
    (hr : n'.row = n.row) (henv : n'.env = n.env) : Sound n' := by
  obtain ⟨session, row, writes, env⟩ := n'
  obtain rfl := hs
  obtain rfl := hr
  obtain rfl := henv
  exact { h with }

theorem Going.same (h : Going D n) (hs : n'.session = n.session)
    (hr : n'.row = n.row) (henv : n'.env = n.env) (hwrites : n'.writes ⊆ n.writes) :
    Going D n' := by
  exact ⟨h.toSound.same hs hr henv, hs ▸ h.notBad, hr ▸ h.notBadRow, henv ▸ h.harmless,
    fun hD w hw => h.writes hD w (hwrites hw)⟩

theorem Going.clear_of_write (h : Going D n) (hw : w ∈ n.writes) (he : w.error = some e)
    (hends : e.ends) : n.env.Clear := by
  rcases h.harmless with hD | hgone
  · rcases hends with rfl | rfl
    · exact absurd he (h.writes hD w hw)
    · exact absurd he w.error_ne_expired
  · exact PayEnv.clear_of_gone hgone

def stamped (mutate : PaySession → Option PaySession) (n : PayNode) (s : PaySession) :
    Option PaySession :=
  (mutate s).map (PaySession.stamp (Time.truncate n.env.now))

theorem mutateAndPersistPay_run (mutate : PaySession → Option PaySession) (n : PayNode) :
    Ensures (· = n) (mutateAndPersistPay mutate)
      (fun _ => Mutated PaySession.save (stamped mutate n) n)
      fun e => Unmutated PaySession.save (stamped mutate n) n e := by
  refine getEnv_bind fun env => ?_
  rintro m ⟨rfl, rfl⟩
  exact mutateAndPersist_run PaySession.save (stamped mutate m) m m rfl

theorem Sound.saves (h : Sound n) (hs : n.session = some s) (hcfg : s'.cfg = s.cfg) :
    (∃ cfg, (s'.stamp t).cfg = some cfg ∧ cfg.paymentHash ≠ 0) ∧
      ∃ r, (s'.stamp t).save = some r ∧ r.state = s'.state ∧ r.cfg.paymentHash ≠ 0 := by
  obtain ⟨cfg, hc, hhash⟩ := h.terms s hs
  have hc' : (s'.stamp t).cfg = some cfg := PaySession.stamp_cfg.trans (hcfg.trans hc)
  obtain ⟨r, hr, hst, hrh⟩ := PaySession.save_of_cfg hc' hhash
  exact ⟨⟨cfg, hc', hhash⟩, r, hr, hst.trans PaySession.stamp_state, hrh ▸ hhash⟩

theorem mutate_spec (hm : ∀ s s', s.state = st → s.cfg = some cfg → mutate s = some s' →
      s'.state = st' ∧ s'.cfg = some cfg)
    (hbad : st'.bad = false) (hearly : st'.early = true → st.early = true) :
    Ensures (fun n => Going D n ∧ At st cfg t n) (mutateAndPersistPay mutate)
      (fun _ n => Going D n ∧ At st' cfg t n)
      fun e n => (Going D n ∧ At st cfg t n) ∧
        ((∀ s, s.state = st → s.cfg = some cfg → mutate s ≠ none) → e.ends → n.env.Clear) := by
  rintro n ⟨hn, hat⟩
  refine (mutateAndPersistPay_run mutate n).imp (fun _ h => h) (fun _ n' hrun => ?_)
    (fun e n' hrun => ?_) n rfl
  · obtain ⟨s, _, hs, hx, hsession, hrow⟩ := hrun.session
    obtain ⟨s', hs', rfl⟩ := Option.map_eq_some_iff.1 hx
    obtain ⟨hst, hcfg⟩ := hat.session hs
    obtain ⟨hst', hcfg'⟩ := hm s s' hst hcfg hs'
    obtain ⟨hterms, r, hr, hrst, hrh⟩ := hn.saves hs (hcfg'.trans hcfg.symm)
    rw [hr, Option.some_or] at hrow
    rw [← PaySession.stamp_state] at hst'
    rw [← PaySession.stamp_state] at hrst
    exact ⟨hn.wrote hs hbad (hst ▸ hearly) hrow (hrst.trans hst') hrh hsession (.inl hst') hterms
      hrun.env hrun.writes, ⟨_, hsession, hst', PaySession.stamp_cfg.trans hcfg'⟩, hrun.env ▸ hat.2⟩
  · refine ⟨⟨?_, hrun.session ▸ hat.1, hrun.env ▸ hat.2⟩, fun htotal hends => ?_⟩
    · rcases hrun.row with hrow | ⟨s, _, r, hs, hx, hr, hrow⟩
      · exact hn.same hrun.session hrow hrun.env hrun.writes
      obtain ⟨s', hs', rfl⟩ := Option.map_eq_some_iff.1 hx
      obtain ⟨hst, hcfg⟩ := hat.session hs
      obtain ⟨hst', hcfg'⟩ := hm s s' hst hcfg hs'
      obtain ⟨-, r', hr', hrst, hrh⟩ := hn.saves hs (hcfg'.trans hcfg.symm)
      cases hr.symm.trans hr'
      exact hn.wrote hs hbad (hst ▸ hearly) hrow (hrst.trans hst') hrh (hrun.session.trans hs)
        (.inr rfl) (hn.terms s hs) hrun.env hrun.writes
    · rw [hrun.env]
      rcases hrun.cause with rfl | ⟨s, hs, hnone⟩ | ⟨w, hw, he⟩
      · rcases hends with h | h <;> cases h
      · obtain ⟨hst, hcfg⟩ := hat.session hs
        exact absurd (Option.map_eq_none_iff.1 hnone) (htotal s hst hcfg)
      · exact hn.clear_of_write hw he hends

/-- A mutation that ends the session; where that is to write it off, there must be no transfer. -/
theorem settle_keeps {B : Prop}
    (hm : ∀ s s', mutate s = some s' → s'.cfg = s.cfg ∧ s'.state.early = false ∧
      (s'.state.bad = true → B) ∧ (s.state.bad = true → s'.state.bad = true)) :
    Keeps (fun n => Sound n ∧ (B → n.env.Clear)) (mutateAndPersistPay mutate) := by
  rintro n ⟨hn, hB⟩
  refine (mutateAndPersistPay_run mutate n).imp (fun _ h => h) (fun _ n' hrun => ?_)
    (fun e n' hrun => ?_) n rfl
  · refine ⟨?_, hrun.env ▸ hB⟩
    obtain ⟨s, _, hs, hx, hsession, hrow⟩ := hrun.session
    obtain ⟨s', hs', rfl⟩ := Option.map_eq_some_iff.1 hx
    obtain ⟨hcfg, he, hb, -⟩ := hm s s' hs'
    obtain ⟨hterms, r, hr, hrst, hrh⟩ := hn.saves hs hcfg
    rw [hr, Option.some_or] at hrow
    rw [← hrst] at he hb
    rw [← PaySession.stamp_state] at hrst
    refine Sound.of_written hsession hrow hrun.env ?_ (fun h => hB (hb h)) (fun _ => he) ?_ ?_ ?_
      hterms hrh
    · exact hrst ▸ fun h => hB (hb h)
    · exact hrst ▸ id
    · exact hrst ▸ fun h => nomatch he.symm.trans h
    · exact fun h => nomatch he.symm.trans h
  · refine ⟨?_, hrun.env ▸ hB⟩
    rcases hrun.row with hrow | ⟨s, _, r, hs, hx, hr, hrow⟩
    · exact hn.same hrun.session hrow hrun.env
    obtain ⟨s', hs', rfl⟩ := Option.map_eq_some_iff.1 hx
    obtain ⟨hcfg, he, hb, hf⟩ := hm s s' hs'
    obtain ⟨-, r', hr', hrst, hrh⟩ := hn.saves hs hcfg
    cases hr.symm.trans hr'
    rw [← hrst] at he hb hf
    exact Sound.of_written (hrun.session.trans hs) hrow hrun.env (hn.bad s hs)
      (fun h => hB (hb h)) (fun _ => he) hf (hn.fresh s hs) (fun h => nomatch he.symm.trans h)
      (hn.terms s hs) hrh

theorem PaySession.transition_eq_some (h : s.transition event = some s') :
    ∃ next, payTransitions s.state event = some next ∧ s' = { s with state := next } := by
  obtain ⟨next, hn, rfl⟩ := Option.map_eq_some_iff.1 h
  exact ⟨next, hn, rfl⟩

theorem payTransitions_of_bad (h : st.bad = true) : payTransitions st event = none := by
  cases st with
  | expired | failed => rfl
  | _ => cases h

theorem PaySession.transition_not_bad (h : s.transition event = some s') : s.state.bad = false := by
  obtain ⟨next, hn, -⟩ := PaySession.transition_eq_some h
  by_contra hb
  rw [Bool.not_eq_false] at hb
  exact nomatch (payTransitions_of_bad hb).symm.trans hn

/-- The events that end a session lead to states of their own. -/
theorem payTransitions_ends :
    (payTransitions st .expired = some next → next = .expired) ∧
    (payTransitions st .needsIntervention = some next → next = .needsIntervention) ∧
    (payTransitions st .failed = some next → next = .failed) := by
  cases st <;> simp [payTransitions, eq_comm]

theorem markPayFailed_eq_some (h : markPayFailed s = some s') :
    (s.state = .failed ∧ s' = s) ∨ s' = { s with state := .failed } := by
  unfold markPayFailed at h
  split at h
  · next hst => exact .inl ⟨hst, (Option.some.inj h).symm⟩
  · obtain ⟨next, hn, rfl⟩ := PaySession.transition_eq_some h
    exact .inr (payTransitions_ends.2.2 hn ▸ rfl)

theorem markExpired_keeps : Keeps (fun n => Sound n ∧ (True → n.env.Clear))
    (mutateAndPersistPay (PaySession.transition .expired)) := by
  apply settle_keeps
  intro s s' hs'
  have hbad := PaySession.transition_not_bad hs'
  obtain ⟨next, hn, rfl⟩ := PaySession.transition_eq_some hs'
  obtain rfl := payTransitions_ends.1 hn
  exact ⟨rfl, rfl, fun _ => trivial, fun h => (nomatch hbad.symm.trans h)⟩

theorem markPayFailed_keeps : Keeps (fun n => Sound n ∧ (True → n.env.Clear))
    (mutateAndPersistPay markPayFailed) := by
  apply settle_keeps
  intro s s' hs'
  rcases markPayFailed_eq_some hs' with ⟨hst, rfl⟩ | rfl
  · exact ⟨rfl, by rw [hst]; rfl, fun _ => trivial, id⟩
  · exact ⟨rfl, rfl, fun _ => trivial, fun _ => rfl⟩

theorem markNeedsIntervention_keeps : Keeps (fun n => Sound n ∧ (False → n.env.Clear))
    (mutateAndPersistPay (PaySession.transition .needsIntervention)) := by
  apply settle_keeps
  intro s s' hs'
  have hbad := PaySession.transition_not_bad hs'
  obtain ⟨next, hn, rfl⟩ := PaySession.transition_eq_some hs'
  obtain rfl := payTransitions_ends.2.1 hn
  exact ⟨rfl, rfl, nofun, fun h => (nomatch hbad.symm.trans h)⟩

/-- The end of a pass with an error; no other error leaves it than the end of the process. -/
theorem payFail_spec :
    Ensures (Stopped e) (payFail e) (fun _ => Sound) fun e' n => Sound n ∧ e' = .crash := by
  refine getSession_bind_error (fun s => .pre ?_ fun _ h => h.1) fun _ h _ => ⟨h.1, rfl⟩
  have hmark : ∀ {B : Prop} {m : Pay Unit}, Keeps (fun n => Sound n ∧ (B → n.env.Clear)) m →
      Ensures (fun n => Sound n ∧ (B → n.env.Clear)) (markTerminal m) (fun _ => Sound)
        fun e' n => Sound n ∧ e' = .crash := fun hm =>
    (hm.post fun _ _ h => h.1).tryCatch fun _ =>
      .ite (fun he => .throw fun _ h => ⟨h.1, he⟩) fun _ => .pure fun _ h => h.1
  have hpure : Ensures (Stopped e) (pure () : Pay Unit) (fun _ => Sound)
      fun e' n => Sound n ∧ e' = .crash := .pure fun _ h => h.1
  cases e with
  | interrupt | retryable | walletNotReady => exact hpure
  | expired =>
    exact .ite (fun _ => hpure) fun _ =>
      (hmark markExpired_keeps).pre fun _ h => ⟨h.1, fun _ => h.2 (.inr rfl)⟩
  | intervention =>
    exact .ite (fun _ => hpure) fun _ =>
      (hmark markNeedsIntervention_keeps).pre fun _ h => ⟨h.1, nofun⟩
  | failure => exact (hmark markPayFailed_keeps).pre fun _ h => ⟨h.1, fun _ => h.2 (.inl rfl)⟩
  | crash => exact .throw fun _ h => ⟨h.1, rfl⟩

/-! ## Parts of a pass -/

/-- A part of a pass that leaves the state as it was if it fails. -/
def Quiet (D : Prop) (st : PayState) (cfg : InSwapConfig) (t : Time) (m : Pay α)
    (Q : α → PayNode → Prop) : Prop :=
  Ensures (fun n => Going D n ∧ At st cfg t n) m (fun a n => Going D n ∧ Q a n)
    fun _ n => Going D n ∧ At st cfg t n

def Loud (D : Prop) (st : PayState) (cfg : InSwapConfig) (t : Time) (m : Pay α)
    (Q : α → PayNode → Prop) : Prop :=
  Ensures (fun n => Going D n ∧ At st cfg t n) m (fun a n => Going D n ∧ Q a n) Stopped

theorem Going.stopped (h : Going D n) (he : ¬ e.ends) : Stopped e n :=
  ⟨h.toSound, fun hends => absurd hends he⟩

/-- A part of a pass that leaves the state as it was if it fails, and may end the pass. -/
def Held (D : Prop) (st : PayState) (cfg : InSwapConfig) (t : Time) (m : Pay α)
    (Q : α → PayNode → Prop) : Prop :=
  Ensures (fun n => Going D n ∧ At st cfg t n) m (fun a n => Going D n ∧ Q a n)
    fun e n => (Going D n ∧ At st cfg t n) ∧ (e.ends → n.env.Clear)

theorem Held.loud (h : Held D st cfg t m Q) : Loud D st cfg t m Q :=
  h.onError fun _ _ h => ⟨h.1.1.toSound, h.2⟩

theorem not_ends_of_retryable (he : e = .crash ∨ e = .retryable) : ¬ e.ends := by
  rcases he with rfl | rfl <;> decide

theorem Quiet.held (h : Quiet D st cfg t m Q) : Held D st cfg t (retryable m) Q :=
  (retryable_spec h).onError
    fun _ _ h => ⟨h.1, fun hends => absurd hends (not_ends_of_retryable h.2)⟩

theorem Quiet.retryable (h : Quiet D st cfg t m Q) : Loud D st cfg t (retryable m) Q := h.held.loud

theorem Quiet.logged (h : Quiet D st cfg t m Q) :
    Loud D st cfg t (logged d m) fun a n => Q a n ∨ (a = d ∧ At st cfg t n) := by
  refine .tryCatch (h.post fun a n hn => ⟨hn.1, .inl hn.2⟩) fun e => ?_
  refine .ite (fun he => .throw fun n hn => ?_) fun _ => .pure fun n hn => ?_
  · rw [he]
    exact hn.1.stopped (by decide)
  · exact ⟨hn.1, .inr ⟨rfl, hn.2⟩⟩

theorem mutate_quiet (hm : ∀ s s', s.state = st → s.cfg = some cfg → mutate s = some s' →
      s'.state = st' ∧ s'.cfg = some cfg)
    (hbad : st'.bad = false) (hearly : st'.early = true → st.early = true) :
    Quiet D st cfg t (mutateAndPersistPay mutate) fun _ => At st' cfg t :=
  (mutate_spec hm hbad hearly).onError fun _ _ h => h.1

variable (hm : ∀ s, s.state = st → s.cfg = some cfg → ∃ s', mutate s = some s' ∧ s'.state = st' ∧ s'.cfg = some cfg) (hbad : st'.bad = false) (hearly : st'.early = true → st.early = true)
include hm hbad hearly

theorem mutate_held : Held D st cfg t (mutateAndPersistPay mutate) fun _ => At st' cfg t := by
  have hsome : ∀ s s', s.state = st → s.cfg = some cfg → mutate s = some s' →
      s'.state = st' ∧ s'.cfg = some cfg := by
    intro s s' hs hc hs'
    obtain ⟨x, hx, h⟩ := hm s hs hc
    cases hx.symm.trans hs'
    exact h
  refine (mutate_spec hsome hbad hearly).onError fun _ _ h => ⟨h.1, h.2 fun s hs hc hnone => ?_⟩
  obtain ⟨x, hx, -⟩ := hm s hs hc
  cases hnone.symm.trans hx

theorem mutate_loud : Loud D st cfg t (mutateAndPersistPay mutate) fun _ => At st' cfg t :=
  (mutate_held hm hbad hearly).loud

omit hm hbad hearly

def KeepsTerms (f : PaySession → PaySession) : Prop :=
  ∀ s, (f s).state = s.state ∧ (f s).cfg = s.cfg

theorem transition_some (ht : payTransitions st event = some st') (hf : KeepsTerms f)
    (s : PaySession) (hs : s.state = st) (hc : s.cfg = some cfg) :
    ∃ s', (f s).transition event = some s' ∧ s'.state = st' ∧ s'.cfg = some cfg := by
  refine ⟨{ f s with state := st' }, ?_, rfl, (hf s).2.trans hc⟩
  unfold PaySession.transition
  rw [(hf s).1, hs, ht]
  rfl

theorem transition_inv (ht : ∀ x, payTransitions st event = some x → x = st') (hf : KeepsTerms f)
    (s s' : PaySession) (hs : s.state = st) (hc : s.cfg = some cfg)
    (h : (f s).transition event = some s') : s'.state = st' ∧ s'.cfg = some cfg := by
  unfold PaySession.transition at h
  obtain ⟨x, hx, rfl⟩ := Option.map_eq_some_iff.1 h
  rw [(hf s).1, hs] at hx
  exact ⟨ht x hx, (hf s).2.trans hc⟩

theorem getSession_at {β : Type} {k : PaySession → Pay β} {P : PayNode → Prop}
    {Q : β → PayNode → Prop} (hP : ∀ n, P n → At st cfg t n)
    (hk : ∀ s, s.state = st → Ensures P (k s) Q F) : Ensures P (getSession >>= k) Q F := by
  refine getSession_bind_error (fun s n hn => ?_) fun n hn hs => ?_
  · exact hk s ((hP n hn.1).session hn.2).1 n hn.1
  · obtain ⟨s, hs', -⟩ := (hP n hn).1
    cases hs.symm.trans hs'

theorem getConfig_bind {β : Type} {k : InSwapConfig → Pay β} {P : PayNode → Prop}
    {Q : β → PayNode → Prop}
    (hP : ∀ n, P n → At st cfg t n) (hk : Ensures P (k cfg) Q F) (hF : ∀ n, P n → F .crash n) :
    Ensures P (getConfig >>= k) Q F := by
  unfold getConfig
  rw [bind_assoc]
  refine getSession_bind_error (fun s => ?_) fun n hn _ => hF n hn
  by_cases hc : s.cfg = some cfg
  · rw [hc]
    exact hk.pre fun _ h => h.1
  · intro n hn
    exact absurd ((hP n hn.1).session hn.2).2 hc

theorem Going.setEnv (h : Going D n) (ht : env.transfer = n.env.transfer) :
    Going D { n with env := env } := by
  have hgone : n.env.transfer.gone = env.transfer.gone := by rw [ht]
  exact { h with
    bad := fun s hs hb => nomatch (h.notBad s hs).symm.trans hb
    badRow := fun r hr hb => nomatch (h.notBadRow r hr).symm.trans hb
    fresh := hgone ▸ h.fresh
    unsent := hgone ▸ h.unsent
    harmless := hgone ▸ h.harmless }

theorem blockHeight_spec :
    Ensures (fun n => Going D n ∧ At st cfg t n) (blockHeight reply)
      (fun h n => (Going D n ∧ At st cfg t n) ∧ reply = .ok h)
      fun e n => (Going D n ∧ At st cfg t n) ∧ e = .retryable := by
  refine .bind callRetryable_spec fun h => ?_
  refine .bind (Q := fun _ n => (Going D n ∧ At st cfg t n) ∧ reply = .ok h)
    (.modify fun n hn => ?_) fun _ => .pure fun _ h => h
  exact ⟨⟨hn.1.1.setEnv rfl, hn.1.2⟩, hn.2⟩

theorem readClock_spec :
    Ensures (fun n => Going D n ∧ At st cfg t n) (readClock k)
      (fun now n => (Going D n ∧ At st cfg (t + k) n) ∧ now = t + k) F := by
  refine .bind (Q := fun _ n => Going D n ∧ At st cfg (t + k) n)
    (.modify fun n hn => ?_) fun _ => ?_
  · refine ⟨hn.1.setEnv rfl, hn.2.1, ?_⟩
    change n.env.now + k = t + k
    rw [hn.2.2]
  · refine getEnv_bind fun env => .pure ?_
    rintro n ⟨hn, rfl⟩
    exact ⟨hn, hn.2.2⟩

theorem fundingAdmissionClosed_spec :
    Ensures (fun n => Going D n ∧ At st cfg t n) (fundingAdmissionClosed c k)
      (fun b n => (Going D n ∧ At st cfg (t + k) n) ∧
        b = deadlinePassed (fundingAdmissionDeadline c cfg) (t + k)) Stopped := by
  refine getConfig_bind (fun _ h => h.2) ?_ fun _ h => h.1.stopped (by decide)
  refine readClock_spec.bind fun now => .pure fun n hn => ?_
  rw [hn.2]
  exact ⟨hn.1, rfl⟩

theorem update_quiet (hf : KeepsTerms f) (hbad : st.bad = false) :
    Quiet D st cfg t (mutateAndPersistPay fun s => some (f s)) fun _ => At st cfg t :=
  mutate_quiet (fun s s' hs hc hs' => by
    cases hs'
    exact ⟨(hf s).1.trans hs, (hf s).2.trans hc⟩) hbad id

theorem pure_quiet : Quiet D st cfg t (pure a) fun _ => At st cfg t := .ret

theorem throw_quiet : Quiet D st cfg t (throw e : Pay α) Q := .throw fun _ h => h

theorem refundPubKey_quiet (hbad : st.bad = false) :
    Quiet D st cfg t (refundPubKey receiveScript) fun _ => At st cfg t := by
  refine getSession_at (fun _ h => h.2) fun s _ => .ite (fun _ => pure_quiet) fun _ => ?_
  refine .bind call_keeps fun ok => .ite (fun _ => ?_) fun _ => throw_quiet
  exact update_quiet (fun _ => ⟨rfl, rfl⟩) hbad

theorem ensurePayRefundRecoveryArmed_quiet (hbad : st.bad = false) :
    Quiet D st cfg t (ensurePayRefundRecoveryArmed ans) fun _ => At st cfg t := by
  refine getSession_at (fun _ h => h.2) fun s _ => .ite (fun _ => pure_quiet) fun _ => ?_
  refine .ite (fun _ => throw_quiet) fun _ => ?_
  refine .bind (refundPubKey_quiet hbad) fun _ => .bind call_keeps fun id => ?_
  refine .ite (fun _ => throw_quiet) fun _ => ?_
  exact update_quiet (fun _ => ⟨rfl, rfl⟩) hbad

theorem observeLiveVHTLC_quiet (hbad : st.bad = false) :
    Quiet D st cfg t (observeLiveVHTLC c ans)
      fun b n => At st cfg t n ∨ (b = false ∧ At .refundInitiated cfg t n) := by
  have hrefund : ∀ vtxo : VTXOInfo, Quiet D st cfg t (do
      mutateAndPersistPay fun s => PaySession.transition .refundInitiated
        { s with vhtlcOutpoint := vtxo.outpoint, vhtlcAmount := vtxo.amountSat }
      pure false) fun b n => At st cfg t n ∨ (b = false ∧ At .refundInitiated cfg t n) := by
    intro vtxo
    have ht : ∀ x, payTransitions st .refundInitiated = some x → x = .refundInitiated := by
      intro x hx
      cases st with
      | swapCreated | fundingInitiated | vhtlcFunded | waitingForClaim =>
        exact (Option.some.inj hx).symm
      | _ => cases hx
    refine .bind (mutate_quiet (transition_inv ht fun _ => ⟨rfl, rfl⟩) rfl
      nofun) fun _ => .pure fun n hn => ⟨hn.1, .inr ⟨rfl, hn.2⟩⟩
  have hlookup : Quiet D st cfg t (lookup ans.live) fun _ => At st cfg t := by
    cases ans.live with
    | ok a => exact pure_quiet
    | error e => exact throw_quiet
  refine .bind hlookup fun live => ?_
  cases live with
  | none => exact .pure fun n hn => ⟨hn.1, .inl hn.2⟩
  | some vtxo =>
    refine getConfig_bind (fun _ h => h.2) ?_ fun _ h => h
    refine .ite (fun _ => hrefund vtxo) fun _ => ?_
    refine .bind (blockHeight_spec.imp (fun _ h => h) (fun _ _ h => h.1) fun _ _ h => h.1)
      fun height => .ite (fun _ => hrefund vtxo) fun _ => ?_
    refine .bind (update_quiet (fun _ => ⟨rfl, rfl⟩) hbad) fun _ => ?_
    refine .bind (ensurePayRefundRecoveryArmed_quiet hbad) fun _ => ?_
    exact .pure fun n hn => ⟨hn.1, .inl hn.2⟩

/-! ## Giving up -/

theorem failTerminalPay_spec :
    Ensures (fun n => Sound n ∧ n.env.Clear) (failTerminalPay : Pay α) Q Stopped := by
  refine .bind (Q := fun _ n => Sound n ∧ n.env.Clear)
    (markPayFailed_keeps.imp (fun _ h => ⟨h.1, fun _ => h.2⟩) (fun _ _ h => ⟨h.1, h.2 trivial⟩)
      fun _ _ h => ⟨h.1, fun _ => h.2 trivial⟩) fun _ => ?_
  exact .throw fun _ h => ⟨h.1, fun _ => h.2⟩

theorem markExpired_spec :
    Ensures (fun n => Sound n ∧ n.env.Clear) (markExpired : Pay α) Q Stopped := by
  have hthrow : Ensures (fun n => Sound n ∧ n.env.Clear) (throw .expired : Pay α) Q Stopped :=
    .throw fun _ h => ⟨h.1, fun _ => h.2⟩
  refine getSession_bind (fun s => .pre ?_ fun _ h => h.1) fun _ _ h => ⟨h.1, fun _ => h.2⟩
  refine .ite (fun _ => hthrow) fun _ => ?_
  exact .bind (markExpired_keeps.imp (fun _ h => ⟨h.1, fun _ => h.2⟩)
    (fun _ _ h => ⟨h.1, h.2 trivial⟩) fun _ _ h => ⟨h.1, fun _ => h.2 trivial⟩) fun _ => hthrow

variable (ht : payTransitions st .needsIntervention = some .needsIntervention) (hf : KeepsTerms f)
include ht hf

theorem markPayNeedsIntervention_some (s : PaySession) (hs : s.state = st) (hc : s.cfg = some cfg) :
    ∃ s', markPayNeedsIntervention (f s) = some s' ∧ s'.state = .needsIntervention ∧
      s'.cfg = some cfg := by
  have hne : (f s).state ≠ .needsIntervention := by
    rw [(hf s).1, hs]
    rintro rfl
    cases ht
  unfold markPayNeedsIntervention
  rw [if_neg hne]
  exact transition_some ht hf s hs hc

theorem needsIntervention_loud : Loud D st cfg t (needsIntervention f : Pay α) Q := by
  exact .bind (mutate_loud (markPayNeedsIntervention_some ht hf) rfl nofun) fun _ =>
    .throw fun n hn => hn.1.stopped (by decide)

omit ht hf

/-- Where nothing was sent yet, or nothing can exist, a session may be given up. -/
theorem Going.clear_of_early (h : Going D n) (hat : At st cfg t n) (hst : D → st.early = true) :
    n.env.Clear := by
  rcases h.harmless with hD | hgone
  · obtain ⟨s, hs, hst', -⟩ := hat.1
    refine PayEnv.clear_of_gone (h.fresh s hs ?_)
    rw [hst']
    exact hst hD
  · exact PayEnv.clear_of_gone hgone

/-- Where a transfer may exist, the check for a safe funding must pass. -/
theorem ensureFundingStillSafe_loud (hst : st = .swapCreated ∨ st = .fundingInitiated)
    (hopen : D → st = .fundingInitiated →
      deadlinePassed (fundingAdmissionDeadline c cfg) (t + ans.tick) = false)
    (hheight : D → st = .fundingInitiated → ∀ h, ans.height = .ok h →
      h + c.refundLocktimeBuffer < cfg.timing.refundLocktime) :
    Loud D st cfg t (ensureFundingStillSafe c ans) fun _ => At st cfg (t + ans.tick) := by
  have hearly : st = .fundingInitiated ∨ st.early = true := by
    rcases hst with rfl | rfl
    · exact .inr rfl
    · exact .inl rfl
  refine fundingAdmissionClosed_spec.bind fun closed => .ite (fun hc => ?_) fun _ => ?_
  · refine markExpired_spec.pre fun n hn => ⟨hn.1.1.toSound, hn.1.1.clear_of_early hn.1.2 ?_⟩
    intro hD
    refine hearly.resolve_left fun hfi => ?_
    have := hopen hD hfi
    rw [← hn.2, hc] at this
    cases this
  · refine .pre (P := fun n => Going D n ∧ At st cfg (t + ans.tick) n) ?_ fun _ h => h.1
    refine .bind (blockHeight_spec.onError fun e n hn => ?_) fun height => ?_
    · rw [hn.2]
      exact hn.1.1.stopped (by decide)
    refine getConfig_bind (fun _ h => h.1.2) ?_ fun _ h => h.1.1.stopped (by decide)
    by_cases hans : ans.height = .ok height
    swap
    · intro n hn
      exact absurd hn.2 hans
    refine .pre (P := fun n => Going D n ∧ At st cfg (t + ans.tick) n) ?_ fun _ h => h.1
    refine getSession_at (fun _ h => h.2) fun s hs => .ite (fun hlt => ?_) fun _ => ?_
    · refine failTerminalPay_spec.pre fun n hn => ⟨hn.1.toSound, hn.1.clear_of_early hn.2 ?_⟩
      intro hD
      refine hearly.resolve_left fun hfi => ?_
      exact absurd hlt (UInt32.not_le.2 (hheight hD hfi height hans))
    refine .ite (fun hw => ?_) fun _ => .ret
    refine failTerminalPay_spec.pre fun n hn => ⟨hn.1.toSound, hn.1.clear_of_early hn.2 ?_⟩
    intro _
    rw [← hs, hw.1]
    rfl

/-! ## The send -/

theorem Transfer.gone_next (existingOnly : Bool) {a b : Transfer} (ha : a.gone = true)
    (hb : b.gone = true) : (a.next existingOnly b).gone = true := by
  cases a with
  | none =>
    change (if existingOnly = true then Transfer.none else b).gone = true
    split
    · rfl
    · exact hb
  | failed => rfl
  | pending | made => cases ha

theorem PayEnv.gone_send (h : env.transfer.gone = true) (he : ans.effect.gone = true) :
    (env.send send final ans).transfer.gone = true := by
  have hnext := Transfer.gone_next send.existingOnly h he
  unfold PayEnv.send
  cases ans.reply with
  | notFound =>
    dsimp only
    split
    · change (if _ then _ else _ : Transfer).gone = true
      split
      · rfl
      · exact hnext
    · exact hnext
  | _ => exact hnext

theorem PayEnv.now_send : (env.send send final ans).now = env.now := by
  unfold PayEnv.send
  cases ans.reply with
  | notFound =>
    dsimp only
    split <;> rfl
  | _ => rfl

/-- The answer says that there is no transfer and that there will be none. -/
def SendReply.denies (existingOnly final : Bool) : SendReply → Bool
  | .notFound => existingOnly && final
  | .ok r => r.failed && r.failedBeforePONR
  | _ => false

theorem PayEnv.clear_send (h : ans.reply.denies send.existingOnly final = true) : (env.send send final ans).Clear := by
  unfold PayEnv.Clear PayEnv.send
  cases hr : ans.reply with
  | notFound =>
    rw [hr] at h
    simp only [SendReply.denies] at h
    simp only [h, if_true, Bool.and_eq_true, bne_iff_ne, and_imp]
    intro _ hne
    cases ht : env.transfer.next send.existingOnly ans.effect with
    | made => exact absurd ht hne
    | none | pending | failed => rfl
  | ok r =>
    rw [hr] at h
    simp only [SendReply.denies] at h
    simp only [h, Bool.not_true, Bool.false_or, Bool.and_eq_true, beq_iff_eq, and_imp]
    intro _ ht
    rw [ht]
    rfl
  | rejected | error e =>
    rw [hr] at h
    cases h

theorem sendFunding_loud (hearly : st.early = false) (heffect : D ∨ ans.effect.gone = true) :
    Loud D st cfg t (sendFunding existingOnly final ans) fun reply n =>
      At st cfg t n ∧ reply = ans.reply ∧
        (reply.denies existingOnly final = true → n.env.Clear) := by
  refine getSession_at (fun _ h => h.2) fun s _ => ?_
  refine getConfig_bind (fun _ h => h.2) ?_ fun _ h => h.1.stopped (by decide)
  refine .bind (Q := fun _ n => Going D n ∧ At st cfg t n ∧
      (ans.reply.denies existingOnly final = true → n.env.Clear))
    (.modify fun n hn => ?_) fun _ => .pure fun n hn => ⟨hn.1, hn.2.1, rfl, hn.2.2⟩
  obtain ⟨hgo, hat⟩ := hn
  obtain ⟨x, hx, hxst, -⟩ := hat.1
  obtain ⟨r, hr, hre⟩ := hgo.stored x hx (hxst ▸ hearly)
  refine ⟨{ hgo with
    bad := fun s hs hb => nomatch (hgo.notBad s hs).symm.trans hb
    badRow := fun r hr hb => nomatch (hgo.notBadRow r hr).symm.trans hb
    fresh := forall_some hx fun he => nomatch (hxst ▸ hearly).symm.trans he
    unsent := fun h => nomatch hre.symm.trans (h r hr)
    harmless := ?_ }, ⟨hat.1, PayEnv.now_send.trans hat.2⟩, fun h => PayEnv.clear_send h⟩
  rcases hgo.harmless with hD | hgone
  · exact .inl hD
  · exact heffect.imp id fun heffect => PayEnv.gone_send hgone heffect

theorem Sound.setSession (h : Sound n) (hs : n.session = some s) (hst : s'.state = s.state)
    (hcfg : s'.cfg = s.cfg) : Sound { n with session := some s' } := by
  exact { h with
    bad := forall_some rfl (hst ▸ h.bad s hs)
    stored := forall_some rfl (hst ▸ h.stored s hs)
    final := forall_some rfl (hst ▸ h.final s hs)
    fresh := forall_some rfl (hst ▸ h.fresh s hs)
    terms := forall_some rfl (hcfg ▸ h.terms s hs) }

theorem Going.setSession (h : Going D n) (hs : n.session = some s) (hst : s'.state = s.state)
    (hcfg : s'.cfg = s.cfg) : Going D { n with session := some s' } := by
  exact ⟨h.toSound.setSession hs hst hcfg, forall_some rfl (hst ▸ h.notBad s hs), h.notBadRow,
    h.harmless, h.writes⟩

theorem setSession_keeps (hf : KeepsTerms f) : Keeps (fun n => Going D n ∧ At st cfg t n)
    (do let s ← getSession; setSession (f s) : Pay Unit) := by
  refine getSession_bind (fun s => .modify fun n hn => ?_) fun _ _ h => h
  obtain ⟨⟨hgo, hat⟩, hs⟩ := hn
  obtain ⟨hst, hc⟩ := hat.session hs
  obtain ⟨hst', hc'⟩ := hf s
  exact ⟨hgo.setSession hs hst' hc', ⟨f s, rfl, hst'.trans hst, hc'.trans hc⟩, hat.2⟩

theorem persistPay_quiet (hbad : st.bad = false) :
    Quiet D st cfg t persistPay fun _ => At st cfg t := by
  refine getEnv_bind fun env => .pre ?_ fun _ h => h.1
  refine .bind (Q := fun _ n => Going D n ∧ At st cfg t n) ?_ fun _ => ?_
  · rintro n ⟨hn, hat⟩
    obtain ⟨s, hs, hst, -⟩ := hat.1
    obtain ⟨-, r, hr, hrst, hrh⟩ := hn.saves (t := .truncate env.now) hs rfl
    -- Whether or not the write is reported as made, it may only be one of this session.
    have hrow {n' : PayNode} (hrow : n'.row = some r) (hsession : n'.session = n.session)
        (henv : n'.env = n.env) (hwrites : n'.writes ⊆ n.writes) : Going D n' :=
      hn.wrote hs (hrst ▸ hst ▸ hbad) (fun h => hrst ▸ h) hrow rfl hrh (hsession.trans hs)
        (.inr rfl) (hn.terms s hs) henv hwrites
    refine (persist_run (fun s => (s.stamp (.truncate env.now)).save) n).imp (fun _ h => h)
      (fun _ n' hrun => ?_) (fun e n' hrun => ?_) n rfl
    · refine ⟨?_, hrun.session ▸ hat.1, hrun.env ▸ hat.2⟩
      obtain ⟨x, hx, hrow'⟩ := hrun.row
      cases hs.symm.trans hx
      rw [hr, Option.some_or] at hrow'
      exact hrow hrow' hrun.session hrun.env hrun.writes
    · refine ⟨?_, hrun.session ▸ hat.1, hrun.env ▸ hat.2⟩
      rcases hrun.row with h | ⟨x, r', hx, hr', h⟩
      · exact hn.same hrun.session h hrun.env hrun.writes
      · cases hs.symm.trans hx
        cases hr.symm.trans hr'
        exact hrow h hrun.session hrun.env hrun.writes
  · exact setSession_keeps fun _ => ⟨PaySession.stamp_state, PaySession.stamp_cfg⟩

/-- Fields that are no terms are set in memory and then written. -/
theorem setAndPersist_quiet (hf : KeepsTerms f) (hbad : st.bad = false) : Quiet D st cfg t (do
      let s ← getSession
      setSession (f s)
      persistPay) fun _ => At st cfg t := by
  have h : Quiet D st cfg t ((do
      let s ← getSession
      setSession (f s)) >>= fun _ => persistPay) fun _ => At st cfg t :=
    .bind (setSession_keeps hf) fun _ => persistPay_quiet hbad
  rwa [bind_assoc] at h

/-! ## The funding -/

/-- The states in which the funding is sent. A session is in the second one only if it found
there, after a send that failed, an output to be refunded. -/
def PayState.sending (st : PayState) : Prop := st = .fundingInitiated ∨ st = .refundInitiated

theorem PayState.sending.bad (h : st.sending) : st.bad = false := by
  rcases h with rfl | rfl <;> rfl

theorem PayState.sending.early (h : st.sending) : st.early = false := by
  rcases h with rfl | rfl <;> rfl

/-- A turn that may have funded the output, adopted one that is to be refunded, or done nothing. -/
def Turned (cfg : InSwapConfig) (t : Time) (n : PayNode) : Prop :=
  At .fundingInitiated cfg t n ∨ At .vhtlcFunded cfg t n ∨ At .refundInitiated cfg t n

theorem PayState.sending.turned (h : st.sending) (hat : At st cfg t n) : Turned cfg t n := by
  rcases h with rfl | rfl
  · exact .inl hat
  · exact .inr (.inr hat)

theorem markVHTLCFundedFromLocalMetadata_loud {ans : ArmAnswers} (hst : st.sending) :
    Loud D st cfg t (markVHTLCFundedFromLocalMetadata ans) fun _ => Turned cfg t := by
  refine .bind (ensurePayRefundRecoveryArmed_quiet hst.bad).retryable fun _ => ?_
  rcases hst with rfl | rfl
  · have hm : ∀ s : PaySession, s.state = .fundingInitiated → s.cfg = some cfg →
        ∃ s', fundedFromLocalMetadata s = some s' ∧ s'.state = .vhtlcFunded ∧
          s'.cfg = some cfg := by
      intro s hs hc
      unfold fundedFromLocalMetadata
      rw [hs]
      exact transition_some (f := id) (by rfl) (fun _ => ⟨rfl, rfl⟩) s hs hc
    exact (mutate_loud hm rfl nofun).post fun _ n h => ⟨h.1, .inr (.inl h.2)⟩
  · refine (mutate_loud (fun s hs hc => ⟨s, ?_, hs, hc⟩) rfl id).post
      fun _ n h => ⟨h.1, .inr (.inr h.2)⟩
    unfold fundedFromLocalMetadata
    rw [hs]

theorem settleFunding_loud {arm : ArmAnswers} (hst : st.sending) :
    Ensures (fun n => (Going D n ∧ At st cfg t n) ∧
        (result.failed = true → result.failedBeforePONR = true → n.env.Clear))
      (settleFunding result arm) (fun _ n => Going D n ∧ Turned cfg t n) Stopped := by
  have hretry : Ensures (fun n => (Going D n ∧ At st cfg t n) ∧
        (result.failed = true → result.failedBeforePONR = true → n.env.Clear))
      (throw .retryable : Pay Unit) (fun _ n => Going D n ∧ Turned cfg t n) Stopped :=
    .throw fun _ h => h.1.1.stopped (by decide)
  refine .ite (fun _ => hretry) fun _ => .ite (fun hfailed => ?_) fun _ => ?_
  · refine .ite (fun hponr => ?_) fun _ => ?_
    · exact failTerminalPay_spec.pre fun n hn => ⟨hn.1.1.toSound, hn.2 hfailed hponr⟩
    · refine .pre (needsIntervention_loud ?_ fun _ => ⟨rfl, rfl⟩) fun _ h => h.1
      rcases hst with rfl | rfl <;> rfl
  refine .ite (fun _ => hretry) fun _ => .pre ?_ fun _ h => h.1
  refine getConfig_bind (fun _ h => h.2) ?_ fun _ h => h.1.stopped (by decide)
  refine .bind (Quiet.retryable ?_) fun _ => markVHTLCFundedFromLocalMetadata_loud hst
  exact setAndPersist_quiet (fun _ => ⟨rfl, rfl⟩) hst.bad

/-- Look for the live output, then go on with one of two ways. -/
theorem observe_then {ans : ObserveAnswers} {A B : Pay α} (hbad : st.bad = false)
    (hA : st ≠ .refundInitiated → Loud D st cfg t A Q)
    (hB : st ≠ .refundInitiated → Loud D st cfg t B Q)
    (hQ : ∀ n, At .refundInitiated cfg t n → Q a n) :
    Loud D st cfg t (do
      let funded ← logged false (observeLiveVHTLC c ans)
      let s ← getSession
      if s.state = .refundInitiated then pure a else if funded then A else B) Q := by
  refine .bind (observeLiveVHTLC_quiet hbad).logged fun funded n hn => ?_
  have hrefund : Loud D .refundInitiated cfg t (do
      let s ← getSession
      if s.state = .refundInitiated then pure a else if funded then A else B) Q := by
    refine getSession_at (fun _ h => h.2) fun s hs => .ite (fun _ => ?_) fun h => ?_
    · exact .pure fun n hn => ⟨hn.1, hQ n hn.2⟩
    · exact absurd hs h
  have hstay : Loud D st cfg t (do
      let s ← getSession
      if s.state = .refundInitiated then pure a else if funded then A else B) Q := by
    by_cases hst : st = .refundInitiated
    · rw [hst]
      exact hrefund
    · refine getSession_at (fun _ h => h.2) fun s hs => .ite (fun h => ?_) fun _ =>
        .ite (fun _ => hA hst) fun _ => hB hst
      exact absurd (hs.symm.trans h) hst
  obtain ⟨hgo, (hat | ⟨-, hat⟩) | ⟨-, hat⟩⟩ := hn
  · exact hstay n ⟨hgo, hat⟩
  · exact hrefund n ⟨hgo, hat⟩
  · exact hstay n ⟨hgo, hat⟩

theorem adopt_loud {Q : PayNode → Prop} (ht : payTransitions st event = some st')
    (hbad : st'.bad = false) (hearly : st'.early = true → st.early = true)
    (hQ : ∀ n, At st' cfg t n → Q n) :
    Loud D st cfg t (mutateAndPersistPay (PaySession.transition event)) fun _ => Q :=
  (mutate_loud (transition_some (f := id) ht fun _ => ⟨rfl, rfl⟩) hbad hearly).post
    fun _ n h => ⟨h.1, hQ n h.2⟩

theorem reconcileFailedSend_loud {rejected : Bool} (hst : st.sending)
    (hprobe : D ∨ ans.probe.effect.gone = true) :
    Loud D st cfg t (reconcileFailedSend c rejected ans) fun _ => Turned cfg t := by
  refine observe_then hst.bad (fun hne => ?_) (fun _ => ?_) fun _ h => .inr (.inr h)
  · obtain rfl := hst.resolve_right hne
    exact adopt_loud rfl rfl (nofun) fun _ h => .inr (.inl h)
  have hretry : Loud D st cfg t (throw .retryable : Pay Unit) fun _ => Turned cfg t :=
    .throw fun _ h => h.1.stopped (by decide)
  refine .ite (fun _ => hretry) fun _ => (sendFunding_loud hst.early hprobe).bind fun reply => ?_
  cases reply with
  | ok result =>
    refine (settleFunding_loud hst).pre fun n hn => ⟨⟨hn.1, hn.2.1⟩, fun hf hb => hn.2.2.2 ?_⟩
    simp [SendReply.denies, hf, hb]
  | notFound => exact failTerminalPay_spec.pre fun n hn => ⟨hn.1.toSound, hn.2.2.2 rfl⟩
  | rejected | error e => exact hretry.pre fun n hn => ⟨hn.1, hn.2.1⟩

/-- The effects of the sends of a turn that might make a transfer. -/
def SubmitAnswers.makesNone (ans : SubmitAnswers) : Bool :=
  ans.send.effect.gone && ans.probe.effect.gone

theorem submitFunding_loud (hst : st.sending) (hmakes : D ∨ ans.makesNone = true) :
    Loud D st cfg t (submitFunding c ans) fun _ => Turned cfg (t + ans.tick) := by
  have hsend : D ∨ ans.send.effect.gone = true := hmakes.imp id fun h => by
    simp only [SubmitAnswers.makesNone, Bool.and_eq_true] at h
    exact h.1
  have hprobe : D ∨ ans.probe.effect.gone = true := hmakes.imp id fun h => by
    simp only [SubmitAnswers.makesNone, Bool.and_eq_true] at h
    exact h.2
  refine fundingAdmissionClosed_spec.bind fun closed => .pre ?_ fun _ h => h.1
  have hchoose : Loud D st cfg (t + ans.tick) (chooseExistingOnly closed ans.height)
      fun _ => At st cfg (t + ans.tick) := by
    refine .ite (fun _ => .ret) fun _ => ?_
    refine .bind (blockHeight_spec.imp (fun _ h => h) (fun _ _ h => h.1) fun e n hn => ?_)
      fun height => ?_
    · rw [hn.2]
      exact hn.1.1.stopped (by decide)
    · exact getConfig_bind (fun _ h => h.2) (.ret) fun _ h => h.1.stopped (by decide)
  refine .bind hchoose fun existingOnly => (sendFunding_loud hst.early hsend).bind fun reply => ?_
  cases reply with
  | ok result =>
    refine (settleFunding_loud hst).pre fun n hn => ⟨⟨hn.1, hn.2.1⟩, fun hf hb => hn.2.2.2 ?_⟩
    simp [SendReply.denies, hf, hb]
  | notFound =>
    refine .ite (fun he => .ite (fun hc => ?_) fun _ => ?_) fun _ => ?_
    · refine markExpired_spec.pre fun n hn => ⟨hn.1.toSound, hn.2.2.2 ?_⟩
      simp [SendReply.denies, he, hc]
    · exact .pure fun n hn => ⟨hn.1, hst.turned hn.2.1⟩
    · exact (reconcileFailedSend_loud hst hprobe).pre fun n hn => ⟨hn.1, hn.2.1⟩
  | rejected | error e => exact (reconcileFailedSend_loud hst hprobe).pre fun n hn => ⟨hn.1, hn.2.1⟩

def TurnedLater (cfg : InSwapConfig) (n : PayNode) : Prop := ∃ t, Turned cfg t n

theorem ensureFundingSubmitted_loud {allowImmediate : Bool} (hst : st.sending)
    (hmakes : D ∨ ans.makesNone = true) :
    Loud D st cfg t (ensureFundingSubmitted c allowImmediate ans) fun _ => TurnedLater cfg := by
  refine getSession_at (fun _ h => h.2) fun s _ => .ite (fun _ => ?_) fun _ => ?_
  · refine .ite (fun _ => ?_) fun _ => .pure fun n hn => ⟨hn.1, t, hst.turned hn.2⟩
    exact (markVHTLCFundedFromLocalMetadata_loud hst).post fun _ n h => ⟨h.1, t, h.2⟩
  refine .ite (fun _ => (submitFunding_loud hst hmakes).post fun _ n h => ⟨h.1, _, h.2⟩) fun _ => ?_
  have hgrace : Loud D st cfg t (inResumeGrace c ans.graceTick)
      fun _ => At st cfg (t + ans.graceTick) :=
    getSession_at (fun _ h => h.2) fun s _ => readClock_spec.bind fun now => .pure fun _ h => h.1
  refine .bind hgrace fun grace => .ite (fun _ => ?_) fun _ => ?_
  · exact .pure fun n hn => ⟨hn.1, _, hst.turned hn.2⟩
  · exact (submitFunding_loud hst hmakes).post fun _ n h => ⟨h.1, _, h.2⟩

def Anywhere (cfg : InSwapConfig) (n : PayNode) : Prop := ∃ st t, At st cfg t n

theorem TurnedLater.anywhere (h : TurnedLater cfg n) : Anywhere cfg n := by
  obtain ⟨t, h | h | h⟩ := h
  · exact ⟨_, t, h⟩
  · exact ⟨_, t, h⟩
  · exact ⟨_, t, h⟩

theorem fundOrAdoptVHTLC_loud {ans : FundAnswers} (hmakes : D ∨ ans.submit.makesNone = true) :
    Loud D .swapCreated cfg t (fundOrAdoptVHTLC c ans) fun _ => Anywhere cfg := by
  refine observe_then rfl (fun _ => ?_) (fun _ => ?_) fun _ h => ⟨_, _, h⟩
  · exact adopt_loud rfl rfl (nofun) fun _ h => ⟨_, _, h⟩
  refine .bind (ensureFundingStillSafe_loud (.inl rfl) (fun _ => nofun)
    fun _ => nofun) fun _ => ?_
  have hintent : Loud D .swapCreated cfg (t + ans.safe.tick) recordFundingIntent
      fun _ => At .fundingInitiated cfg (t + ans.safe.tick) := by
    refine getSession_at (fun _ h => h.2) fun s hs => .ite (fun _ => ?_) fun h => ?_
    · exact adopt_loud rfl rfl (nofun) fun _ h => h
    · exact absurd hs h
  exact .bind hintent fun _ => (ensureFundingSubmitted_loud (.inl rfl) hmakes).post
    fun _ _ h => ⟨h.1, h.2.anywhere⟩

/-! ## The start -/

structure Created (ans : CreateAnswers) (s s' : PaySession) : Prop where
  terms : ∃ cfg, s'.cfg = some cfg ∧ cfg.paymentHash = s.invoice.paymentHash ∧
    ans.config = .ok (some cfg)
  valid : ∀ cfg ∈ s'.cfg, validateInSwapQuote s.invoice s.maxFeeSat s.maxCreditSat cfg = true
  started : s'.started = true
  waits : s'.inFundingWait = s.inFundingWait

theorem Created.stamp (h : Created ans s s') : Created ans s (s'.stamp t) := by
  obtain ⟨hterms, hvalid, hstarted, hwaits⟩ := h
  unfold PaySession.stamp
  split <;> exact ⟨hterms, hvalid, hstarted, hwaits⟩

theorem paymentHash_of_validateInSwapQuote
    (h : validateInSwapQuote invoice maxFee maxCredit cfg = true) :
    cfg.paymentHash = invoice.paymentHash := by
  unfold validateInSwapQuote at h
  simp only [Bool.and_eq_true, beq_iff_eq] at h
  exact h.1.2.symm

def Begun (ans : CreateAnswers) (s : PaySession) (n n' : PayNode) : Prop :=
  n'.env = n.env ∧ ∃ s', Created ans s s' ∧ n'.session = some s' ∧ n'.row = s'.save.or n.row

def Unbegun (ans : CreateAnswers) (s : PaySession) (n n' : PayNode) : Prop :=
  n'.env = n.env ∧ n'.session = n.session ∧
    (n'.row = n.row ∨ ∃ s' r, Created ans s s' ∧ s'.save = some r ∧ n'.row = some r)

theorem create_run (hs : n.session = some s) (hm : ∀ s', mutate s = some s' → Created ans s s') :
    Ensures (· = n) (mutateAndPersistPay mutate) (fun _ => Begun ans s n) fun _ => Unbegun ans s n := by
  have hm' : ∀ {x s'}, n.session = some x → stamped mutate n x = some s' → Created ans s s' := by
    intro x s' hx hs'
    cases hs.symm.trans hx
    obtain ⟨y, hy, rfl⟩ := Option.map_eq_some_iff.1 hs'
    exact (hm y hy).stamp
  refine (mutateAndPersistPay_run mutate n).imp (fun _ h => h) ?_ ?_
  · intro _ n' hrun
    obtain ⟨x, s', hx, hs', hsession, hrow⟩ := hrun.session
    exact ⟨hrun.env, s', hm' hx hs', hsession, hrow⟩
  intro e n' hrun
  refine ⟨hrun.env, hrun.session, hrun.row.imp id ?_⟩
  rintro ⟨x, s', r, hx, hs', hr, hrow⟩
  exact ⟨s', r, hm' hx hs', hr, hrow⟩

theorem createSwap_run (hs : n.session = some s) (hfresh : s.state = .created) :
    Ensures (· = n) (createSwap c ans) (fun _ => Begun ans s n) fun _ => Unbegun ans s n := by
  have hstop : ∀ n', n' = n → Unbegun ans s n n' := by
    rintro n' rfl
    exact ⟨rfl, rfl, .inl rfl⟩
  have hthrow : ∀ {e}, Ensures (· = n) (throw e : Pay Unit) (fun _ => Begun ans s n)
      fun _ => Unbegun ans s n := .throw hstop
  refine getSession_bind_error (fun x => ?_) fun n' hn' _ => hstop n' hn'
  by_cases hx : x = s
  swap
  · rintro n' ⟨rfl, hx'⟩
    exact absurd (Option.some.inj (hx'.symm.trans hs)) hx
  subst hx
  refine .pre ?_ fun _ h => h.1
  refine .bind (callRetryable_keeps.onError fun _ => hstop) fun clientKey => ?_
  refine .bind (call_keeps.onError fun _ => hstop) fun _ => ?_
  refine .bind (call_spec.onError fun _ n h => hstop n h.1) fun config => ?_
  by_cases hconfig : ans.config = .ok config
  swap
  · intro n' hn'
    exact absurd hn'.2 hconfig
  refine .pre ?_ fun _ h => h.1
  cases config with
  | none => exact hthrow
  | some cfg =>
    refine .ite (fun _ => hthrow) fun _ => .ite (fun _ => hthrow) fun hquote => ?_
    have hvalid : validateInSwapQuote x.invoice x.maxFeeSat x.maxCreditSat cfg = true := by
      simpa using hquote
    have hhash := paymentHash_of_validateInSwapQuote hvalid
    refine .ite (fun _ => create_run hs ?_) fun _ => .ite (fun _ => hthrow) fun _ => ?_
    · intro s' hs'
      simp only [PaySession.transition, hfresh, payTransitions, Option.map_some,
        Option.bind_some, Option.some.injEq] at hs'
      subst hs'
      exact ⟨⟨cfg, rfl, hhash, hconfig⟩, forall_some rfl hvalid, rfl, rfl⟩
    · refine .bind (callRetryable_keeps.onError
        fun _ => hstop) fun operatorKey => ?_
      refine .ite (fun _ => create_run hs ?_) fun _ => hthrow
      intro s' hs'
      simp only [PaySession.transition, hfresh, payTransitions, Option.map_some,
        Option.some.injEq] at hs'
      subst hs'
      exact ⟨⟨cfg, rfl, hhash, hconfig⟩, forall_some rfl hvalid, rfl, rfl⟩

def Unstarted (row : Option PaySwapRow) (env : PayEnv) (n : PayNode) : Prop :=
  n.row = row ∧ n.env = env ∧ ∃ s, n.session = some s ∧ s.cfg = none ∧ s.started = false

theorem payFail_unstarted : Keeps (Unstarted row env) (payFail e) := by
  have hmutate : ∀ mutate : PaySession → Option PaySession,
      (∀ s s', mutate s = some s' → s'.cfg = s.cfg ∧ s'.started = false) →
      Keeps (Unstarted row env) (mutateAndPersistPay mutate) := by
    intro mutate hm
    rintro n ⟨hrow, henv, s, hs, hcfg, hst⟩
    have hstamp : ∀ {x s'}, n.session = some x → stamped mutate n x = some s' →
        s'.cfg = none ∧ s'.started = false ∧ s'.save = none := by
      intro x s' hx hs'
      cases hs.symm.trans hx
      obtain ⟨y, hy, rfl⟩ := Option.map_eq_some_iff.1 hs'
      obtain ⟨hc, hstarted⟩ := hm s y hy
      have hnone : y.save = none := by
        unfold PaySession.save
        rw [hc, hcfg]
      unfold PaySession.stamp
      rw [hnone]
      exact ⟨hc.trans hcfg, hstarted, hnone⟩
    refine (mutateAndPersistPay_run mutate n).imp (fun _ h => h) (fun _ n' hrun => ?_)
      (fun e n' hrun => ?_) n rfl
    · obtain ⟨x, s', hx, hs', hsession, hrow'⟩ := hrun.session
      obtain ⟨hc, hstarted, hsave⟩ := hstamp hx hs'
      rw [hsave, Option.none_or] at hrow'
      exact ⟨hrow'.trans hrow, hrun.env.trans henv, s', hsession, hc, hstarted⟩
    refine ⟨?_, hrun.env.trans henv, s, hrun.session.trans hs, hcfg, hst⟩
    rcases hrun.row with h | ⟨x, s', r, hx, hs', hr, -⟩
    · exact h.trans hrow
    · exact nomatch (hstamp hx hs').2.2.symm.trans hr
  refine getSession_keeps fun s => handleFailure_keeps ?_ ?_ ?_
  · refine hmutate _ fun s s' hs' => ?_
    obtain ⟨next, hn, rfl⟩ := PaySession.transition_eq_some hs'
    obtain rfl := payTransitions_ends.1 hn
    exact ⟨rfl, rfl⟩
  · refine hmutate _ fun s s' hs' => ?_
    obtain ⟨next, hn, rfl⟩ := PaySession.transition_eq_some hs'
    obtain rfl := payTransitions_ends.2.1 hn
    exact ⟨rfl, rfl⟩
  refine hmutate _ fun s s' hs' => ?_
  rcases markPayFailed_eq_some hs' with ⟨hst, rfl⟩ | rfl
  · exact ⟨rfl, by simp [PaySession.started, hst]⟩
  · exact ⟨rfl, rfl⟩

/-- The row may have been given the terms of a start of the session `s`. -/
def RowOf (ans : CreateAnswers) (s : PaySession) (n n' : PayNode) : Prop :=
  n'.row = n.row ∨ ∃ s' r, Created ans s s' ∧ s'.save = some r ∧ n'.row = some r

def Lost (ans : CreateAnswers) (s : PaySession) (n n' : PayNode) : Prop :=
  n'.env = n.env ∧ RowOf ans s n n' ∧ ∃ x, n'.session = some x ∧ x.started = false

theorem startPay_run (hs : n.session = some s) (hfresh : s.state = .created) (hcfg : s.cfg = none) :
    Ensures (· = n) (startPay c ans) (fun _ n' => Begun ans s n n' ∨ Lost ans s n n')
      fun _ n' => Lost ans s n n' := by
  refine .tryCatch ((createSwap_run hs hfresh).post fun _ _ h => .inl h) fun e n' hn' => ?_
  obtain ⟨henv, hsession, hrow⟩ := hn'
  have hunstarted : Unstarted n'.row n'.env n' := by
    refine ⟨rfl, rfl, s, hsession.trans hs, hcfg, ?_⟩
    simp [PaySession.started, hfresh]
  have hlost : ∀ m, Unstarted n'.row n'.env m → Lost ans s n m := by
    rintro m ⟨hr, he, x, hx, -, hst⟩
    refine ⟨he.trans henv, ?_, x, hx, hst⟩
    unfold RowOf
    rw [hr]
    exact hrow
  exact payFail_unstarted.imp (fun _ h => h) (fun _ m h => .inr (hlost m h))
    (fun _ m h => hlost m h) n' hunstarted

/-- After a start there is a session with terms, which were written, or there is none. -/
structure StartOf (invoice : PayInvoice) (ans : CreateAnswers) (n n' : PayNode) : Prop where
  env : n'.env = n.env
  session : ∃ s : PaySession, s.invoice = invoice ∧ s.inFundingWait = false ∧
    ((n'.session = none ∧ RowOf ans s n n') ∨
      ∃ s', Created ans s s' ∧ n'.session = some s' ∧ n'.row = s'.save.or n.row)

theorem PayNode.start_spec :
    StartOf invoice ans n (PayNode.start c n invoice maxFee maxCredit writes ans) := by
  let s₀ : PaySession := { invoice := invoice, maxFeeSat := maxFee, maxCreditSat := maxCredit }
  let n₀ : PayNode := { n with session := some s₀, writes := writes }
  have hlost : ∀ n', Lost ans s₀ n₀ n' →
      StartOf invoice ans n { n' with session := n'.session.filter PaySession.started } := by
    rintro n' ⟨henv, hrow, x, hx, hst⟩
    refine ⟨henv, s₀, rfl, rfl, .inl ⟨?_, hrow⟩⟩
    change n'.session.filter PaySession.started = none
    rw [hx]
    simp [hst]
  refine Node.after_of (I := fun n' => StartOf invoice ans n
    { n' with session := n'.session.filter PaySession.started })
    ((startPay_run (n := n₀) rfl rfl rfl).post ?_) (fun n' hrun => ⟨hrun.1, s₀, rfl, rfl, .inl ⟨rfl, hrun.2.1⟩⟩) (fun _ n' hrun _ => hlost n' hrun) rfl
  rintro _ n' (⟨henv, s', hc, hsession, hrow⟩ | hrun)
  · refine ⟨henv, s₀, rfl, rfl, .inr ⟨s', hc, ?_, hrow⟩⟩
    change n'.session.filter PaySession.started = some s'
    rw [hsession]
    simp [hc.started]
  · exact hlost n' hrun

end Wavelength.Swaps
