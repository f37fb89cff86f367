import Wavelength.Swaps.Receive

/-! # What the preimage is given for

An output is a fair price for the preimage if it is worth the invoice and the credit of the quote,
or comes by refreshes that the client signed from one that is. Every output that a session claims
is fair, as long as the quotes and the live outputs that it follows are.
-/

namespace Wavelength.Swaps

open List Option

/-- The output at `o` is worth `quoted`, or is a refresh of one that is. -/
inductive Fair (worth : String → ℤ) (cosigned : List String) (refreshed : List (String × String))
    (quoted : ℕ) : String → Prop
  | worth {o : String} (h : (quoted : ℤ) ≤ worth o) : Fair worth cosigned refreshed quoted o
  | refresh {old new : String} (ho : Fair worth cosigned refreshed quoted old)
    (hc : old ∈ cosigned) (hr : (old, new) ∈ refreshed) :
    Fair worth cosigned refreshed quoted new

variable {worth : String → ℤ} {q : ℕ} {Q : ℕ → Prop} {s s' : ReceiveSession} {α β : Type}
  {P : ReceiveSession → Prop} {f : ReceiveSession → ReceiveSession} {I : ReceiveNode → Prop}
  {funding : VTXOInfo}

theorem Fair.mono (h : Fair worth C R q o) (hC : C ⊆ C') (hR : R ⊆ R') : Fair worth C' R' q o := by
  induction h with
  | worth h => exact .worth h
  | refresh _ hc hr ih => exact .refresh ih (hC hc) (hR hr)

/-- The amounts of the session are those of a quote that asks for no less than it promised. -/
structure Quoted (s : ReceiveSession) : Prop where
  hash : s.paymentHash ≠ none
  quoted : s.quotedSat = s.amountSat.sat + s.attachedCreditSat.toNat
  requested : s.requestedAmountSat = s.amountSat.toUInt64
  fits : s.quotedSat < 2 ^ 64
  expected : s.quotedSat ≤ s.expectedVHTLCSat.toNat

/-- The output of the session is fair once a recovery is armed for it, and before that if it is
worth anything. -/
structure Claimable (worth : String → ℤ) (C : List String) (R : List (String × String))
    (s : ReceiveSession) : Prop where
  outpoint : s.vhtlcOutpoint ≠ ""
  amount : s.vhtlcAmount ≠ 0
  armed : s.claimRecoveryID ≠ "" → Fair worth C R s.quotedSat s.vhtlcOutpoint
  unarmed : s.claimRecoveryID = "" → 0 < s.vhtlcAmount → Fair worth C R s.quotedSat s.vhtlcOutpoint

def ReceiveState.unfunded : ReceiveState → Bool
  | .created | .invoiceCreated | .htlcEventAccepted => true
  | _ => false

def ReceiveState.quoted : ReceiveState → Bool
  | .invoiceCreated | .htlcEventAccepted | .vhtlcFunded | .claimInitiated => true
  | _ => false

def ReceiveState.funded : ReceiveState → Bool
  | .vhtlcFunded | .claimInitiated => true
  | _ => false

/-- What a session has reached in each state. -/
structure Reached (worth : String → ℤ) (C : List String) (R : List (String × String))
    (s : ReceiveSession) : Prop where
  unarmed : s.state.unfunded = true → s.claimRecoveryID = ""
  quoted : s.state.quoted = true → Quoted s
  claimable : s.state.funded = true → Claimable worth C R s

structure Spends (worth : String → ℤ) (env : ReceiveEnv) : Prop where
  claims : ∀ c ∈ env.claims, Fair worth env.cosigned env.refreshed c.quotedSat c.output.outpoint
  armed : ∀ c ∈ env.armed, Fair worth env.cosigned env.refreshed c.quotedSat c.output.outpoint
  escalated : ∀ c ∈ env.escalated,
    Fair worth env.cosigned env.refreshed c.quotedSat c.output.outpoint

def Sells (worth : String → ℤ) (C : List String) (R : List (String × String)) (Q : ℕ → Prop) :
    ReceiveNode → Prop :=
  Kept (fun _ s => Reached worth C R s ∧ Q s.quotedSat)
    (fun _ r => Reached worth C R (receiveSessionFromRow r))
    (fun env => Spends worth env ∧ env.cosigned = C ∧ env.refreshed = R)

def ReceiveSession.core (s : ReceiveSession) :=
  (s.state, s.claimRecoveryID, s.paymentHash, s.quotedSat, s.amountSat, s.attachedCreditSat,
    s.requestedAmountSat, s.expectedVHTLCSat, s.vhtlcOutpoint, s.vhtlcAmount)

theorem Reached.agrees (h : Reached worth C R s) (hs : s'.core = s.core) :
    Reached worth C R s' := by
  simp only [ReceiveSession.core, Prod.mk.injEq] at hs
  obtain ⟨hst, hid, hhash, hq, ha, hcr, hreq, hexp, ho, hamt⟩ := hs
  constructor
  · rw [hst, hid]
    exact h.unarmed
  · intro hs'
    rw [hst] at hs'
    have hQ := h.quoted hs'
    refine ⟨hhash ▸ hQ.hash, ?_, ?_, hq ▸ hQ.fits, ?_⟩
    · rw [hq, ha, hcr]
      exact hQ.quoted
    · rw [hreq, ha]
      exact hQ.requested
    · rw [hq, hexp]
      exact hQ.expected
  · intro hs'
    rw [hst] at hs'
    have hC := h.claimable hs'
    refine ⟨ho ▸ hC.outpoint, hamt ▸ hC.amount, ?_, ?_⟩
    · rw [hid, hq, ho]
      exact hC.armed
    · rw [hid, hamt, hq, ho]
      exact hC.unarmed

theorem toUInt64_toInt64 (a : UInt64) : a.toInt64.toUInt64 = a := rfl

theorem SatAmount.toNat_toUInt64 (a : SatAmount) : a.toUInt64.toNat = a.sat := by
  have := a.le
  unfold SatAmount.toUInt64
  rw [UInt64.toNat_ofNat']
  omega

theorem SatAmount.toUInt64_ne_zero (a : SatAmount) : a.toUInt64 ≠ 0 := by
  intro h
  have hn := a.toNat_toUInt64
  have hp := a.pos
  rw [h] at hn
  simp at hn
  omega

/-- What is written is what is restored, but for the expected amount, which is built anew. -/
theorem restore_eq (hr : s.save = some r) : receiveSessionFromRow r =
    { s with
      expectedVHTLCSat :=
        (if s.requestedAmountSat = 0 then s.amountSat.toUInt64 else s.requestedAmountSat) +
          s.attachedCreditSat,
      claimIntentRecordedInProcess := false } := by
  obtain ⟨hash, hhash, rfl⟩ := map_eq_some_iff.1 hr
  unfold receiveSessionFromRow receiveExpectedVHTLCSat
  simp only [toUInt64_toInt64]
  rw [← hhash]
  rfl

theorem Reached.restore (h : Reached worth C R s) (hr : s.save = some r) :
    Reached worth C R (receiveSessionFromRow r) := by
  rw [restore_eq hr]
  constructor
  · exact h.unarmed
  · intro hs
    have hq := h.quoted hs
    refine { hq with expected := ?_ }
    -- The amount built anew is the one quoted.
    have hsum : ((if s.requestedAmountSat = 0 then s.amountSat.toUInt64 else s.requestedAmountSat) +
        s.attachedCreditSat).toNat = s.quotedSat := by
      rw [hq.requested, if_neg s.amountSat.toUInt64_ne_zero, UInt64.toNat_add,
        s.amountSat.toNat_toUInt64, ← hq.quoted, Nat.mod_eq_of_lt hq.fits]
    exact Nat.le_of_eq hsum.symm
  · exact fun hs => { h.claimable hs with }

section Handlers

/-- A mutation of a session with `P` that keeps what the session has reached. -/
def Tame (worth : String → ℤ) (C : List String) (R : List (String × String)) (Q : ℕ → Prop)
    (P : ReceiveSession → Prop) (mutate : ReceiveSession → Option ReceiveSession) : Prop :=
  ∀ s s', Reached worth C R s → Q s.quotedSat → P s → mutate s = some s' →
    Reached worth C R s' ∧ Q s'.quotedSat

def Has (P : ReceiveSession → Prop) (n : ReceiveNode) : Prop := ∀ s, n.session = some s → P s

/-- The action turns a session with `P` into one with `P'`, unless it fails. -/
abbrev Leads (worth : String → ℤ) (C : List String) (R : List (String × String)) (Q : ℕ → Prop)
    (P : ReceiveSession → Prop) (m : Receive α) (P' : ReceiveSession → Prop) : Prop :=
  Ensures (fun n => Sells worth C R Q n ∧ Has P n) m (fun _ n => Sells worth C R Q n ∧ Has P' n)
    fun _ => Sells worth C R Q

theorem publish_spec : Leads worth C R Q P publishReceiveForfeitBinding P := by
  apply getSession_bind
  · intro s
    cases receiveForfeitBinding s with
    | none => exact .pure fun _ h => h.1
    | some b =>
      apply Ensures.modify
      rintro n ⟨⟨hn, hP⟩, -⟩
      exact ⟨⟨hn.session, hn.row, { hn.env.1 with }, hn.env.2⟩, hP⟩
  · intro _ _ h
    exact h.1

theorem mutateAndPersistReceive_spec (hm : Tame worth C R Q P mutate) :
    Leads worth C R Q P (mutateAndPersistReceive mutate)
      fun s' => ∃ s, P s ∧ mutate s = some s' := by
  refine .bind (mutateAndPersist_spec ?_ ?_) fun _ => publish_spec
  · intro e s r hs hr
    exact hs.1.restore hr
  · intro e s s' hs hP hs'
    exact hm s s' hs.1 hs.2 hP hs'

theorem mutateAndPersistReceive_keeps (hm : Tame worth C R Q (fun _ => True) mutate) :
    Keeps (Sells worth C R Q) (mutateAndPersistReceive mutate) :=
  (mutateAndPersistReceive_spec hm).imp (fun _ h => ⟨h, fun _ _ => trivial⟩) (fun _ _ h => h.1)
    fun _ _ h => h

/-! ### Transitions -/

theorem transition_eq_some (h : s.transition event = some s') :
    ∃ next, receiveTransitions s.state event = some next ∧ s' = { s with state := next } := by
  obtain ⟨next, hn, rfl⟩ := map_eq_some_iff.1 h
  exact ⟨next, hn, rfl⟩

theorem reached_of_over (hu : s.state.unfunded = false) (hq : s.state.quoted = false) :
    Reached worth C R s := by
  constructor
  · exact fun h => nomatch hu.symm.trans h
  · exact fun h => nomatch hq.symm.trans h
  · intro h
    cases hs : s.state <;> rw [hs] at h hq <;> simp [ReceiveState.funded] at h <;>
      simp [ReceiveState.quoted] at hq

def ReceiveEvent.ends : ReceiveEvent → Bool
  | .completed | .expired | .needsIntervention | .failed => true
  | _ => false

theorem over_of_ends {st next : ReceiveState} (he : event.ends = true)
    (h : receiveTransitions st event = some next) :
    next.unfunded = false ∧ next.quoted = false := by
  cases event <;> simp only [ReceiveEvent.ends, Bool.false_eq_true] at he <;>
    cases st <;> simp only [receiveTransitions, some.injEq, reduceCtorEq] at h <;>
    subst h <;> exact ⟨rfl, rfl⟩

theorem tame_ends (he : event.ends = true) :
    Tame worth C R Q (fun _ => True) (ReceiveSession.transition event) := by
  intro s s' _ hQ _ hs'
  obtain ⟨next, hn, rfl⟩ := transition_eq_some hs'
  have h := over_of_ends he hn
  exact ⟨reached_of_over h.1 h.2, hQ⟩

theorem tame_failed (hf : ∀ s, (f s).quotedSat = s.quotedSat) :
    Tame worth C R Q (fun _ => True) fun s => markReceiveFailed (f s) := by
  intro s s' _ hQ _ hs'
  rw [← hf s] at hQ
  change markReceiveFailed (f s) = some s' at hs'
  unfold markReceiveFailed at hs'
  split at hs'
  · next hst =>
    cases hs'
    exact ⟨reached_of_over (by rw [hst]; rfl) (by rw [hst]; rfl), hQ⟩
  · obtain ⟨next, hn, rfl⟩ := transition_eq_some hs'
    have h := over_of_ends rfl hn
    exact ⟨reached_of_over h.1 h.2, hQ⟩

theorem tame_of_same (hf : ∀ s, Reached worth C R s → Reached worth C R (f s))
    (hq : ∀ s, (f s).quotedSat = s.quotedSat) :
    Tame worth C R Q (fun _ => True) fun s => some (f s) := by
  intro s s' hs hQ _ hs'
  cases hs'
  rw [← hq s] at hQ
  exact ⟨hf s hs, hQ⟩

theorem failTerminal_spec {F : α → ReceiveNode → Prop} (hf : ∀ s, (f s).quotedSat = s.quotedSat) :
    Ensures (Sells worth C R Q) (failTerminal f : Receive α) F fun _ => Sells worth C R Q :=
  .bind (mutateAndPersistReceive_keeps (tame_failed hf)) fun _ => .throw fun _ h => h

theorem completeReceive_keeps : Keeps (Sells worth C R Q) completeReceive :=
  mutateAndPersistReceive_keeps (tame_ends rfl)

theorem receiveFail_keeps : Keeps (Sells worth C R Q) (receiveFail e) := by
  refine getSession_keeps fun s => ?_
  apply handleFailure_keeps
  · exact mutateAndPersistReceive_keeps (tame_ends rfl)
  · exact mutateAndPersistReceive_keeps (tame_ends rfl)
  · exact mutateAndPersistReceive_keeps (tame_failed fun _ => rfl)

/-! ### The event that names the vHTLC -/

theorem acceptPolicy_keeps :
    Keeps (Sells worth C R Q) (acceptPolicy policy settlement ackCursor) := by
  apply mutateAndPersistReceive_keeps
  intro s s' hs hQ _ hs'
  obtain ⟨next, hn, rfl⟩ := transition_eq_some hs'
  cases hst : s.state <;> simp only [hst, receiveTransitions, some.injEq, reduceCtorEq] at hn
  subst hn
  have hquoted := hs.quoted (by rw [hst]; rfl)
  exact ⟨⟨fun _ => hs.unarmed (by rw [hst]; rfl), fun _ => { hquoted with }, nofun⟩, hQ⟩

theorem validateReceiveClaimWindow_keeps : Keeps I (validateReceiveClaimWindow cfg timing height) :=
  callRetryable_keeps.bind fun _ => .pure

theorem acceptOutSwapHtlcEvent_keeps {event : OutSwapHtlcEvent} :
    Keeps (Sells worth C R Q) (acceptOutSwapHtlcEvent cfg event ackCursor height) := by
  have hfail : Keeps (Sells worth C R Q) (failTerminal id : Receive Unit) :=
    failTerminal_spec fun _ => rfl
  refine getSession_keeps fun s => ?_
  refine .ite (fun _ => hfail) fun _ => ?_
  refine .ite (fun _ => hfail) fun _ => ?_
  refine .ite (fun _ => hfail) fun _ => ?_
  refine .ite (fun _ => hfail) fun _ => ?_
  refine .ite (fun _ => hfail) fun _ => ?_
  refine validateReceiveClaimWindow_keeps.bind fun ok => .ite (fun _ => ?_) fun _ => hfail
  cases event.vhtlcConfig.swapServerPubkey with
  | none => exact .throw
  | some sender => exact .ite (fun _ => acceptPolicy_keeps) fun _ => .throw

theorem acceptInArkHtlcEvent_keeps {event : InArkHtlcEvent} :
    Keeps (Sells worth C R Q) (acceptInArkHtlcEvent cfg event ackCursor height) := by
  have hfail : Keeps (Sells worth C R Q) (failTerminal id : Receive Unit) :=
    failTerminal_spec fun _ => rfl
  have hwindow : Keeps (Sells worth C R Q) (admitClaimWindow cfg event height) := by
    refine .ite (fun _ => ?_) fun _ => .pure
    exact validateReceiveClaimWindow_keeps.bind fun _ => .ite (fun _ => .pure) fun _ => hfail
  refine getSession_keeps fun s => ?_
  refine .ite (fun _ => hfail) fun _ => ?_
  refine .ite (fun _ => hfail) fun _ => ?_
  cases event.senderPubkey with
  | none => exact .throw
  | some sender =>
    cases event.vhtlcConfig.swapServerPubkey with
    | none => exact .throw
    | some cfgSender =>
      refine .ite (fun _ => hfail) fun _ => hwindow.bind fun _ => ?_
      exact .ite (fun _ => acceptPolicy_keeps) fun _ => .throw

theorem ackAcceptedHTLCEvent_keeps : Keeps (Sells worth C R Q) (ackAcceptedHTLCEvent ans) := by
  have hserver : Keeps (Sells worth C R Q) (acknowledgeOutSwapHTLC ans) := by
    refine getSession_keeps fun s => .ite (fun _ => .pure) fun _ => ?_
    refine callRetryable_keeps.bind fun _ => ?_
    cases ans.server with
    | ok _ => exact .pure
    | error e =>
      cases e with
      | terminal | transient => exact .throw
  refine getSession_keeps fun s => .ite (fun _ => .pure) fun _ => ?_
  refine callRetryable_keeps.bind fun _ => hserver.bind fun _ => retryable_keeps ?_
  refine mutateAndPersistReceive_keeps (tame_of_same (fun s hs => ?_) fun _ => rfl)
  exact hs.agrees rfl

theorem waitForHTLCEvent_keeps : Keeps (Sells worth C R Q) (waitForHTLCEvent cfg ans) := by
  refine call_keeps.bind fun _ => ?_
  cases ans.notification with
  | error e =>
    cases e with
    | invoiceDeadline | remote e => exact .throw
  | ok n =>
    cases n with
    | none => exact .throw
    | some n =>
      refine .ite (fun _ => .throw) fun _ => .bind ?_ fun _ => ackAcceptedHTLCEvent_keeps
      unfold acceptIncomingVHTLCNotification
      cases n.event with
      | outSwap e => exact acceptOutSwapHtlcEvent_keeps
      | inArk e => exact acceptInArkHtlcEvent_keeps
      | empty => exact .throw

/-! ### The funding -/

def Funded (s : ReceiveSession) : Prop := s.state.funded = true

def Armed (s : ReceiveSession) : Prop := Funded s ∧ s.claimRecoveryID ≠ ""

theorem unfunded_of_funded {st : ReceiveState} (h : st.funded = true) : st.unfunded = false := by
  cases st <;> simp only [ReceiveState.funded, Bool.false_eq_true] at h <;> rfl

theorem update_spec {P' : ReceiveSession → Prop}
    (hf : ∀ s, Reached worth C R s → Q s.quotedSat → P s → Reached worth C R (f s))
    (hq : ∀ s, (f s).quotedSat = s.quotedSat) (hP : ∀ s, P s → P' (f s)) :
    Leads worth C R Q P (mutateAndPersistReceive fun s => some (f s)) P' := by
  have htame : Tame worth C R Q P fun s => some (f s) := by
    intro s s' hs hQ hPs hs'
    cases hs'
    rw [← hq s] at hQ
    exact ⟨hf s hs (hq s ▸ hQ) hPs, hQ⟩
  refine (mutateAndPersistReceive_spec htame).post fun _ n hn => ⟨hn.1, fun s' hs' => ?_⟩
  obtain ⟨s, hPs, hs⟩ := hn.2 s' hs'
  cases hs
  exact hP s hPs

theorem ensureReceiveClaimRecoveryArmed_spec :
    Leads worth C R Q Funded (ensureReceiveClaimRecoveryArmed reply) Armed := by
  refine getSession_bind (fun s => ?_) fun _ _ h => h.1
  refine .ite (fun hid => ?_) fun hid => ?_
  · exact .pure fun n hn => ⟨hn.1.1, forall_some hn.2 ⟨hn.1.2 s hn.2, hid⟩⟩
  refine .ite (fun _ => .throw fun _ h => h.1.1) fun hamount => ?_
  refine .ite (fun _ => .throw fun _ h => h.1.1) fun _ => ?_
  have hid : s.claimRecoveryID = "" := Decidable.not_not.1 hid
  have hpos : 0 < s.vhtlcAmount := by
    by_contra hle
    exact hamount (.inr (by omega))
  let P : ReceiveSession → Prop := fun s => Funded s ∧ Fair worth C R s.quotedSat s.vhtlcOutpoint
  have harm : Ensures (fun n => (Sells worth C R Q n ∧ Has Funded n) ∧ n.session = some s)
      (modifyEnv fun env =>
        { env with armed := env.armed.or (some ⟨⟨s.vhtlcOutpoint, s.vhtlcAmount⟩, s.quotedSat⟩) })
      (fun _ n => Sells worth C R Q n ∧ Has P n) fun _ => Sells worth C R Q := by
    refine .modify fun n ⟨⟨hn, hfund⟩, hs⟩ => ?_
    have hfunded := hfund s hs
    have hfair := ((hn.session s hs).1.claimable hfunded).unarmed hid hpos
    refine ⟨⟨hn.session, hn.row, { hn.env.1 with armed := fun c hc => ?_ }, hn.env.2⟩,
      forall_some hs ⟨hfunded, hfair⟩⟩
    rcases or_eq_some_iff.1 hc with hc | ⟨-, hc⟩
    · exact hn.env.1.armed c hc
    cases hc
    change Fair worth n.env.cosigned n.env.refreshed _ _
    rw [hn.env.2.1, hn.env.2.2]
    exact hfair
  cases reply with
  | error done =>
    refine .bind (Q := fun _ => Sells worth C R Q) ?_ fun _ => .throw fun _ h => h
    cases done with
    | false => exact .pure fun _ h => h.1.1
    | true => exact harm.post fun _ _ h => h.1
  | ok recoveryID =>
    refine harm.bind fun _ => .ite (fun _ => .throw fun _ h => h.1) fun hne => ?_
    refine update_spec (fun s hs _ hP => ?_) (fun _ => rfl) fun s hP => ⟨hP.1, hne⟩
    have hc := hs.claimable hP.1
    constructor
    · exact fun hun => nomatch (unfunded_of_funded hP.1).symm.trans hun
    · exact fun hst => { hs.quoted hst with }
    · exact fun _ => ⟨hc.outpoint, hc.amount, fun _ => hP.2, fun h => absurd h hne⟩

theorem waitForVHTLC_spec (polls : List FundingPoll) :
    Ensures I (waitForVHTLC cfg refundLocktime polls)
      (fun vtxo n => I n ∧ ∃ p ∈ polls, p.live = some vtxo) fun _ => I := by
  induction polls with
  | nil => exact .throw fun _ h => h
  | cons poll polls ih =>
    have ih' := ih.post fun vtxo n ⟨hn, p, hp, hl⟩ =>
      (⟨hn, p, mem_cons_of_mem _ hp, hl⟩ : I n ∧ ∃ p ∈ poll :: polls, p.live = some vtxo)
    unfold waitForVHTLC
    cases hl : poll.live with
    | some vtxo => exact .pure fun _ h => ⟨h, poll, mem_cons_self, hl⟩
    | none =>
      cases poll.height with
      | none => exact ih'
      | some height => exact .ite (fun _ => ih') fun _ => .throw fun _ h => h

theorem validateReceiveFunding_spec :
    Leads worth C R Q P (validateReceiveFunding funding)
      fun s => P s ∧ funding.amountSat = (expectedOrInvoiceSat s).toInt64.toInt := by
  refine getSession_bind (fun s => .ite (fun _ => ?_) fun hamount => ?_) fun _ _ h => h.1
  · exact .pre (failTerminal_spec fun _ => rfl) fun n hn => hn.1.1
  · exact .pure fun n hn => ⟨hn.1.1, forall_some hn.2 ⟨hn.1.2 s hn.2, Decidable.not_not.1 hamount⟩⟩

theorem toInt_toInt64 (a : UInt64) :
    a.toInt64.toInt = if 2 * a.toNat < 2 ^ 64 then (a.toNat : ℤ) else a.toNat - (2 ^ 64 : ℕ) :=
  a.toBitVec.toInt_eq_toNat_cond

/-- An amount that is the expected one covers the quote, unless it is negative. -/
theorem Quoted.amount_covers (h : Quoted s) (ha : a = (expectedOrInvoiceSat s).toInt64.toInt) :
    a ≠ 0 ∧ (0 < a → (s.quotedSat : ℤ) ≤ a) := by
  have hexp := h.expected
  have hlt := s.expectedVHTLCSat.toNat_lt
  have hpos : 0 < s.quotedSat := by
    have := h.quoted
    have := s.amountSat.pos
    omega
  have hne : s.expectedVHTLCSat ≠ 0 := by
    intro h0
    rw [h0] at hexp
    exact absurd (Nat.lt_of_lt_of_le hpos hexp) (Nat.lt_irrefl 0)
  rw [ha, expectedOrInvoiceSat, if_neg hne, toInt_toInt64]
  split <;> omega

variable (hw : worth funding.outpoint = funding.amountSat) (ho : funding.outpoint ≠ "")
include hw ho

theorem recordFunding_spec :
    Leads worth C R Q (fun s => funding.amountSat = (expectedOrInvoiceSat s).toInt64.toInt)
      (recordFunding funding) Funded := by
  refine (mutateAndPersistReceive_spec fun s s' hs hQ hamount hs' => ?_).post
    fun _ n hn => ⟨hn.1, fun s' hs' => ?_⟩
  · obtain ⟨next, hn, rfl⟩ := transition_eq_some hs'
    cases hst : s.state <;>
      simp only [hst, receiveTransitions, some.injEq, reduceCtorEq] at hn
    subst hn
    have hquoted := hs.quoted (by rw [hst]; rfl)
    have hid := hs.unarmed (by rw [hst]; rfl)
    have hcover := hquoted.amount_covers hamount
    refine ⟨⟨nofun, fun _ => { hquoted with }, fun _ => ⟨ho, hcover.1, fun h => absurd hid h,
      fun _ hpos => .worth ?_⟩⟩, hQ⟩
    change (s.quotedSat : ℤ) ≤ worth funding.outpoint
    rw [hw]
    exact hcover.2 hpos
  · obtain ⟨s, -, hs⟩ := hn.2 s' hs'
    obtain ⟨next, hnext, rfl⟩ := transition_eq_some hs
    cases hst : s.state <;>
      simp only [hst, receiveTransitions, some.injEq, reduceCtorEq] at hnext
    subst hnext
    rfl

/-- The funding is checked, recorded and covered by a recovery. -/
theorem fund_spec :
    Keeps (Sells worth C R Q) (do
      validateReceiveFunding funding
      recordFunding funding
      ensureReceiveClaimRecoveryArmed reply) := by
  refine .pre (.bind validateReceiveFunding_spec fun _ => ?_)
    fun _ h => ⟨h, fun _ _ => (trivial : True)⟩
  refine .bind ((recordFunding_spec hw ho).pre fun _ h => ⟨h.1, fun s hs => (h.2 s hs).2⟩)
    fun _ => ?_
  exact ensureReceiveClaimRecoveryArmed_spec.post fun _ _ h => h.1

omit hw ho

theorem waitForFunding_keeps
    (h : ∀ p ∈ ans.polls, ∀ v, p.live = some v → worth v.outpoint = v.amountSat ∧ v.outpoint ≠ "") :
    Keeps (Sells worth C R Q) (waitForFunding cfg ans) := by
  refine ackAcceptedHTLCEvent_keeps.bind fun _ => getSession_keeps fun s => ?_
  cases s.vhtlcPolicy with
  | none => exact .throw
  | some policy =>
    refine (waitForVHTLC_spec ans.polls).bind fun funding => ?_
    rintro n ⟨hn, p, hp, hl⟩
    obtain ⟨hw, ho⟩ := h p hp funding hl
    exact fund_spec hw ho n hn

/-! ### The claim -/

theorem rememberReceiveFunding_spec
    (hP : ∀ s o a, P s → P { s with vhtlcOutpoint := o, vhtlcAmount := a })
    (hun : ∀ s, P s → s.state.unfunded = false) (hfair : ∀ s, P s → Q s.quotedSat → Funded s →
      outpoint ≠ "" ∧ Fair worth C R s.quotedSat outpoint) :
    Leads worth C R Q P (rememberReceiveFunding outpoint amount) P := by
  refine getSession_bind (fun s => .ite (fun _ => .pure fun _ h => h.1) fun _ => ?_)
    fun _ _ h => h.1
  refine .pre (update_spec (fun s hs hQ hPs => ?_) (fun _ => rfl) fun s hPs => hP s _ _ hPs)
    fun _ h => h.1
  constructor
  · exact fun h => nomatch (hun s hPs).symm.trans h
  · exact fun hst => { hs.quoted hst with }
  intro hst
  have hc := hs.claimable hst
  obtain ⟨ho, hf⟩ := hfair s hPs hQ hst
  simp only [ne_eq, ho, not_false_eq_true, if_true]
  refine ⟨ho, ?_, fun _ => hf, fun _ _ => hf⟩
  change (if ¬ amount = 0 then amount else s.vhtlcAmount) ≠ 0
  split
  · next ha => exact ha
  · exact hc.amount

theorem claimReceiveVHTLC_spec (hP : ∀ s, P s → Fair worth C R s.quotedSat s.vhtlcOutpoint) (k : ℕ)
    (attempts : List ClaimAttempt) :
    Keeps (fun n => Sells worth C R Q n ∧ Has P n) (claimReceiveVHTLC k attempts) := by
  induction k generalizing attempts with
  | zero => exact .throw
  | succ k ih =>
    cases attempts with
    | nil => exact .throw
    | cons attempt attempts =>
      refine getSession_bind (fun s => ?_) fun _ _ h => h
      refine .bind (Q := fun _ n => Sells worth C R Q n ∧ Has P n)
        (.modify fun n hn => ?_) fun _ => ?_
      · obtain ⟨⟨hn, hPn⟩, hs⟩ := hn
        refine ⟨⟨hn.session, hn.row, { hn.env.1 with claims := fun c hc => ?_ }, hn.env.2⟩, hPn⟩
        rcases mem_append.1 hc with hc | hc
        · exact hn.env.1.claims c hc
        obtain rfl := mem_singleton.1 hc
        change Fair worth n.env.cosigned n.env.refreshed _ _
        rw [hn.env.2.1, hn.env.2.2]
        exact hP s (hPn s hs)
      · cases attempt.send with
        | ok claimSessionID => exact Keeps.pure
        | error e =>
          refine Keeps.bind ?_ fun b => Keeps.ite (fun _ => Keeps.pure) fun _ =>
            .ite (fun _ => .throw) fun _ => ih attempts
          cases attempt.indexed with
          | claimed | unclaimed => exact .pure
          | spentWithoutPreimage | error e => exact .throw

theorem completeIndexedClaim_keeps : Keeps (Sells worth C R Q) (completeIndexedClaim cancel) :=
  callRetryable_keeps.bind fun _ => completeReceive_keeps

theorem maybeEscalateReceiveClaimRecovery_keeps :
    Keeps (Sells worth C R Q) (maybeEscalateReceiveClaimRecovery esc) := by
  have hesc : Keeps (Sells worth C R Q)
      (modifyEnv fun env => { env with escalated := env.escalated ++ env.armed.toList }) := by
    refine .modify fun n hn =>
      ⟨hn.session, hn.row, { hn.env.1 with escalated := fun c hc => ?_ }, hn.env.2⟩
    rcases mem_append.1 hc with hc | hc
    · exact hn.env.1.escalated c hc
    · exact hn.env.1.armed c (mem_toList.1 hc)
  refine getSession_keeps fun s => .ite (fun _ => .pure) fun _ => ?_
  cases esc with
  | deferred => exact .pure
  | escalated => exact hesc
  | failed done =>
    refine .bind ?_ fun _ => .throw
    cases done with
    | false => exact .pure
    | true => exact hesc

/-- A recovery that has not taken the claim over leaves the session as it was. -/
theorem reconcileReceiveClaimRecovery_spec {reply : RecoveryReply} :
    Ensures (fun n => Sells worth C R Q n ∧ Has P n) (reconcileReceiveClaimRecovery reply)
      (fun b n => Sells worth C R Q n ∧ (b = false → Has P n)) fun _ => Sells worth C R Q := by
  refine getSession_bind (fun s => ?_) fun _ _ h => h.1
  refine .ite (fun _ => .pure fun _ h => ⟨h.1.1, fun _ => h.1.2⟩) fun _ => ?_
  cases reply with
  | error e => exact .throw fun _ h => h.1.1
  | dormant => exact .pure fun _ h => ⟨h.1.1, fun _ => h.1.2⟩
  | active => exact .pure fun _ h => ⟨h.1.1, nofun⟩
  | completed =>
    refine .pre (.bind completeReceive_keeps fun _ => ?_) fun _ h => h.1.1
    exact .pure fun _ h => ⟨h, nofun⟩
  | failed => exact .pre (failTerminal_spec fun _ => rfl) fun _ h => h.1.1

theorem reconcileIndexedClaim_keeps : Keeps I (reconcileIndexedClaim l) := by
  cases l with
  | claimed | unclaimed => exact .pure
  | spentWithoutPreimage | error e => exact .throw

theorem resolveClaimSession_keeps : Keeps (Sells worth C R Q) (resolveClaimSession ans) := by
  have hrecovery : Keeps (Sells worth C R Q) (reconcileReceiveClaimRecovery ans.recovery) :=
    (reconcileReceiveClaimRecovery_spec (P := fun _ => True)).imp
      (fun _ h => ⟨h, fun _ _ => trivial⟩) (fun _ _ h => h.1) fun _ _ h => h
  have hfailed : ∀ beforePONR,
      Keeps (Sells worth C R Q) (handleFailedClaimSession beforePONR ans) := by
    intro beforePONR
    refine .ite (fun _ => .bind (retryable_keeps ?_) fun _ =>
      maybeEscalateReceiveClaimRecovery_keeps) fun _ => ?_
    · exact mutateAndPersistReceive_keeps (tame_of_same (fun s hs => hs.agrees rfl) fun _ => rfl)
    refine reconcileIndexedClaim_keeps.bind fun _ =>
      .ite (fun _ => completeIndexedClaim_keeps) fun _ => ?_
    refine maybeEscalateReceiveClaimRecovery_keeps.bind fun _ =>
      .bind (retryable_keeps hrecovery) fun _ => ?_
    exact .ite (fun _ => .pure) fun _ => .throw
  refine callRetryable_keeps.bind fun status => ?_
  cases status with
  | pending => exact .pure
  | completed => exact callRetryable_keeps.bind fun _ => retryable_keeps completeReceive_keeps
  | failed beforePONR => exact hfailed beforePONR

theorem persistClaimSessionID_keeps :
    Keeps (Sells worth C R Q) (persistClaimSessionID claimSessionID) := by
  refine getSession_bind (fun s => ?_) fun _ _ h => h
  refine .bind (Q := fun _ => Sells worth C R Q) (.modify fun n hn => ?_) fun _ => ?_
  · have hs := hn.1.session s hn.2
    exact hn.1.setSession ⟨hs.1.agrees rfl, hs.2⟩
  · exact persist_spec fun _ _ _ hs hr => hs.1.restore hr

theorem submitClaim_spec :
    Ensures (fun n => Sells worth C R Q n ∧ Has Armed n) (submitClaim cfg ans)
      (fun _ => Sells worth C R Q) fun _ => Sells worth C R Q := by
  let Sold : ReceiveSession → Prop := fun s => Fair worth C R s.quotedSat s.vhtlcOutpoint
  have hclaim : Ensures (fun n => Sells worth C R Q n ∧ Has Armed n)
      (some <$> claimReceiveVHTLC cfg.claimMaxAttempts ans.attempts)
      (fun _ => Sells worth C R Q) fun _ => Sells worth C R Q := by
    rw [map_eq_pure_bind]
    refine .imp (.bind
      (claimReceiveVHTLC_spec (P := Sold) (fun _ h => h) _ _) fun _ => Keeps.pure)
      (fun n hn => ⟨hn.1, fun s hs => ?_⟩) (fun _ _ h => h.1) fun _ _ h => h.1
    have harmed := hn.2 s hs
    exact ((hn.1.session s hs).1.claimable harmed.1).armed harmed.2
  refine .bind (.tryCatch hclaim fun e =>
    .ite (fun _ => .throw fun _ h => h) fun _ => .ret)
    fun sent => ?_
  rcases sent with _ | _ | claimSessionID
  · exact maybeEscalateReceiveClaimRecovery_keeps
  · exact completeIndexedClaim_keeps
  refine Keeps.ite (fun _ => Keeps.throw) fun _ =>
    .bind (retryable_keeps persistClaimSessionID_keeps) fun _ => ?_
  refine getSession_bind (fun s => ?_) fun _ _ h => h
  refine .bind (Q := fun _ => Sells worth C R Q) (.modify fun n hn => ?_)
    fun _ => resolveClaimSession_keeps
  have hs := hn.1.session s hn.2
  exact hn.1.setSession ⟨hs.1.agrees rfl, hs.2⟩

/-- The claim of a funded session, where the live output at the script is fair. -/
theorem claimFundedVHTLC_spec
    (hlive : s.claimSessionID = "" → ∀ q, Q q → ∀ v, ans.live = .ok (some v) → v.outpoint ≠ "" →
      Fair worth C R q v.outpoint) :
    Ensures (fun n => (Sells worth C R Q n ∧ Has Funded n) ∧ n.session = some s)
      (claimFundedVHTLC cfg ans) (fun _ => Sells worth C R Q) fun _ => Sells worth C R Q := by
  refine getSession_bind (fun t => ?_) fun _ _ h => h.1.1
  by_cases hts : t = s
  swap
  · intro n hn
    exact absurd (some.inj (hn.2.symm.trans hn.1.2)) hts
  subst hts
  refine .pre (P := fun n => Sells worth C R Q n ∧ Has Funded n) ?_ fun _ h => h.1.1
  refine .ite (fun _ => resolveClaimSession_keeps.pre fun _ h => h.1) fun hid => ?_
  have hlive := hlive (Decidable.not_not.1 hid)
  refine .bind (reconcileIndexedClaim_keeps.onError fun _ _ h => h.1) fun _ => ?_
  refine .ite (fun _ => completeIndexedClaim_keeps.pre fun _ h => h.1) fun _ => ?_
  have hinfo : Leads worth C R Q Funded (ensureClaimReceiveInfo ans.receiveInfo) Funded := by
    refine getSession_bind (fun s => .pre (P := fun n => Sells worth C R Q n ∧ Has Funded n)
      ?_ fun _ h => h.1) fun _ _ h => h.1
    refine .ite (fun _ => .ret) fun _ => ?_
    refine .bind (callRetryable_keeps.onError fun _ _ h => h.1) fun _ => ?_
    refine .ite (fun _ => ?_) fun _ => .throw fun _ h => h.1
    exact update_spec (fun s hs _ _ => hs.agrees rfl) (fun _ => rfl) fun _ h => h
  have hpossible :
      Leads worth C R Q Armed (ensureReceiveClaimStillPossible cfg ans.height) Armed := by
    refine .bind (callRetryable_keeps.onError fun _ _ h => h.1) fun height => ?_
    refine getSession_bind (fun s => .pre (P := fun n => Sells worth C R Q n ∧ Has Armed n)
      ?_ fun _ h => h.1) fun _ _ h => h.1
    refine .ite (fun _ => ?_) fun _ => .ret
    refine .bind (Q := fun _ => Sells worth C R Q) ?_ fun _ => .throw fun _ h => h
    exact (mutateAndPersistReceive_keeps (tame_ends rfl)).pre fun _ h => h.1
  have hreconcile : Leads worth C R Q Armed (reconcileLiveReceiveFunding ans.live) Armed := by
    unfold reconcileLiveReceiveFunding
    split
    · next v hv =>
      refine .ite (fun _ => .ret) fun ho => ?_
      apply rememberReceiveFunding_spec
      · exact fun _ _ _ h => h
      · exact fun _ h => unfunded_of_funded h.1
      · exact fun _ _ hQ _ => ⟨ho, hlive _ hQ v hv ho⟩
    · exact .ret
  refine hinfo.bind fun _ => ensureReceiveClaimRecoveryArmed_spec.bind fun _ => ?_
  refine (retryable_keeps reconcileReceiveClaimRecovery_spec).bind fun done => ?_
  cases done with
  | true => exact .pure fun _ h => h.1
  | false =>
    refine .pre ?_ fun n (hn : Sells worth C R Q n ∧ (false = false → Has Armed n)) =>
      (⟨hn.1, hn.2 rfl⟩ : Sells worth C R Q n ∧ Has Armed n)
    exact hpossible.bind fun _ => hreconcile.bind fun _ => submitClaim_spec

/-! ### The invoice -/

/-- A quote that asks the sender for no less than the invoice and the credit; where credit is
attached the client sees to that itself. -/
def RouteQuote.Covers (quote : RouteQuote) (amountSat : SatAmount) : Prop :=
  0 < quote.attachedCreditSat ∨ quote.vhtlcAmountSat = 0 ∨
    amountSat.sat ≤ quote.vhtlcAmountSat.toNat

theorem quoteAmounts_spec (hc : quote.Covers amountSat)
    (h : quoteAmounts amountSat quote = some (requested, expected)) :
    requested = amountSat.toUInt64 ∧ amountSat.sat + quote.attachedCreditSat.toNat < 2 ^ 64 ∧
      amountSat.sat + quote.attachedCreditSat.toNat ≤ expected.toNat := by
  unfold quoteAmounts at h
  dsimp only at h
  generalize hr : (if quote.requestedAmountSat = 0 then amountSat.toUInt64
    else quote.requestedAmountSat) = r at h
  generalize he : (if quote.vhtlcAmountSat = 0 then r else quote.vhtlcAmountSat) = e at h
  simp only [ne_eq, ite_not] at h
  split at h
  · next heq =>
    split at h
    · cases h
    next hmax =>
    split at h
    · cases h
    next hsum =>
    obtain ⟨rfl, rfl⟩ := Prod.mk.inj (some.inj h)
    have hsat := amountSat.toNat_toUInt64
    rw [← heq] at hsat
    have hlt := r.toNat_lt
    have hmaxNat : maxUint64.toNat = 2 ^ 64 - 1 := rfl
    have hroom : quote.attachedCreditSat.toNat ≤ 2 ^ 64 - 1 - r.toNat := by
      have hle : r ≤ maxUint64 := UInt64.le_iff_toNat_le.2 (by omega)
      have hsub := UInt64.toNat_sub_of_le _ _ hle
      have hn := UInt64.not_lt.1 hmax
      rw [UInt64.le_iff_toNat_le, hsub, hmaxNat] at hn
      exact hn
    refine ⟨heq, by omega, ?_⟩
    by_cases hcredit : 0 < quote.attachedCreditSat
    · have hsum' : e = r + quote.attachedCreditSat := by
        by_contra hne
        exact hsum ⟨hcredit, hne⟩
      rw [hsum', UInt64.toNat_add, Nat.mod_eq_of_lt (by omega)]
      omega
    · have hzero : quote.attachedCreditSat.toNat = 0 := by
        have := UInt64.not_lt.1 hcredit
        rw [UInt64.le_iff_toNat_le] at this
        simpa using this
      rcases hc with hc | hc | hc
      · exact absurd hc hcredit
      · rw [if_pos hc] at he
        rw [← he]
        omega
      · split at he <;> rw [← he] <;> omega
  · cases h

theorem prepareInvoice_spec
    (hquote : ∀ s quote, P s → ans.quote = .ok (some quote) → quote.Covers s.amountSat) :
    Ensures (fun n => Sells worth C R (fun _ => True) n ∧ Has P n) (prepareInvoice ans)
      (fun _ => Sells worth C R fun _ => True) fun _ => Sells worth C R fun _ => True := by
  refine getSession_bind (fun s => ?_) fun _ _ h => h.1
  by_cases hPs : P s
  swap
  · intro n hn
    exact absurd (hn.1.2 s hn.2) hPs
  let P' : ReceiveSession → Prop := fun s' => s' = s
  refine .pre (P := fun n => Sells worth C R (fun _ => True) n ∧ Has P' n) ?_ fun n hn =>
    ⟨hn.1.1, fun s' hs' => some.inj (hs'.symm.trans hn.2)⟩
  have hkeep : ∀ {β : Type} {m : Receive β}, (∀ I, Keeps I m) →
      Ensures (fun n => Sells worth C R (fun _ => True) n ∧ Has P' n) m
        (fun _ n => Sells worth C R (fun _ => True) n ∧ Has P' n)
        fun _ => Sells worth C R fun _ => True := fun hm =>
    (hm _).onError fun _ _ h => h.1
  refine (hkeep fun _ => callRetryable_keeps).bind fun _ => ?_
  refine (hkeep fun _ => call_keeps).bind fun _ => ?_
  cases hans : ans.quote with
  | error e => exact .throw fun _ h => h.1
  | ok quote =>
  cases quote with
  | none => exact .throw fun _ h => h.1
  | some quote =>
  refine .ite (fun _ => ?_) fun _ => .throw fun _ h => h.1
  cases hamounts : quoteAmounts s.amountSat quote with
  | none => exact .throw fun _ h => h.1
  | some amounts =>
  obtain ⟨requested, expected⟩ := amounts
  have hspec := quoteAmounts_spec (hquote s quote hPs hans) hamounts
  refine (hkeep fun _ => call_keeps).bind fun hash => ?_
  refine .ite (fun _ => ?_) fun _ => .throw fun _ h => h.1
  refine (mutateAndPersistReceive_spec ?_).post fun _ _ h => h.1
  intro t s' ht _ hts hs'
  rw [show t = s from hts] at ht hs'
  obtain ⟨next, hn, rfl⟩ := transition_eq_some hs'
  cases hst : s.state <;>
    simp only [hst, receiveTransitions, some.injEq, reduceCtorEq] at hn
  subst hn
  exact ⟨⟨fun _ => ht.unarmed (by rw [hst]; rfl),
    fun _ => ⟨nofun, rfl, hspec.1, hspec.2.1, hspec.2.2⟩, nofun⟩, trivial⟩

theorem claimReceive_keeps (hw : worth outpoint = amount) (ho : outpoint ≠ "") :
    Keeps (Sells worth C R Q) (claimReceive outpoint amount reply) := by
  refine getSession_bind (fun s => ?_) fun _ _ h => h
  have hremember : ∀ o a, s.state.unfunded = false →
      Ensures (fun n => Sells worth C R Q n ∧ n.session = some s)
        (if s.vhtlcOutpoint = "" ∨ s.vhtlcAmount = 0 then rememberReceiveFunding o a else pure ())
        (fun _ => Sells worth C R Q) fun _ => Sells worth C R Q := by
    intro o a hun
    refine .ite (fun hempty => ?_) fun _ => .pure fun _ h => h.1
    by_cases hfund : Funded s
    · -- A funded session has both, so there is nothing to fill in.
      intro n hn
      have hc := (hn.1.session s hn.2).1.claimable hfund
      rcases hempty with h | h
      · exact absurd h hc.outpoint
      · exact absurd h hc.amount
    · let P : ReceiveSession → Prop := fun s' => s'.state = s.state
      refine (rememberReceiveFunding_spec (P := P) (fun _ _ _ h => h) ?_ ?_).imp
        (fun n hn => ⟨hn.1, forall_some hn.2 rfl⟩) (fun _ _ h => h.1) fun _ _ h => h
      · intro s' hs'
        rw [hs']
        exact hun
      intro s' hs' _ hfund'
      unfold Funded at hfund hfund'
      rw [hs'] at hfund'
      exact absurd hfund' hfund
  cases hst : s.state
  case htlcEventAccepted => exact (fund_spec hw ho).pre fun _ h => h.1
  case vhtlcFunded => exact hremember _ _ (by rw [hst]; rfl)
  case claimInitiated => exact hremember _ _ (by rw [hst]; rfl)
  case completed => exact hremember _ _ (by rw [hst]; rfl)
  all_goals exact .throw fun _ h => h.1

end Handlers

/-! ## Runs -/

/-- What is reported of an output is what it is worth. -/
def ReceiveAction.Truthful (worth : String → ℤ) : ReceiveAction → Prop
  | .advance _ ans =>
    (∀ p ∈ ans.funding.polls, ∀ v, p.live = some v → worth v.outpoint = v.amountSat) ∧
      ∀ v, ans.claim.live = .ok (some v) → worth v.outpoint = v.amountSat
  | .claim _ outpoint amount _ => worth outpoint = amount
  | _ => True

/-- The quote covers the invoice even without credit, a funding report names its output, and the
live output found before a claim is a fair one. -/
def ReceiveAction.Sufficient (worth : String → ℤ) (n : ReceiveNode) : ReceiveAction → Prop
  | .advance _ ans => ∀ s, n.session = some s →
    (s.state = .created →
      ∀ quote, ans.invoice.quote = .ok (some quote) → quote.Covers s.amountSat) ∧
    (s.state = .htlcEventAccepted →
      ∀ p ∈ ans.funding.polls, ∀ v, p.live = some v → v.outpoint ≠ "") ∧
    (s.state = .claimInitiated → s.claimSessionID = "" →
      ∀ v, ans.claim.live = .ok (some v) → v.outpoint ≠ "" →
        Fair worth n.env.cosigned n.env.refreshed s.quotedSat v.outpoint)
  | .claim _ outpoint _ _ => outpoint ≠ ""
  | _ => True

def ReceiveNode.Fairly (worth : String → ℤ) (n : ReceiveNode) : Prop :=
  Sells worth n.env.cosigned n.env.refreshed (fun _ => True) n

theorem Sells.imp {Q' : ℕ → Prop} (h : Sells worth C R Q n)
    (hQ : ∀ s, n.session = some s → Q s.quotedSat → Q' s.quotedSat) : Sells worth C R Q' n :=
  ⟨fun s hs => ⟨(h.session s hs).1, hQ s hs (h.session s hs).2⟩, h.row, h.env⟩

theorem Sells.fairly (h : Sells worth C R Q n) : ReceiveNode.Fairly worth n := by
  obtain ⟨hsession, hrow, hspends, hC, hR⟩ := h
  unfold ReceiveNode.Fairly
  rw [hC, hR]
  exact ⟨fun s hs => ⟨(hsession s hs).1, trivial⟩, hrow, hspends, hC, hR⟩

theorem Sells.after (h : Sells worth C R Q n)
    (hm : Ensures (fun n' => Sells worth C R Q n' ∧ n'.session = n.session) m
      (fun _ => Sells worth C R Q) fun _ => Sells worth C R Q) :
    ReceiveNode.Fairly worth (n.after m) := by
  exact Sells.fairly (Node.after_of hm (fun _ => Kept.dropSession) (fun _ _ h _ => h) ⟨h, rfl⟩)

theorem Reached.mono (h : Reached worth C R s) (hC : C ⊆ C') (hR : R ⊆ R') :
    Reached worth C' R' s := by
  refine ⟨h.unarmed, h.quoted, fun hs => ?_⟩
  have hc := h.claimable hs
  exact ⟨hc.outpoint, hc.amount, fun h => (hc.armed h).mono hC hR,
    fun h h' => (hc.unarmed h h').mono hC hR⟩

theorem ReceiveNode.Fairly.extend (h : ReceiveNode.Fairly worth n)
    (hC : n.env.cosigned ⊆ C') (hR : n.env.refreshed ⊆ R') :
    ReceiveNode.Fairly worth { n with env := { n.env with cosigned := C', refreshed := R' } } := by
  have hs := h.env.1
  refine ⟨fun s h' => ⟨(h.session s h').1.mono hC hR, trivial⟩,
    fun r h' => (h.row r h').mono hC hR, ⟨?_, ?_, ?_⟩, rfl, rfl⟩
  · exact fun c hc => (hs.claims c hc).mono hC hR
  · exact fun c hc => (hs.armed c hc).mono hC hR
  · exact fun c hc => (hs.escalated c hc).mono hC hR

theorem receiveHandler_spec (hquote : s.state = .created →
      (∀ q, Q q) ∧ ∀ quote, ans.invoice.quote = .ok (some quote) → quote.Covers s.amountSat)
    (hfund : s.state = .htlcEventAccepted → ∀ p ∈ ans.funding.polls, ∀ v, p.live = some v →
      worth v.outpoint = v.amountSat ∧ v.outpoint ≠ "")
    (hlive : s.state = .claimInitiated → s.claimSessionID = "" → ∀ q, Q q → ∀ v,
      ans.claim.live = .ok (some v) → v.outpoint ≠ "" → Fair worth C R q v.outpoint) :
    Ensures (fun n => Sells worth C R Q n ∧ n.session = some s) (receiveHandler cfg ans s.state)
      (fun _ => Sells worth C R Q) fun _ => Sells worth C R Q := by
  cases hst : s.state
  case created =>
    obtain ⟨hQ, hquote⟩ := hquote hst
    let P : ReceiveSession → Prop := fun s' => s' = s
    refine (prepareInvoice_spec (P := P) ?_).imp (fun n hn => ⟨hn.1.imp fun _ _ _ => trivial, ?_⟩)
      (fun _ n h => h.imp fun _ _ _ => hQ _) fun _ n h => h.imp fun _ _ _ => hQ _
    · intro s' quote hs' hans
      rw [show s' = s from hs']
      exact hquote quote hans
    · intro s' hs'
      exact some.inj (hs'.symm.trans hn.2)
  case invoiceCreated => exact waitForHTLCEvent_keeps.pre fun _ h => h.1
  case htlcEventAccepted => exact (waitForFunding_keeps (hfund hst)).pre fun _ h => h.1
  case vhtlcFunded =>
    refine .pre (mutateAndPersistReceive_keeps ?_) fun _ h => h.1
    intro t t' ht hQ _ ht'
    obtain ⟨next, hn, rfl⟩ := transition_eq_some ht'
    cases htst : t.state <;>
      simp only [htst, receiveTransitions, some.injEq, reduceCtorEq] at hn
    subst hn
    have hquoted := ht.quoted (by rw [htst]; rfl)
    have hc := ht.claimable (by rw [htst]; rfl)
    exact ⟨⟨nofun, fun _ => { hquoted with }, fun _ => { hc with }⟩, hQ⟩
  case claimInitiated =>
    refine (claimFundedVHTLC_spec (hlive hst)).pre fun n hn => ⟨⟨hn.1, forall_some hn.2 ?_⟩, hn.2⟩
    unfold Funded
    rw [hst]
    rfl
  all_goals exact .pure fun _ h => h.1

theorem ReceiveNode.Fairly.advance (h : ReceiveNode.Fairly worth n)
    (ht : (ReceiveAction.advance writes ans).Truthful worth)
    (hsuff : (ReceiveAction.advance writes ans).Sufficient worth n) :
    ReceiveNode.Fairly worth ({ n with writes := writes }.after (advanceReceive cfg ans)) := by
  rcases eq_none_or_eq_some n.session with hs | ⟨s, hs⟩
  · have hsells : Sells worth n.env.cosigned n.env.refreshed (fun _ => True)
      { n with writes := writes } := Kept.setWrites h
    refine hsells.after (getSession_bind (fun s n' hn' => ?_) fun _ _ h => h.1)
    exact nomatch hs.symm.trans (hn'.1.2.symm.trans hn'.2)
  obtain ⟨hquote, hfund, hlive⟩ := hsuff s hs
  -- The quote stays what it is wherever the live output is looked at.
  let Q : ℕ → Prop := fun q => s.state = .claimInitiated → s.claimSessionID = "" → ∀ v,
    ans.claim.live = .ok (some v) → v.outpoint ≠ "" →
      Fair worth n.env.cosigned n.env.refreshed q v.outpoint
  have hsells : Sells worth n.env.cosigned n.env.refreshed Q { n with writes := writes } := by
    exact Kept.setWrites (Sells.imp h (forall_some hs fun _ => hlive))
  refine hsells.after (getSession_bind (fun s' => ?_) fun _ _ h => h.1)
  by_cases hss : s' = s
  · subst hss
    refine .tryCatch (.pre (receiveHandler_spec (fun hst => ⟨?_, hquote hst⟩)
      (fun hst p hp v hv => ⟨ht.1 p hp v hv, hfund hst p hp v hv⟩) fun hst hid q hQ => hQ hst hid)
      fun n' hn' => ⟨hn'.1.1, hn'.2⟩) fun e => receiveFail_keeps
    intro q hst'
    cases hst.symm.trans hst'
  · intro n' hn'
    exact absurd (some.inj (hn'.2.symm.trans (hn'.1.2.trans hs))) hss

theorem ReceiveNode.Fairly.step (h : ReceiveNode.Fairly worth n) (ht : a.Truthful worth)
    (hsuff : a.Sufficient worth n) (hstep : n.step cfg a = some n') :
    ReceiveNode.Fairly worth n' := by
  cases a with
  | start amountSat =>
    simp only [ReceiveNode.step] at hstep
    split at hstep
    · cases hstep
      exact Kept.setSession h ⟨⟨fun _ => rfl, nofun, nofun⟩, trivial⟩
    · cases hstep
  | advance writes ans =>
    cases hstep
    exact h.advance ht hsuff
  | claim writes outpoint amount reply =>
    cases hstep
    have hsells : Sells worth n.env.cosigned n.env.refreshed (fun _ => True)
      { n with writes := writes } := Kept.setWrites h
    exact hsells.after ((claimReceive_keeps ht hsuff).pre fun _ h => h.1)
  | crash =>
    cases hstep
    exact Kept.dropSession h
  | resume =>
    simp only [ReceiveNode.step] at hstep
    split at hstep
    · next row _ hrow =>
      cases hstep
      exact ⟨forall_some rfl ⟨h.row row hrow, trivial⟩, h.row, { h.env.1 with }, h.env.2⟩
    · cases hstep
  | cosign =>
    simp only [ReceiveNode.step] at hstep
    split at hstep
    · cases hstep
      exact h.extend (subset_append_left _ _) (Subset.refl _)
    · cases hstep
  | refresh old new =>
    simp only [ReceiveNode.step] at hstep
    split at hstep
    · cases hstep
      exact h.extend (Subset.refl _) (subset_append_left _ _)
    · cases hstep

section Runs

def plainConfig : ReceiveConfig :=
  { exitAncestryDelay := 10, recoveryMargin := 10, refundLocktimeBuffer := 5,
    claimMaxAttempts := 1, policyBuilds := fun _ => true }

def tenThousand : SatAmount := ⟨10000, by decide, by decide⟩

def plainTiming : VHTLCTiming :=
  { refundLocktime := 1000, unilateralClaimDelay := 20, unilateralRefundDelay := 30,
    unilateralRefundWithoutReceiverDelay := 40 }

/-- The answers of a server whose quote asks for `asked`, or for the invoice amount where that is
zero, and of a daemon that finds `funded` and then `live` at the script. -/
def plainAnswers (asked : UInt64) (funded : VTXOInfo) (live : Option VTXOInfo) :
    ReceiveAnswers where
  invoice :=
    { keys := .ok (), setup := .ok (), paymentHash := 7,
      quote := .ok (some ⟨[[1]], 10000, asked, 0⟩), invoiceHash := .ok 7 }
  event :=
    { authKey := .ok (),
      notification := .ok (some
        { event := .outSwap
            { paymentHash := 7, requestedAmountSat := 10000, attachedCreditSat := 0,
              amountSat := if asked = 0 then 10000 else asked.toInt64.toInt, parts := [],
              onion := some ⟨10000000, 10000000, true, true⟩,
              vhtlcConfig := ⟨plainTiming, some 3⟩ },
          ackCursor := 0, hasAck := false }),
      height := .ok 100, ack := ⟨.ok (), .ok (), .ok ()⟩ }
  funding := { ack := ⟨.ok (), .ok (), .ok ()⟩, polls := [⟨some funded, none⟩], arm := .ok "r" }
  claim :=
    { indexed := .unclaimed, cancel := .ok (), receiveInfo := .ok true, arm := .ok "r",
      recovery := .dormant, height := .ok 100, live := .ok live,
      attempts := [⟨.ok "c", .unclaimed⟩], escalation := .deferred,
      resolve :=
        { status := .ok .pending, cancel := .ok (), indexed := .unclaimed,
          escalation := .deferred, recovery := .dormant } }

def plainRun (asked : UInt64) (funded : VTXOInfo) (live : Option VTXOInfo) : List ReceiveAction :=
  .start tenThousand :: List.replicate 5 (.advance [] (plainAnswers asked funded live))

theorem along_plainRun {P : ReceiveNode → ReceiveAction → ReceiveNode → Prop} (n : ReceiveNode)
    (hstart : ∀ n n', P n (.start tenThousand) n')
    (hadvance : ∀ n n', P n (.advance [] (plainAnswers asked funded live)) n') :
    (receiveMachine plainConfig).Along P n (plainRun asked funded live) := by
  have hreplicate : ∀ (k : ℕ) (n : ReceiveNode), (receiveMachine plainConfig).Along P n
      (replicate k (.advance [] (plainAnswers asked funded live))) := by
    intro k
    induction k with
    | zero => exact fun _ => trivial
    | succ k ih => exact fun n => Machine.along_cons.2 fun t _ => ⟨hadvance n t, ih t⟩
  exact Machine.along_cons.2 fun t _ => ⟨hstart n t, hreplicate 5 t⟩

theorem truthful_plainAnswers (hf : worth funded.outpoint = funded.amountSat)
    (hl : ∀ v, live = some v → worth v.outpoint = v.amountSat) :
    (ReceiveAction.advance [] (plainAnswers asked funded live)).Truthful worth := by
  constructor
  · intro p hp v hv
    obtain rfl := mem_singleton.1 hp
    cases hv
    exact hf
  · intro v hv
    exact hl v (Except.ok.inj hv)

theorem not_fair (hw : worth o < q) : ¬ Fair worth C [] q o := by
  intro h
  cases h with
  | worth h => omega
  | refresh _ _ hr => cases hr

theorem sold_unfairly (hrun : ((receiveMachine plainConfig).run { env := {} } as).map
      (fun n => (n.env.claims, n.env.refreshed)) = some ([c], []))
    (hw : worth c.output.outpoint < c.quotedSat) : ∃ n,
    (receiveMachine plainConfig).run { env := {} } as = some n ∧
      ¬ ∀ c ∈ n.env.claims ++ n.env.escalated,
        Fair worth n.env.cosigned n.env.refreshed c.quotedSat c.output.outpoint := by
  obtain ⟨n, hn, hc⟩ := map_eq_some_iff.1 hrun
  obtain ⟨hclaims, hrefreshed⟩ := Prod.mk.inj hc
  refine ⟨n, hn, fun h => ?_⟩
  have hfair := h c (mem_append_left _ (by rw [hclaims]; exact mem_singleton_self c))
  rw [hrefreshed] at hfair
  exact not_fair hw hfair

end Runs

end Wavelength.Swaps
