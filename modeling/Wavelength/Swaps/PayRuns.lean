import Wavelength.Swaps.PayFate

/-! # Payments that are written off have no funding transfer

The wait for the funded output, the wait for the claim and the refund, then a whole pass and every
run. Where a transfer may exist, only an answer of the daemon that denies it ends a session.
-/

namespace Wavelength.Swaps

variable {D : Prop} {α : Type} {Q : α → PayNode → Prop}

/-! ## Waiting -/

theorem cancelRecovery_keeps {I : PayNode → Prop} : Keeps I (cancelRecovery cancel) := by
  exact getSession_keeps fun s => .ite (fun _ => .pure) fun _ => call_keeps

theorem waitForFixedPoll_loud :
    Loud D st cfg t (waitForFixedPoll interrupted) fun _ => At st cfg t := by
  refine .ite (fun _ => ?_) fun _ => .ret
  exact .throw fun _ h => h.1.stopped (by decide)

theorem transition_loud (ht : payTransitions st event = some st') (hbad : st'.bad = false)
    (hearly : st'.early = false) (hf : KeepsTerms f) :
    Loud D st cfg t (mutateAndPersistPay fun s => PaySession.transition event (f s))
      fun _ => Anywhere cfg :=
  (mutate_loud (transition_some ht hf) hbad
    fun h => (nomatch hearly.symm.trans h)).post fun _ _ h => ⟨h.1, _, _, h.2⟩

theorem completePay_loud (ht : payTransitions st .completed = some .completed) :
    Loud D st cfg t (completePay cancel) fun _ => Anywhere cfg := by
  refine .bind (Quiet.retryable cancelRecovery_keeps) fun _ => ?_
  exact transition_loud ht rfl rfl fun _ => ⟨rfl, rfl⟩

/-- A failure that the daemon reports of the transfer ends the session. -/
theorem checkFundingRejected_loud {ans : RejectedAnswers}
    (ht : payTransitions st .needsIntervention = some .needsIntervention) :
    Loud D st cfg t (checkFundingRejected ans) fun _ => At st cfg t := by
  have hpure : Loud D st cfg t (pure () : Pay Unit) fun _ => At st cfg t := .ret
  refine getSession_at (fun _ h => h.2) fun s _ => .ite (fun _ => hpure) fun _ => ?_
  cases ans.session with
  | error e => exact hpure
  | ok status =>
    cases status with
    | none => exact hpure
    | some status =>
      cases status with
      | pending | completed => exact hpure
      | failed beforePONR =>
        refine .ite (fun _ => ?_) fun _ => needsIntervention_loud ht fun _ => ⟨rfl, rfl⟩
        have hclear : Ensures (fun n => Going D n ∧ At st cfg t n)
            (modifyEnv fun env : PayEnv =>
              { env with truthful := env.truthful && env.transfer == .failed } : Pay Unit)
            (fun _ n => Sound n ∧ n.env.Clear) Stopped := by
          refine .modify fun n hn => ?_
          have hgo : Going D { n with env := { n.env with
              truthful := n.env.truthful && n.env.transfer == .failed } } := hn.1.setEnv rfl
          refine ⟨hgo.toSound, fun htrue => ?_⟩
          simp only [Bool.and_eq_true, beq_iff_eq] at htrue
          change n.env.transfer.gone = true
          rw [htrue.2]
          rfl
        refine .bind hclear fun _ => ?_
        refine .bind (Q := fun _ n => Sound n ∧ n.env.Clear)
          ((retryable_keeps cancelRecovery_keeps).onError
            fun _ _ h => ⟨h.1, fun _ => h.2⟩) fun _ => ?_
        exact .throw fun _ h => ⟨h.1, fun _ => h.2⟩

theorem waitForNextPoll_spec {ans : PollAnswers} :
    Ensures (fun n => Going D n ∧ At st cfg t n) (waitForNextPoll c ans)
      (fun _ n => Going D n ∧ ∃ t', At st cfg t' n)
      fun e n => (Going D n ∧ ∃ t', At st cfg t' n) ∧ (e = .expired ∨ ¬ e.ends) := by
  have hexpired : ∀ {t' : Time}, Ensures (fun n => Going D n ∧ At st cfg t' n)
      (throw .expired : Pay Unit) (fun _ n => Going D n ∧ ∃ t', At st cfg t' n)
      fun e n => (Going D n ∧ ∃ t', At st cfg t' n) ∧ (e = .expired ∨ ¬ e.ends) :=
    .throw fun _ h => ⟨⟨h.1, _, h.2⟩, .inl rfl⟩
  refine getConfig_bind (fun _ h => h.2) ?_ fun _ h => ⟨⟨h.1, _, h.2⟩, .inr (by decide)⟩
  refine readClock_spec.bind fun now => .pre ?_ fun _ h => h.1
  refine .ite (fun _ => hexpired) fun _ => ?_
  refine readClock_spec.bind fun now => .pre ?_ fun _ h => h.1
  refine .ite (fun _ => hexpired) fun _ => ?_
  refine .ite (fun _ => ?_) fun _ => .pure fun _ h => ⟨h.1, _, h.2⟩
  exact .throw fun _ h => ⟨⟨h.1, _, h.2⟩, .inr (by decide)⟩

theorem poll_loud {ans : PollAnswers} {k : Pay α} (hQ : ∀ n t', At st cfg t' n → Q a n)
    (hk : ∀ t', Loud D st cfg t' k Q) :
    Loud D st cfg t (tryCatch (do
      waitForNextPoll c ans
      pure a) fun e => if e = .expired then k else throw e) Q := by
  refine .tryCatch (waitForNextPoll_spec.bind fun _ => .pure ?_) fun e => ?_
  · rintro n ⟨hn, t', hat⟩
    exact ⟨hn, hQ n t' hat⟩
  refine .ite (fun _ => ?_) fun hne => .throw fun n hn => ?_
  · rintro n ⟨⟨hn, t', hat⟩, -⟩
    exact hk t' n ⟨hn, hat⟩
  · exact hn.1.1.stopped (hn.2.resolve_left hne)

/-! ## The wait for the funded output -/

/-- Where the wait goes on, it goes on from a state in which the funding is sent. -/
def Waits (cfg : InSwapConfig) (again : Bool) (n : PayNode) : Prop :=
  Anywhere cfg n ∧ (again = true → ∃ st t, st.sending ∧ At st cfg t n)

theorem Anywhere.waits (h : Anywhere cfg n) : Waits cfg false n := ⟨h, nofun⟩

theorem pollForFunding_loud {ans : FundedAnswers} (hst : st.sending)
    (hmakes : D ∨ ans.submitAgain.makesNone = true) :
    Loud D st cfg t (pollForFunding c ans) (Waits cfg) := by
  refine poll_loud (fun n t' h => ⟨⟨_, _, h⟩, fun _ => ⟨_, _, hst, h⟩⟩) fun t' => ?_
  refine getSession_at (fun _ h => h.2) fun s _ => ?_
  refine .bind (Q := fun _ n => Going D n ∧ Anywhere cfg n) ?_ fun _ =>
    .pure fun _ h => ⟨h.1, h.2.waits⟩
  refine .ite (fun _ => ?_) fun _ => ?_
  · exact waitForFixedPoll_loud.post fun _ _ h => ⟨h.1, _, _, h.2⟩
  · exact (ensureFundingSubmitted_loud hst hmakes).post fun _ _ h => ⟨h.1, h.2.anywhere⟩

/-- While the funding may still be admitted, the deadline does not pass before it is looked at
again, and the refund is not too near. -/
def FundedAnswers.Told (c : PayConfig) (cfg : InSwapConfig) (t : Time) (ans : FundedAnswers) :
    Prop :=
  deadlinePassed (fundingAdmissionDeadline c cfg) (t + ans.tick) = false →
    deadlinePassed (fundingAdmissionDeadline c cfg) (t + ans.tick + ans.safe.tick) = false ∧
    ∀ h, ans.safe.height = .ok h → h + c.refundLocktimeBuffer < cfg.timing.refundLocktime

instance {ans : FundedAnswers} : Decidable (ans.Told c cfg t) :=
  inferInstanceAs (Decidable (_ → _ ∧ _))

theorem submitAndPoll_loud {ans : FundedAnswers} (htold : D → ans.Told c cfg t)
    (hmakes : D ∨ (ans.submit.makesNone = true ∧ ans.submitAgain.makesNone = true)) :
    Loud D .fundingInitiated cfg t (submitAndPoll c ans) (Waits cfg) := by
  refine fundingAdmissionClosed_spec.bind fun closed => ?_
  refine .bind (Q := fun _ n => ∃ t', Going D n ∧ At .fundingInitiated cfg t' n) ?_ fun _ => ?_
  · refine .ite (fun hc => ?_) fun _ => .pure fun n hn => ⟨_, hn.1⟩
    rw [Bool.not_eq_true'] at hc
    rintro n ⟨hn, hb⟩
    have htold' := fun hD => htold hD (hb.symm.trans hc)
    exact (ensureFundingStillSafe_loud (.inr rfl) (fun hD _ => (htold' hD).1)
      fun hD _ => (htold' hD).2).post (fun _ n h => ⟨_, h⟩) n hn
  · rintro n ⟨t', hn⟩
    refine Ensures.bind (ensureFundingSubmitted_loud (.inl rfl) (hmakes.imp id And.left))
      (fun _ n hn => ?_) n hn
    obtain ⟨hgo, t', hturned⟩ := hn
    have hpoll : ∀ {st : PayState}, (st ≠ .vhtlcFunded → st.sending) → Loud D st cfg t' (do
        let s ← getSession
        if s.state = .vhtlcFunded then pure false else pollForFunding c ans) (Waits cfg) := by
      intro st hst
      refine getSession_at (fun _ h => h.2) fun s hs => .ite (fun _ => ?_) fun hne => ?_
      · exact .pure fun _ h => ⟨h.1, Anywhere.waits ⟨st, t', h.2⟩⟩
      · exact pollForFunding_loud (hst (hs ▸ hne)) (hmakes.imp id And.right)
    rcases hturned with hat | hat | hat
    · exact hpoll (fun _ => .inl rfl) n ⟨hgo, hat⟩
    · exact hpoll (fun h => absurd rfl h) n ⟨hgo, hat⟩
    · exact hpoll (fun _ => .inr rfl) n ⟨hgo, hat⟩

theorem waitForFundedVHTLC_loud {ans : FundedAnswers} (hst : st.sending)
    (htold : D → st = .fundingInitiated → ans.Told c cfg t)
    (hmakes : D ∨ (ans.submit.makesNone = true ∧ ans.submitAgain.makesNone = true)) :
    Loud D st cfg t (waitForFundedVHTLC c ans) (Waits cfg) := by
  have hneeds : payTransitions st .needsIntervention = some .needsIntervention := by
    rcases hst with rfl | rfl <;> rfl
  refine .bind (checkFundingRejected_loud hneeds) fun _ => ?_
  cases ClaimObservation.ofReply ans.observation with
  | preimage =>
    refine .bind (completePay_loud ?_) fun _ => .pure fun _ h => ⟨h.1, h.2.waits⟩
    rcases hst with rfl | rfl <;> rfl
  | spent vtxo spentByTxID => exact needsIntervention_loud hneeds fun _ => ⟨rfl, rfl⟩
  | nothing =>
    refine observe_then hst.bad (fun hne => ?_) (fun hne => ?_) fun _ h => Anywhere.waits ⟨_, _, h⟩
    · obtain rfl := hst.resolve_right hne
      refine .bind (adopt_loud rfl rfl (nofun) fun _ h => h) fun _ => ?_
      exact .pure fun _ h => ⟨h.1, Anywhere.waits ⟨_, _, h.2⟩⟩
    · obtain rfl := hst.resolve_right hne
      exact submitAndPoll_loud (fun hD => htold hD rfl) hmakes

/-! ## The refund -/

/-- Where no transfer can exist, any error may end the session. -/
theorem Going.clear_unless (h : Going D n) (hD : ¬ D) : n.env.Clear :=
  PayEnv.clear_of_gone (h.harmless.resolve_left hD)

theorem throw_held (he : D → ¬ e.ends) : Held D st cfg t (throw e : Pay α) Q := by
  refine .throw fun n hn => ⟨hn, fun hends => ?_⟩
  by_cases hD : D
  · exact absurd hends (he hD)
  · exact hn.1.clear_unless hD

theorem pure_held (hQ : ∀ n, At st cfg t n → Q a n) : Held D st cfg t (pure a) Q :=
  .pure fun n hn => ⟨hn.1, hQ n hn.2⟩

theorem callRetryable_held :
    Held D st cfg t (callRetryable x) fun a n => At st cfg t n ∧ x = .ok a := by
  refine callRetryable_spec.imp (fun _ h => h) (fun _ _ h => ⟨h.1.1, h.1.2, h.2⟩) ?_
  rintro e n ⟨hn, rfl⟩
  exact ⟨hn, fun h => absurd h (by decide)⟩

/-- The daemon gives a destination, or says why it does not. -/
def ReceiveScript (x : Except RemoteError Bool) : Prop := x ≠ .ok false ∧ x ≠ .error .other

instance {x : Except RemoteError Bool} : Decidable (ReceiveScript x) :=
  inferInstanceAs (Decidable (_ ∧ _))

theorem refundPubKey_held (hbad : st.bad = false) (hscript : D → ReceiveScript receiveScript) :
    Held D st cfg t (refundPubKey receiveScript) fun _ => At st cfg t := by
  refine getSession_at (fun _ h => h.2) fun s _ => ?_
  refine .ite (fun _ => pure_held fun _ h => h) fun _ => ?_
  refine .bind (Q := fun ok n => (Going D n ∧ At st cfg t n) ∧ receiveScript = .ok ok)
    (call_spec.onError ?_) fun ok => ?_
  · rintro e n ⟨hn, r, hr, rfl⟩
    refine ⟨hn, fun hends => ?_⟩
    by_cases hD : D
    · cases r with
      | interrupt => exact absurd hends (by decide)
      | walletNotReady => rcases hends with h | h <;> cases h
      | other => exact absurd hr (hscript hD).2
    · exact hn.1.clear_unless hD
  · by_cases hok : receiveScript = .ok ok
    · refine .pre (P := fun n => Going D n ∧ At st cfg t n) ?_ fun _ h => h.1
      refine .ite (fun _ => ?_) fun hfalse => throw_held fun hD => ?_
      · exact mutate_held (fun s hs hc => ⟨_, rfl, hs, hc⟩) hbad id
      · rw [Bool.not_eq_true] at hfalse
        rw [hfalse] at hok
        exact absurd hok (hscript hD).1
    · intro n hn
      exact absurd hn.2 hok

theorem initiateRefund_held (hst : st = .waitingForClaim) :
    Held D st cfg t initiateRefund fun _ => At .refundInitiated cfg t := by
  subst hst
  refine getSession_at (fun _ h => h.2) fun s hs => .ite (fun h => ?_) fun _ => ?_
  · cases hs.symm.trans h
  · exact mutate_held (transition_some (f := id) (by rfl) fun _ => ⟨rfl, rfl⟩) rfl
      nofun

theorem Held.quiet (h : Held D st cfg t m Q) : Quiet D st cfg t m Q := h.onError fun _ _ h => h.1

theorem observeRefundableVHTLC_quiet {ans : RefundableAnswers} (hbad : st.bad = false) :
    Quiet D st cfg t (observeRefundableVHTLC ans) fun _ => At st cfg t := by
  refine getSession_at (fun _ h => h.2) fun s _ => ?_
  cases ans.live with
  | error e =>
    cases e with
    | unregistered =>
      refine .ite (fun _ => ?_) fun _ => throw_quiet
      exact .bind (ensurePayRefundRecoveryArmed_quiet hbad) fun _ => pure_quiet
    | remote e => exact throw_quiet
  | ok live =>
    cases live with
    | none => exact pure_quiet
    | some vtxo =>
      refine .bind (update_quiet (fun _ => ⟨rfl, rfl⟩) hbad) fun _ => ?_
      exact .bind (ensurePayRefundRecoveryArmed_quiet hbad) fun _ => pure_quiet

/-- What the daemon answers in the course of a cooperative refund leaves the reason of a failure
open nowhere. -/
def CoopAnswers.Told (ans : CoopAnswers) : Prop :=
  ReceiveScript ans.receiveScript ∧ ans.prepared ≠ .ok .incomplete ∧ ans.send ≠ .ok ""

instance {ans : CoopAnswers} : Decidable ans.Told := inferInstanceAs (Decidable (_ ∧ _ ∧ _))

def Refunds (st : PayState) (cfg : InSwapConfig) (t : Time) (b : Bool) (n : PayNode) : Prop :=
  if b then At .refundInitiated cfg t n else At st cfg t n

theorem submitCoopRefund_held {ans : CoopAnswers} (hst : st = .waitingForClaim)
    (htold : D → ans.Told) :
    Held D st cfg t (submitCoopRefund ans) (Refunds st cfg t) := by
  have hbad : st.bad = false := by
    rw [hst]
    rfl
  refine .bind callRetryable_held fun id => ?_
  by_cases hid : ans.send = .ok id
  · refine .pre (P := fun n => Going D n ∧ At st cfg t n) ?_ fun _ h => ⟨h.1, h.2.1⟩
    refine .ite (fun hempty => throw_held fun hD => ?_) fun _ => ?_
    · rw [hempty] at hid
      exact absurd hid (htold hD).2.2
    · refine .bind (Quiet.held (setAndPersist_quiet (fun _ => ⟨rfl, rfl⟩) hbad))
        fun _ => .bind (initiateRefund_held hst).quiet.held fun _ => ?_
      exact .pure fun _ h => h
  · intro n hn
    exact absurd hn.2.2 hid

theorem tryCooperativeRefund_held {ans : CoopAnswers} (hst : st = .waitingForClaim)
    (htold : D → ans.Told) :
    Held D st cfg t (tryCooperativeRefund ans) (Refunds st cfg t) := by
  have hbad : st.bad = false := by
    rw [hst]
    rfl
  have hfalse : Held D st cfg t (pure false) (Refunds st cfg t) := pure_held fun _ h => h
  refine getSession_at (fun _ h => h.2) fun s _ => .ite (fun _ => ?_) fun _ => ?_
  · exact .bind (initiateRefund_held hst) fun _ => .pure fun _ h => h
  refine .bind (observeRefundableVHTLC_quiet hbad).held fun live =>
    .ite (fun _ => ?_) fun _ => hfalse
  refine .bind (refundPubKey_held hbad fun hD => (htold hD).1) fun _ => ?_
  refine .bind callRetryable_held fun prepared => ?_
  by_cases hprepared : ans.prepared = .ok prepared
  · refine .pre (P := fun n => Going D n ∧ At st cfg t n) ?_ fun _ h => ⟨h.1, h.2.1⟩
    cases prepared with
    | incomplete => exact throw_held fun hD => absurd hprepared (htold hD).2.1
    | ok =>
      cases ans.authorize with
      | ok => exact submitCoopRefund_held hst htold
      | unavailable => exact hfalse
      | empty | error e => exact throw_held fun _ => (by decide)
  · intro n hn
    exact absurd hn.2.2 hprepared

theorem observeRefundOutput_keeps {I : PayNode → Prop} : Keeps I (observeRefundOutput reply) := by
  refine getSession_keeps fun s => .ite (fun _ => .pure) fun _ => ?_
  refine .bind call_keeps fun output => ?_
  cases output with
  | none => exact .pure
  | some v =>
    exact .ite (fun _ => .pure) fun _ => .ite (fun _ => .pure) fun _ => .pure

theorem markRefundOutputIndexed_loud (ht : payTransitions st .refunded = some .refunded) :
    Loud D st cfg t (markRefundOutputIndexed cancel) fun _ => Anywhere cfg := by
  refine .bind (Quiet.retryable cancelRecovery_keeps) fun _ => ?_
  exact adopt_loud ht rfl (nofun) fun _ h => ⟨_, _, h⟩

theorem markRefunded_loud (ht : payTransitions st .refunded = some .refunded) :
    Loud D st cfg t (markRefunded vtxo txid cancel) fun _ => Anywhere cfg := by
  refine .bind (Quiet.retryable cancelRecovery_keeps) fun _ => ?_
  exact transition_loud ht rfl rfl fun _ => ⟨rfl, rfl⟩

theorem settleSpend_loud :
    Loud D .waitingForClaim cfg t (settleSpend vtxo txid refundOutput cancel)
      fun _ => Anywhere cfg := by
  refine .bind (Quiet.retryable observeRefundOutput_keeps) fun output => ?_
  cases output with
  | some v => exact markRefundOutputIndexed_loud rfl
  | none =>
    refine getSession_at (fun _ h => h.2) fun s _ => .ite (fun _ => ?_) fun _ => ?_
    · exact markRefunded_loud rfl
    · exact needsIntervention_loud rfl fun _ => ⟨rfl, rfl⟩

theorem awaitRefundTime_loud {ans : ClaimWaitAnswers} :
    Loud D .waitingForClaim cfg t (awaitRefundTime c ans) fun _ => Anywhere cfg := by
  have hrefund : ∀ t', Loud D .waitingForClaim cfg t' initiateRefund fun _ => Anywhere cfg :=
    fun t' => (initiateRefund_held rfl).loud.post fun _ _ h => ⟨h.1, _, _, h.2⟩
  have hpoll : Loud D .waitingForClaim cfg t (tryCatch (waitForNextPoll c ans.poll) fun e =>
      if e = .expired then initiateRefund else throw e) fun _ => Anywhere cfg := by
    rw [← bind_pure_unit (x := waitForNextPoll c ans.poll)]
    exact poll_loud (fun _ _ h => ⟨_, _, h⟩) hrefund
  unfold awaitRefundTime
  cases ans.height with
  | error e => exact hpoll
  | ok height =>
    refine .bind (Q := fun _ n => Going D n ∧ At .waitingForClaim cfg t n)
      (.modify fun n hn => ⟨hn.1.setEnv rfl, hn.2⟩) fun _ => ?_
    refine getConfig_bind (fun _ h => h.2) ?_ fun _ h => h.1.stopped (by decide)
    exact .ite (fun _ => hrefund t) fun _ => hpoll

theorem waitForClaimPreimage_loud {ans : ClaimWaitAnswers} (htold : D → ans.coop.Told) :
    Loud D .waitingForClaim cfg t (waitForClaimPreimage c ans) fun _ => Anywhere cfg := by
  refine .bind (checkFundingRejected_loud rfl) fun _ => ?_
  cases ClaimObservation.ofReply ans.observation with
  | preimage => exact completePay_loud rfl
  | spent vtxo txid => exact settleSpend_loud
  | nothing =>
    -- An error that is worth another try leaves the session as it was.
    refine .bind (Q := fun b n => Going D n ∧ Refunds .waitingForClaim cfg t b n)
      (.tryCatch (tryCooperativeRefund_held rfl htold) fun e => ?_) fun refunded => ?_
    · refine .ite (fun _ => .pure fun _ h => h.1) fun _ => ?_
      exact .throw fun _ h => ⟨h.1.1.toSound, h.2⟩
    · cases refunded with
      | true => exact .pure fun _ h => ⟨h.1, _, _, h.2⟩
      | false => exact awaitRefundTime_loud

/-! ## The refund by time -/

/-- Errors that leave a session that goes on are worth another try. -/
theorem retryable_loud
    (h : Ensures (fun n => Going D n ∧ At st cfg t n) m (fun a n => Going D n ∧ Q a n)
      fun _ n => Going D n) : Loud D st cfg t (retryable m) Q :=
  (retryable_spec h).onError fun _ _ h => h.1.stopped (not_ends_of_retryable h.2)

def Handled (st : PayState) (cfg : InSwapConfig) (t : Time) (b : Bool) (n : PayNode) : Prop :=
  if b then Anywhere cfg n else At st cfg t n

theorem fixedPoll_handled :
    Ensures (fun n => Going D n ∧ At st cfg t n) (do
      waitForFixedPoll interrupted
      pure true : Pay Bool) (fun b n => Going D n ∧ Handled st cfg t b n) fun _ n => Going D n := by
  refine .bind (Q := fun _ n => Going D n ∧ At st cfg t n) ?_ fun _ => ?_
  · exact .ite (fun _ => .throw fun _ h => h.1) fun _ => .ret
  · exact .pure fun _ h => ⟨h.1, _, _, h.2⟩

theorem refunded_handled (ht : payTransitions st .refunded = some .refunded) :
    Ensures (fun n => Going D n ∧ At st cfg t n) (do
      mutateAndPersistPay (PaySession.transition .refunded)
      pure true : Pay Bool) (fun b n => Going D n ∧ Handled st cfg t b n) fun _ n => Going D n := by
  refine .bind (Q := fun _ n => Going D n ∧ At .refunded cfg t n) ?_ fun _ => ?_
  · exact (mutate_held (transition_some (f := id) ht fun _ => ⟨rfl, rfl⟩) rfl
      nofun).onError fun _ _ h => h.1.1
  · exact .pure fun _ h => ⟨h.1, _, _, h.2⟩

theorem reconcilePayRefundRecovery_loud :
    Loud D .refundInitiated cfg t (retryable (reconcilePayRefundRecovery ans))
      (Handled .refundInitiated cfg t) := by
  refine retryable_loud (getSession_at (fun _ h => h.2) fun s _ =>
    .ite (fun _ => .pure fun _ h => h) fun _ => ?_)
  refine .bind (call_keeps.onError fun _ _ h => h.1) fun state => ?_
  cases state with
  | dormant => exact .pure fun _ h => h
  | active => exact fixedPoll_handled
  | completed => exact refunded_handled rfl
  | failed =>
    exact .bind ((mutate_held (markPayNeedsIntervention_some rfl fun _ => ⟨rfl, rfl⟩) rfl nofun).onError
      fun _ _ h => h.1.1) fun _ => .throw fun _ h => h.1

theorem reconcilePayRefundSession_loud :
    Loud D .refundInitiated cfg t (retryable (reconcilePayRefundSession ans))
      (Handled .refundInitiated cfg t) := by
  refine retryable_loud (getSession_at (fun _ h => h.2) fun s _ =>
    .ite (fun _ => .pure fun _ h => h) fun _ => ?_)
  refine .bind (call_keeps.onError fun _ _ h => h.1) fun status => ?_
  cases status with
  | none => exact fixedPoll_handled
  | some status =>
    cases status with
    | pending => exact fixedPoll_handled
    | completed =>
      exact .bind (cancelRecovery_keeps.onError fun _ _ h => h.1) fun _ => refunded_handled rfl
    | failed beforePONR =>
      have hdrop : Quiet D .refundInitiated cfg t (mutateAndPersistPay fun s =>
          some { s with refundSessionID := "" }) fun _ => At .refundInitiated cfg t :=
        update_quiet (fun _ => ⟨rfl, rfl⟩) rfl
      exact .bind (hdrop.onError fun _ _ h => h.1) fun _ => .pure fun _ h => h

/-- What the daemon answers in the course of a refund by time leaves the reason of a failure open
nowhere. -/
def RefundAnswers.Told (ans : RefundAnswers) : Prop :=
  ReceiveScript ans.receiveScript ∧ ans.send ≠ .ok ""

instance {ans : RefundAnswers} : Decidable ans.Told := inferInstanceAs (Decidable (_ ∧ _))

theorem fixedPoll_anywhere : Loud D st cfg t (waitForFixedPoll interrupted) fun _ => Anywhere cfg :=
  waitForFixedPoll_loud.post fun _ _ h => ⟨h.1, _, _, h.2⟩

theorem submitRefund_loud (htold : D → ans.Told) :
    Loud D .refundInitiated cfg t (submitRefund ans) fun _ => Anywhere cfg := by
  refine .bind (refundPubKey_held rfl fun hD => (htold hD).1).loud fun _ => ?_
  cases hsend : ans.send with
  | error e =>
    have hescalate : Quiet D .refundInitiated cfg t (maybeEscalatePayRefundRecovery ans.escalate)
        fun _ => At .refundInitiated cfg t :=
      getSession_keeps fun s => .ite (fun _ => .pure) fun _ => call_keeps
    exact .bind (ensurePayRefundRecoveryArmed_quiet rfl).retryable fun _ =>
      .bind hescalate.retryable fun _ => fixedPoll_anywhere
  | ok refundSessionID =>
    refine .ite (fun hempty => (throw_held fun hD => ?_).loud) fun _ => ?_
    · rw [hempty] at hsend
      exact absurd hsend (htold hD).2
    · exact .bind (Quiet.retryable
        (setAndPersist_quiet (fun _ => ⟨rfl, rfl⟩) rfl)) fun _ => fixedPoll_anywhere

theorem refundLive_loud (htold : D → ans.Told) :
    Loud D .refundInitiated cfg t (refundLive ans) fun _ => Anywhere cfg := by
  refine .bind reconcilePayRefundRecovery_loud fun handled => ?_
  cases handled with
  | true => exact .ret
  | false =>
    refine .bind reconcilePayRefundSession_loud fun handled => ?_
    cases handled with
    | true => exact .ret
    | false =>
      refine .bind (observeRefundableVHTLC_quiet rfl).retryable fun live =>
        .ite (fun _ => ?_) fun _ => fixedPoll_anywhere
      refine .bind (blockHeight_spec.imp (fun _ h => h) (fun _ _ h => h.1) ?_) fun height => ?_
      · rintro e n ⟨hn, rfl⟩
        exact hn.1.stopped (by decide)
      · refine getConfig_bind (fun _ h => h.2) ?_ fun _ h => h.1.stopped (by decide)
        exact .ite (fun _ => fixedPoll_anywhere) fun _ => submitRefund_loud htold

theorem refundOutputOrNone_loud :
    Loud D st cfg t (refundOutputOrNone reply) fun _ => At st cfg t := by
  refine .tryCatch (observeRefundOutput_keeps (I := fun n => Going D n ∧ At st cfg t n)) fun e => ?_
  refine getSession_at (fun _ h => h.2) fun s _ => .ite (fun _ => ?_) fun _ => ?_
  · exact .throw fun _ h => h.1.stopped (by decide)
  · refine .ite (fun _ => ?_) fun _ => .ret
    exact .throw fun _ h => h.1.stopped (by decide)

theorem completeRefund_loud (htold : D → ans.Told) :
    Loud D .refundInitiated cfg t (completeRefund ans) fun _ => Anywhere cfg := by
  refine .bind (callRetryable_held.loud) fun seen => ?_
  refine .pre (P := fun n => Going D n ∧ At .refundInitiated cfg t n) ?_ fun _ h => ⟨h.1, h.2.1⟩
  cases seen with
  | preimage => exact completePay_loud rfl
  | spent vtxo txid =>
    refine .bind refundOutputOrNone_loud fun output => ?_
    cases output with
    | some v => exact markRefundOutputIndexed_loud rfl
    | none => exact markRefunded_loud rfl
  | nothing =>
    refine .bind refundOutputOrNone_loud fun output => ?_
    cases output with
    | some v => exact markRefundOutputIndexed_loud rfl
    | none => exact refundLive_loud htold

/-! ## A pass -/

def PayAnswers.makesNone (ans : PayAnswers) : Bool :=
  ans.fund.submit.makesNone && ans.funded.submit.makesNone && ans.funded.submitAgain.makesNone

/-- The answers do not fail a session of which a transfer may exist. -/
def PayAnswers.Told (c : PayConfig) (cfg : InSwapConfig) (t : Time) (ans : PayAnswers) :
    PayState → Prop
  | .fundingInitiated => ans.funded.Told c cfg t
  | .waitingForClaim => ans.claim.coop.Told
  | .refundInitiated => ans.refund.Told
  | _ => True

instance {ans : PayAnswers} {st : PayState} : Decidable (ans.Told c cfg t st) := by
  unfold PayAnswers.Told
  split <;> infer_instance

theorem payHandler_loud (htold : D → ans.Told c cfg t st) (hmakes : D ∨ ans.makesNone = true) :
    Loud D st cfg t (payHandler c ans st) fun _ => Anywhere cfg := by
  cases st with
  | swapCreated =>
    refine fundOrAdoptVHTLC_loud (hmakes.imp id fun h => ?_)
    simp only [PayAnswers.makesNone, Bool.and_eq_true] at h
    exact h.1.1
  | vhtlcFunded => exact adopt_loud rfl rfl (nofun) fun _ h => ⟨_, _, h⟩
  | waitingForClaim => exact waitForClaimPreimage_loud htold
  | refundInitiated => exact completeRefund_loud htold
  | _ => exact .pure fun _ h => ⟨h.1, _, _, h.2⟩

theorem payTurn_loud (hwait : s.inFundingWait = true → s.state.sending)
    (htold : D → ans.Told c cfg t s.state) (hmakes : D ∨ ans.makesNone = true) :
    Loud D s.state cfg t (payTurn c ans s) (Waits cfg) := by
  refine .ite (fun h => ?_) fun _ => ?_
  · have hst : s.state.sending := by
      simp only [Bool.or_eq_true, decide_eq_true_eq] at h
      exact h.elim hwait .inl
    refine waitForFundedVHTLC_loud hst (fun hD hfi => ?_) (hmakes.imp id fun h => ?_)
    · have := htold hD
      rw [hfi] at this
      exact this
    · simp only [PayAnswers.makesNone, Bool.and_eq_true] at h
      exact ⟨h.1.2, h.2⟩
  · exact .bind (payHandler_loud htold hmakes) fun _ => .pure fun _ h => ⟨h.1, h.2.waits⟩

structure Settled (n : PayNode) : Prop extends Sound n where
  waiting : ∀ s, n.session = some s → s.inFundingWait = true → s.state.sending

theorem finish_spec :
    Ensures (fun n => Sound n ∧ (again = true → ∃ st cfg t, st.sending ∧ At st cfg t n))
      (do
        let s ← getSession
        setSession { s with inFundingWait := again } : Pay Unit)
      (fun _ => Settled) fun e n => Sound n ∧ e = .crash := by
  refine getSession_bind_error (fun s => .modify fun n hn => ?_) fun _ h _ => ⟨h.1, rfl⟩
  obtain ⟨⟨hn, hagain⟩, hs⟩ := hn
  refine ⟨hn.setSession hs rfl rfl, fun x hx hwait => ?_⟩
  cases hx
  obtain ⟨st, cfg, t, hst, hat⟩ := hagain hwait
  change s.state.sending
  rw [(hat.session hs).1]
  exact hst

/-- A step in which a session of which a transfer may exist meets nothing that fails it. -/
def Careful (c : PayConfig) (invoice : PayInvoice) (n : PayNode) : PayAction → Prop
  | .start _ _ _ _ => invoice.paymentHash ≠ 0
  | .advance writes ans => ∀ s ∈ n.session, ∀ cfg ∈ s.cfg, s.state.bad = false →
      (∀ r ∈ n.row, r.state.bad = false) ∧
      ((n.env.transfer.gone = true ∧ ans.makesNone = true) ∨
        (∀ w ∈ writes, w.error ≠ some .failure) ∧ ans.Told c cfg n.env.now s.state)
  | _ => True

instance {invoice : PayInvoice} {a : PayAction} : Decidable (Careful c invoice n a) := by
  unfold Careful
  split <;> infer_instance

theorem Settled.dropSession (h : Sound n) : Settled { n with session := none } :=
  { h with
    bad := forall_none rfl
    stored := forall_none rfl
    final := forall_none rfl
    fresh := forall_none rfl
    terms := forall_none rfl
    waiting := forall_none rfl }

/-- The world may change as long as it makes no transfer of one that is gone. -/
theorem Sound.setEnv (h : Sound n) (hgone : n.env.transfer.gone = true → env.transfer.gone = true)
    (htrue : env.truthful = n.env.truthful) : Sound { n with env := env } := by
  have hclear : n.env.Clear → env.Clear := by
    intro h ht
    rw [htrue] at ht
    exact hgone (h ht)
  exact ⟨fun s hs hb => hclear (h.bad s hs hb), fun r hr hb => hclear (h.badRow r hr hb),
    h.stored, h.final, fun s hs he => hgone (h.fresh s hs he), fun hr => hgone (h.unsent hr),
    h.terms, h.termsRow⟩

theorem payTurn_bad (hbad : s.state.bad = true) (hwait : s.inFundingWait = true → s.state.sending) : payTurn c ans s = pure false := by
  have hidle : s.inFundingWait = false := by
    by_contra h
    rw [Bool.not_eq_false] at h
    exact nomatch (hwait h).bad.symm.trans hbad
  unfold payTurn
  rw [hidle]
  cases hst : s.state with
  | expired | failed => rfl
  | _ =>
    rw [hst] at hbad
    cases hbad

theorem advancePay_spec (h : Settled n) (hcare : Careful c invoice n (.advance writes ans)) :
    Ensures (· = { n with writes := writes }) (advancePay c ans) (fun _ => Settled)
      fun e n => Sound n ∧ e = .crash := by
  have hsound : Sound { n with writes := writes, env := { n.env with readings := [] } } := by
    have hread : Sound { n with env := { n.env with readings := [] } } := h.toSound.setEnv id rfl
    exact hread.same rfl rfl rfl
  refine .bind (Q := fun _ m => m = { n with
    writes := writes, env := { n.env with readings := [] } }) (.modify ?_) fun _ => ?_
  · rintro m rfl
    rfl
  refine getSession_bind_error (fun s => ?_) fun m hm _ => ⟨hm ▸ hsound, rfl⟩
  by_cases hs : n.session = some s
  swap
  · rintro m ⟨rfl, hm⟩
    exact absurd hm hs
  obtain ⟨cfg, hcfg, hhash⟩ := h.terms s hs
  refine .bind (Q := fun again n => Sound n ∧
    (again = true → ∃ st cfg t, st.sending ∧ At st cfg t n)) ?_ fun again => finish_spec
  by_cases hbad : s.state.bad = true
  · rw [payTurn_bad hbad (h.waiting s hs)]
    rintro m ⟨rfl, -⟩
    exact ⟨hsound, nofun⟩
  rw [Bool.not_eq_true] at hbad
  obtain ⟨hrow, hcases⟩ := hcare s hs cfg hcfg hbad
  -- A transfer may exist in this pass.
  let D : Prop := ¬ (n.env.transfer.gone = true ∧ ans.makesNone = true)
  have hgoing : Going D { n with writes := writes, env := { n.env with readings := [] } } := by
    refine ⟨hsound, forall_some hs hbad, hrow, ?_, fun hD => (hcases.resolve_left hD).1⟩
    by_cases hgone : n.env.transfer.gone = true
    · exact .inr hgone
    · exact .inl fun h => hgone h.1
  have hmakes : D ∨ ans.makesNone = true := by
    by_cases hnone : ans.makesNone = true
    · exact .inr hnone
    · exact .inl fun h => hnone h.2
  refine .tryCatch (E := Stopped) ?_ fun e => ?_
  · refine (payTurn_loud (h.waiting s hs) (fun hD => (hcases.resolve_left hD).2) hmakes).imp ?_
      (fun again n hn => ⟨hn.1.toSound, fun hagain => ?_⟩) fun _ _ h => h
    · rintro m ⟨rfl, -⟩
      exact ⟨hgoing, ⟨s, hs, rfl, hcfg⟩, rfl⟩
    · obtain ⟨st, t, hst, hat⟩ := hn.2.2 hagain
      exact ⟨st, cfg, t, hst, hat⟩
  · exact payFail_spec.bind fun _ => .pure fun _ h => ⟨h, nofun⟩

/-! ## Runs -/

theorem Sound.of_created (ans : CreateAnswers) (hgone : n'.env.transfer.gone = true)
    (hhash : s₀.invoice.paymentHash ≠ 0) (hrow : ∀ r, n'.row = some r → r.cfg.paymentHash ≠ 0)
    (hsession : ∀ s, n'.session = some s → Created ans s₀ s ∧ n'.row = s.save) : Sound n' := by
  have hterms : ∀ s, n'.session = some s → ∃ cfg, s.cfg = some cfg ∧ cfg.paymentHash ≠ 0 := by
    intro s hs
    obtain ⟨cfg, hcfg, hh, -⟩ := (hsession s hs).1.terms
    exact ⟨cfg, hcfg, hh ▸ hhash⟩
  have hsaved : ∀ s, n'.session = some s → ∃ r, n'.row = some r ∧ r.state = s.state := by
    intro s hs
    obtain ⟨cfg, hcfg, hh⟩ := hterms s hs
    obtain ⟨r, hr, hrst, -⟩ := PaySession.save_of_cfg hcfg hh
    exact ⟨r, (hsession s hs).2.trans hr, hrst⟩
  refine ⟨fun _ _ _ => PayEnv.clear_of_gone hgone, fun _ _ _ => PayEnv.clear_of_gone hgone,
    fun s hs he => ?_, fun s hs hb => ?_, fun _ _ _ => hgone, fun _ => hgone, hterms, hrow⟩
  · obtain ⟨r, hr, hrst⟩ := hsaved s hs
    exact ⟨r, hr, hrst ▸ he⟩
  · obtain ⟨r, hr, hrst⟩ := hsaved s hs
    exact ⟨r, hr, hrst ▸ hb⟩

theorem Settled.start {ans : CreateAnswers}
    (h : Settled n) (hnone : n.row = none) (hhash : invoice.paymentHash ≠ 0) (hstart : StartOf invoice ans n n') : Settled n' := by
  obtain ⟨henv, s₀, hinvoice, hwait, hcases⟩ := hstart
  have hgone : n'.env.transfer.gone = true := by
    rw [henv]
    exact h.unsent fun r hr => (nomatch hnone.symm.trans hr)
  rw [← hinvoice] at hhash
  have hsaved : ∀ {s r}, Created ans s₀ s → s.save = some r → r.cfg.paymentHash ≠ 0 := by
    intro s r hc hr
    obtain ⟨cfg, hcfg, hh, -⟩ := hc.terms
    obtain ⟨r', hr', -, hrh⟩ := PaySession.save_of_cfg hcfg (hh ▸ hhash)
    cases hr.symm.trans hr'
    rw [hrh, hh]
    exact hhash
  rcases hcases with ⟨hsession, hrow⟩ | ⟨s', hc, hsession, hrow⟩
  · refine ⟨Sound.of_created ans hgone hhash ?_ (forall_none hsession), forall_none hsession⟩
    rcases hrow with hrow | ⟨s', r', hc, hs', hrow⟩
    · exact forall_none (hrow.trans hnone)
    · exact forall_some hrow (hsaved hc hs')
  rw [hnone, Option.or_none] at hrow
  refine ⟨Sound.of_created ans hgone hhash (fun r hr => hsaved hc (hrow.symm.trans hr))
    (forall_some hsession ⟨hc, hrow⟩), forall_some hsession fun hflag => ?_⟩
  rw [hc.waits, hwait] at hflag
  cases hflag

theorem Settled.resume (h : Settled n) (hrow : n.row = some row) :
    Settled { n with session := some (paySessionFromRow row) } := by
  exact { h with
    bad := forall_some rfl (h.badRow row hrow)
    stored := forall_some rfl fun he => ⟨row, hrow, he⟩
    final := forall_some rfl fun hb => ⟨row, hrow, hb⟩
    fresh := forall_some rfl fun he => h.unsent (forall_some hrow he)
    terms := forall_some rfl ⟨row.cfg, rfl, h.termsRow row hrow⟩
    waiting := forall_some rfl nofun }

theorem Settled.step (h : Settled n) (hcare : Careful c invoice n a)
    (hstep : PayNode.step c invoice n a = some n') : Settled n' := by
  cases a with
  | start maxFee maxCredit writes ans =>
    simp only [PayNode.step] at hstep
    split at hstep
    · next hs hr =>
      cases hstep
      exact h.start hr hcare PayNode.start_spec
    · cases hstep
  | advance writes ans =>
    cases hstep
    exact Node.after_of (advancePay_spec h hcare) (fun _ hrun => Settled.dropSession hrun.1)
      (fun _ _ hrun he => absurd hrun.2 he) rfl
  | crash =>
    cases hstep
    exact Settled.dropSession h.toSound
  | resume =>
    simp only [PayNode.step] at hstep
    split at hstep
    · next hs hr =>
      cases hstep
      exact h.resume hr
    · cases hstep
  | world w =>
    cases hstep
    refine ⟨h.toSound.setEnv ?_ ?_, h.waiting⟩
    · cases w with
      | tick k => exact id
      | land t =>
        intro hgone
        change (n.env.transfer.next true t).gone = true
        revert hgone
        cases n.env.transfer with
        | none | failed => exact fun _ => rfl
        | pending | made => exact nofun
    · cases w with
      | tick k | land t => rfl

structure Closed (n : PayNode) : Prop where
  row : ∃ r, n.row = some r ∧ r.state.bad = true
  session : ∀ s, n.session = some s → s.state.bad = true

theorem advancePay_closed (h : Settled n) (hc : Closed n) :
    Ensures (fun m => m.session = n.session ∧ m.row = n.row) (advancePay c ans)
      (fun _ => Closed) fun _ => Closed := by
  have hclosed : ∀ m : PayNode, m.session = n.session ∧ m.row = n.row → Closed m := by
    rintro m ⟨hs, hr⟩
    exact ⟨hr ▸ hc.row, hs ▸ hc.session⟩
  refine .bind (Q := fun _ m => m.session = n.session ∧ m.row = n.row)
    (.modify fun _ h => h) fun _ => ?_
  refine getSession_bind (fun s => ?_) fun _ m hm => hclosed m hm
  by_cases hs : n.session = some s
  swap
  · rintro m ⟨hm, hs'⟩
    exact absurd (hm.1 ▸ hs') hs
  rw [payTurn_bad (hc.session s hs) (h.waiting s hs)]
  refine .bind (Q := fun _ m => m.session = n.session ∧ m.row = n.row)
    (.tryCatch (E := fun _ _ => False) (.pure fun _ h => h.1) fun _ _ h => h.elim)
    fun again => ?_
  refine getSession_bind (fun x => .modify fun m hm => ⟨?_, fun y hy => ?_⟩)
    fun _ m hm => hclosed m hm
  · change ∃ r, m.row = some r ∧ r.state.bad = true
    rw [hm.1.2]
    exact hc.row
  · cases hy
    exact hc.session x (hm.1.1 ▸ hm.2)

theorem Closed.step (h : Settled n) (hc : Closed n) (hstep : PayNode.step c invoice n a = some n') :
    Closed n' := by
  obtain ⟨r, hr, hbad⟩ := hc.row
  cases a with
  | start maxFee maxCredit writes ans =>
    simp only [PayNode.step, hr] at hstep
    split at hstep
    · next h => cases h
    · cases hstep
  | advance writes ans =>
    cases hstep
    exact Node.after_of (advancePay_closed h hc) (fun _ hrun => ⟨hrun.row, forall_none rfl⟩)
      (fun _ _ hrun _ => hrun) ⟨rfl, rfl⟩
  | crash =>
    cases hstep
    exact ⟨hc.row, forall_none rfl⟩
  | resume =>
    simp only [PayNode.step] at hstep
    split at hstep
    · next row hs hr' =>
      cases hstep
      cases hr.symm.trans hr'
      exact ⟨hc.row, forall_some rfl hbad⟩
    · cases hstep
  | world w =>
    cases hstep
    exact ⟨hc.row, hc.session⟩

theorem settled_of_init (h : (payMachine c invoice).init n) : Settled n := by
  obtain ⟨hs, hr, -, ht, -⟩ := h
  exact ⟨⟨forall_none hs, forall_none hr, forall_none hs, forall_none hs, forall_none hs,
    fun _ => by rw [ht]; rfl, forall_none hs, forall_none hr⟩, forall_none hs⟩

variable {n : PayNode} {s : PaySession} {c : PayConfig}

/-- Once a session is expired or failed there is no funding transfer, and there never will be. -/
theorem written_off_unfunded {invoice : PayInvoice} {n₀ n' : PayNode} {as bs : List PayAction}
    (h₀ : (payMachine c invoice).init n₀)
    (hcare : (payMachine c invoice).Along (fun n a _ => Careful c invoice n a) n₀ as)
    (hrun : (payMachine c invoice).run n₀ as = some n) (hs : n.session = some s)
    (hbad : s.state = .expired ∨ s.state = .failed)
    (hcare' : (payMachine c invoice).Along (fun n a _ => Careful c invoice n a) n bs)
    (hrun' : (payMachine c invoice).run n bs = some n') (htrue : n'.env.truthful = true) :
    n'.env.transfer.gone = true := by
  have hsettled := Machine.run_invariant (M := payMachine c invoice) Settled
    (fun _ _ _ h hg hstep => h.step hg hstep) (settled_of_init h₀) hcare hrun
  have hb : s.state.bad = true := by
    rcases hbad with h | h <;> rw [h] <;> rfl
  have hclosed : Closed n := ⟨hsettled.final s hs hb, forall_some hs hb⟩
  -- The row stays in its final state, whatever happens later.
  obtain ⟨hsettled', hclosed'⟩ := Machine.run_invariant (M := payMachine c invoice)
    (fun n => Settled n ∧ Closed n)
    (fun _ _ _ h hg hstep => ⟨h.1.step hg hstep, Closed.step h.1 h.2 hstep⟩)
    ⟨hsettled, hclosed⟩ hcare' hrun'
  obtain ⟨r, hr, hrb⟩ := hclosed'.row
  exact hsettled'.badRow r hr hrb htrue

/-! ## Runs on fixed answers -/

section Runs

def payConfig : PayConfig where
  refundLocktimeBuffer := 10
  fundingExpiryBuffer := 100
  fundingResumeGracePeriod := 0
  waitPollInterval := 5
  policyBuilds := fun _ => true

def payInvoice : PayInvoice := ⟨7, some 10000000⟩

def payQuote : InSwapConfig where
  paymentHash := 7
  amountSat := 10000
  feeSat := 0
  expiry := 2000000000
  serverPubkey := 2
  timing := ⟨200, 10, 20, 30⟩
  settlementType := .lightning
  creditQuote := none
  preimageHash := none

def createAnswers : CreateAnswers := ⟨.ok 1, .ok (), .ok (some payQuote), .ok 3⟩

def armAnswers : ArmAnswers := ⟨.ok true, .ok "r"⟩

def observeAnswers : ObserveAnswers := ⟨.ok none, .ok 100, armAnswers⟩

def submitAnswers (send : SendAnswer) : SubmitAnswers where
  graceTick := 0
  tick := 0
  height := .ok 100
  send := send
  observe := observeAnswers
  probe := ⟨.none, .notFound⟩
  arm := armAnswers

/-- Nothing is seen on chain. The check before a send in the wait for the funded output comes `tick`
after the turn began and reads `height`. -/
def payAnswers (send : SendAnswer) (tick : ℕ) (height : UInt32) : PayAnswers where
  fund := ⟨observeAnswers, ⟨0, .ok 100⟩, submitAnswers send⟩
  funded :=
    { rejected := ⟨.ok none, .ok ()⟩, observation := .ok .nothing, cancel := .ok (),
      observe := observeAnswers, tick := 0, safe := ⟨tick, .ok height⟩,
      submit := submitAnswers send, poll := ⟨0, 0, false⟩, submitAgain := submitAnswers send }
  claim :=
    { rejected := ⟨.ok none, .ok ()⟩, observation := .ok .nothing, cancel := .ok (),
      refundOutput := .ok none,
      coop := ⟨⟨.ok none, armAnswers⟩, .ok true, .ok .ok, .unavailable, .ok "x"⟩,
      height := .ok 100, poll := ⟨0, 0, false⟩ }
  refund :=
    { observation := .ok .nothing, cancel := .ok (), refundOutput := .ok none,
      recovery := .ok .dormant, session := .ok none, refundable := ⟨.ok none, armAnswers⟩,
      height := .ok 100, receiveScript := .ok true, send := .ok "x", arm := armAnswers,
      escalate := .ok (), interrupted := false }

/-- A payment whose first send is answered by an error, and what happens next. -/
def lostReplyRun (effect : Transfer) (as : List PayAction) : List PayAction :=
  .start 0 0 [] createAnswers :: .advance [] (payAnswers ⟨effect, .error .other⟩ 0 100) :: as

def payStart : PayNode := { env := { now := 1000 } }

theorem payStart_init : (payMachine payConfig payInvoice).init payStart := ⟨rfl, rfl, rfl, rfl, rfl⟩

def PayNode.outcome (n : PayNode) : Option PayState × Transfer × Bool :=
  (n.session.map (·.state), n.env.transfer, n.env.truthful)

/-- A send that was still under way is not found after the deadline. -/
def notFoundRun : List PayAction :=
  lostReplyRun .pending
    [.world (.tick 3000000000), .advance [] (payAnswers ⟨.none, .notFound⟩ 0 100)]

theorem notFoundRun_unfunded : ∃ n,
    (payMachine payConfig payInvoice).run payStart notFoundRun = some n ∧
      n.outcome = (some .expired, .none, true) ∧ n.env.transfer.gone = true := by
  have hout : ((payMachine payConfig payInvoice).run payStart notFoundRun).map PayNode.outcome =
      some (some .expired, .none, true) := by decide +kernel
  have hcare : (payMachine payConfig payInvoice).Along
      (fun n a _ => Careful payConfig payInvoice n a) payStart notFoundRun := by decide +kernel
  obtain ⟨n, hrun, hn⟩ := Option.map_eq_some_iff.1 hout
  obtain ⟨hstate, hrest⟩ := Prod.mk.inj hn
  obtain ⟨s, hs, hst⟩ := Option.map_eq_some_iff.1 hstate
  refine ⟨n, hrun, hn, ?_⟩
  exact written_off_unfunded payStart_init hcare hrun hs (.inl hst) Machine.along_nil
    Machine.run_nil (Prod.mk.inj hrest).2

/-- The reply to a send that made the transfer is lost. Then the refund comes near, or the deadline
passes between two readings of the clock, or the store fails; each time the session is written off.
-/
theorem lostReplyRun_written_off :
    (payMachine payConfig payInvoice).init payStart ∧
    ((payMachine payConfig payInvoice).run payStart (lostReplyRun .made
        [.advance [] (payAnswers ⟨.none, .notFound⟩ 0 195)])).map PayNode.outcome =
      some (some .failed, .made, true) ∧
    ((payMachine payConfig payInvoice).run payStart (lostReplyRun .made
        [.advance [] (payAnswers ⟨.none, .notFound⟩ 2000000000 100)])).map PayNode.outcome =
      some (some .expired, .made, true) ∧
    ((payMachine payConfig payInvoice).run payStart (lostReplyRun .made
        [.advance [.ok, .ok, .ok, .failed false .other]
          (payAnswers ⟨.none, .ok ⟨"s", "o", false, false⟩⟩ 0 100)])).map PayNode.outcome =
      some (some .failed, .made, true) :=
  ⟨payStart_init, by decide +kernel, by decide +kernel, by decide +kernel⟩

end Runs

end Wavelength.Swaps
