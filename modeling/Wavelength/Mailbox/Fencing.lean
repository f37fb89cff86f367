import Wavelength.Mailbox.ExactlyOnce

/-! # Stale workers and the arms that are not fenced

A worker loses its row when the lease runs out and another worker claims it. The
fenced operations then match nothing. Marking the id processed, moving the row
to the dead letters and deleting it go by id alone, and some arms of the result
handling use them: a stale worker in such an arm consumes the row under its new
owner. When no lease is lost on such an arm, stale workers are harmless.
-/

namespace Wavelength.Mailbox

open Option

variable {s s' : State} {w : ℕ}

def Phase.unsettled? : Phase → Option Delivery
  | claimed d | running d _ | closing d false _ => some d
  | idle | closing _ true _ => none

theorem Phase.delivery?_of_unsettled? {p : Phase} (h : p.unsettled? = some d) :
    p.delivery? = some d := by
  unfold Phase.unsettled? at h
  split at h <;> simp_all [Phase.delivery?]

/-- The delivery was leased and its row no longer carries the token. -/
def State.Lost (s : State) (d : Delivery) : Prop :=
  d.leaseToken ≠ none ∧ ∀ m ∈ s.row d.id, m.leaseToken ≠ d.leaseToken

instance (s : State) (d : Delivery) : Decidable (s.Lost d) :=
  inferInstanceAs (Decidable (_ ∧ _))

def Store.SameMailbox (st st' : Store) : Prop :=
  st'.messages.rows = st.messages.rows ∧ st'.deadLetters.rows = st.deadLetters.rows ∧
    st'.processed = st.processed

instance (st st' : Store) : Decidable (st.SameMailbox st') := inferInstanceAs (Decidable (_ ∧ _))

theorem Store.SameMailbox.refl (st : Store) : st.SameMailbox st := ⟨rfl, rfl, rfl⟩

/-- A worker that has lost its row leaves the mailbox as it is. -/
def StaleHarmless (s : State) (a : Action) (s' : State) : Prop :=
  ∀ w ∈ a.worker?, ∀ d ∈ s.workers[w]?.bind Phase.unsettled?, s.Lost d →
    s.store.SameMailbox s'.store

instance (s s' : State) (a : Action) : Decidable (StaleHarmless s a s') :=
  inferInstanceAs (Decidable (∀ w ∈ a.worker?, ∀ d ∈ s.workers[w]?.bind Phase.unsettled?, _ → _))

/-- No operation by id alone before the delivery is settled. -/
def Plan.Fenced : Plan → Prop
  | done => True
  | op o onOk onErr =>
    match o with
    | .ack | .nack _ | .postpone _ => onErr.Fenced
    | .writeAskResponse | .saveAskResult => onOk.Fenced ∧ onErr.Fenced
    | .markProcessed | .moveToDeadLetter _ | .deleteMessage => False

instance Plan.decidableFenced : (p : Plan) → Decidable p.Fenced
  | done => isTrue trivial
  | op o onOk onErr =>
    have := decidableFenced onOk
    have := decidableFenced onErr
    match o with
    | .ack | .nack _ | .postpone _ => inferInstanceAs (Decidable onErr.Fenced)
    | .writeAskResponse | .saveAskResult => inferInstanceAs (Decidable (_ ∧ _))
    | .markProcessed | .moveToDeadLetter _ | .deleteMessage => isFalse id

section Arms

open Plan

/-- The results that `handleResultInTx` handles by fenced operations only: all but
a tell that is given up. -/
def turnFenced (cfg : Config) (d : Delivery) (o : Outcome) : Bool :=
  d.isDurableAsk || d.isAsk ||
    match o with
    | .ok | .postponed _ => true
    | .failed err => (cfg.tellRetryPolicy err d.effectiveAttempts).1 && !d.shouldDeadLetter

end Arms

/-- The worker is not in the middle of an arm that is not fenced, or it still has
its row. -/
def Phase.Covered (s : State) : Phase → Prop
  | closing d false plan => s.Lost d → plan.Fenced
  | _ => True

instance (s : State) : (p : Phase) → Decidable (p.Covered s)
  | .closing d false plan => inferInstanceAs (Decidable (s.Lost d → plan.Fenced))
  | .closing _ true _ | .idle | .claimed _ | .running _ _ => isTrue trivial

/-- Afterwards no lease is lost on an arm that is not fenced, and no turn gives a tell up in its
transaction after it has lost the lease. -/
def Covered (cfg : Config) (s : State) (a : Action) (s' : State) : Prop :=
  (∀ p ∈ s'.workers, p.Covered s') ∧
    match a with
    | .turn w o _ => ∀ d ∈ s.workers[w]?.bind Phase.unsettled?, s.Lost d → turnFenced cfg d o = true
    | _ => True

instance (cfg : Config) (s s' : State) (a : Action) : Decidable (Covered cfg s a s') :=
  @instDecidableAnd _ _ _ (by split <;> infer_instance)

section Stale

variable (h : s.Lost d)
include h

theorem State.Lost.not_owns (hm : s.store.messages.get? d.id = some m) : ¬ Owns d.leaseToken m := by
  rintro (hnone | hsame)
  · exact h.1 hnone
  · exact h.2 m hm hsame

/-- An operation that needs the row under the delivery's token has no effect. -/
theorem State.Lost.eq_none
    (hx : ∀ st', x = some st' → ∃ m, s.store.messages.get? d.id = some m ∧ Owns d.leaseToken m) :
    x = none := by
  rw [eq_none_iff_forall_ne_some]
  intro st' hst
  obtain ⟨m, hm, hown⟩ := hx st' hst
  exact h.not_owns hm hown

theorem ack_of_lost (hst : st.messages = s.store.messages) :
    requireRows (ackMessage st d.id d.leaseToken) = none := by
  refine h.eq_none fun st' h' => ?_
  obtain ⟨m, hm, hown, -⟩ := requireRows_ackMessage.1 h'
  exact ⟨m, hst ▸ hm, hown⟩

theorem nack_of_lost :
    requireRows (nackMessage s.store d.id s.now retryAfter d.leaseToken) = none := by
  refine h.eq_none fun st' h' => ?_
  obtain ⟨m, hm, hown, -⟩ := requireRows_nackMessage.1 h'
  exact ⟨m, hm, hown⟩

theorem postpone_of_lost :
    requireRows (postponeMessage s.store d.id s.now retryAfter d.leaseToken) = none := by
  refine h.eq_none fun st' h' => ?_
  obtain ⟨m, hm, hown, -⟩ := requireRows_postponeMessage.1 h'
  exact ⟨m, hm, hown⟩

theorem releasedRowsInTx_of_lost (hr : requireRows r = none) :
    releasedRowsInTx d r = .error .lostLeaseMidTurn := by
  obtain ⟨st, n⟩ := r
  cases n with
  | zero => simp [releasedRowsInTx, h.1]
  | succ n => simp [requireRows] at hr

/-- An ack inside a transaction that has only written to other tables so far. -/
theorem ackInTx_of_lost (hst : st.messages = s.store.messages) :
    ackInTx d st = .error (.failed errLeaseExpired) := by
  simp [ackInTx, ack_of_lost h hst]

theorem handleResultInTx_of_lost (ho : turnFenced cfg d o = true) :
    ∃ e, handleResultInTx cfg d o s.now s.store = .error e := by
  unfold handleResultInTx
  split
  · exact ⟨_, ackInTx_of_lost h rfl⟩
  next hdur =>
  split
  · exact ⟨_, ackInTx_of_lost h rfl⟩
  next hask =>
  cases o with
  | ok => exact ⟨_, ackInTx_of_lost h rfl⟩
  | postponed delay => exact ⟨_, releasedRowsInTx_of_lost h (postpone_of_lost h)⟩
  | failed err =>
    have hretry : ((cfg.tellRetryPolicy err d.effectiveAttempts).1 && !d.shouldDeadLetter) = true := by
      simpa [turnFenced, hdur, hask] using ho
    simp only [hretry, if_true]
    exact ⟨_, releasedRowsInTx_of_lost h (nack_of_lost h)⟩

theorem exec_of_lost (hf : (Plan.op o onOk onErr).Fenced) (hst : o.exec d s.now s.store = some st) :
    s.store.SameMailbox st := by
  cases o with
  | ack => simp [StoreOp.exec, ack_of_lost h rfl] at hst
  | nack r => simp [StoreOp.exec, nack_of_lost h] at hst
  | postpone r => simp [StoreOp.exec, postpone_of_lost h] at hst
  | writeAskResponse | saveAskResult =>
    cases hst
    exact ⟨rfl, rfl, rfl⟩
  | markProcessed | moveToDeadLetter reason | deleteMessage => exact hf.elim

theorem extend_of_lost (ht : d.leaseToken = some token) :
    (s.store.extendMailboxLease d.id token leaseUntil).1 = s.store := by
  have hnone : requireRows (s.store.extendMailboxLease d.id token leaseUntil) = none := by
    refine h.eq_none fun st' h' => ?_
    obtain ⟨m, hm, hown, -⟩ := requireRows_extendMailboxLease.1 h'
    exact ⟨m, hm, .inr (hown.trans ht.symm)⟩
  exact fst_updateWhere.trans (congrArg (·.getD s.store) hnone)

theorem rejectDurableAsk_of_lost : rejectDurableAsk d s.store = .error errLeaseLost := by
  unfold rejectDurableAsk
  split
  · rfl
  · next st' hst => cases hst.symm.trans (ack_of_lost h rfl)

omit h

theorem unsettled?_running (hp : s.workers[w]? = some p) (hd : p.unsettled? = some d)
    (hw : s.workers[w]? = some (.running d' c)) : d' = d := by
  cases hp.symm.trans hw
  exact some.inj hd

theorem running_of_step (hp : s.workers[w]? = some p) (hd : p.unsettled? = some d)
    (h : step cfg s (.stage w fnOk) = some s' ∨ step cfg s (.commit w fnOk) = some s') :
    ∃ c, s.workers[w]? = some (.running d c) := by
  simp only [step, stepStage, stepCommit] at h
  split at h
  · next d' c _ hrun => exact ⟨c, unsettled?_running hp hd hrun ▸ hrun⟩
  · rcases h with h | h <;> cases h

/-- A worker that has lost its row is harmless in a step of such a run. -/
theorem staleHarmless_of_covered (hinv : ∀ p ∈ s.workers, p.Covered s) (hG : Covered cfg s a s')
    (hstep : step cfg s a = some s') : StaleHarmless s a s' := by
  intro w hw d hd hlost
  obtain ⟨p, hp, hpd⟩ := bind_eq_some_iff.1 hd
  obtain ⟨t, ht⟩ := ne_none_iff_exists'.1 hlost.1
  have htoken : ∀ m, s.row d.id = some m → m.leaseToken ≠ some t := fun m hm => ht ▸ hlost.2 m hm
  cases a with
  | enqueue m | tick seconds | expireLeases => cases hw
  | claim w₀ id token promise =>
    cases hw
    simp only [step, stepClaim] at hstep
    split at hstep
    case h_2 => cases hstep
    next hidle _ =>
    cases hp.symm.trans hidle
    cases hpd
  | poison w₀ reason =>
    simp only [step] at hstep
    split at hstep <;> cases hstep
    exact .refl _
  | dedup w₀ lookupFails =>
    simp only [step, stepDedup] at hstep
    repeat' split at hstep
    all_goals cases hstep
    all_goals exact .refl _
  | heartbeat w₀ =>
    cases hw
    simp only [step, stepHeartbeat, hp, bind_some] at hstep
    split at hstep
    case h_2 => cases hstep
    next d' hbeat =>
    obtain rfl : d' = d := by
      have hdel := Phase.delivery?_of_heartbeat? hbeat
      rw [Phase.delivery?_of_unsettled? hpd] at hdel
      exact (some.inj hdel).symm
    simp only [ht] at hstep
    cases hstep
    have hsame : (s.store.extendMailboxLease d'.id t (s.now + cfg.leaseDuration)).1 = s.store :=
      extend_of_lost hlost ht
    rw [hsame]
    exact .refl _
  | stage w₀ fnOk =>
    obtain rfl : w₀ = w := some.inj hw
    obtain ⟨c, hrun⟩ := running_of_step hp hpd (.inl hstep)
    rw [step_of_lost hrun ht htoken (.inl hstep)]
    exact .refl _
  | commit w₀ fnOk =>
    obtain rfl : w₀ = w := some.inj hw
    obtain ⟨c, hrun⟩ := running_of_step hp hpd (.inr hstep)
    rw [step_of_lost hrun ht htoken (.inr hstep)]
    exact .refl _
  | reject w₀ txErr =>
    cases hw
    simp only [step, stepReject] at hstep
    split at hstep
    case h_2 => cases hstep
    next d' c _ hrun =>
    obtain rfl := unsettled?_running hp hpd hrun
    split at hstep
    case isFalse => cases hstep
    split at hstep
    · cases hstep
      exact .refl _
    next st hst =>
    cases txErr with
    | none => simp [rejectDurableAsk_of_lost hlost] at hst
    | some err => cases hst
  | finish w₀ o outboxErr =>
    simp only [step, stepFinish] at hstep
    repeat' split at hstep
    all_goals cases hstep
    all_goals exact .refl _
  | turn w₀ o txErr =>
    cases hw
    simp only [step, stepTurn] at hstep
    split at hstep
    case h_2 => cases hstep
    next d' _ hrun =>
    obtain rfl := unsettled?_running hp hpd hrun
    split at hstep
    · next st hst =>
      cases txErr with
      | none =>
        obtain ⟨e, he⟩ := handleResultInTx_of_lost hlost (hG.2 d' hd hlost)
        simp [he] at hst
      | some err => cases hst
    all_goals
      cases hstep
      exact .refl _
  | storeOp w₀ fails =>
    cases hw
    simp only [step, stepStoreOp] at hstep
    split at hstep
    case h_3 => cases hstep
    case h_1 =>
      cases hstep
      exact .refl _
    next d' b o onOk onErr hclose =>
    cases hp.symm.trans hclose
    cases b with
    | true => cases hpd
    | false =>
      cases hpd
      have hfenced := hinv _ (List.mem_of_getElem? hclose) hlost
      split at hstep
      · cases hstep
        exact .refl _
      next st hst =>
      cases fails with
      | true => cases hst
      | false =>
        cases hstep
        exact exec_of_lost hlost hfenced hst
  | crash w₀ =>
    cases hstep
    exact .refl _

end Stale

variable {cfg : Config}

def staleRetry : List Action :=
  [.enqueue { id := 1, mailboxId := 0 }, .claim 0 1 10 false, .dedup 0 false, .tick 31,
    .claim 1 1 11 false, .dedup 1 false, .finish 0 (.failed "busy") "", .storeOp 0 false,
    .commit 1 true]

/-- Four attempts end in a crash. The fifth worker's lease runs out and the row is
leased again; its behavior then fails, the retry policy gives up, and the row is
dead-lettered under its new owner. -/
def staleGiveUp : List Action :=
  .enqueue { id := 1, mailboxId := 0 } ::
    ([10, 11, 12, 13].flatMap fun token => [.claim 0 1 token false, .crash 0, .tick 31]) ++
    [.claim 0 1 14 false, .dedup 0 false, .tick 31, .claim 1 1 15 false, .dedup 1 false,
      .finish 0 (.failed "no route") "", .storeOp 0 false, .storeOp 0 false]

end Wavelength.Mailbox
