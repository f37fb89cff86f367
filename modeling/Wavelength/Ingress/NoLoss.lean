import Wavelength.Ingress.Delivery

/-! # No envelope is acknowledged before it is settled

When every pull shows a window of one mailbox, with nothing left out before its
last envelope, no cursor of the loop passes an envelope that has not been
settled. The watermark of the hoisted requests relies on this: it stands for all
requests up to its sequence number, not only for those that were pulled.
-/

namespace Wavelength.Ingress

open List

/-- Every admitted envelope below the cursor is settled. -/
def CoveredTo (cfg : Config) (mailbox settled : List Envelope) (cursor : ℕ) : Prop :=
  ∀ e ∈ mailbox, cfg.inboundSenderAllowed e = true → e.eventSeq < cursor → e ∈ settled

/-- Every admitted request up to the watermark is settled. -/
def ServedTo (cfg : Config) (mailbox settled : List Envelope) (served : ℕ) : Prop :=
  ∀ e ∈ mailbox, cfg.inboundSenderAllowed e = true → cfg.isNonTxRequest e = true →
    0 < e.eventSeq → e.eventSeq ≤ served → e ∈ settled

/-- Up to its last envelope, a batch shows everything that is not settled. -/
def Shows (cfg : Config) (mailbox settled window : List Envelope) : Prop :=
  ∀ e ∈ mailbox, cfg.inboundSenderAllowed e = true → (∃ x ∈ window, e.eventSeq ≤ x.eventSeq) →
    e ∈ settled ∨ e ∈ window

theorem CoveredTo.mono (h : CoveredTo cfg mailbox settled c) (hle : c' ≤ c)
    (hsub : ∀ e ∈ settled, e ∈ settled') : CoveredTo cfg mailbox settled' c' :=
  fun e he ha hlt => hsub e (h e he ha (Nat.lt_of_lt_of_le hlt hle))

variable {served : ℕ}

theorem ServedTo.mono (h : ServedTo cfg mailbox settled served)
    (hsub : ∀ e ∈ settled, e ∈ settled') :
    ServedTo cfg mailbox settled' served :=
  fun e he ha hreq hpos hle => hsub e (h e he ha hreq hpos hle)

section Split

variable (cfg : Config) (ans : FoldAnswers) (envs : List Envelope)

def waiterPart : List Envelope :=
  (envs.filter (isWaiterResponse ans.hasWaiter)).filter
    fun e => decide (ans.deliverResponse e = .waiter)

def hoistedPart : List Envelope :=
  envs.filter fun e => !isWaiterResponse ans.hasWaiter e && cfg.isNonTxRequest e

/-- The partition that the transaction dispatches: the durable envelopes and the
responses whose waiter has vanished. -/
def foldedPart : List Envelope :=
  let durables := envs.filter fun e => !isWaiterResponse ans.hasWaiter e && !cfg.isNonTxRequest e
  let stragglers := (envs.filter (isWaiterResponse ans.hasWaiter)).filter
    fun e => !decide (ans.deliverResponse e = .waiter)
  if stragglers = [] then durables else mergeEnvelopesByEventSeq durables stragglers

variable {cfg ans envs}

theorem mem_hoistedPart (hreq : cfg.isNonTxRequest e = true) (he : e ∈ envs) :
    e ∈ hoistedPart cfg ans envs :=
  mem_filter.2 ⟨he, by simp [hreq, not_isWaiterResponse_of_isNonTxRequest ans.hasWaiter hreq]⟩

theorem mem_foldedPart : e ∈ foldedPart cfg ans envs ↔ e ∈ envs ∧
    ((isWaiterResponse ans.hasWaiter e = false ∧ cfg.isNonTxRequest e = false) ∨
      (isWaiterResponse ans.hasWaiter e = true ∧ ans.deliverResponse e ≠ .waiter)) := by
  simp only [foldedPart]
  split
  · next hnone =>
    have hno := filter_eq_nil_iff.1 hnone
    simp only [mem_filter] at hno ⊢
    constructor
    · rintro ⟨he, hd⟩
      exact ⟨he, .inl (by simpa using hd)⟩
    · rintro ⟨he, hd | ⟨hw, hs⟩⟩
      · exact ⟨he, by simpa using hd⟩
      · exact absurd (by simpa using hs) (hno e ⟨he, hw⟩)
  · simp only [mergeEnvelopesByEventSeq, mem_merge, mem_filter]
    constructor
    · rintro (⟨he, hd⟩ | ⟨⟨he, hw⟩, hs⟩)
      · exact ⟨he, .inl (by simpa using hd)⟩
      · exact ⟨he, .inr ⟨hw, by simpa using hs⟩⟩
    · rintro ⟨he, hd | ⟨hw, hs⟩⟩
      · exact .inl ⟨he, by simpa using hd⟩
      · exact .inr ⟨⟨he, hw⟩, by simpa using hs⟩

theorem foldedPart_pairwise (ans : FoldAnswers) (h : Ascending envs) :
    (foldedPart cfg ans envs).Pairwise fun x y => x.eventSeq ≤ y.eventSeq := by
  simp only [foldedPart]
  split
  · exact (h.filter _).imp Nat.le_of_lt
  · exact pairwise_merge_le (h.filter _) ((h.filter _).filter _)

end Split

section Folded

variable {redrive : RedriveState}

/-- What a folded dispatch guarantees, with `settled` settled before it. -/
structure FoldSpec (cfg : Config) (mailbox settled : List Envelope) (state : AckState)
    (redrive : RedriveState) (r : FoldResult) : Prop where
  covered : CoveredTo cfg mailbox (settled ++ r.settled) r.state.pullCursor
  served : ServedTo cfg mailbox (settled ++ r.settled) r.redrive.servedNonTxSeq
  outcome : (r.committed = false ∧ r.state = state) ∨
    (r.committed = true ∧ ∃ c, state.pullCursor ≤ c ∧ r.state = state.dispatchedTo c)
  uncommitted : r.error ≠ none → (∀ n, r.error ≠ some (.deferred n)) → r.committed = false
  deferredSeq : r.redrive.deferredSeq = redrive.deferredSeq
  deferred : ∀ n, r.error = some (.deferred n) → n < maxUint64

theorem FoldSpec.of_uncommitted (hcov : CoveredTo cfg mailbox settled state.pullCursor)
    (hserved : ServedTo cfg mailbox (settled ++ r.settled) served) (hstate : r.state = state)
    (hred : r.redrive = { redrive with servedNonTxSeq := served }) (hcom : r.committed = false)
    (hdef : ∀ n, r.error = some (.deferred n) → n < maxUint64) :
    FoldSpec cfg mailbox settled state redrive r where
  covered := by
    rw [hstate]
    exact hcov.mono (Nat.le_refl _) fun e he => mem_append_left _ he
  served := by rw [hred]; exact hserved
  outcome := .inl ⟨hcom, hstate⟩
  uncommitted _ _ := hcom
  deferredSeq := by rw [hred]
  deferred := hdef

theorem le_deferredCursor (n c : ℕ) : c ≤ deferredCursor n c := by
  unfold deferredCursor
  split <;> omega

/-- Below the cursor of a deferral everything is either below the old cursor or
below the envelope that was turned away. -/
theorem lt_deferredCursor (h : m < deferredCursor n c) : m < c ∨ m < n := by
  unfold deferredCursor at h
  split at h
  · exact .inl h
  · exact .inr h

/-- The transaction keeps the cursor safe when everything up to the next cursor, or
up to an envelope of its part, is settled or in its part. -/
theorem foldTx_spec (ans : FoldAnswers) (hasc : Ascending window)
    (hsub : ∀ x ∈ durables, x ∈ window)
    (hsorted : durables.Pairwise fun x y => x.eventSeq ≤ y.eventSeq)
    (hlt : ∀ x ∈ durables, x.eventSeq < maxUint64)
    (hcov : CoveredTo cfg mailbox settled state.pullCursor)
    (hserved : ServedTo cfg mailbox (settled ++ before) redrive.servedNonTxSeq)
    (hnext : state.pullCursor ≤ nextCursor)
    (hpart : ∀ e ∈ mailbox, cfg.inboundSenderAllowed e = true →
      (e.eventSeq < nextCursor ∨ ∃ x ∈ durables, e.eventSeq ≤ x.eventSeq) →
      e ∈ settled ++ before ∨ e ∈ durables) :
    FoldSpec cfg mailbox settled state redrive
      (foldTx cfg ans durables nextCursor state redrive before) := by
  obtain ⟨pre, rest, hspec⟩ := dispatchBatch_spec cfg ans.last true durables
    { seen := (runReplays cfg durables ans.replays []).2 }
  -- what the last attempt has gone through is settled
  have hpre : ∀ e ∈ pre, cfg.inboundSenderAllowed e = true → _ := fun e he ha =>
    settled_of_last hasc hsub ans.replays hspec he ha
  have hwiden : ∀ more more', ServedTo cfg mailbox (settled ++ (before ++ more ++ more'))
      redrive.servedNonTxSeq := fun more more' => hserved.mono fun e he => by
    rw [append_assoc, ← append_assoc]
    exact mem_append_left _ he
  simp only [foldTx]
  split
  · next herr =>
    split
    · have hrest := hspec.complete herr
      refine ⟨fun e he ha hle => ?_, ?_, .inr ⟨rfl, nextCursor, hnext, rfl⟩,
        by simp [herr], rfl, by simp [herr]⟩
      · rcases hpart e he ha (.inl hle) with hold | hmem
        · simp only [append_assoc, mem_append] at hold ⊢
          tauto
        rw [hspec.batch, hrest, append_nil] at hmem
        have := hpre e hmem ha
        simp only [append_assoc, mem_append] at this ⊢
        tauto
      · exact hwiden _ _
    · exact .of_uncommitted hcov (hwiden _ _) rfl rfl rfl nofun
  · next n herr =>
    obtain ⟨env, rest', hrest, rfl⟩ := hspec.stopped n herr
    have henv : env ∈ durables := by rw [hspec.batch, hrest]; simp
    split
    · refine ⟨fun e he ha hle => ?_, ?_, .inr ⟨rfl, _, le_deferredCursor _ _, rfl⟩,
        by simp [herr], rfl, ?_⟩
      · rcases lt_deferredCursor hle with hlow | hlow
        · exact mem_append_left _ (hcov e he ha hlow)
        rcases hpart e he ha (.inr ⟨env, henv, Nat.le_of_lt hlow⟩) with hold | hmem
        · simp only [append_assoc, mem_append] at hold ⊢
          tauto
        -- the envelopes from the deferred one on are not below it
        have hmem : e ∈ pre := by
          rw [hspec.batch, hrest] at hmem hsorted
          rcases mem_append.1 hmem with h | h
          · exact h
          have htail := (pairwise_append.1 hsorted).2.1
          rcases mem_cons.1 h with rfl | h
          · exact absurd hlow (Nat.lt_irrefl _)
          · exact absurd ((pairwise_cons.1 htail).1 e h) (Nat.not_le.2 hlow)
        have := hpre e hmem ha
        simp only [append_assoc, mem_append] at this ⊢
        tauto
      · exact hwiden _ _
      · rintro n hn
        rw [herr] at hn
        cases hn
        exact hlt env henv
    · exact .of_uncommitted hcov (hwiden _ _) rfl rfl rfl nofun
  · next err hne herr =>
    refine .of_uncommitted hcov (hwiden _ _) rfl rfl rfl fun n hn => ?_
    cases hn
    exact absurd rfl (hne n)

/-- The envelopes that the dispatch of a batch works on, after the foreign ones are
dropped and the clamp is applied. -/
structure Working (cfg : Config) (mailbox settled window envs : List Envelope) (next : ℕ) :
    Prop where
  sub : envs.Sublist window
  pos : ∀ e ∈ envs, 0 < e.eventSeq
  shown : ∀ e ∈ mailbox, cfg.inboundSenderAllowed e = true →
    (e.eventSeq < next ∨ ∃ x ∈ envs, e.eventSeq ≤ x.eventSeq) → e ∈ settled ∨ e ∈ envs

theorem ClampSpec.working {cursor next : ℕ}
    (hclamp : ClampSpec window (cfg.dropForeignSenders window) cursor envs next)
    (hpos : ∀ e ∈ window, 0 < e.eventSeq) (hshows : Shows cfg mailbox settled window) :
    Working cfg mailbox settled window envs next where
  sub := hclamp.sub.trans filter_sublist
  pos e he := hpos e ((hclamp.sub.trans filter_sublist).subset he)
  shown e he ha hle := by
    have hlast : ∃ x ∈ window, e.eventSeq ≤ x.eventSeq := by
      rcases hle with hlt | ⟨x, hx, hle⟩
      · obtain ⟨x, hx, hnext⟩ := hclamp.next_le
        exact ⟨x, hx, by omega⟩
      · exact ⟨x, (hclamp.sub.trans filter_sublist).subset hx, hle⟩
    refine (hshows e he ha hlast).imp_right fun hw => ?_
    have hkept : e ∈ cfg.dropForeignSenders window := mem_filter.2 ⟨hw, ha⟩
    rcases hle with hlt | ⟨x, hx, hle⟩
    · exact hclamp.below e hkept hlt
    · exact hclamp.closed e hkept x hx hle

namespace Working

variable {next served : ℕ}

variable (h : Working cfg mailbox settled window envs next) (hserved : ServedTo cfg mailbox settled redrive.servedNonTxSeq)
include h hserved

/-- The watermark stands for every request up to it, also for those of later pulls. -/
theorem servedTo
    (hspec : ServedSpec (hoistedPart cfg ans envs) redrive.servedNonTxSeq served requests err) :
    ServedTo cfg mailbox (settled ++ requests) served := by
  intro e he ha hreq hpos hle
  rcases hspec.watermark with hw | ⟨x, hx, hw⟩
  · exact mem_append_left _ (hserved e he ha hreq hpos (hw ▸ hle))
  rcases h.shown e he ha (.inr ⟨x, (mem_filter.1 hx).1, hw ▸ hle⟩) with hold | hmem
  · exact mem_append_left _ hold
  · rcases hspec.below e (mem_hoistedPart hreq hmem) hle with hlow | hmem
    · exact mem_append_left _ (hserved e he ha hreq hpos hlow)
    · exact mem_append_right _ hmem

theorem part
    (hspec : ServedSpec (hoistedPart cfg ans envs) redrive.servedNonTxSeq served requests none)
    (he : e ∈ mailbox) (ha : cfg.inboundSenderAllowed e = true)
    (hle : e.eventSeq < next ∨ ∃ x ∈ foldedPart cfg ans envs, e.eventSeq ≤ x.eventSeq) :
    e ∈ settled ++ (waiterPart ans envs ++ requests) ∨ e ∈ foldedPart cfg ans envs := by
  have hle : e.eventSeq < next ∨ ∃ x ∈ envs, e.eventSeq ≤ x.eventSeq :=
    hle.imp_right fun ⟨x, hx, hxe⟩ => ⟨x, (mem_foldedPart.1 hx).1, hxe⟩
  rcases h.shown e he ha hle with hold | hmem
  · exact .inl (mem_append_left _ hold)
  by_cases hw : isWaiterResponse ans.hasWaiter e = true
  · by_cases hd : ans.deliverResponse e = .waiter
    · refine .inl (mem_append_right _ (mem_append_left _ ?_))
      exact mem_filter.2 ⟨mem_filter.2 ⟨hmem, hw⟩, by simpa using hd⟩
    · exact .inr (mem_foldedPart.2 ⟨hmem, .inr ⟨hw, hd⟩⟩)
  rw [Bool.not_eq_true] at hw
  by_cases hreq : cfg.isNonTxRequest e = true
  · rcases hspec.complete rfl e (mem_hoistedPart hreq hmem) with hlow | hmem
    · exact .inl (mem_append_left _ (hserved e he ha hreq (h.pos e hmem) hlow))
    · exact .inl (mem_append_right _ (mem_append_right _ hmem))
  · exact .inr (mem_foldedPart.2 ⟨hmem, .inl ⟨hw, by simpa using hreq⟩⟩)

omit h hserved

end Working

theorem runFoldedDispatch_eq {next : ℕ}
    (hall : (cfg.dropForeignSenders resp.envelopes).all cfg.validateInboundEnvelope = true)
    (hclamp : clampToDeferred (cfg.dropForeignSenders resp.envelopes) resp.nextCursor
      redrive.deferredSeq = (envs, next))
    (hserve : dispatchNonTxRequests ans.serve (hoistedPart cfg ans envs) redrive.servedNonTxSeq =
      (served, requests, err)) :
    runFoldedDispatch cfg ans resp state redrive =
      err.elim
        (foldTx cfg ans (foldedPart cfg ans envs) next state
          { redrive with servedNonTxSeq := served } (waiterPart ans envs ++ requests))
        fun e => ⟨state, { redrive with servedNonTxSeq := served }, some e,
          waiterPart ans envs ++ requests, false⟩ := by
  unfold hoistedPart at hserve
  simp only [runFoldedDispatch, hall, if_true, hclamp, splitIngressEnvelopes_eq,
    deliverWaiterResponses, partition_eq_filter_filter, hserve]
  cases err <;> rfl

theorem runFoldedDispatch_spec (ans : FoldAnswers) (hacc : Accepted state.pullCursor resp)
    (hshows : Shows cfg mailbox settled resp.envelopes)
    (hcov : CoveredTo cfg mailbox settled state.pullCursor)
    (hserved : ServedTo cfg mailbox settled redrive.servedNonTxSeq)
    (hdef : redrive.deferredSeq < maxUint64) :
    FoldSpec cfg mailbox settled state redrive (runFoldedDispatch cfg ans resp state redrive) := by
  cases hall : (cfg.dropForeignSenders resp.envelopes).all cfg.validateInboundEnvelope with
  | false =>
    simp only [runFoldedDispatch, hall, Bool.false_eq_true, if_false]
    exact .of_uncommitted hcov (by simpa using hserved) rfl rfl rfl nofun
  | true =>
    have hkept : (cfg.dropForeignSenders resp.envelopes).Sublist resp.envelopes := filter_sublist
    have hclamp := clampToDeferred_spec hacc hkept hdef
    rcases hc : clampToDeferred (cfg.dropForeignSenders resp.envelopes) resp.nextCursor
      redrive.deferredSeq with ⟨envs, next⟩
    rw [hc] at hclamp
    have hwork := hclamp.working hacc.pos hshows
    have hasc : Ascending envs := hacc.ascending.sublist hwork.sub
    have hlt : ∀ x ∈ envs, x.eventSeq < maxUint64 := fun x hx => hacc.lt x (hwork.sub.subset hx)
    have hhoist : Ascending (hoistedPart cfg ans envs) := hasc.filter _
    have hspec := dispatchNonTxRequests_spec ans.serve hhoist redrive.servedNonTxSeq
    rcases hs : dispatchNonTxRequests ans.serve (hoistedPart cfg ans envs) redrive.servedNonTxSeq
      with ⟨served, requests, err⟩
    rw [hs] at hspec
    have hbefore : ServedTo cfg mailbox (settled ++ (waiterPart ans envs ++ requests)) served :=
      (hwork.servedTo hserved hspec).mono fun e he => by
        simp only [mem_append] at he ⊢
        tauto
    rw [runFoldedDispatch_eq hall hc hs]
    cases err with
    | some err =>
      refine .of_uncommitted hcov hbefore rfl rfl rfl fun n hn => ?_
      obtain ⟨x, hx, rfl⟩ := hspec.stopped n hn
      exact hlt x (mem_filter.1 hx).1
    | none =>
      have htx : FoldSpec cfg mailbox settled state { redrive with servedNonTxSeq := served } _ :=
        foldTx_spec ans hasc (fun x hx => (mem_foldedPart.1 hx).1) (foldedPart_pairwise ans hasc)
          (fun x hx => hlt x (mem_foldedPart.1 hx).1) hcov hbefore (Nat.le_of_lt hclamp.next_gt)
          fun e he ha hle => hwork.part hserved hspec he ha hle
      exact ⟨htx.covered, htx.served, htx.outcome, htx.uncommitted, htx.deferredSeq, htx.deferred⟩

end Folded

/-- Every pull shows the mailbox from the pull cursor on without a gap. What has
been acknowledged may be gone. -/
def Windowed (mailbox : List Envelope) (s : State) (a : Action) (_ : State) : Prop :=
  match a with
  | .pull resp _ => ∀ l ∈ s.loop, ∃ c ∈ 0 :: s.acks.map Prod.snd, ∃ g ≤ c,
      resp.envelopes <+: mailbox.filter (max l.state.pullCursor g ≤ ·.eventSeq)
  | .start | .crash | .ack _ _ => True

instance (s s' : State) (a : Action) : Decidable (Windowed mailbox s a s') := by
  unfold Windowed; split <;> infer_instance

/-- An admitted envelope that the persisted pull cursor or an acknowledgement has
passed is settled. -/
def State.NoneLost (cfg : Config) (envs : List Envelope) (s : State) : Prop :=
  ∀ e ∈ envs, cfg.inboundSenderAllowed e = true →
    e.eventSeq < s.checkpoint.pullCursor ∨ (∃ c ∈ s.acks, e.eventSeq < c.2) → e ∈ s.settled

instance (envs : List Envelope) (s : State) : Decidable (s.NoneLost cfg envs) := by
  unfold State.NoneLost; infer_instance

/-- Acknowledgements never go back: at all with the transactional store, within one
lifetime of the process without it. -/
def State.AcksOrdered (cfg : Config) (s : State) : Prop :=
  s.acks.Pairwise fun p q => cfg.txStore = true ∨ p.1 = q.1 → p.2 ≤ q.2

/-- How a step moves the cursors. -/
structure AckState.Advances (s s' : AckState) : Prop where
  pull : s.pullCursor ≤ s'.pullCursor
  target : s.ackTarget ≤ s'.ackTarget
  dispatched_le : s'.dispatchCommittedTo ≤ s'.pullCursor
  target_le : s'.ackTarget ≤ s'.pullCursor

/-- The running loop against the tables: it is never behind the checkpoint, and the
transactional path acknowledges only what the checkpoint says. -/
structure LoopSafe (cfg : Config) (mailbox : List Envelope) (s : State) (l : Loop) : Prop where
  covered : CoveredTo cfg mailbox s.settled l.state.pullCursor
  served : ServedTo cfg mailbox s.settled l.redrive.servedNonTxSeq
  deferred : l.redrive.deferredSeq < maxUint64
  ordered : l.state.Advances l.state
  ahead : s.checkpoint.pullCursor ≤ l.state.pullCursor
  acked : ∀ p ∈ s.acks, cfg.txStore = true ∨ p.1 = s.lifetime → p.2 ≤ l.state.ackTarget
  target : cfg.txStore = true → l.state.ackTarget ≤ s.checkpoint.ackTarget

structure NoLoss (cfg : Config) (mailbox : List Envelope) (s : State) : Prop where
  covered : CoveredTo cfg mailbox s.settled s.checkpoint.pullCursor
  ordered : s.checkpoint.Advances s.checkpoint
  acked : ∀ p ∈ s.acks, CoveredTo cfg mailbox s.settled p.2
  lifetimes : ∀ p ∈ s.acks, p.1 ≤ s.lifetime
  target : cfg.txStore = true → ∀ p ∈ s.acks, p.2 ≤ s.checkpoint.ackTarget
  acksOrdered : s.AcksOrdered cfg
  loop : ∀ l ∈ s.loop, LoopSafe cfg mailbox s l

theorem noLoss_initial : NoLoss cfg mailbox {} where
  covered _ _ _ h := absurd h (Nat.not_lt_zero _)
  ordered := ⟨Nat.le_refl _, Nat.le_refl _, Nat.le_refl _, Nat.le_refl _⟩
  acked := nofun
  lifetimes := nofun
  target _ := nofun
  acksOrdered := Pairwise.nil
  loop := nofun

variable {state : AckState}

theorem AckState.Advances.dispatchedTo (h : state.Advances state) (hc : state.pullCursor ≤ c) :
    state.Advances (state.dispatchedTo c) := by
  have := h.dispatched_le
  have := h.target_le
  constructor <;> simp only [AckState.dispatchedTo, AckState.advanceDispatch] <;> omega

theorem AckState.Advances.advanceAck (h : state.Advances state) :
    state.Advances state.advanceAck := by
  have := h.dispatched_le
  have := h.target_le
  constructor <;> simp only [AckState.advanceAck] <;> omega

theorem FoldSpec.advances (h : FoldSpec cfg mailbox settled state redrive r)
    (hord : state.Advances state) : state.Advances r.state := by
  rcases h.outcome with ⟨-, hst⟩ | ⟨-, c, hc, hst⟩
  · rwa [hst]
  · rw [hst]
    exact hord.dispatchedTo hc

theorem FoldSpec.checkpoint (h : FoldSpec cfg mailbox settled state redrive r) (cp : AckState) :
    (if r.committed = true then r.state else cp) = r.state ∨
      ((if r.committed = true then r.state else cp) = cp ∧ r.state = state) := by
  rcases h.outcome with ⟨hc, hst⟩ | ⟨hc, -⟩
  · exact .inr ⟨by simp [hc], hst⟩
  · exact .inl (by simp [hc])

theorem AckState.Advances.self {s s' : AckState} (h : s.Advances s') : s'.Advances s' :=
  ⟨Nat.le_refl _, Nat.le_refl _, h.dispatched_le, h.target_le⟩

namespace NoLoss

variable (h : NoLoss cfg mailbox s)
include h

theorem advance (hl : l ∈ s.loop) {cp : AckState} (hsub : ∀ e ∈ s.settled, e ∈ settled')
    (hadv : l.state.Advances l'.state) (hcov : CoveredTo cfg mailbox settled' l'.state.pullCursor)
    (hserved : ServedTo cfg mailbox settled' l'.redrive.servedNonTxSeq)
    (hdef : l'.redrive.deferredSeq < maxUint64) (hcp : cp = l'.state ∨ (cp = s.checkpoint ∧
      (cfg.txStore = true → l'.state.ackTarget = l.state.ackTarget))) :
    NoLoss cfg mailbox { s with checkpoint := cp, loop := some l', settled := settled' } ∧
      s.checkpoint.pullCursor ≤ cp.pullCursor := by
  have hsafe := h.loop l hl
  have hacked : ∀ p ∈ s.acks, cfg.txStore = true ∨ p.1 = s.lifetime → p.2 ≤ l'.state.ackTarget :=
    fun p hp hpl => Nat.le_trans (hsafe.acked p hp hpl) hadv.target
  have hahead := Nat.le_trans hsafe.ahead hadv.pull
  have hold := fun p hp => (h.acked p hp).mono (Nat.le_refl _) hsub
  rcases hcp with rfl | ⟨rfl, htarget⟩
  · refine ⟨⟨hcov, hadv.self, hold, h.lifetimes, fun htx p hp => hacked p hp (.inl htx),
      h.acksOrdered, fun l₁ hl₁ => ?_⟩, hahead⟩
    cases hl₁
    exact ⟨hcov, hserved, hdef, hadv.self, Nat.le_refl _, hacked, fun _ => Nat.le_refl _⟩
  refine ⟨⟨h.covered.mono (Nat.le_refl _) hsub, h.ordered, hold, h.lifetimes, h.target,
    h.acksOrdered, fun l₁ hl₁ => ?_⟩, Nat.le_refl _⟩
  cases hl₁
  exact ⟨hcov, hserved, hdef, hadv.self, hahead, hacked, fun htx => htarget htx ▸ hsafe.target htx⟩

theorem stop (hsub : ∀ e ∈ s.settled, e ∈ settled') :
    NoLoss cfg mailbox { s with loop := none, settled := settled' } :=
  ⟨h.covered.mono (Nat.le_refl _) hsub, h.ordered,
    fun p hp => (h.acked p hp).mono (Nat.le_refl _) hsub, h.lifetimes, h.target, h.acksOrdered,
    nofun⟩

theorem notePulled (pulled : List Envelope) : NoLoss cfg mailbox { s with pulled := pulled } := by
  refine ⟨h.covered, h.ordered, h.acked, h.lifetimes, h.target, h.acksOrdered, fun l hl => ?_⟩
  obtain ⟨hcov, hserved, hdef, hord, hahead, hacked, htarget⟩ := h.loop l hl
  exact ⟨hcov, hserved, hdef, hord, hahead, hacked, htarget⟩

theorem start :
    NoLoss cfg mailbox
      { s with loop := some { state := s.checkpoint }, lifetime := s.lifetime + 1 } := by
  refine ⟨h.covered, h.ordered, h.acked, fun p hp => Nat.le_succ_of_le (h.lifetimes p hp), h.target,
    h.acksOrdered, fun l hl => ?_⟩
  cases hl
  refine ⟨h.covered, fun e _ _ _ hpos hle => ?_, (by decide : 0 < maxUint64), h.ordered, Nat.le_refl _, ?_,
    fun _ => Nat.le_refl _⟩
  · exact absurd hpos (Nat.not_lt.2 hle)
  · rintro p hp (htx | hlife)
    · exact h.target htx p hp
    · exact absurd (h.lifetimes p hp) (by simp [hlife])

theorem noteAck (hl : l ∈ s.loop) :
    NoLoss cfg mailbox { s with acks := s.acks ++ [(s.lifetime, l.state.ackTarget)] } := by
  have hsafe := h.loop l hl
  have hmem : ∀ {p : ℕ × ℕ}, p ∈ s.acks ++ [(s.lifetime, l.state.ackTarget)] →
      p ∈ s.acks ∨ p = (s.lifetime, l.state.ackTarget) := fun hp => by simpa using hp
  refine ⟨h.covered, h.ordered, fun p hp => ?_, fun p hp => ?_, fun htx p hp => ?_, ?_,
    fun l₁ hl₁ => ?_⟩
  · rcases hmem hp with hp | rfl
    · exact h.acked p hp
    · exact hsafe.covered.mono hsafe.ordered.target_le fun _ he => he
  · rcases hmem hp with hp | rfl
    · exact h.lifetimes p hp
    · exact Nat.le_refl _
  · rcases hmem hp with hp | rfl
    · exact h.target htx p hp
    · exact hsafe.target htx
  · refine pairwise_append.2 ⟨h.acksOrdered, pairwise_singleton _ _, fun p hp q hq => ?_⟩
    obtain rfl := mem_singleton.1 hq
    exact hsafe.acked p hp
  · obtain rfl := Option.mem_unique hl₁ hl
    refine ⟨hsafe.covered, hsafe.served, hsafe.deferred, hsafe.ordered, hsafe.ahead,
      fun p hp hpl => ?_, hsafe.target⟩
    rcases hmem hp with hp | rfl
    · exact hsafe.acked p hp hpl
    · exact Nat.le_refl _

omit h

theorem mem_left_of_le (hasc : Ascending (l₁ ++ l₂)) (he : e ∈ l₁ ++ l₂) (hx : x ∈ l₁)
    (hle : e.eventSeq ≤ x.eventSeq) : e ∈ l₁ := by
  rcases mem_append.1 he with he | he
  · exact he
  · exact absurd ((pairwise_append.1 hasc).2.2 x hx e he) (Nat.not_lt.2 hle)

theorem mem_of_window (hasc : Ascending mailbox) (hw : window <+: mailbox.filter (m ≤ ·.eventSeq))
    (he : e ∈ mailbox) (hm : m ≤ e.eventSeq) (hx : x ∈ window) (hle : e.eventSeq ≤ x.eventSeq) :
    e ∈ window := by
  obtain ⟨rest, hrest⟩ := hw
  have hmem : e ∈ window ++ rest := hrest ▸ mem_filter.2 ⟨he, by simpa using hm⟩
  have hsorted : Ascending (window ++ rest) := hrest ▸ hasc.filter _
  exact mem_left_of_le hsorted hmem hx hle

variable (h : NoLoss cfg mailbox s)
include h

theorem shows (hasc : Ascending mailbox) (hl : l ∈ s.loop)
    (hG : Windowed mailbox s (.pull resp ans) s') : Shows cfg mailbox s.settled resp.envelopes := by
  obtain ⟨c, hc, g, hgc, hw⟩ := hG l hl
  rintro e he ha ⟨x, hx, hle⟩
  rcases Nat.lt_or_ge e.eventSeq (max l.state.pullCursor g) with hlow | hge
  · rcases Nat.lt_or_ge e.eventSeq l.state.pullCursor with hlow' | hge
    · exact .inl ((h.loop l hl).covered e he ha hlow')
    -- below an acknowledged cursor
    have hec : e.eventSeq < c := by omega
    rcases mem_cons.1 hc with rfl | hc
    · exact absurd hec (Nat.not_lt_zero _)
    · obtain ⟨p, hp, rfl⟩ := mem_map.1 hc
      exact .inl (h.acked p hp e he ha hec)
  · exact .inr (mem_of_window hasc hw he hge hx hle)

theorem stepAck (hl : l ∈ s.loop) (replyOk saveOk : Bool) :
    NoLoss cfg mailbox (stepAck cfg s l replyOk saveOk) ∧
      s.checkpoint.pullCursor ≤ (Ingress.stepAck cfg s l replyOk saveOk).checkpoint.pullCursor := by
  have hsafe := h.loop l hl
  have hnote := h.noteAck hl
  have hadv := hsafe.ordered.advanceAck
  have hcov : CoveredTo cfg mailbox s.settled l.state.advanceAck.pullCursor :=
    hsafe.covered.mono (Nat.max_le.2 ⟨Nat.le_refl _, hsafe.ordered.target_le⟩) fun _ he => he
  simp only [Ingress.stepAck]
  split
  · split
    · exact hnote.advance hl (fun _ he => he) hadv hcov hsafe.served hsafe.deferred
        (.inr ⟨rfl, fun _ => rfl⟩)
    next htx =>
    refine hnote.advance hl (fun _ he => he) hadv hcov hsafe.served hsafe.deferred ?_
    cases saveOk with
    | false => exact .inr ⟨rfl, fun h => absurd h htx⟩
    | true => exact .inl rfl
  · exact ⟨hnote, Nat.le_refl _⟩

theorem stepIdle (hl : l ∈ s.loop) (saveOk : Bool) :
    NoLoss cfg mailbox (stepIdle s l saveOk) ∧
      s.checkpoint.pullCursor ≤ (Ingress.stepIdle s l saveOk).checkpoint.pullCursor := by
  have hsafe := h.loop l hl
  simp only [Ingress.stepIdle]
  split
  · exact h.advance hl (fun _ he => he) hsafe.ordered hsafe.covered hsafe.served hsafe.deferred
      (.inl rfl)
  · exact ⟨h, Nat.le_refl _⟩

theorem stepFold (hl : l ∈ s.loop)
    (hacc : Accepted l.state.pullCursor resp)
    (hshows : Shows cfg mailbox s.settled resp.envelopes) (ans : FoldAnswers) :
    NoLoss cfg mailbox (stepFold cfg s l resp ans) ∧
      s.checkpoint.pullCursor ≤ (Ingress.stepFold cfg s l resp ans).checkpoint.pullCursor := by
  have hsafe := h.loop l hl
  have hspec : FoldSpec cfg mailbox s.settled l.state l.redrive _ :=
    runFoldedDispatch_spec ans hacc hshows hsafe.covered hsafe.served hsafe.deferred
  have hsub : ∀ more, ∀ e ∈ s.settled, e ∈ s.settled ++ more :=
    fun more e he => mem_append_left _ he
  have hcp := hspec.checkpoint s.checkpoint
  simp only [Ingress.stepFold]
  split
  · exact h.advance hl (hsub _) (hspec.advances hsafe.ordered) hspec.covered hspec.served
      (by decide : 0 < maxUint64) (hcp.imp_right fun ⟨hc, hs⟩ => ⟨hc, fun _ => by rw [hs]⟩)
  · next n herr =>
    exact h.advance hl (hsub _) (hspec.advances hsafe.ordered) hspec.covered hspec.served
      (hspec.deferred n herr) (hcp.imp_right fun ⟨hc, hs⟩ => ⟨hc, fun _ => by rw [hs]⟩)
  · next herr =>
    rw [hspec.uncommitted (by simp [herr]) (by simp [herr])]
    exact ⟨h.stop (hsub _), Nat.le_refl _⟩
  · next herr =>
    rw [hspec.uncommitted (by simp [herr]) (by simp [herr])]
    exact h.advance hl (hsub _) hsafe.ordered (hsafe.covered.mono (Nat.le_refl _) (hsub _))
      hspec.served (hspec.deferredSeq ▸ hsafe.deferred) (.inr ⟨rfl, fun _ => rfl⟩)

omit h

theorem coveredTo_of_pass (hasc : Ascending envs) (hshows : Shows cfg mailbox settled envs)
    (hspec : PassSpec cfg envs {} p err pre rest) (hx : x ∈ pre) :
    CoveredTo cfg mailbox (settled ++ settledBy p.handled) (x.eventSeq + 1) := by
  intro e he ha hle
  have hxe : x ∈ envs := by rw [hspec.batch]; exact mem_append_left _ hx
  rcases hshows e he ha ⟨x, hxe, Nat.lt_succ_iff.1 hle⟩ with hold | hmem
  · exact mem_append_left _ hold
  have hpre : e ∈ pre := by
    rw [hspec.batch] at hmem hasc
    exact mem_left_of_le hasc hmem hx (Nat.lt_succ_iff.1 hle)
  exact mem_append_right _ (settled_of_last hasc (fun _ h => h) [] hspec hpre ha)

theorem stepLegacy (h : NoLoss cfg mailbox s) (hl : l ∈ s.loop) (htx : cfg.txStore = false)
    (hacc : Accepted l.state.pullCursor resp)
    (hshows : Shows cfg mailbox s.settled resp.envelopes) (ans : Answers) (saveOk : Bool) :
    NoLoss cfg mailbox (stepLegacy cfg s l resp ans saveOk) ∧
      s.checkpoint.pullCursor ≤
        (Ingress.stepLegacy cfg s l resp ans saveOk).checkpoint.pullCursor := by
  have hsafe := h.loop l hl
  obtain ⟨pre, rest, hspec⟩ := dispatchBatch_spec cfg ans false resp.envelopes {}
  have hsub : ∀ more, ∀ e ∈ s.settled, e ∈ s.settled ++ more :=
    fun more e he => mem_append_left _ he
  have hstay : ∀ more, NoLoss cfg mailbox { s with settled := s.settled ++ more } ∧
      s.checkpoint.pullCursor ≤ s.checkpoint.pullCursor := fun more => by
    have := h.advance hl (hsub more) hsafe.ordered (hsafe.covered.mono (Nat.le_refl _) (hsub _))
      (hsafe.served.mono (hsub _)) hsafe.deferred (.inr ⟨rfl, fun _ => rfl⟩)
    rwa [← Option.mem_def.1 hl] at this
  -- the loop and, if it can be saved, the checkpoint move to a covered cursor
  have hadopt : ∀ (c : ℕ) (more : List Envelope), l.state.pullCursor ≤ c →
      CoveredTo cfg mailbox (s.settled ++ more) c →
      NoLoss cfg mailbox { s with
        checkpoint := if saveOk then l.state.dispatchedTo c else s.checkpoint
        loop := some { l with state := l.state.dispatchedTo c }
        settled := s.settled ++ more } ∧ s.checkpoint.pullCursor ≤
          (if saveOk then l.state.dispatchedTo c else s.checkpoint).pullCursor :=
    fun c more hc hcov =>
      h.advance hl (hsub _) (hsafe.ordered.dispatchedTo hc) hcov (hsafe.served.mono (hsub _))
        hsafe.deferred (by cases saveOk <;> simp [htx])
  simp only [Ingress.stepLegacy]
  split
  · next herr =>
    obtain ⟨x, hx, hnext⟩ := hacc.next
    have hbatch := hspec.batch
    rw [hspec.complete herr, append_nil] at hbatch
    have hmax : max (dispatchBatch cfg ans false resp.envelopes {}).1.lastCommitted
        resp.nextCursor = resp.nextCursor := by
      refine Nat.max_eq_right ?_
      rcases hspec.committed with h0 | ⟨y, hy, hc⟩
      · exact h0 ▸ Nat.zero_le _
      · exact hc ▸ Nat.le_of_lt (hacc.next_gt y (hbatch ▸ hy))
    rw [hmax]
    refine hadopt _ _ ?_ (hnext ▸ coveredTo_of_pass hacc.ascending hshows hspec (hbatch ▸ hx))
    exact hnext ▸ Nat.le_succ_of_le (hacc.ge x hx)
  · exact ⟨h.stop (hsub _), Nat.le_refl _⟩
  · split
    · next hcur =>
      obtain ⟨hpos, hlt⟩ := hcur
      rcases hspec.committed with h0 | ⟨y, hy, hc⟩
      · exact absurd hpos (h0 ▸ Nat.lt_irrefl 0)
      have hyw : y ∈ resp.envelopes := by rw [hspec.batch]; exact mem_append_left _ hy
      refine hadopt _ _ (Nat.le_of_lt hlt) ?_
      rw [hc, next64_of_lt (hacc.lt y hyw)]
      exact coveredTo_of_pass hacc.ascending hshows hspec hy
    · exact hstay _

theorem step (hasc : Ascending mailbox) (h : NoLoss cfg mailbox s) (hG : Windowed mailbox s a s')
    (hstep : step cfg s a = some s') :
    NoLoss cfg mailbox s' ∧ s.checkpoint.pullCursor ≤ s'.checkpoint.pullCursor := by
  cases a with
  | start =>
    cases hl : s.loop with
    | some l => simp [Ingress.step, hl] at hstep
    | none =>
      obtain rfl : _ = s' := by simpa [Ingress.step, hl] using hstep
      exact ⟨h.start, Nat.le_refl _⟩
  | crash =>
    obtain rfl : _ = s' := by simpa [Ingress.step] using hstep
    exact ⟨h.stop fun _ he => he, Nat.le_refl _⟩
  | ack replyOk saveOk =>
    cases hl : s.loop with
    | none => simp [Ingress.step, hl] at hstep
    | some l =>
      obtain ⟨-, rfl⟩ : _ ∧ _ = s' := by simpa [Ingress.step, hl] using hstep
      exact h.stepAck hl replyOk saveOk
  | pull resp ans =>
    cases hl : s.loop with
    | none => simp [Ingress.step, hl] at hstep
    | some l =>
      obtain ⟨⟨-, hvalid⟩, rfl⟩ : (_ ∧ _) ∧ _ = s' := by simpa [Ingress.step, hl] using hstep
      have hpulled := h.notePulled (s.pulled ++ resp.envelopes)
      have hshows := h.shows hasc hl hG
      simp only [stepPull]
      split
      · exact hpulled.stepIdle hl _
      next hne =>
      have hacc := accepted_of_validatePullCursor hne hvalid
      split
      · exact hpulled.stepFold hl hacc hshows _
      · next htx => exact hpulled.stepLegacy hl (by simpa using htx) hacc hshows _ _

theorem noneLost (h : NoLoss cfg mailbox s) : s.NoneLost cfg mailbox := by
  rintro e he ha (hlt | ⟨c, hc, hlt⟩)
  · exact h.covered e he ha hlt
  · exact h.acked c hc e he ha hlt

end NoLoss

variable {cfg : Config} {mailbox : List Envelope}

/-- When every pull shows a window of one mailbox, no envelope of an allowed sender is passed by the
persisted pull cursor or by an acknowledgement before it is settled, and the cursors never go back.
-/
theorem no_envelope_acked_unsettled {as : List Action} (hasc : Ascending mailbox)
    (hG : (ingress cfg).Along (Windowed mailbox) {} as) :
    (ingress cfg).Along (fun s _ s' => s'.NoneLost cfg mailbox ∧
      s.checkpoint.pullCursor ≤ s'.checkpoint.pullCursor ∧ s'.AcksOrdered cfg) {} as := by
  have hinv := Machine.along_invariant (NoLoss cfg mailbox)
    (fun _ _ _ h hG hstep => (h.step hasc hG hstep).1) noLoss_initial hG
  refine hinv.imp fun s a s' hstep ⟨h, hG, _, h'⟩ => ?_
  exact ⟨h'.noneLost, (h.step hasc hG hstep).2, h'.acksOrdered⟩

/-- Method 0 of the service is dispatched in the transaction, method 1 is hoisted. -/
def twoRoutes : Config where
  txStore := true
  dispatchers := [⟨0, 0⟩, ⟨0, 1⟩]
  nonTxRoutes := [⟨0, 1⟩]

def eventAt (n : ℕ) (h : n ≤ maxUint64 := by decide) : Envelope where
  eventSeq := n
  eventSeq_le := h
  rpc := some { kind := .event, route := ⟨0, 0⟩ }

def requestAt (n : ℕ) (h : n ≤ maxUint64 := by decide) : Envelope where
  eventSeq := n
  eventSeq_le := h
  rpc := some { kind := .request, route := ⟨0, 1⟩ }

def fullMailbox : CycleAnswers where
  fold := { last := { dispatch := fun _ => .full } }

/-- An event is deferred, the process restarts, and the event is delivered. -/
def deferredOnce : List Action :=
  [.start, .pull ⟨[eventAt 10, requestAt 11, requestAt 12], 13⟩ fullMailbox, .ack true true, .crash,
    .start, .ack true true, .pull ⟨[eventAt 10, requestAt 11], 12⟩ {}, .ack true true]

theorem deferredOnce_none_lost :
    ((ingress twoRoutes).run {} deferredOnce).map
        (fun s => (s.checkpoint.pullCursor, s.acks, s.settled.contains (eventAt 10))) =
      some (12, [(1, 10), (2, 10), (2, 12)], true) ∧
      (ingress twoRoutes).Along
        (fun s _ s' => s'.NoneLost twoRoutes [eventAt 10, requestAt 11, requestAt 12] ∧
          s.checkpoint.pullCursor ≤ s'.checkpoint.pullCursor ∧ s'.AcksOrdered twoRoutes)
        {} deferredOnce :=
  ⟨by decide, no_envelope_acked_unsettled (by decide) (by decide)⟩

/-- A request shows up only after a later one has been served. -/
def shownLate : List Action :=
  [.start, .pull ⟨[eventAt 10, requestAt 12], 13⟩ fullMailbox, .ack true true,
    .pull ⟨[eventAt 10], 11⟩ {}, .ack true true, .pull ⟨[requestAt 11], 12⟩ {}, .ack true true]

/-- Without the transactional store the checkpoint of a batch is not saved, and the
restarted process sees the mailbox in smaller batches. -/
def ackedAgain : List Action :=
  [.start, .pull ⟨[eventAt 1, eventAt 2], 3⟩ { saveOk := false }, .ack true false, .crash, .start,
    .pull ⟨[eventAt 1], 2⟩ {}, .ack true true]

/-- With any responses that the cursor check accepts, a request is acknowledged
without having been served; and an acknowledgement can go back. -/
theorem shownLate_lost_and_ackedAgain_back :
    (((ingress twoRoutes).run {} shownLate).any fun s =>
        !decide (s.NoneLost twoRoutes s.pulled) && (1, 12) ∈ s.acks) = true ∧
      ((ingress { twoRoutes with txStore := false }).run {} ackedAgain).map (·.acks.map Prod.snd) =
        some [3, 2] := by
  decide

end Wavelength.Ingress
