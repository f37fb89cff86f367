import Wavelength.Outbox.Publisher

/-! # A row of the outbox is delivered or given up, not both

The update that completes a row matches only under the claim token of the row,
but the enqueue in the same transaction does not depend on it: a publisher whose
claim has been taken over still enqueues. While deliveries are made under the
claim of the row, every row is pending, or completed and enqueued at its target,
or dead-lettered and never enqueued.
-/

namespace Wavelength.Outbox

open List Option

variable {cfg : OutboxPublisherConfig} {s s' : State} {p p' : ℕ} {msg m r r' : OutboxMessage}

namespace State

def Queued (s : State) (p : ℕ) (msg : OutboxMessage) : Prop :=
  ∃ batch, s.publishers[p]? = some batch ∧ msg ∈ batch

/-- The row no longer carries the token under which the message was claimed. -/
def Stale (s : State) (msg : OutboxMessage) : Prop :=
  ∀ r ∈ s.outbox.get? msg.id, r.claimToken ≠ msg.claimToken

instance (s : State) (msg : OutboxMessage) : Decidable (s.Stale msg) :=
  inferInstanceAs (Decidable (∀ r ∈ s.outbox.get? msg.id, _))

/-- A completed row has been enqueued at its target, a dead-lettered one never. -/
def Settled (s : State) : Prop :=
  ∀ r ∈ s.outbox.rows, match r.status with
    | .pending => True
    | .completed => r.handoff ∈ s.handoffs
    | .deadLetter => ∀ h ∈ s.handoffs, h.id ≠ r.id

instance (s : State) : Decidable s.Settled :=
  have (r : OutboxMessage) : Decidable (match r.status with
      | .pending => True
      | .completed => r.handoff ∈ s.handoffs
      | .deadLetter => ∀ h ∈ s.handoffs, h.id ≠ r.id) :=
    match r.status with
    | .pending => isTrue trivial
    | .completed => inferInstanceAs (Decidable (_ ∈ _))
    | .deadLetter => inferInstanceAs (Decidable (∀ h ∈ s.handoffs, _))
  inferInstanceAs (Decidable (∀ r ∈ s.outbox.rows, _))

def next? (s : State) (p : ℕ) : Option OutboxMessage := s.publishers[p]?.bind List.head?

end State

/-- A publisher whose claim has been taken over changes nothing by a delivery. -/
def StaleInert (s : State) (a : Action) (s' : State) : Prop :=
  match a with
  | .deliver p _ => ∀ msg ∈ s.next? p, s.Stale msg →
      s'.outbox.rows = s.outbox.rows ∧ s'.handoffs = s.handoffs
  | _ => True

instance (s s' : State) (a : Action) : Decidable (StaleInert s a s') := by
  unfold StaleInert; split <;> infer_instance

/-- A delivery transaction that commits runs under the claim of its row. -/
def ClaimHeld (cfg : OutboxPublisherConfig) (s : State) (a : Action) (_ : State) : Prop :=
  match a with
  | .deliver p false => ∀ msg ∈ s.next? p, msg.deliveryAttempts ≤ cfg.maxDeliveryAttempts →
      cfg.decodes msg.payload = true → ¬ s.Stale msg
  | _ => True

instance (cfg : OutboxPublisherConfig) (s s' : State) (a : Action) :
    Decidable (ClaimHeld cfg s a s') := by
  unfold ClaimHeld; split <;> infer_instance

variable {t : OutboxTable}

section Settle

/-- The update that completes or fails a row under the claim of a message. -/
abbrev settleRow (t : OutboxTable) (msg : OutboxMessage) (status : Status) (now : ℤ) : OutboxTable :=
  t.modify msg.id (OutboxMessage.settle status msg.claimToken now) OutboxMessage.settle_id

/-- A fenced update leaves a row alone or was made under its token. -/
theorem get?_settleRow (h : (settleRow t msg status now).get? i = some r') :
    t.get? i = some r' ∨ ∃ r, t.get? i = some r ∧ i = msg.id ∧ r.claimToken = msg.claimToken ∧
      r'.claimToken = msg.claimToken ∧ r'.status = status ∧ r'.handoff = r.handoff := by
  rw [Table.get?_modify] at h
  split at h
  · next hi =>
    obtain ⟨r, hr, rfl⟩ := map_eq_some_iff.1 h
    unfold OutboxMessage.settle
    split
    · next htok => exact .inr ⟨r, hr, hi, htok.1, htok.1, rfl, rfl⟩
    · exact .inl hr
  · exact .inl h

theorem exists_get?_settleRow (h : t.get? i = some r) :
    ∃ r', (settleRow t msg status now).get? i = some r' := by
  rw [Table.get?_modify]
  split
  · exact ⟨_, by rw [h]; rfl⟩
  · exact ⟨r, h⟩

theorem settleRow_of_stale (hstale : s.Stale msg) :
    (settleRow s.outbox msg status s.now).rows = s.outbox.rows := by
  refine (map_congr_left fun r hr => ?_).trans (map_id _)
  by_cases hid : r.id = msg.id
  · have hne := hstale r (hid ▸ Table.mem_rows_iff.1 hr)
    simp [hid, OutboxMessage.settle, hne]
  · simp [hid]

theorem get?_completeOutbox (hr : s.outbox.get? msg.id = some r)
    (ht : r.claimToken = msg.claimToken) (hne : msg.claimToken ≠ none) :
    ∃ r', ((s.tell msg).completeOutbox msg.id msg.claimToken).outbox.get? msg.id = some r' ∧
      r'.status = .completed := by
  refine ⟨r.settle .completed msg.claimToken s.now, ?_, by simp [OutboxMessage.settle, ht, hne]⟩
  simp [State.completeOutbox, State.tell, Table.get?_modify, hr]

end Settle

inductive Delivered (cfg : OutboxPublisherConfig) (s : State) (msg : OutboxMessage) :
    Bool → State → Prop
  | unchanged : Delivered cfg s msg true s
  | failed : Delivered cfg s msg false (s.failOutbox msg.id msg.claimToken)
  | delivered : msg.deliveryAttempts ≤ cfg.maxDeliveryAttempts → cfg.decodes msg.payload = true →
      Delivered cfg s msg false ((s.tell msg).completeOutbox msg.id msg.claimToken)

theorem deliverMessage_spec (fails : Bool) :
    Delivered cfg s msg fails (deliverMessage cfg s msg fails) := by
  unfold deliverMessage
  cases fails with
  | true => exact .unchanged
  | false =>
    by_cases hmax : cfg.maxDeliveryAttempts < msg.deliveryAttempts
    · simpa [hmax] using .failed
    · by_cases hdec : cfg.decodes msg.payload
      · simpa [hmax, hdec] using .delivered (Int.not_lt.1 hmax) hdec
      · simpa [hmax, hdec] using .failed

/-- The claims of the publishers exclude each other, and what has been enqueued is
completed. -/
structure Exclusive (s : State) : Prop where
  nodup : ∀ batch ∈ s.publishers, (batch.map OutboxMessage.id).Nodup
  held : ∀ p msg, s.Queued p msg → ∃ t ∈ s.issued, msg.claimToken = some t
  distinct : ∀ p p' msg msg', s.Queued p msg → s.Queued p' msg' →
    msg.claimToken = msg'.claimToken → p = p'
  source : ∀ p msg, s.Queued p msg → ∃ r, s.outbox.get? msg.id = some r ∧ r.handoff = msg.handoff
  unsettled : ∀ p msg r, s.Queued p msg → s.outbox.get? msg.id = some r →
    r.claimToken = msg.claimToken → r.status = .pending
  completed : ∀ i r, s.outbox.get? i = some r → r.status = .completed → r.handoff ∈ s.handoffs
  handed : ∀ h ∈ s.handoffs, ∃ r, s.outbox.get? h.id = some r ∧ r.status = .completed

theorem not_queued_initial : ¬ (State.initial n now).Queued p msg := by
  rintro ⟨batch, hb, hmsg⟩
  obtain rfl : batch = [] := (mem_replicate.1 (mem_of_getElem? hb)).2
  cases hmsg

theorem exclusive_initial : Exclusive (.initial n now) where
  nodup batch hb := by
    obtain rfl : batch = [] := (mem_replicate.1 hb).2
    exact nodup_nil
  held _ _ h := absurd h not_queued_initial
  distinct _ _ _ _ h := absurd h not_queued_initial
  source _ _ h := absurd h not_queued_initial
  unsettled _ _ _ h := absurd h not_queued_initial
  completed _ _ hr := by cases hr
  handed _ hh := by cases hh

namespace State

theorem queued_setBatch (h : (s.setBatch p batch).Queued p' msg) :
    (p' ≠ p ∧ s.Queued p' msg) ∨ (p' = p ∧ msg ∈ batch) := by
  obtain ⟨q, hq, hmsg⟩ := h
  simp only [setBatch, getElem?_set] at hq
  split at hq
  · next hp =>
    subst hp
    split at hq
    · cases hq
      exact .inr ⟨rfl, hmsg⟩
    · cases hq
  · next hp => exact .inl ⟨Ne.symm hp, q, hq, hmsg⟩

theorem nodup_setBatch (h : ∀ b ∈ s.publishers, (b.map OutboxMessage.id).Nodup)
    (hb : (batch.map OutboxMessage.id).Nodup) :
    ∀ b ∈ (s.setBatch p batch).publishers, (b.map OutboxMessage.id).Nodup := by
  intro b hmem
  rcases mem_or_eq_of_mem_set hmem with hmem | rfl
  · exact h b hmem
  · exact hb

end State

namespace Exclusive

theorem enqueue (h : Exclusive s) :
    Exclusive { s with outbox := s.outbox.insertIgnore m.fresh } := by
  have hkeep : ∀ {i r}, s.outbox.get? i = some r →
      (s.outbox.insertIgnore m.fresh).get? i = some r := by
    intro i r hr
    rw [Table.get?_insertIgnore, hr, some_or]
  have hnew : ∀ {i r}, (s.outbox.insertIgnore m.fresh).get? i = some r →
      s.outbox.get? i = some r ∨ (s.outbox.get? i = none ∧ r = m.fresh) := by
    intro i r hr
    rw [Table.get?_insertIgnore] at hr
    cases hi : s.outbox.get? i with
    | some r₀ => exact .inl (by simpa [hi] using hr)
    | none =>
      rw [hi, none_or] at hr
      split at hr
      · exact .inr ⟨rfl, (some.inj hr).symm⟩
      · cases hr
  refine ⟨h.nodup, h.held, h.distinct, ?_, ?_, ?_, ?_⟩
  · intro p msg hq
    obtain ⟨r, hr, hh⟩ := h.source p msg hq
    exact ⟨r, hkeep hr, hh⟩
  · intro p msg r hq hr ht
    rcases hnew hr with hr | ⟨hno, -⟩
    · exact h.unsettled p msg r hq hr ht
    · obtain ⟨r₀, hr₀, -⟩ := h.source p msg hq
      simp [hno] at hr₀
  · intro i r hr hc
    rcases hnew hr with hr | ⟨-, rfl⟩
    · exact h.completed i r hr hc
    · cases hc
  · intro x hx
    obtain ⟨r, hr, hc⟩ := h.handed x hx
    exact ⟨r, hkeep hr, hc⟩

theorem setBatch (h : Exclusive s) (hnodup : (batch.map OutboxMessage.id).Nodup)
    (hsub : ∀ {p' msg}, (s.setBatch p batch).Queued p' msg → s.Queued p' msg) :
    Exclusive (s.setBatch p batch) :=
  ⟨State.nodup_setBatch h.nodup hnodup, fun p msg hq => h.held p msg (hsub hq),
    fun p p' msg msg' hq hq' => h.distinct p p' msg msg' (hsub hq) (hsub hq'),
    fun p msg hq => h.source p msg (hsub hq), fun p msg r hq => h.unsettled p msg r (hsub hq),
    h.completed, h.handed⟩

theorem crash (h : Exclusive s) : Exclusive (s.setBatch p []) := by
  refine h.setBatch nodup_nil fun hq => ?_
  rcases State.queued_setBatch hq with ⟨-, hq⟩ | ⟨-, hmsg⟩
  · exact hq
  · cases hmsg

section Claim

theorem get?_claimOutboxBatch :
    (claimOutboxBatch t ids token u).get? i =
      (t.get? i).map fun m => if i ∈ ids then m.claim token u else m := by
  rw [claimOutboxBatch, Table.get?_map]
  cases h : t.get? i with
  | none => rfl
  | some r =>
    have hid : r.id = i := Table.key_of_get? h
    simp [hid]

theorem claim (h : Exclusive s) (hbatch : IsBatch s.outbox.rows s.now cfg.batchSize ids)
    (hfresh : token ∉ s.issued) :
    Exclusive { s.setBatch p (ids.filterMap (claimOutboxBatch s.outbox ids token u).get?) with
      outbox := claimOutboxBatch s.outbox ids token u
      issued := token :: s.issued } := by
  have hget : ∀ {i r'}, (claimOutboxBatch s.outbox ids token u).get? i = some r' →
      ∃ r, s.outbox.get? i = some r ∧ r' = (if i ∈ ids then r.claim token u else r) := by
    intro i r' hr'
    rw [get?_claimOutboxBatch] at hr'
    obtain ⟨r, hr, rfl⟩ := map_eq_some_iff.1 hr'
    exact ⟨r, hr, rfl⟩
  have hstatus : ∀ {i r'}, (claimOutboxBatch s.outbox ids token u).get? i = some r' →
      ∃ r, s.outbox.get? i = some r ∧ r'.status = r.status ∧ r'.handoff = r.handoff := by
    intro i r' hr'
    obtain ⟨r, hr, rfl⟩ := hget hr'
    refine ⟨r, hr, ?_⟩
    split <;> exact ⟨rfl, rfl⟩
  have hkeep : ∀ {i r}, s.outbox.get? i = some r →
      ∃ r', (claimOutboxBatch s.outbox ids token u).get? i = some r' ∧ r'.status = r.status ∧
        r'.handoff = r.handoff := by
    intro i r hr
    refine ⟨_, by rw [get?_claimOutboxBatch, hr, map_some], ?_⟩
    split <;> exact ⟨rfl, rfl⟩
  -- a message of the new batch is a row that was pending and now carries the token
  have hclaimed : ∀ {msg}, msg ∈ ids.filterMap (claimOutboxBatch s.outbox ids token u).get? →
      msg.id ∈ ids ∧ (claimOutboxBatch s.outbox ids token u).get? msg.id = some msg ∧
        msg.claimToken = some token ∧ msg.status = .pending := by
    intro msg hmsg
    obtain ⟨i, hi, hmsg⟩ := mem_filterMap.1 hmsg
    obtain rfl : msg.id = i := Table.key_of_get? hmsg
    obtain ⟨r, hr, heq⟩ := hget hmsg
    rw [if_pos hi] at heq
    obtain ⟨r₀, hr₀, hid, hc⟩ := hbatch.2.2.1 msg.id hi
    obtain rfl : r₀ = r := by
      rw [Table.mem_rows_iff, hid] at hr₀
      exact some.inj (hr₀.symm.trans hr)
    refine ⟨hi, hmsg, ?_, ?_⟩
    · rw [heq]; rfl
    · rw [heq]; exact hc.1
  refine ⟨State.nodup_setBatch h.nodup (Table.nodup_filterMap_get? hbatch.1), ?_, ?_, ?_, ?_, ?_, ?_⟩
  · intro p' msg hq
    rcases State.queued_setBatch hq with ⟨-, hq⟩ | ⟨-, hmsg⟩
    · obtain ⟨t, ht, hmt⟩ := h.held p' msg hq
      exact ⟨t, mem_cons_of_mem _ ht, hmt⟩
    · exact ⟨token, mem_cons_self, (hclaimed hmsg).2.2.1⟩
  · intro p₁ p₂ m₁ m₂ hq₁ hq₂ heq
    rcases State.queued_setBatch hq₁ with ⟨-, hq₁'⟩ | ⟨hp₁, hm₁⟩ <;>
      rcases State.queued_setBatch hq₂ with ⟨-, hq₂'⟩ | ⟨hp₂, hm₂⟩
    · exact h.distinct p₁ p₂ m₁ m₂ hq₁' hq₂' heq
    · obtain ⟨t, ht, hmt⟩ := h.held p₁ m₁ hq₁'
      rw [hmt, (hclaimed hm₂).2.2.1] at heq
      exact absurd (some.inj heq ▸ ht) hfresh
    · obtain ⟨t, ht, hmt⟩ := h.held p₂ m₂ hq₂'
      rw [hmt, (hclaimed hm₁).2.2.1] at heq
      exact absurd (some.inj heq ▸ ht) hfresh
    · exact hp₁.trans hp₂.symm
  · intro p' msg hq
    rcases State.queued_setBatch hq with ⟨-, hq⟩ | ⟨-, hmsg⟩
    · obtain ⟨r, hr, hh⟩ := h.source p' msg hq
      obtain ⟨r', hr', -, hh'⟩ := hkeep hr
      exact ⟨r', hr', hh'.trans hh⟩
    · exact ⟨msg, (hclaimed hmsg).2.1, rfl⟩
  · intro p' msg r' hq hr' ht
    rcases State.queued_setBatch hq with ⟨-, hq⟩ | ⟨-, hmsg⟩
    · obtain ⟨r, hr, rfl⟩ := hget hr'
      split at ht
      · obtain ⟨t, hti, hmt⟩ := h.held p' msg hq
        have : token = t := some.inj (ht.trans hmt)
        exact absurd (this ▸ hti) hfresh
      · next hi => simpa [hi] using h.unsettled p' msg r hq hr ht
    · obtain ⟨-, hmsg', -, hp⟩ := hclaimed hmsg
      exact some.inj (hmsg'.symm.trans hr') ▸ hp
  · intro i r' hr' hc
    obtain ⟨r, hr, hst, hh⟩ := hstatus hr'
    exact hh ▸ h.completed i r hr (hst ▸ hc)
  · intro x hx
    obtain ⟨r, hr, hc⟩ := h.handed x hx
    obtain ⟨r', hr', hst, -⟩ := hkeep hr
    exact ⟨r', hr', hst.trans hc⟩

end Claim

section Deliver

variable (h : Exclusive s)
include h

theorem queued_of_rest (hp : s.publishers[p]? = some (msg :: rest))
    {st : State} (hst : st.publishers = s.publishers) (hq : (st.setBatch p rest).Queued p' m) :
    s.Queued p' m ∧ (m.id = msg.id → p' ≠ p) := by
  have hnodup := h.nodup _ (mem_of_getElem? hp)
  rcases State.queued_setBatch hq with ⟨hne, b, hb, hm⟩ | ⟨rfl, hm⟩
  · exact ⟨⟨b, hst ▸ hb, hm⟩, fun _ => hne⟩
  · refine ⟨⟨_, hp, mem_cons_of_mem _ hm⟩, fun hid => ?_⟩
    rw [map_cons, nodup_cons] at hnodup
    exact absurd (hid ▸ mem_map_of_mem hm) hnodup.1

theorem settle_unsettled (hp : s.publishers[p]? = some (msg :: rest))
    (hq : s.Queued p' m) (hne : m.id = msg.id → p' ≠ p)
    (hr : (settleRow s.outbox msg status s.now).get? m.id = some r')
    (ht : r'.claimToken = m.claimToken) :
    r'.status = .pending := by
  rcases get?_settleRow hr with hr | ⟨r, hr, hid, -, ht', -⟩
  · exact h.unsettled p' m r' hq hr ht
  · have hqp : s.Queued p msg := ⟨_, hp, mem_cons_self⟩
    exact absurd (h.distinct p' p m msg hq hqp (ht.symm.trans ht')) (hne hid)

theorem settle_source (hq : s.Queued p' m) :
    ∃ r, (settleRow s.outbox msg status s.now).get? m.id = some r ∧ r.handoff = m.handoff := by
  obtain ⟨r, hr, hh⟩ := h.source p' m hq
  obtain ⟨r', hr'⟩ := exists_get?_settleRow hr
  refine ⟨r', hr', ?_⟩
  rcases get?_settleRow hr' with hr'' | ⟨r₀, hr₀, -, -, -, -, hh'⟩
  · rw [← hh, some.inj (hr''.symm.trans hr)]
  · rw [hh', some.inj (hr₀.symm.trans hr), hh]

theorem settle_completed (hp : s.publishers[p]? = some (msg :: rest))
    (hr : s.outbox.get? i = some r) (hc : r.status = .completed) :
    (settleRow s.outbox msg status s.now).get? i = some r := by
  obtain ⟨r', hr'⟩ := exists_get?_settleRow hr
  rcases get?_settleRow hr' with hr'' | ⟨r₀, hr₀, hi, ht, -⟩
  · rw [hr', ← hr, hr'']
  · cases hr.symm.trans hr₀
    have := h.unsettled p msg r ⟨_, hp, mem_cons_self⟩ (hi ▸ hr) ht
    simp [hc] at this

theorem settle (hp : s.publishers[p]? = some (msg :: rest))
    (hcompleted : ∀ i r, (settleRow s.outbox msg status s.now).get? i = some r →
      r.status = .completed → r.handoff ∈ handoffs)
    (hhanded : ∀ x ∈ handoffs, ∃ r, (settleRow s.outbox msg status s.now).get? x.id = some r ∧
      r.status = .completed) :
    Exclusive (State.setBatch { s with
      outbox := settleRow s.outbox msg status s.now, handoffs := handoffs } p rest) := by
  have hnodup := (nodup_cons.1 (h.nodup _ (mem_of_getElem? hp))).2
  have hsub : ∀ {p' m}, (State.setBatch { s with
      outbox := settleRow s.outbox msg status s.now
      handoffs := handoffs } p rest).Queued p' m → s.Queued p' m ∧ (m.id = msg.id → p' ≠ p) :=
    fun hq => h.queued_of_rest hp rfl hq
  exact ⟨State.nodup_setBatch h.nodup hnodup, fun p m hq => h.held p m (hsub hq).1,
    fun p p' m m' hq hq' => h.distinct p p' m m' (hsub hq).1 (hsub hq').1,
    fun p m hq => h.settle_source (hsub hq).1,
    fun p' m r hq hr => h.settle_unsettled hp (hsub hq).1 (hsub hq).2 hr, hcompleted, hhanded⟩

theorem deliver (hp : s.publishers[p]? = some (msg :: rest)) (hd : Delivered cfg s msg fails st)
    (hheld : fails = false → msg.deliveryAttempts ≤ cfg.maxDeliveryAttempts →
      cfg.decodes msg.payload = true → ¬ s.Stale msg) : Exclusive (st.setBatch p rest) := by
  cases hd with
  | unchanged =>
    exact h.setBatch (nodup_cons.1 (h.nodup _ (mem_of_getElem? hp))).2 fun hq =>
      (h.queued_of_rest hp rfl hq).1
  | failed =>
    refine h.settle hp ?_ ?_
    · intro i r hr hc
      rcases get?_settleRow hr with hr | ⟨-, -, -, -, -, hst, -⟩
      · exact h.completed i r hr hc
      · simp [hc] at hst
    · intro x hx
      obtain ⟨r, hr, hc⟩ := h.handed x hx
      exact ⟨r, h.settle_completed hp hr hc, hc⟩
  | delivered hmax hdec =>
    refine h.settle hp ?_ ?_
    · intro i r' hr hc
      rcases get?_settleRow hr with hr | ⟨r, hr, hi, -, -, -, hh⟩
      · exact mem_append_left _ (h.completed i r' hr hc)
      · obtain ⟨r₀, hr₀, hh₀⟩ := h.source p msg ⟨_, hp, mem_cons_self⟩
        obtain rfl : r₀ = r := some.inj (hr₀.symm.trans (hi ▸ hr))
        exact mem_append_right _ (mem_singleton.2 (hh.trans hh₀))
    · intro x hx
      rcases mem_append.1 hx with hx | hx
      · obtain ⟨r, hr, hc⟩ := h.handed x hx
        exact ⟨r, h.settle_completed hp hr hc, hc⟩
      -- the row carries the token, so the update in the transaction matches
      obtain rfl : x = msg.handoff := mem_singleton.1 hx
      obtain ⟨t, -, hmt⟩ := h.held p msg ⟨_, hp, mem_cons_self⟩
      have hns := hheld rfl hmax hdec
      simp only [State.Stale, not_forall, not_not] at hns
      obtain ⟨r, hr, htok⟩ := hns
      exact get?_completeOutbox hr htok (by simp [hmt])

omit h

end Deliver

theorem step (h : Exclusive s) (hG : ClaimHeld cfg s a s') (hstep : Outbox.step cfg s a = some s') :
    Exclusive s' := by
  cases a with
  | enqueue m =>
    obtain ⟨t, ht, rfl⟩ := map_eq_some_iff.1 hstep
    obtain ⟨-, rfl⟩ := Table.insert?_eq_some_iff.1 ht
    exact h.enqueue
  | tick seconds =>
    cases hstep
    exact ⟨h.nodup, h.held, h.distinct, h.source, h.unsettled, h.completed, h.handed⟩
  | claim p ids token =>
    simp only [Outbox.step, stepClaim] at hstep
    split at hstep
    · split at hstep
      · next hb =>
        cases hstep
        exact h.claim hb.1 hb.2
      · cases hstep
    · cases hstep
  | deliver p fails =>
    simp only [Outbox.step, stepDeliver] at hstep
    split at hstep
    · next msg rest hp =>
      cases hstep
      refine h.deliver hp (deliverMessage_spec fails) ?_
      rintro rfl
      exact hG msg (by simp [State.next?, hp])
    · cases hstep
  | crash p =>
    cases hstep
    exact h.crash

end Exclusive

theorem settled_of_exclusive (h : Exclusive s) : s.Settled := by
  intro r hr
  rw [Table.mem_rows_iff] at hr
  split
  · trivial
  · next hc => exact h.completed r.id r hr hc
  next hc =>
  intro x hx hid
  obtain ⟨r', hr', hc'⟩ := h.handed x hx
  obtain rfl : r' = r := some.inj ((hid ▸ hr').symm.trans hr)
  simp [hc] at hc'

theorem staleInert_of_claimHeld (hG : ClaimHeld cfg s a s') (hstep : step cfg s a = some s') :
    StaleInert s a s' := by
  cases a with
  | deliver p fails =>
    intro msg hmsg hstale
    simp only [step, stepDeliver] at hstep
    split at hstep
    · next msg' rest hp =>
      obtain rfl : msg' = msg := by simpa [State.next?, hp] using hmsg
      cases hstep
      generalize hst : deliverMessage cfg s msg' fails = st
      have hd : Delivered cfg s msg' fails st := hst ▸ deliverMessage_spec fails
      cases hd with
      | unchanged => exact ⟨rfl, rfl⟩
      | failed => exact ⟨settleRow_of_stale hstale, rfl⟩
      | delivered hmax hdec => exact absurd hstale (hG msg' hmsg hmax hdec)
    · cases hstep
  | _ => trivial

/-- Where deliveries are made under the claim of their row, every row is pending, or completed and
enqueued, or dead-lettered and never enqueued, and a publisher without its claim changes nothing. -/
theorem outbox_rows_exclusive {n : ℕ} {now : ℤ} {as : List Action}
    (hG : (publishers cfg).Along (ClaimHeld (newOutboxPublisher cfg)) (.initial n now) as) :
    (publishers cfg).Along (fun s a s' => s'.Settled ∧ StaleInert s a s') (.initial n now) as :=
  (Machine.along_invariant Exclusive (fun _ _ _ h hG hstep => h.step hG hstep) exclusive_initial
    hG).imp fun _ _ _ hstep ⟨_, hheld, _, hinv⟩ =>
      ⟨settled_of_exclusive hinv, staleInert_of_claimHeld hheld hstep⟩

def oneAttempt : OutboxPublisherConfig where
  maxDeliveryAttempts := 1

/-- A claim runs out and the row is claimed again; the second claim is one too
many and the row is dead-lettered. The first publisher has crashed. -/
def reclaimed : List Action :=
  [.enqueue { id := 1, sourceActorId := 7, targetActorId := 8 }, .claim 0 [1] 20, .crash 0,
    .tick 31, .claim 1 [1] 21, .deliver 1 false,
    .enqueue { id := 2, sourceActorId := 7, targetActorId := 8 }, .claim 0 [2] 22,
    .deliver 0 false]

theorem reclaimed_settled :
    ((publishers oneAttempt).run (.initial 2 0) reclaimed).map
      (fun s => (s.outbox.rows.map OutboxMessage.status, s.handoffs.map Handoff.id)) =
        some ([.deadLetter, .completed], [2]) ∧
      (publishers oneAttempt).Along (fun s a s' => s'.Settled ∧ StaleInert s a s')
        (.initial 2 0) reclaimed :=
  ⟨by decide, outbox_rows_exclusive (by decide)⟩

/-- The first publisher is only slow: it delivers after its claim has been taken
over. -/
def deliveredLate : List Action :=
  [.enqueue { id := 1, sourceActorId := 7, targetActorId := 8 }, .claim 0 [1] 20, .tick 31,
    .claim 1 [1] 21, .deliver 0 false, .deliver 1 false]

/-- The row is dead-lettered and its message has been enqueued at the target. -/
theorem deliveredLate_not_exclusive :
    ¬ (∀ (cfg : OutboxPublisherConfig) (n : ℕ) (now : ℤ) (as : List Action),
      (publishers cfg).Along (fun s a s' => s'.Settled ∧ StaleInert s a s') (.initial n now) as) ∧
    ((publishers oneAttempt).run (.initial 2 0) deliveredLate).map
      (fun s => (s.outbox.rows.map OutboxMessage.status, s.handoffs.map Handoff.id)) =
        some ([.deadLetter], [1]) :=
  ⟨fun h => absurd (h oneAttempt 2 0 deliveredLate) (by decide), by decide⟩

end Wavelength.Outbox
