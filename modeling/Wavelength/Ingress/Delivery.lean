import Wavelength.Ingress.Loop

/-! # What the dispatch of a batch settles

One spec lemma per function of the dispatch: a pass settles a prefix of its
batch, the hoisted requests are served up to the watermark, the clamp and the
split keep every envelope below the new cursor.
-/

namespace Wavelength.Ingress

open List

variable {cfg : Config}

abbrev Ascending (envs : List Envelope) : Prop :=
  envs.Pairwise fun a b => a.eventSeq < b.eventSeq

theorem Ascending.eq_of_eventSeq_eq (h : Ascending envs) (he : e ∈ envs) (hx : x ∈ envs)
    (heq : e.eventSeq = x.eventSeq) : e = x := by
  by_contra hne
  rcases pairwise_iff_getElem.1 h with hget
  obtain ⟨i, hi, rfl⟩ := getElem_of_mem he
  obtain ⟨j, hj, rfl⟩ := getElem_of_mem hx
  rcases Nat.lt_trichotomy i j with hij | rfl | hij
  · exact absurd heq (Nat.ne_of_lt (hget i j hi hj hij))
  · exact hne rfl
  · exact absurd heq (Nat.ne_of_gt (hget j i hj hi hij))

section Cursor

theorem next64_of_lt (h : n < maxUint64) : next64 n = n + 1 := by
  unfold next64 maxUint64 at *
  exact Nat.mod_eq_of_lt (by omega)

theorem lastSeq_spec (h : lastSeq cursor previous envs = some last) :
    Ascending envs ∧ (∀ e ∈ envs, cursor ≤ e.eventSeq ∧ previous < e.eventSeq) ∧
      (∀ e ∈ envs, e.eventSeq ≤ last) ∧ (last = previous ∨ ∃ e ∈ envs, e.eventSeq = last) := by
  induction envs generalizing previous with
  | nil => simp_all [lastSeq]
  | cons env rest ih =>
    simp only [lastSeq] at h
    split at h
    · cases h
    next hok =>
    simp only [not_or, Nat.not_lt, Nat.not_le] at hok
    obtain ⟨hasc, hge, hle, hlast⟩ := ih h
    refine ⟨pairwise_cons.2 ⟨fun e he => (hge e he).2, hasc⟩, ?_, ?_, ?_⟩
    · intro e he
      rcases mem_cons.1 he with rfl | he
      · exact ⟨hok.2.1, hok.2.2⟩
      · exact ⟨(hge e he).1, Nat.lt_trans hok.2.2 (hge e he).2⟩
    · intro e he
      rcases mem_cons.1 he with rfl | he
      · rcases hlast with rfl | ⟨x, hx, rfl⟩
        · exact Nat.le_refl _
        · exact Nat.le_of_lt (hge x hx).2
      · exact hle e he
    · rcases hlast with rfl | ⟨x, hx, hxl⟩
      · exact .inr ⟨env, mem_cons_self, rfl⟩
      · exact .inr ⟨x, mem_cons_of_mem _ hx, hxl⟩

structure Accepted (cursor : ℕ) (resp : PullResponse) : Prop where
  ascending : Ascending resp.envelopes
  pos : ∀ e ∈ resp.envelopes, 0 < e.eventSeq
  ge : ∀ e ∈ resp.envelopes, cursor ≤ e.eventSeq
  lt : ∀ e ∈ resp.envelopes, e.eventSeq < maxUint64
  next : ∃ e ∈ resp.envelopes, resp.nextCursor = e.eventSeq + 1
  next_gt : ∀ e ∈ resp.envelopes, e.eventSeq < resp.nextCursor

theorem accepted_of_validatePullCursor (hne : resp.envelopes ≠ [])
    (h : validatePullCursor cursor resp = true) : Accepted cursor resp := by
  unfold validatePullCursor at h
  rw [if_neg hne] at h
  split at h
  · cases h
  next last hlast =>
  simp only [Bool.and_eq_true, decide_eq_true_eq] at h
  obtain ⟨hmax, hnext⟩ := h
  obtain ⟨hasc, hge, hle, hlast⟩ := lastSeq_spec hlast
  obtain ⟨x, hx, hxl⟩ : ∃ x ∈ resp.envelopes, x.eventSeq = last := by
    rcases hlast with rfl | hx
    · obtain ⟨x, hx⟩ := exists_mem_of_ne_nil _ hne
      exact absurd (hge x hx).2 (Nat.not_lt.2 (hle x hx))
    · exact hx
  have hlt : last < maxUint64 := Nat.lt_of_le_of_ne (hxl ▸ x.eventSeq_le) hmax
  rw [next64_of_lt hlt] at hnext
  refine ⟨hasc, fun e he => (hge e he).2, fun e he => (hge e he).1, fun e he => ?_,
    ⟨x, hx, by rw [hxl, hnext]⟩, fun e he => ?_⟩
  · exact Nat.lt_of_le_of_lt (hle e he) hlt
  · have := hle e he
    omega

end Cursor

variable {p : Progress}

section Pass

theorem dispatchEnvelope_ok (hok : dispatchEnvelope cfg ans inFold seen e = .ok h) :
    (h = .foreign ∧ cfg.inboundSenderAllowed e = false) ∨ (h = .replayed ∧ e.eventSeq ∈ seen) ∨
      h.settles = true := by
  simp only [dispatchEnvelope, runDispatcher] at hok
  repeat' split at hok
  all_goals cases hok
  all_goals first
    | exact .inr (.inr rfl)
    | exact .inl ⟨rfl, by simp_all⟩
    | exact .inr (.inl ⟨rfl, by assumption⟩)

theorem dispatchEnvelope_deferred
    (herr : dispatchEnvelope cfg ans inFold seen e = .error (.deferred n)) : n = e.eventSeq := by
  simp only [dispatchEnvelope, runDispatcher] at herr
  repeat' split at herr
  all_goals cases herr
  all_goals rfl

/-- What a pass over a batch has done: it has handled a prefix of the batch, and a
deferral names the envelope after it. -/
structure PassSpec (cfg : Config) (envs : List Envelope) (p₀ p : Progress)
    (err : Option DispatchError) (pre rest : List Envelope) : Prop where
  batch : envs = pre ++ rest
  complete : err = none → rest = []
  stopped : ∀ n, err = some (.deferred n) → ∃ env rest', rest = env :: rest' ∧ n = env.eventSeq
  kept : ∀ y ∈ p₀.handled, y ∈ p.handled
  handled : ∀ env ∈ pre, cfg.inboundSenderAllowed env = true →
    ∃ h, (env, h) ∈ p.handled ∧ (h.settles = true ∨ env.eventSeq ∈ p.seen)
  seen : ∀ n ∈ p₀.seen, n ∈ p.seen
  outside : ∀ n ∈ p.seen, n ∈ p₀.seen ∨
    ∃ env ∈ pre, env.eventSeq = n ∧ (env, Handled.outside) ∈ p.handled
  committed : p.lastCommitted = p₀.lastCommitted ∨ ∃ env ∈ pre, p.lastCommitted = env.eventSeq

theorem PassSpec.refl (p : Progress) (hc : err = none → rest = [])
    (hs : ∀ n, err = some (.deferred n) → ∃ env rest', rest = env :: rest' ∧ n = env.eventSeq) :
    PassSpec cfg rest p p err [] rest where
  batch := rfl
  complete := hc
  stopped := hs
  kept _ h := h
  handled _ h := by cases h
  seen _ h := h
  outside _ h := .inl h
  committed := .inl rfl

theorem Progress.lastCommitted_note (p : Progress) (env : Envelope) (h : Handled) :
    (p.note env h).lastCommitted = p.lastCommitted ∨
      (p.note env h).lastCommitted = env.eventSeq := by
  simp only [note]
  split
  · rcases Nat.le_total p.lastCommitted env.eventSeq with hle | hle
    · exact .inr (Nat.max_eq_right hle)
    · exact .inl (Nat.max_eq_left hle)
  · exact .inl rfl

theorem Progress.mem_seen_note :
    n ∈ (p.note env h).seen ↔ n ∈ p.seen ∨ (h = .outside ∧ n = env.eventSeq) := by
  simp only [note]
  split <;> simp_all [or_comm]

theorem PassSpec.cons (hok : dispatchEnvelope cfg ans inFold p₀.seen env = .ok h)
    (hspec : PassSpec cfg envs (p₀.note env h) p err pre rest) :
    PassSpec cfg (env :: envs) p₀ p err (env :: pre) rest where
  batch := by rw [hspec.batch]; rfl
  complete := hspec.complete
  stopped := hspec.stopped
  kept y hy := hspec.kept y (mem_append_left _ hy)
  handled x hx hallowed := by
    rcases mem_cons.1 hx with rfl | hx
    · refine ⟨h, hspec.kept _ (mem_append_right _ (mem_singleton_self _)), ?_⟩
      rcases dispatchEnvelope_ok hok with ⟨-, hforeign⟩ | ⟨-, hseen⟩ | hsettles
      · simp [hallowed] at hforeign
      · exact .inr (hspec.seen _ (Progress.mem_seen_note.2 (.inl hseen)))
      · exact .inl hsettles
    · exact hspec.handled x hx hallowed
  seen n hn := hspec.seen n (Progress.mem_seen_note.2 (.inl hn))
  outside n hn := by
    rcases hspec.outside n hn with hn | ⟨x, hx, hxn, hxo⟩
    · rcases Progress.mem_seen_note.1 hn with hn | ⟨rfl, rfl⟩
      · exact .inl hn
      · exact .inr ⟨env, mem_cons_self, rfl,
          hspec.kept _ (mem_append_right _ (mem_singleton_self _))⟩
    · exact .inr ⟨x, mem_cons_of_mem _ hx, hxn, hxo⟩
  committed := by
    rcases hspec.committed with hc | ⟨x, hx, hc⟩
    · rcases p₀.lastCommitted_note env h with hn | hn
      · exact .inl (hc.trans hn)
      · exact .inr ⟨env, mem_cons_self, hc.trans hn⟩
    · exact .inr ⟨x, mem_cons_of_mem _ hx, hc⟩

theorem dispatchBatch_spec (cfg : Config) (ans : Answers) (inFold : Bool) (envs : List Envelope)
    (p₀ : Progress) :
    ∃ pre rest, PassSpec cfg envs p₀ (dispatchBatch cfg ans inFold envs p₀).1
      (dispatchBatch cfg ans inFold envs p₀).2 pre rest := by
  induction envs generalizing p₀ with
  | nil => exact ⟨[], [], .refl p₀ (fun _ => rfl) nofun⟩
  | cons env envs ih =>
    simp only [dispatchBatch]
    split
    · next err herr =>
      refine ⟨[], env :: envs, .refl p₀ nofun fun n hn => ?_⟩
      cases hn
      exact ⟨env, envs, rfl, dispatchEnvelope_deferred herr⟩
    · next h hok =>
      obtain ⟨pre, rest, hspec⟩ := ih (p₀.note env h)
      exact ⟨env :: pre, rest, hspec.cons hok⟩

end Pass

section Fold

theorem mem_settledBy : e ∈ settledBy hs ↔ ∃ h, (e, h) ∈ hs ∧ h.settles = true := by
  simp [settledBy]

theorem mem_settledAtOnce :
    e ∈ settledAtOnce hs ↔ ∃ h, (e, h) ∈ hs ∧ h.settles = true ∧ h.inTx = false := by
  simp [settledAtOnce]

/-- What the attempts before the last have handed over outside the transaction is
settled. -/
theorem runReplays_seen (replays : List Answers) (seen : List ℕ) :
    ∀ n ∈ (runReplays cfg durables replays seen).2, n ∈ seen ∨
      ∃ x ∈ durables, x.eventSeq = n ∧ x ∈ (runReplays cfg durables replays seen).1 := by
  induction replays generalizing seen with
  | nil => exact fun n hn => .inl hn
  | cons ans rest ih =>
    intro n hn
    obtain ⟨pre, post, hspec⟩ := dispatchBatch_spec cfg ans true durables { seen := seen }
    rcases ih _ n hn with hn | ⟨x, hx, hxn, hxs⟩
    · rcases hspec.outside n hn with hn | ⟨x, hx, hxn, hxo⟩
      · exact .inl hn
      · refine .inr ⟨x, ?_, hxn, mem_append_left _ (mem_settledAtOnce.2 ⟨_, hxo, rfl, rfl⟩)⟩
        rw [hspec.batch]
        exact mem_append_left _ hx
    · exact .inr ⟨x, hx, hxn, mem_append_right _ hxs⟩

/-- After the last attempt of a fold every envelope it has gone through is settled,
by this attempt or by an earlier one. -/
theorem settled_of_last (hasc : Ascending window) (hsub : ∀ x ∈ durables, x ∈ window)
    (replays : List Answers)
    (hspec : PassSpec cfg durables { seen := (runReplays cfg durables replays []).2 } p err pre rest)
    (he : e ∈ pre) (hallowed : cfg.inboundSenderAllowed e = true) :
    e ∈ (runReplays cfg durables replays []).1 ++ settledBy p.handled := by
  have hmem : ∀ {x}, x ∈ pre → x ∈ durables := fun hx => by
    rw [hspec.batch]; exact mem_append_left _ hx
  obtain ⟨h, hh, hset | hseen⟩ := hspec.handled e he hallowed
  · exact mem_append_right _ (mem_settledBy.2 ⟨h, hh, hset⟩)
  rcases hspec.outside _ hseen with hseen | ⟨x, hx, hxe, hxo⟩
  · rcases runReplays_seen replays [] _ hseen with hnil | ⟨x, hx, hxe, hxs⟩
    · cases hnil
    · rw [← hasc.eq_of_eventSeq_eq (hsub x hx) (hsub e (hmem he)) hxe]
      exact mem_append_left _ hxs
  · rw [← hasc.eq_of_eventSeq_eq (hsub x (hmem hx)) (hsub e (hmem he)) hxe]
    exact mem_append_right _ (mem_settledBy.2 ⟨_, hxo, rfl⟩)

theorem splitIngressEnvelopes_eq (hasWaiter : CorrelationId → Bool) (envs : List Envelope) :
    splitIngressEnvelopes cfg hasWaiter envs =
      (envs.filter (isWaiterResponse hasWaiter),
        envs.filter (fun e => !isWaiterResponse hasWaiter e && cfg.isNonTxRequest e),
        envs.filter (fun e => !isWaiterResponse hasWaiter e && !cfg.isNonTxRequest e)) := by
  induction envs with
  | nil => rfl
  | cons env rest ih =>
    simp only [splitIngressEnvelopes, ih, filter_cons]
    cases isWaiterResponse hasWaiter env <;> cases cfg.isNonTxRequest env <;> simp

theorem not_isWaiterResponse_of_isNonTxRequest (hasWaiter : CorrelationId → Bool)
    (h : cfg.isNonTxRequest e = true) : isWaiterResponse hasWaiter e = false := by
  unfold Config.isNonTxRequest at h
  unfold isWaiterResponse
  cases hrpc : e.rpc with
  | none => rfl
  | some rpc =>
    simp only [hrpc, Bool.and_eq_true, decide_eq_true_eq] at h
    simp [h.1.1]

/-- Which requests have been served when the pass over the hoisted requests ends. -/
structure ServedSpec (nonTx : List Envelope) (served₀ served : ℕ) (requests : List Envelope)
    (err : Option DispatchError) : Prop where
  complete : err = none → ∀ e ∈ nonTx, e.eventSeq ≤ served₀ ∨ e ∈ requests
  below : ∀ e ∈ nonTx, e.eventSeq ≤ served → e.eventSeq ≤ served₀ ∨ e ∈ requests
  watermark : served = served₀ ∨ ∃ x ∈ nonTx, served = x.eventSeq
  stopped : ∀ n, err = some (.deferred n) → ∃ x ∈ nonTx, n = x.eventSeq

theorem dispatchNonTxRequests_spec (dispatch : Envelope → DispatchResult) (hasc : Ascending nonTx)
    (served : ℕ) :
    ServedSpec nonTx served (dispatchNonTxRequests dispatch nonTx served).1
      (dispatchNonTxRequests dispatch nonTx served).2.1
      (dispatchNonTxRequests dispatch nonTx served).2.2 := by
  induction nonTx generalizing served with
  | nil =>
    exact ⟨fun _ _ h => absurd h not_mem_nil, fun _ h => absurd h not_mem_nil, .inl rfl, nofun⟩
  | cons env rest ih =>
    obtain ⟨hlt, hasc⟩ := pairwise_cons.1 hasc
    simp only [dispatchNonTxRequests]
    split
    · next hskip =>
      obtain ⟨hcomp, hbelow, hw, hstop⟩ := ih hasc served
      refine ⟨fun he x hx => ?_, fun x hx hle => ?_, ?_, fun n hn => ?_⟩
      · rcases mem_cons.1 hx with rfl | hx
        · exact .inl hskip.2
        · exact hcomp he x hx
      · rcases mem_cons.1 hx with rfl | hx
        · exact .inl hskip.2
        · exact hbelow x hx hle
      · exact hw.imp_right fun ⟨x, hx, hxw⟩ => ⟨x, mem_cons_of_mem _ hx, hxw⟩
      · obtain ⟨x, hx, hxn⟩ := hstop n hn
        exact ⟨x, mem_cons_of_mem _ hx, hxn⟩
    · split
      · refine ⟨nofun, fun _ _ hle => .inl hle, .inl rfl, fun n hn => ?_⟩
        cases hn
        exact ⟨env, mem_cons_self, rfl⟩
      · exact ⟨nofun, fun _ _ hle => .inl hle, .inl rfl, nofun⟩
      · exact ⟨nofun, fun _ _ hle => .inl hle, .inl rfl, nofun⟩
      · obtain ⟨hcomp, hbelow, hw, hstop⟩ := ih hasc (max served env.eventSeq)
        -- a later request below the new watermark was below the old one
        have hold : ∀ x ∈ rest, x.eventSeq ≤ max served env.eventSeq → x.eventSeq ≤ served := by
          intro x hx hle
          have := hlt x hx
          omega
        refine ⟨fun he x hx => ?_, fun x hx hle => ?_, ?_, fun n hn => ?_⟩
        · rcases mem_cons.1 hx with rfl | hx
          · exact .inr mem_cons_self
          · exact (hcomp he x hx).imp (hold x hx) (mem_cons_of_mem _)
        · rcases mem_cons.1 hx with rfl | hx
          · exact .inr mem_cons_self
          · exact (hbelow x hx hle).imp (hold x hx) (mem_cons_of_mem _)
        · rcases hw with hw | ⟨x, hx, hxw⟩
          · rcases Nat.le_total served env.eventSeq with hle | hle
            · exact .inr ⟨env, mem_cons_self, hw.trans (Nat.max_eq_right hle)⟩
            · exact .inl (hw.trans (Nat.max_eq_left hle))
          · exact .inr ⟨x, mem_cons_of_mem _ hx, hxw⟩
        · obtain ⟨x, hx, hxn⟩ := hstop n hn
          exact ⟨x, mem_cons_of_mem _ hx, hxn⟩

structure ClampSpec (window kept : List Envelope) (cursor : ℕ) (clamped : List Envelope)
    (next : ℕ) : Prop where
  sub : clamped.Sublist kept
  closed : ∀ e ∈ kept, ∀ x ∈ clamped, e.eventSeq ≤ x.eventSeq → e ∈ clamped
  below : ∀ e ∈ kept, e.eventSeq < next → e ∈ clamped
  next_le : ∃ x ∈ window, next ≤ x.eventSeq + 1
  next_gt : cursor < next

theorem clampToDeferred_spec (hacc : Accepted cursor resp) (hkept : kept.Sublist resp.envelopes)
    (hdef : deferredSeq < maxUint64) :
    ClampSpec resp.envelopes kept cursor (clampToDeferred kept resp.nextCursor deferredSeq).1
      (clampToDeferred kept resp.nextCursor deferredSeq).2 := by
  have hwhole : ClampSpec resp.envelopes kept cursor kept resp.nextCursor := by
    obtain ⟨x, hx, hnext⟩ := hacc.next
    refine ⟨Sublist.refl _, fun e he _ _ _ => he, fun e he _ => he, ⟨x, hx, ?_⟩, ?_⟩
    · exact Nat.le_of_eq hnext
    · rw [hnext]
      exact Nat.lt_succ_of_le (hacc.ge x hx)
  simp only [clampToDeferred]
  split
  · exact hwhole
  split
  · exact hwhole
  next hlen =>
  simp only [not_or] at hlen
  obtain ⟨y, hy⟩ := exists_mem_of_length_pos (Nat.pos_of_ne_zero hlen.1)
  obtain ⟨hyk, hyd⟩ := mem_filter.1 hy
  obtain ⟨x, hxk, hxd⟩ : ∃ x ∈ kept, ¬ x.eventSeq ≤ deferredSeq := by
    by_contra hall
    refine hlen.2 (congrArg length (filter_eq_self.2 fun x hx => ?_))
    by_contra hxd
    exact hall ⟨x, hx, by simpa using hxd⟩
  rw [next64_of_lt hdef]
  refine ⟨filter_sublist, fun e he z hz hle => ?_, fun e he hlt => ?_,
    ⟨x, hkept.subset hxk, by omega⟩, ?_⟩
  · have hzd : z.eventSeq ≤ deferredSeq := by simpa using (mem_filter.1 hz).2
    exact mem_filter.2 ⟨he, by simpa using Nat.le_trans hle hzd⟩
  · exact mem_filter.2 ⟨he, by simpa using Nat.lt_succ_iff.1 hlt⟩
  · have hyd : y.eventSeq ≤ deferredSeq := by simpa using hyd
    exact Nat.lt_succ_of_le (Nat.le_trans (hacc.ge y (hkept.subset hyk)) hyd)

theorem pairwise_merge_le (ha : Ascending a) (hb : Ascending b) :
    (mergeEnvelopesByEventSeq a b).Pairwise fun x y => x.eventSeq ≤ y.eventSeq := by
  have hle : ∀ {l : List Envelope}, Ascending l →
      l.Pairwise fun x y => decide (x.eventSeq ≤ y.eventSeq) = true :=
    fun h => h.imp fun hlt => by simpa using Nat.le_of_lt hlt
  refine (pairwise_merge ?_ ?_ a b (hle ha) (hle hb)).imp fun h => by simpa using h
  · simp only [decide_eq_true_eq]
    exact fun _ _ _ => Nat.le_trans
  · intro x y
    simpa using Nat.le_total x.eventSeq y.eventSeq

end Fold

end Wavelength.Ingress
