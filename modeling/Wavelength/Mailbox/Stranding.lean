import Wavelength.Mailbox.ExactlyOnce

/-! # Rows that no query will touch again

A claim counts as an attempt, and only the worker that holds a row on its final
attempt can still remove or release it. When its lease runs out first, the row
stays behind: no claim query returns it. As long as no lease on a final attempt
runs out, every row can be claimed again or is under a running lease.
-/

namespace Wavelength.Mailbox

variable {s s' : State} {w : ℕ} {d : Delivery} {m m₀ : Row}

/-- The row can be claimed again, or its lease is still running. -/
def Row.Recoverable (now : ℤ) (m : Row) : Prop := m.attempts < m.maxAttempts ∨ m.Leased now

instance (now : ℤ) (m : Row) : Decidable (m.Recoverable now) :=
  inferInstanceAs (Decidable (_ ∨ _))

def State.Recoverable (s : State) : Prop := ∀ m ∈ s.store.messages.rows, m.Recoverable s.now

instance (s : State) : Decidable s.Recoverable :=
  inferInstanceAs (Decidable (∀ m ∈ s.store.messages.rows, _))

/-- New rows have a budget, and no time passes beyond the end of a lease on a
final attempt. -/
def Tended (s : State) (a : Action) (_ : State) : Prop :=
  match a with
  | .enqueue m => s.row m.id = none → 0 < m.maxAttempts
  | .tick seconds => ∀ m ∈ s.store.messages.rows, m.Exhausted → m.Leased (s.now + seconds)
  | _ => True

instance (s s' : State) : (a : Action) → Decidable (Tended s a s')
  | .enqueue _ | .tick _ | .expireLeases | .claim .. | .poison .. | .dedup .. | .heartbeat _ | .stage ..
  | .commit .. | .reject .. | .finish .. | .turn .. | .storeOp .. | .crash _ => by
    unfold Tended
    infer_instance

structure Recovering (cfg : Config) (s : State) : Prop where
  own : Ownership cfg s
  budget : ∀ i m, s.row i = some m → 0 < m.maxAttempts ∧ m.attempts ≤ m.maxAttempts
  recoverable : ∀ i m, s.row i = some m → m.Recoverable s.now

theorem State.recoverable_iff : s.Recoverable ↔ ∀ i m, s.row i = some m → m.Recoverable s.now := by
  constructor
  · intro h i m hm
    exact h m (Table.mem_of_get? hm)
  · intro h m hm
    exact h m.id m (Table.mem_rows_iff.1 hm)

namespace Recovering

theorem initial : Recovering cfg (.initial cfg now) where
  own := ownership_initial
  budget _ _ hm := by cases hm
  recoverable _ _ hm := by cases hm

/-- A nack leaves an attempt, since it is made only below the budget. -/
theorem nackAttempts_lt (hmatch : d.Matches m) (hd : d.shouldDeadLetter = false) :
    nackAttempts d.leaseToken m < m.maxAttempts := by
  have h1 := hmatch.attempts
  have h2 := hmatch.maxAttempts
  simp only [Delivery.shouldDeadLetter, Delivery.effectiveAttempts] at hd
  unfold nackAttempts
  split <;> simp_all

theorem postponeAttempts_lt (hpos : 0 < m.maxAttempts) (hle : m.attempts ≤ m.maxAttempts)
    (hpeek : d.leaseToken = none → m.attempts < m.maxAttempts) :
    postponeAttempts d.leaseToken m < m.maxAttempts := by
  unfold postponeAttempts
  split
  · next h => exact hpeek h
  · split <;> omega

variable (h : Recovering cfg s)
include h

theorem attempts_lt_of_peeked (hl : cfg.leaseless = true)
    (hm : s.row i = some m) : m.attempts < m.maxAttempts := by
  rcases h.recoverable i m hm with hlt | ⟨u, hu, -⟩
  · exact hlt
  · simp [(h.own.bare hl i m hm).2] at hu

variable (hdur : 0 ≤ cfg.leaseDuration)
include hdur

/-- What the holder of a delivery leaves of its row can be claimed again, or is
under a running lease if it was before. -/
theorem of_rowAct (hp : s.workers[w]? = some p)
    (hd : p.delivery? = some d) (hm₀ : s.row d.id = some m₀)
    (hact : RowAct (p.Releasable cfg) (s.now + cfg.leaseDuration) d m₀ (some m)) :
    (0 < m.maxAttempts ∧ m.attempts ≤ m.maxAttempts) ∧ m.Recoverable s.now := by
  obtain ⟨hpos, hle⟩ := h.budget d.id m₀ hm₀
  cases hact with
  | same => exact ⟨⟨hpos, hle⟩, h.recoverable d.id m hm₀⟩
  | nacked availableAt hrel hown hdl =>
    have hlt := nackAttempts_lt (h.own.of_releasable hp hd hrel hm₀ hown).2 hdl
    exact ⟨⟨hpos, Int.le_of_lt hlt⟩, .inl hlt⟩
  | postponed availableAt hrel hown =>
    have hlt : postponeAttempts d.leaseToken m₀ < m₀.maxAttempts :=
      postponeAttempts_lt hpos hle fun ht => h.attempts_lt_of_peeked
        (h.own.leaseless_of_bare (Option.bind_eq_some_iff.2 ⟨p, hp, hd⟩) ht) hm₀
    exact ⟨⟨hpos, Int.le_of_lt hlt⟩, .inl hlt⟩
  | extended token _ _ => exact ⟨⟨hpos, hle⟩, .inr ⟨_, rfl, Int.le_add_of_nonneg_right hdur⟩⟩

theorem row_step (hG : Tended s a s')
    (hspec : StepSpec cfg s a s') (hm : s'.row i = some m) :
    (0 < m.maxAttempts ∧ m.attempts ≤ m.maxAttempts) ∧ m.Recoverable s'.now := by
  have hrow := hspec.row i
  have hnow := hspec.now
  rw [hm] at hrow
  generalize hr : (some m : Option Row) = r at hrow
  cases hrow with
  | same =>
    refine ⟨h.budget i m hr.symm, ?_⟩
    rw [hnow]
    cases a with
    | tick seconds =>
      by_cases hex : m.Exhausted
      · exact .inr (hG m (Table.mem_of_get? hr.symm) hex)
      · exact .inl (Int.not_le.1 hex)
    | _ => simpa [Action.elapsed] using h.recoverable i m hr.symm
  | enqueued m₁ hid hnone =>
    cases hr
    have hpos : 0 < m₁.maxAttempts := hG (hid ▸ hnone)
    exact ⟨⟨hpos, Int.le_of_lt hpos⟩, .inl hpos⟩
  | leased w token promise m₁ _ _ hm₁ hnext _ =>
    cases hr
    have hlt : m₁.attempts < m₁.maxAttempts := hnext.1.2.2.2.1
    refine ⟨⟨(h.budget i m₁ hm₁).1, hlt⟩, .inr ⟨_, rfl, ?_⟩⟩
    rw [hnow]
    show s.now + 0 ≤ s.now + _
    exact Int.add_le_add_left hdur s.now
  | expired m₁ hm₁ =>
    cases hr
    have hterms := Row.SameTerms.expire m₁ s.now
    rw [hterms.attempts, hterms.maxAttempts]
    refine ⟨h.budget i m₁ hm₁, ?_⟩
    rw [Row.Recoverable, hterms.attempts, hterms.maxAttempts, hnow]
    rcases h.recoverable i m₁ hm₁ with hlt | ⟨u, hu, hle⟩
    · exact .inl hlt
    -- a lease that is still running is not expired
    refine .inr ?_
    have : m₁.expire s.now = m₁ := if_neg (by
      rintro ⟨u', hu', hlt⟩
      cases hu.symm.trans hu'
      omega)
    rw [this]
    exact ⟨u, hu, by simpa [Action.elapsed] using hle⟩
  | acted _ w p d m₀ _ ha hp hd hid hm₀ hact =>
    subst hr hid
    rw [hnow, ← StepSpec.elapsed_of_worker? ha]
    exact h.of_rowAct hdur hp hd hm₀ hact

theorem step (hG : Tended s a s')
    (hstep : Mailbox.step cfg s a = some s') : Recovering cfg s' :=
  have hspec := step_spec h.own.planned hstep
  { own := h.own.step hstep
    budget := fun _ _ hm => (h.row_step hdur hG hspec hm).1
    recoverable := fun _ _ hm => (h.row_step hdur hG hspec hm).2 }

omit hdur

omit h

end Recovering

theorem tended_of_recoverable (hstep : step cfg s a = some s') (h : s'.Recoverable) :
    Tended s a s' := by
  rw [State.recoverable_iff] at h
  cases a with
  | enqueue m =>
    cases hstep
    intro hnone
    have hnone : s.store.messages.get? m.id = none := hnone
    rcases h m.id m.fresh (by
      simp [State.row, Store.enqueueMailboxMessage, Table.get?_insertIgnore, hnone, Row.fresh])
      with hlt | ⟨u, hu, -⟩
    · exact hlt
    · cases hu
  | tick seconds =>
    cases hstep
    intro m hm hex
    exact (h m.id m (Table.mem_rows_iff.1 hm)).resolve_left (Int.not_lt.2 hex)
  | _ => trivial

variable {cfg : Config}

/-- The states of a run leave no row behind exactly when no lease on a final
attempt runs out in it and every new row has a budget. -/
theorem rows_recoverable_iff_tended (hdur : 0 ≤ cfg.leaseDuration) {now : ℤ} {as : List Action} :
    (pool cfg).Along (fun _ _ s' => s'.Recoverable) (.initial cfg now) as ↔
      (pool cfg).Along Tended (.initial cfg now) as := by
  constructor
  · exact Machine.Along.imp fun _ _ _ hstep h => tended_of_recoverable hstep h
  intro hG
  refine (Machine.along_invariant (Recovering cfg)
    (fun _ _ _ h hG hstep => h.step hdur hG hstep) .initial hG).imp fun _ _ _ _ h => ?_
  exact State.recoverable_iff.2 h.2.2.2.recoverable

def retriedOnce : List Action :=
  [.enqueue { id := 1, mailboxId := 0, maxAttempts := 2 }, .claim 0 1 10 false, .dedup 0 false,
    .finish 0 (.failed "busy") "", .storeOp 0 false, .storeOp 0 false, .tick 60,
    .claim 1 1 11 false, .dedup 1 false, .tick 20, .heartbeat 1, .tick 20,
    .finish 1 (.failed "busy") "", .storeOp 1 false, .storeOp 1 false]

theorem retriedOnce_recoverable :
    ((pool pairCfg).run (.initial pairCfg 0) retriedOnce).map
      (fun s => (s.store.messages.rows.length, s.store.deadLetters.rows.map DeadLetter.id)) =
        some (0, [1]) ∧
      (pool pairCfg).Along (fun _ _ s' => s'.Recoverable) (.initial pairCfg 0) retriedOnce :=
  ⟨by decide, (rows_recoverable_iff_tended (by decide)).2 (by decide)⟩

section Stranded

/-- The row is out of attempts and no worker has it in hand. -/
structure Stranded (i : MessageId) (s : State) : Prop where
  planned : s.Planned
  row : ∃ m, s.row i = some m ∧ m.Exhausted
  unheld : ∀ w d, s.Holds w d → d.id ≠ i

theorem Stranded.step (h : Stranded i s) (hstep : step cfg s a = some s') : Stranded i s' := by
  have hspec := step_spec h.planned hstep
  obtain ⟨m, hm, hex⟩ := h.row
  refine ⟨h.planned.step hstep, ?_, ?_⟩
  · have hrow := hspec.row i
    generalize hr : s'.row i = r at hrow
    cases hrow with
    | same => exact ⟨m, hm, hex⟩
    | enqueued m₁ _ hnone => simp [hm] at hnone
    | leased w token promise m₁ _ _ hm₁ hnext _ =>
      cases hm.symm.trans hm₁
      exact absurd hnext.1.2.2.2.1 (Int.not_lt.2 hex)
    | expired m₁ hm₁ =>
      cases hm.symm.trans hm₁
      have hterms := Row.SameTerms.expire m s.now
      refine ⟨_, rfl, ?_⟩
      rwa [Row.Exhausted, hterms.attempts, hterms.maxAttempts]
    | acted _ w p d m₁ _ _ hp hd hid _ _ =>
      exact absurd hid (h.unheld w d (Option.bind_eq_some_iff.2 ⟨p, hp, hd⟩))
  · intro w d hd
    rcases hspec.holds hd with hd | ⟨id, token, promise, m₁, -, -, hm₁, hnext, -, rfl⟩
    · exact h.unheld w d hd
    rw [Config.claimed_id]
    rintro rfl
    have hid : m₁.id = id := Table.key_of_get? hm₁
    obtain rfl : m = m₁ := by simpa [hid, hm₁] using hm.symm
    exact absurd hnext.1.2.2.2.1 (Int.not_lt.2 hex)

/-- A stranded row is never claimed, deleted or dead-lettered. -/
theorem Stranded.run (h : Stranded i s) (hrun : (pool cfg).run s as = some s') :
    ∃ m, s'.row i = some m ∧ m.Exhausted :=
  (Machine.run_preserves (Stranded i) (fun _ _ _ h hstep => h.step hstep) h hrun).row

end Stranded

def strandedByCrash : List Action :=
  [.enqueue { id := 1, mailboxId := 0, maxAttempts := 1 }, .claim 0 1 10 false, .crash 0, .tick 31]

theorem strandedByCrash_stranded
    (h : (pool pairCfg).run (.initial pairCfg 0) strandedByCrash = some s) : Stranded 1 s where
  planned := Machine.run_preserves _ (fun _ _ _ hp hstep => hp.step hstep) State.planned_initial h
  row := by
    cases h
    exact ⟨_, rfl, by decide⟩
  unheld w d hd := by
    cases h
    match w, hd with
    | 0, hd => cases hd
    | 1, hd => cases hd
    | w + 2, hd => cases hd

/-- The row is out of attempts and without a lease, and stays so whatever follows. -/
theorem strandedByCrash_not_recoverable :
    ¬ (∀ (cfg : Config) (now : ℤ) (as : List Action),
      (pool cfg).Along (fun _ _ s' => s'.Recoverable) (.initial cfg now) as) ∧
    ∀ as s, (pool pairCfg).run (.initial pairCfg 0) (strandedByCrash ++ as) = some s →
      ∃ m, s.row 1 = some m ∧ m.Exhausted := by
  refine ⟨fun h => absurd (h pairCfg 0 strandedByCrash) (by decide), fun as s hrun => ?_⟩
  rw [Machine.run_append] at hrun
  obtain ⟨s₀, hs₀, hrun⟩ := Option.bind_eq_some_iff.1 hrun
  exact (strandedByCrash_stranded hs₀).run hrun

end Wavelength.Mailbox
