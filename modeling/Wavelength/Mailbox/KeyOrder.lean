import Wavelength.Mailbox.ExactlyOnce

/-! # The order of effects under one correlation key

The claim queries pass over a row while an earlier row of its lane still has
attempts. An earlier row on its final attempt does not hold the lane back, also
when a worker is busy with it. When no row is claimed past such a worker, the
commits of a lane happen in the order of their ids.
-/

namespace Wavelength.Mailbox

open List

/-- Two rows of one mailbox under the same correlation key. -/
def Row.SameLane (m m' : Row) : Prop :=
  m.mailboxId = m'.mailboxId ∧ m.correlationKey = m'.correlationKey ∧ m.correlationKey ≠ none

instance (m m' : Row) : Decidable (m.SameLane m') := inferInstanceAs (Decidable (_ ∧ _))

namespace State

def InUse (s : State) (m : Row) : Prop := m.Leased s.now ∨ s.InFlight m

instance (s : State) (m : Row) : Decidable (s.InUse m) := inferInstanceAs (Decidable (_ ∨ _))

/-- Out of attempts and in nobody's hands: the row takes no further part. -/
def Dead (s : State) (m : Row) : Prop := m.Exhausted ∧ ¬ s.InFlight m

/-- Of two commits under one key the one with the smaller id comes first. -/
def CommitsInOrder (s : State) : Prop :=
  s.commitLog.Pairwise fun e e' => e.2 ≠ none → e.2 = e'.2 → e.1 ≤ e'.1

instance (s : State) : Decidable s.CommitsInOrder :=
  inferInstanceAs (Decidable (List.Pairwise _ _))

/-- Two rows of a lane are under running leases only when the earlier one is on
its final attempt. -/
def LeasesInOrder (s : State) : Prop :=
  ∀ m ∈ s.store.messages.rows, ∀ m' ∈ s.store.messages.rows, m.SameLane m' → m.id < m'.id →
    m.Leased s.now → m'.Leased s.now → m.Exhausted

end State

/-- Nothing enters a lane ahead of a row that is in use or committed, no row is
claimed while a worker is busy with an earlier row of its lane, and a peeking
worker commits once per turn. -/
def LaneKept (cfg : Config) (s : State) (a : Action) (_ : State) : Prop :=
  match a with
  | .enqueue m => m.correlationKey ≠ none → s.row m.id = none →
      (∀ e ∈ s.commitLog, e.2 = m.correlationKey → e.1 ≤ m.id) ∧
        ∀ m' ∈ s.store.messages.rows, m.SameLane m' → m.id < m'.id → ¬ s.InUse m'
  | .claim _ id _ _ => ∀ m' ∈ s.row id, ∀ m ∈ s.store.messages.rows, m.SameLane m' →
      m.id < m'.id → ¬ s.InFlight m
  | .commit w _ => cfg.leaseless = true → s.workers[w]?.all (!·.committed) = true
  | _ => True

instance (cfg : Config) (s s' : State) : (a : Action) → Decidable (LaneKept cfg s a s')
  | .enqueue _ | .tick _ | .expireLeases | .claim .. | .poison .. | .dedup .. | .heartbeat _ | .stage ..
  | .commit .. | .reject .. | .finish .. | .turn .. | .storeOp .. | .crash _ => by
    unfold LaneKept
    infer_instance

theorem StepSpec.enqueued_of_none (h : StepSpec cfg s a s') (hnone : s.row i = none)
    (hm : s'.row i = some m) : ∃ m₁, a = .enqueue m₁ ∧ m₁.id = i ∧ m = m₁.fresh := by
  have hrow := h.row i
  rw [hm] at hrow
  generalize hr : (some m : Option Row) = r at hrow
  cases hrow with
  | same => simp [hnone] at hr
  | enqueued m₁ hid _ => exact ⟨m₁, rfl, hid, Option.some.inj hr⟩
  | leased _ _ _ _ _ _ hm₁ | expired _ hm₁ | acted _ _ _ _ _ _ _ _ _ _ hm₁ => simp [hnone] at hm₁

def ClaimsRow (cfg : Config) (s : State) (a : Action) (i : MessageId) (m : Row) : Prop :=
  (∃ w token promise, a = .claim w i token promise) ∧ s.row i = some m ∧
    m.IsNext s.store.messages.rows cfg.mailboxId s.now

namespace Ownership

variable (h : Ownership cfg s) (hspec : StepSpec cfg s a s')
include h hspec

theorem inFlight_step (hm : s'.row i = some m)
    (hfl : s'.InFlight m) :
    (∃ m₀, s.row i = some m₀ ∧ m₀.SameTerms m ∧ s.InFlight m₀) ∨ ∃ m₀, ClaimsRow cfg s a i m₀ := by
  obtain ⟨p', hp'mem, d, hd, hid, hown, hlive⟩ := hfl
  obtain ⟨w, hp'⟩ := getElem?_of_mem hp'mem
  have hmi : m.id = i := Table.key_of_get? hm
  have hdi : d.id = i := hid.trans hmi
  rcases hspec.phase_delivery hp' hd with
    ⟨p, hp, hpd, hpl⟩ | ⟨id, token, promise, m₀, rfl, -, hm₀, hnext, -, rfl⟩
  · refine .inl ?_
    have hpmem := mem_of_getElem? hp
    have hholds : s.Holds w d := Option.bind_eq_some_iff.2 ⟨p, hp, hpd⟩
    cases ht : d.leaseToken with
    | some t =>
      have hmt : m.leaseToken = some t := owns_some_iff.1 (ht ▸ hown)
      rcases hspec.leased_under hm hmt with ⟨m₀, hm₀, hmt₀, hterms⟩ | ⟨w', promise, m₀, rfl, hl, hnew, -⟩
      · have hmi₀ : m₀.id = i := Table.key_of_get? hm₀
        exact ⟨m₀, hm₀, hterms, p, hpmem, d, hpd, hdi.trans hmi₀.symm,
          ht ▸ owns_some_iff.2 hmt₀, fun h => by simp [ht] at h⟩
      · obtain ⟨t', ht', hdt⟩ := h.held hl w d hholds
        cases hdt.symm.trans ht
        exact absurd ht' hnew
    | none =>
      have hl := h.leaseless_of_bare hholds ht
      obtain ⟨m₀, hm₀, -⟩ := h.alive hl w p d hp (hpl (hlive ht)) hpd
      obtain ⟨m₁, hm₁, hterms⟩ := h.alive_row hspec hl hp hpd hp' (hlive ht) hm₀
      rw [hdi] at hm₀ hm₁
      cases hm₁.symm.trans hm
      have hmi₀ : m₀.id = i := Table.key_of_get? hm₀
      exact ⟨m₀, hm₀, hterms, p, hpmem, d, hpd, hdi.trans hmi₀.symm, .inl ht,
        fun _ => hpl (hlive ht)⟩
  · have hmi₀ : m₀.id = id := Table.key_of_get? hm₀
    obtain rfl : id = i := by rw [← hdi, Config.claimed_id, hmi₀]
    exact .inr ⟨m₀, ⟨w, token, promise, rfl⟩, hm₀, hnext⟩

theorem inUse_step (hm : s'.row i = some m)
    (huse : s'.InUse m) :
    (∃ m₀, s.row i = some m₀ ∧ s.InUse m₀) ∨ ∃ m₀, ClaimsRow cfg s a i m₀ := by
  rcases huse with ⟨u, hu, hle⟩ | hfl
  · have hle₀ : s.now ≤ u := by
      have := hspec.now
      omega
    have hrow := hspec.row i
    rw [hm] at hrow
    generalize hr : (some m : Option Row) = r at hrow
    cases hrow with
    | same => exact .inl ⟨m, hr.symm, .inl ⟨u, hu, hle₀⟩⟩
    | enqueued m₁ _ _ =>
      cases hr
      cases hu
    | leased w token promise m₁ _ _ hm₁ hnext _ =>
      exact .inr ⟨m₁, ⟨w, token, promise, rfl⟩, hm₁, hnext⟩
    | expired m₁ hm₁ =>
      cases hr
      refine .inl ⟨m₁, hm₁, .inl ⟨u, ?_, hle₀⟩⟩
      unfold Row.expire at hu
      split at hu
      · cases hu
      · exact hu
    | acted _ w p d m₁ _ _ hp hd hid hm₁ hact =>
      subst hr
      have hmi : m₁.id = i := Table.key_of_get? hm₁
      refine .inl ⟨m₁, hm₁, ?_⟩
      cases hact with
      | same => exact .inl ⟨u, hu, hle₀⟩
      | nacked | postponed => cases hu
      | extended token ht hmt =>
        exact .inr ⟨p, mem_of_getElem? hp, d, hd, hid.trans hmi.symm,
          ht ▸ owns_some_iff.2 hmt, fun h => by simp [ht] at h⟩
  · rcases h.inFlight_step hspec hm hfl with ⟨m₀, hm₀, -, hfl₀⟩ | hclaim
    · exact .inl ⟨m₀, hm₀, .inr hfl₀⟩
    · exact .inr hclaim

theorem dead_step (hm₀ : s.row i = some m₀)
    (hdead : s.Dead m₀) (hm : s'.row i = some m) : s'.Dead m := by
  obtain ⟨hex, hnfl⟩ := hdead
  refine ⟨?_, fun hfl => ?_⟩
  · have hrow := hspec.row i
    rw [hm] at hrow
    generalize hr : (some m : Option Row) = r at hrow
    cases hrow with
    | same =>
      cases hr.trans hm₀
      exact hex
    | enqueued m₁ _ hnone => simp [hm₀] at hnone
    | leased w token promise m₁ _ _ hm₁ hnext _ =>
      cases hm₁.symm.trans hm₀
      exact absurd hnext.1.2.2.2.1 (Int.not_lt.2 hex)
    | expired m₁ hm₁ =>
      obtain rfl : m₁ = m₀ := Option.some.inj (hm₁.symm.trans hm₀)
      cases hr
      have hterms := Row.SameTerms.expire m₁ s.now
      rwa [Row.Exhausted, hterms.attempts, hterms.maxAttempts]
    | acted _ w p d m₁ _ _ hp hd hid hm₁ hact =>
      cases hm₁.symm.trans hm₀
      subst hr hid
      -- only a worker that has the row in flight could give it back
      cases hact with
      | same | extended => exact hex
      | nacked _ hrel hown _ | postponed _ hrel hown =>
        exact absurd (h.of_releasable hp hd hrel hm₁ hown).1 hnfl
  · rcases h.inFlight_step hspec hm hfl with ⟨m₁, hm₁, -, hfl₁⟩ | ⟨m₁, -, hm₁, hnext⟩
    · cases hm₁.symm.trans hm₀
      exact hnfl hfl₁
    · cases hm₁.symm.trans hm₀
      exact absurd hnext.1.2.2.2.1 (Int.not_lt.2 hex)

omit h hspec

end Ownership

/-- The invariant behind the result: whatever is in use or committed has only
dead rows ahead of it in its lane. -/
structure InOrder (cfg : Config) (s : State) : Prop where
  own : Ownership cfg s
  mine : ∀ i m, s.row i = some m → s.InFlight m → m.mailboxId = cfg.mailboxId
  lanes : ∀ i j m m', s.row i = some m → s.row j = some m' → m.SameLane m' → m.id < m'.id →
    s.InUse m' → s.Dead m
  log : ∀ e ∈ s.commitLog, e.2 ≠ none → ∀ i m, s.row i = some m →
    m.mailboxId = cfg.mailboxId → m.correlationKey = e.2 → m.id < e.1 → s.Dead m
  order : s.CommitsInOrder

theorem inOrder_initial {now : ℤ} : InOrder cfg (.initial cfg now) where
  own := ownership_initial
  mine _ _ hm := by cases hm
  lanes _ _ _ _ hm := by cases hm
  log _ he := by cases he
  order := Pairwise.nil

theorem Row.SameLane.of_step (hspec : StepSpec cfg s a s') (hm₀ : s.row i = some m₀)
    (hm : s'.row i = some m) (hm₀' : s.row j = some m₀') (hm' : s'.row j = some m')
    (h : m.SameLane m') (hlt : m.id < m'.id) : m₀.SameLane m₀' ∧ m₀.id < m₀'.id := by
  obtain ⟨h1, h2, -⟩ := hspec.sameLane hm₀ hm
  obtain ⟨h1', h2', -⟩ := hspec.sameLane hm₀' hm'
  have hi : m.id = i := Table.key_of_get? hm
  have hj : m'.id = j := Table.key_of_get? hm'
  have hi₀ : m₀.id = i := Table.key_of_get? hm₀
  have hj₀ : m₀'.id = j := Table.key_of_get? hm₀'
  refine ⟨⟨?_, ?_, ?_⟩, by rwa [hi₀, hj₀, ← hi, ← hj]⟩
  · rw [← h1, ← h1', h.1]
  · rw [← h2, ← h2', h.2.1]
  · rw [← h2]; exact h.2.2

namespace InOrder

variable (h : InOrder cfg s)
include h

theorem mine_step (hspec : StepSpec cfg s a s') (hm : s'.row i = some m)
    (hfl : s'.InFlight m) : m.mailboxId = cfg.mailboxId := by
  rcases h.own.inFlight_step hspec hm hfl with ⟨m₀, hm₀, -, hfl₀⟩ | ⟨m₀, -, hm₀, hnext⟩
  · rw [(hspec.sameLane hm₀ hm).1]
    exact h.mine i m₀ hm₀ hfl₀
  · rw [(hspec.sameLane hm₀ hm).1]
    exact hnext.1.1

theorem lanes_step (hG : LaneKept cfg s a s') (hspec : StepSpec cfg s a s')
    (hm : s'.row i = some m) (hm' : s'.row j = some m') (hlane : m.SameLane m')
    (hlt : m.id < m'.id) (huse : s'.InUse m') : s'.Dead m := by
  rcases h.own.inUse_step hspec hm' huse with ⟨m₀', hm₀', huse₀⟩ | ⟨m₀', ⟨w, t, p, rfl⟩, hm₀', hnext⟩
  · cases hm₀ : s.row i with
    | some m₀ =>
      obtain ⟨hlane₀, hlt₀⟩ := hlane.of_step hspec hm₀ hm hm₀' hm' hlt
      exact h.own.dead_step hspec hm₀ (h.lanes i j m₀ m₀' hm₀ hm₀' hlane₀ hlt₀ huse₀) hm
    | none =>
      -- a row that enters the lane is not ahead of one in use
      obtain ⟨m₁, rfl, hid, rfl⟩ := hspec.enqueued_of_none hm₀ hm
      obtain ⟨h1, h2, -⟩ := hspec.sameLane hm₀' hm'
      have hj : m'.id = j := Table.key_of_get? hm'
      have hj₀ : m₀'.id = j := Table.key_of_get? hm₀'
      have hlt₁ : m₁.id < m₀'.id := by rw [hj₀, ← hj]; exact hlt
      refine absurd huse₀ ((hG hlane.2.2 (hid ▸ hm₀)).2 m₀' (Table.mem_of_get? hm₀') ?_ hlt₁)
      exact ⟨hlane.1.trans h1, hlane.2.1.trans h2, hlane.2.2⟩
  · cases hm₀ : s.row i with
    | some m₀ =>
      obtain ⟨hlane₀, hlt₀⟩ := hlane.of_step hspec hm₀ hm hm₀' hm' hlt
      have hmem := Table.mem_of_get? hm₀
      refine h.own.dead_step hspec hm₀ ⟨?_, hG m₀' hm₀' m₀ hmem hlane₀ hlt₀⟩ hm
      -- the claimed row was not blocked, so the earlier one is out of attempts
      have hkey : m₀'.correlationKey ≠ none := hlane₀.2.1 ▸ hlane₀.2.2
      have hnb := hnext.1.2.2.2.2.resolve_left hkey
      exact Int.not_lt.1 fun hlt' => hnb ⟨m₀, hmem, hlane₀.1, hlane₀.2.1, hlt₀, hlt'⟩
    | none =>
      obtain ⟨m₁, heq, -⟩ := hspec.enqueued_of_none hm₀ hm
      cases heq

theorem log_step (hG : LaneKept cfg s a s') (hspec : StepSpec cfg s a s') (he : e ∈ s.commitLog)
    (hkey : e.2 ≠ none) (hm : s'.row i = some m) (hbox : m.mailboxId = cfg.mailboxId)
    (hmk : m.correlationKey = e.2) (hlt : m.id < e.1) : s'.Dead m := by
  cases hm₀ : s.row i with
  | some m₀ =>
    obtain ⟨h1, h2, -⟩ := hspec.sameLane hm₀ hm
    have hi : m.id = i := Table.key_of_get? hm
    have hi₀ : m₀.id = i := Table.key_of_get? hm₀
    have hdead := h.log e he hkey i m₀ hm₀ (h1 ▸ hbox) (h2 ▸ hmk) (by rwa [hi₀, ← hi])
    exact h.own.dead_step hspec hm₀ hdead hm
  | none =>
    obtain ⟨m₁, rfl, hid, rfl⟩ := hspec.enqueued_of_none hm₀ hm
    have hmk₁ : m₁.correlationKey = e.2 := hmk
    have hlt₁ : m₁.id < e.1 := hlt
    exact absurd hlt₁ (Nat.not_lt.2 ((hG (hmk₁ ▸ hkey) (hid ▸ hm₀)).1 e he hmk₁.symm))

theorem inFlight_of_commit (hG : LaneKept cfg s (.commit w true) s') (hc : CommitStep s w d c m s') :
    s.InFlight m := by
  have hid : m.id = d.id := Table.key_of_get? hc.row
  refine ⟨_, mem_of_getElem? hc.phase, d, rfl, hid.symm, hc.owns, fun ht => ?_⟩
  have hl := h.own.leaseless_of_bare (holds_of_running hc.phase) ht
  cases c with
  | false => rfl
  | true => simpa [hc.phase, Phase.committed] using hG hl

theorem step (hG : LaneKept cfg s a s') (hstep : Mailbox.step cfg s a = some s') :
    InOrder cfg s' := by
  have hspec := step_spec h.own.planned hstep
  have hmine : ∀ i m, s'.row i = some m → s'.InFlight m → m.mailboxId = cfg.mailboxId :=
    fun _ _ hm hfl => h.mine_step hspec hm hfl
  have hlanes : ∀ i j m m', s'.row i = some m → s'.row j = some m' → m.SameLane m' →
      m.id < m'.id → s'.InUse m' → s'.Dead m :=
    fun _ _ _ _ hm hm' hlane hlt huse => h.lanes_step hG hspec hm hm' hlane hlt huse
  rcases step_commitLog hstep with hlog | ⟨w, d, c, mc, rfl, hc⟩
  · refine ⟨h.own.step hstep, hmine, hlanes, ?_, ?_⟩
    · intro e he hkey i m hm hbox hmk hlt
      exact h.log_step hG hspec (hlog ▸ he) hkey hm hbox hmk hlt
    · rw [State.CommitsInOrder, hlog]
      exact h.order
  · have hfl := h.inFlight_of_commit hG hc
    have hbox := h.mine d.id mc hc.row hfl
    have hmc : mc.id = d.id := Table.key_of_get? hc.row
    refine ⟨h.own.step hstep, hmine, hlanes, ?_, ?_⟩
    · intro e he hkey i m hm hbox' hmk hlt
      rw [hc.log, mem_append, mem_singleton] at he
      rcases he with he | rfl
      · exact h.log_step hG hspec he hkey hm hbox' hmk hlt
      cases hm₀ : s.row i with
      | some m₀ =>
        obtain ⟨h1, h2, -⟩ := hspec.sameLane hm₀ hm
        have hi : m.id = i := Table.key_of_get? hm
        have hi₀ : m₀.id = i := Table.key_of_get? hm₀
        have hlane : m₀.SameLane mc :=
          ⟨by rw [← h1, hbox', hbox], by rw [← h2, hmk], by rw [← h2, hmk]; exact hkey⟩
        have hlt₀ : m₀.id < mc.id := by rw [hi₀, ← hi, hmc]; exact hlt
        have hdead := h.lanes i d.id m₀ mc hm₀ hc.row hlane hlt₀ (.inr hfl)
        exact h.own.dead_step hspec hm₀ hdead hm
      | none =>
        obtain ⟨m₁, heq, -⟩ := hspec.enqueued_of_none hm₀ hm
        cases heq
    · rw [State.CommitsInOrder, hc.log, pairwise_append]
      refine ⟨h.order, pairwise_singleton _ _, fun e he e' he' hkey heq => ?_⟩
      rw [mem_singleton] at he'
      subst he'
      -- a commit behind a later one would be the commit of a dead row
      by_contra hlt
      have hlt : mc.id < e.1 := hmc ▸ Nat.not_le.1 hlt
      exact (h.log e he hkey d.id mc hc.row hbox heq.symm hlt).2 hfl

omit h

end InOrder

variable {cfg : Config} {s : State}

/-- In a run that keeps the lanes, commits under one key happen in the order of their ids, and two
rows of a lane are leased at once only when the earlier one is on its final attempt. -/
theorem commits_and_leases_in_key_order {now : ℤ} {as : List Action}
    (hG : (pool cfg).Along (LaneKept cfg) (.initial cfg now) as)
    (hrun : (pool cfg).run (.initial cfg now) as = some s) :
    s.CommitsInOrder ∧ s.LeasesInOrder := by
  have hinv : InOrder cfg s :=
    Machine.run_invariant (InOrder cfg) (fun _ _ _ h hG hstep => h.step hG hstep)
      inOrder_initial hG hrun
  refine ⟨hinv.order, fun m hm m' hm' hlane hlt _ hl' => ?_⟩
  exact (hinv.lanes m.id m'.id m m' (Table.mem_rows_iff.1 hm) (Table.mem_rows_iff.1 hm') hlane hlt
    (.inl hl')).1

def laneRetried : List Action :=
  [.enqueue { id := 1, mailboxId := 0, correlationKey := some 7 },
    .enqueue { id := 2, mailboxId := 0, correlationKey := some 7 }, .claim 0 1 10 false,
    .dedup 0 false, .finish 0 (.failed "busy") "", .storeOp 0 false, .storeOp 0 false, .tick 60,
    .claim 1 1 11 false, .dedup 1 false, .commit 1 true, .claim 0 2 12 false, .dedup 0 false,
    .commit 0 true]

theorem laneRetried_in_order :
    ((pool pairCfg).run (.initial pairCfg 0) laneRetried).map State.commits = some [1, 2] ∧
      ∀ s, (pool pairCfg).run (.initial pairCfg 0) laneRetried = some s →
        s.CommitsInOrder ∧ s.LeasesInOrder :=
  ⟨by decide, fun _ hrun => commits_and_leases_in_key_order (by decide) hrun⟩

/-- The first message of the lane is in its final attempt, which does not hold
the second one back; no message is postponed. -/
def laneOvertaken : List Action :=
  [.enqueue { id := 1, mailboxId := 0, correlationKey := some 7, maxAttempts := 1 },
    .enqueue { id := 2, mailboxId := 0, correlationKey := some 7, maxAttempts := 1 },
    .claim 0 1 10 false, .dedup 0 false, .claim 1 2 11 false, .dedup 1 false, .commit 1 true,
    .commit 0 true]

def Action.enqueued? : Action → Option MessageId
  | enqueue m => some m.id
  | _ => none

def Action.postpones : Action → Bool
  | finish _ (.postponed _) _ | turn _ (.postponed _) _ => true
  | _ => false

/-- The second message is committed before the first, though ids are enqueued in
increasing order and nothing is postponed. -/
theorem laneOvertaken_out_of_order :
    ¬ (∀ (cfg : Config) (now : ℤ) (as : List Action) (s : State),
      (as.filterMap Action.enqueued?).Pairwise (· < ·) → (∀ a ∈ as, a.postpones = false) →
      (pool cfg).run (.initial cfg now) as = some s → s.CommitsInOrder) ∧
    ((pool pairCfg).run (.initial pairCfg 0) laneOvertaken).map State.commits = some [2, 1] := by
  refine ⟨fun h => ?_, by decide⟩
  have hnot : ¬ ∀ s ∈ (pool pairCfg).run (.initial pairCfg 0) laneOvertaken, s.CommitsInOrder := by
    decide
  exact hnot fun s hs => h pairCfg 0 laneOvertaken s (by decide) (by decide) hs

end Wavelength.Mailbox
