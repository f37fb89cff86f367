import Wavelength.Mailbox.Steps

/-! # Who answers for a row

A leased row names its owner by the token, which no other delivery carries. A
pool that peeks has one worker, and that worker's row is left alone by everybody
else. In both cases the delivery in the owner's hands still says how many
attempts the row has had.
-/

namespace Wavelength.Mailbox

variable {w : ℕ} {d : Delivery}

structure Delivery.Matches (d : Delivery) (m : Row) : Prop where
  attempts : d.attempts = m.attempts
  maxAttempts : d.maxAttempts = m.maxAttempts

theorem Delivery.Matches.of_sameTerms (h : d.Matches m₀) (hm : m₀.SameTerms m) : d.Matches m :=
  ⟨h.attempts.trans hm.attempts.symm, h.maxAttempts.trans hm.maxAttempts.symm⟩

def State.InFlight (s : State) (m : Row) : Prop :=
  ∃ p ∈ s.workers, ∃ d ∈ p.delivery?, d.id = m.id ∧ Owns d.leaseToken m ∧
    (d.leaseToken = none → p.live = true)

instance (s : State) (m : Row) : Decidable (s.InFlight m) :=
  inferInstanceAs (Decidable (∃ p ∈ s.workers, ∃ d ∈ p.delivery?, _ ∧ _))

structure Ownership (cfg : Config) (s : State) : Prop where
  planned : s.Planned
  single : cfg.leaseless = true → s.workers.length ≤ 1
  peeked : cfg.leaseless = true → ∀ w d, s.Holds w d → d.leaseToken = none
  held : cfg.leaseless = false → ∀ w d, s.Holds w d → ∃ t ∈ s.issued, d.leaseToken = some t
  tokens : ∀ i m t, s.row i = some m → m.leaseToken = some t → t ∈ s.issued
  bare : cfg.leaseless = true → ∀ i m, s.row i = some m → m.leaseToken = none ∧ m.leaseUntil = none
  leased : ∀ w d m t, s.Holds w d → d.leaseToken = some t → s.row d.id = some m →
    m.leaseToken = some t → d.Matches m
  alive : cfg.leaseless = true → ∀ (w : ℕ) p d, s.workers[w]? = some p → p.live = true →
    p.delivery? = some d → ∃ m, s.row d.id = some m ∧ d.Matches m

theorem not_holds_initial : ¬ (State.initial cfg now).Holds w d := by
  simp only [State.Holds, State.initial, List.getElem?_replicate]
  split <;> simp [Phase.delivery?]

theorem ownership_initial : Ownership cfg (.initial cfg now) where
  planned := State.planned_initial
  single h := by
    have : cfg.numWorkers = 1 := by simp_all [Config.leaseless]
    simp [State.initial, this]
  peeked _ _ _ hd := absurd hd not_holds_initial
  held _ _ _ hd := absurd hd not_holds_initial
  tokens _ _ _ hm := by cases hm
  bare _ _ _ hm := by cases hm
  leased _ _ _ _ hd := absurd hd not_holds_initial
  alive _ w p d hp _ hd := absurd (Option.bind_eq_some_iff.2 ⟨p, hp, hd⟩) not_holds_initial

theorem StepSpec.sameLane (h : StepSpec cfg s a s') (hm₀ : s.row i = some m₀)
    (hm : s'.row i = some m) :
    m.mailboxId = m₀.mailboxId ∧ m.correlationKey = m₀.correlationKey ∧
      m.maxAttempts = m₀.maxAttempts := by
  have hrow := h.row i
  rw [hm] at hrow
  generalize hr : (some m : Option Row) = r at hrow
  cases hrow with
  | same =>
    cases hr.trans hm₀
    exact ⟨rfl, rfl, rfl⟩
  | enqueued m₁ _ hnone => simp [hm₀] at hnone
  | leased w token promise m₁ _ _ hm₁ _ _ =>
    cases hm₁.symm.trans hm₀
    cases hr
    exact ⟨rfl, rfl, rfl⟩
  | expired m₁ hm₁ =>
    obtain rfl := Option.some.inj (hm₁.symm.trans hm₀)
    cases hr
    have := Row.SameTerms.expire m₁ s.now
    exact ⟨this.mailboxId, this.correlationKey, this.maxAttempts⟩
  | acted _ w p d m₁ _ _ _ _ _ hm₁ hact =>
    cases hm₁.symm.trans hm₀
    subst hr
    cases hact <;> exact ⟨rfl, rfl, rfl⟩

namespace Ownership

variable (h : Ownership cfg s)
include h

theorem leaseless_of_bare (hd : s.Holds w d) (ht : d.leaseToken = none) : cfg.leaseless = true := by
  by_contra hl
  obtain ⟨t, -, hdt⟩ := h.held (by simpa using hl) w d hd
  simp [ht] at hdt

variable (hspec : StepSpec cfg s a s') (hl : cfg.leaseless = true) (hp : s.workers[w]? = some p)
include hspec hl hp

/-- The peeking worker's row is left alone by the steps it does not take. -/
theorem row_of_not_acting (ha : a.worker? ≠ some w) (hm : s.row i = some m) :
    ∃ m', s'.row i = some m' ∧ m.SameTerms m' := by
  have hlt : w < s.workers.length := (List.getElem?_eq_some_iff.1 hp).1
  have hrow := hspec.row i
  generalize hr : s'.row i = r at hrow
  cases hrow with
  | same => exact ⟨m, hm, .refl m⟩
  | enqueued m₁ _ hnone => simp [hm] at hnone
  | leased _ _ _ _ hl' => simp [hl] at hl'
  | expired m₁ hm₁ =>
    obtain rfl := Option.some.inj (hm₁.symm.trans hm)
    exact ⟨_, rfl, .expire m₁ _⟩
  | acted _ w' p' d' m₁ _ ha' hp' _ _ _ _ =>
    have hlt' : w' < s.workers.length := (List.getElem?_eq_some_iff.1 hp').1
    have hlen := h.single hl
    obtain rfl : w' = w := by omega
    exact absurd ha' ha

theorem alive_row (hd : p.delivery? = some d) (hp' : s'.workers[w]? = some p')
    (hlive : p'.live = true) (hm : s.row d.id = some m) :
    ∃ m', s'.row d.id = some m' ∧ m.SameTerms m' := by
  by_cases ha : a.worker? = some w
  · exact hspec.budget w p p' d m ha hp hd hp' hlive hm
  · exact h.row_of_not_acting hspec hl hp ha hm

omit hspec hl hp

theorem tokens_step (hstep : Mailbox.step cfg s a = some s') :
    ∀ i m t, s'.row i = some m → m.leaseToken = some t → t ∈ s'.issued := by
  intro i m t hm ht
  have hspec := step_spec h.planned hstep
  rcases hspec.leased_under hm ht with ⟨m₀, hm₀, ht₀, -⟩ | ⟨w, promise, m₀, rfl, hl, -⟩
  · exact hspec.issued t (h.tokens i m₀ t hm₀ ht₀)
  · exact claim_issued hl hstep

theorem peeked_step (hspec : StepSpec cfg s a s')
    (hl : cfg.leaseless = true) : ∀ w d, s'.Holds w d → d.leaseToken = none := by
  intro w d hd
  rcases hspec.holds hd with hd | ⟨id, token, promise, m, -, -, -, -, -, rfl⟩
  · exact h.peeked hl w d hd
  · rw [Config.claimed_of_leaseless hl]; rfl

theorem held_step (hstep : Mailbox.step cfg s a = some s')
    (hl : cfg.leaseless = false) : ∀ w d, s'.Holds w d → ∃ t ∈ s'.issued, d.leaseToken = some t := by
  intro w d hd
  have hspec := step_spec h.planned hstep
  rcases hspec.holds hd with hd | ⟨id, token, promise, m, rfl, -, -, -, -, rfl⟩
  · obtain ⟨t, ht, hdt⟩ := h.held hl w d hd
    exact ⟨t, hspec.issued t ht, hdt⟩
  · exact ⟨token, claim_issued hl hstep, by rw [Config.claimed_of_leased hl]; rfl⟩

theorem bare_step (hspec : StepSpec cfg s a s') (hl : cfg.leaseless = true) :
    ∀ i m, s'.row i = some m → m.leaseToken = none ∧ m.leaseUntil = none := by
  intro i m hm
  have hrow := hspec.row i
  rw [hm] at hrow
  generalize hr : (some m : Option Row) = r at hrow
  cases hrow with
  | same => exact h.bare hl i m hr.symm
  | enqueued m₁ _ _ =>
    cases hr
    exact ⟨rfl, rfl⟩
  | leased _ _ _ _ hl' => simp [hl] at hl'
  | expired m₁ hm₁ =>
    cases hr
    unfold Row.expire
    split
    · exact ⟨rfl, rfl⟩
    · exact h.bare hl i m₁ hm₁
  | acted _ w p d m₁ _ _ hp hd _ hm₁ hact =>
    subst hr
    cases hact with
    | same => exact h.bare hl i m hm₁
    | nacked | postponed => exact ⟨rfl, rfl⟩
    | extended token ht =>
      rw [h.peeked hl w d (Option.bind_eq_some_iff.2 ⟨p, hp, hd⟩)] at ht
      cases ht

theorem leased_step (hspec : StepSpec cfg s a s') (hd : s'.Holds w d) (ht : d.leaseToken = some t)
    (hm : s'.row d.id = some m) (hmt : m.leaseToken = some t) : d.Matches m := by
  rcases hspec.holds hd with hd | ⟨id, token, promise, m₁, rfl, -, hm₁, -, hfresh, rfl⟩
  · rcases hspec.leased_under hm hmt with ⟨m₀, hm₀, hmt₀, hterms⟩ | ⟨w', promise, m₀, rfl, hl, hnew, -⟩
    · exact (h.leased w d m₀ t hd ht hm₀ hmt₀).of_sameTerms hterms
    -- a fresh token is not in the hands of anybody
    obtain ⟨t', ht', hdt⟩ := h.held hl w d hd
    cases hdt.symm.trans ht
    exact absurd ht' hnew
  · cases hl : cfg.leaseless with
    | true =>
      rw [Config.claimed_of_leaseless hl] at ht
      cases ht
    | false =>
      have hid : m₁.id = id := Table.key_of_get? hm₁
      rw [Config.claimed_of_leased hl] at ht ⊢
      cases ht
      rcases hspec.leased_under hm hmt with ⟨m₀, hm₀, hmt₀, -⟩ | ⟨w', promise', m₀, -, -, -, hm₀, rfl⟩
      · exact absurd (h.tokens _ m₀ _ hm₀ hmt₀) (hfresh hl)
      · obtain rfl : m₁ = m₀ := by simpa [hid, hm₁] using hm₀
        exact ⟨rfl, rfl⟩

theorem alive_step (hspec : StepSpec cfg s a s') (hl : cfg.leaseless = true)
    (hp' : s'.workers[w]? = some p') (hlive : p'.live = true) (hd : p'.delivery? = some d) :
    ∃ m, s'.row d.id = some m ∧ d.Matches m := by
  rcases hspec.phase_delivery hp' hd with
    ⟨p, hp, hpd, hpl⟩ | ⟨id, token, promise, m, rfl, hidle, hm, -, -, rfl⟩
  · obtain ⟨m, hm, hmatch⟩ := h.alive hl w p d hp (hpl hlive) hpd
    obtain ⟨m', hm', hterms⟩ := h.alive_row hspec hl hp hpd hp' hlive hm
    exact ⟨m', hm', hmatch.of_sameTerms hterms⟩
  have hid : m.id = id := Table.key_of_get? hm
  rw [Config.claimed_of_leaseless hl]
  change ∃ m', s'.row m.id = some m' ∧ _
  have hrow := hspec.row m.id
  generalize hr : s'.row m.id = r at hrow
  cases hrow with
  | same => exact ⟨m, by rw [hid, hm], rfl, rfl⟩
  | leased _ _ _ _ hl' => simp [hl] at hl'
  | acted _ w' p₁ d₁ m₁ _ ha hp₁ hd₁ =>
    cases ha
    cases hidle.symm.trans hp₁
    cases hd₁

theorem step (hstep : Mailbox.step cfg s a = some s') : Ownership cfg s' :=
  have hspec := step_spec h.planned hstep
  { planned := h.planned.step hstep
    single := fun hl => by rw [hspec.length]; exact h.single hl
    peeked := h.peeked_step hspec
    held := h.held_step hstep
    tokens := h.tokens_step hstep
    bare := h.bare_step hspec
    leased := fun _ _ _ _ hd ht hm hmt => h.leased_step hspec hd ht hm hmt
    alive := fun hl _ _ _ hp hlive hd => h.alive_step hspec hl hp hlive hd }

/-- A worker that may release the row has it in flight and knows its budget. -/
theorem of_releasable (hp : s.workers[w]? = some p) (hd : p.delivery? = some d)
    (hrel : p.Releasable cfg) (hm : s.row d.id = some m) (hown : Owns d.leaseToken m) :
    s.InFlight m ∧ d.Matches m := by
  have hholds : s.Holds w d := Option.bind_eq_some_iff.2 ⟨p, hp, hd⟩
  have hid : m.id = d.id := Table.key_of_get? hm
  have hlive : cfg.leaseless = true → p.live = true := by
    intro hl
    have hpath : cfg.path = .exec := by simp_all [Config.leaseless]
    cases p with
    | idle => cases hd
    | claimed d => cases hrel
    | running d c => simp [Phase.Releasable, hpath] at hrel
    | closing d b plan =>
      obtain rfl : b = false := hrel
      rfl
  refine ⟨⟨p, List.mem_of_getElem? hp, d, hd, hid.symm, hown, fun ht =>
    hlive (h.leaseless_of_bare hholds ht)⟩, ?_⟩
  cases ht : d.leaseToken with
  | some t => exact h.leased w d m t hholds ht hm (owns_some_iff.1 (ht ▸ hown))
  | none =>
    have hl := h.leaseless_of_bare hholds ht
    obtain ⟨m', hm', hmatch⟩ := h.alive hl w p d hp (hlive hl) hd
    cases hm'.symm.trans hm
    exact hmatch

omit h

end Ownership

end Wavelength.Mailbox
