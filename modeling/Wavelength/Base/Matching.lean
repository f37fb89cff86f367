import Mathlib.Data.List.Sort
import Mathlib.Data.Set.Finite.Lattice
import Mathlib.Data.Set.Finite.List

/-! # One-to-one assignments of demands to amounts

A threshold bounds every assignment: a pair has its demand below it or its amount
above it. Smallest-first greedy assignment meets such a bound, so no assignment is larger.
-/

namespace Wavelength

open List

variable {δ α : Type*} [LinearOrder α] (need : δ → α)

/-- Occurrences of demands paired with occurrences of amounts that cover them. -/
structure Assignment (demands : List δ) (amounts : List α) (pairs : List (δ × α)) : Prop where
  demands : (pairs.map Prod.fst).Subperm demands
  amounts : (pairs.map Prod.snd).Subperm amounts
  covers : ∀ p ∈ pairs, need p.1 ≤ p.2

/-- The demands left over when each takes the first amount that covers it. -/
def unmatched : List δ → List α → List δ
  | [], _ => []
  | d :: ds, amounts =>
    if amounts.any (need d ≤ ·) then unmatched ds (amounts.eraseP (need d ≤ ·))
    else d :: unmatched ds amounts

theorem unmatched_cons (d : δ) (demands : List δ) (amounts : List α) :
    (∃ l₁ a l₂, amounts = l₁ ++ a :: l₂ ∧ (∀ b ∈ l₁, b < need d) ∧ need d ≤ a ∧
      unmatched need (d :: demands) amounts = unmatched need demands (l₁ ++ l₂)) ∨
    (∀ a ∈ amounts, a < need d) ∧
      unmatched need (d :: demands) amounts = d :: unmatched need demands amounts := by
  by_cases hany : amounts.any (need d ≤ ·)
  · obtain ⟨b, hb, hcover⟩ := any_eq_true.1 hany
    obtain ⟨a, l₁, l₂, hl₁, ha, hl, herase⟩ := exists_of_eraseP (p := (need d ≤ ·)) hb hcover
    refine .inl ⟨l₁, a, l₂, hl, by simpa using hl₁, by simpa using ha, ?_⟩
    rw [unmatched, if_pos hany, herase]
  · exact .inr ⟨by simpa using hany, by rw [unmatched, if_neg hany]⟩

variable {need} {demands : List δ} {amounts : List α} {pairs : List (δ × α)}

theorem Assignment.length_le (h : Assignment need demands amounts pairs) (t : α) :
    pairs.length ≤ demands.countP (need · < t) + amounts.countP (t ≤ ·) := by
  have hlow := h.demands.countP_le (need · < t)
  have hhigh := h.amounts.countP_le (t ≤ ·)
  rw [countP_map] at hlow hhigh
  rw [length_eq_countP_add_countP ((decide <| need · < t) ∘ Prod.fst)]
  refine (Nat.add_le_add_left (countP_mono_left fun p hp hle => ?_) _).trans
    (Nat.add_le_add hlow hhigh)
  simp only [Function.comp_apply, decide_eq_true_eq, not_lt] at hle ⊢
  exact hle.trans (h.covers p hp)

variable (need) in
theorem exists_assignment (demands : List δ) (amounts : List α) :
    ∃ pairs, Assignment need demands amounts pairs ∧
      pairs.length + (unmatched need demands amounts).length = demands.length := by
  induction demands generalizing amounts with
  | nil => exact ⟨[], ⟨.refl _, nil_subperm, nofun⟩, rfl⟩
  | cons d ds ih =>
    obtain ⟨l₁, a, l₂, rfl, -, ha, hun⟩ | ⟨-, hun⟩ := unmatched_cons need d ds amounts
    · obtain ⟨pairs, h, hlen⟩ := ih (l₁ ++ l₂)
      refine ⟨(d, a) :: pairs, ⟨(subperm_cons d).2 h.demands, ?_, ?_⟩, ?_⟩
      · exact .trans ((subperm_cons a).2 h.amounts) perm_middle.symm.subperm
      · exact forall_mem_cons.2 ⟨ha, h.covers⟩
      · simp only [hun, length_cons, ← hlen]
        omega
    · obtain ⟨pairs, h, hlen⟩ := ih amounts
      refine ⟨pairs, ⟨h.demands.trans (sublist_cons_self d ds).subperm, h.amounts, h.covers⟩, ?_⟩
      simp only [hun, length_cons, ← hlen]
      omega

/-- Over ascending demands and amounts the greedy assignment meets a threshold bound. -/
theorem exists_threshold [Nonempty α] [NoMaxOrder α] (hdemands : demands.Pairwise (need · ≤ need ·))
    (hamounts : amounts.Pairwise (· ≤ ·)) :
    ∃ t, demands.countP (need · < t) + amounts.countP (t ≤ ·) +
      (unmatched need demands amounts).length ≤ demands.length := by
  induction demands generalizing amounts with
  | nil =>
    obtain ⟨m, hm⟩ := (finite_toSet amounts).bddAbove
    obtain ⟨t, ht⟩ := exists_gt m
    refine ⟨t, Nat.le_of_eq ?_⟩
    simpa [unmatched] using fun a ha => (hm ha).trans_lt ht
  | cons d ds ih =>
    obtain ⟨hd, hds⟩ := pairwise_cons.1 hdemands
    have hlow {t : α} (ht : t ≤ need d) : (d :: ds).countP (need · < t) = 0 := by
      simpa [ht] using fun e he => ht.trans (hd e he)
    obtain ⟨l₁, a, l₂, rfl, hl₁, ha, hun⟩ | ⟨hnone, -⟩ := unmatched_cons need d ds amounts
    · obtain ⟨t, ht⟩ := ih hds (hamounts.sublist ((sublist_cons_self a l₂).append_left l₁))
      rw [countP_append] at ht
      simp only [hun, countP_append, length_cons]
      rcases le_or_gt t (need d) with htd | htd
      · refine ⟨t, ?_⟩
        rw [hlow htd, countP_cons_of_pos (by simpa using htd.trans ha)]
        omega
      · rcases lt_or_ge a t with hat | hta
        · refine ⟨t, ?_⟩
          rw [countP_cons_of_pos (by simpa using htd), countP_cons_of_neg (by simpa using hat)]
          omega
        · -- the amounts after `a` are all above `t`, so the bound may move down to the demand
          have hafter : l₂.countP (t ≤ ·) = l₂.length := countP_eq_length.2 fun x hx =>
            decide_eq_true (hta.trans ((pairwise_cons.1 (pairwise_append.1 hamounts).2.1).1 x hx))
          have hbefore : l₁.countP (need d ≤ ·) = 0 := by simpa using hl₁
          refine ⟨need d, ?_⟩
          rw [hlow le_rfl, hbefore, countP_cons_of_pos (by simpa using ha)]
          have := countP_le_length (p := (need d ≤ ·)) (l := l₂)
          omega
    · refine ⟨need d, ?_⟩
      obtain ⟨pairs, -, hlen⟩ := exists_assignment need (d :: ds) amounts
      have hnone : amounts.countP (need d ≤ ·) = 0 := by simpa using hnone
      rw [hlow le_rfl, hnone]
      omega

/-- The demands served in ascending order are as many as any assignment serves. -/
theorem isGreatest_matched [Nonempty α] [NoMaxOrder α] (hperm : sorted.Perm demands)
    (hsorted : sorted.Pairwise (need · ≤ need ·)) (hamounts : amounts.Pairwise (· ≤ ·)) :
    IsGreatest {n | ∃ pairs, Assignment need demands amounts pairs ∧ pairs.length = n}
      (demands.length - (unmatched need sorted amounts).length) := by
  rw [← hperm.length_eq]
  constructor
  · obtain ⟨pairs, h, hlen⟩ := exists_assignment need sorted amounts
    exact ⟨pairs, { h with demands := h.demands.trans hperm.subperm }, by omega⟩
  · rintro _ ⟨pairs, h, rfl⟩
    obtain ⟨t, ht⟩ := exists_threshold hsorted hamounts
    have := h.length_le t
    rw [← hperm.countP_eq] at this
    omega

end Wavelength
