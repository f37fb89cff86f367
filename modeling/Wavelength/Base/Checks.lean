import Mathlib.Tactic.Common

/-! # Sequences of checks

A check fails with an error or goes on. What a sequence of checks accepts is the conjunction of
what they accept. Checks return nothing, so their lemmas are stated for any unit and the binders that
`bind_eq_ok` introduces for them go away with `exists_const`.
-/

namespace Wavelength

variable {α β ε : Type}

/-- Fail with `e` unless `c` holds. -/
def require (c : Prop) [Decidable c] (e : ε) : Except ε Unit := if c then .ok () else .error e

@[simp] theorem require_eq_ok {c : Prop} [Decidable c] : require c e = .ok u ↔ c := by
  unfold require
  split <;> simp_all

theorem bind_eq_ok {f : α → Except ε β} : (x >>= f) = .ok b ↔ ∃ a, x = .ok a ∧ f a = .ok b := by
  cases x with
  | error e => exact ⟨fun h => (nomatch h), fun ⟨_, h, _⟩ => (nomatch h)⟩
  | ok a =>
    constructor
    · exact fun h => ⟨a, rfl, h⟩
    · rintro ⟨_, h, hf⟩
      cases h
      exact hf

@[simp] theorem mapError_eq_ok {ε' : Type} {g : ε → ε'} {x : Except ε α} {a : α} :
    x.mapError g = .ok a ↔ x = .ok a := by
  cases x <;> simp [Except.mapError]

@[simp] theorem ok_bind : ((.ok a : Except ε α) >>= f) = f a := rfl

theorem forM_eq_ok {f : α → Except ε Unit} {as : List α} {u : Unit} :
    forM as f = .ok u ↔ ∀ a ∈ as, f a = .ok () := by
  induction as with
  | nil => simp [pure, Except.pure]
  | cons a as ih =>
    rw [List.forM_cons, bind_eq_ok, List.forall_mem_cons]
    simp only [ih, exists_and_right]
    constructor
    · rintro ⟨⟨_, ha⟩, has⟩
      exact ⟨ha, has⟩
    · rintro ⟨ha, has⟩
      exact ⟨⟨(), ha⟩, has⟩

theorem forM_eq_error {f : α → Except ε Unit} :
    forM as f = .error e ↔ ∃ before a after, as = before ++ a :: after ∧
      (∀ b ∈ before, f b = .ok ()) ∧ f a = .error e := by
  induction as with
  | nil => simp [pure, Except.pure]
  | cons a as ih =>
    rw [List.forM_cons]
    cases hf : f a with
    | error e' =>
      constructor
      · intro h
        cases h
        exact ⟨[], a, as, rfl, by simp, hf⟩
      rintro ⟨before, b, after, heq, hbefore, hb⟩
      cases before with
      | nil =>
        cases heq
        cases hf.symm.trans hb
        rfl
      | cons c before =>
        cases heq
        cases hf.symm.trans (hbefore a List.mem_cons_self)
    | ok u =>
      rw [ok_bind, ih]
      constructor
      · rintro ⟨before, b, after, rfl, hbefore, hb⟩
        exact ⟨a :: before, b, after, rfl, List.forall_mem_cons.2 ⟨hf, hbefore⟩, hb⟩
      rintro ⟨before, b, after, heq, hbefore, hb⟩
      cases before with
      | nil =>
        cases heq
        cases hf.symm.trans hb
      | cons c before =>
        cases heq
        exact ⟨before, b, after, rfl, (List.forall_mem_cons.1 hbefore).2, hb⟩

end Wavelength
