import Mathlib.Tactic.Common

/-! # Postconditions of fallible computations

`Yields x Q` says that the result of `x` satisfies `Q` if there is one, and `Succeeds x Q`
that there is one that does. One rule for each way in which a computation is put together.
-/

namespace Wavelength

universe u

variable {ε : Type*} {α β : Type u}

/-- Partial correctness: an error satisfies every postcondition. -/
def Yields (x : Except ε α) (Q : α → Prop) : Prop := ∀ a, x = .ok a → Q a

namespace Yields

variable {x : Except ε α} {f : α → Except ε β} {P Q : α → Prop} {R : β → Prop} {a : α}

@[simp] theorem ok_iff : Yields (.ok a : Except ε α) Q ↔ Q a := by
  constructor
  · intro h
    exact h a rfl
  · rintro h _ ⟨⟩
    exact h

@[simp] theorem pure_iff : Yields (pure a : Except ε α) Q ↔ Q a := ok_iff

@[simp] theorem error : Yields (.error e : Except ε α) Q := nofun

@[simp] theorem throw : Yields (MonadExcept.throw e : Except ε α) Q := nofun

theorem bind (hx : Yields x P) (hf : ∀ a, P a → Yields (f a) R) : Yields (x >>= f) R := by
  intro b hb
  cases x with
  | error e => cases hb
  | ok a => exact hf a (hx a rfl) b hb

theorem seq (hf : ∀ a, Yields (f a) R) : Yields (x >>= f) R :=
  bind (fun _ _ => trivial) fun a (_ : True) => hf a

theorem imp (hx : Yields x P) (h : ∀ a, P a → Q a) : Yields x Q := fun a ha => h a (hx a ha)

theorem ite {c : Prop} [Decidable c] (hx : c → Yields x Q) (hy : ¬ c → Yields y Q) :
    Yields (if c then x else y) Q := by
  split
  · next hc => exact hx hc
  · next hc => exact hy hc

end Yields

/-- Total correctness. -/
def Succeeds (x : Except ε α) (Q : α → Prop) : Prop := ∃ a, x = .ok a ∧ Q a

namespace Succeeds

variable {x : Except ε α} {f : α → Except ε β} {P Q : α → Prop} {R : β → Prop} {a : α}

theorem ok (h : Q a) : Succeeds (.ok a : Except ε α) Q := ⟨a, rfl, h⟩

theorem bind (hx : Succeeds x P) (hf : ∀ a, P a → Succeeds (f a) R) : Succeeds (x >>= f) R := by
  obtain ⟨a, rfl, ha⟩ := hx
  exact hf a ha

theorem imp (hx : Succeeds x P) (h : ∀ a, P a → Q a) : Succeeds x Q := by
  obtain ⟨a, hxa, ha⟩ := hx
  exact ⟨a, hxa, h a ha⟩

end Succeeds

end Wavelength
