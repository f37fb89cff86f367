import Mathlib.Data.List.Basic
import Mathlib.Tactic.Common

/-! # Guarded machines and their runs

A machine is an initial predicate together with a partial step function: an
action that is not enabled in a state has no successor. All nondeterminism is
in the choice of the action, so a run is determined by its list of actions and
can be evaluated.
-/

namespace Wavelength

/-- A machine with states `σ` and actions `α`; `step` is `none` where the
action is not enabled. -/
structure Machine (σ α : Type*) where
  init : σ → Prop
  step : σ → α → Option σ

namespace Machine

variable {σ α : Type*} (M : Machine σ α)

/-- The state after a list of actions, if each of them is enabled in turn. -/
def run : σ → List α → Option σ
  | s, [] => some s
  | s, a :: as => (M.step s a).bind (run · as)

/-- Every step taken from `s` along the actions satisfies `P`. -/
def Along (P : σ → α → σ → Prop) : σ → List α → Prop
  | _, [] => True
  | s, a :: as =>
    match M.step s a with
    | none => True
    | some s' => P s a s' ∧ Along P s' as

instance decidableAlong (P : σ → α → σ → Prop) [∀ s a s', Decidable (P s a s')] :
    ∀ s as, Decidable (M.Along P s as)
  | _, [] => isTrue trivial
  | s, a :: as =>
    match h : M.step s a with
    | none => isTrue (by simp [Along, h])
    | some s' =>
      have := decidableAlong P s' as
      decidable_of_iff (P s a s' ∧ M.Along P s' as) (by simp [Along, h])

variable {M} {s s' : σ} {a : α} {as bs : List α}

@[simp] theorem run_nil : M.run s [] = some s := rfl

variable {P : σ → α → σ → Prop}

@[simp] theorem along_nil : M.Along P s [] := trivial

theorem run_cons_eq_some :
    M.run s (a :: as) = some s' ↔ ∃ t, M.step s a = some t ∧ M.run t as = some s' := by
  simp only [run, Option.bind_eq_some_iff]

theorem along_cons :
    M.Along P s (a :: as) ↔ ∀ t, M.step s a = some t → P s a t ∧ M.Along P t as := by
  cases h : M.step s a with
  | none | some t => simp [Along, h]

theorem run_append : M.run s (as ++ bs) = (M.run s as).bind (M.run · bs) := by
  induction as generalizing s with
  | nil => rfl
  | cons a as ih => simp only [List.cons_append, run, Option.bind_assoc, ih]

theorem Along.imp {Q : σ → α → σ → Prop}
    (hPQ : ∀ s a s', M.step s a = some s' → P s a s' → Q s a s') (h : M.Along P s as) :
    M.Along Q s as := by
  induction as generalizing s with
  | nil => trivial
  | cons a as ih =>
    rw [along_cons] at h ⊢
    intro t ht
    exact ⟨hPQ _ _ _ ht (h t ht).1, ih (h t ht).2⟩

theorem along_of_forall (h : ∀ s a s', M.step s a = some s' → P s a s') : M.Along P s as := by
  induction as generalizing s with
  | nil => trivial
  | cons a as ih => exact along_cons.2 fun t ht => ⟨h _ _ _ ht, ih⟩

section Invariant

variable (Inv : σ → Prop) {G : σ → α → σ → Prop}

variable (hstep : ∀ s a s', Inv s → G s a s' → M.step s a = some s' → Inv s') (h : Inv s) (hG : M.Along G s as)
include hstep h hG

/-- An invariant kept by every step that meets `G` holds at both ends of every
step of a run that meets `G` throughout. -/
theorem along_invariant :
    M.Along (fun s a s' => Inv s ∧ G s a s' ∧ M.step s a = some s' ∧ Inv s') s as := by
  induction as generalizing s with
  | nil => trivial
  | cons a as ih =>
    rw [along_cons] at hG ⊢
    intro t ht
    obtain ⟨hg, hG⟩ := hG t ht
    have hInv := hstep s a t h hg ht
    exact ⟨⟨h, hg, ht, hInv⟩, ih hInv hG⟩

theorem run_invariant (hrun : M.run s as = some s') : Inv s' := by
  induction as generalizing s with
  | nil =>
    obtain rfl : s = s' := by simpa using hrun
    exact h
  | cons a as ih =>
    obtain ⟨t, ht, hrun⟩ := run_cons_eq_some.1 hrun
    obtain ⟨hg, hG⟩ := along_cons.1 hG t ht
    exact ih (hstep s a t h hg ht) hG hrun

omit hstep h hG

theorem run_preserves (hstep : ∀ s a s', Inv s → M.step s a = some s' → Inv s') (h : Inv s)
    (hrun : M.run s as = some s') : Inv s' :=
  run_invariant Inv (fun s a s' hi _ => hstep s a s' hi) h
    (along_of_forall fun _ _ _ _ => (trivial : True)) hrun

end Invariant

end Machine

end Wavelength
