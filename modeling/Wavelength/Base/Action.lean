import Mathlib.Tactic.Common

/-! # Pre- and postconditions of stateful computations that may fail

`Ensures P m Q E` says that `m`, run from a state that satisfies `P`, returns a value and a state
that satisfy `Q` or fails with an error and a state that satisfy `E`. The state reached before a
failure is kept. One rule for each way in which a computation is put together.
-/

namespace Wavelength

variable {ε σ α β : Type}

def Ensures (P : σ → Prop) (m : EStateM ε σ α) (Q : α → σ → Prop) (E : ε → σ → Prop) : Prop :=
  ∀ s, P s →
    match m.run s with
    | .ok a s' => Q a s'
    | .error e s' => E e s'

/-- `m` keeps the invariant, whether it fails or not. -/
def Keeps (I : σ → Prop) (m : EStateM ε σ α) : Prop := Ensures I m (fun _ => I) fun _ => I

namespace Ensures

variable {P P' : σ → Prop} {Q Q' : α → σ → Prop} {R : β → σ → Prop} {E E' : ε → σ → Prop}
  {m m' : EStateM ε σ α} {f : α → EStateM ε σ β} {a : α} {e : ε}

theorem pure (h : ∀ s, P s → Q a s) : Ensures P (Pure.pure a : EStateM ε σ α) Q E := h

theorem ret : Ensures P (Pure.pure a : EStateM ε σ α) (fun _ => P) E := fun _ h => h

theorem throw (h : ∀ s, P s → E e s) : Ensures P (MonadExcept.throw e : EStateM ε σ α) Q E := h

theorem bind (hm : Ensures P m Q E) (hf : ∀ a, Ensures (Q a) (f a) R E) :
    Ensures P (m >>= f) R E := by
  intro s hs
  have h := hm s hs
  simp only [EStateM.run, Bind.bind, EStateM.bind] at h ⊢
  cases hr : m s with
  | ok a s' =>
    rw [hr] at h
    exact hf a s' h
  | error e s' =>
    rw [hr] at h
    exact h

variable (h : Ensures P m Q E)
include h

theorem imp (hP : ∀ s, P' s → P s) (hQ : ∀ a s, Q a s → Q' a s)
    (hE : ∀ e s, E e s → E' e s) : Ensures P' m Q' E' := by
  intro s hs
  have h' := h s (hP s hs)
  cases hr : m.run s with
  | ok a s' =>
    rw [hr] at h'
    exact hQ a s' h'
  | error e s' =>
    rw [hr] at h'
    exact hE e s' h'

theorem pre (hP : ∀ s, P' s → P s) : Ensures P' m Q E := h.imp hP (fun _ _ h => h) fun _ _ h => h

theorem post (hQ : ∀ a s, Q a s → Q' a s) : Ensures P m Q' E :=
  h.imp (fun _ h => h) hQ fun _ _ h => h

theorem onError (hE : ∀ e s, E e s → E' e s) : Ensures P m Q E' :=
  h.imp (fun _ h => h) (fun _ _ h => h) hE

omit h

theorem modify {g : σ → σ} {Q : PUnit → σ → Prop} (h : ∀ s, P s → Q ⟨⟩ (g s)) :
    Ensures P (modifyGet fun s => (⟨⟩, g s) : EStateM ε σ PUnit) Q E := h

theorem ite {c : Prop} [Decidable c] (ht : c → Ensures P m Q E) (he : ¬ c → Ensures P m' Q E) :
    Ensures P (if c then m else m') Q E := by
  split
  · next hc => exact ht hc
  · next hc => exact he hc

theorem tryCatch {h : ε → EStateM ε σ α} (hm : Ensures P m Q E)
    (hh : ∀ e, Ensures (E e) (h e) Q E') : Ensures P (MonadExcept.tryCatch m h) Q E' := by
  intro s hs
  have h' := hm s hs
  simp only [EStateM.run] at h' ⊢
  change match EStateM.tryCatch m h s with
    | .ok a s' => Q a s'
    | .error e s' => E' e s'
  unfold EStateM.tryCatch
  cases hr : m s with
  | ok a s' =>
    rw [hr] at h'
    exact h'
  | error e s' =>
    rw [hr] at h'
    exact hh e s' h'

end Ensures

namespace Keeps

variable {I : σ → Prop} {m m' : EStateM ε σ α} {f : α → EStateM ε σ β} {a : α} {e : ε}

theorem pure : Keeps I (Pure.pure a : EStateM ε σ α) := Ensures.pure fun _ h => h

theorem throw : Keeps I (MonadExcept.throw e : EStateM ε σ α) := Ensures.throw fun _ h => h

theorem bind (hm : Keeps I m) (hf : ∀ a, Keeps I (f a)) : Keeps I (m >>= f) := Ensures.bind hm hf

theorem get : Keeps I (MonadState.get : EStateM ε σ σ) := fun _ h => h

theorem modify {g : σ → σ} (h : ∀ s, I s → I (g s)) :
    Keeps I (modifyGet fun s => (⟨⟩, g s) : EStateM ε σ PUnit) := h

theorem ite {c : Prop} [Decidable c] (ht : c → Keeps I m) (he : ¬ c → Keeps I m') :
    Keeps I (if c then m else m') :=
  Ensures.ite ht he

theorem tryCatch (hm : Keeps I m) (hh : ∀ e, Keeps I (h e)) : Keeps I (MonadExcept.tryCatch m h) :=
  Ensures.tryCatch hm hh

end Keeps

end Wavelength
