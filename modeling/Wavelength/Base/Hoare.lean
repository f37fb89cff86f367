import Mathlib.Tactic.Common

/-! # Pre- and postconditions of stateful computations

`Hoare P m Q` says that `m`, run from a state that satisfies `P`, returns a value
and a state that satisfy `Q`. One rule for each way in which a computation is put together.
-/

namespace Wavelength

variable {σ α β : Type}

def Hoare (P : σ → Prop) (m : StateM σ α) (Q : α → σ → Prop) : Prop :=
  ∀ s, P s → Q (m.run s).1 (m.run s).2

namespace Hoare

variable {P P' : σ → Prop} {Q Q' : α → σ → Prop} {R : β → σ → Prop} {m m' : StateM σ α}
  {f : α → StateM σ β} {a : α}

theorem pure (h : ∀ s, P s → Q a s) : Hoare P (Pure.pure a : StateM σ α) Q := h

theorem ret : Hoare (Q a) (Pure.pure a : StateM σ α) Q := fun _ h => h

theorem bind (hm : Hoare P m Q) (hf : ∀ a, Hoare (Q a) (f a) R) : Hoare P (m >>= f) R :=
  fun s hs => hf _ _ (hm s hs)

theorem imp (h : Hoare P m Q) (hP : ∀ s, P' s → P s) (hQ : ∀ a s, Q a s → Q' a s) : Hoare P' m Q' :=
  fun s hs => hQ _ _ (h s (hP s hs))

theorem post (h : Hoare P m Q) (hQ : ∀ a s, Q a s → Q' a s) : Hoare P m Q' :=
  h.imp (fun _ hs => hs) hQ

theorem pre (h : Hoare P m Q) (hP : ∀ s, P' s → P s) : Hoare P' m Q := h.imp hP fun _ _ hs => hs

theorem get_bind (h : ∀ s, P s → Hoare (· = s) (k s) R) : Hoare P (get >>= k) R :=
  fun s hs => h s hs s rfl

theorem modify {g : σ → σ} {Q : PUnit → σ → Prop} (h : ∀ s, P s → Q ⟨⟩ (g s)) :
    Hoare P (modifyGet fun s => (⟨⟩, g s) : StateM σ PUnit) Q := h

theorem ite {c : Prop} [Decidable c] (ht : c → Hoare P m Q) (he : ¬ c → Hoare P m' Q) :
    Hoare P (if c then m else m') Q := by
  split
  · next hc => exact ht hc
  · next hc => exact he hc

/-- A fact that does not mention the state may be assumed of it. -/
theorem of_pre {c : Prop} (h : c → Hoare P m Q) : Hoare (fun s => c ∧ P s) m Q :=
  fun s hs => h hs.1 s hs.2

end Hoare

end Wavelength
