import Mathlib.Data.List.Sort
import Wavelength.Base.Checks

/-! # Stable sorting by a key

A stable sort takes a strict comparison. Where it compares keys in a linear order, the sort leaves
exactly the sorted lists unchanged, and its result depends on the multiset alone if different
elements have different keys.
-/

namespace Wavelength

open List

variable {α κ ε : Type} [LinearOrder κ] {key : α → κ} {l l' : List α}

def sortStable (less : α → α → Bool) (l : List α) : List α :=
  l.insertionSort fun a b => less b a = false

theorem sortStable_perm (less : α → α → Bool) (l : List α) : (sortStable less l).Perm l :=
  perm_insertionSort _ l

def ByKey (less : α → α → Bool) (key : α → κ) : Prop := ∀ a b, less a b = true ↔ key a < key b

section

variable {less : α → α → Bool} (h : ByKey less key)
include h

theorem ByKey.eq_false : less b a = false ↔ key a ≤ key b := by
  rw [← Bool.not_eq_true, h, not_lt]

theorem ByKey.pairwise_iff :
    (l.Pairwise fun a b => less b a = false) ↔ l.Pairwise fun a b => key a ≤ key b := by
  simp only [h.eq_false]

theorem ByKey.pairwise (l : List α) : (sortStable less l).Pairwise fun a b => key a ≤ key b := by
  have htotal : Std.Total fun a b => less b a = false := by
    constructor
    intro a b
    rw [h.eq_false, h.eq_false]
    exact le_total _ _
  have htrans : IsTrans α fun a b => less b a = false := by
    constructor
    intro a b c
    simp only [h.eq_false]
    exact le_trans
  exact h.pairwise_iff.1 (pairwise_insertionSort _ l)

theorem ByKey.sort_eq_self : sortStable less l = l ↔ l.Pairwise fun a b => key a ≤ key b := by
  constructor
  · intro heq
    rw [← heq]
    exact h.pairwise l
  · intro hsorted
    exact (h.pairwise_iff.2 hsorted).insertionSort_eq

theorem ByKey.sort_congr (hperm : l.Perm l')
    (hinj : ∀ a ∈ l, ∀ b ∈ l, key a = key b → a = b) : sortStable less l = sortStable less l' := by
  have hsame := (sortStable_perm less l).trans (hperm.trans (sortStable_perm less l').symm)
  refine hsame.eq_of_pairwise ?_ (h.pairwise l) (h.pairwise l')
  intro a b ha hb hab hba
  have hb := (sortStable_perm less l).mem_iff.1 (hsame.mem_iff.2 hb)
  exact hinj a ((sortStable_perm less l).mem_iff.1 ha) b hb (hab.antisymm hba)

end

def checkAdjacent (check : α → α → Except ε Unit) : List α → Except ε Unit
  | prev :: cur :: rest => do
    check prev cur
    checkAdjacent check (cur :: rest)
  | _ => .ok ()

theorem checkAdjacent_eq_ok {check : α → α → Except ε Unit} :
    checkAdjacent check l = .ok u ↔ l.IsChain fun a b => check a b = .ok () := by
  fun_induction checkAdjacent check l with
  | case1 prev cur rest ih =>
    rw [isChain_cons_cons, bind_eq_ok, ← ih]
    exact ⟨fun ⟨(), h⟩ => h, fun h => ⟨(), h⟩⟩
  | case2 l hl =>
    match l, hl with
    | [], _ | [_], _ => simp
    | a :: b :: rest, hl => exact absurd rfl (hl a b rest)

theorem checkAdjacent_iff {check : α → α → Except ε Unit} (P : α → Prop)
    (hcheck : ∀ a b, check a b = .ok () ↔ P a ∧ P b ∧ key a ≤ key b) (hl : ∀ a ∈ l, P a) :
    checkAdjacent check l = .ok u ↔ l.Pairwise fun a b => key a ≤ key b := by
  rw [checkAdjacent_eq_ok]
  constructor
  · intro hchain
    have hle := hchain.imp fun a b h => ((hcheck a b).1 h).2.2
    have htrans : IsTrans α fun a b => key a ≤ key b := ⟨fun _ _ _ => le_trans⟩
    exact isChain_iff_pairwise.1 hle
  · intro hsorted
    refine (hsorted.imp_of_mem ?_).isChain
    exact fun ha hb hle => (hcheck _ _).2 ⟨hl _ ha, hl _ hb, hle⟩

end Wavelength
