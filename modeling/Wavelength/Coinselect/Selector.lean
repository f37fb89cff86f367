import Mathlib.Algebra.Order.BigOperators.Group.List
import Mathlib.Algebra.Order.Ring.Int
import Mathlib.Data.Int.Notation
import Mathlib.Data.List.Sort
import Mathlib.Tactic.Common

/-! # Largest-first coin selection

Candidates are taken in descending order of their amounts until the target is
covered without dust change. The coins are of any type; only their amounts matter.
-/

namespace Wavelength.Coinselect

open List

inductive Error
  | selectionShortfall
  | changeBelowMin
  | noCandidates
  | invalidTarget

structure Request where
  target : ℤ
  minChange : ℤ := 0
  sweepAll : Bool := false

structure Result (α : Type*) where
  selected : List α
  total : ℤ
  change : ℤ

section Select

variable {α : Type*} (amount : α → ℤ) (req : Request)

/-- A failure carries the total that was covered. -/
def selectAll (candidates : List α) : Except (Error × ℤ) (Result α) :=
  if candidates.isEmpty then .error (.noCandidates, 0)
  else .ok ⟨candidates, (candidates.map amount).sum, 0⟩

/-- The loop over the sorted candidates. `rejected` is the total at the first point
where only the dust check has failed. -/
def accumulate : List α → List α → ℤ → Option ℤ → Except (Error × ℤ) (Result α)
  | [], _, _, some rejectedTotal => .error (.changeBelowMin, rejectedTotal)
  | [], _, total, none => .error (.selectionShortfall, total)
  | c :: sorted, selected, total, rejected =>
    let selected := selected ++ [c]
    let total := total + amount c
    if total < req.target then accumulate sorted selected total rejected
    else
      let change := total - req.target
      if change = 0 ∨ req.minChange = 0 ∨ req.minChange ≤ change then
        .ok ⟨selected, total, change⟩
      else accumulate sorted selected total (some (rejected.getD total))

def largestFirst (candidates : List α) : Except (Error × ℤ) (Result α) :=
  if req.sweepAll then selectAll amount candidates
  else if req.target ≤ 0 then .error (.invalidTarget, 0)
  else if candidates.isEmpty then .error (.noCandidates, 0)
  else
    accumulate amount req (candidates.insertionSort fun a b => amount b ≤ amount a) [] 0 none

end Select

variable {α κ : Type*} {amount : α → ℤ} {req : Request}

/-- The total covers the target, and leaves no dust. -/
def Request.Fits (req : Request) (total : ℤ) : Prop :=
  req.target ≤ total ∧
    (total - req.target = 0 ∨ req.minChange = 0 ∨ req.minChange ≤ total - req.target)

section Accumulate

variable {sorted selected : List α}

/-- A selection is made of the first candidates, no more than it takes to fit. -/
theorem accumulate_ok (h : accumulate amount req sorted selected total rejected = .ok r)
    (hstart : ¬ req.Fits total) :
    ∃ taken, taken <+: sorted ∧ r.selected = selected ++ taken ∧
      r.total = total + (taken.map amount).sum ∧ req.Fits r.total ∧
      r.change = r.total - req.target ∧
      ∀ n < taken.length, ¬ req.Fits (total + ((sorted.take n).map amount).sum) := by
  induction sorted generalizing selected total rejected with
  | nil => cases rejected <;> cases h
  | cons c sorted ih =>
    -- one more candidate in front of a selection from the rest
    have hmore : ∀ {rejected}, ¬ req.Fits (total + amount c) →
        accumulate amount req sorted (selected ++ [c]) (total + amount c) rejected = .ok r →
        ∃ taken, taken <+: c :: sorted ∧ r.selected = selected ++ taken ∧
          r.total = total + (taken.map amount).sum ∧ req.Fits r.total ∧
          r.change = r.total - req.target ∧
          ∀ n < taken.length, ¬ req.Fits (total + (((c :: sorted).take n).map amount).sum) := by
      intro rejected hnext h
      obtain ⟨taken, hpre, hsel, htotal, hfits, hchange, hless⟩ := ih h hnext
      refine ⟨c :: taken, cons_prefix_cons.2 ⟨rfl, hpre⟩, by simpa using hsel, ?_, hfits,
        hchange, ?_⟩
      · rw [htotal, map_cons, sum_cons, add_assoc]
      · rintro (_ | n) hn
        · simpa using hstart
        · simpa [add_assoc] using hless n (by simpa using hn)
    simp only [accumulate] at h
    split at h
    · next hshort => exact hmore (fun hfits => absurd hshort (not_lt.2 hfits.1)) h
    next hcover =>
    split at h
    · next hfit =>
      cases h
      refine ⟨[c], cons_prefix_cons.2 ⟨rfl, nil_prefix⟩, rfl, by simp,
        ⟨not_lt.1 hcover, hfit⟩, rfl, ?_⟩
      rintro (_ | n) hn
      · simpa using hstart
      · simp at hn
    · next hdust => exact hmore (fun hfits => hdust hfits.2) h

/-- A failure says that even all the candidates do not fit, and why. -/
theorem accumulate_error (h : accumulate amount req sorted selected total rejected = .error e)
    (hpos : ∀ c ∈ sorted, 0 ≤ amount c) (hstart : ¬ req.Fits total)
    (hrejected : rejected.isSome = true ↔ req.target ≤ total) :
    ¬ req.Fits (total + (sorted.map amount).sum) ∧
      e.1 = if total + (sorted.map amount).sum < req.target then .selectionShortfall
        else .changeBelowMin := by
  induction sorted generalizing selected total rejected with
  | nil =>
    rw [map_nil, sum_nil, add_zero]
    refine ⟨hstart, ?_⟩
    cases rejected with
    | none =>
      cases h
      rw [if_pos (not_le.1 fun hle => by cases hrejected.2 hle)]
    | some rejectedTotal =>
      cases h
      rw [if_neg (not_lt.2 (hrejected.1 rfl))]
  | cons c sorted ih =>
    have hc : 0 ≤ amount c := hpos c mem_cons_self
    have hrest : ∀ d ∈ sorted, 0 ≤ amount d := fun d hd => hpos d (mem_cons_of_mem _ hd)
    rw [map_cons, sum_cons, ← add_assoc]
    simp only [accumulate] at h
    split at h
    · next hshort =>
      refine ih h hrest (fun hfits => absurd hshort (not_lt.2 hfits.1)) ?_
      rw [hrejected]
      omega
    next hcover =>
    split at h
    · cases h
    · next hdust =>
      exact ih h hrest (fun hfits => hdust hfits.2) (iff_of_true rfl (not_lt.1 hcover))

end Accumulate

section Largest

theorem sum_take_le_cons {a : ℤ} (ha : ∀ b ∈ l, b ≤ a) {n : ℕ} (hn : n ≤ l.length) :
    (l.take n).sum ≤ ((a :: l).take n).sum := by
  cases n with
  | zero => simp
  | succ n =>
    have hlast := ha l[n] (getElem_mem _)
    rw [sum_take_succ _ _ hn, take_succ_cons, sum_cons]
    omega

theorem sum_sublist_le {s l : List ℤ} (h : s.Sublist l) (hl : l.Pairwise (· ≥ ·)) :
    s.sum ≤ (l.take s.length).sum := by
  induction h with
  | slnil => simp
  | cons a hsub ih =>
    obtain ⟨ha, hl⟩ := pairwise_cons.1 hl
    exact (ih hl).trans (sum_take_le_cons ha hsub.length_le)
  | cons_cons a hsub ih =>
    have := ih (pairwise_cons.1 hl).2
    simpa using this

variable {candidates s : List α}

def descending (amount : α → ℤ) (candidates : List α) : List α :=
  candidates.insertionSort fun a b => amount b ≤ amount a

theorem perm_descending : (descending amount candidates).Perm candidates :=
  perm_insertionSort _ candidates

theorem pairwise_descending : ((descending amount candidates).map amount).Pairwise (· ≥ ·) := by
  have : Std.Total fun a b : α => amount b ≤ amount a := ⟨fun a b => le_total _ _⟩
  have : IsTrans α fun a b => amount b ≤ amount a := ⟨fun a b c hab hbc => hbc.trans hab⟩
  exact pairwise_map.2 (pairwise_insertionSort _ candidates)

theorem sum_subperm_le (h : s.Subperm candidates) :
    (s.map amount).sum ≤ (((descending amount candidates).take s.length).map amount).sum := by
  obtain ⟨s', hperm, hsub⟩ := h.trans perm_descending.symm.subperm
  have hle := sum_sublist_le (hsub.map amount) pairwise_descending
  rwa [length_map, hperm.length_eq, (hperm.map amount).sum_eq, ← map_take] at hle

theorem largestFirst_eq (hreq : req.sweepAll = false) (htarget : 0 < req.target)
    (hne : candidates ≠ []) :
    largestFirst amount req candidates =
      accumulate amount req (descending amount candidates) [] 0 none := by
  rw [largestFirst, hreq, if_neg Bool.false_ne_true, if_neg (not_le.2 htarget), if_neg]
  · rfl
  · simpa using hne

theorem not_fits_zero (htarget : 0 < req.target) : ¬ req.Fits 0 := fun h => by
  have := h.1
  omega

theorem largestFirst_ok (hreq : req.sweepAll = false)
    (h : largestFirst amount req candidates = .ok r) :
    r.selected.Subperm candidates ∧ r.total = (r.selected.map amount).sum ∧
      req.target ≤ r.total := by
  by_cases hok : 0 < req.target ∧ candidates ≠ []
  · rw [largestFirst_eq hreq hok.1 hok.2] at h
    obtain ⟨taken, hpre, hsel, htotal, hfits, -⟩ := accumulate_ok h (not_fits_zero hok.1)
    rw [nil_append] at hsel
    rw [Int.zero_add] at htotal
    refine ⟨?_, hsel ▸ htotal, hfits.1⟩
    rw [hsel]
    exact hpre.sublist.subperm.trans perm_descending.subperm
  · rw [largestFirst, hreq, if_neg Bool.false_ne_true] at h
    split at h
    · cases h
    split at h
    · cases h
    · next htarget hne => exact absurd ⟨not_le.1 htarget, by simpa using hne⟩ hok

theorem sum_le_of_subperm (hpos : ∀ c ∈ candidates, 0 ≤ amount c) (h : s.Subperm candidates) :
    (s.map amount).sum ≤ (candidates.map amount).sum := by
  obtain ⟨s', hperm, hsub⟩ := h
  rw [← (hperm.map amount).sum_eq]
  refine (hsub.map amount).sum_le_sum fun a ha => ?_
  obtain ⟨c, hc, rfl⟩ := mem_map.1 ha
  exact hpos c hc

end Largest

structure Reports (amount : α → ℤ) (req : Request) (candidates : List α)
    (answer : Except (Error × ℤ) (Result α)) : Prop where
  shortfall : (∃ covered, answer = .error (.selectionShortfall, covered)) ↔
    (candidates.map amount).sum < req.target
  noDust : ∀ r, answer = .ok r → ¬ (0 < r.change ∧ r.change < req.minChange)
  changeBelowMin : ∀ covered, answer = .error (.changeBelowMin, covered) →
    ∀ s : List α, s.Subperm candidates → req.target ≤ (s.map amount).sum →
      (s.map amount).sum - req.target < req.minChange
  selected : ∀ r, answer = .ok r → r.selected.Subperm candidates ∧
    r.total = (r.selected.map amount).sum ∧ r.change = r.total - req.target
  fewest : req.minChange = 0 → ∀ r, answer = .ok r → ∀ s : List α, s.Subperm candidates →
    req.target ≤ (s.map amount).sum → r.selected.length ≤ s.length

theorem reports_ok (hpos : ∀ c ∈ candidates, 0 ≤ amount c) (htarget : 0 < req.target)
    (h : accumulate amount req (descending amount candidates) [] 0 none = .ok r) :
    Reports amount req candidates (.ok r) := by
  obtain ⟨taken, hpre, hsel, htotal, hfits, hchange, hless⟩ :=
    accumulate_ok h (not_fits_zero htarget)
  rw [nil_append] at hsel
  rw [Int.zero_add] at htotal
  subst hsel
  have hsub : r.selected.Subperm candidates := hpre.sublist.subperm.trans perm_descending.subperm
  refine ⟨iff_of_false nofun ?_, ?_, nofun, ?_, ?_⟩
  · have hle := sum_le_of_subperm hpos hsub
    have hcover := hfits.1
    omega
  · rintro _ ⟨⟩ ⟨hlow, hhigh⟩
    have hfit := hfits.2
    omega
  · rintro _ ⟨⟩
    exact ⟨hsub, htotal, hchange⟩
  · rintro hmin _ ⟨⟩ s hs hcover
    -- as many of the largest would have covered the target before
    by_contra! hlt
    refine hless s.length hlt ⟨?_, .inr (.inl hmin)⟩
    rw [Int.zero_add]
    exact hcover.trans (sum_subperm_le hs)

theorem reports_error (hpos : ∀ c ∈ candidates, 0 ≤ amount c) (htarget : 0 < req.target)
    (h : accumulate amount req (descending amount candidates) [] 0 none = .error e) :
    Reports amount req candidates (.error e) := by
  obtain ⟨hfits, hkind⟩ := accumulate_error h
    (fun c hc => hpos c (perm_descending.mem_iff.1 hc)) (not_fits_zero htarget)
    (iff_of_false nofun (not_le.2 htarget))
  rw [Int.zero_add, (perm_descending.map amount).sum_eq] at hfits hkind
  obtain ⟨kind, covered⟩ := e
  obtain rfl : kind = _ := hkind
  refine ⟨?_, nofun, ?_, nofun, fun _ => nofun⟩
  · split
    · next hlt => exact iff_of_true ⟨covered, rfl⟩ hlt
    · next hge =>
      refine iff_of_false ?_ hge
      rintro ⟨_, ⟨⟩⟩
  · intro covered' heq s hs hcover
    have hle := sum_le_of_subperm hpos hs
    by_contra! hmin
    exact hfits ⟨hcover.trans hle, .inr (.inr (by omega))⟩

end Wavelength.Coinselect
