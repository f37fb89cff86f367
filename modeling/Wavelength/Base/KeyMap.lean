import Mathlib.Data.List.Sort
import Mathlib.Order.Lattice
import Mathlib.Tactic.Common

/-! # Maps in key order

A map is the list of its entries in ascending order of their keys. There is one such list for each
map, so that two maps with the same entries are equal and walking a map by sorted keys is walking
its list.
-/

namespace Wavelength

open List

/-- Entries in ascending order of their keys. -/
@[ext]
structure KeyMap (κ ν : Type) [LinearOrder κ] where
  entries : List (κ × ν)
  sorted : entries.Pairwise (·.1 < ·.1)

namespace KeyMap

variable {κ ν : Type} [LinearOrder κ]

instance [DecidableEq ν] : DecidableEq (KeyMap κ ν) := fun m m' =>
  decidable_of_iff (m.entries = m'.entries) KeyMap.ext_iff.symm

def empty : KeyMap κ ν := ⟨[], List.Pairwise.nil⟩

def insertEntry (k : κ) (v : ν) : List (κ × ν) → List (κ × ν)
  | [] => [(k, v)]
  | e :: es =>
    if k < e.1 then (k, v) :: e :: es
    else if k = e.1 then (k, v) :: es
    else e :: insertEntry k v es

variable {k : κ} {v : ν} {es : List (κ × ν)}

theorem mem_insertEntry (hs : es.Pairwise (·.1 < ·.1)) :
    e ∈ insertEntry k v es ↔ e = (k, v) ∨ e ∈ es ∧ e.1 ≠ k := by
  induction es with
  | nil => simp [insertEntry]
  | cons a es ih =>
    obtain ⟨ha, hs⟩ := pairwise_cons.1 hs
    unfold insertEntry
    split
    · next hlt =>
      -- every entry has a greater key than the new one
      have hne : ∀ e ∈ a :: es, e.1 ≠ k := by
        intro e he
        rcases mem_cons.1 he with rfl | he
        · exact ne_of_gt hlt
        · exact ne_of_gt (lt_trans hlt (ha e he))
      rw [mem_cons]
      exact or_congr_right ⟨fun he => ⟨he, hne e he⟩, And.left⟩
    · split
      · next heq =>
        subst heq
        simp only [mem_cons]
        constructor
        · rintro (rfl | he)
          · exact .inl rfl
          · exact .inr ⟨.inr he, ne_of_gt (ha e he)⟩
        rintro (rfl | ⟨rfl | he, hne⟩)
        · exact .inl rfl
        · exact absurd rfl hne
        · exact .inr he
      · next hne =>
        simp only [mem_cons, ih hs]
        constructor
        · rintro (rfl | rfl | ⟨he, hk⟩)
          · exact .inr ⟨.inl rfl, Ne.symm hne⟩
          · exact .inl rfl
          · exact .inr ⟨.inr he, hk⟩
        rintro (rfl | ⟨rfl | he, hk⟩)
        · exact .inr (.inl rfl)
        · exact .inl rfl
        · exact .inr (.inr ⟨he, hk⟩)

theorem insertEntry_sorted (hs : es.Pairwise (·.1 < ·.1)) :
    (insertEntry k v es).Pairwise (·.1 < ·.1) := by
  induction es with
  | nil => simp [insertEntry]
  | cons a es ih =>
    obtain ⟨ha, hs'⟩ := pairwise_cons.1 hs
    unfold insertEntry
    split
    · next hlt =>
      refine pairwise_cons.2 ⟨fun e he => ?_, hs⟩
      rcases mem_cons.1 he with rfl | he
      · exact hlt
      · exact lt_trans hlt (ha e he)
    · next hge =>
      split
      · next heq =>
        subst heq
        exact pairwise_cons.2 ⟨ha, hs'⟩
      next hne =>
      refine pairwise_cons.2 ⟨fun e he => ?_, ih hs'⟩
      rcases (mem_insertEntry hs').1 he with rfl | ⟨he, -⟩
      · exact lt_of_le_of_ne (not_lt.1 hge) (Ne.symm hne)
      · exact ha e he

def insert (m : KeyMap κ ν) (k : κ) (v : ν) : KeyMap κ ν :=
  ⟨insertEntry k v m.entries, insertEntry_sorted m.sorted⟩

def lookup (m : KeyMap κ ν) (k : κ) : Option ν := (m.entries.find? (·.1 = k)).map Prod.snd

def keys (m : KeyMap κ ν) : List κ := m.entries.map Prod.fst

def filterKeys (m : KeyMap κ ν) (p : κ → Bool) : KeyMap κ ν :=
  ⟨m.entries.filter (p ·.1), m.sorted.filter _⟩

section

variable {m m' : KeyMap κ ν} {k k' : κ} {v : ν}

theorem keys_nodup (m : KeyMap κ ν) : m.keys.Nodup := (pairwise_map.2 m.sorted).imp ne_of_lt

theorem lookup_eq_some : m.lookup k = some v ↔ (k, v) ∈ m.entries := by
  unfold lookup
  rw [Option.map_eq_some_iff]
  constructor
  · rintro ⟨e, he, rfl⟩
    have hk : e.1 = k := by simpa using find?_some he
    rw [← hk]
    exact mem_of_find?_eq_some he
  intro h
  cases hf : m.entries.find? (·.1 = k) with
  | none =>
    have hno := find?_eq_none.1 hf _ h
    simp at hno
  | some e =>
    have hk : e.1 = k := by simpa using find?_some hf
    have he : e = (k, v) := inj_on_of_nodup_map m.keys_nodup (mem_of_find?_eq_some hf) h hk
    exact ⟨e, rfl, by rw [he]⟩

theorem mem_keys : k ∈ m.keys ↔ ∃ v, m.lookup k = some v := by
  simp [lookup_eq_some, keys]

theorem lookup_eq_none : m.lookup k = none ↔ k ∉ m.keys := by
  rw [mem_keys, Option.eq_none_iff_forall_ne_some, not_exists]

@[simp] theorem lookup_insert :
    (m.insert k v).lookup k' = if k' = k then some v else m.lookup k' := by
  apply Option.ext
  intro w
  rw [lookup_eq_some, insert, mem_insertEntry m.sorted]
  split
  · next h =>
    subst h
    simp [eq_comm]
  · next h => simp [h, lookup_eq_some]

@[simp] theorem lookup_filterKeys : (m.filterKeys p).lookup k = if p k then m.lookup k else none := by
  apply Option.ext
  intro v
  rw [lookup_eq_some, filterKeys, mem_filter]
  split
  · next h => simp [h, lookup_eq_some]
  · next h => simp [h]

theorem mem_keys_insert : k' ∈ (m.insert k v).keys ↔ k' = k ∨ k' ∈ m.keys := by
  simp only [mem_keys, lookup_insert]
  split
  · next h => simp [h]
  · next h => simp [h]

theorem ext_lookup (h : ∀ k, m.lookup k = m'.lookup k) : m = m' := by
  apply KeyMap.ext
  have hmem : ∀ e : κ × ν, e ∈ m.entries ↔ e ∈ m'.entries := by
    rintro ⟨k, v⟩
    rw [← lookup_eq_some, ← lookup_eq_some, h]
  have hperm : m.entries.Perm m'.entries :=
    (perm_ext_iff_of_nodup m.keys_nodup.of_map m'.keys_nodup.of_map).2 hmem
  exact hperm.eq_of_pairwise (fun a b _ _ hab hba => absurd hab (lt_asymm hba)) m.sorted m'.sorted

end

theorem insertEntry_of_lt (h : ∀ e ∈ es, e.1 < k) : insertEntry k v es = es ++ [(k, v)] := by
  induction es with
  | nil => rfl
  | cons a es ih =>
    have ha : a.1 < k := h a mem_cons_self
    rw [insertEntry, if_neg (not_lt.2 ha.le), if_neg (ne_of_gt ha),
      ih fun e he => h e (mem_cons_of_mem _ he), cons_append]

theorem entries_insert_of_lt {m : KeyMap κ ν} (h : ∀ k' ∈ m.keys, k' < k) :
    (m.insert k v).entries = m.entries ++ [(k, v)] :=
  insertEntry_of_lt fun _ he => h _ (mem_map_of_mem he)

end KeyMap

end Wavelength
