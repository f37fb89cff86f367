import Mathlib.Data.List.Basic
import Mathlib.Data.List.Nodup
import Mathlib.Tactic.Common

/-! # Keyed tables

A table is a list of rows without two rows of the same key. The operations are
those of a relational store on a primary key: an insert that ignores or refuses
a conflict, an update and a delete. Each is described by what `get?` returns
afterwards.
-/

namespace Wavelength

open List Option

structure Table (ρ : Type*) {κ : Type*} (key : ρ → κ) where
  rows : List ρ
  nodup : (rows.map key).Nodup

namespace Table

variable {ρ κ : Type*} {key : ρ → κ}

def empty : Table ρ key := ⟨[], List.nodup_nil⟩

def map (t : Table ρ key) (f : ρ → ρ) (hf : ∀ r, key (f r) = key r) : Table ρ key where
  rows := t.rows.map f
  nodup := by
    have : (t.rows.map f).map key = t.rows.map key := by
      simp only [List.map_map]
      exact List.map_congr_left fun r _ => hf r
    rw [this]
    exact t.nodup

theorem ext_rows {t t' : Table ρ key} (h : t.rows = t'.rows) : t = t' := by
  cases t
  cases t'
  cases h
  rfl

def filter (t : Table ρ key) (p : ρ → Bool) : Table ρ key where
  rows := t.rows.filter p
  nodup := t.nodup.sublist (List.filter_sublist.map key)

variable [DecidableEq κ]

def get? (t : Table ρ key) (k : κ) : Option ρ :=
  t.rows.find? (key · = k)

def delete (t : Table ρ key) (k : κ) : Table ρ key where
  rows := t.rows.filter (key · ≠ k)
  nodup := t.nodup.sublist (List.filter_sublist.map key)

def modify (t : Table ρ key) (k : κ) (f : ρ → ρ) (hf : ∀ r, key (f r) = key r) : Table ρ key :=
  t.map (fun r => if key r = k then f r else r) fun r => by split <;> simp [hf]

theorem get?_eq_none_iff {t : Table ρ key} {k : κ} : t.get? k = none ↔ k ∉ t.rows.map key := by
  simp [get?]

def insertIgnore (t : Table ρ key) (r : ρ) : Table ρ key :=
  if h : t.get? (key r) = none then
    ⟨t.rows ++ [r], by
      rw [List.map_append, List.map_singleton, List.nodup_append_comm, List.singleton_append,
        List.nodup_cons]
      exact ⟨get?_eq_none_iff.1 h, t.nodup⟩⟩
  else t

def put (t : Table ρ key) (r : ρ) : Table ρ key := (t.delete (key r)).insertIgnore r

def insert? (t : Table ρ key) (r : ρ) : Option (Table ρ key) :=
  if t.get? (key r) = none then some (t.insertIgnore r) else none

variable {t t' : Table ρ key} {k k' : κ} {r : ρ}

theorem key_of_get? (h : t.get? k = some r) : key r = k := by
  simpa using find?_some h

theorem mem_of_get? (h : t.get? k = some r) : r ∈ t.rows := mem_of_find?_eq_some h

theorem mem_rows_iff : r ∈ t.rows ↔ t.get? (key r) = some r := by
  refine ⟨fun h => ?_, mem_of_get?⟩
  cases hg : t.get? (key r) with
  | none => exact absurd (mem_map_of_mem h) (get?_eq_none_iff.1 hg)
  | some r' => rw [inj_on_of_nodup_map t.nodup (mem_of_get? hg) h (key_of_get? hg)]

@[simp] theorem get?_empty : (empty : Table ρ key).get? k = none := rfl

@[simp] theorem get?_map : (t.map f hf).get? k = (t.get? k).map f := by
  simp only [get?, map, find?_map, Function.comp_def, hf]

theorem get?_modify :
    (t.modify k f hf).get? k' = if k' = k then (t.get? k').map f else t.get? k' := by
  rw [modify, get?_map]
  cases h : t.get? k' with
  | none => simp
  | some r =>
    have hk := key_of_get? h
    subst hk
    simp only [map_some]
    split <;> rfl

@[simp] theorem get?_delete : (t.delete k).get? k' = if k' = k then none else t.get? k' := by
  simp only [get?, delete, find?_filter]
  split
  · next h =>
    subst h
    simp
  next h =>
  congr 1
  funext r
  by_cases hr : key r = k' <;> simp [hr, h]

theorem get?_insertIgnore :
    (t.insertIgnore r).get? k = (t.get? k).or (if key r = k then some r else none) := by
  unfold insertIgnore
  split
  · simp only [get?, find?_append]
    congr 1
    by_cases hr : key r = k <;> simp [hr]
  next h =>
  by_cases hk : key r = k
  · subst hk
    obtain ⟨r', hr'⟩ := ne_none_iff_exists'.1 h
    simp [hr']
  · simp [hk]

@[simp] theorem get?_put : (t.put r).get? k = if k = key r then some r else t.get? k := by
  rw [put, get?_insertIgnore, get?_delete]
  by_cases hk : k = key r
  · simp [hk]
  · simp [hk, Ne.symm hk]

theorem mem_rows_put (h : r' ∈ (t.put r).rows) : r' = r ∨ r' ∈ t.rows := by
  rw [mem_rows_iff, get?_put] at h
  split at h
  · exact .inl (some.inj h).symm
  · exact .inr (mem_rows_iff.2 h)

theorem mem_keys_iff : k ∈ t.rows.map key ↔ t.get? k ≠ none := by
  rw [ne_eq, get?_eq_none_iff, not_not]

theorem mem_keys_put : k ∈ (t.put r).rows.map key ↔ k = key r ∨ k ∈ t.rows.map key := by
  rw [mem_keys_iff, mem_keys_iff, get?_put]
  split <;> simp [*]

/-- A lookup of pairwise different keys finds pairwise different rows. -/
theorem nodup_filterMap_get? {ks : List κ} (h : ks.Nodup) :
    ((ks.filterMap t.get?).map key).Nodup := by
  have hsub : ((ks.filterMap t.get?).map key).Sublist ks := by
    clear h
    induction ks with
    | nil => exact .slnil
    | cons k ks ih =>
      cases hk : t.get? k with
      | none => simpa [hk] using ih.cons k
      | some r => simpa [hk, key_of_get? hk] using ih
  exact h.sublist hsub

section Rows

variable {f g h : ρ → ρ}

theorem delete_modify (hf : ∀ r, key (f r) = key r) : (t.modify k f hf).delete k = t.delete k := by
  apply ext_rows
  simp only [delete, modify, map]
  induction t.rows with
  | nil => rfl
  | cons r rows ih =>
    by_cases hr : key r = k
    · simpa [hr, hf] using ih
    · simpa [hr] using ih

theorem rows_insertIgnore (h : t.get? (key r) = none) : (t.insertIgnore r).rows = t.rows ++ [r] := by
  simp [insertIgnore, h]

theorem delete_delete : (t.delete k).delete k = t.delete k := by
  apply ext_rows
  simp [delete, List.filter_filter]

variable (hf : ∀ r, key (f r) = key r) (hg : ∀ r, key (g r) = key r)
include hf hg

theorem modify_modify
    (hh : ∀ r, key (h r) = key r) (hr : t.get? k = some r) (heq : g (f r) = h r) : (t.modify k f hf).modify k g hg = t.modify k h hh := by
  apply ext_rows
  simp only [modify, map, List.map_map]
  refine map_congr_left fun r' hr' => ?_
  by_cases hk : key r' = k
  · obtain rfl : r' = r := by
      rw [mem_rows_iff, hk, hr] at hr'
      exact (some.inj hr').symm
    simp [hk, hf, heq]
  · simp [hk]

theorem modify_congr
    (hr : t.get? k = some r) (heq : f r = g r) :
    t.modify k f hf = t.modify k g hg := by
  apply ext_rows
  refine map_congr_left fun r' hr' => ?_
  by_cases hk : key r' = k
  · obtain rfl : r' = r := by
      rw [mem_rows_iff, hk, hr] at hr'
      exact (some.inj hr').symm
    simp [hk, heq]
  · simp [hk]

omit hf hg

end Rows

theorem insert?_eq_some_iff :
    t.insert? r = some t' ↔ t.get? (key r) = none ∧ t' = t.insertIgnore r := by
  unfold insert?
  split <;> simp_all [eq_comm]

end Table

end Wavelength
