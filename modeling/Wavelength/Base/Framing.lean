import Mathlib.Algebra.Group.Nat.Defs
import Mathlib.Data.List.Basic
import Mathlib.Tactic.Common

/-! # Record framing

Numbers of variable length in front of a byte string, byte strings that are a concatenation of
records, and a reader with a position in a buffer.
-/

namespace Wavelength

open List

/-- A read takes at least one byte and does not look at what follows. -/
structure VarInt where
  read : List UInt8 → Option (UInt64 × List UInt8)
  split : ∀ {bs n rest}, read bs = some (n, rest) →
    ∃ p, p ≠ [] ∧ bs = p ++ rest ∧ read p = some (n, [])
  extend : ∀ {p n}, read p = some (n, []) → ∀ rest, read (p ++ rest) = some (n, rest)

namespace VarInt

/-- A complete record: a number for the type, one for the length, and that many bytes. -/
structure Record (v : VarInt) where
  type : List UInt8
  length : List UInt8
  value : List UInt8
  read_type : ∃ t, v.read type = some (t, [])
  read_length : ∃ n, v.read length = some (n, []) ∧ n.toNat = value.length

def Record.bytes {v : VarInt} (r : v.Record) : List UInt8 := r.type ++ (r.length ++ r.value)

def Framed (v : VarInt) (bs : List UInt8) : Prop :=
  ∃ rs : List v.Record, bs = rs.flatMap Record.bytes

/-- What is left of `bs` when a decoder that goes from record to record looks for the next one. -/
inductive Visits (v : VarInt) (bs : List UInt8) : List UInt8 → Prop
  | start : Visits v bs bs
  | next : Visits v bs rest → v.read rest = some (t, bs₁) → v.read bs₁ = some (n, bs₂) →
      Visits v bs (bs₂.drop n.toNat)

variable {v : VarInt} {bs bs₁ bs₂ rest : List UInt8} {t n : UInt64}

theorem framed_nil : v.Framed [] := ⟨[], rfl⟩

theorem length_lt_of_read (h : v.read bs = some (n, rest)) : rest.length < bs.length := by
  obtain ⟨p, hp, rfl, -⟩ := v.split h
  have := length_pos_iff.2 hp
  rw [length_append]
  omega

theorem ne_nil_of_read (h : v.read bs = some (n, rest)) : bs ≠ [] := by
  rintro rfl
  exact absurd (length_lt_of_read h) (Nat.not_lt_zero _)

theorem Framed.uncons (h : v.Framed bs) (hne : bs ≠ []) :
    ∃ t n bs₁ bs₂, v.read bs = some (t, bs₁) ∧ v.read bs₁ = some (n, bs₂) ∧
      n.toNat ≤ bs₂.length ∧ v.Framed (bs₂.drop n.toNat) := by
  obtain ⟨rs, rfl⟩ := h
  cases rs with
  | nil => exact absurd rfl hne
  | cons r rs =>
    obtain ⟨t, ht⟩ := r.read_type
    obtain ⟨n, hn, hlen⟩ := r.read_length
    refine ⟨t, n, r.length ++ (r.value ++ rs.flatMap Record.bytes),
      r.value ++ rs.flatMap Record.bytes, ?_, v.extend hn _, ?_, rs, ?_⟩
    · rw [flatMap_cons, Record.bytes, append_assoc, append_assoc]
      exact v.extend ht _
    · rw [hlen, length_append]
      omega
    · rw [hlen, drop_left]

/-- Behind a type and a length the bytes are framed if the value fits and is followed by records. -/
theorem framed_iff_of_read (ht : v.read bs = some (t, bs₁)) (hn : v.read bs₁ = some (n, bs₂)) :
    v.Framed bs ↔ n.toNat ≤ bs₂.length ∧ v.Framed (bs₂.drop n.toNat) := by
  constructor
  · intro h
    obtain ⟨t', n', bs₁', bs₂', ht', hn', hle, hrest⟩ := h.uncons (ne_nil_of_read ht)
    rw [ht] at ht'
    cases ht'
    rw [hn] at hn'
    cases hn'
    exact ⟨hle, hrest⟩
  · rintro ⟨hle, rs, hrs⟩
    obtain ⟨p, -, rfl, hp⟩ := v.split ht
    obtain ⟨q, -, rfl, hq⟩ := v.split hn
    refine ⟨⟨p, q, bs₂.take n.toNat, ⟨t, hp⟩, n, hq, (length_take_of_le hle).symm⟩ :: rs, ?_⟩
    rw [flatMap_cons, ← hrs, Record.bytes, append_assoc, append_assoc, take_append_drop]

theorem Framed.visits (h : v.Framed bs) (hvisits : v.Visits bs rest) : v.Framed rest := by
  induction hvisits with
  | start => exact h
  | next _ ht hn ih => exact ((framed_iff_of_read ht hn).1 ih).2

end VarInt

/-- A byte slice; its length is a 64-bit integer. -/
abbrev Buffer := { bs : List UInt8 // bs.length < 2 ^ 63 }

structure Reader where
  s : Buffer
  i : ℕ

namespace Reader

variable {v : VarInt} {r : Reader} {n : UInt64} {bs : List UInt8}

def len (r : Reader) : ℕ := r.s.1.length - r.i

def rest (r : Reader) : List UInt8 := r.s.1.drop r.i

def readVarInt (v : VarInt) (r : Reader) : Option (UInt64 × Reader) :=
  (v.read r.rest).map fun (n, rest) => (n, { r with i := r.s.1.length - rest.length })

/-- A position before the start is an error; one behind the end is not. -/
def seekCurrent (offset : Int64) (r : Reader) : Option Reader :=
  let abs := Int64.ofNat r.i + offset
  if abs < 0 then none else some { r with i := abs.toInt.toNat }

theorem length_rest : r.rest.length = r.len := length_drop

theorem readVarInt_eq_some (h : v.read r.rest = some (n, bs)) :
    ∃ r', r.readVarInt v = some (n, r') ∧ r'.rest = bs ∧ r'.i ≤ r'.s.1.length := by
  obtain ⟨p, -, hp, -⟩ := v.split h
  have hsuffix : bs <:+ r.s.1 := (hp ▸ suffix_append p bs).trans (drop_suffix _ _)
  refine ⟨_, by rw [readVarInt, h, Option.map_some], ?_, Nat.sub_le _ _⟩
  exact (suffix_iff_eq_drop.1 hsuffix).symm

theorem readVarInt_eq_none (h : v.read r.rest = none) : r.readVarInt v = none := by
  rw [readVarInt, h, Option.map_none]

theorem seekCurrent_eq_some (hi : r.i ≤ r.s.1.length) (hn : n.toNat ≤ r.len) :
    ∃ r', r.seekCurrent n.toInt64 = some r' ∧ r'.rest = r.rest.drop n.toNat := by
  have hs := r.s.2
  unfold len at hn
  have hoffset : n.toInt64.toInt = n.toNat :=
    BitVec.toInt_eq_toNat_of_lt (show 2 * n.toNat < 2 ^ 64 by omega)
  have habs : (Int64.ofNat r.i + n.toInt64).toInt = (r.i + n.toNat : ℕ) := by
    rw [Int64.toInt_add, Int64.toInt_ofNat_of_lt (by omega), hoffset]
    exact Int.bmod_eq_of_le (by omega) (by omega)
  refine ⟨{ r with i := r.i + n.toNat }, ?_, by rw [rest, rest, drop_drop]⟩
  rw [seekCurrent, if_neg, habs, Int.toNat_natCast]
  rw [Int64.lt_iff_toInt_lt, habs]
  exact Int.not_lt.2 (Int.natCast_nonneg _)

end Reader

end Wavelength
