import Mathlib.Algebra.Order.Ring.Nat
import Mathlib.Data.List.Basic
import Mathlib.Tactic.Common

/-! # Codecs

A codec writes values as bytes and reads one value from the front of a byte string. It carries
both laws: what was written is read back, and only what would be written is read. Codecs of words,
byte strings, lists and streams are put together from smaller ones.
-/

namespace Wavelength

open List Option

structure Codec (α : Type) where
  /-- The values that can be written. -/
  Fits : α → Prop
  write : α → List UInt8
  read : List UInt8 → Option (α × List UInt8)
  read_write : ∀ {a}, Fits a → ∀ rest, read (write a ++ rest) = some (a, rest)
  write_read : ∀ {bs a rest}, read bs = some (a, rest) → Fits a ∧ bs = write a ++ rest

namespace Codec

variable {α β : Type} {c : Codec α} {bs : List UInt8} {as : List α}

def raw (n : ℕ) : Codec (List UInt8) where
  Fits bs := bs.length = n
  write bs := bs
  read bs := if n ≤ bs.length then some (bs.take n, bs.drop n) else none
  read_write := by
    rintro a rfl rest
    rw [if_pos (by rw [List.length_append]; omega), List.take_left, List.drop_left]
  write_read := by
    intro bs a rest h
    split at h
    · cases h
      exact ⟨List.length_take_of_le ‹_›, (List.take_append_drop n bs).symm⟩
    · cases h

/-- Read what another codec reads as a value of another type. -/
def convert (c : Codec α) (Fits : β → Prop) (put : β → α) (get : α → Option β)
    (hput : ∀ b, Fits b → c.Fits (put b) ∧ get (put b) = some b)
    (hget : ∀ a b, c.Fits a → get a = some b → Fits b ∧ put b = a) : Codec β where
  Fits := Fits
  write b := c.write (put b)
  read bs := do
    let (a, rest) ← c.read bs
    let b ← get a
    pure (b, rest)
  read_write := by
    intro b hb rest
    rw [c.read_write (hput b hb).1]
    simp [(hput b hb).2]
  write_read := by
    intro bs b rest h
    simp only [Option.bind_eq_bind, Option.bind_eq_some_iff, Option.pure_def, Prod.exists,
      Option.some.injEq, Prod.mk.injEq] at h
    obtain ⟨a, _, hread, _, hb, rfl, rfl⟩ := h
    obtain ⟨ha, rfl⟩ := c.write_read hread
    obtain ⟨hfits, rfl⟩ := hget a _ ha hb
    exact ⟨hfits, rfl⟩

/-- A value known from elsewhere, for which nothing is written. -/
def known (a : α) : Codec α where
  Fits b := b = a
  write _ := []
  read bs := some (a, bs)
  read_write := by
    rintro b rfl rest
    rfl
  write_read := by
    intro bs b rest h
    cases h
    exact ⟨rfl, rfl⟩

/-- A tag of a value, followed by what the tag says. -/
def tagged (c : Codec α) (tag : β → α) (d : α → Codec β)
    (htag : ∀ a b, (d a).Fits b → tag b = a) : Codec β where
  Fits b := c.Fits (tag b) ∧ (d (tag b)).Fits b
  write b := c.write (tag b) ++ (d (tag b)).write b
  read bs := do
    let (a, rest) ← c.read bs
    (d a).read rest
  read_write := by
    intro b h rest
    rw [List.append_assoc, c.read_write h.1]
    exact (d (tag b)).read_write h.2 rest
  write_read := by
    intro bs b rest h
    simp only [Option.bind_eq_bind, Option.bind_eq_some_iff, Prod.exists] at h
    obtain ⟨a, bs', hread, hrest⟩ := h
    obtain ⟨ha, rfl⟩ := c.write_read hread
    obtain ⟨hb, rfl⟩ := (d a).write_read hrest
    obtain rfl := htag a b hb
    exact ⟨⟨ha, hb⟩, (List.append_assoc _ _ _).symm⟩

def sized (count : Codec ℕ) : Codec (List UInt8) :=
  count.tagged List.length raw fun _ _ h => h

/-! ## Words -/

def leBytes : ℕ → ℕ → List UInt8
  | 0, _ => []
  | k + 1, n => .ofNat n :: leBytes k (n / 256)

def ofLeBytes : List UInt8 → ℕ
  | [] => 0
  | b :: bs => b.toNat + 256 * ofLeBytes bs

theorem length_leBytes (k n : ℕ) : (leBytes k n).length = k := by
  induction k generalizing n with
  | zero => rfl
  | succ k ih => simp [leBytes, ih]

theorem ofLeBytes_leBytes (h : n < 256 ^ k) : ofLeBytes (leBytes k n) = n := by
  induction k generalizing n with
  | zero => simp [leBytes, ofLeBytes] at *; omega
  | succ k ih =>
    have hdiv : n / 256 < 256 ^ k := Nat.div_lt_of_lt_mul (by rwa [Nat.pow_succ'] at h)
    simp only [leBytes, ofLeBytes, ih hdiv, UInt8.toNat_ofNat']
    omega

theorem leBytes_ofLeBytes (bs : List UInt8) :
    ofLeBytes bs < 256 ^ bs.length ∧ leBytes bs.length (ofLeBytes bs) = bs := by
  induction bs with
  | nil => simp [leBytes, ofLeBytes]
  | cons b bs ih =>
    have hb := b.toNat_lt
    have hdiv : (b.toNat + 256 * ofLeBytes bs) / 256 = ofLeBytes bs := by omega
    have hmod : UInt8.ofNat (b.toNat + 256 * ofLeBytes bs) = b := by
      rw [← UInt8.toNat_inj, UInt8.toNat_ofNat']
      omega
    rw [length_cons, leBytes, ofLeBytes, hdiv, hmod, ih.2, Nat.pow_succ']
    exact ⟨by omega, rfl⟩

def le (k : ℕ) : Codec ℕ :=
  (raw k).convert (· < 256 ^ k) (leBytes k) (fun bs => some (ofLeBytes bs))
    (fun n h => ⟨length_leBytes k n, by rw [ofLeBytes_leBytes h]⟩)
    (by
      rintro bs n rfl h
      cases h
      exact leBytes_ofLeBytes bs)

def byte : Codec UInt8 where
  Fits _ := True
  write b := [b]
  read
    | [] => none
    | b :: rest => some (b, rest)
  read_write _ _ := rfl
  write_read := by
    intro bs b rest h
    cases bs with
    | nil => cases h
    | cons b bs =>
      cases h
      exact ⟨trivial, rfl⟩

/-! ## Streams -/

def readAll (c : Codec α) : ℕ → List UInt8 → Option (List α)
  | _, [] => some []
  | 0, _ :: _ => none
  | fuel + 1, b :: bs => do
    let (a, rest) ← c.read (b :: bs)
    let as ← readAll c fuel rest
    pure (a :: as)

def parse (c : Codec α) (bs : List UInt8) : Option (List α) :=
  c.readAll bs.length bs

theorem readAll_flatMap (hne : ∀ a, c.write a ≠ []) (h : ∀ a ∈ as, c.Fits a)
    (hfuel : (as.flatMap c.write).length ≤ fuel) :
    c.readAll fuel (as.flatMap c.write) = some as := by
  induction as generalizing fuel with
  | nil => cases fuel <;> rfl
  | cons a as ih =>
    rw [forall_mem_cons] at h
    have hread := c.read_write h.1 (as.flatMap c.write)
    rw [flatMap_cons] at hfuel ⊢
    obtain ⟨b, bs, hw⟩ := exists_cons_of_ne_nil (hne a)
    rw [hw, cons_append] at hread hfuel ⊢
    cases fuel with
    | zero => cases hfuel
    | succ fuel =>
      have hle : (as.flatMap c.write).length ≤ fuel := by
        simp only [length_cons, length_append] at hfuel
        omega
      simp [readAll, hread, ih h.2 hle]

theorem parse_flatMap (hne : ∀ a, c.write a ≠ [])
    (h : ∀ a ∈ as, c.Fits a) : c.parse (as.flatMap c.write) = some as :=
  readAll_flatMap hne h le_rfl

theorem readAll_eq_some (h : c.readAll fuel bs = some as) :
    (∀ a ∈ as, c.Fits a) ∧ bs = as.flatMap c.write := by
  induction fuel generalizing bs as with
  | zero =>
    cases bs with
    | nil => cases h; simp
    | cons b bs => cases h
  | succ fuel ih =>
    cases bs with
    | nil => cases h; simp
    | cons b bs =>
      simp only [readAll, Option.bind_eq_bind, Option.bind_eq_some_iff, Option.pure_def,
        Prod.exists, some.injEq] at h
      obtain ⟨a, bs', hread, as', hall, rfl⟩ := h
      obtain ⟨ha, hbs⟩ := c.write_read hread
      obtain ⟨has, rfl⟩ := ih hall
      exact ⟨forall_mem_cons.2 ⟨ha, has⟩, by rw [hbs, flatMap_cons]⟩

/-- The values before the first that cannot be read. -/
def readable (c : Codec α) : ℕ → List UInt8 → List α
  | _, [] => []
  | 0, _ :: _ => []
  | fuel + 1, b :: bs =>
    match c.read (b :: bs) with
    | some (a, rest) => a :: readable c fuel rest
    | none => []

theorem readable_eq (h : c.readAll fuel bs = some as) : c.readable fuel bs = as := by
  induction fuel generalizing bs as with
  | zero =>
    cases bs with
    | nil => cases h; rfl
    | cons b bs => cases h
  | succ fuel ih =>
    cases bs with
    | nil => cases h; rfl
    | cons b bs =>
      simp only [readAll, Option.bind_eq_bind, Option.bind_eq_some_iff, Option.pure_def,
        Prod.exists, some.injEq] at h
      obtain ⟨a, bs', hread, as', hall, rfl⟩ := h
      rw [readable, hread]
      exact congrArg (a :: ·) (ih hall)

end Codec

end Wavelength
