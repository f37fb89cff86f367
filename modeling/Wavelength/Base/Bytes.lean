import Mathlib.Data.List.Basic
import Mathlib.Tactic.Common

/-! # Byte strings

Byte arrays of a fixed length, the big-endian encoding of a word and hexadecimal text.
-/

namespace Wavelength

/-- A byte array of length `n`. -/
structure Bytes (n : ℕ) where
  data : List UInt8
  length : data.length = n
  deriving DecidableEq

instance : LawfulBEq (Bytes 32) := instLawfulBEq

namespace Bytes

variable {n : ℕ}

def zero (n : ℕ) : Bytes n := ⟨List.replicate n 0, List.length_replicate⟩

def lastByte (n : ℕ) (b : UInt8) : Bytes (n + 1) :=
  ⟨List.replicate n 0 ++ [b], by simp⟩

theorem ext {a b : Bytes n} (h : a.data = b.data) : a = b := by
  cases a
  cases b
  cases h
  rfl

/-- `none` for the zero array. -/
def nonzero (a : Bytes n) : Option (Bytes n) := if a = zero n then none else some a

end Bytes

def be32 (x : UInt32) : List UInt8 :=
  [(x >>> 24).toUInt8, (x >>> 16).toUInt8, (x >>> 8).toUInt8, x.toUInt8]

theorem be32_injective : Function.Injective be32 := by
  intro x y h
  simp only [be32, List.cons.injEq, and_true, ← UInt8.toNat_inj, UInt32.toNat_toUInt8,
    UInt32.toNat_shiftRight, UInt32.reduceToNat, Nat.shiftRight_eq_div_pow,
    Nat.reduceMod, Nat.reducePow] at h
  rw [← UInt32.toNat_inj]
  have hx := x.toNat_lt
  have hy := y.toNat_lt
  omega

theorem append_be32_inj {n : ℕ} {a b : Bytes n} {x y : UInt32}
    (h : a.data ++ be32 x = b.data ++ be32 y) : a = b ∧ x = y := by
  obtain ⟨hdata, hword⟩ := List.append_inj h (a.length.trans b.length.symm)
  exact ⟨Bytes.ext hdata, be32_injective hword⟩

def hex (bs : List UInt8) : String :=
  String.ofList (bs.flatMap fun b => [Nat.digitChar (b.toNat / 16), Nat.digitChar (b.toNat % 16)])

end Wavelength
