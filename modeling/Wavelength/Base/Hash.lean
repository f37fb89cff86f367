import Mathlib.Data.List.Sort
import Mathlib.Order.Lex
import Mathlib.Data.List.Lex
import Wavelength.Base.Bytes

/-! # Transaction hashes

Hashes are compared byte by byte. Sorting them makes what is computed from a map independent of the
order in which the map is walked.
-/

namespace Wavelength

variable {n : ℕ}

def Bytes.digits (a : Bytes n) : List ℕ := a.data.map UInt8.toNat

theorem Bytes.digits_injective : Function.Injective (digits : Bytes n → List ℕ) := fun _ _ h =>
  Bytes.ext (List.map_injective_iff.2 (fun _ _ => UInt8.toNat_inj.1) h)

instance : LinearOrder (Bytes n) where
  __ := PartialOrder.lift Bytes.digits Bytes.digits_injective
  le_total a b := le_total a.digits b.digits
  toDecidableLE a b := inferInstanceAs (Decidable (a.digits ≤ b.digits))
  toDecidableEq := inferInstance

abbrev Hash := Bytes 32

def sortHashes (hashes : List Hash) : List Hash := hashes.insertionSort (· ≤ ·)

theorem sortHashes_perm (hashes : List Hash) : (sortHashes hashes).Perm hashes :=
  List.perm_insertionSort _ hashes

@[simp] theorem mem_sortHashes :
    x ∈ sortHashes hashes ↔ x ∈ hashes := (sortHashes_perm hashes).mem_iff

theorem sortHashes_nodup (h : hashes.Nodup) : (sortHashes hashes).Nodup :=
  (sortHashes_perm hashes).nodup_iff.2 h

end Wavelength
