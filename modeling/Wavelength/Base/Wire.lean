import Mathlib.Data.Nat.Notation

/-! # Outpoints and scripts -/

namespace Wavelength

abbrev Script := List UInt8

structure OutPoint where
  hash : ℕ
  index : ℕ
  deriving DecidableEq

end Wavelength
