import Mathlib.Algebra.Group.Int.Defs
import Mathlib.Algebra.Group.Nat.Defs
import Mathlib.Tactic.Common

/-!
# C integer conversions

Values of unsigned C types are naturals below the type's bound, and an operation that may pass the
bound is written with its reduction: `ulong` for 64 bits, `uint` for 32. `toInt` is the conversion
of an unsigned value to a signed 32-bit `int` (two's complement), `intToUlong` the conversion of an
`int` to 64 unsigned bits.
-/

namespace CInt

/-- Reduction to `unsigned long`. -/
def ulong (x : Nat) : Nat := x % 2 ^ 64

/-- Reduction to `unsigned int`. -/
def uint (x : Nat) : Nat := x % 2 ^ 32

/-- Conversion of an unsigned value to `int`. -/
def toInt (x : Nat) : Int := Int.bmod (x : Int) (2 ^ 32)

/-- Conversion of an `int` to `unsigned long`. -/
def intToUlong (x : Int) : Nat := (x % 2 ^ 64).toNat

theorem ulong_of_lt {x : Nat} (h : x < 2 ^ 64) : ulong x = x := Nat.mod_eq_of_lt h

theorem toInt_of_lt {x : Nat} (h : x < 2 ^ 31) : toInt x = x := by
  unfold toInt
  rw [Int.bmod_def]
  have h1 : (x : Int) % ((2 ^ 32 : Nat) : Int) = x := by
    apply Int.emod_eq_of_lt <;> omega
  rw [h1, if_pos (by omega)]

theorem toInt_eq_iff {n m : Nat} (hm : m < 2 ^ 31) : toInt n = m ↔ ∃ i, n = m + 2 ^ 32 * i := by
  unfold toInt
  rw [Int.bmod_def]
  constructor
  · intro h
    refine ⟨n / 2 ^ 32, ?_⟩
    split at h <;> omega
  · rintro ⟨i, rfl⟩
    split <;> omega

theorem intToUlong_ofNat {x : Nat} (h : x < 2 ^ 64) : intToUlong x = x := by
  unfold intToUlong
  omega

end CInt
