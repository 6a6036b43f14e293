/-
# C integer conversions

A C integer is the integer it denotes. Arithmetic is over `ℤ`; what the
type of the result does to it is a conversion: `toU32` and `toU64` reduce
modulo the width, `toS32` takes the representative the signed type holds.
Where a word is masked it is a `BitVec`.
-/
import Mathlib

namespace La12xx

/-- Conversion to `u32`. -/
def toU32 (x : ℤ) : ℤ := x % 2 ^ 32

/-- Conversion to `u64`. -/
def toU64 (x : ℤ) : ℤ := x % 2 ^ 64

/-- Conversion to `int`. -/
def toS32 (x : ℤ) : ℤ := (x + 2 ^ 31) % 2 ^ 32 - 2 ^ 31

theorem toU32_bounds (x : ℤ) : 0 ≤ toU32 x ∧ toU32 x < 2 ^ 32 := by
  unfold toU32; omega

theorem toU32_of_lt {x : ℤ} (h0 : 0 ≤ x) (h : x < 2 ^ 32) : toU32 x = x := Int.emod_eq_of_lt h0 h

theorem toU64_of_lt {x : ℤ} (h0 : 0 ≤ x) (h : x < 2 ^ 64) : toU64 x = x := Int.emod_eq_of_lt h0 h

theorem toS32_of_lt {x : ℤ} (h0 : -2 ^ 31 ≤ x) (h : x < 2 ^ 31) : toS32 x = x := by
  unfold toS32; omega

/-- Passing an `int` where an `unsigned int` is expected. -/
theorem toU32_toS32 (x : ℤ) : toU32 (toS32 x) = toU32 x := by
  unfold toU32 toS32; omega

/-- Clearing the low `k` bits. -/
theorem and_not_mask {w : ℕ} (y : BitVec w) (k : ℕ) :
    y &&& ~~~ BitVec.ofNat w (2 ^ k - 1) = (y >>> k) <<< k := by
  apply BitVec.eq_of_getLsbD_eq
  intro i hi
  rw [BitVec.getLsbD_and, BitVec.getLsbD_not, BitVec.getLsbD_ofNat, Nat.testBit_two_pow_sub_one,
    BitVec.getLsbD_shiftLeft, BitVec.getLsbD_ushiftRight]
  by_cases hk : i < k
  · simp [hi, hk]
  · simp [hi, hk, Nat.add_sub_cancel' (Nat.le_of_not_lt hk)]

end La12xx
