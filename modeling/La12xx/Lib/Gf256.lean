/-
# Bytes as elements of GF(2^8)

The field is the quotient of the polynomials over the field of two elements by
`x^8 + x^4 + x^3 + x + 1`, and a byte is the polynomial whose coefficients are its
bits (`toGf`). On bytes the multiplication by `x` is a shift with a reduction
(`shift`), a product is a sum of shifts (`mul`), and the inverse a power (`inv`):
`toGf_mul`, `toGf_inv`. That every byte but zero has an inverse is seen by trying
them; so no two bytes are the same element (`toGf_injective`).
-/
import Mathlib

namespace La12xx
namespace Gf256

open Polynomial

/-- The polynomial of the reduction. -/
noncomputable def modulus : (ZMod 2)[X] := X ^ 8 + X ^ 4 + X ^ 3 + X + 1

abbrev Gf : Type := AdjoinRoot modulus

/-- The element `x`. -/
noncomputable def x : Gf := AdjoinRoot.root modulus

/-- The polynomial with the bits of a byte. -/
noncomputable def toGf (a : BitVec 8) : Gf := ∑ i ∈ Finset.range 8, if a.getLsbD i then x ^ i else 0

/-! ### Arithmetic on bytes -/

/-- The multiplication by `x`. -/
def shift (a : BitVec 8) : BitVec 8 := a <<< 1 ^^^ if a.getLsbD 7 then 0x1b else 0

/-- The product of `a` and the lowest `n` bits of `b`. -/
def mulBits : ℕ → BitVec 8 → BitVec 8 → BitVec 8
  | 0, _, _ => 0
  | n + 1, a, b => (if b.getLsbD 0 then a else 0) ^^^ mulBits n (shift a) (b >>> 1)

def mul (a b : BitVec 8) : BitVec 8 := mulBits 8 a b

/-- The power with exponent 254, as the product of the squares. -/
def inv (a : BitVec 8) : BitVec 8 :=
  let a2 := mul a a
  let a4 := mul a2 a2
  let a8 := mul a4 a4
  let a16 := mul a8 a8
  let a32 := mul a16 a16
  let a64 := mul a32 a32
  let a128 := mul a64 a64
  mul a2 (mul a4 (mul a8 (mul a16 (mul a32 (mul a64 a128)))))

theorem mul_inv : ∀ a, a ≠ 0 → mul a (inv a) = 1 := by decide +kernel

/-! ### They are those of the field -/

theorem natDegree_modulus : modulus.natDegree = 8 := by
  unfold modulus
  compute_degree!

instance : Nontrivial Gf := by
  apply AdjoinRoot.nontrivial
  intro h
  have h8 := natDegree_modulus
  rw [natDegree_eq_zero_iff_degree_le_zero.mpr h.le] at h8
  exact absurd h8 (by decide)

theorem x_pow_eight : x ^ 8 = x ^ 4 + x ^ 3 + x + 1 := by
  have hmk : AdjoinRoot.mk modulus (X ^ 8 + X ^ 4 + X ^ 3 + X + 1) = 0 := AdjoinRoot.mk_self
  simp only [map_add, map_pow, map_one, AdjoinRoot.mk_X] at hmk
  have hsum : x ^ 8 + (x ^ 4 + x ^ 3 + x + 1) = 0 := by
    rw [← hmk]
    unfold x
    ring
  rw [← sub_eq_zero, ZModModule.sub_eq_add]
  exact hsum

@[simp] theorem toGf_zero : toGf 0 = 0 := by simp [toGf]

@[simp] theorem toGf_one : toGf 1 = 1 := by simp [toGf]

theorem toGf_xor (a b : BitVec 8) : toGf (a ^^^ b) = toGf a + toGf b := by
  unfold toGf
  rw [← Finset.sum_add_distrib]
  apply Finset.sum_congr rfl
  intro i _
  rw [BitVec.getLsbD_xor]
  cases a.getLsbD i <;> cases b.getLsbD i <;> simp [ZModModule.add_self]

theorem toGf_shift (a : BitVec 8) : toGf (shift a) = x * toGf a := by
  have hlow : toGf (a <<< 1) = ∑ i ∈ Finset.range 7, if a.getLsbD i then x ^ (i + 1) else 0 := by
    rw [toGf, Finset.sum_range_succ']
    have hzero : (a <<< 1).getLsbD 0 = false := by simp
    rw [hzero]
    simp only [Bool.false_eq_true, if_false, add_zero]
    apply Finset.sum_congr rfl
    intro i hi
    have hi7 : i < 7 := Finset.mem_range.mp hi
    have hbit : (a <<< 1).getLsbD (i + 1) = a.getLsbD i := by
      have hi8 : i + 1 < 8 := Nat.succ_lt_succ hi7
      rw [BitVec.getLsbD_shiftLeft]
      simp [hi8]
    rw [hbit]
  have hhigh : toGf (if a.getLsbD 7 then 0x1b else 0) = if a.getLsbD 7 then x ^ 8 else 0 := by
    rw [x_pow_eight]
    split
    · simp [toGf, Finset.sum_range_succ]
      ring
    · exact toGf_zero
  have hprod : x * toGf a = (∑ i ∈ Finset.range 7, if a.getLsbD i then x ^ (i + 1) else 0) +
      if a.getLsbD 7 then x ^ 8 else 0 := by
    rw [toGf, Finset.mul_sum, Finset.sum_range_succ]
    congr 1
    · apply Finset.sum_congr rfl
      intro i _
      rw [mul_ite, mul_zero, pow_succ']
    · rw [mul_ite, mul_zero, ← pow_succ']
  rw [shift, toGf_xor, hlow, hhigh, hprod]

theorem toGf_mulBits (n : ℕ) (a b : BitVec 8) :
    toGf (mulBits n a b) = toGf a * ∑ i ∈ Finset.range n, if b.getLsbD i then x ^ i else 0 := by
  induction n generalizing a b with
  | zero =>
    rw [mulBits, Finset.sum_range_zero, mul_zero]
    exact toGf_zero
  | succ n ih =>
    have hsum : (∑ i ∈ Finset.range n, if b.getLsbD (i + 1) then x ^ (i + 1) else 0) =
        x * ∑ i ∈ Finset.range n, if (b >>> 1).getLsbD i then x ^ i else 0 := by
      rw [Finset.mul_sum]
      apply Finset.sum_congr rfl
      intro i _
      rw [BitVec.getLsbD_ushiftRight, Nat.add_comm 1 i, mul_ite, mul_zero, pow_succ']
    rw [mulBits, toGf_xor, ih, toGf_shift, Finset.sum_range_succ', hsum, pow_zero]
    split
    · ring
    · rw [toGf_zero]
      ring

theorem toGf_mul (a b : BitVec 8) : toGf (mul a b) = toGf a * toGf b := toGf_mulBits 8 a b

theorem toGf_injective : Function.Injective toGf := by
  intro a b hab
  by_contra hne
  have hxor : a ^^^ b ≠ 0 := fun h => hne (BitVec.xor_eq_zero_iff.mp h)
  have hone : toGf (a ^^^ b) * toGf (inv (a ^^^ b)) = 1 := by
    rw [← toGf_mul, mul_inv _ hxor, toGf_one]
  rw [toGf_xor, hab, ZModModule.add_self, zero_mul] at hone
  exact zero_ne_one hone

theorem toGf_inv (a : BitVec 8) : toGf (inv a) = Ring.inverse (toGf a) := by
  by_cases ha : a = 0
  · have hzero : inv 0 = 0 := by decide +kernel
    rw [ha, hzero, toGf_zero, Ring.inverse_zero]
  · have hone : toGf a * toGf (inv a) = 1 := by rw [← toGf_mul, mul_inv a ha, toGf_one]
    have hinv : Invertible (toGf a) := ⟨toGf (inv a), by rw [mul_comm]; exact hone, hone⟩
    rw [Ring.inverse_invertible]
    exact (invOf_eq_right_inv hone).symm

/-- The byte of an element. -/
noncomputable def ofGf : Gf → BitVec 8 := Function.invFun toGf

@[simp] theorem ofGf_toGf (a : BitVec 8) : ofGf (toGf a) = a := Function.leftInverse_invFun toGf_injective a

end Gf256
end La12xx
