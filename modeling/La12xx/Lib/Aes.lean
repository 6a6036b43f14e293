/-
# The cipher AES-128

The cipher on a state of four rows and four columns of elements of GF(2^8): the
S-box is an affine map of the inverse, the columns are multiplied by a circulant
matrix over the field, and the key is expanded word by word, with a power of `x`
added to every fourth word. Nothing is tabulated. What an implementation computes
with shifts is compared by `sBox_eq`, `mixColumns_apply` and `ofGf_x_pow`.
-/
import La12xx.Lib.Gf256

namespace La12xx
namespace Aes

open Gf256

abbrev State := Matrix (Fin 4) (Fin 4) (BitVec 8)

abbrev Word := Fin 4 → BitVec 8

/-- Byte `4c + r` of a block is in row `r` and column `c`. -/
def load (l : List (BitVec 8)) : State := fun r c => l.getD (4 * c + r) 0

def store (s : State) : List (BitVec 8) := List.ofFn fun i : Fin 16 => s (Fin.ofNat 4 i) (Fin.ofNat 4 (i / 4))

/-! ### Rounds -/

/-- Bit `i` becomes the sum of the bits `i`, `i + 4` to `i + 7`, and bit `i` of `0x63`. -/
def affine (b : BitVec 8) : BitVec 8 :=
  b ^^^ b.rotateLeft 4 ^^^ b.rotateLeft 3 ^^^ b.rotateLeft 2 ^^^ b.rotateLeft 1 ^^^ 0x63

noncomputable def sBox (a : BitVec 8) : BitVec 8 := affine (ofGf (Ring.inverse (toGf a)))

noncomputable def subBytes (s : State) : State := s.map sBox

/-- Row `r` is rotated left by `r`. -/
def shiftRows (s : State) : State := fun r c => s r (c + r)

/-- The matrix with the rows `2 3 1 1`, `1 2 3 1`, `1 1 2 3` and `3 1 1 2`. -/
noncomputable def mixMatrix : Matrix (Fin 4) (Fin 4) Gf := (Matrix.circulant ![x, x + 1, 1, 1]).transpose

noncomputable def mixColumns (s : State) : State := (mixMatrix * s.map toGf).map ofGf

def addRoundKey (s k : State) : State := fun r c => s r c ^^^ k r c

/-! ### Keys -/

/-- `x ^ (j - 1)` in the first byte. -/
noncomputable def rcon (j : ℕ) : Word := fun r => if r = 0 then ofGf (x ^ (j - 1)) else 0

def rotWord (w : Word) : Word := fun r => w (r + 1)

noncomputable def subWord (w : Word) : Word := fun r => sBox (w r)

/-- Word `i` of the expanded key. -/
noncomputable def word (key : List (BitVec 8)) (i : ℕ) : Word :=
  if i < 4 then fun r => key.getD (4 * i + r) 0
  else if i % 4 = 0 then fun r => word key (i - 4) r ^^^ subWord (rotWord (word key (i - 1))) r ^^^ rcon (i / 4) r
  else fun r => word key (i - 4) r ^^^ word key (i - 1) r

/-- The words `4n` to `4n + 3`. -/
noncomputable def roundKey (key : List (BitVec 8)) (n : ℕ) : State := fun r c => word key (4 * n + c) r

/-! ### The cipher -/

/-- The state after `n` of the rounds that mix columns. -/
noncomputable def rounds (key input : List (BitVec 8)) : ℕ → State
  | 0 => addRoundKey (load input) (roundKey key 0)
  | n + 1 => addRoundKey (mixColumns (shiftRows (subBytes (rounds key input n)))) (roundKey key (n + 1))

noncomputable def encrypt (key input : List (BitVec 8)) : List (BitVec 8) :=
  store (addRoundKey (shiftRows (subBytes (rounds key input 9))) (roundKey key 10))

/-! ### In terms of bytes -/

theorem sBox_eq (a : BitVec 8) : sBox a = affine (inv a) := by rw [sBox, ← toGf_inv, ofGf_toGf]

theorem toGf_three_mul (a : BitVec 8) : toGf (shift a ^^^ a) = (x + 1) * toGf a := by
  rw [toGf_xor, toGf_shift]
  ring

theorem mixColumns_apply (s : State) (r c : Fin 4) :
    mixColumns s r c = shift (s r c) ^^^ (shift (s (r + 1) c) ^^^ s (r + 1) c) ^^^ s (r + 2) c ^^^ s (r + 3) c := by
  have hsum : (mixMatrix * s.map toGf) r c =
      x * toGf (s r c) + (x + 1) * toGf (s (r + 1) c) + toGf (s (r + 2) c) + toGf (s (r + 3) c) := by
    rw [Matrix.mul_apply, Fin.sum_univ_four]
    simp only [mixMatrix, Matrix.transpose_apply, Matrix.circulant_apply, Matrix.map_apply]
    fin_cases r <;> simp <;> ring
  show ofGf ((mixMatrix * s.map toGf) r c) = _
  rw [hsum, ← toGf_shift, ← toGf_three_mul, ← toGf_xor, ← toGf_xor, ← toGf_xor, ofGf_toGf]

theorem shift_xor (a b : BitVec 8) : shift (a ^^^ b) = shift a ^^^ shift b := by
  apply toGf_injective
  rw [toGf_shift, toGf_xor, toGf_xor, toGf_shift, toGf_shift]
  ring

theorem ofGf_x_pow (n : ℕ) : ofGf (x ^ n) = shift^[n] 1 := by
  have hpow : x ^ n = toGf (shift^[n] 1) := by
    induction n with
    | zero => exact toGf_one.symm
    | succ n ih => rw [Function.iterate_succ_apply', toGf_shift, ← ih, pow_succ']
  rw [hpow, ofGf_toGf]

theorem word_of_lt (key : List (BitVec 8)) {i : ℕ} (h : i < 4) (r : Fin 4) : word key i r = key.getD (4 * i + r) 0 := by
  rw [word, if_pos h]

/-- The first word of a round key. -/
theorem word_first (key : List (BitVec 8)) (n : ℕ) (r : Fin 4) :
    word key (4 * (n + 1)) r =
      word key (4 * n) r ^^^ sBox (word key (4 * n + 3) (r + 1)) ^^^ if r = 0 then shift^[n] 1 else 0 := by
  have h0 : ¬ 4 * (n + 1) < 4 := by omega
  have h4 : 4 * (n + 1) % 4 = 0 := Nat.mul_mod_right 4 (n + 1)
  have hdiv : 4 * (n + 1) / 4 - 1 = n := by omega
  rw [word, if_neg h0, if_pos h4, show 4 * (n + 1) - 4 = 4 * n by omega, show 4 * (n + 1) - 1 = 4 * n + 3 by omega]
  simp only [subWord, rotWord, rcon, hdiv, ofGf_x_pow]

/-- The other words of a round key. -/
theorem word_next (key : List (BitVec 8)) (n : ℕ) {c : ℕ} (hc : c < 3) (r : Fin 4) :
    word key (4 * (n + 1) + (c + 1)) r = word key (4 * n + (c + 1)) r ^^^ word key (4 * (n + 1) + c) r := by
  have h0 : ¬ 4 * (n + 1) + (c + 1) < 4 := by omega
  have h4 : ¬ (4 * (n + 1) + (c + 1)) % 4 = 0 := by omega
  rw [word, if_neg h0, if_neg h4, show 4 * (n + 1) + (c + 1) - 4 = 4 * n + (c + 1) by omega,
    show 4 * (n + 1) + (c + 1) - 1 = 4 * (n + 1) + c by omega]

end Aes
end La12xx
