/-
# Milenage

`aka_functions.c`: the block cipher and the functions `f1`, `f1*`, `f2` to `f5`
and `f5*` of authentication and key agreement, as the library computes them. A
`state[4][4]` is the list of its sixteen bytes in the order of the input bytes,
column after column: `state[i & 3][i >> 2]` is byte `i`. The round keys, which
the source keeps in a global array that each function fills first, are passed.
-/
import La12xx.Lib.ByteMem

namespace La12xx
namespace Usim

open ByteMem

namespace Milenage

/-! ### Lists of bytes -/

/-- The exclusive or of the first `n` bytes. -/
def xorBytes (n : ℕ) (a b : List Byte) : List Byte :=
  (List.range n).map fun i : ℕ => a.getD i 0 ^^^ b.getD i 0

@[simp] theorem length_xorBytes (n : ℕ) (a b : List Byte) : (xorBytes n a b).length = n := by
  simp [xorBytes]

theorem xorBytes_append {n : ℕ} {a : List Byte} (t b : List Byte) (ha : a.length = n) :
    xorBytes n (a ++ t) b = xorBytes n a b := by
  apply List.map_congr_left
  intro i hi
  rw [List.getD_append _ _ _ _ (ha ▸ List.mem_range.mp hi)]

/-- What is concealed by an exclusive or is retrieved by the same one. -/
theorem xorBytes_cancel {n : ℕ} {a : List Byte} (ha : a.length = n) (b : List Byte) :
    xorBytes n (xorBytes n a b) b = a := by
  apply List.ext_getElem
  · rw [length_xorBytes, ha]
  · intro i hi hi'
    have hn : i < n := by omega
    simp [xorBytes, hn, hi']

/-- The loops that store byte `i` at `(i + n) % 16`. -/
def rotate (n : ℕ) (a : List Byte) : List Byte :=
  (List.range 16).map fun i : ℕ => a.getD ((i + (16 - n)) % 16) 0

/-! ### The block cipher -/

/-- `S` -/
def sBox : List Byte :=
  [99, 124, 119, 123, 242, 107, 111, 197, 48, 1, 103, 43, 254, 215, 171, 118,
   202, 130, 201, 125, 250, 89, 71, 240, 173, 212, 162, 175, 156, 164, 114, 192,
   183, 253, 147, 38, 54, 63, 247, 204, 52, 165, 229, 241, 113, 216, 49, 21,
   4, 199, 35, 195, 24, 150, 5, 154, 7, 18, 128, 226, 235, 39, 178, 117,
   9, 131, 44, 26, 27, 110, 90, 160, 82, 59, 214, 179, 41, 227, 47, 132,
   83, 209, 0, 237, 32, 252, 177, 91, 106, 203, 190, 57, 74, 76, 88, 207,
   208, 239, 170, 251, 67, 77, 51, 133, 69, 249, 2, 127, 80, 60, 159, 168,
   81, 163, 64, 143, 146, 157, 56, 245, 188, 182, 218, 33, 16, 255, 243, 210,
   205, 12, 19, 236, 95, 151, 68, 23, 196, 167, 126, 61, 100, 93, 25, 115,
   96, 129, 79, 220, 34, 42, 144, 136, 70, 238, 184, 20, 222, 94, 11, 219,
   224, 50, 58, 10, 73, 6, 36, 92, 194, 211, 172, 98, 145, 149, 228, 121,
   231, 200, 55, 109, 141, 213, 78, 169, 108, 86, 244, 234, 101, 122, 174, 8,
   186, 120, 37, 46, 28, 166, 180, 198, 232, 221, 116, 31, 75, 189, 139, 138,
   112, 62, 181, 102, 72, 3, 246, 14, 97, 53, 87, 185, 134, 193, 29, 158,
   225, 248, 152, 17, 105, 217, 142, 148, 155, 30, 135, 233, 206, 85, 40, 223,
   140, 161, 137, 13, 191, 230, 66, 104, 65, 153, 45, 15, 176, 84, 187, 22]

/-- `Xtime`: the multiplication by x in GF(2^8) -/
def xtimes : List Byte :=
  [0, 2, 4, 6, 8, 10, 12, 14, 16, 18, 20, 22, 24, 26, 28, 30,
   32, 34, 36, 38, 40, 42, 44, 46, 48, 50, 52, 54, 56, 58, 60, 62,
   64, 66, 68, 70, 72, 74, 76, 78, 80, 82, 84, 86, 88, 90, 92, 94,
   96, 98, 100, 102, 104, 106, 108, 110, 112, 114, 116, 118, 120, 122, 124, 126,
   128, 130, 132, 134, 136, 138, 140, 142, 144, 146, 148, 150, 152, 154, 156, 158,
   160, 162, 164, 166, 168, 170, 172, 174, 176, 178, 180, 182, 184, 186, 188, 190,
   192, 194, 196, 198, 200, 202, 204, 206, 208, 210, 212, 214, 216, 218, 220, 222,
   224, 226, 228, 230, 232, 234, 236, 238, 240, 242, 244, 246, 248, 250, 252, 254,
   27, 25, 31, 29, 19, 17, 23, 21, 11, 9, 15, 13, 3, 1, 7, 5,
   59, 57, 63, 61, 51, 49, 55, 53, 43, 41, 47, 45, 35, 33, 39, 37,
   91, 89, 95, 93, 83, 81, 87, 85, 75, 73, 79, 77, 67, 65, 71, 69,
   123, 121, 127, 125, 115, 113, 119, 117, 107, 105, 111, 109, 99, 97, 103, 101,
   155, 153, 159, 157, 147, 145, 151, 149, 139, 137, 143, 141, 131, 129, 135, 133,
   187, 185, 191, 189, 179, 177, 183, 181, 171, 169, 175, 173, 163, 161, 167, 165,
   219, 217, 223, 221, 211, 209, 215, 213, 203, 201, 207, 205, 195, 193, 199, 197,
   251, 249, 255, 253, 243, 241, 247, 245, 235, 233, 239, 237, 227, 225, 231, 229]

def sub (x : Byte) : Byte := sBox.getD x.toNat 0

def xtime (x : Byte) : Byte := xtimes.getD x.toNat 0

/-- `state[i][j]` -/
def entry (state : List Byte) (i j : ℕ) : Byte := state.getD (4 * j + i) 0

/-- The state with the given entries. -/
def block (f : ℕ → ℕ → Byte) : List Byte := (List.range 16).map fun i : ℕ => f (i % 4) (i / 4)

/-- The first column of the next round key. -/
def firstColumn (key : List Byte) (roundConst : Byte) (i : ℕ) : Byte :=
  sub (entry key ((i + 1) % 4) 3) ^^^ entry key i 0 ^^^ if i = 0 then roundConst else 0

/-- The next round key: each further column is the one before it and the same
column of the last round key. -/
def nextRoundKey (key : List Byte) (roundConst : Byte) : List Byte :=
  let column1 := fun i => entry key i 1 ^^^ firstColumn key roundConst i
  let column2 := fun i => entry key i 2 ^^^ column1 i
  let column3 := fun i => entry key i 3 ^^^ column2 i
  block fun i j =>
    if j = 0 then firstColumn key roundConst i
    else if j = 1 then column1 i
    else if j = 2 then column2 i
    else column3 i

/-- `n` round keys after `key`. -/
def roundKeysFrom : ℕ → List Byte → Byte → List (List Byte)
  | 0, _, _ => []
  | n + 1, key, roundConst =>
    let next := nextRoundKey key roundConst
    next :: roundKeysFrom n next (xtime roundConst)

/-- `RijndaelKeySchedule` -/
def rijndaelKeySchedule (key : List Byte) : List (List Byte) := key :: roundKeysFrom 10 key 1

/-- `KeyAdd` -/
def keyAdd (state : List Byte) (roundKey : List Byte) : List Byte :=
  block fun i j => entry state i j ^^^ entry roundKey i j

/-- `ByteSub` -/
def byteSub (state : List Byte) : List Byte := block fun i j => sub (entry state i j)

/-- `ShiftRow`: row `i` is rotated left by `i`. -/
def shiftRow (state : List Byte) : List Byte := block fun i j => entry state i ((j + i) % 4)

/-- `MixColumn` -/
def mixColumn (state : List Byte) : List Byte :=
  block fun i j =>
    let temp := entry state 0 j ^^^ entry state 1 j ^^^ entry state 2 j ^^^ entry state 3 j
    let tmp := xtime (entry state i j ^^^ entry state ((i + 1) % 4) j)
    entry state i j ^^^ (temp ^^^ tmp)

/-- `RijndaelEncrypt` -/
def rijndaelEncrypt (roundKeys : List (List Byte)) (input : List Byte) : List Byte :=
  let state := keyAdd input (roundKeys.getD 0 [])
  let state := ((roundKeys.drop 1).take 9).foldl (fun state key => keyAdd (mixColumn (shiftRow (byteSub state))) key) state
  keyAdd (shiftRow (byteSub state)) (roundKeys.getD 10 [])

/-! ### The functions f1 to f5* -/

section Functions

variable (k rand : List Byte)

/-- `temp`, which all the functions compute first -/
def temp (opC : List Byte) : List Byte := rijndaelEncrypt (rijndaelKeySchedule k) (xorBytes 16 rand opC)

/-- `out1` of `f1` and `f1star` -/
def out1 (sqn amf opC : List Byte) : List Byte :=
  let in1 := sqn ++ amf ++ sqn ++ amf
  let rijndaelInput := xorBytes 16 (rotate 8 (xorBytes 16 in1 opC)) (temp k rand opC)
  xorBytes 16 (rijndaelEncrypt (rijndaelKeySchedule k) rijndaelInput) opC

/-- `f1`: the code MAC-A -/
def f1 (sqn amf opC : List Byte) : List Byte := (out1 k rand sqn amf opC).take 8

/-- `f1star`: the code MAC-S -/
def f1star (sqn amf opC : List Byte) : List Byte := (out1 k rand sqn amf opC).drop 8

/-- An output block of `f2345` and `f5star`: OPc and `temp` are rotated by `r`
bytes, and the last byte gets the constant `c`. -/
def out (r : ℕ) (c : Byte) (opC : List Byte) : List Byte :=
  let rijndaelInput := (rotate r (xorBytes 16 (temp k rand opC) opC)).modify 15 (· ^^^ c)
  xorBytes 16 (rijndaelEncrypt (rijndaelKeySchedule k) rijndaelInput) opC

/-- What `f2345` computes. -/
structure Keys where
  res : List Byte
  ck : List Byte
  ik : List Byte
  ak : List Byte
deriving DecidableEq, Repr

/-- `f2345` -/
def f2345 (opC : List Byte) : Keys where
  res := (out k rand 0 1 opC).drop 8
  ck := out k rand 12 2 opC
  ik := out k rand 8 4 opC
  ak := (out k rand 0 1 opC).take 6

/-- `f5star` -/
def f5star (opC : List Byte) : List Byte := (out k rand 4 8 opC).take 6

end Functions

theorem length_f1 (k rand sqn amf opC : List Byte) : (f1 k rand sqn amf opC).length = 8 := by
  simp [f1, out1]

end Milenage
end Usim
end La12xx
