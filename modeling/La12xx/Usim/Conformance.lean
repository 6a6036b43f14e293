/-
# Conformance of the Milenage functions

`f1`, `f1star`, `f2345` and `f5star` of `aka_functions.c` with what they share: each
fills the global `roundKeys` and leaves it to the next. Against them stand the
formulas of TS 35.206, over any block cipher (`temp` to `out`), taken with AES-128.
Every call in every order answers by the formulas, whatever the array held at first
(`aka_conforms`). As the loops that store at a rotated index go to the right,
`storeRotated_eq` turns their indices into rotations to the left. The functions of
`Milenage` are the formulas too (`milenage_out1`, `milenage_out`).
-/
import La12xx.Lib.Machine
import La12xx.Usim.Library
import La12xx.Usim.Rijndael

namespace La12xx
namespace Usim

open ByteMem

namespace Conformance

open Rijndael (RoundKeys)

/-! ### The formulas -/

section Formulas

variable (E : List Byte → List Byte) (rand opC : List Byte)

/-- The exclusive or of two blocks. -/
def xor (a b : List Byte) : List Byte := List.zipWith (· ^^^ ·) a b

/-- A block rotated by `r` bits, a number of whole bytes, to the left. -/
def rot (x : List Byte) (r : ℕ) : List Byte := x.rotate (r / 8)

/-- TEMP -/
def temp : List Byte := E (xor rand opC)

/-- OUT1; the constant `c1` is zero. -/
def out1 (sqn amf : List Byte) : List Byte :=
  xor (E (xor (temp E rand opC) (rot (xor (sqn ++ amf ++ sqn ++ amf) opC) 64))) opC

/-- OUT2 to OUT5, with the rotation `r` and the last byte `c` of the constant. -/
def out (r : ℕ) (c : Byte) : List Byte :=
  xor (E (xor (rot (xor (temp E rand opC) opC) r) (List.replicate 15 0 ++ [c]))) opC

end Formulas

/-! ### Calls -/

/-- The function that is called, with the arguments not all of them take. -/
inductive Call where
  | f1 (sqn : Field 6) (amf : Field 2)
  | f1star (sqn : Field 6) (amf : Field 2)
  | f2345
  | f5star

/-- What a call stores through its pointers. -/
inductive Answer where
  | macA (mac : List Byte)
  | macS (mac : List Byte)
  | keys (res ck ik ak : List Byte)
  | akStar (ak : List Byte)
deriving DecidableEq

/-- What the formulas say with the cipher `E` under the key of the call. -/
def formula (E : List Byte → List Byte) (rand opC : List Byte) : Call → Answer
  | .f1 sqn amf => .macA ((out1 E rand opC sqn.1 amf.1).take 8)
  | .f1star sqn amf => .macS ((out1 E rand opC sqn.1 amf.1).drop 8)
  | .f2345 =>
    .keys ((out E rand opC 0 1).drop 8) (out E rand opC 32 2) (out E rand opC 64 4) ((out E rand opC 0 1).take 6)
  | .f5star => .akStar ((out E rand opC 96 8).take 6)

/-! ### The code -/

section Code

variable (k rand opC : List Byte)

/-- The loop that stores `a[i] ^ b[i]` at `(i + n) % 16`. -/
def storeRotated (n : ℕ) (a b : List Byte) (buf : List Byte) : List Byte :=
  loop 16 (fun i buf => buf.set ((i + n) % 16) (a.getD i 0 ^^^ b.getD i 0)) buf

/-- The loop that adds `b[i]` to `buf[i]`. -/
def addTo (b : List Byte) (buf : List Byte) : List Byte :=
  loop 16 (fun i buf => buf.set i (buf.getD i 0 ^^^ b.getD i 0)) buf

/-- A local array of sixteen bytes before it is written; no function reads it before. -/
def local16 : List Byte := List.replicate 16 0

/-- The loops that lay out `in1`. -/
def layOut (sqn amf : List Byte) : List Byte :=
  let in1 := loop 6 (fun i in1 => (in1.set i (sqn.getD i 0)).set (i + 8) (sqn.getD i 0)) local16
  loop 2 (fun i in1 => (in1.set (i + 6) (amf.getD i 0)).set (i + 14) (amf.getD i 0)) in1

/-- The array `out1` of `f1` and `f1star`. -/
def codeOut1 (g : RoundKeys) (sqn amf : List Byte) : List Byte :=
  let rijndaelInput := storeRotated 0 rand opC local16
  let temp := Rijndael.rijndaelEncrypt g rijndaelInput
  let in1 := layOut sqn amf
  let rijndaelInput := storeRotated 8 in1 opC rijndaelInput
  let rijndaelInput := addTo temp rijndaelInput
  let out1 := Rijndael.rijndaelEncrypt g rijndaelInput
  addTo opC out1

/-- The part of `f2345` and `f5star` that computes one output: `rijndaelInput`, as it
was left by the part before, and `out`. -/
def codeOut (g : RoundKeys) (temp : List Byte) (n : ℕ) (c : Byte) (rijndaelInput : List Byte) :
    List Byte × List Byte :=
  let rijndaelInput := storeRotated n temp opC rijndaelInput
  let rijndaelInput := rijndaelInput.set 15 (rijndaelInput.getD 15 0 ^^^ c)
  let out := Rijndael.rijndaelEncrypt g rijndaelInput
  (rijndaelInput, addTo opC out)

/-- `f1` -/
def f1 (sqn amf : List Byte) (g : RoundKeys) : RoundKeys × Answer :=
  let g := Rijndael.rijndaelKeySchedule k g
  (g, .macA ((codeOut1 rand opC g sqn amf).take 8))

/-- `f1star` -/
def f1star (sqn amf : List Byte) (g : RoundKeys) : RoundKeys × Answer :=
  let g := Rijndael.rijndaelKeySchedule k g
  (g, .macS ((codeOut1 rand opC g sqn amf).drop 8))

/-- `f2345` -/
def f2345 (g : RoundKeys) : RoundKeys × Answer :=
  let g := Rijndael.rijndaelKeySchedule k g
  let rijndaelInput := storeRotated 0 rand opC local16
  let temp := Rijndael.rijndaelEncrypt g rijndaelInput
  let out2 := codeOut opC g temp 0 1 rijndaelInput
  let out3 := codeOut opC g temp 12 2 out2.1
  let out4 := codeOut opC g temp 8 4 out3.1
  (g, .keys (out2.2.drop 8) out3.2 out4.2 (out2.2.take 6))

/-- `f5star` -/
def f5star (g : RoundKeys) : RoundKeys × Answer :=
  let g := Rijndael.rijndaelKeySchedule k g
  let rijndaelInput := storeRotated 0 rand opC local16
  let temp := Rijndael.rijndaelEncrypt g rijndaelInput
  let out5 := codeOut opC g temp 4 8 rijndaelInput
  (g, .akStar (out5.2.take 6))

/-- A call as a step on the global array. -/
def step (g : RoundKeys) : Field 16 × Field 16 × Field 16 × Call → RoundKeys × Answer
  | (k, rand, opC, .f1 sqn amf) => f1 k.1 rand.1 opC.1 sqn.1 amf.1 g
  | (k, rand, opC, .f1star sqn amf) => f1star k.1 rand.1 opC.1 sqn.1 amf.1 g
  | (k, rand, opC, .f2345) => f2345 k.1 rand.1 opC.1 g
  | (k, rand, opC, .f5star) => f5star k.1 rand.1 opC.1 g

end Code

/-! ### Blocks -/

section Blocks

variable {a b : List Byte}

theorem xor_comm (a b : List Byte) : xor a b = xor b a := List.zipWith_comm_of_comm BitVec.xor_comm

theorem block_ext (ha : a.length = 16) (hb : b.length = 16) (h : ∀ i < 16, a.getD i 0 = b.getD i 0) : a = b := by
  apply List.ext_getElem (ha.trans hb.symm)
  intro i hi hi'
  have hab := h i (ha ▸ hi)
  rwa [List.getD_eq_getElem _ _ hi, List.getD_eq_getElem _ _ hi'] at hab

theorem length_xor (ha : a.length = 16) (hb : b.length = 16) : (xor a b).length = 16 := by
  rw [xor, List.length_zipWith, ha, hb, Nat.min_self]

theorem getD_xor (ha : a.length = 16) (hb : b.length = 16) {i : ℕ} (hi : i < 16) :
    (xor a b).getD i 0 = a.getD i 0 ^^^ b.getD i 0 := by
  rw [List.getD_eq_getElem _ _ (length_xor ha hb ▸ hi), List.getD_eq_getElem _ _ (ha ▸ hi),
    List.getD_eq_getElem _ _ (hb ▸ hi)]
  exact List.getElem_zipWith

theorem length_rot (ha : a.length = 16) (r : ℕ) : (rot a r).length = 16 := (List.length_rotate a (r / 8)).trans ha

theorem getD_rot (ha : a.length = 16) (r : ℕ) {i : ℕ} (hi : i < 16) :
    (rot a r).getD i 0 = a.getD ((i + r / 8) % 16) 0 := by
  rw [List.getD_eq_getElem _ _ (length_rot ha r ▸ hi), List.getD_eq_getElem _ _ (ha ▸ Nat.mod_lt _ (by omega))]
  simp only [rot, List.getElem_rotate, ha]

theorem getD_set_self {l : List Byte} {i : ℕ} (hi : i < l.length) (v : Byte) : (l.set i v).getD i 0 = v := by
  rw [List.getD_eq_getElem?_getD, List.getElem?_set_self hi, Option.getD_some]

theorem getD_set_ne {l : List Byte} {i j : ℕ} (h : i ≠ j) (v : Byte) : (l.set i v).getD j 0 = l.getD j 0 := by
  rw [List.getD_eq_getElem?_getD, List.getElem?_set_ne h, ← List.getD_eq_getElem?_getD]

end Blocks

/-! ### The loops -/

section Loops

variable {a b buf : List Byte}

/-- Going to the right by `n` bytes is going to the left by what is left of the block. -/
theorem storeRotated_eq {n r : ℕ} (hr : (n + r / 8) % 16 = 0) (ha : a.length = 16) (hb : b.length = 16)
    (hbuf : buf.length = 16) : storeRotated n a b buf = rot (xor a b) r := by
  have hinv : (storeRotated n a b buf).length = 16 ∧
      ∀ i < 16, (storeRotated n a b buf).getD ((i + n) % 16) 0 = a.getD i 0 ^^^ b.getD i 0 := by
    refine loop_inv (I := fun m (l : List Byte) => l.length = 16 ∧
      ∀ i < m, l.getD ((i + n) % 16) 0 = a.getD i 0 ^^^ b.getD i 0) ⟨hbuf, by simp⟩ ?_
    rintro m hm l ⟨hlen, hval⟩
    refine ⟨(List.length_set).trans hlen, fun i hi => ?_⟩
    by_cases him : i = m
    · subst him
      exact getD_set_self (by omega) _
    · rw [getD_set_ne (by omega)]
      exact hval i (by omega)
  have hx := length_xor ha hb
  refine block_ext hinv.1 (length_rot hx r) fun j hj => ?_
  have hj' : ((j + r / 8) % 16 + n) % 16 = j := by omega
  have h := hinv.2 ((j + r / 8) % 16) (Nat.mod_lt _ (by omega))
  rw [hj'] at h
  rw [h, getD_rot hx r hj, getD_xor ha hb (Nat.mod_lt _ (by omega))]

theorem addTo_eq (hb : b.length = 16) (hbuf : buf.length = 16) : addTo b buf = xor buf b := by
  have hinv : (addTo b buf).length = 16 ∧ ∀ i < 16,
      (addTo b buf).getD i 0 = if i < 16 then buf.getD i 0 ^^^ b.getD i 0 else buf.getD i 0 := by
    refine loop_inv (I := fun m (l : List Byte) => l.length = 16 ∧
      ∀ i < 16, l.getD i 0 = if i < m then buf.getD i 0 ^^^ b.getD i 0 else buf.getD i 0) ⟨hbuf, by simp⟩ ?_
    rintro m hm l ⟨hlen, hval⟩
    refine ⟨(List.length_set).trans hlen, fun i hi => ?_⟩
    by_cases him : m = i
    · subst him
      rw [getD_set_self (by omega), hval m hi, if_neg (Nat.lt_irrefl m), if_pos m.lt_succ_self]
    · rw [getD_set_ne him, hval i hi]
      exact if_congr (by omega) rfl rfl
  refine block_ext hinv.1 (length_xor hbuf hb) fun i hi => ?_
  rw [hinv.2 i hi, if_pos hi, getD_xor hbuf hb hi]

theorem layOut_eq : ∀ (sqn : Field 6) (amf : Field 2), layOut sqn.1 amf.1 = sqn.1 ++ amf.1 ++ sqn.1 ++ amf.1
  | ⟨[_, _, _, _, _, _], _⟩, ⟨[_, _], _⟩ => by
    simp [layOut, loop, List.range_succ, local16, List.replicate]

theorem set_last_eq (ha : a.length = 16) (c : Byte) :
    a.set 15 (a.getD 15 0 ^^^ c) = xor a (List.replicate 15 0 ++ [c]) := by
  have hc : (List.replicate 15 0 ++ [c]).length = 16 := rfl
  refine block_ext (List.length_set.trans ha) (length_xor ha hc) fun i hi => ?_
  rw [getD_xor ha hc hi]
  by_cases h : 15 = i
  · subst h
    exact getD_set_self (by omega) _
  · have hz : (List.replicate 15 0 ++ [c]).getD i 0 = 0 := by
      rw [List.getD_append _ _ _ _ (by rw [List.length_replicate]; omega), List.getD_replicate 0 (by omega)]
    rw [getD_set_ne h, hz]
    exact BitVec.xor_zero.symm

end Loops

/-! ### The functions -/

section Functions

variable (k rand opC : Field 16) (g : RoundKeys)

theorem length_encrypt (key input : List Byte) : (Aes.encrypt key input).length = 16 := List.length_ofFn

theorem temp_eq : Rijndael.rijndaelEncrypt (Rijndael.rijndaelKeySchedule k.1 g) (storeRotated 0 rand.1 opC.1 local16) =
    temp (Aes.encrypt k.1) rand.1 opC.1 := by
  have hin : storeRotated 0 rand.1 opC.1 local16 = xor rand.1 opC.1 := by
    rw [storeRotated_eq (r := 0) rfl rand.2 opC.2 rfl]
    exact List.rotate_zero _
  rw [hin, Rijndael.rijndaelEncrypt_eq_aes, temp]

theorem length_temp : (temp (Aes.encrypt k.1) rand.1 opC.1).length = 16 := length_encrypt _ _

theorem length_stored : (storeRotated 0 rand.1 opC.1 local16).length = 16 := by
  rw [storeRotated_eq (r := 0) rfl rand.2 opC.2 rfl]
  exact length_rot (length_xor rand.2 opC.2) 0

theorem codeOut1_eq (sqn : Field 6) (amf : Field 2) :
    codeOut1 rand.1 opC.1 (Rijndael.rijndaelKeySchedule k.1 g) sqn.1 amf.1 =
      out1 (Aes.encrypt k.1) rand.1 opC.1 sqn.1 amf.1 := by
  have hin1 : (sqn.1 ++ amf.1 ++ sqn.1 ++ amf.1).length = 16 := by
    simp only [List.length_append, sqn.2, amf.2]
  have hrot := length_rot (length_xor hin1 opC.2) 64
  have htemp := length_temp k rand opC
  have hstored := length_stored rand opC
  rw [codeOut1, temp_eq, layOut_eq, storeRotated_eq (r := 64) rfl hin1 opC.2 hstored, addTo_eq htemp hrot,
    Rijndael.rijndaelEncrypt_eq_aes, addTo_eq opC.2 (length_encrypt _ _), out1, xor_comm (rot _ 64)]

/-- One output, from any earlier content of `rijndaelInput`. -/
theorem codeOut_eq {n r : ℕ} (hr : (n + r / 8) % 16 = 0) (c : Byte) {buf : List Byte} (hbuf : buf.length = 16) :
    (codeOut opC.1 (Rijndael.rijndaelKeySchedule k.1 g) (temp (Aes.encrypt k.1) rand.1 opC.1) n c buf).1.length = 16 ∧
      (codeOut opC.1 (Rijndael.rijndaelKeySchedule k.1 g) (temp (Aes.encrypt k.1) rand.1 opC.1) n c buf).2 =
        out (Aes.encrypt k.1) rand.1 opC.1 r c := by
  have htemp := length_temp k rand opC
  have hrot := length_rot (length_xor htemp opC.2) r
  rw [codeOut, storeRotated_eq hr htemp opC.2 hbuf, set_last_eq hrot, Rijndael.rijndaelEncrypt_eq_aes,
    addTo_eq opC.2 (length_encrypt _ _)]
  exact ⟨length_xor hrot rfl, rfl⟩

/-- A call answers by the formulas, whatever the global array holds. -/
theorem step_answer (c : Call) :
    (step g (k, rand, opC, c)).2 = formula (Aes.encrypt k.1) rand.1 opC.1 c := by
  cases c with
  | f1 sqn amf =>
    show Answer.macA ((codeOut1 _ _ _ _ _).take 8) = _
    rw [codeOut1_eq, formula]
  | f1star sqn amf =>
    show Answer.macS ((codeOut1 _ _ _ _ _).drop 8) = _
    rw [codeOut1_eq, formula]
  | f2345 =>
    have h2 := codeOut_eq k rand opC g (n := 0) (r := 0) rfl 1 (length_stored rand opC)
    have h3 := codeOut_eq k rand opC g (n := 12) (r := 32) rfl 2 h2.1
    have h4 := codeOut_eq k rand opC g (n := 8) (r := 64) rfl 4 h3.1
    simp only [step, f2345, temp_eq, formula]
    rw [h2.2, h3.2, h4.2]
  | f5star =>
    have h5 := codeOut_eq k rand opC g (n := 4) (r := 96) rfl 8 (length_stored rand opC)
    show Answer.akStar ((codeOut _ _ _ _ _ _).2.take 6) = _
    rw [temp_eq, h5.2, formula]

end Functions

/-- What a call should answer: the formulas with AES-128 under its key. -/
noncomputable def expected : Field 16 × Field 16 × Field 16 × Call → Answer
  | (k, rand, opC, c) => formula (Aes.encrypt k.1) rand.1 opC.1 c

/-- **The functions conform**: in any order of calls, with any keys, and whatever the
global array held at first, every call answers by the formulas with AES-128. -/
theorem aka_conforms (g : RoundKeys) (calls : List (Field 16 × Field 16 × Field 16 × Call)) :
    Machine.outs step g calls = calls.map fun c => (c, expected c) :=
  Machine.outs_eq_map_of_answer (fun g c => step_answer c.1 c.2.1 c.2.2.1 g c.2.2.2) g calls

/-! ### The functions on blocks -/

section Blocks

variable (k rand opC : Field 16)

theorem xorBytes_eq {a b : List Byte} (ha : a.length = 16) (hb : b.length = 16) :
    Milenage.xorBytes 16 a b = xor a b := by
  refine block_ext (Milenage.length_xorBytes 16 a b) (length_xor ha hb) fun i hi => ?_
  rw [getD_xor ha hb hi, Milenage.xorBytes, List.getD_eq_getElem _ _ (by simpa using hi), List.getElem_map,
    List.getElem_range]

theorem rotate_eq {a : List Byte} (ha : a.length = 16) {n r : ℕ} (hn : n ≤ 16) (hr : (n + r / 8) % 16 = 0) :
    Milenage.rotate n a = rot a r := by
  have hlen : (Milenage.rotate n a).length = 16 := by simp [Milenage.rotate]
  refine block_ext hlen (length_rot ha r) fun i hi => ?_
  rw [getD_rot ha r hi, Milenage.rotate, List.getD_eq_getElem _ _ (by simpa using hi), List.getElem_map,
    List.getElem_range, show (i + (16 - n)) % 16 = (i + r / 8) % 16 by omega]

theorem encrypt_eq (key input : List Byte) :
    Milenage.rijndaelEncrypt (Milenage.rijndaelKeySchedule key) input = Aes.encrypt key input := by
  rw [← Rijndael.encrypt_keySchedule key input fun _ _ _ => 0, Rijndael.rijndaelEncrypt_eq_aes]

theorem milenage_temp : Milenage.temp k.1 rand.1 opC.1 = temp (Aes.encrypt k.1) rand.1 opC.1 := by
  rw [Milenage.temp, encrypt_eq, xorBytes_eq rand.2 opC.2, temp]

/-- The codes of `Milenage` are those of the formulas. -/
theorem milenage_out1 (sqn : Field 6) (amf : Field 2) :
    Milenage.out1 k.1 rand.1 sqn.1 amf.1 opC.1 = out1 (Aes.encrypt k.1) rand.1 opC.1 sqn.1 amf.1 := by
  have hin1 : (sqn.1 ++ amf.1 ++ sqn.1 ++ amf.1).length = 16 := by
    simp only [List.length_append, sqn.2, amf.2]
  have hx := length_xor hin1 opC.2
  have hrot := length_rot hx 64
  rw [Milenage.out1, milenage_temp, encrypt_eq, xorBytes_eq hin1 opC.2, rotate_eq hx (by omega) (r := 64) rfl,
    xorBytes_eq hrot (length_temp k rand opC), xorBytes_eq (length_encrypt _ _) opC.2, xor_comm (rot _ 64), out1]

/-- So are its outputs. -/
theorem milenage_out {n r : ℕ} (hn : n ≤ 16) (hr : (n + r / 8) % 16 = 0) (c : Byte) :
    Milenage.out k.1 rand.1 n c opC.1 = out (Aes.encrypt k.1) rand.1 opC.1 r c := by
  have hx := length_xor (length_temp k rand opC) opC.2
  have hrot := length_rot hx r
  have hmod : ∀ a : List Byte, a.modify 15 (· ^^^ c) = a.set 15 (a.getD 15 0 ^^^ c) := fun a => by
    rw [List.modify_eq_set, List.getD_eq_getElem?_getD]
    rfl
  rw [Milenage.out, milenage_temp, encrypt_eq, xorBytes_eq (length_temp k rand opC) opC.2, rotate_eq hx hn hr, hmod,
    set_last_eq hrot, xorBytes_eq (length_encrypt _ _) opC.2, out]

end Blocks

end Conformance
end Usim
end La12xx
