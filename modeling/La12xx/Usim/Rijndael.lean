/-
# The block cipher in its arrays

`RijndaelKeySchedule` and `RijndaelEncrypt` of `aka_functions.c` as they work on
`roundKeys[11][4][4]`, which is global, and on `state[4][4]`: assignment by
assignment, with the rows rotated and the columns mixed in place. They compute
what the functions of `Milenage` do, whatever the global array held
(`encrypt_keySchedule`), and that is AES-128 (`rijndaelEncrypt_eq_aes`): the tables
`S` and `Xtime` are the S-box and the multiplication by `x`.
-/
import La12xx.Lib.Aes
import La12xx.Lib.Loop
import La12xx.Usim.Milenage

namespace La12xx
namespace Usim

open ByteMem Milenage

namespace Rijndael

/-! ### The arrays -/

/-- `u8 state[4][4]` -/
abbrev Cells := ℕ → ℕ → Byte

/-- `u8 roundKeys[11][4][4]` -/
abbrev RoundKeys := ℕ → Cells

/-- `state[i][j] = b` -/
def Cells.set (s : Cells) (i j : ℕ) (b : Byte) : Cells := Function.update s i (Function.update (s i) j b)

/-- `roundKeys[r][i][j] = b` -/
def RoundKeys.set (g : RoundKeys) (r i j : ℕ) (b : Byte) : RoundKeys := Function.update g r (Cells.set (g r) i j b)

/-! ### The key schedule -/

/-- The round `i` of the loop, with the round constant. -/
def scheduleRound (i : ℕ) (p : RoundKeys × Byte) : RoundKeys × Byte :=
  let (g, roundConst) := p
  let g := g.set i 0 0 (sub (g (i - 1) 1 3) ^^^ g (i - 1) 0 0 ^^^ roundConst)
  let g := g.set i 1 0 (sub (g (i - 1) 2 3) ^^^ g (i - 1) 1 0)
  let g := g.set i 2 0 (sub (g (i - 1) 3 3) ^^^ g (i - 1) 2 0)
  let g := g.set i 3 0 (sub (g (i - 1) 0 3) ^^^ g (i - 1) 3 0)
  let g := loop 4 (fun j g =>
    let g := g.set i j 1 (g (i - 1) j 1 ^^^ g i j 0)
    let g := g.set i j 2 (g (i - 1) j 2 ^^^ g i j 1)
    g.set i j 3 (g (i - 1) j 3 ^^^ g i j 2)) g
  (g, xtime roundConst)

/-- `RijndaelKeySchedule`: what it leaves in the global array. -/
def rijndaelKeySchedule (key : List Byte) (g : RoundKeys) : RoundKeys :=
  let g := loop 16 (fun i g => g.set 0 (i % 4) (i / 4) (key.getD i 0)) g
  (loop 10 (fun i => scheduleRound (i + 1)) (g, 1)).1

/-! ### The cipher -/

/-- `KeyAdd` -/
def keyAdd (roundKey : Cells) (s : Cells) : Cells :=
  loop 4 (fun i => loop 4 fun j s => s.set i j (s i j ^^^ roundKey i j)) s

/-- `ByteSub` -/
def byteSub (s : Cells) : Cells := loop 4 (fun i => loop 4 fun j s => s.set i j (sub (s i j))) s

/-- `ShiftRow` -/
def shiftRow (s : Cells) : Cells :=
  let temp := s 1 0
  let s := s.set 1 0 (s 1 1)
  let s := s.set 1 1 (s 1 2)
  let s := s.set 1 2 (s 1 3)
  let s := s.set 1 3 temp
  let temp := s 2 0
  let s := s.set 2 0 (s 2 2)
  let s := s.set 2 2 temp
  let temp := s 2 1
  let s := s.set 2 1 (s 2 3)
  let s := s.set 2 3 temp
  let temp := s 3 0
  let s := s.set 3 0 (s 3 3)
  let s := s.set 3 3 (s 3 2)
  let s := s.set 3 2 (s 3 1)
  s.set 3 1 temp

/-- One column of `MixColumn`. -/
def mixColumnAt (i : ℕ) (s : Cells) : Cells :=
  let temp := s 0 i ^^^ s 1 i ^^^ s 2 i ^^^ s 3 i
  let tmp0 := s 0 i
  let tmp := xtime (s 0 i ^^^ s 1 i)
  let s := s.set 0 i (s 0 i ^^^ (temp ^^^ tmp))
  let tmp := xtime (s 1 i ^^^ s 2 i)
  let s := s.set 1 i (s 1 i ^^^ (temp ^^^ tmp))
  let tmp := xtime (s 2 i ^^^ s 3 i)
  let s := s.set 2 i (s 2 i ^^^ (temp ^^^ tmp))
  let tmp := xtime (s 3 i ^^^ tmp0)
  s.set 3 i (s 3 i ^^^ (temp ^^^ tmp))

/-- `MixColumn` -/
def mixColumn (s : Cells) : Cells := loop 4 mixColumnAt s

/-- `RijndaelEncrypt`, with the global array as it is. -/
def rijndaelEncrypt (g : RoundKeys) (input : List Byte) : List Byte :=
  let s : Cells := loop 16 (fun i s => s.set (i % 4) (i / 4) (input.getD i 0)) fun _ _ => 0
  let s := keyAdd (g 0) s
  let s := loop 9 (fun r s => keyAdd (g (r + 1)) (mixColumn (shiftRow (byteSub s)))) s
  let s := keyAdd (g 10) (shiftRow (byteSub s))
  (List.range 16).map fun i : ℕ => s (i % 4) (i / 4)

/-! ### They compute what the functions on blocks compute -/

/-- The array holds the bytes of a block. -/
def Rep (s : Cells) (l : List Byte) : Prop := ∀ i j, i < 4 → j < 4 → s i j = entry l i j

theorem entry_block (f : ℕ → ℕ → Byte) {i j : ℕ} (hi : i < 4) (hj : j < 4) : entry (block f) i j = f i j := by
  interval_cases i <;> interval_cases j <;> rfl

section Blocks

variable {s k : Cells} {l m : List Byte}

/-- Every entry is replaced, row by row. -/
theorem cells_map (f : ℕ → ℕ → Byte → Byte) (s : Cells) {i j : ℕ} (hi : i < 4) (hj : j < 4) :
    loop 4 (fun i => loop 4 fun j s => s.set i j (f i j (s i j))) s i j = f i j (s i j) := by
  interval_cases i <;> interval_cases j <;> rfl

theorem rep_keyAdd (h : Rep s l) (hk : Rep k m) : Rep (keyAdd k s) (Milenage.keyAdd l m) := by
  intro i j hi hj
  have hij := cells_map (fun i j b => b ^^^ k i j) s hi hj
  rw [keyAdd, hij, Milenage.keyAdd, entry_block _ hi hj, h i j hi hj, hk i j hi hj]

theorem rep_byteSub (h : Rep s l) : Rep (byteSub s) (Milenage.byteSub l) := by
  intro i j hi hj
  have hij := cells_map (fun _ _ b => sub b) s hi hj
  rw [byteSub, hij, Milenage.byteSub, entry_block _ hi hj, h i j hi hj]

theorem rep_shiftRow (h : Rep s l) : Rep (shiftRow s) (Milenage.shiftRow l) := by
  intro i j hi hj
  have hrow : shiftRow s i j = s i ((j + i) % 4) := by
    interval_cases i <;> interval_cases j <;> rfl
  rw [hrow, Milenage.shiftRow, entry_block _ hi hj, h i _ hi (Nat.mod_lt _ four_pos)]

theorem mixColumn_apply (s : Cells) {i j : ℕ} (hi : i < 4) (hj : j < 4) :
    mixColumn s i j =
      s i j ^^^ (s 0 j ^^^ s 1 j ^^^ s 2 j ^^^ s 3 j ^^^ xtime (s i j ^^^ s ((i + 1) % 4) j)) := by
  interval_cases i <;> interval_cases j <;> rfl

theorem rep_mixColumn (h : Rep s l) : Rep (mixColumn s) (Milenage.mixColumn l) := by
  intro i j hi hj
  rw [mixColumn_apply s hi hj, Milenage.mixColumn, entry_block _ hi hj, h i j hi hj,
    h _ j (Nat.mod_lt _ four_pos) hj, h 0 j (by omega) hj, h 1 j (by omega) hj, h 2 j (by omega) hj,
    h 3 j (by omega) hj]

/-- The loops that bring a block into the array. -/
theorem rep_input (l : List Byte) (s : Cells) :
    Rep (loop 16 (fun i s => s.set (i % 4) (i / 4) (l.getD i 0)) s) l := by
  intro i j hi hj
  interval_cases i <;> interval_cases j <;> rfl

end Blocks

/-! ### The key schedule -/

section Schedule

variable {g : RoundKeys} {key : List Byte}

/-- What a round of the key schedule does to the entries it writes, `c`, with the round
key before them, `prev`. -/
def nextCells (prev : Cells) (roundConst : Byte) (c : Cells) : Cells :=
  let c := c.set 0 0 (sub (prev 1 3) ^^^ prev 0 0 ^^^ roundConst)
  let c := c.set 1 0 (sub (prev 2 3) ^^^ prev 1 0)
  let c := c.set 2 0 (sub (prev 3 3) ^^^ prev 2 0)
  let c := c.set 3 0 (sub (prev 0 3) ^^^ prev 3 0)
  loop 4 (fun j c =>
    let c := c.set j 1 (prev j 1 ^^^ c j 0)
    let c := c.set j 2 (prev j 2 ^^^ c j 1)
    c.set j 3 (prev j 3 ^^^ c j 2)) c

theorem set_update (g : RoundKeys) (r i j : ℕ) (c : Cells) (b : Byte) :
    (RoundKeys.set (Function.update g r c) r i j b) = Function.update g r (c.set i j b) := by
  rw [RoundKeys.set, Function.update_self, Function.update_idem]

theorem scheduleRound_eq (n : ℕ) (g : RoundKeys) (roundConst : Byte) :
    scheduleRound (n + 1) (g, roundConst) =
      (Function.update g (n + 1) (nextCells (g n) roundConst (g (n + 1))), xtime roundConst) := by
  have hne : n ≠ n + 1 := Nat.ne_of_lt n.lt_succ_self
  have hfirst : ∀ i j b, g.set (n + 1) i j b = Function.update g (n + 1) (Cells.set (g (n + 1)) i j b) :=
    fun _ _ _ => rfl
  simp only [scheduleRound, nextCells, Nat.add_sub_cancel, loop_four, hfirst, set_update, Function.update_self,
    Function.update_of_ne hne]

theorem rep_nextCells {prev c : Cells} {l : List Byte} (h : Rep prev l) (roundConst : Byte) :
    Rep (nextCells prev roundConst c) (nextRoundKey l roundConst) := by
  have hfirst : ∀ i, i < 4 → nextCells prev roundConst c i 0 = firstColumn l roundConst i := by
    intro i hi
    rw [firstColumn, ← h _ 3 (Nat.mod_lt _ four_pos) (by omega), ← h i 0 hi (by omega)]
    interval_cases i
    · rfl
    all_goals exact BitVec.xor_zero.symm
  have hnext : ∀ i j, i < 4 → j < 3 →
      nextCells prev roundConst c i (j + 1) = entry l i (j + 1) ^^^ nextCells prev roundConst c i j := by
    intro i j hi hj
    rw [← h i (j + 1) hi (by omega)]
    interval_cases i <;> interval_cases j <;> rfl
  intro i j hi hj
  rw [nextRoundKey, entry_block _ hi hj]
  have h1 := hnext i 0 hi (by omega)
  have h2 := hnext i 1 hi (by omega)
  have h3 := hnext i 2 hi (by omega)
  rw [hfirst i hi] at h1
  rw [h1] at h2
  rw [h2] at h3
  interval_cases j
  · exact hfirst i hi
  · exact h1
  · exact h2
  · exact h3

/-- Round key `n` of the schedule on blocks. -/
def keyAt (key : List Byte) (n : ℕ) : List Byte := (Milenage.rijndaelKeySchedule key).getD n []

theorem getD_roundKeysFrom : ∀ (m : ℕ) (key : List Byte) (roundConst : Byte) {n : ℕ}, n < m →
    (key :: roundKeysFrom m key roundConst).getD (n + 1) [] =
      nextRoundKey ((key :: roundKeysFrom m key roundConst).getD n []) (xtime^[n] roundConst)
  | m + 1, key, roundConst, 0, _ => rfl
  | m + 1, key, roundConst, n + 1, h => by
    have ih := getD_roundKeysFrom m (nextRoundKey key roundConst) (xtime roundConst) (Nat.lt_of_succ_lt_succ h)
    rw [Function.iterate_succ_apply]
    exact ih

theorem keyAt_succ (key : List Byte) {n : ℕ} (hn : n < 10) :
    keyAt key (n + 1) = nextRoundKey (keyAt key n) (xtime^[n] 1) := getD_roundKeysFrom 10 key 1 hn

/-- The rounds of the schedule, from an array that begins with the key. -/
theorem rep_scheduleRounds {g : RoundKeys} (hkey : Rep (g 0) key) (m : ℕ) (hm : m ≤ 10) :
    (loop m (fun i => scheduleRound (i + 1)) (g, 1)).2 = xtime^[m] 1 ∧
      ∀ n ≤ m, Rep ((loop m (fun i => scheduleRound (i + 1)) (g, 1)).1 n) (keyAt key n) := by
  induction m with
  | zero =>
    refine ⟨rfl, fun n hn => ?_⟩
    obtain rfl := Nat.le_zero.mp hn
    exact hkey
  | succ m ih =>
    obtain ⟨hconst, hrep⟩ := ih (Nat.le_of_lt hm)
    rw [loop_succ]
    generalize loop m (fun i => scheduleRound (i + 1)) (g, (1 : Byte)) = p at hconst hrep ⊢
    obtain ⟨g', roundConst⟩ := p
    obtain rfl : roundConst = xtime^[m] 1 := hconst
    rw [scheduleRound_eq]
    refine ⟨(Function.iterate_succ_apply' xtime m 1).symm, fun n hn => ?_⟩
    show Rep (Function.update g' (m + 1) _ n) _
    by_cases he : n = m + 1
    · subst he
      rw [Function.update_self, keyAt_succ key hm]
      exact rep_nextCells (hrep m le_rfl) _
    · rw [Function.update_of_ne he]
      exact hrep n (by omega)

/-- The array is filled with the round keys, whatever it held. -/
theorem rep_keySchedule (key : List Byte) (g : RoundKeys) {n : ℕ} (hn : n ≤ 10) :
    Rep (rijndaelKeySchedule key g n) (keyAt key n) := by
  have hkey : Rep (loop 16 (fun i g => RoundKeys.set g 0 (i % 4) (i / 4) (key.getD i 0)) g 0) key := by
    intro i j hi hj
    interval_cases i <;> interval_cases j <;> rfl
  exact (rep_scheduleRounds hkey 10 le_rfl).2 n hn

end Schedule

/-! ### Encryption -/

/-- The rounds on blocks, one after the other. -/
theorem rijndaelEncrypt_rounds (key input : List Byte) :
    Milenage.rijndaelEncrypt (Milenage.rijndaelKeySchedule key) input =
      Milenage.keyAdd (Milenage.shiftRow (Milenage.byteSub
        (loop 9 (fun r l => Milenage.keyAdd (Milenage.mixColumn (Milenage.shiftRow (Milenage.byteSub l)))
          (keyAt key (r + 1))) (Milenage.keyAdd input (keyAt key 0))))) (keyAt key 10) := rfl

theorem output_eq {s : Cells} {f : ℕ → ℕ → Byte} (h : Rep s (block f)) :
    (List.range 16).map (fun i : ℕ => s (i % 4) (i / 4)) = block f := by
  apply List.map_congr_left
  intro i hi
  have hi4 : i / 4 < 4 := Nat.div_lt_of_lt_mul (List.mem_range.mp hi)
  have him : i % 4 < 4 := Nat.mod_lt _ four_pos
  rw [h _ _ him hi4, entry_block f him hi4]

/-- **The arrays are the blocks**: a block is encrypted with the key that was scheduled
last, whatever the global array held before. -/
theorem encrypt_keySchedule (key input : List Byte) (g : RoundKeys) :
    rijndaelEncrypt (rijndaelKeySchedule key g) input =
      Milenage.rijndaelEncrypt (Milenage.rijndaelKeySchedule key) input := by
  have hk : ∀ n ≤ 10, Rep (rijndaelKeySchedule key g n) (keyAt key n) := fun n hn => rep_keySchedule key g hn
  have hstart := rep_keyAdd (rep_input input fun _ _ => 0) (hk 0 (by omega))
  have hrounds : Rep
      (loop 9 (fun r s => keyAdd (rijndaelKeySchedule key g (r + 1)) (mixColumn (shiftRow (byteSub s))))
        (keyAdd (rijndaelKeySchedule key g 0)
          (loop 16 (fun i s => s.set (i % 4) (i / 4) (input.getD i 0)) fun _ _ => 0)))
      (loop 9 (fun r l => Milenage.keyAdd (Milenage.mixColumn (Milenage.shiftRow (Milenage.byteSub l)))
          (keyAt key (r + 1))) (Milenage.keyAdd input (keyAt key 0))) :=
    loop_rel hstart fun r hr s l h => rep_keyAdd (rep_mixColumn (rep_shiftRow (rep_byteSub h))) (hk (r + 1) (by omega))
  have hend := rep_keyAdd (rep_shiftRow (rep_byteSub hrounds)) (hk 10 le_rfl)
  rw [rijndaelEncrypt_rounds]
  exact output_eq hend

/-! ### It is AES -/

/-- A table is compared with a function entry by entry. -/
theorem getD_eq_of_table {t : List Byte} {f : Byte → Byte}
    (h : t = (List.range 256).map fun i => f (BitVec.ofNat 8 i)) (a : Byte) : t.getD a.toNat 0 = f a := by
  rw [h, List.getD_eq_getElem?_getD, List.getElem?_map, List.getElem?_range a.isLt, Option.map_some,
    BitVec.ofNat_toNat, BitVec.setWidth_eq]
  rfl

theorem sub_eq (a : Byte) : sub a = Aes.sBox a := by
  have htable : sBox = (List.range 256).map fun i => Aes.affine (Gf256.inv (BitVec.ofNat 8 i)) := by decide +kernel
  rw [Aes.sBox_eq]
  exact getD_eq_of_table (f := fun a => Aes.affine (Gf256.inv a)) htable a

theorem xtime_eq (a : Byte) : xtime a = Gf256.shift a := by
  have htable : xtimes = (List.range 256).map fun i => Gf256.shift (BitVec.ofNat 8 i) := by decide +kernel
  exact getD_eq_of_table htable a

section Aes

variable (l m : List Byte)

theorem load_keyAdd : Aes.load (Milenage.keyAdd l m) = Aes.addRoundKey (Aes.load l) (Aes.load m) := by
  funext r c
  exact entry_block _ r.2 c.2

theorem load_byteSub : Aes.load (Milenage.byteSub l) = Aes.subBytes (Aes.load l) := by
  funext r c
  exact (entry_block _ r.2 c.2).trans (sub_eq _)

theorem load_shiftRow : Aes.load (Milenage.shiftRow l) = Aes.shiftRows (Aes.load l) := by
  funext r c
  refine (entry_block _ r.2 c.2).trans ?_
  show entry l r ((c + r) % 4) = entry l r (c + r : Fin 4)
  rw [Fin.val_add]

/-- The saved sum of the column and one multiplication stand for the row of the matrix. -/
theorem mix_byte (a b c d : Byte) : a ^^^ (a ^^^ b ^^^ c ^^^ d ^^^ xtime (a ^^^ b)) =
    Gf256.shift a ^^^ (Gf256.shift b ^^^ b) ^^^ c ^^^ d := by
  rw [xtime_eq, Aes.shift_xor]
  apply BitVec.eq_of_getLsbD_eq
  intro i _
  simp only [BitVec.getLsbD_xor]
  grind

theorem xor_rotate (a : Fin 4 → Byte) (r : Fin 4) :
    a 0 ^^^ a 1 ^^^ a 2 ^^^ a 3 = a r ^^^ a (r + 1) ^^^ a (r + 2) ^^^ a (r + 3) := by
  fin_cases r
  · rfl
  · show _ = a 1 ^^^ a 2 ^^^ a 3 ^^^ a 0
    ac_rfl
  · show _ = a 2 ^^^ a 3 ^^^ a 0 ^^^ a 1
    ac_rfl
  · show _ = a 3 ^^^ a 0 ^^^ a 1 ^^^ a 2
    ac_rfl

theorem load_mixColumn : Aes.load (Milenage.mixColumn l) = Aes.mixColumns (Aes.load l) := by
  funext r c
  rw [Aes.mixColumns_apply, ← mix_byte, ← xor_rotate fun r => Aes.load l r c]
  refine (entry_block _ r.2 c.2).trans ?_
  show entry l r c ^^^ (_ ^^^ xtime (entry l r c ^^^ entry l ((r + 1) % 4) c)) =
    entry l r c ^^^ (_ ^^^ xtime (entry l r c ^^^ entry l (r + 1 : Fin 4) c))
  rw [Fin.val_add]
  rfl

theorem iterate_xtime (n : ℕ) : xtime^[n] 1 = Gf256.shift^[n] 1 := by
  rw [show xtime = Gf256.shift from funext xtime_eq]

/-- The round keys are the words of the expanded key, four at a time. -/
theorem load_keyAt (key : List Byte) (n : ℕ) (hn : n ≤ 10) : Aes.load (keyAt key n) = Aes.roundKey key n := by
  induction n with
  | zero =>
    funext r c
    rw [Aes.roundKey, Aes.word_of_lt _ (by omega), Nat.mul_zero, Nat.zero_add]
    rfl
  | succ n ih =>
    have hprev : ∀ r c : Fin 4, entry (keyAt key n) r c = Aes.word key (4 * n + c) r :=
      fun r c => congrFun (congrFun (ih (Nat.le_of_lt hn)) r) c
    have h0 : ∀ r : Fin 4, firstColumn (keyAt key n) (xtime^[n] 1) r = Aes.word key (4 * (n + 1)) r := by
      intro r
      have hrot : entry (keyAt key n) ((r + 1) % 4) 3 = Aes.word key (4 * n + 3) (r + 1) := by
        have h := hprev (r + 1) 3
        rw [Fin.val_add] at h
        exact h
      have hzero : entry (keyAt key n) r 0 = Aes.word key (4 * n) r := hprev r 0
      rw [firstColumn, Aes.word_first, hrot, sub_eq, iterate_xtime, hzero, BitVec.xor_comm (Aes.sBox _)]
      simp only [Fin.ext_iff]
      rfl
    have h1 := fun r : Fin 4 => (congrArg₂ (· ^^^ ·) (hprev r 1) (h0 r)).trans (Aes.word_next key n (by omega) r).symm
    have h2 := fun r : Fin 4 => (congrArg₂ (· ^^^ ·) (hprev r 2) (h1 r)).trans (Aes.word_next key n (by omega) r).symm
    have h3 := fun r : Fin 4 => (congrArg₂ (· ^^^ ·) (hprev r 3) (h2 r)).trans (Aes.word_next key n (by omega) r).symm
    rw [keyAt_succ key hn]
    funext r c
    show entry (nextRoundKey _ _) r c = Aes.word key (4 * (n + 1) + c) r
    rw [nextRoundKey, entry_block _ r.2 c.2]
    fin_cases c
    · exact h0 r
    · exact h1 r
    · exact h2 r
    · exact h3 r

/-- A block that holds the state is its bytes in order. -/
theorem block_eq_store {f : ℕ → ℕ → Byte} {s : Aes.State} (h : Aes.load (block f) = s) : block f = Aes.store s := by
  subst h
  rfl

/-- **The block cipher is AES-128**: after the key schedule, and whatever the global
array held before it, a block is encrypted as the standard says. -/
theorem rijndaelEncrypt_eq_aes (key input : List Byte) (g : RoundKeys) :
    rijndaelEncrypt (rijndaelKeySchedule key g) input = Aes.encrypt key input := by
  have hrounds : ∀ m ≤ 9, Aes.load
      (loop m (fun r l => Milenage.keyAdd (Milenage.mixColumn (Milenage.shiftRow (Milenage.byteSub l)))
        (keyAt key (r + 1))) (Milenage.keyAdd input (keyAt key 0))) = Aes.rounds key input m := by
    intro m
    induction m with
    | zero =>
      intro _
      rw [Aes.rounds, ← load_keyAt key 0 (by omega)]
      exact load_keyAdd input _
    | succ m ih =>
      intro hm
      rw [loop_succ, load_keyAdd, load_mixColumn, load_shiftRow, load_byteSub, ih (by omega),
        load_keyAt key (m + 1) (by omega), Aes.rounds]
  rw [encrypt_keySchedule, rijndaelEncrypt_rounds, Aes.encrypt]
  refine block_eq_store ?_
  show Aes.load (Milenage.keyAdd _ _) = _
  rw [load_keyAdd, load_shiftRow, load_byteSub, hrounds 9 le_rfl, load_keyAt key 10 le_rfl]

end Aes

end Rijndael
end Usim
end La12xx
