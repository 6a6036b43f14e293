/-
# The record loop of `.mw_info`

`fw_read_and_load_sections_info` steps over the records of `.mw_info` by their
size bytes until it meets a type byte 0 or the end of the section. The pointer
goes its way whatever is done with the records (`recordLoop_round`), and the
loop ends after at most as many rounds as the section has bytes, unless it
comes to a record of size 0 with another type: there it stays
(`record_loop_ends_iff`).
-/
import La12xx.Lib.While
import La12xx.Vspa.Staging

namespace La12xx
namespace Vspa

open ByteMem While

/-! ### The way of the pointer -/

/-- What a round does to `section_ptr`: it leaves the loop at a type 0, or
steps over the record. -/
def recordBody (m : Mem) (ptr : ℤ) : Option ℤ :=
  if (m (ptr + 4)).toNat = 0 then none else some (ptr + (m ptr).toNat)

/-- The loop over the `n` bytes at `off` ends after at most `k` rounds. -/
def RecordsEnd (m : Mem) (off : ℤ) (n k : ℕ) : Prop := EndsWithin (fun ptr => ptr < off + n) (recordBody m) k off

/-- The loop over the `n` bytes at `off` comes to a record at `ptr`. -/
def Meets (m : Mem) (off : ℤ) (n : ℕ) (ptr : ℤ) : Prop :=
  Reaches (fun ptr => ptr < off + n) (recordBody m) off ptr ∧ ptr < off + n

section Loop

variable (m : Mem) {sectionEnd : ℤ} {secCnt : ℕ}

/-- A round of the loop with its tables: it ends where the pointer does, or
runs over a table, or goes on with the pointer where it should be. -/
theorem recordLoop_round (fuel : ℕ) (ptr : ℤ) (info : VspaSecInfo) :
    ((ptr < sectionEnd → recordBody m ptr = none) ∧
      recordLoop m sectionEnd secCnt (fuel + 1) ptr info = .ok info) ∨
    (ptr < sectionEnd ∧ ∃ next, recordBody m ptr = some next ∧
      (recordLoop m sectionEnd secCnt (fuel + 1) ptr info = .overrun ∨
        ∃ info', recordLoop m sectionEnd secCnt (fuel + 1) ptr info =
          recordLoop m sectionEnd secCnt fuel next info')) := by
  unfold recordBody
  rw [recordLoop]
  by_cases hptr : ptr < sectionEnd
  · rw [if_pos hptr]
    dsimp only
    by_cases htype : (m (ptr + 4)).toNat = 0
    · rw [if_pos htype, if_pos htype]
      exact Or.inl ⟨fun _ => rfl, rfl⟩
    · rw [if_neg htype, if_neg htype]
      refine Or.inr ⟨hptr, _, rfl, ?_⟩
      split_ifs
      · exact Or.inr ⟨_, rfl⟩
      · exact Or.inl rfl
      · exact Or.inr ⟨_, rfl⟩
      · exact Or.inl rfl
      · exact Or.inr ⟨_, rfl⟩
  · rw [if_neg hptr]
    exact Or.inl ⟨fun h => absurd h hptr, rfl⟩

/-- A loop whose pointer comes to the end in time has ended. -/
theorem recordLoop_ne_running : ∀ {n fuel : ℕ} {ptr : ℤ} (info : VspaSecInfo),
    EndsWithin (fun ptr => ptr < sectionEnd) (recordBody m) n ptr → n < fuel →
    recordLoop m sectionEnd secCnt fuel ptr info ≠ .running
  | n, fuel + 1, ptr, info, hend, hfuel => by
    rcases recordLoop_round m fuel ptr info with
      ⟨-, hok⟩ | ⟨hptr, next, hnext, hover | ⟨info', hrec⟩⟩
    · rw [hok]
      exact Parsed.noConfusion
    · rw [hover]
      exact Parsed.noConfusion
    · rw [hrec]
      cases n with
      | zero => exact absurd hptr hend
      | succ n => exact recordLoop_ne_running info' (hend hptr next hnext) (by omega)

/-- A loop that has ended well has come to the end. -/
theorem endsWithin_of_ok : ∀ {fuel : ℕ} {ptr : ℤ} {info info' : VspaSecInfo},
    recordLoop m sectionEnd secCnt fuel ptr info = .ok info' →
    EndsWithin (fun ptr => ptr < sectionEnd) (recordBody m) fuel ptr
  | 0, _, _, _, h => nomatch h
  | fuel + 1, ptr, info, _, h => by
    intro hptr t ht
    rcases recordLoop_round m fuel ptr info with
      ⟨hleave, -⟩ | ⟨-, next, hnext, hover | ⟨info', hrec⟩⟩
    · rw [hleave hptr] at ht
      cases ht
    · rw [hover] at h
      cases h
    · obtain rfl := Option.some.inj (hnext.symm.trans ht)
      exact endsWithin_of_ok (hrec.symm.trans h)

/-- At a record of size 0 of a type it does not know the loop turns for ever. -/
theorem recordLoop_stuck {ptr : ℤ} (hptr : ptr < sectionEnd) (hsize : m ptr = 0)
    (htype : (m (ptr + 4)).toNat ∉ [0, 14, 15]) (info : VspaSecInfo) :
    ∀ fuel, recordLoop m sectionEnd secCnt fuel ptr info = .running
  | 0 => rfl
  | fuel + 1 => by
    have hne := htype
    simp only [List.mem_cons, List.not_mem_nil, or_false, not_or] at hne
    have hzero : ptr + ((m ptr).toNat : ℤ) = ptr := by rw [hsize]; exact add_zero ptr
    rw [recordLoop, if_pos hptr]
    dsimp only
    rw [if_neg hne.1, if_neg hne.2.1, if_neg hne.2.2, hzero]
    exact recordLoop_stuck hptr hsize htype info fuel

end Loop

/-! ### Termination -/

/-- Every record the loop comes to has a size, or is of type 0. -/
def NoStuckRecord (m : Mem) (off : ℤ) (n : ℕ) : Prop := ∀ ptr, Meets m off n ptr → m (ptr + 4) = 0 ∨ m ptr ≠ 0

/-- A round over a record with a size goes on behind it. -/
theorem recordBody_lt {m : Mem} {ptr next : ℤ} (hrec : m (ptr + 4) = 0 ∨ m ptr ≠ 0)
    (hnext : recordBody m ptr = some next) : ptr < next := by
  unfold recordBody at hnext
  by_cases htype : (m (ptr + 4)).toNat = 0
  · rw [if_pos htype] at hnext
    cases hnext
  · rw [if_neg htype] at hnext
    obtain rfl := Option.some.inj hnext
    rcases hrec with hzero | hsize
    · exact absurd (by rw [hzero]; rfl) htype
    · have : (m ptr).toNat ≠ 0 := fun h => hsize (BitVec.eq_of_toNat_eq h)
      omega

/-- A record of size 0 and another type is where the pointer stays. -/
theorem recordBody_stuck {m : Mem} {ptr : ℤ} (htype : m (ptr + 4) ≠ 0) (hsize : m ptr = 0) :
    recordBody m ptr = some ptr := by
  have hne : (m (ptr + 4)).toNat ≠ 0 := fun h => htype (BitVec.eq_of_toNat_eq h)
  unfold recordBody
  rw [if_neg hne, hsize]
  exact congrArg some (add_zero ptr)

/-- **When the loop ends.** Over `n` bytes it ends after at most `n` rounds
exactly if it comes to no record of size 0 with a type other than 0. Then the
function's loop is not running any more, and otherwise it never ends well,
however long it runs. -/
theorem record_loop_ends_iff (m : Mem) (off : ℤ) (n : ℕ) :
    (RecordsEnd m off n n ↔ NoStuckRecord m off n) ∧
    (NoStuckRecord m off n → ∀ secCnt info fuel, n < fuel →
      recordLoop m (off + n) secCnt fuel off info ≠ .running) ∧
    (¬ NoStuckRecord m off n → ∀ secCnt info fuel info',
      recordLoop m (off + n) secCnt fuel off info ≠ .ok info') := by
  have hends : NoStuckRecord m off n → RecordsEnd m off n n := by
    intro hno
    refine endsWithin_of_measure (fun ptr => (off + n - ptr).toNat) (fun ptr hptr => ?_) n off ?_ ?_
    · omega
    · omega
    · intro ptr hreach hptr next hnext
      have := recordBody_lt (hno ptr ⟨hreach, hptr⟩) hnext
      omega
  have hstays : ¬ NoStuckRecord m off n → ∀ k, ¬ RecordsEnd m off n k := by
    intro hstuck
    unfold NoStuckRecord at hstuck
    push Not at hstuck
    obtain ⟨ptr, ⟨hreach, hptr⟩, htype, hsize⟩ := hstuck
    exact not_endsWithin_of_stuck hreach hptr (recordBody_stuck htype hsize)
  refine ⟨⟨fun hend => ?_, hends⟩, fun hno secCnt info fuel hfuel => ?_, fun hno secCnt info fuel info' hok => ?_⟩
  · by_contra hno
    exact hstays hno n hend
  · exact recordLoop_ne_running m info (hends hno) hfuel
  · exact hstays hno fuel (endsWithin_of_ok m hok)

/-! ### An image -/

/-- An image of three sections: four bytes at offset 52, `.mw_info` with the
bytes `records` at offset 68, and the names. -/
def mwImage (records : List Byte) : Mem := ofList <|
  List.replicate 18 0 ++ le16 gccMachCode ++ List.replicate 12 0 ++ le32 (BitVec.ofNat 32 (68 + records.length)) ++
    List.replicate 12 0 ++ le16 3 ++ le16 2 ++
  [1, 2, 3, 4] ++
  -- 56: the names
  [0] ++ ascii ['.', 'm', 'w', '_', 'i', 'n', 'f', 'o'] ++ [0, 0, 0] ++ records ++
  headerBytes 0 0 52 4 ++ headerBytes 1 0 68 (BitVec.ofNat 32 records.length) ++ headerBytes 0 0 56 10

/-- Five bytes, a record of size 0 and type 20: the loop does not end. -/
theorem record_loop_stuck :
    ¬ RecordsEnd (mwImage [0, 0, 0, 0, 20]) 68 5 5 ∧
      ∀ fuel, fwReadAndLoadSectionsInfo fuel (mwImage [0, 0, 0, 0, 20]) (fileHeader (mwImage [0, 0, 0, 0, 20]))
        true = .running := by
  have hsize : mwImage [0, 0, 0, 0, 20] 68 = 0 := by decide
  have htype : mwImage [0, 0, 0, 0, 20] (68 + 4) = 20 := by decide
  have hfind : (List.range (fileHeader (mwImage [0, 0, 0, 0, 20])).fhShnum.toNat).find?
      (isMwInfo (mwImage [0, 0, 0, 0, 20]) (fileHeader (mwImage [0, 0, 0, 0, 20]))) = some 1 := by
    decide +kernel
  refine ⟨not_endsWithin_of_stuck (.refl 68) (by decide) (recordBody_stuck (by rw [htype]; decide) hsize) 5,
    fun fuel => ?_⟩
  have hhdr : sectionHeader (mwImage [0, 0, 0, 0, 20]) (fileHeader (mwImage [0, 0, 0, 0, 20])).fhShoff 1 =
      ⟨1, 0, 68, 5, 0⟩ := by
    decide +kernel
  unfold fwReadAndLoadSectionsInfo
  rw [hfind]
  dsimp only
  rw [if_pos rfl, hhdr]
  exact recordLoop_stuck _ (by decide) hsize (by rw [htype]; decide) _ fuel

end Vspa
end La12xx
