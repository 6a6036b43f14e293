/-
# Which memory space a section goes to

The records of `.mw_info` name the memory spaces of a core (type 14) and say to
which of them a section belongs (type 15). What they mean is `resolve`: the
first record that names the section gives a memory space, and the name of the
first memory space of that number gives the transfer mode.

The driver copies the records into two tables and looks them up there. The
table of the memory spaces has four entries, the index of a search is an
`int8_t`, and so is the memory space it comes back with. `resolves_iff` says
which sections are resolved as the records say nevertheless.
-/
import La12xx.Lib.LazyStack
import La12xx.Vspa.Records

namespace La12xx
namespace Vspa

open ByteMem LazyStack

/-! ### Records -/

/-- A record: a memory space and its name, a section and its memory space, or
one of another type with its size. -/
inductive MwRecord where
  | memspace (memspaceId : BitVec 32) (memspaceName : List Byte)
  | sectionMap (sectionId memspaceId : BitVec 32)
  | other (size : ℕ)
deriving DecidableEq

/-- The size byte. -/
def MwRecord.size : MwRecord → ℕ
  | .memspace _ name => 25 + name.length
  | .sectionMap _ _ => 13
  | .other size => size

/-- The record lies at `ptr`. The name of a memory space has at most
`MAX_MEMSPACE_NAME_SZ` bytes; what else its record says is not used. -/
def MwRecord.At (m : Mem) (ptr : ℤ) : MwRecord → Prop
  | .memspace memspaceId name => name.length ≤ 16 ∧ (m ptr).toNat = 25 + name.length ∧ m (ptr + 4) = 14 ∧
      u32 m (ptr + 5) = memspaceId ∧ Holds m (ptr + 25) name
  | .sectionMap sectionId memspaceId => (m ptr).toNat = 13 ∧ m (ptr + 4) = 15 ∧
      u32 m (ptr + 5) = sectionId ∧ u32 m (ptr + 9) = memspaceId
  | .other size => (m ptr).toNat = size ∧ (m (ptr + 4)).toNat ∉ [0, 14, 15]

/-- The records found from `ptr` on, up to a type byte 0 or the end. -/
def Found (m : Mem) (sectionEnd : ℤ) : ℤ → List MwRecord → Prop
  | ptr, [] => ptr < sectionEnd → m (ptr + 4) = 0
  | ptr, r :: rs => ptr < sectionEnd ∧ r.At m ptr ∧ Found m sectionEnd (ptr + r.size) rs

/-- The memory spaces, in order. -/
def memspaces : List MwRecord → List (BitVec 32 × List Byte)
  | [] => []
  | .memspace memspaceId name :: rs => (memspaceId, name) :: memspaces rs
  | .sectionMap _ _ :: rs => memspaces rs
  | .other _ :: rs => memspaces rs

/-- The sections and their memory spaces, in order. -/
def sectionMaps : List MwRecord → List (BitVec 32 × BitVec 32)
  | [] => []
  | .memspace _ _ :: rs => sectionMaps rs
  | .sectionMap sectionId memspaceId :: rs => (sectionId, memspaceId) :: sectionMaps rs
  | .other _ :: rs => sectionMaps rs

/-! ### What the records mean -/

/-- The transfer mode of a memory space with this name, a C string. -/
def transModeOf (name : List Byte) : BitVec 32 :=
  let s := name.takeWhile (· ≠ 0)
  if s = ascii ['a', 'x', 'i', 'm'] then axiNc
  else if s = ascii ['d', 'r', 'a', 'm'] then dmemNc
  else if s = ascii ['i', 'p', 'p', 'u'] ∨ s = ascii ['i', 'p', 'p', 'u', '_', 'p', 'r', 'a', 'm'] then ippupram
  else if s = ascii ['v', 'c', 'p', 'u'] ∨ s = ascii ['v', 'c', 'p', 'u', '_', 'p', 'r', 'a', 'm'] then pram
  else noLoad

/-- The transfer mode of the first memory space of this number. -/
def memspaceMode (spaces : List (BitVec 32 × List Byte)) (memspaceId : BitVec 32) : BitVec 32 :=
  (spaces.find? fun e => e.1 = memspaceId).elim noLoad fun e => transModeOf e.2

/-- The transfer mode of a section, or none if it is not in the map. -/
def resolve (rs : List MwRecord) (secNum : ℕ) : Option (BitVec 32) :=
  ((sectionMaps rs).find? fun e => e.1 = BitVec.ofNat 32 secNum).map fun e => memspaceMode (memspaces rs) e.2

/-- How the loader treats a section: the transfer mode it uses, or none if it
takes the section for one that is not in the map. -/
def resolution (info : VspaSecInfo) (secNum : ℕ) : Option (BitVec 32) :=
  if 0 ≤ isVspaSectionValid info secNum then some (getVspaSectionTransMode info (isVspaSectionValid info secNum))
  else none

theorem isSelected_eq (info : VspaSecInfo) (secNum : ℕ) (name : List Byte) :
    isSelected info secNum name = (!isVspaSectionLoadable name && (resolution info secNum).isSome) := by
  unfold isSelected resolution
  by_cases h : 0 ≤ isVspaSectionValid info secNum
  · rw [if_pos h, decide_eq_true h]
    rfl
  · rw [if_neg h, decide_eq_false h]
    rfl

/-! ### The tables -/

/-- The member `memspace_name` of an entry that has been filled in. -/
def padName (name : List Byte) : List Byte := name ++ List.replicate (16 - name.length) 0

/-- The tables hold the entries `spaces` and `maps`, and nothing has been put
behind the memory spaces. -/
structure Tables (info : VspaSecInfo) (spaces : List (BitVec 32 × List Byte)) (maps : List (BitVec 32 × BitVec 32)) :
    Prop where
  memspaceCount : info.vspaMemspaceCount = spaces.length
  secCount : info.vspaSecCount = maps.length
  space : ∀ i e, spaces[i]? = some e → u32 info.memspaceMap (36 * i : ℕ) = e.1 ∧
    bytes info.memspaceMap (36 * i + 20 : ℕ) 16 = padName e.2
  fresh : ∀ p, ((36 * spaces.length : ℕ) : ℤ) ≤ p → info.memspaceMap p = 0
  sec : ∀ i e, maps[i]? = some e → u32 info.sectionMemspaceMap (8 * i : ℕ) = e.1 ∧
    u32 info.sectionMemspaceMap (8 * i + 4 : ℕ) = e.2

theorem tables_zero : Tables .zero [] [] where
  memspaceCount := rfl
  secCount := rfl
  space i e h := by simp at h
  fresh p _ := rfl
  sec i e h := by simp at h

section Step

variable {m : Mem} {ptr : ℤ} {info : VspaSecInfo} {spaces : List (BitVec 32 × List Byte)}
  {maps : List (BitVec 32 × BitVec 32)}

theorem bytes_of_zero {m : Mem} : ∀ {n : ℕ} {a : ℤ}, (∀ p, a ≤ p → m p = 0) → bytes m a n = List.replicate n 0
  | 0, a, _ => rfl
  | n + 1, a, h => by
    rw [bytes, List.replicate_succ, h a le_rfl, bytes_of_zero fun p hp => h p (by omega)]

/-- A memory space is put into its table. -/
theorem Tables.push_memspace (h : Tables info spaces maps) {memspaceId : BitVec 32} {name : List Byte}
    (hat : (MwRecord.memspace memspaceId name).At m ptr) :
    Tables { info with
      memspaceMap := copy info.memspaceMap (36 * spaces.length : ℕ) m (ptr + 5) (20 + name.length)
      vspaMemspaceCount := info.vspaMemspaceCount + 1 } (spaces ++ [(memspaceId, name)]) maps := by
  obtain ⟨hlen, -, -, hid, hname⟩ := hat
  refine ⟨?_, h.secCount, fun i e he => ?_, fun p hp => ?_, h.sec⟩
  · rw [List.length_append, List.length_singleton, h.memspaceCount]
  · rcases getElem?_concat_cases he with ⟨hi, he⟩ | ⟨rfl, rfl⟩
    · -- an entry before the new one is not touched
      obtain ⟨hid', hname'⟩ := h.space i e he
      exact ⟨(u32_congr (bytes_copy_of_le (by push_cast; omega))).trans hid',
        (bytes_copy_of_le (by push_cast; omega)).trans hname'⟩
    · constructor
      · have hword : bytes (copy info.memspaceMap (36 * spaces.length : ℕ) m (ptr + 5) (20 + name.length))
            ((36 * spaces.length : ℕ) + (0 : ℕ)) 4 = bytes m (ptr + 5 + (0 : ℕ)) 4 :=
          bytes_copy_within (by omega)
        rw [Nat.cast_zero, add_zero, add_zero] at hword
        exact (u32_congr hword).trans hid
      · -- the name, and behind it what was there, nothing
        have hsplit : 16 = name.length + (16 - name.length) := by omega
        rw [hsplit, bytes_add, Nat.cast_add, bytes_copy_within (Nat.add_comm 20 name.length ▸ le_rfl)]
        unfold padName
        congr 1
        · rw [show ptr + 5 + ((20 : ℕ) : ℤ) = ptr + 25 by push_cast; ring]
          exact hname
        · apply bytes_of_zero
          intro p hp
          exact (copy_of_ge (by push_cast at hp ⊢; omega)).trans (h.fresh p (by push_cast at hp ⊢; omega))
  · rw [List.length_append, List.length_singleton] at hp
    exact (copy_of_ge (by push_cast at hp ⊢; omega)).trans (h.fresh p (by push_cast at hp ⊢; omega))

/-- So is a section. -/
theorem Tables.push_sectionMap (h : Tables info spaces maps) {sectionId memspaceId : BitVec 32}
    (hat : (MwRecord.sectionMap sectionId memspaceId).At m ptr) :
    Tables { info with
      sectionMemspaceMap := copy info.sectionMemspaceMap (8 * maps.length : ℕ) m (ptr + 5) 8
      vspaSecCount := info.vspaSecCount + 1 } spaces (maps ++ [(sectionId, memspaceId)]) := by
  obtain ⟨-, -, hsec, hspace⟩ := hat
  refine ⟨h.memspaceCount, ?_, h.space, h.fresh, fun i e he => ?_⟩
  · rw [List.length_append, List.length_singleton, h.secCount]
  · rcases getElem?_concat_cases he with ⟨hi, he⟩ | ⟨rfl, rfl⟩
    · obtain ⟨hsec', hspace'⟩ := h.sec i e he
      exact ⟨(u32_congr (bytes_copy_of_le (by push_cast; omega))).trans hsec',
        (u32_congr (bytes_copy_of_le (by push_cast; omega))).trans hspace'⟩
    · have hword : ∀ d : ℕ, d + 4 ≤ 8 →
          u32 (copy info.sectionMemspaceMap (8 * maps.length : ℕ) m (ptr + 5) 8) ((8 * maps.length : ℕ) + d) =
            u32 m (ptr + 5 + d) :=
        fun d hd => u32_congr (bytes_copy_within hd)
      constructor
      · have h0 := hword 0 (by decide)
        rw [Nat.cast_zero, add_zero, add_zero] at h0
        exact h0.trans hsec
      · have h4 := hword 4 (by decide)
        rw [show ptr + 5 + ((4 : ℕ) : ℤ) = ptr + 9 by push_cast; ring] at h4
        rw [Nat.cast_add]
        exact h4.trans hspace

end Step

/-! ### Reading the records -/

/-- **The loop over well-formed records** puts them into the tables, in order,
or runs over the table of the memory spaces if there are more than fit. -/
theorem recordLoop_found {m : Mem} {sectionEnd : ℤ} {secCnt : ℕ} : ∀ (rs : List MwRecord) {fuel : ℕ} {ptr : ℤ}
    {info : VspaSecInfo} {spaces : List (BitVec 32 × List Byte)} {maps : List (BitVec 32 × BitVec 32)},
    Tables info spaces maps → Found m sectionEnd ptr rs → rs.length < fuel →
    maps.length + (sectionMaps rs).length ≤ secCnt → spaces.length ≤ maxVspaMemspace →
    if spaces.length + (memspaces rs).length ≤ maxVspaMemspace then
      ∃ info', recordLoop m sectionEnd secCnt fuel ptr info = .ok info' ∧
        Tables info' (spaces ++ memspaces rs) (maps ++ sectionMaps rs)
    else recordLoop m sectionEnd secCnt fuel ptr info = .overrun
  | [], fuel + 1, ptr, info, spaces, maps, htab, hfound, _, _, hle => by
    rw [memspaces, sectionMaps, List.append_nil, List.append_nil, List.length_nil, Nat.add_zero, if_pos hle]
    refine ⟨info, ?_, htab⟩
    rw [recordLoop]
    by_cases hptr : ptr < sectionEnd
    · rw [if_pos hptr, hfound hptr]
      rfl
    · rw [if_neg hptr]
  | .memspace memspaceId name :: rs, fuel + 1, ptr, info, spaces, maps, htab, ⟨hptr, hat, hrest⟩, hfuel, hcnt, hle => by
    have hround : recordLoop m sectionEnd secCnt (fuel + 1) ptr info =
        if spaces.length < maxVspaMemspace then
          recordLoop m sectionEnd secCnt fuel (ptr + (25 + name.length : ℕ))
            { info with
              memspaceMap := copy info.memspaceMap (36 * spaces.length : ℕ) m (ptr + 5) (20 + name.length)
              vspaMemspaceCount := info.vspaMemspaceCount + 1 }
        else .overrun := by
      have hlen : 25 + name.length - 5 = 20 + name.length := by omega
      rw [recordLoop, if_pos hptr]
      dsimp only
      rw [hat.2.1, hat.2.2.1, htab.memspaceCount, hlen, if_neg (by decide), if_pos (by decide)]
      refine if_congr ?_ ?_ rfl
      · have := hat.1
        unfold maxVspaMemspace
        omega
      · push_cast
        rfl
    rw [hround, memspaces, sectionMaps, List.length_cons]
    by_cases hroom : spaces.length < maxVspaMemspace
    · have ih := recordLoop_found rs (htab.push_memspace hat) hrest (Nat.lt_of_succ_lt_succ hfuel) hcnt
        (by rw [List.length_append, List.length_singleton]; exact hroom)
      rw [List.length_append, List.length_singleton, List.append_assoc, List.singleton_append, Nat.add_assoc,
        Nat.add_comm 1] at ih
      rw [if_pos hroom]
      exact ih
    · rw [if_neg hroom, if_neg (by omega)]
  | .sectionMap sectionId memspaceId :: rs, fuel + 1, ptr, info, spaces, maps, htab, ⟨hptr, hat, hrest⟩, hfuel, hcnt,
      hle => by
    rw [sectionMaps, List.length_cons] at hcnt
    have hcnt' : (maps ++ [(sectionId, memspaceId)]).length + (sectionMaps rs).length ≤ secCnt := by
      rw [List.length_append, List.length_singleton]
      omega
    have hround : recordLoop m sectionEnd secCnt (fuel + 1) ptr info =
        recordLoop m sectionEnd secCnt fuel (ptr + (13 : ℕ))
          { info with
            sectionMemspaceMap := copy info.sectionMemspaceMap (8 * maps.length : ℕ) m (ptr + 5) 8
            vspaSecCount := info.vspaSecCount + 1 } := by
      rw [recordLoop, if_pos hptr]
      dsimp only
      rw [hat.1, hat.2.1, htab.secCount, if_neg (by decide), if_neg (by decide), if_pos (by decide),
        if_pos (by omega)]
      push_cast
      rfl
    have ih := recordLoop_found rs (htab.push_sectionMap hat) hrest (Nat.lt_of_succ_lt_succ hfuel) hcnt' hle
    rw [List.append_assoc, List.singleton_append] at ih
    rw [hround, memspaces, sectionMaps]
    exact ih
  | .other size :: rs, fuel + 1, ptr, info, spaces, maps, htab, ⟨hptr, hat, hrest⟩, hfuel, hcnt, hle => by
    have hround : recordLoop m sectionEnd secCnt (fuel + 1) ptr info =
        recordLoop m sectionEnd secCnt fuel (ptr + size) info := by
      obtain ⟨hsize, htype⟩ := hat
      simp only [List.mem_cons, List.not_mem_nil, or_false, not_or] at htype
      rw [recordLoop, if_pos hptr]
      dsimp only
      rw [if_neg htype.1, if_neg htype.2.1, if_neg htype.2.2, hsize]
    rw [hround, memspaces, sectionMaps]
    exact recordLoop_found rs htab hrest (Nat.lt_of_succ_lt_succ hfuel) hcnt hle

/-! ### Looking them up -/

/-- A search by index over a table is the search in the list it holds. -/
theorem elim_find?_range {α β : Type*} {d : β} {f : α → β} {q : α → Bool} : ∀ {l : List α} {p : ℕ → Bool} {g : ℕ → β},
    (∀ i a, l[i]? = some a → p i = q a ∧ g i = f a) →
    ((List.range l.length).find? p).elim d g = (l.find? q).elim d f
  | [], _, _, _ => rfl
  | a :: l, p, g, h => by
    obtain ⟨hp, hg⟩ := h 0 a rfl
    have ih := elim_find?_range (d := d) (f := f) (q := q) (l := l) (p := p ∘ Nat.succ) (g := g ∘ Nat.succ)
      fun i b hb => h (i + 1) b (by simpa using hb)
    rw [List.length_cons, List.range_succ_eq_map, List.find?_cons, List.find?_cons, hp, List.find?_map]
    cases q a with
    | true => exact hg
    | false =>
      rw [← ih]
      cases (List.range l.length).find? (p ∘ Nat.succ) <;> rfl

/-- The table of the sections is searched in its first 128 entries, and the
memory space found is cut to eight bits, with a sign. -/
theorem Tables.isVspaSectionValid {info : VspaSecInfo} {spaces : List (BitVec 32 × List Byte)}
    {maps : List (BitVec 32 × BitVec 32)} (h : Tables info spaces maps) (secNum : ℕ) :
    Vspa.isVspaSectionValid info secNum =
      ((maps.take 128).find? fun e => e.1 = BitVec.ofNat 32 secNum).elim (-1) fun e => (e.2.setWidth 8).toInt := by
  have hsearch := elim_find?_range (d := (-1 : ℤ)) (f := fun e : BitVec 32 × BitVec 32 => (e.2.setWidth 8).toInt)
    (q := fun e => decide (e.1 = BitVec.ofNat 32 secNum)) (l := maps.take 128)
    (p := fun i => decide (u32 info.sectionMemspaceMap (8 * i) = BitVec.ofNat 32 secNum))
    (g := fun i => ((u32 info.sectionMemspaceMap (8 * i + 4)).setWidth 8).toInt) fun i e he => by
      rw [List.getElem?_take] at he
      split_ifs at he
      obtain ⟨hsec, hspace⟩ := h.sec i e he
      push_cast at hsec hspace
      exact ⟨by rw [hsec], by rw [hspace]⟩
  rw [List.length_take, Nat.min_comm, ← h.secCount] at hsearch
  rw [← hsearch]
  unfold Vspa.isVspaSectionValid
  cases (List.range (min info.vspaSecCount 128)).find?
    fun i : ℕ => decide (u32 info.sectionMemspaceMap (8 * i) = BitVec.ofNat 32 secNum) <;> rfl

/-- A C string with nothing behind it begins with `w` and a 0 if it is `w`. -/
theorem take_padded_eq_iff {k : ℕ} : ∀ {w name : List Byte}, (∀ c ∈ w, c ≠ 0) → w.length < name.length + k →
    ((name ++ List.replicate k 0).take (w.length + 1) = w ++ [0] ↔ name.takeWhile (· ≠ 0) = w)
  | [], [], _, hlen => by
    obtain ⟨j, rfl⟩ : ∃ j, k = j + 1 := ⟨k - 1, by rw [List.length_nil] at hlen; omega⟩
    simp [List.replicate_succ]
  | [], c :: name, _, _ => by
    by_cases hc : c = 0 <;> simp [hc]
  | a :: w, [], hw, hlen => by
    obtain ⟨j, rfl⟩ : ∃ j, k = j + 1 := ⟨k - 1, by rw [List.length_nil] at hlen; omega⟩
    have ha : 0#8 ≠ a := (hw a List.mem_cons_self).symm
    simp [List.replicate_succ, ha]
  | a :: w, c :: name, hw, hlen => by
    have ha : 0#8 ≠ a := (hw a List.mem_cons_self).symm
    have ih := @take_padded_eq_iff k w name (fun b hb => hw b (List.mem_cons_of_mem a hb))
      (by rw [List.length_cons, List.length_cons] at hlen; omega)
    rw [List.length_cons, List.cons_append, List.take_succ_cons, List.cons_append, List.cons.injEq, ih]
    by_cases hc : c = 0
    · subst hc
      simp [ha]
    · rw [List.takeWhile_cons_of_pos (by simpa using hc), List.cons.injEq]

theorem strEq_padName {name : List Byte} {w : List Char} (hw : 0 ∉ ascii w) (hlen : w.length < 16) :
    strEq (padName name) w = decide (name.takeWhile (· ≠ 0) = ascii w) := by
  have hascii : (ascii w).length = w.length := List.length_map _
  have hw : ∀ c ∈ ascii w, c ≠ 0 := fun c hc h0 => hw (h0 ▸ hc)
  unfold strEq padName
  rw [decide_eq_decide, ← hascii]
  exact take_padded_eq_iff hw (by omega)

/-- The comparisons of `get_vspa_section_trans_mode`. -/
def compareNames (name : List Byte) : BitVec 32 :=
  if strEq name ['a', 'x', 'i', 'm'] then axiNc
  else if strEq name ['d', 'r', 'a', 'm'] then dmemNc
  else if strEq name ['i', 'p', 'p', 'u'] || strEq name ['i', 'p', 'p', 'u', '_', 'p', 'r', 'a', 'm'] then
    ippupram
  else if strEq name ['v', 'c', 'p', 'u'] || strEq name ['v', 'c', 'p', 'u', '_', 'p', 'r', 'a', 'm'] then
    pram
  else noLoad

theorem compareNames_padName (name : List Byte) : compareNames (padName name) = transModeOf name := by
  unfold compareNames transModeOf
  rw [strEq_padName (by decide) (by decide), strEq_padName (by decide) (by decide),
    strEq_padName (by decide) (by decide), strEq_padName (by decide) (by decide),
    strEq_padName (by decide) (by decide), strEq_padName (by decide) (by decide)]
  simp only [Bool.or_eq_true, decide_eq_true_eq]

/-- The mode of a memory space is that of its name. -/
theorem Tables.getVspaSectionTransMode {info : VspaSecInfo} {spaces : List (BitVec 32 × List Byte)}
    {maps : List (BitVec 32 × BitVec 32)} (h : Tables info spaces maps) (hle : spaces.length ≤ maxVspaMemspace)
    {memspaceId : ℕ} (hid : memspaceId < 2 ^ 32) :
    Vspa.getVspaSectionTransMode info memspaceId = memspaceMode spaces (BitVec.ofNat 32 memspaceId) := by
  have hsearch := elim_find?_range (d := noLoad) (f := fun e : BitVec 32 × List Byte => transModeOf e.2)
    (q := fun e => decide (e.1 = BitVec.ofNat 32 memspaceId)) (l := spaces)
    (p := fun i => decide (((u32 info.memspaceMap (36 * i)).toNat : ℤ) = memspaceId))
    (g := fun i => compareNames (bytes info.memspaceMap (36 * i + 20) 16)) fun i e he => by
      obtain ⟨hspace, hname⟩ := h.space i e he
      push_cast at hspace hname
      refine ⟨?_, by rw [hname, compareNames_padName]⟩
      rw [hspace, decide_eq_decide, Nat.cast_inj, ← BitVec.toNat_inj, BitVec.toNat_ofNat, Nat.mod_eq_of_lt hid]
  have hmin : min info.vspaMemspaceCount 128 = spaces.length := by
    rw [h.memspaceCount]
    exact Nat.min_eq_left (hle.trans (by decide))
  unfold Vspa.getVspaSectionTransMode memspaceMode
  rw [if_neg (by omega), hmin, ← hsearch]
  dsimp only
  cases (List.range spaces.length).find?
    fun i : ℕ => decide (((u32 info.memspaceMap (36 * i)).toNat : ℤ) = memspaceId) <;> rfl

/-! ### Sections that are resolved -/

/-- Entry `k` is the first that names the section. -/
structure FirstNames (maps : List (BitVec 32 × BitVec 32)) (secNum k : ℕ) (e : BitVec 32 × BitVec 32) : Prop where
  get : maps[k]? = some e
  names : e.1 = BitVec.ofNat 32 secNum
  before : ∀ j < k, ∀ e', maps[j]? = some e' → e'.1 ≠ BitVec.ofNat 32 secNum

section First

variable {maps : List (BitVec 32 × BitVec 32)} {secNum k : ℕ} {e : BitVec 32 × BitVec 32}

theorem FirstNames.unique {k' : ℕ} {e' : BitVec 32 × BitVec 32} (h : FirstNames maps secNum k e)
    (h' : FirstNames maps secNum k' e') : k = k' ∧ e = e' := by
  have hk : k = k' := by
    rcases Nat.lt_trichotomy k k' with hlt | heq | hgt
    · exact absurd h.names (h'.before k hlt e h.get)
    · exact heq
    · exact absurd h'.names (h.before k' hgt e' h'.get)
  subst hk
  exact ⟨rfl, Option.some.inj (h.get.symm.trans h'.get)⟩

theorem exists_firstNames (h : maps.find? (fun e => e.1 = BitVec.ofNat 32 secNum) = some e) :
    ∃ k, FirstNames maps secNum k e := by
  obtain ⟨hnames, k, hk, hget, hbefore⟩ := List.find?_eq_some_iff_getElem.mp h
  refine ⟨k, List.getElem?_eq_some_iff.mpr ⟨hk, hget⟩, of_decide_eq_true hnames, fun j hj e' he' => ?_⟩
  obtain ⟨hj', rfl⟩ := List.getElem?_eq_some_iff.mp he'
  simpa using hbefore j hj

/-- The search in the first `n` entries finds it if it is one of them. -/
theorem FirstNames.find?_take (h : FirstNames maps secNum k e) (n : ℕ) :
    (maps.take n).find? (fun e => e.1 = BitVec.ofNat 32 secNum) = if k < n then some e else none := by
  obtain ⟨hk, hget⟩ := List.getElem?_eq_some_iff.mp h.get
  by_cases hn : k < n
  · rw [if_pos hn, List.find?_eq_some_iff_getElem]
    refine ⟨decide_eq_true h.names, k, by rw [List.length_take]; omega, by rw [List.getElem_take]; exact hget,
      fun j hj => ?_⟩
    rw [List.getElem_take]
    simpa using h.before j hj _ (List.getElem?_eq_getElem (by omega))
  · rw [if_neg hn, List.find?_eq_none]
    intro e' he'
    obtain ⟨j, hj⟩ := List.mem_iff_getElem?.mp he'
    rw [List.getElem?_take] at hj
    split_ifs at hj with hjn
    simpa using h.before j (by omega) e' hj

end First

/-- If some record names the section, the first that does is among the first
128, and its memory space is below 128, or its low byte is and gives the same
mode. -/
def Resolvable (rs : List MwRecord) (secNum : ℕ) : Prop :=
  ∀ k e, FirstNames (sectionMaps rs) secNum k e →
    k < 128 ∧ e.2.toNat % 256 < 128 ∧
      memspaceMode (memspaces rs) (BitVec.ofNat 32 (e.2.toNat % 256)) = memspaceMode (memspaces rs) e.2

/-- The low byte of a number as an `int8_t`. -/
theorem toInt_setWidth (x : BitVec 32) :
    (x.setWidth 8).toInt = if x.toNat % 256 < 128 then ((x.toNat % 256 : ℕ) : ℤ) else (x.toNat % 256 : ℕ) - 256 := by
  rw [BitVec.toInt_eq_toNat_cond, BitVec.toNat_setWidth]
  norm_num
  exact if_congr (by omega) rfl rfl

section Resolution

variable {info : VspaSecInfo} {rs : List MwRecord}

/-- A section that some record names, by what the loader finds. -/
theorem resolution_of_first (h : Tables info (memspaces rs) (sectionMaps rs))
    (hle : (memspaces rs).length ≤ maxVspaMemspace) {secNum k : ℕ} {e : BitVec 32 × BitVec 32}
    (hfirst : FirstNames (sectionMaps rs) secNum k e) :
    resolution info secNum =
      if k < 128 ∧ e.2.toNat % 256 < 128 then
        some (memspaceMode (memspaces rs) (BitVec.ofNat 32 (e.2.toNat % 256)))
      else none := by
  unfold resolution
  rw [h.isVspaSectionValid, hfirst.find?_take]
  by_cases hk : k < 128
  · rw [if_pos hk, Option.elim_some, toInt_setWidth]
    by_cases hlow : e.2.toNat % 256 < 128
    · rw [if_pos hlow, if_pos (Int.natCast_nonneg _), if_pos ⟨hk, hlow⟩,
        h.getVspaSectionTransMode hle (hlow.trans (by decide))]
    · rw [if_neg hlow, if_neg (by omega), if_neg fun hc => hlow hc.2]
  · rw [if_neg hk, Option.elim_none, if_neg (by decide), if_neg fun hc => hk hc.1]

/-- A section is resolved as the records say exactly if it is resolvable. -/
theorem resolution_eq_iff (h : Tables info (memspaces rs) (sectionMaps rs))
    (hle : (memspaces rs).length ≤ maxVspaMemspace) (secNum : ℕ) :
    resolution info secNum = resolve rs secNum ↔ Resolvable rs secNum := by
  unfold resolve
  rcases hfind : (sectionMaps rs).find? (fun e => e.1 = BitVec.ofNat 32 secNum) with _ | e
  · -- no record names the section
    have hnone : (((sectionMaps rs).take 128).find? fun e => e.1 = BitVec.ofNat 32 secNum) = none := by
      rw [List.find?_eq_none] at hfind ⊢
      exact fun e he => hfind e (List.mem_of_mem_take he)
    refine iff_of_true ?_ fun k e hfirst => ?_
    · unfold resolution
      rw [h.isVspaSectionValid, hnone, hfind, Option.elim_none, if_neg (by decide)]
      rfl
    · have hmem := List.mem_of_getElem? hfirst.get
      exact absurd hfirst.names (by simpa using List.find?_eq_none.mp hfind e hmem)
  · obtain ⟨k, hfirst⟩ := exists_firstNames hfind
    rw [resolution_of_first h hle hfirst, hfind, Option.map_some]
    have hres : Resolvable rs secNum ↔ k < 128 ∧ e.2.toNat % 256 < 128 ∧
        memspaceMode (memspaces rs) (BitVec.ofNat 32 (e.2.toNat % 256)) = memspaceMode (memspaces rs) e.2 := by
      constructor
      · exact fun hall => hall k e hfirst
      · rintro hcond k' e' hfirst'
        obtain ⟨rfl, rfl⟩ := hfirst.unique hfirst'
        exact hcond
    rw [hres]
    by_cases hcond : k < 128 ∧ e.2.toNat % 256 < 128
    · rw [if_pos hcond, Option.some.injEq]
      exact ⟨fun heq => ⟨hcond.1, hcond.2, heq⟩, fun hall => hall.2.2⟩
    · rw [if_neg hcond]
      exact iff_of_false (Option.some_ne_none _).symm fun hall => hcond ⟨hall.1, hall.2.1⟩

end Resolution

/-- **Which sections are resolved as the records say.** In an image whose
`.mw_info` holds the records `rs`, of which no more name sections than there
are sections, the loader comes to tables by which section `secNum` is resolved
as the records say exactly if there are at most four memory spaces and the
section is resolvable. -/
theorem resolves_iff {F : Mem} {hd : FileHeader} {i fuel : ℕ} {rs : List MwRecord}
    (hmw : (List.range hd.fhShnum.toNat).find? (isMwInfo F hd) = some i)
    (hfound : Found F ((sectionHeader F hd.fhShoff i).secOffset.toNat + (sectionHeader F hd.fhShoff i).secSize.toNat)
      (sectionHeader F hd.fhShoff i).secOffset.toNat rs)
    (hcnt : (sectionMaps rs).length ≤ hd.fhShnum.toNat) (hfuel : rs.length < fuel) (secNum : ℕ) :
    (∃ info, fwReadAndLoadSectionsInfo fuel F hd true = .ok info ∧ resolution info secNum = resolve rs secNum) ↔
      (memspaces rs).length ≤ maxVspaMemspace ∧ Resolvable rs secNum := by
  have hloop := @recordLoop_found _ _ hd.fhShnum.toNat rs _ _ _ _ _ tables_zero hfound hfuel
    (by rwa [List.length_nil, Nat.zero_add]) (Nat.zero_le _)
  rw [List.length_nil, Nat.zero_add, List.nil_append, List.nil_append] at hloop
  unfold fwReadAndLoadSectionsInfo
  rw [hmw]
  dsimp only
  rw [if_pos rfl]
  by_cases hle : (memspaces rs).length ≤ maxVspaMemspace
  · rw [if_pos hle] at hloop
    obtain ⟨info, hok, htab⟩ := hloop
    rw [hok]
    constructor
    · rintro ⟨info', ⟨⟩, hres⟩
      exact ⟨hle, (resolution_eq_iff htab hle secNum).mp hres⟩
    · rintro ⟨-, hres⟩
      exact ⟨info, rfl, (resolution_eq_iff htab hle secNum).mpr hres⟩
  · rw [if_neg hle] at hloop
    rw [hloop]
    refine iff_of_false ?_ fun h => hle h.1
    rintro ⟨info, hok, -⟩
    cases hok

/-! ### Three images -/

instance (m : Mem) (ptr : ℤ) : ∀ r : MwRecord, Decidable (r.At m ptr)
  | .memspace _ name => inferInstanceAs (Decidable (_ ∧ _ ∧ _ ∧ _ ∧ bytes m (ptr + 25) name.length = name))
  | .sectionMap _ _ => inferInstanceAs (Decidable (_ ∧ _ ∧ _ ∧ _))
  | .other _ => inferInstanceAs (Decidable (_ ∧ _))

instance decidableFound (m : Mem) (sectionEnd : ℤ) : ∀ (rs : List MwRecord) (ptr : ℤ), Decidable (Found m sectionEnd ptr rs)
  | [], ptr => inferInstanceAs (Decidable (ptr < sectionEnd → m (ptr + 4) = 0))
  | r :: rs, ptr =>
    have := decidableFound m sectionEnd rs (ptr + r.size)
    inferInstanceAs (Decidable (_ ∧ r.At m ptr ∧ _))

/-- The name `dram` in 16 bytes. -/
def dramName : List Byte := ascii ['d', 'r', 'a', 'm'] ++ List.replicate 12 0

/-- A record for the memory space `memspaceId`, named `dram`. -/
def memspaceBytes (memspaceId : BitVec 32) : List Byte :=
  [41, 0, 0, 0, 14] ++ le32 memspaceId ++ List.replicate 16 0 ++ dramName

/-- The records of `n` memory spaces named `dram`, of which the last, `memspaceId`, is
that of section 0. -/
def mapRecords (n : ℕ) (memspaceId : BitVec 32) : List MwRecord :=
  (List.replicate n (.memspace memspaceId dramName)) ++ [.sectionMap 0 memspaceId]

/-- An image with these records. -/
def mapImage (n : ℕ) (memspaceId : BitVec 32) : Mem :=
  mwImage ((List.replicate n (memspaceBytes memspaceId)).flatten ++ [13, 0, 0, 0, 15] ++ le32 0 ++ le32 memspaceId)

/-- Section 0 belongs to memory space 128, `dram`, and is taken for one that
is not in the map; and of five memory spaces the last is copied beyond its
table. -/
theorem sections_misresolved :
    (Found (mapImage 1 128) (68 + 54) 68 (mapRecords 1 128) ∧ resolve (mapRecords 1 128) 0 = some dmemNc ∧
      ¬ ∃ info, fwReadAndLoadSectionsInfo 3 (mapImage 1 128) (fileHeader (mapImage 1 128)) true = .ok info ∧
        resolution info 0 = resolve (mapRecords 1 128) 0) ∧
    (Found (mapImage 5 0) (68 + 218) 68 (mapRecords 5 0) ∧ resolve (mapRecords 5 0) 0 = some dmemNc ∧
      ¬ ∃ info, fwReadAndLoadSectionsInfo 7 (mapImage 5 0) (fileHeader (mapImage 5 0)) true = .ok info ∧
        resolution info 0 = resolve (mapRecords 5 0) 0) := by
  have h128 : ∀ info ∈ (fwReadAndLoadSectionsInfo 3 (mapImage 1 128) (fileHeader (mapImage 1 128)) true).info,
      resolution info 0 ≠ resolve (mapRecords 1 128) 0 := by
    decide +kernel
  have hfive : (fwReadAndLoadSectionsInfo 7 (mapImage 5 0) (fileHeader (mapImage 5 0)) true).info.isNone := by
    decide +kernel
  refine ⟨⟨by decide +kernel, by decide +kernel, ?_⟩, by decide +kernel, by decide +kernel, ?_⟩
  · rintro ⟨info, hok, hres⟩
    exact h128 info (by rw [hok]; rfl) hres
  · rintro ⟨info, hok, -⟩
    rw [hok] at hfive
    cases hfive

/-- Memory space 3 is found. -/
theorem resolves_dram :
    ∃ info, fwReadAndLoadSectionsInfo 3 (mapImage 1 3) (fileHeader (mapImage 1 3)) true = .ok info ∧
      resolution info 0 = resolve (mapRecords 1 3) 0 := by
  have hres : Resolvable (mapRecords 1 3) 0 := by
    intro k e hfirst
    have hget := hfirst.get
    rcases k with _ | k
    · obtain rfl := Option.some.inj hget
      exact ⟨by decide, by decide, rfl⟩
    · cases hget
  exact (resolves_iff (F := mapImage 1 3) (i := 1) (by decide +kernel) (by decide +kernel) (by decide +kernel)
    (by decide +kernel) 0).mpr ⟨by decide +kernel, hres⟩

end Vspa
end La12xx
