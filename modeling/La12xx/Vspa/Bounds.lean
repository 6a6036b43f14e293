/-
# What the parser of an image accesses

The two passes over an image, `fw_read_and_load_sections_info` and
`fw_read_and_load_sections`, as the accesses they make: what they read of the
file, and which entries of the two tables they copy a record into. (The file
header is read before, by `gul_load_vspa_image`.)

No offset, index or count of the file is compared with the size of the file:
the check that would, `check_fw_section_info`, is not compiled, the one of the
number of memory spaces only warns, and the size of a section is compared
without its offset. `in_bounds_iff_fits` says which files are parsed within
their bounds all the same.
-/
import La12xx.Vspa.Chunks
import La12xx.Vspa.Overlays
import La12xx.Vspa.Records

namespace La12xx
namespace Vspa

open ByteMem Tiling While

/-! ### Accesses -/

/-- An access: `n` bytes of the file, or from a null pointer, are read, or
`n = record_size - 5` bytes of a record are copied into entry `i` of
`memspace_map` or of `section_memspace_map`. -/
inductive ImageAccess where
  | file (off : ℤ) (n : ℕ)
  | null (n : ℕ)
  | memspace (i : ℕ) (n : ℤ)
  | sectionMap (i : ℕ) (n : ℤ)
deriving DecidableEq, Repr

/-- `sizeof(mw_info_type_14)` -/
def mwInfoType14Size : ℕ := 36

/-- `sizeof(mw_info_type_15)` -/
def mwInfoType15Size : ℕ := 8

/-- What is read lies in the file, and what is copied has a size and fits its
entry, which is one of the table. -/
def ImageAccess.InBounds (fwSize secCnt : ℕ) : ImageAccess → Prop
  | .file off n => n = 0 ∨ (0 ≤ off ∧ off + n ≤ fwSize)
  | .null n => n = 0
  | .memspace i n => i < maxVspaMemspace ∧ 0 ≤ n ∧ n ≤ mwInfoType14Size
  | .sectionMap i n => i < secCnt ∧ 0 ≤ n ∧ n ≤ mwInfoType15Size

instance (fwSize secCnt : ℕ) : DecidablePred (ImageAccess.InBounds fwSize secCnt)
  | .file _ _ => inferInstanceAs (Decidable (_ ∨ _))
  | .null _ => inferInstanceAs (Decidable (_ = _))
  | .memspace _ _ => inferInstanceAs (Decidable (_ ∧ _))
  | .sectionMap _ _ => inferInstanceAs (Decidable (_ ∧ _))

/-- How many bytes `strncmp` looks at when it compares what is at `a` with
`s`: it stops at the first that differs. -/
def strncmpLen (m : Mem) : ℤ → List Byte → ℕ
  | _, [] => 0
  | a, c :: s => if m a = c then strncmpLen m (a + 1) s + 1 else 1

/-- Where header `i` is. -/
def headerAt (shoff : BitVec 32) (i : ℕ) : ℤ := shoff.toNat + 40 * i

/-! ### The first pass -/

/-- Where the first pass looks for the name of section `i`. -/
def scanName (m : Mem) (hd : FileHeader) (i : ℕ) : ℤ :=
  stringTable m hd + (sectionHeader m hd.fhShoff i).secName.toNat

/-- A round of the search for `.mw_info`: `sec_offset`, `sec_size`, `sec_name`
and the name. -/
def scanAccesses (m : Mem) (hd : FileHeader) (i : ℕ) : List ImageAccess :=
  let h := headerAt hd.fhShoff i
  [.file (h + 16) 4, .file (h + 20) 4, .file h 4,
    .file (scanName m hd i) (strncmpLen m (scanName m hd i) (ascii ['.', 'm', 'w', '_', 'i', 'n', 'f', 'o']))]

/-- The search, over the `k` sections from `i` on. -/
def findAccesses (m : Mem) (hd : FileHeader) : ℕ → ℕ → List ImageAccess
  | 0, _ => []
  | k + 1, i => scanAccesses m hd i ++ if isMwInfo m hd i then [] else findAccesses m hd k (i + 1)

/-- Where the record loop is: `section_ptr`, `vspa_memspace_count` and
`vspa_sec_count`. -/
structure Cursor where
  ptr : ℤ
  memspaces : ℕ
  sections : ℕ
deriving DecidableEq, Repr

/-- What a round does to it. -/
def cursorBody (m : Mem) (c : Cursor) : Option Cursor :=
  (recordBody m c.ptr).map fun next =>
    ⟨next, if (m (c.ptr + 4)).toNat = 14 then c.memspaces + 1 else c.memspaces,
      if (m (c.ptr + 4)).toNat = 15 then c.sections + 1 else c.sections⟩

/-- A round of the record loop: the size, the type, and the copy of the record.
(A copy of less than no bytes is out of bounds whatever it reads.) -/
def recordAccesses (m : Mem) (c : Cursor) : List ImageAccess :=
  let n : ℤ := (m c.ptr).toNat - 5
  let read : ImageAccess := .file (c.ptr + 5) n.toNat
  .file c.ptr 1 :: .file (c.ptr + 4) 1 ::
    if (m (c.ptr + 4)).toNat = 14 then [.memspace c.memspaces n, read]
    else if (m (c.ptr + 4)).toNat = 15 then [.sectionMap c.sections n, read]
    else []

/-- The end of a section. -/
def SectionHeader.fileEnd (hdr : SectionHeader) : ℤ := hdr.secOffset.toNat + hdr.secSize.toNat

/-- The record loop over a section, for at most `fuel` rounds. -/
def recordLoopAccesses (fuel : ℕ) (m : Mem) (hdr : SectionHeader) : List ImageAccess :=
  outputs (fun c : Cursor => c.ptr < hdr.fileEnd) (cursorBody m) (recordAccesses m) fuel
    ⟨hdr.secOffset.toNat, 0, 0⟩

/-- `fw_read_and_load_sections_info` -/
def infoAccesses (fuel : ℕ) (m : Mem) (hd : FileHeader) (kcalloc : Bool) : List ImageAccess :=
  .file (headerAt hd.fhShoff hd.fhShstrndx.toNat + 16) 4 :: findAccesses m hd hd.fhShnum.toNat 0 ++
    match (List.range hd.fhShnum.toNat).find? (isMwInfo m hd) with
    | some i => if kcalloc then recordLoopAccesses fuel m (sectionHeader m hd.fhShoff i) else []
    | none => []

/-! ### The second pass -/

/-- `is_vspa_section_loadable`, on the name at `a`. -/
def loadableAccesses (m : Mem) (a : ℤ) : List (List Byte) → List ImageAccess
  | [] => []
  | p :: ps => .file a (strncmpLen m a p) :: if bytes m a p.length = p then [] else loadableAccesses m a ps

/-- What a copy reads. -/
def Copy.access (c : Copy) : ImageAccess :=
  match c.src with
  | some p => .file p c.size.toNat
  | none => .null c.size.toNat

section Pass

variable (V : VspaDev) (info : VspaSecInfo) (dma : ℕ → DmaResp) (shoff : BitVec 32) (str : ℤ) (fwSize : ℕ)

/-- What the branch of the selected sections reads: `sec_offset`, and the
pieces that are moved to the bounce buffer. The log line about an unaligned
address reads the name once more and is left out. -/
def selectedAccesses (st : LoadState) (secNum : ℕ) (hdr : SectionHeader) : List ImageAccess :=
  let sectionSize := align hdr.secSize V.axiAlign
  let xfrCtrl := getVspaSectionTransMode info (isVspaSectionValid info secNum)
  if sectionSize = 0 then []
  else if sectionSize.toNat > fwSize then []
  else if hdr.secAddr &&& (V.axiAlign - 1) ≠ 0 then []
  else .file (headerAt shoff secNum + 16) 4 ::
    if xfrCtrl ≠ noLoad then
      (dmaIssue dma st.sent ⟨xfrCtrl, hdr.secAddr, hdr.secOffset.toNat, sectionSize.toNat⟩).reqs.map fun q =>
        .file q.axiAddr q.byteCnt
    else []

/-- What the other branch reads: `sec_info`, `sec_offset` if that is set, and
what is copied. -/
def overlayAccesses (st : LoadState) (secNum : ℕ) (hdr : SectionHeader) : List ImageAccess :=
  .file (headerAt shoff secNum + 28) 4 ::
    ((if hdr.secInfo ≠ 0 then [.file (headerAt shoff secNum + 16) 4] else []) ++
      (overlaySection V st hdr).1.copy.toList.map Copy.access)

/-- A round of the second pass: `sec_addr`, `sec_size`, `sec_name`, the name,
and one of the two branches. -/
def sectionAccesses (st : LoadState) (secNum : ℕ) : List ImageAccess :=
  let (hdr, name) := readSection st.mem shoff str secNum
  [.file (headerAt shoff secNum + 12) 4, .file (headerAt shoff secNum + 20) 4, .file (headerAt shoff secNum) 4] ++
    (loadableAccesses st.mem (str + hdr.secName.toInt) vspaLoadableSection ++
      if isSelected info secNum name then selectedAccesses V info dma shoff fwSize st secNum hdr
      else overlayAccesses V shoff st secNum hdr)

end Pass

/-- `fw_read_and_load_sections` -/
def loadAccesses (V : VspaDev) (info : VspaSecInfo) (dma : ℕ → DmaResp) (hd : FileHeader) (fwSize : ℕ) (F : Mem) :
    List ImageAccess :=
  .file (headerAt hd.fhShoff hd.fhShstrndx.toNat + 16) 4 ::
    (imageSteps V info dma hd fwSize F).flatMap fun p =>
      sectionAccesses V info dma hd.fhShoff (stringTable F hd) fwSize p.1 p.2.secNum

/-- The two passes, as `gul_load_vspa_image` calls them, with at most `fuel`
rounds of the record loop. -/
def imageAccesses (fuel : ℕ) (V : VspaDev) (kcalloc : Bool) (dma : ℕ → DmaResp) (F : Mem) (fwSize : ℕ) :
    List ImageAccess :=
  let hd := fileHeader F
  if hd.fhMachine ≠ gccMachCode ∧ hd.fhMachine ≠ iscapeMachCode then [] else
    infoAccesses fuel F hd kcalloc ++
      match fwReadAndLoadSectionsInfo fuel F hd kcalloc with
      | .ok info => loadAccesses V info dma hd fwSize F
      | _ => []

/-- However long the record loop runs, all accesses are in bounds. -/
def ParsedInBounds (V : VspaDev) (kcalloc : Bool) (dma : ℕ → DmaResp) (F : Mem) (fwSize : ℕ) : Prop :=
  ∀ fuel, ∀ a ∈ imageAccesses fuel V kcalloc dma F fwSize, a.InBounds fwSize (fileHeader F).fhShnum.toNat

/-! ### Files that fit -/

/-- The `n` bytes at `off` lie in the file. -/
def InFile (fwSize : ℕ) (off : ℤ) (n : ℕ) : Prop := 0 ≤ off ∧ off + n ≤ fwSize

/-- The first `n` bytes of header `i` lie in the file. -/
def HeaderFits (fwSize : ℕ) (shoff : BitVec 32) (i n : ℕ) : Prop := shoff.toNat + 40 * i + n ≤ fwSize

/-- The search can look at section `i`: its header, and as much of its name as
is compared. -/
def ScanFits (fwSize : ℕ) (m : Mem) (hd : FileHeader) (i : ℕ) : Prop :=
  HeaderFits fwSize hd.fhShoff i 24 ∧
    scanName m hd i + strncmpLen m (scanName m hd i) (ascii ['.', 'm', 'w', '_', 'i', 'n', 'f', 'o']) ≤ fwSize

/-- The record lies in the file, at least up to its type; a memory space or a
section is not larger than its entry, and there is an entry left for it. -/
structure RecordFits (fwSize secCnt : ℕ) (m : Mem) (c : Cursor) : Prop where
  type : c.ptr + 5 ≤ fwSize
  memspace : (m (c.ptr + 4)).toNat = 14 → c.memspaces < maxVspaMemspace ∧ 5 ≤ (m c.ptr).toNat ∧
    (m c.ptr).toNat ≤ 5 + mwInfoType14Size ∧ c.ptr + (m c.ptr).toNat ≤ fwSize
  sectionMap : (m (c.ptr + 4)).toNat = 15 → c.sections < secCnt ∧ 5 ≤ (m c.ptr).toNat ∧
    (m c.ptr).toNat ≤ 5 + mwInfoType15Size ∧ c.ptr + (m c.ptr).toNat ≤ fwSize

/-- Every record the loop comes to fits. -/
def RecordsFit (fwSize secCnt : ℕ) (m : Mem) (hdr : SectionHeader) : Prop :=
  ∀ c, Reaches (fun c : Cursor => c.ptr < hdr.fileEnd) (cursorBody m) ⟨hdr.secOffset.toNat, 0, 0⟩ c →
    c.ptr < hdr.fileEnd → RecordFits fwSize secCnt m c

/-- Piece `k` of a section is moved to the bounce buffer: those before it were
sent, and its address is in the memory of the core. -/
def Moved (dma : ℕ → DmaResp) (addr : BitVec 32) (sent k : ℕ) : Prop :=
  (∀ i < k, ¬ Refused dma addr sent i) ∧ (pieceAddr addr k).toNat < vspaDramSize

section Pass

variable (V : VspaDev) (info : VspaSecInfo) (dma : ℕ → DmaResp) (shoff : BitVec 32) (str : ℤ) (fwSize : ℕ)

/-- A selected section that is not turned away has the pieces that are moved in
the file. -/
def SelectedFits (st : LoadState) (secNum : ℕ) (hdr : SectionHeader) : Prop :=
  let n := (align hdr.secSize V.axiAlign).toNat
  n = 0 ∨ fwSize < n ∨ hdr.secAddr &&& (V.axiAlign - 1) ≠ 0 ∨
    getVspaSectionTransMode info (isVspaSectionValid info secNum) = noLoad ∨
    ∀ k < pieces n, Moved dma hdr.secAddr st.sent k →
      hdr.secOffset.toNat + (maxDmaTransfer * k + chunkLen maxDmaTransfer n k) ≤ fwSize

/-- Another section has its whole header in the file, and what is copied of it
as well. -/
def OverlayFits (st : LoadState) (secNum : ℕ) (hdr : SectionHeader) : Prop :=
  HeaderFits fwSize shoff secNum 32 ∧ ∀ region ∈ copyTarget V hdr,
    (align hdr.secSize V.axiAlign).toNat = 0 ∨
      ∃ p ∈ copySource st hdr, InFile fwSize p (align hdr.secSize V.axiAlign).toNat

/-- The second pass can treat the section: its header, as much of its name as
is compared, and what is taken of it lie in the file. -/
def SectionFits (st : LoadState) (secNum : ℕ) : Prop :=
  let (hdr, name) := readSection st.mem shoff str secNum
  HeaderFits fwSize shoff secNum 24 ∧
    (∀ p ∈ vspaLoadableSection,
      InFile fwSize (str + hdr.secName.toInt) (strncmpLen st.mem (str + hdr.secName.toInt) p)) ∧
    if isSelected info secNum name then SelectedFits V info dma fwSize st secNum hdr
    else OverlayFits V shoff fwSize st secNum hdr

end Pass

/-- The file is well-formed as far as the two passes look at it: the header of
the names, every section up to `.mw_info`, every record of that, and, in the
image as the sections before leave it, every section the second pass comes
to. -/
structure FileFits (V : VspaDev) (kcalloc : Bool) (dma : ℕ → DmaResp) (F : Mem) (fwSize : ℕ) (hd : FileHeader) :
    Prop where
  names : HeaderFits fwSize hd.fhShoff hd.fhShstrndx.toNat 20
  scan : ∀ i < hd.fhShnum.toNat, (∀ j < i, ¬ isMwInfo F hd j = true) → ScanFits fwSize F hd i
  records : kcalloc = true → ∀ i ∈ (List.range hd.fhShnum.toNat).find? (isMwInfo F hd),
    RecordsFit fwSize hd.fhShnum.toNat F (sectionHeader F hd.fhShoff i)
  sections : ∀ fuel info, fwReadAndLoadSectionsInfo fuel F hd kcalloc = .ok info → ∀ i < hd.fhShnum.toNat,
    (∀ j < i, ¬ Loud V info dma hd.fhShoff (stringTable F hd) fwSize
      (arrival V info hd.fhShoff (stringTable F hd) F j) j) →
    SectionFits V info dma hd.fhShoff (stringTable F hd) fwSize
      (arrival V info hd.fhShoff (stringTable F hd) F i) i

/-! ### The first pass is in bounds -/

theorem file_inBounds_iff {fwSize secCnt n : ℕ} {off : ℤ} (hn : 0 < n) :
    (ImageAccess.file off n).InBounds fwSize secCnt ↔ InFile fwSize off n :=
  or_iff_right hn.ne'

/-- A part of a header. -/
theorem header_inBounds_iff {fwSize secCnt i d : ℕ} {shoff : BitVec 32} :
    (ImageAccess.file (headerAt shoff i + d) 4).InBounds fwSize secCnt ↔ HeaderFits fwSize shoff i (d + 4) := by
  rw [file_inBounds_iff (by decide)]
  unfold InFile HeaderFits headerAt
  omega

theorem HeaderFits.part {fwSize secCnt i n : ℕ} {shoff : BitVec 32} (h : HeaderFits fwSize shoff i n) (d : ℕ)
    (hd : d + 4 ≤ n) : (ImageAccess.file (headerAt shoff i + d) 4).InBounds fwSize secCnt := by
  apply header_inBounds_iff.mpr
  unfold HeaderFits at h ⊢
  omega

theorem strncmpLen_pos {m : Mem} {a : ℤ} {s : List Byte} (hs : s ≠ []) : 0 < strncmpLen m a s := by
  cases s with
  | nil => exact absurd rfl hs
  | cons c s =>
    rw [strncmpLen]
    split_ifs
    · exact Nat.succ_pos _
    · exact Nat.one_pos

theorem strncmpLen_le (m : Mem) : ∀ (a : ℤ) (s : List Byte), strncmpLen m a s ≤ s.length
  | _, [] => le_rfl
  | a, c :: s => by
    rw [strncmpLen, List.length_cons]
    split_ifs
    · exact Nat.succ_le_succ (strncmpLen_le m (a + 1) s)
    · exact Nat.succ_pos _

/-- A string that is there is compared to its end. -/
theorem strncmpLen_of_eq (m : Mem) : ∀ {a : ℤ} {s : List Byte}, bytes m a s.length = s → strncmpLen m a s = s.length
  | _, [], _ => rfl
  | a, c :: s, h => by
    rw [List.length_cons, bytes, List.cons.injEq] at h
    rw [strncmpLen, if_pos h.1, strncmpLen_of_eq m h.2, List.length_cons]

theorem scan_inBounds_iff {fwSize secCnt : ℕ} {m : Mem} {hd : FileHeader} {i : ℕ} :
    (∀ a ∈ scanAccesses m hd i, a.InBounds fwSize secCnt) ↔ ScanFits fwSize m hd i := by
  have hname : 0 ≤ scanName m hd i := by
    unfold scanName stringTable
    omega
  have hlen := @strncmpLen_pos m (scanName m hd i) (ascii ['.', 'm', 'w', '_', 'i', 'n', 'f', 'o']) (by decide)
  have h0 := @header_inBounds_iff fwSize secCnt i 0 hd.fhShoff
  have h16 := @header_inBounds_iff fwSize secCnt i 16 hd.fhShoff
  have h20 := @header_inBounds_iff fwSize secCnt i 20 hd.fhShoff
  rw [Nat.cast_zero, add_zero] at h0
  unfold scanAccesses ScanFits
  simp only [List.forall_mem_cons, List.not_mem_nil, false_imp_iff, implies_true, and_true]
  rw [file_inBounds_iff hlen, h0]
  refine Iff.trans (and_congr h16 (and_congr h20 Iff.rfl)) ?_
  unfold HeaderFits InFile
  omega

/-- The sections the search comes to. -/
theorem forall_findAccesses_iff {P : ImageAccess → Prop} (m : Mem) (hd : FileHeader) : ∀ k i : ℕ,
    (∀ a ∈ findAccesses m hd k i, P a) ↔
      ∀ j, i ≤ j → j < i + k → (∀ l, i ≤ l → l < j → ¬ isMwInfo m hd l = true) → ∀ a ∈ scanAccesses m hd j, P a
  | 0, i => by
    refine iff_of_true (fun a ha => absurd ha List.not_mem_nil) fun j hj hj' => ?_
    omega
  | k + 1, i => by
    have ih := forall_findAccesses_iff (P := P) m hd k (i + 1)
    rw [findAccesses, List.forall_mem_append]
    constructor
    · rintro ⟨hfirst, hrest⟩ j hj hj' hnone
      rcases hj.eq_or_lt with rfl | hlt
      · exact hfirst
      · rw [if_neg (hnone i le_rfl hlt)] at hrest
        exact ih.mp hrest j hlt (by omega) fun l hl hl' => hnone l (by omega) hl'
    · intro h
      refine ⟨h i le_rfl (by omega) fun l hl hl' => by omega, ?_⟩
      by_cases hmw : isMwInfo m hd i = true
      · rw [if_pos hmw]
        exact fun a ha => absurd ha List.not_mem_nil
      · rw [if_neg hmw]
        apply ih.mpr
        intro j hj hj' hnone
        apply h j (by omega) (by omega)
        intro l hl hl'
        rcases hl.eq_or_lt with rfl | hlt
        · exact hmw
        · exact hnone l hlt hl'

theorem record_inBounds_iff {fwSize secCnt : ℕ} {m : Mem} {c : Cursor} (hptr : 0 ≤ c.ptr) :
    (∀ a ∈ recordAccesses m c, a.InBounds fwSize secCnt) ↔ RecordFits fwSize secCnt m c := by
  have hbounds : ∀ l : List ImageAccess,
      (∀ a ∈ ImageAccess.file c.ptr 1 :: .file (c.ptr + 4) 1 :: l, a.InBounds fwSize secCnt) ↔
        c.ptr + 5 ≤ fwSize ∧ ∀ a ∈ l, a.InBounds fwSize secCnt := by
    intro l
    rw [List.forall_mem_cons, List.forall_mem_cons, file_inBounds_iff Nat.one_pos, file_inBounds_iff Nat.one_pos,
      ← and_assoc]
    refine and_congr_left fun _ => ?_
    unfold InFile
    omega
  unfold recordAccesses
  dsimp only
  rw [hbounds]
  by_cases h14 : (m (c.ptr + 4)).toNat = 14
  · rw [if_pos h14]
    simp only [List.forall_mem_cons, List.not_mem_nil, false_imp_iff, implies_true, and_true, ImageAccess.InBounds]
    constructor
    · rintro ⟨htype, ⟨hi, hn, hle⟩, hread⟩
      refine ⟨htype, fun _ => ⟨hi, by omega, by omega, by omega⟩, fun h15 => ?_⟩
      omega
    · rintro ⟨htype, hmem, -⟩
      obtain ⟨hi, hn, hle, hend⟩ := hmem h14
      exact ⟨htype, ⟨hi, by omega, by omega⟩, by omega⟩
  · rw [if_neg h14]
    by_cases h15 : (m (c.ptr + 4)).toNat = 15
    · rw [if_pos h15]
      simp only [List.forall_mem_cons, List.not_mem_nil, false_imp_iff, implies_true, and_true, ImageAccess.InBounds]
      constructor
      · rintro ⟨htype, ⟨hi, hn, hle⟩, hread⟩
        exact ⟨htype, fun h => absurd h h14, fun _ => ⟨hi, by omega, by omega, by omega⟩⟩
      · rintro ⟨htype, -, hsec⟩
        obtain ⟨hi, hn, hle, hend⟩ := hsec h15
        exact ⟨htype, ⟨hi, by omega, by omega⟩, by omega⟩
    · rw [if_neg h15]
      constructor
      · rintro ⟨htype, -⟩
        exact ⟨htype, fun h => absurd h h14, fun h => absurd h h15⟩
      · exact fun h => ⟨h.type, fun a ha => absurd ha List.not_mem_nil⟩

/-- The pointer only goes forward. -/
theorem cursor_ptr_nonneg {m : Mem} {cond : Cursor → Prop} {c c' : Cursor} (h : Reaches cond (cursorBody m) c c')
    (hc : 0 ≤ c.ptr) : 0 ≤ c'.ptr := by
  refine h.inv (I := fun c => 0 ≤ c.ptr) (fun s t hs _ hbody => ?_) hc
  obtain ⟨next, hnext, rfl⟩ := Option.map_eq_some_iff.mp hbody
  unfold recordBody at hnext
  by_cases htype : (m (s.ptr + 4)).toNat = 0
  · rw [if_pos htype] at hnext
    cases hnext
  · rw [if_neg htype] at hnext
    obtain rfl := Option.some.inj hnext
    show 0 ≤ s.ptr + ((m s.ptr).toNat : ℤ)
    omega

theorem records_inBounds_iff {fwSize secCnt : ℕ} {m : Mem} {hdr : SectionHeader} :
    (∀ fuel, ∀ a ∈ recordLoopAccesses fuel m hdr, a.InBounds fwSize secCnt) ↔ RecordsFit fwSize secCnt m hdr := by
  unfold recordLoopAccesses RecordsFit
  rw [forall_outputs_iff]
  apply forall_congr'
  intro c
  apply forall_congr'
  intro hreach
  apply forall_congr'
  intro _
  exact record_inBounds_iff (cursor_ptr_nonneg hreach (Int.natCast_nonneg _))

theorem info_inBounds_iff {fwSize secCnt : ℕ} {F : Mem} {hd : FileHeader} {kcalloc : Bool} :
    (∀ fuel, ∀ a ∈ infoAccesses fuel F hd kcalloc, a.InBounds fwSize secCnt) ↔
      HeaderFits fwSize hd.fhShoff hd.fhShstrndx.toNat 20 ∧
        (∀ i < hd.fhShnum.toNat, (∀ j < i, ¬ isMwInfo F hd j = true) → ScanFits fwSize F hd i) ∧
        (kcalloc = true → ∀ i ∈ (List.range hd.fhShnum.toNat).find? (isMwInfo F hd),
          RecordsFit fwSize secCnt F (sectionHeader F hd.fhShoff i)) := by
  have hnames : (ImageAccess.file (headerAt hd.fhShoff hd.fhShstrndx.toNat + 16) 4).InBounds fwSize secCnt ↔ _ :=
    header_inBounds_iff
  have hscan := @forall_findAccesses_iff (·.InBounds fwSize secCnt) F hd hd.fhShnum.toNat 0
  simp only [Nat.zero_le, true_implies, Nat.zero_add, scan_inBounds_iff] at hscan
  unfold infoAccesses
  simp only [List.cons_append, List.forall_mem_cons, List.forall_mem_append, forall_and, forall_const]
  refine and_congr hnames (and_congr hscan ?_)
  rcases (List.range hd.fhShnum.toNat).find? (isMwInfo F hd) with _ | i
  · simp
  · cases kcalloc with
    | false => simp
    | true =>
      simp only [if_true, forall_const, Option.mem_def, Option.some.injEq, forall_eq']
      exact records_inBounds_iff

/-- Where every record fits, no record is copied over the end of a table. -/
theorem recordLoop_ne_overrun {fwSize secCnt : ℕ} {m : Mem} {sectionEnd : ℤ} :
    ∀ (fuel : ℕ) (ptr : ℤ) (info : VspaSecInfo), (∀ c, Reaches (fun c : Cursor => c.ptr < sectionEnd) (cursorBody m)
      ⟨ptr, info.vspaMemspaceCount, info.vspaSecCount⟩ c → c.ptr < sectionEnd → RecordFits fwSize secCnt m c) →
    recordLoop m sectionEnd secCnt fuel ptr info ≠ .overrun
  | 0, _, _, _ => Parsed.noConfusion
  | fuel + 1, ptr, info, hfits => by
    rw [recordLoop]
    by_cases hptr : ptr < sectionEnd
    · have hfirst := hfits _ (.refl _) hptr
      rw [if_pos hptr]
      dsimp only
      by_cases h0 : (m (ptr + 4)).toNat = 0
      · rw [if_pos h0]
        exact Parsed.noConfusion
      -- the rounds after this one are reached through its cursor
      have hrest : ∀ info' : VspaSecInfo,
          info'.vspaMemspaceCount =
            (if (m (ptr + 4)).toNat = 14 then info.vspaMemspaceCount + 1 else info.vspaMemspaceCount) →
          info'.vspaSecCount = (if (m (ptr + 4)).toNat = 15 then info.vspaSecCount + 1 else info.vspaSecCount) →
          recordLoop m sectionEnd secCnt fuel (ptr + (m ptr).toNat) info' ≠ .overrun := by
        intro info' hmem hsec
        apply recordLoop_ne_overrun fuel
        intro c hreach
        have hbody : cursorBody m ⟨ptr, info.vspaMemspaceCount, info.vspaSecCount⟩ =
            some ⟨ptr + (m ptr).toNat, info'.vspaMemspaceCount, info'.vspaSecCount⟩ := by
          rw [cursorBody, recordBody, if_neg h0, hmem, hsec]
          rfl
        exact hfits c (.round hptr hbody hreach)
      rw [if_neg h0]
      by_cases h14 : (m (ptr + 4)).toNat = 14
      · obtain ⟨hi, hn, hle, -⟩ := hfirst.memspace h14
        dsimp only at hi hn hle
        have hroom : 5 ≤ (m ptr).toNat ∧
            36 * info.vspaMemspaceCount + ((m ptr).toNat - 5) ≤ 36 * maxVspaMemspace := by
          unfold mwInfoType14Size at hle
          omega
        rw [if_pos h14, if_pos hroom]
        apply hrest
        · rw [if_pos h14]
        · rw [if_neg (by omega)]
      · rw [if_neg h14]
        by_cases h15 : (m (ptr + 4)).toNat = 15
        · obtain ⟨hi, hn, hle, -⟩ := hfirst.sectionMap h15
          dsimp only at hi hn hle
          have hroom : 5 ≤ (m ptr).toNat ∧ 8 * info.vspaSecCount + ((m ptr).toNat - 5) ≤ 8 * secCnt := by
            unfold mwInfoType15Size at hle
            omega
          rw [if_pos h15, if_pos hroom]
          apply hrest
          · rw [if_neg h14]
          · rw [if_pos h15]
        · rw [if_neg h15]
          apply hrest
          · rw [if_neg h14]
          · rw [if_neg h15]
    · rw [if_neg hptr]
      exact Parsed.noConfusion

/-! ### The second pass is in bounds -/

/-- The comparisons up to the first that matches read no less than all would, as no later
prefix is longer. -/
theorem loadable_inBounds_iff {fwSize secCnt : ℕ} {m : Mem} {a : ℤ} : ∀ {ps : List (List Byte)}, (∀ p ∈ ps, p ≠ []) →
    ps.Pairwise (fun p q => q.length ≤ p.length) →
    ((∀ x ∈ loadableAccesses m a ps, x.InBounds fwSize secCnt) ↔ ∀ p ∈ ps, InFile fwSize a (strncmpLen m a p))
  | [], _, _ => by simp [loadableAccesses]
  | p :: ps, hne, hlen => by
    rw [List.forall_mem_cons] at hne
    rw [List.pairwise_cons] at hlen
    have ih := @loadable_inBounds_iff fwSize secCnt m a ps hne.2 hlen.2
    rw [loadableAccesses, List.forall_mem_cons, List.forall_mem_cons, file_inBounds_iff (strncmpLen_pos hne.1)]
    by_cases hp : bytes m a p.length = p
    · rw [if_pos hp]
      constructor
      · rintro ⟨hfile, -⟩
        refine ⟨hfile, fun q hq => ?_⟩
        have hq := (strncmpLen_le m a q).trans (hlen.1 q hq)
        rw [strncmpLen_of_eq m hp] at hfile
        unfold InFile at *
        omega
      · exact fun h => ⟨h.1, fun x hx => absurd hx List.not_mem_nil⟩
    · rw [if_neg hp, ih]

/-- The first piece is moved unless its address is refused. -/
theorem moved_zero (dma : ℕ → DmaResp) {offset : BitVec 32} (sent : ℕ)
    (haddr : ¬ (offset &&& pramAddrMask).toNat ≥ vspaDramSize) : Moved dma offset sent 0 := by
  refine ⟨fun i hi => absurd hi (Nat.not_lt_zero i), ?_⟩
  rw [pieceAddr_zero]
  omega

/-- After a first piece that is sent, the others are those of the rest. -/
theorem moved_succ {dma : ℕ → DmaResp} {sent : ℕ} {linfo : DmaParam}
    (haddr : ¬ (linfo.offset &&& pramAddrMask).toNat ≥ vspaDramSize) (hrc : ¬ dmaRawTransmit (dma sent) < 0) (k : ℕ) :
    Moved dma linfo.offset sent (k + 1) ↔ Moved dma linfo.rest.offset (sent + 1) k := by
  have hok : ¬ Refused dma linfo.offset sent 0 := by
    unfold Refused
    rw [pieceAddr_zero]
    exact not_or.mpr ⟨haddr, hrc⟩
  unfold Moved DmaParam.rest
  rw [Nat.forall_lt_succ_left, and_iff_right hok, pieceAddr_succ]
  simp only [refused_succ]

/-- Where only the first piece is moved. -/
theorem mem_first_iff {dma : ℕ → DmaResp} {q : VspaDmaReq} {sent : ℕ} {linfo : DmaParam}
    (haddr : ¬ (linfo.offset &&& pramAddrMask).toNat ≥ vspaDramSize)
    (honly : ∀ k < pieces linfo.size, Moved dma linfo.offset sent k → k = 0) :
    q ∈ [linfo.req 0] ↔ ∃ k < pieces linfo.size, Moved dma linfo.offset sent k ∧ q = linfo.req k := by
  rw [List.mem_singleton]
  constructor
  · exact fun hq => ⟨0, Nat.succ_pos _, moved_zero dma sent haddr, hq⟩
  · rintro ⟨k, hk, hm, hq⟩
    rwa [honly k hk hm] at hq

/-- **The pieces that are moved.** -/
theorem mem_dmaIssueLoop_iff (dma : ℕ → DmaResp) {q : VspaDmaReq} : ∀ (fuel sent : ℕ) (linfo : DmaParam),
    linfo.size < maxDmaTransfer * fuel →
    (q ∈ (dmaIssueLoop dma fuel sent linfo).reqs ↔
      ∃ k < pieces linfo.size, Moved dma linfo.offset sent k ∧ q = linfo.req k)
  | 0, _, linfo, hfuel => by omega
  | fuel + 1, sent, linfo, hfuel => by
    rw [dmaIssueLoop_succ]
    by_cases haddr : (linfo.offset &&& pramAddrMask).toNat ≥ vspaDramSize
    · rw [if_pos haddr]
      refine iff_of_false List.not_mem_nil ?_
      rintro ⟨k, -, ⟨hsent, hlast⟩, -⟩
      rw [← pieceAddr_zero] at haddr
      rcases Nat.eq_zero_or_pos k with rfl | hk
      · omega
      · exact hsent 0 hk (Or.inl haddr)
    rw [if_neg haddr]
    by_cases hrc : dmaRawTransmit (dma sent) < 0
    · rw [if_pos hrc]
      apply mem_first_iff haddr
      intro k _ hm
      by_contra hne
      exact hm.1 0 (Nat.pos_of_ne_zero hne) (Or.inr hrc)
    rw [if_neg hrc]
    by_cases hsize : maxDmaTransfer < linfo.size
    · have ih := @mem_dmaIssueLoop_iff dma q fuel (sent + 1) linfo.rest
        (by unfold DmaParam.rest; rw [Nat.mul_succ] at hfuel; dsimp only; omega)
      rw [if_pos hsize, List.mem_cons]
      refine (or_congr_right ih).trans ?_
      rw [pieces_of_gt hsize, Nat.exists_lt_succ_left]
      refine or_congr ⟨fun hq => ⟨moved_zero dma sent haddr, hq⟩, And.right⟩ ?_
      simp only [moved_succ haddr hrc, req_succ]
      rfl
    · rw [if_neg hsize]
      apply mem_first_iff haddr
      intro k hk _
      rw [pieces_of_le (Nat.le_of_not_gt hsize)] at hk
      omega

section Pass

variable (V : VspaDev) (info : VspaSecInfo) (dma : ℕ → DmaResp) (shoff : BitVec 32) (str : ℤ) (fwSize : ℕ) {secCnt : ℕ}

theorem pieces_inBounds_iff (xfrCtrl : BitVec 32) (addr off : BitVec 32) (sent n : ℕ) (hn : 0 < n) :
    (∀ a ∈ (dmaIssue dma sent ⟨xfrCtrl, addr, off.toNat, n⟩).reqs.map fun q => ImageAccess.file q.axiAddr q.byteCnt,
      a.InBounds fwSize secCnt) ↔
      ∀ k < pieces n, Moved dma addr sent k →
        off.toNat + (maxDmaTransfer * k + chunkLen maxDmaTransfer n k) ≤ fwSize := by
  have hmem := fun q => @mem_dmaIssueLoop_iff dma q (n / maxDmaTransfer + 1) sent ⟨xfrCtrl, addr, off.toNat, n⟩
    (Nat.lt_mul_div_succ _ (by decide))
  have hpiece : ∀ k < pieces n, ((ImageAccess.file ((off.toNat : ℤ) + (maxDmaTransfer * k : ℕ))
      (chunkLen maxDmaTransfer n k)).InBounds fwSize secCnt ↔
      off.toNat + (maxDmaTransfer * k + chunkLen maxDmaTransfer n k) ≤ fwSize) := by
    intro k hk
    rw [file_inBounds_iff (chunkLen_pos (by decide) hn hk)]
    unfold InFile
    omega
  rw [List.forall_mem_map]
  constructor
  · intro h k hk hm
    exact (hpiece k hk).mp (h _ ((hmem _).mpr ⟨k, hk, hm, rfl⟩))
  · intro h q hq
    obtain ⟨k, hk, hm, rfl⟩ := (hmem q).mp hq
    exact (hpiece k hk).mpr (h k hk hm)

theorem selected_inBounds_iff {st : LoadState} {secNum : ℕ} {hdr : SectionHeader}
    (hheader : HeaderFits fwSize shoff secNum 24) :
    (∀ a ∈ selectedAccesses V info dma shoff fwSize st secNum hdr, a.InBounds fwSize secCnt) ↔
      SelectedFits V info dma fwSize st secNum hdr := by
  have hoff : (ImageAccess.file (headerAt shoff secNum + 16) 4).InBounds fwSize secCnt :=
    hheader.part 16 (by decide)
  have hnil : ∀ a ∈ ([] : List ImageAccess), a.InBounds fwSize secCnt := fun a ha => absurd ha List.not_mem_nil
  unfold selectedAccesses SelectedFits
  dsimp only
  by_cases hzero : align hdr.secSize V.axiAlign = 0
  · rw [if_pos hzero, hzero]
    exact iff_of_true hnil (Or.inl rfl)
  have hpos : (align hdr.secSize V.axiAlign).toNat ≠ 0 := fun h => hzero (BitVec.eq_of_toNat_eq h)
  rw [if_neg hzero, or_iff_right hpos]
  by_cases hbig : (align hdr.secSize V.axiAlign).toNat > fwSize
  · rw [if_pos hbig]
    exact iff_of_true hnil (Or.inl hbig)
  rw [if_neg hbig, or_iff_right hbig]
  by_cases hvma : hdr.secAddr &&& (V.axiAlign - 1) = 0
  · rw [if_neg (not_not.mpr hvma), or_iff_right (not_not.mpr hvma), List.forall_mem_cons, and_iff_right hoff]
    by_cases hmode : getVspaSectionTransMode info (isVspaSectionValid info secNum) = noLoad
    · rw [if_neg (not_not.mpr hmode)]
      exact iff_of_true hnil (Or.inl hmode)
    · rw [if_pos hmode, or_iff_right hmode]
      exact pieces_inBounds_iff dma fwSize _ _ _ _ _ (Nat.pos_of_ne_zero hpos)
  · rw [if_pos hvma]
    exact iff_of_true hnil (Or.inl hvma)

theorem copy_inBounds_iff {region : Overlay} {dst : BitVec 32} {src : Option ℤ} {size : BitVec 32} :
    (Copy.access ⟨region, dst, src, size⟩).InBounds fwSize secCnt ↔
      size.toNat = 0 ∨ ∃ p ∈ src, InFile fwSize p size.toNat := by
  cases src with
  | none => simp [Copy.access, ImageAccess.InBounds]
  | some p => simp [Copy.access, ImageAccess.InBounds, InFile]

theorem overlay_inBounds_iff {st : LoadState} {secNum : ℕ} {hdr : SectionHeader} :
    (∀ a ∈ overlayAccesses V shoff st secNum hdr, a.InBounds fwSize secCnt) ↔
      OverlayFits V shoff fwSize st secNum hdr := by
  have hinfo : (ImageAccess.file (headerAt shoff secNum + 28) 4).InBounds fwSize secCnt ↔ _ := header_inBounds_iff
  unfold overlayAccesses OverlayFits
  rw [List.forall_mem_cons, List.forall_mem_append, hinfo]
  refine and_congr_right fun hheader => ?_
  have hoff : ∀ a ∈ (if hdr.secInfo ≠ 0 then [ImageAccess.file (headerAt shoff secNum + 16) 4] else []),
      a.InBounds fwSize secCnt := by
    intro a ha
    split_ifs at ha
    · obtain rfl := List.mem_singleton.mp ha
      exact hheader.part 16 (by decide)
    · exact absurd ha List.not_mem_nil
  rw [and_iff_right hoff, overlaySection_copy]
  rcases copyTarget V hdr with _ | region
  · simp
  · simp only [Option.map_some, Option.toList_some, List.map_singleton, List.forall_mem_singleton, Option.mem_def,
      Option.some.injEq, forall_eq']
    exact copy_inBounds_iff fwSize

theorem loadSection_secNum (st : LoadState) (secNum : ℕ) :
    (loadSection V info dma shoff str fwSize st secNum).1.secNum = secNum := by
  obtain ⟨⟨v, st', next⟩, hround⟩ : ∃ out, loadSection V info dma shoff str fwSize st secNum = out := ⟨_, rfl⟩
  obtain ⟨hdr, name, action, rfl, -⟩ := loadSection_cases V info dma shoff str fwSize hround
  rw [hround]

theorem section_inBounds_iff {st : LoadState} {secNum : ℕ} :
    (∀ a ∈ sectionAccesses V info dma shoff str fwSize st secNum, a.InBounds fwSize secCnt) ↔
      SectionFits V info dma shoff str fwSize st secNum := by
  have h0 := @header_inBounds_iff fwSize secCnt secNum 0 shoff
  have h12 := @header_inBounds_iff fwSize secCnt secNum 12 shoff
  have h20 := @header_inBounds_iff fwSize secCnt secNum 20 shoff
  rw [Nat.cast_zero, add_zero] at h0
  have hheader : (∀ a ∈ [ImageAccess.file (headerAt shoff secNum + 12) 4, .file (headerAt shoff secNum + 20) 4,
      .file (headerAt shoff secNum) 4], a.InBounds fwSize secCnt) ↔ HeaderFits fwSize shoff secNum 24 := by
    simp only [List.forall_mem_cons, List.not_mem_nil, false_imp_iff, implies_true, and_true]
    refine (and_congr h12 (and_congr h20 h0)).trans ?_
    unfold HeaderFits
    omega
  unfold sectionAccesses SectionFits
  obtain ⟨hdr, name⟩ := readSection st.mem shoff str secNum
  dsimp only
  rw [List.forall_mem_append, List.forall_mem_append, hheader,
    loadable_inBounds_iff (by decide) (by decide)]
  refine and_congr_right fun hfits => and_congr_right fun _ => ?_
  by_cases hsel : isSelected info secNum name = true
  · rw [if_pos hsel, if_pos hsel]
    exact selected_inBounds_iff V info dma shoff fwSize hfits
  · rw [if_neg hsel, if_neg hsel]
    exact overlay_inBounds_iff V shoff fwSize

end Pass

theorem load_inBounds_iff (V : VspaDev) (info : VspaSecInfo) (dma : ℕ → DmaResp) (hd : FileHeader) (fwSize secCnt : ℕ)
    (F : Mem) :
    (∀ a ∈ loadAccesses V info dma hd fwSize F, a.InBounds fwSize secCnt) ↔
      HeaderFits fwSize hd.fhShoff hd.fhShstrndx.toNat 20 ∧ ∀ i < hd.fhShnum.toNat,
        (∀ j < i, ¬ Loud V info dma hd.fhShoff (stringTable F hd) fwSize
          (arrival V info hd.fhShoff (stringTable F hd) F j) j) →
        SectionFits V info dma hd.fhShoff (stringTable F hd) fwSize
          (arrival V info hd.fhShoff (stringTable F hd) F i) i := by
  have hnames : (ImageAccess.file (headerAt hd.fhShoff hd.fhShstrndx.toNat + 16) 4).InBounds fwSize secCnt ↔ _ :=
    header_inBounds_iff
  have hall := forall_loadSteps_iff V info dma hd.fhShoff (stringTable F hd) fwSize F
    (P := fun st v => ∀ a ∈ sectionAccesses V info dma hd.fhShoff (stringTable F hd) fwSize st v.secNum,
      a.InBounds fwSize secCnt) hd.fhShnum.toNat 0
  simp only [Nat.zero_le, true_implies, Nat.zero_add, loadSection_secNum, section_inBounds_iff] at hall
  unfold loadAccesses imageSteps
  rw [List.forall_mem_cons, hnames]
  refine and_congr_right fun _ => ?_
  rw [← hall]
  simp only [List.forall_mem_flatMap, section_inBounds_iff]
  rfl

/-- **The bounds of the parser.** The two passes stay inside the file and inside
the tables exactly if the file is not one for a VSPA, which is rejected, or is
well-formed as far as they look at it. -/
theorem in_bounds_iff_fits (V : VspaDev) (kcalloc : Bool) (dma : ℕ → DmaResp) (F : Mem) (fwSize : ℕ) :
    ParsedInBounds V kcalloc dma F fwSize ↔
      ((fileHeader F).IsVspa → FileFits V kcalloc dma F fwSize (fileHeader F)) := by
  have hinfo := @info_inBounds_iff fwSize (fileHeader F).fhShnum.toNat F (fileHeader F) kcalloc
  unfold ParsedInBounds imageAccesses
  dsimp only
  by_cases hmach : (fileHeader F).IsVspa
  · rw [imp_iff_right hmach]
    simp only [if_neg (fun h => not_isVspa_iff.mpr h hmach), List.forall_mem_append, forall_and]
    refine (and_congr_left fun _ => hinfo).trans ?_
    constructor
    · rintro ⟨⟨hnames, hscan, hrecords⟩, hload⟩
      refine ⟨hnames, hscan, hrecords, fun fuel info hok => ?_⟩
      have h := hload fuel
      rw [hok] at h
      exact ((load_inBounds_iff V info dma (fileHeader F) fwSize _ F).mp h).2
    · intro h
      refine ⟨⟨h.names, h.scan, h.records⟩, fun fuel => ?_⟩
      rcases hok : fwReadAndLoadSectionsInfo fuel F (fileHeader F) kcalloc with info | e | _ | _
      · exact (load_inBounds_iff V info dma (fileHeader F) fwSize _ F).mpr ⟨h.names, h.sections fuel info hok⟩
      · exact fun a ha => absurd ha List.not_mem_nil
      · exact fun a ha => absurd ha List.not_mem_nil
      · exact fun a ha => absurd ha List.not_mem_nil
  · simp only [if_pos (not_isVspa_iff.mp hmach)]
    exact iff_of_true (fun _ a ha => absurd ha List.not_mem_nil) fun h => absurd h hmach

/-- An access out of bounds shows that the image is not parsed within them. -/
theorem not_inBounds_of_exists (fuel : ℕ) {V : VspaDev} {kcalloc : Bool} {dma : ℕ → DmaResp} {F : Mem} {fwSize : ℕ}
    (h : ∃ a ∈ imageAccesses fuel V kcalloc dma F fwSize, ¬ a.InBounds fwSize (fileHeader F).fhShnum.toNat) :
    ¬ ParsedInBounds V kcalloc dma F fwSize := by
  obtain ⟨a, ha, hout⟩ := h
  exact fun hall => hout (hall fuel a ha)

/-- An image of 368 bytes with a section at offset 4096. -/
def farSection : Mem := twoSections (headerBytes 0 0 4096 4 ++ headerBytes 0 64 52 4)

/-- Of a record of 2 bytes -3 bytes are copied; and an image is loaded with 0
although a section of it lies far beyond its end. -/
theorem parsed_astray :
    ¬ ParsedInBounds ⟨0, 0⟩ true promptDma (mwImage [2, 0, 0, 0, 14]) 193 ∧
      (gulLoadVspaImage 4 ⟨0, 0⟩ true promptDma farSection 368).ret = some 0 ∧
      ¬ ParsedInBounds ⟨0, 0⟩ true promptDma farSection 368 := by
  refine ⟨not_inBounds_of_exists 1 ?_, ?_, not_inBounds_of_exists 4 ?_⟩
  · decide +kernel
  · decide +kernel
  · decide +kernel

end Vspa
end La12xx
