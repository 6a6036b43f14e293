/-
# The scatter table of the boot ROM

`gul_load_rtos_img` of `gul_boot.c` puts the RTOS image, an ELF file with the
highest byte of a word first, into the scratch region `GUL_FIRMWARE` and tells
the boot ROM of the modem what to copy: one entry of `sgtbl` for every program
header with a size in the file, and their number in `sgentries`. The preamble,
which the boot ROM waits for, comes last. A table that could not be filled is
never started (`scatter_table`).

Addresses of the image are offsets in the region; the host is little-endian.
`GUL_QDMA_FOR_BOOT_ENABLE` and `PREAMBLE` come from outside of the repository.
-/
import La12xx.Lib.Endian
import La12xx.Vspa.Probe

namespace La12xx
namespace Boot

open ByteMem Endian

/-! ### What is read and written -/

/-- What the driver takes from other headers. -/
structure BootIf where
  /-- `GUL_QDMA_FOR_BOOT_ENABLE == 1` -/
  qdmaForBoot : Bool
  /-- `PREAMBLE` -/
  preamble : BitVec 32

/-- An entry of `sgtbl`, as it is stored. -/
structure SgEntry where
  len : BitVec 32
  resv : BitVec 32
  src : BitVec 32
  dest : BitVec 32
deriving DecidableEq, Repr

/-- `struct gul_boot_header`, as it is stored. -/
structure BootHeader where
  preamble : BitVec 32
  blEntry : BitVec 32
  flags : BitVec 32
  sgentries : BitVec 32
  sgtbl : ℕ → SgEntry

/-- `__cpu_to_be32` and `__be32_to_cpu` -/
def be32 (x : BitVec 32) : BitVec 32 := swab32 x

/-- `__be16_to_cpu` -/
def be16 (x : BitVec 16) : BitVec 16 := swab16 x

/-- The members of `struct program_header` that are read, on the host. -/
structure ProgramHeader where
  prgOffset : BitVec 32
  prgVaddr : BitVec 32
  prgFilesz : BitVec 32
deriving DecidableEq, Repr

/-- `prog_header[i]`, with 32 bytes to an entry. -/
def programHeader (m : Mem) (pgHdOff : BitVec 32) (i : ℕ) : ProgramHeader :=
  let a : ℤ := pgHdOff.toNat + 32 * i
  ⟨be32 (u32 m (a + 4)), be32 (u32 m (a + 8)), be32 (u32 m (a + 16))⟩

/-- The members of `struct file_header` that are read; `fh_entry` is passed on as it is. -/
structure FileHeader where
  fhMachine : BitVec 16
  fhEntry : BitVec 32
  fhPhoff : BitVec 32
  fhPhnum : BitVec 16
deriving DecidableEq, Repr

def fileHeader (m : Mem) : FileHeader := ⟨be16 (u16 m 18), u32 m 24, be32 (u32 m 28), be16 (u16 m 44)⟩

/-! ### Loading -/

/-- `GEUL_MAX_SEG_ENTRIES` -/
def geulMaxSegEntries : ℕ := 8

/-- `GEUL_RSVD` -/
def geulRsvd : BitVec 32 := 0

/-- `DMEM_ADDRESS` -/
def dmemAddress : BitVec 32 := 0xE0100000

/-- `GEUL_USE_QDMA` -/
def geulUseQdma : BitVec 32 := 0

/-- `GEUL_USE_MEMCOPY` -/
def geulUseMemcopy : BitVec 32 := 1

/-- `POWERPC_MACH_CODE` -/
def powerpcMachCode : BitVec 16 := 0x14

/-- `ENOMEM` -/
def enomem : ℤ := 12

/-- `ENOEXEC` -/
def enoexec : ℤ := 8

/-- `EIO` -/
def eio : ℤ := 5

section Load

variable (B : BootIf) (physAddr : BitVec 64)

/-- What is written for a segment; a `long` is cut to 32 bits. -/
def sgEntry (progIdx : ℕ) (ph : ProgramHeader) : SgEntry where
  len := be32 (Vspa.align ph.prgFilesz 4)
  resv := be32 geulRsvd
  src := be32 ((physAddr + ph.prgOffset.setWidth 64).setWidth 32)
  dest := be32 (if B.qdmaForBoot ∧ progIdx = 0 then dmemAddress else ph.prgVaddr)

/-- The entry is stored in the table. -/
def BootHeader.setEntry (hdr : BootHeader) (i : ℕ) (e : SgEntry) : BootHeader :=
  { hdr with sgtbl := Function.update hdr.sgtbl i e }

/-- The loop of `fw_read_and_load_program`, over the `k` headers from `progNum` on. -/
def programLoop (m : Mem) (pgHdOff fwSize : BitVec 32) : ℕ → ℕ → ℕ → BootHeader → ℤ × BootHeader
  | 0, _, progIdx, hdr => (0, { hdr with sgentries := be32 (BitVec.ofNat 32 progIdx) })
  | k + 1, progNum, progIdx, hdr =>
    let ph := programHeader m pgHdOff progNum
    if ph.prgFilesz = 0 then programLoop m pgHdOff fwSize k (progNum + 1) progIdx hdr
    else if ph.prgFilesz > fwSize then (-enomem, hdr)
    else if progIdx > geulMaxSegEntries - 1 then (-enomem, hdr)
    else
      programLoop m pgHdOff fwSize k (progNum + 1) (progIdx + 1)
        (hdr.setEntry progIdx (sgEntry B physAddr progIdx ph))

/-- `fw_read_and_load_program` -/
def fwReadAndLoadProgram (hdr : BootHeader) (m : Mem) (pgHdOff : BitVec 32) (phNum : ℕ) (fwSize : BitVec 32) :
    ℤ × BootHeader :=
  programLoop B physAddr m pgHdOff fwSize phNum 0 0 hdr

/-- `gul_load_boot_images` -/
def gulLoadBootImages (hdr : BootHeader) (m : Mem) (fwSize : BitVec 32) : ℤ × BootHeader :=
  let hd := fileHeader m
  let hdr := { hdr with
    blEntry := hd.fhEntry
    flags := be32 (if B.qdmaForBoot then geulUseQdma else geulUseMemcopy) }
  if hd.fhMachine ≠ powerpcMachCode then (-enoexec, hdr)
  else
    let r := fwReadAndLoadProgram B physAddr hdr m hd.fhPhoff hd.fhPhnum.toNat fwSize
    if r.1 ≠ 0 then (-eio, r.2) else (0, r.2)

end Load

/-- The region `GUL_FIRMWARE`, of `GUL_MAX_IMAGE_SIZE` bytes: 4 MB less the logs
of the cores. -/
structure FirmwareRegion where
  physAddr : BitVec 64
  size : ℕ
  size_le : size ≤ 4 * 1024 * 1024

/-- The size of the region as it is passed on. -/
def FirmwareRegion.fwSize (R : FirmwareRegion) : BitVec 32 := BitVec.ofNat 32 R.size

/-- What a load meets: the results of `check_file` for the file of this modem
(which some boards do not look for) and for the default file, and the file. -/
structure RtosEnv where
  modemFile : ℤ
  defaultFile : ℤ
  firmware : Except ℕ (Mem × ℕ)

/-- `gul_load_rtos_img`, with what is in the region before: its value, and the boot header. -/
def gulLoadRtosImg (B : BootIf) (R : FirmwareRegion) (E : RtosEnv) (mem : Mem) (hdr : BootHeader) : ℤ × BootHeader :=
  if E.modemFile ≠ 0 ∧ E.defaultFile ≠ 0 then (E.defaultFile, hdr)
  else
    match Vspa.gulUdevLoadFirmware mem R.size E.firmware with
    | .error rc => (rc, hdr)
    | .ok (F, _) =>
      let r := gulLoadBootImages B R.physAddr hdr F R.fwSize
      if r.1 ≠ 0 then r else (0, { r.2 with preamble := B.preamble })

/-- The region holds this image, of `n` bytes, after the file is read. -/
def RtosEnv.Loads (E : RtosEnv) (R : FirmwareRegion) (mem F : Mem) (n : ℕ) : Prop :=
  (E.modemFile = 0 ∨ E.defaultFile = 0) ∧ Vspa.gulUdevLoadFirmware mem R.size E.firmware = .ok (F, n)

/-! ### What the table should say -/

/-- The segments with a size in the file, of the `k` headers from `n` on, in order. -/
def segmentsFrom (m : Mem) (pgHdOff : BitVec 32) (n k : ℕ) : List ProgramHeader :=
  ((List.range' n k).map (programHeader m pgHdOff)).filter fun ph => ph.prgFilesz ≠ 0

/-- The segments of a program header table. -/
def segments (m : Mem) (pgHdOff : BitVec 32) (phNum : ℕ) : List ProgramHeader := segmentsFrom m pgHdOff 0 phNum

/-- The entry of segment `k`: its size rounded up to words, its address in the
image, and where it goes, which is the data memory for the first one if the
QDMA copies. -/
def scatterEntry (B : BootIf) (physAddr : BitVec 64) (k : ℕ) (ph : ProgramHeader) : SgEntry where
  len := be32 (BitVec.ofNat 32 ((ph.prgFilesz.toNat + 3) / 4 * 4))
  resv := be32 geulRsvd
  src := be32 (BitVec.ofNat 32 (physAddr.toNat + ph.prgOffset.toNat))
  dest := be32 (if B.qdmaForBoot ∧ k = 0 then dmemAddress else ph.prgVaddr)

/-- The table is that of the segments, all of them. -/
structure Filled (B : BootIf) (physAddr : BitVec 64) (segs : List ProgramHeader) (hdr : BootHeader) : Prop where
  count : segs.length ≤ geulMaxSegEntries
  sgentries : hdr.sgentries = be32 (BitVec.ofNat 32 segs.length)
  sgtbl : ∀ k ph, segs[k]? = some ph → hdr.sgtbl k = scatterEntry B physAddr k ph

/-- A segment is larger than the region, or there are more than the table has
entries. -/
def TooMuch (fwSize : BitVec 32) (segs : List ProgramHeader) : Prop :=
  (∃ ph ∈ segs, fwSize < ph.prgFilesz) ∨ geulMaxSegEntries < segs.length

/-! ### The loop -/

/-- The fields beside the table are the same. -/
structure BootHeader.SameFields (hdr hdr' : BootHeader) : Prop where
  preamble : hdr'.preamble = hdr.preamble
  sgentries : hdr'.sgentries = hdr.sgentries

theorem BootHeader.SameFields.rfl {hdr : BootHeader} : hdr.SameFields hdr := ⟨Eq.refl _, Eq.refl _⟩

section Loop

variable (B : BootIf) (physAddr : BitVec 64)

/-- The entries of the segments, from entry `i` on. -/
def fillEntries : ℕ → List ProgramHeader → BootHeader → BootHeader
  | _, [], hdr => hdr
  | i, ph :: phs, hdr => fillEntries (i + 1) phs (hdr.setEntry i (sgEntry B physAddr i ph))

theorem fillEntries_sameFields : ∀ (i : ℕ) (phs : List ProgramHeader) (hdr : BootHeader),
    hdr.SameFields (fillEntries B physAddr i phs hdr)
  | _, [], _ => .rfl
  | i, ph :: phs, hdr => by
    have ih := fillEntries_sameFields (i + 1) phs (hdr.setEntry i (sgEntry B physAddr i ph))
    exact ⟨ih.preamble, ih.sgentries⟩

/-- An entry before those that are filled. -/
theorem fillEntries_of_lt : ∀ {i j : ℕ} (phs : List ProgramHeader) (hdr : BootHeader), j < i →
    (fillEntries B physAddr i phs hdr).sgtbl j = hdr.sgtbl j
  | _, _, [], _, _ => rfl
  | i, j, ph :: phs, hdr, h => by
    rw [fillEntries, fillEntries_of_lt phs _ (Nat.lt_succ_of_lt h)]
    exact Function.update_of_ne h.ne _ _

/-- An entry that is filled. -/
theorem fillEntries_at : ∀ {i k : ℕ} {phs : List ProgramHeader} {ph : ProgramHeader} (hdr : BootHeader),
    phs[k]? = some ph → (fillEntries B physAddr i phs hdr).sgtbl (i + k) = sgEntry B physAddr (i + k) ph
  | i, 0, ph' :: phs, ph, hdr, h => by
    have hlt : i < i + 1 := Nat.lt_succ_self i
    obtain rfl := Option.some.inj h
    change (fillEntries B physAddr (i + 1) phs _).sgtbl i = sgEntry B physAddr i ph'
    rw [fillEntries_of_lt B physAddr phs _ hlt]
    exact Function.update_self _ _ _
  | i, k + 1, ph' :: phs, ph, hdr, h => by
    have ih := @fillEntries_at (i + 1) k phs ph (hdr.setEntry i (sgEntry B physAddr i ph')) h
    have hidx : i + 1 + k = i + (k + 1) := by omega
    rwa [hidx] at ih

variable (m : Mem) (pgHdOff : BitVec 32) {fwSize : BitVec 32}

/-- One header more. -/
theorem segmentsFrom_succ (n k : ℕ) :
    segmentsFrom m pgHdOff n (k + 1) =
      if (programHeader m pgHdOff n).prgFilesz = 0 then segmentsFrom m pgHdOff (n + 1) k
      else programHeader m pgHdOff n :: segmentsFrom m pgHdOff (n + 1) k := by
  unfold segmentsFrom
  rw [List.range'_succ, List.map_cons, List.filter_cons]
  by_cases h : (programHeader m pgHdOff n).prgFilesz = 0
  · have hskip : ¬ decide ((programHeader m pgHdOff n).prgFilesz ≠ 0) = true := by
      rw [h]
      decide
    rw [if_pos h, if_neg hskip]
  · rw [if_neg h, if_pos (decide_eq_true h)]

/-- **The loop.** It fills in one entry for each segment, in order, and then
their number; or it stops at one that is too large or too many, and no number
is written. -/
theorem programLoop_eq : ∀ (k n i : ℕ) (hdr : BootHeader), i ≤ geulMaxSegEntries →
    let segs := segmentsFrom m pgHdOff n k
    let out := programLoop B physAddr m pgHdOff fwSize k n i hdr
    ((∀ ph ∈ segs, ph.prgFilesz ≤ fwSize) ∧ i + segs.length ≤ geulMaxSegEntries ∧
      out = (0, { fillEntries B physAddr i segs hdr with sgentries := be32 (BitVec.ofNat 32 (i + segs.length)) })) ∨
    (((∃ ph ∈ segs, fwSize < ph.prgFilesz) ∨ geulMaxSegEntries < i + segs.length) ∧
      out.1 = -enomem ∧ hdr.SameFields out.2)
  | 0, n, i, hdr, hi => Or.inl ⟨fun ph h => absurd h List.not_mem_nil, hi, rfl⟩
  | k + 1, n, i, hdr, hi => by
    intro segs out
    have hsegs : segs = _ := segmentsFrom_succ m pgHdOff n k
    by_cases hzero : (programHeader m pgHdOff n).prgFilesz = 0
    · have hout : out = programLoop B physAddr m pgHdOff fwSize k (n + 1) i hdr := by
        simp only [out, programLoop, if_pos hzero]
      rw [hsegs, if_pos hzero, hout]
      exact programLoop_eq k (n + 1) i hdr hi
    rw [if_neg hzero] at hsegs
    have hmem : programHeader m pgHdOff n ∈ segs := hsegs ▸ List.mem_cons_self
    by_cases hbig : (programHeader m pgHdOff n).prgFilesz > fwSize
    · have hout : out = (-enomem, hdr) := by
        simp only [out, programLoop, if_neg hzero, if_pos hbig]
      rw [hout]
      exact Or.inr ⟨Or.inl ⟨_, hmem, hbig⟩, rfl, .rfl⟩
    have hlen : segs.length = (segmentsFrom m pgHdOff (n + 1) k).length + 1 := by rw [hsegs, List.length_cons]
    by_cases hfull : i > geulMaxSegEntries - 1
    · have hout : out = (-enomem, hdr) := by
        simp only [out, programLoop, if_neg hzero, if_neg hbig, if_pos hfull]
      rw [hout]
      exact Or.inr ⟨Or.inr (by omega), rfl, .rfl⟩
    have hout : out = programLoop B physAddr m pgHdOff fwSize k (n + 1) (i + 1)
        (hdr.setEntry i (sgEntry B physAddr i (programHeader m pgHdOff n))) := by
      simp only [out, programLoop, if_neg hzero, if_neg hbig, if_neg hfull]
    have hi' : i + 1 ≤ geulMaxSegEntries := by
      unfold geulMaxSegEntries at hfull ⊢
      omega
    have hsum : i + segs.length = i + 1 + (segmentsFrom m pgHdOff (n + 1) k).length := by omega
    rw [hout, hsum, hsegs]
    rcases programLoop_eq k (n + 1) (i + 1) (hdr.setEntry i (sgEntry B physAddr i (programHeader m pgHdOff n))) hi' with
      ⟨hall, hcount, hrest⟩ | ⟨hmuch, herr, hsame⟩
    · refine Or.inl ⟨?_, hcount, hrest⟩
      rw [List.forall_mem_cons]
      exact ⟨BitVec.not_lt.mp hbig, hall⟩
    · refine Or.inr ⟨hmuch.imp_left ?_, herr, hsame.preamble, hsame.sgentries⟩
      rintro ⟨ph, hph, hlarge⟩
      exact ⟨ph, List.mem_cons_of_mem _ hph, hlarge⟩

end Loop

/-! ### The table -/

/-- A size of at most 4 MB is rounded up as it should. -/
theorem align_four {x : BitVec 32} (h : x.toNat ≤ 4 * 1024 * 1024) :
    Vspa.align x 4 = BitVec.ofNat 32 ((x.toNat + 3) / 4 * 4) := by
  have hmask : (4 : BitVec 32) - 1 = BitVec.ofNat 32 (2 ^ 2 - 1) := by decide
  have hsum : (x + BitVec.ofNat 32 (2 ^ 2 - 1)).toNat = x.toNat + 3 := by
    rw [BitVec.toNat_add, BitVec.toNat_ofNat]
    omega
  apply BitVec.eq_of_toNat_eq
  unfold Vspa.align
  rw [hmask, and_not_mask, BitVec.toNat_shiftLeft, BitVec.toNat_ushiftRight, hsum, Nat.shiftLeft_eq,
    Nat.shiftRight_eq_div_pow, BitVec.toNat_ofNat]

theorem FirmwareRegion.toNat_fwSize (R : FirmwareRegion) : R.fwSize.toNat = R.size := by
  have h := R.size_le
  rw [FirmwareRegion.fwSize, BitVec.toNat_ofNat, Nat.mod_eq_of_lt (by omega)]

/-- What is written for a segment that fits is what should be. -/
theorem sgEntry_eq (B : BootIf) (R : FirmwareRegion) {k : ℕ} {ph : ProgramHeader} (h : ph.prgFilesz ≤ R.fwSize) :
    sgEntry B R.physAddr k ph = scatterEntry B R.physAddr k ph := by
  have hsize : ph.prgFilesz.toNat ≤ 4 * 1024 * 1024 := by
    rw [BitVec.le_def, R.toNat_fwSize] at h
    exact h.trans R.size_le
  have hsrc : (R.physAddr + ph.prgOffset.setWidth 64).setWidth 32 =
      BitVec.ofNat 32 (R.physAddr.toNat + ph.prgOffset.toNat) := by
    apply BitVec.eq_of_toNat_eq
    rw [BitVec.toNat_setWidth, BitVec.toNat_add, BitVec.toNat_setWidth, BitVec.toNat_ofNat]
    omega
  unfold sgEntry scatterEntry
  rw [align_four hsize, hsrc]

/-- The table is filled in, or it is too much for it. -/
theorem program_filled_or_too_much (B : BootIf) (R : FirmwareRegion) (hdr : BootHeader) (m : Mem)
    (pgHdOff : BitVec 32) (phNum : ℕ) :
    let segs := segments m pgHdOff phNum
    let out := fwReadAndLoadProgram B R.physAddr hdr m pgHdOff phNum R.fwSize
    out.2.preamble = hdr.preamble ∧ ((out.1 = 0 ∧ ¬ TooMuch R.fwSize segs ∧ Filled B R.physAddr segs out.2) ∨
      (out.1 < 0 ∧ TooMuch R.fwSize segs ∧ out.2.sgentries = hdr.sgentries)) := by
  intro segs out
  rcases programLoop_eq B R.physAddr m pgHdOff phNum 0 0 hdr (Nat.zero_le _) with
    ⟨hall, hcount, hout⟩ | ⟨hmuch, herr, hsame⟩
  · rw [Nat.zero_add] at hcount hout
    have hout : out = _ := hout
    rw [hout]
    have hfits : ¬ TooMuch R.fwSize segs := by
      rintro (⟨ph, hph, hlarge⟩ | hmany)
      · exact absurd (hall ph hph) (BitVec.not_le.mpr hlarge)
      · exact absurd hcount (Nat.not_le.mpr hmany)
    refine ⟨(fillEntries_sameFields B R.physAddr _ _ hdr).preamble,
      Or.inl ⟨rfl, hfits, hcount, rfl, fun k ph hk => ?_⟩⟩
    have hentry := @fillEntries_at B R.physAddr 0 _ _ _ hdr hk
    rw [Nat.zero_add] at hentry
    exact hentry.trans (sgEntry_eq B R (hall ph (List.mem_of_getElem? hk)))
  · rw [Nat.zero_add] at hmuch
    have herr : out.1 = -enomem := herr
    exact ⟨hsame.preamble, Or.inr ⟨by rw [herr]; decide, hmuch, hsame.sgentries⟩⟩

/-- `gul_load_boot_images` returns 0 with the table of the image, or an error;
it does not write the preamble. -/
theorem bootImages_filled_or_not (B : BootIf) (R : FirmwareRegion) (hdr : BootHeader) (F : Mem) :
    let out := gulLoadBootImages B R.physAddr hdr F R.fwSize
    let segs := segments F (fileHeader F).fhPhoff (fileHeader F).fhPhnum.toNat
    out.2.preamble = hdr.preamble ∧
      ((out.1 = 0 ∧ (fileHeader F).fhMachine = powerpcMachCode ∧ ¬ TooMuch R.fwSize segs ∧
        Filled B R.physAddr segs out.2) ∨
      (out.1 ≠ 0 ∧ ((fileHeader F).fhMachine ≠ powerpcMachCode ∨ TooMuch R.fwSize segs))) := by
  intro out segs
  let hdr' : BootHeader := { hdr with
    blEntry := (fileHeader F).fhEntry
    flags := be32 (if B.qdmaForBoot then geulUseQdma else geulUseMemcopy) }
  by_cases hmach : (fileHeader F).fhMachine ≠ powerpcMachCode
  · have hout : out = (-enoexec, hdr') := if_pos hmach
    rw [hout]
    exact ⟨rfl, Or.inr ⟨show -enoexec ≠ 0 by decide, Or.inl hmach⟩⟩
  let r := fwReadAndLoadProgram B R.physAddr hdr' F (fileHeader F).fhPhoff (fileHeader F).fhPhnum.toNat R.fwSize
  have hout : out = if r.1 ≠ 0 then (-eio, r.2) else (0, r.2) := if_neg hmach
  obtain ⟨hkept, ⟨hzero, hfits, hfilled⟩ | ⟨hneg, hmuch, -⟩⟩ :=
    program_filled_or_too_much B R hdr' F (fileHeader F).fhPhoff (fileHeader F).fhPhnum.toNat
  · rw [hout, if_neg (not_not.mpr hzero)]
    exact ⟨hkept, Or.inl ⟨rfl, not_not.mp hmach, hfits, hfilled⟩⟩
  · rw [hout, if_pos (show r.1 ≠ 0 from hneg.ne)]
    exact ⟨hkept, Or.inr ⟨show -eio ≠ 0 by decide, Or.inr hmuch⟩⟩

/-- An error of `gul_udev_load_firmware` is not 0. -/
theorem udev_error_ne_zero {buf : Mem} {n : ℕ} {fw : Except ℕ (Mem × ℕ)} {rc : ℤ}
    (h : Vspa.gulUdevLoadFirmware buf n fw = .error rc) : rc ≠ 0 := by
  rcases fw with e | ⟨data, size⟩
  · have hrc : -(e : ℤ) - 1 = rc := Except.error.inj h
    omega
  · unfold Vspa.gulUdevLoadFirmware at h
    dsimp only at h
    split_ifs at h
    obtain rfl := Except.error.inj h
    decide

/-- The image is one for the modem, and its segments are not too many or too large. -/
def Accepted (R : FirmwareRegion) (F : Mem) : Prop :=
  (fileHeader F).fhMachine = powerpcMachCode ∧
    ¬ TooMuch R.fwSize (segments F (fileHeader F).fhPhoff (fileHeader F).fhPhnum.toNat)

/-- A load of the image writes the preamble after the table of the image, or
not at all. -/
theorem rtos_started_or_not (B : BootIf) (R : FirmwareRegion) (E : RtosEnv) (mem : Mem) (hdr : BootHeader) :
    let out := gulLoadRtosImg B R E mem hdr
    (out.1 = 0 ∧ out.2.preamble = B.preamble ∧ ∃ F n, E.Loads R mem F n ∧ Accepted R F ∧
      Filled B R.physAddr (segments F (fileHeader F).fhPhoff (fileHeader F).fhPhnum.toNat) out.2) ∨
    (out.1 ≠ 0 ∧ out.2.preamble = hdr.preamble ∧ ∀ F n, E.Loads R mem F n → ¬ Accepted R F) := by
  intro out
  by_cases hfile : E.modemFile ≠ 0 ∧ E.defaultFile ≠ 0
  · have hout : out = (E.defaultFile, hdr) := if_pos hfile
    rw [hout]
    refine Or.inr ⟨hfile.2, rfl, fun F n hloads => ?_⟩
    exact absurd hfile (not_and_or.mpr (hloads.1.imp not_not.mpr not_not.mpr))
  have hfound : E.modemFile = 0 ∨ E.defaultFile = 0 := by
    by_contra hnone
    exact hfile (not_or.mp hnone)
  rcases hload : Vspa.gulUdevLoadFirmware mem R.size E.firmware with rc | ⟨F, n⟩
  · have hout : out = (rc, hdr) := by
      simp only [out, gulLoadRtosImg, if_neg hfile, hload]
    rw [hout]
    refine Or.inr ⟨udev_error_ne_zero hload, rfl, fun F n hloads => ?_⟩
    cases hload.symm.trans hloads.2
  let r := gulLoadBootImages B R.physAddr hdr F R.fwSize
  have hout : out = if r.1 ≠ 0 then r else (0, { r.2 with preamble := B.preamble }) := by
    simp only [out, gulLoadRtosImg, if_neg hfile, hload, r]
  obtain ⟨hkept, ⟨hzero, hmach, hfits, hfilled⟩ | ⟨herr, hbad⟩⟩ := bootImages_filled_or_not B R hdr F
  · rw [hout, if_neg (not_not.mpr hzero)]
    exact Or.inl ⟨rfl, rfl, F, n, ⟨hfound, hload⟩, ⟨hmach, hfits⟩, hfilled.count, hfilled.sgentries, hfilled.sgtbl⟩
  · rw [hout, if_pos (show r.1 ≠ 0 from herr)]
    refine Or.inr ⟨herr, hkept, fun F' n' hloads hacc => ?_⟩
    obtain ⟨rfl, rfl⟩ := Prod.mk.inj (Except.ok.inj (hload.symm.trans hloads.2))
    rcases hbad with hmach | hmuch
    · exact hmach hacc.1
    · exact hacc.2 hmuch

/-- **The scatter table.** For every program header table,
`fw_read_and_load_program` returns 0 and leaves an entry for each segment, in
order, and their number; or it returns an error, because a segment is too large
or there are too many, and writes no number. The preamble is written only after
a table that is filled in. -/
theorem scatter_table (B : BootIf) (R : FirmwareRegion) (hdr : BootHeader) :
    (∀ (m : Mem) (pgHdOff : BitVec 32) (phNum : ℕ),
      let segs := segments m pgHdOff phNum
      let out := fwReadAndLoadProgram B R.physAddr hdr m pgHdOff phNum R.fwSize
      (out.1 = 0 ∧ Filled B R.physAddr segs out.2) ∨
        (out.1 < 0 ∧ TooMuch R.fwSize segs ∧ out.2.sgentries = hdr.sgentries)) ∧
    (∀ (E : RtosEnv) (mem : Mem),
      let out := gulLoadRtosImg B R E mem hdr
      (out.1 = 0 ∧ out.2.preamble = B.preamble ∧ ∃ F n, E.Loads R mem F n ∧
        Filled B R.physAddr (segments F (fileHeader F).fhPhoff (fileHeader F).fhPhnum.toNat) out.2) ∨
      (out.1 ≠ 0 ∧ out.2.preamble = hdr.preamble)) := by
  constructor
  · intro m pgHdOff phNum
    rcases (program_filled_or_too_much B R hdr m pgHdOff phNum).2 with ⟨hzero, -, hfilled⟩ | herr
    · exact Or.inl ⟨hzero, hfilled⟩
    · exact Or.inr herr
  · intro E mem
    rcases rtos_started_or_not B R E mem hdr with ⟨hzero, hpre, F, n, hloads, -, hfilled⟩ | ⟨herr, hpre, -⟩
    · exact Or.inl ⟨hzero, hpre, F, n, hloads, hfilled⟩
    · exact Or.inr ⟨herr, hpre⟩

end Boot
end La12xx
