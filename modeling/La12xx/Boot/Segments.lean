/-
# Where the boot ROM copies from

The boot ROM boots bytes of the file if the program header table and all
sources of the scatter table lie in the file, as the region holds it.

The driver compares the size of a segment with the size of the region, and
nothing else: `fh_phoff` and `prg_offset` are taken as they are, and the source
is cut to 32 bits. So the modem boots the file exactly if the image has these
fields right (`boots_file_iff`).
-/
import La12xx.Boot.ScatterTable

namespace La12xx
namespace Boot

open ByteMem Endian

/-- The `filesz` bytes from the source of an entry on are of the `n` bytes of
the file in the region, and no address of them wraps. -/
structure SourceInFile (R : FirmwareRegion) (n filesz : ℕ) (e : SgEntry) : Prop where
  start : R.physAddr.toNat ≤ (be32 e.src).toNat
  stop : (be32 e.src).toNat + filesz ≤ R.physAddr.toNat + n
  noWrap : (be32 e.src).toNat + filesz ≤ 2 ^ 32

/-- If the preamble is written, the program header table is in the file, and so
are the sources of all entries. -/
def BootsFile (B : BootIf) (R : FirmwareRegion) (E : RtosEnv) (mem : Mem) (hdr : BootHeader) : Prop :=
  (gulLoadRtosImg B R E mem hdr).1 = 0 → ∀ F n, E.Loads R mem F n →
    (fileHeader F).fhPhoff.toNat + 32 * (fileHeader F).fhPhnum.toNat ≤ n ∧
      ∀ k ph, (segments F (fileHeader F).fhPhoff (fileHeader F).fhPhnum.toNat)[k]? = some ph →
        SourceInFile R n ph.prgFilesz.toNat ((gulLoadRtosImg B R E mem hdr).2.sgtbl k)

/-- The table ends in the file, every segment as well, and none of them beyond
the first 4 GB of the modem's addresses. -/
structure ImageFits (R : FirmwareRegion) (F : Mem) (n : ℕ) : Prop where
  table : (fileHeader F).fhPhoff.toNat + 32 * (fileHeader F).fhPhnum.toNat ≤ n
  segments : ∀ ph ∈ segments F (fileHeader F).fhPhoff (fileHeader F).fhPhnum.toNat,
    ph.prgOffset.toNat + ph.prgFilesz.toNat ≤ n ∧
      R.physAddr.toNat + ph.prgOffset.toNat + ph.prgFilesz.toNat ≤ 2 ^ 32

/-- A source is in the file if the segment is: a sum that wraps lies before the
region. -/
theorem sourceInFile_iff {B : BootIf} {R : FirmwareRegion} {n k : ℕ} {ph : ProgramHeader} (h : ph.prgFilesz ≠ 0) :
    SourceInFile R n ph.prgFilesz.toNat (scatterEntry B R.physAddr k ph) ↔
      ph.prgOffset.toNat + ph.prgFilesz.toNat ≤ n ∧
        R.physAddr.toNat + ph.prgOffset.toNat + ph.prgFilesz.toNat ≤ 2 ^ 32 := by
  have hpos : ph.prgFilesz.toNat ≠ 0 := fun hzero => h (BitVec.eq_of_toNat_eq hzero)
  have hoff := ph.prgOffset.isLt
  have hsrc : (be32 (scatterEntry B R.physAddr k ph).src).toNat =
      (R.physAddr.toNat + ph.prgOffset.toNat) % 2 ^ 32 := by
    unfold scatterEntry be32
    rw [swab32_swab32, BitVec.toNat_ofNat]
  constructor
  · rintro ⟨hstart, hstop, hwrap⟩
    rw [hsrc] at hstart hstop hwrap
    omega
  · rintro ⟨hfile, hwrap⟩
    have hlt : R.physAddr.toNat + ph.prgOffset.toNat < 2 ^ 32 := by omega
    rw [Nat.mod_eq_of_lt hlt] at hsrc
    exact ⟨by omega, by omega, by omega⟩

/-- A segment has a size. -/
theorem filesz_ne_zero {m : Mem} {pgHdOff : BitVec 32} {phNum : ℕ} {ph : ProgramHeader}
    (h : ph ∈ segments m pgHdOff phNum) : ph.prgFilesz ≠ 0 :=
  of_decide_eq_true (List.mem_filter.mp h).2

/-- **Which files are booted.** Where the preamble is written, the modem boots
bytes of the file exactly if every image that is accepted fits. -/
theorem boots_file_iff (B : BootIf) (R : FirmwareRegion) (E : RtosEnv) (mem : Mem) (hdr : BootHeader) :
    BootsFile B R E mem hdr ↔ ∀ F n, E.Loads R mem F n → Accepted R F → ImageFits R F n := by
  unfold BootsFile
  rcases rtos_started_or_not B R E mem hdr with ⟨hzero, -, F₀, n₀, hloads₀, hacc, hfilled⟩ | ⟨herr, -, hnone⟩
  · -- there is only one image
    have honly : ∀ F n, E.Loads R mem F n → F = F₀ := by
      intro F n hloads
      exact (Prod.mk.inj (Except.ok.inj (hloads.2.symm.trans hloads₀.2))).1
    rw [imp_iff_right hzero]
    constructor
    · intro h F n hloads _
      obtain ⟨htable, hsegs⟩ := h F n hloads
      obtain rfl := honly F n hloads
      refine ⟨htable, fun ph hph => ?_⟩
      obtain ⟨k, hk⟩ := List.mem_iff_getElem?.mp hph
      have hsource := hsegs k ph hk
      rw [hfilled.sgtbl k ph hk] at hsource
      exact (sourceInFile_iff (filesz_ne_zero hph)).mp hsource
    · intro h F n hloads
      obtain rfl := honly F n hloads
      have hfits := h F n hloads hacc
      refine ⟨hfits.table, fun k ph hk => ?_⟩
      have hph := List.mem_of_getElem? hk
      rw [hfilled.sgtbl k ph hk]
      exact (sourceInFile_iff (filesz_ne_zero hph)).mpr (hfits.segments ph hph)
  · exact iff_of_true (fun hzero => absurd hzero herr) fun F n hloads hacc => absurd hacc (hnone F n hloads)

/-- A word with its highest byte first. -/
def be32Bytes (x : BitVec 32) : List Byte := le32 (be32 x)

/-- An image of 84 bytes: the file header and the header of one segment of four
bytes at `offset`. -/
def oneSegment (offset : BitVec 32) : Mem := ofList <|
  List.replicate 18 0 ++ [0x00, 0x14] ++ List.replicate 8 0 ++ be32Bytes 52 ++ List.replicate 12 0 ++ [0, 1] ++
    List.replicate 6 0 ++
  -- 52: the program header
  be32Bytes 1 ++ be32Bytes offset ++ be32Bytes 0xE0200000 ++ be32Bytes 0 ++ be32Bytes 4 ++ be32Bytes 4 ++
    List.replicate 8 0

/-- A region of 4 MB. -/
def aRegion : FirmwareRegion := ⟨0xA0000000, 4 * 1024 * 1024, le_rfl⟩

/-- The default file is there, and is this. -/
def anEnv (F : Mem) (n : ℕ) : RtosEnv := ⟨-2, 0, .ok (F, n)⟩

/-- A boot header before a load. -/
def noHeader : BootHeader := ⟨0, 0, 0, 0, fun _ => ⟨0, 0, 0, 0⟩⟩

/-- The source of the first entry after a load of the image with a segment at `offset`. -/
def firstSource (offset : BitVec 32) : ℤ × BitVec 32 :=
  let out := gulLoadRtosImg ⟨false, 0x42⟩ aRegion (anEnv (oneSegment offset) 84) (fun _ => 0) noHeader
  (out.1, be32 (out.2.sgtbl 0).src)

/-- The region after the file is read. -/
def loaded (offset : BitVec 32) : Mem := copy (fun _ => 0) 0 (oneSegment offset) 0 84

theorem not_bootsFile_of_source {offset src : BitVec 32} (h : firstSource offset = (0, src))
    (hseg : (segments (loaded offset) (fileHeader (loaded offset)).fhPhoff
      (fileHeader (loaded offset)).fhPhnum.toNat)[0]? = some ⟨offset, 0xE0200000, 4⟩)
    (hout : src.toNat < 0xA0000000 ∨ 0xA0000000 + 84 < src.toNat + 4) :
    ¬ BootsFile ⟨false, 0x42⟩ aRegion (anEnv (oneSegment offset) 84) (fun _ => 0) noHeader := by
  intro hboots
  have hfits : ¬ aRegion.size < 84 := by decide
  have hloads : (anEnv (oneSegment offset) 84).Loads aRegion (fun _ => 0) (loaded offset) 84 := by
    refine ⟨Or.inr rfl, ?_⟩
    simp only [anEnv, Vspa.gulUdevLoadFirmware, if_neg hfits, loaded]
  obtain ⟨hzero, hsrc⟩ := Prod.mk.inj h
  obtain ⟨-, hsegs⟩ := hboots hzero _ _ hloads
  obtain ⟨hstart, hstop, -⟩ := hsegs 0 _ hseg
  rw [hsrc] at hstart hstop
  change 0xA0000000 ≤ src.toNat at hstart
  change src.toNat + 4 ≤ 0xA0000000 + 84 at hstop
  omega

/-- The modem boots four bytes behind the end of the file, and with a larger
offset four bytes before the region. -/
theorem boots_other_bytes :
    firstSource 0x1000 = (0, 0xA0001000) ∧ firstSource 0xFFFFF000 = (0, 0x9FFFF000) ∧
      ¬ BootsFile ⟨false, 0x42⟩ aRegion (anEnv (oneSegment 0x1000) 84) (fun _ => 0) noHeader ∧
      ¬ BootsFile ⟨false, 0x42⟩ aRegion (anEnv (oneSegment 0xFFFFF000) 84) (fun _ => 0) noHeader := by
  have hbehind : firstSource 0x1000 = (0, 0xA0001000) := by decide +kernel
  have hbefore : firstSource 0xFFFFF000 = (0, 0x9FFFF000) := by decide +kernel
  refine ⟨hbehind, hbefore, not_bootsFile_of_source hbehind ?_ ?_, not_bootsFile_of_source hbefore ?_ ?_⟩
  · decide +kernel
  · decide
  · decide +kernel
  · decide

end Boot
end La12xx
