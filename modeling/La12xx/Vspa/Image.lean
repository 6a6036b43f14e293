/-
# A VSPA firmware image

What `gul_main_vspa.c` reads from the image before it loads anything: the ELF
file header and section headers, and the records of the section `.mw_info`
(`fw_read_and_load_sections_info`). Records of type 14 name the memory spaces
of a core; records of type 15 say to which memory space a section belongs.
The lookups in these tables run an `int8_t` index and keep the memory space
in an `int8_t`.

Addresses are offsets from the start of the image, `file_start`; the host is
little-endian. The compile-time option `VSPA_IMG_CHECK` is off.
-/
import La12xx.Lib.ByteMem

namespace La12xx
namespace Vspa

open ByteMem

/-- The bytes of an ASCII string. -/
def ascii (s : List Char) : List Byte := s.map fun c => BitVec.ofNat 8 c.toNat

/-! ### Headers -/

/-- The members of `struct file_header` the driver reads. -/
structure FileHeader where
  fhMachine : BitVec 16
  fhShoff : BitVec 32
  fhShnum : BitVec 16
  fhShstrndx : BitVec 16
deriving DecidableEq, Repr

def fileHeader (m : Mem) : FileHeader := ⟨u16 m 18, u32 m 32, u16 m 48, u16 m 50⟩

/-- The members of `struct section_header` the driver reads. -/
structure SectionHeader where
  secName : BitVec 32
  secAddr : BitVec 32
  secOffset : BitVec 32
  secSize : BitVec 32
  secInfo : BitVec 32
deriving DecidableEq, Repr

/-- `sec_header[i]`, with 40 bytes to an entry. -/
def sectionHeader (m : Mem) (shoff : BitVec 32) (i : ℕ) : SectionHeader :=
  let a : ℤ := shoff.toNat + 40 * i
  ⟨u32 m a, u32 m (a + 12), u32 m (a + 16), u32 m (a + 20), u32 m (a + 28)⟩

/-- Where the string table starts. -/
def stringTable (m : Mem) (hd : FileHeader) : ℤ :=
  (sectionHeader m hd.fhShoff hd.fhShstrndx.toNat).secOffset.toNat

/-! ### The records of `.mw_info` -/

/-- `struct vspa_section_info`: two tables, of 36-byte entries
`mw_info_type_14` and of 8-byte entries `mw_info_type_15`, with their counts. -/
structure VspaSecInfo where
  vspaSecCount : ℕ
  memspaceMap : Mem
  vspaMemspaceCount : ℕ
  sectionMemspaceMap : Mem

/-- The tables of a fresh `vspa_device`, and of `kcalloc`. -/
def VspaSecInfo.zero : VspaSecInfo := ⟨0, fun _ => 0, 0, fun _ => 0⟩

/-- `MAX_VSPA_MEMSPACE` -/
def maxVspaMemspace : ℕ := 4

/-- How parsing ends. -/
inductive Parsed where
  | ok (info : VspaSecInfo)
  /-- the function returns this error -/
  | err (e : ℤ)
  /-- a record is copied beyond its table, or with a size below 0 -/
  | overrun
  /-- the loop has not ended -/
  | running

/-- The tables, if parsing ended well. -/
def Parsed.info : Parsed → Option VspaSecInfo
  | .ok info => some info
  | _ => none

/-- The record loop, for at most `fuel` records from `ptr`. `sectionEnd` is the
end of the section and `secCnt` the length of the allocated section table. -/
def recordLoop (m : Mem) (sectionEnd : ℤ) (secCnt : ℕ) : ℕ → ℤ → VspaSecInfo → Parsed
  | 0, _, _ => .running
  | fuel + 1, ptr, info =>
    if ptr < sectionEnd then
      let recordSize := (m ptr).toNat
      let recordType := (m (ptr + 4)).toNat
      if recordType = 0 then .ok info
      else if recordType = 14 then
        if 5 ≤ recordSize ∧ 36 * info.vspaMemspaceCount + (recordSize - 5) ≤ 36 * maxVspaMemspace then
          recordLoop m sectionEnd secCnt fuel (ptr + recordSize)
            { info with
              memspaceMap :=
                copy info.memspaceMap (36 * info.vspaMemspaceCount) m (ptr + 5) (recordSize - 5)
              vspaMemspaceCount := info.vspaMemspaceCount + 1 }
        else .overrun
      else if recordType = 15 then
        if 5 ≤ recordSize ∧ 8 * info.vspaSecCount + (recordSize - 5) ≤ 8 * secCnt then
          recordLoop m sectionEnd secCnt fuel (ptr + recordSize)
            { info with
              sectionMemspaceMap := copy info.sectionMemspaceMap (8 * info.vspaSecCount) m (ptr + 5) (recordSize - 5)
              vspaSecCount := info.vspaSecCount + 1 }
        else .overrun
      else recordLoop m sectionEnd secCnt fuel (ptr + recordSize) info
    else .ok info

/-- `LIBVSPA_ERR_EIO` -/
def libvspaErrEio : ℤ := 5

/-- `LIBVSPA_ERR_ENOMEM` -/
def libvspaErrEnomem : ℤ := 12

/-- `LIBVSPA_ERR_EINVOFFSET` -/
def libvspaErrEinvoffset : ℤ := 17

/-- The name of section `i` starts with `.mw_info`. -/
def isMwInfo (m : Mem) (hd : FileHeader) (i : ℕ) : Bool :=
  bytes m (stringTable m hd + (sectionHeader m hd.fhShoff i).secName.toNat) 8 =
    ascii ['.', 'm', 'w', '_', 'i', 'n', 'f', 'o']

/-- `fw_read_and_load_sections_info`, on the zeroed tables of a fresh
`vspa_device`. -/
def fwReadAndLoadSectionsInfo (fuel : ℕ) (m : Mem) (hd : FileHeader) (kcalloc : Bool) : Parsed :=
  match (List.range hd.fhShnum.toNat).find? (isMwInfo m hd) with
  | some i =>
    if kcalloc then
      let hdr := sectionHeader m hd.fhShoff i
      recordLoop m (hdr.secOffset.toNat + hdr.secSize.toNat) hd.fhShnum.toNat fuel hdr.secOffset.toNat .zero
    else .err libvspaErrEnomem
  | none => .err libvspaErrEio

/-! ### Lookups -/

/-- `vspa_loadable_section` -/
def vspaLoadableSection : List (List Byte) :=
  [ascii ['.', 's', 'y', 'n', 'c', '_'], ascii ['.', 's', 'l', 'o', 't', '_'],
    ascii ['.', 'p', 'e', 'b', 'm', '_'], ascii ['.', 'h', 'r', 'a', 'm', '_'],
    ascii ['p', 'e', 'b', 'm', '_']]

/-- `is_vspa_section_loadable`, on the first six bytes of the name. -/
def isVspaSectionLoadable (name : List Byte) : Bool :=
  vspaLoadableSection.any fun p => name.take p.length = p

/-- `is_vspa_section_valid`: the `int8_t` index wraps after 127, and then
compares as a large unsigned number. -/
def isVspaSectionValid (info : VspaSecInfo) (secNum : ℕ) : ℤ :=
  let found := (List.range (min info.vspaSecCount 128)).find? fun i : ℕ =>
    decide (u32 info.sectionMemspaceMap (8 * i) = BitVec.ofNat 32 secNum)
  match found with
  | some i => ((u32 info.sectionMemspaceMap (8 * i + 4)).setWidth 8).toInt
  | none => -1

/-- `DMEM_NC` -/
def dmemNc : BitVec 32 := 0

/-- `PRAM` -/
def pram : BitVec 32 := 0x200

/-- `IPPUPRAM` -/
def ippupram : BitVec 32 := 0x300

/-- `AXI_NC` -/
def axiNc : BitVec 32 := 0x600

/-- `NO_LOAD`, and -1 -/
def noLoad : BitVec 32 := 0xFFFFFFFF

/-- `!strcmp(name, s)` -/
def strEq (name : List Byte) (s : List Char) : Bool := name.take (s.length + 1) = ascii s ++ [0]

/-- `get_vspa_section_trans_mode`. -/
def getVspaSectionTransMode (info : VspaSecInfo) (memspaceId : ℤ) : BitVec 32 :=
  if memspaceId < 0 then noLoad else
  let found := (List.range (min info.vspaMemspaceCount 128)).find? fun i : ℕ =>
    decide (((u32 info.memspaceMap (36 * i)).toNat : ℤ) = memspaceId)
  match found with
  | none => noLoad
  | some i =>
    let name := bytes info.memspaceMap (36 * i + 20) 16
    if strEq name ['a', 'x', 'i', 'm'] then axiNc
    else if strEq name ['d', 'r', 'a', 'm'] then dmemNc
    else if strEq name ['i', 'p', 'p', 'u'] || strEq name ['i', 'p', 'p', 'u', '_', 'p', 'r', 'a', 'm'] then
      ippupram
    else if strEq name ['v', 'c', 'p', 'u'] || strEq name ['v', 'c', 'p', 'u', '_', 'p', 'r', 'a', 'm'] then
      pram
    else noLoad

end Vspa
end La12xx
