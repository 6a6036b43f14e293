/-
# Loading a VSPA core

`fw_read_and_load_sections` of `gul_main_vspa.c` walks over the sections of
the image. A section that a record assigns to a memory space is sent to the
core by DMA, in pieces of at most `MAX_DMA_TRANSFER` bytes, each of which is
first moved to the bounce buffer `vspa_dma_region` (`vspa_fw_dma_write`); the
others may be copied to an overlay region by the CPU. The bounce buffer is the
scratch region `GUL_VSPA_FW`, which is also where the image is: its address is
offset 0 of the memory below.

The DMA engine answers each transfer in its own way (`DmaResp`). A load keeps
a record of the sections it visited, with the header and the name it read for
each and what it did.
-/
import La12xx.Lib.CInt
import La12xx.Vspa.Image

namespace La12xx
namespace Vspa

open ByteMem

/-! ### DMA -/

/-- `VSPA_DMA_MAX_COUNTER` -/
def vspaDmaMaxCounter : ℕ := 100

/-- `DMA_COMP_STAT_SET` -/
def dmaCompStatSet : BitVec 32 := 1

/-- `ETIMEDOUT` -/
def etimedout : ℤ := 110

/-- `EINVAL` -/
def einval : ℤ := 22

/-- `ECOMM` -/
def ecomm : ℤ := 70

/-- What the registers of the DMA engine read during one transfer: the
completion status at each poll, and the two error words afterwards. -/
structure DmaResp where
  compStat : ℕ → BitVec 32
  xfrErr : BitVec 32
  cfgErr : BitVec 32

/-- The polling loop: whether it ends before its counter does. -/
def pollLoop (compStat : ℕ → BitVec 32) : ℕ → ℕ → Bool
  | 0, _ => false
  | counter + 1, k =>
    if compStat k &&& dmaCompStatSet = dmaCompStatSet then true else pollLoop compStat counter (k + 1)

/-- `dma_raw_transmit`, which reads the error words and drops them. -/
def dmaRawTransmit (resp : DmaResp) : ℤ :=
  if pollLoop resp.compStat vspaDmaMaxCounter 0 then 0 else -etimedout

/-- `struct dma_param`, with the source as an offset in the image. -/
structure DmaParam where
  xfrCtrl : BitVec 32
  offset : BitVec 32
  phys : ℤ
  size : ℕ

/-- A request as `dma_raw_transmit` gets it, with the bytes in the bounce
buffer, and how the engine answered. -/
structure Transfer where
  dmemAddr : BitVec 32
  byteCnt : ℕ
  xfrCtrl : BitVec 32
  block : List Byte
  resp : DmaResp

/-- The request completed, and neither error word is set. -/
def Transfer.Clean (t : Transfer) : Prop :=
  dmaRawTransmit t.resp = 0 ∧ t.resp.xfrErr = 0 ∧ t.resp.cfgErr = 0

/-- `MAX_DMA_TRANSFER` -/
def maxDmaTransfer : ℕ := 65536

/-- `PRAM_ADDR_MASK` -/
def pramAddrMask : BitVec 32 := 0x0007FFFF

/-- `VSPA_DRAM_SIZE` -/
def vspaDramSize : ℕ := 0x00050000

/-- `DMA_BCNT_MASK` -/
def dmaBcntMask : ℕ := 0x0001FFFF

/-- The memory, the number of transfers so far and those of this call, and
the value returned. -/
structure DmaOut where
  mem : Mem
  sent : ℕ
  transfers : List Transfer
  ret : ℤ

/-- The loop of `vspa_fw_dma_write`, for at most `fuel` requests. -/
def dmaWriteLoop (dma : ℕ → DmaResp) : ℕ → Mem → ℕ → DmaParam → DmaOut
  | 0, mem, sent, _ => ⟨mem, sent, [], 0⟩
  | fuel + 1, mem, sent, linfo =>
    let sizeToXfer := if linfo.size > maxDmaTransfer then maxDmaTransfer else linfo.size
    let dmemAddr := linfo.offset &&& pramAddrMask
    let byteCnt := sizeToXfer &&& dmaBcntMask
    let next : DmaParam := ⟨linfo.xfrCtrl, linfo.offset + BitVec.ofNat 32 sizeToXfer,
      linfo.phys + sizeToXfer, linfo.size - sizeToXfer⟩
    if dmemAddr.toNat ≥ vspaDramSize then ⟨mem, sent, [], -einval⟩
    else
      let mem := move mem 0 linfo.phys byteCnt
      let t : Transfer := ⟨dmemAddr, byteCnt, linfo.xfrCtrl, bytes mem 0 byteCnt, dma sent⟩
      if dmaRawTransmit (dma sent) < 0 then ⟨mem, sent + 1, [t], -ecomm⟩
      else if next.size ≠ 0 then
        let r := dmaWriteLoop dma fuel mem (sent + 1) next
        ⟨r.mem, r.sent, t :: r.transfers, r.ret⟩
      else ⟨mem, sent + 1, [t], 0⟩

/-- `vspa_fw_dma_write`. -/
def vspaFwDmaWrite (dma : ℕ → DmaResp) (mem : Mem) (sent : ℕ) (linfo : DmaParam) : DmaOut :=
  dmaWriteLoop dma (linfo.size / maxDmaTransfer + 1) mem sent linfo

/-! ### Sections -/

/-- What a core's load depends on besides the image: its parameter register 1,
and the address of the overlay region. -/
structure VspaDev where
  param1 : BitVec 32
  overlayBaseAddr : BitVec 32

/-- `hw->axi_data_width`, in bits -/
def VspaDev.axiDataWidth (V : VspaDev) : BitVec 32 := (32 : BitVec 32) <<< ((V.param1 >>> 28) &&& 7)

/-- `axi_data_width / BITS_PER_BYTE` -/
def VspaDev.axiAlign (V : VspaDev) : BitVec 32 := V.axiDataWidth / 8

/-- The macro `align` on `uint32_t`. -/
def align (x a : BitVec 32) : BitVec 32 := (x + (a - 1)) &&& ~~~ (a - 1)

/-- The AXI width in bytes is a power of two. -/
theorem VspaDev.axiAlign_mask (V : VspaDev) : ∃ k ≤ 9, V.axiAlign - 1 = BitVec.ofNat 32 (2 ^ k - 1) := by
  have hlt : ((V.param1 >>> 28) &&& 7).toNat < 8 := by
    rw [BitVec.toNat_and]
    exact Nat.lt_of_le_of_lt Nat.and_le_right (by decide)
  have hwidth : ∀ n < 8, ((32 : BitVec 32) <<< BitVec.ofNat 32 n) / 8 - 1 = BitVec.ofNat 32 (2 ^ (n + 2) - 1) := by
    decide
  refine ⟨((V.param1 >>> 28) &&& 7).toNat + 2, by omega, ?_⟩
  have h := hwidth _ hlt
  rw [BitVec.ofNat_toNat, BitVec.setWidth_eq] at h
  exact h

/-- Aligning does not make a size smaller, unless it wraps to zero. -/
theorem le_align (V : VspaDev) {x : BitVec 32} (h : align x V.axiAlign ≠ 0) :
    x.toNat ≤ (align x V.axiAlign).toNat := by
  obtain ⟨k, hk, hmask⟩ := V.axiAlign_mask
  have hpow : 2 ^ k ≤ 2 ^ 9 := Nat.pow_le_pow_right (by decide) hk
  have hpos : 0 < 2 ^ k := Nat.two_pow_pos k
  unfold align at h ⊢
  rw [hmask, and_not_mask] at h ⊢
  have hval : ((x + BitVec.ofNat 32 (2 ^ k - 1)) >>> k <<< k).toNat =
      (x.toNat + (2 ^ k - 1)) % 2 ^ 32 / 2 ^ k * 2 ^ k := by
    rw [BitVec.toNat_shiftLeft, BitVec.toNat_ushiftRight, Nat.shiftLeft_eq, Nat.shiftRight_eq_div_pow,
      BitVec.toNat_add, BitVec.toNat_ofNat, Nat.mod_eq_of_lt (show 2 ^ k - 1 < 2 ^ 32 by omega)]
    exact Nat.mod_eq_of_lt ((Nat.div_mul_le_self _ _).trans_lt (Nat.mod_lt _ (by decide)))
  rw [hval]
  by_cases hwrap : x.toNat + (2 ^ k - 1) < 2 ^ 32
  · rw [Nat.mod_eq_of_lt hwrap]
    have hdiv := Nat.div_add_mod' (x.toNat + (2 ^ k - 1)) (2 ^ k)
    have hmod := Nat.mod_lt (x.toNat + (2 ^ k - 1)) hpos
    omega
  · exfalso
    apply h
    apply BitVec.eq_of_toNat_eq
    have hlt : (x.toNat + (2 ^ k - 1)) % 2 ^ 32 < 2 ^ k := by
      have := x.isLt
      omega
    rw [hval, Nat.div_eq_of_lt hlt, Nat.zero_mul]
    rfl

/-- `GUL_VSPA_OVERLAY_SIZE` -/
def gulVspaOverlaySize : BitVec 32 := 0x200000

/-- `GUL_PEBM_OVERLAY_BASE` -/
def gulPebmOverlayBase : BitVec 32 := 0xE0380000

/-- `GUL_PEBM_BASE_ADDR` -/
def gulPebmBaseAddr : BitVec 32 := 0xE0200000

/-- `GUL_FECA_BASE_ADDR` -/
def gulFecaBaseAddr : BitVec 32 := 0xE5000000

/-- Where a section is copied by the CPU. -/
inductive Overlay where
  | host
  | pebm
  | feca
deriving DecidableEq, Repr

/-- What is done with a section. -/
inductive Action where
  | ignored
  | copied (region : Overlay) (dst : BitVec 32) (src : Option ℤ) (size : BitVec 32)
  /-- its size is zero -/
  | empty
  /-- `Section too big` -/
  | tooBig
  /-- `Unaligned VMA` -/
  | unaligned
  /-- `Trans mode failed` -/
  | noTransMode
  | dma (transfers : List Transfer) (ret : ℤ)

/-- The requests made for a section that is sent. -/
def Action.transfers : Action → Option (List Transfer)
  | .dma transfers _ => some transfers
  | _ => none

/-- A visited section: the header and the start of the name as they were read,
and what was done. -/
structure Visit where
  secNum : ℕ
  hdr : SectionHeader
  name : List Byte
  action : Action

/-- How the loop goes on after a section. -/
inductive Next where
  | go
  | err (ret : ℤ)
  /-- the CPU copies from a null pointer -/
  | fault

/-- The variables of `fw_read_and_load_sections` that outlive a section, with
the memory and the number of transfers so far. -/
structure LoadState where
  mem : Mem
  sent : ℕ
  sectionPtr : Option ℤ

/-- What the loop reads of section `secNum` before it decides. -/
def readSection (mem : Mem) (shoff : BitVec 32) (str : ℤ) (secNum : ℕ) : SectionHeader × List Byte :=
  let hdr := sectionHeader mem shoff secNum
  -- the name's offset is passed as an `int`
  (hdr, bytes mem (str + hdr.secName.toInt) 6)

/-- The section goes to a memory space: it has no special name and a record. -/
def isSelected (info : VspaSecInfo) (secNum : ℕ) (name : List Byte) : Bool :=
  !isVspaSectionLoadable name && decide (0 ≤ isVspaSectionValid info secNum)

/-- The branch of the sections that are not sent by DMA. -/
def overlaySection (V : VspaDev) (st : LoadState) (hdr : SectionHeader) : Action × LoadState × Next :=
  let sectionSize := align hdr.secSize V.axiAlign
  if hdr.secInfo ≠ 0 then
    let ptr : ℤ := hdr.secOffset.toNat
    let st := { st with sectionPtr := some ptr }
    if V.overlayBaseAddr ≤ hdr.secInfo ∧
        hdr.secInfo + sectionSize < V.overlayBaseAddr + gulVspaOverlaySize then
      (.copied .host (hdr.secInfo - V.overlayBaseAddr) (some ptr) sectionSize, st, .go)
    else if hdr.secInfo &&& gulPebmOverlayBase = gulPebmOverlayBase then
      (.copied .pebm (hdr.secInfo - gulPebmBaseAddr) (some ptr) sectionSize, st, .go)
    else (.ignored, st, .go)
  else if hdr.secAddr &&& gulFecaBaseAddr = gulFecaBaseAddr then
    -- `section_ptr` is that of an earlier section here, or still null
    let action := .copied .feca (hdr.secAddr - gulFecaBaseAddr) st.sectionPtr sectionSize
    (action, st, if st.sectionPtr = none ∧ sectionSize ≠ 0 then .fault else .go)
  else (.ignored, st, .go)

/-- The branch of the selected sections. -/
def dmaSection (V : VspaDev) (info : VspaSecInfo) (dma : ℕ → DmaResp) (fwSize : ℕ) (st : LoadState)
    (secNum : ℕ) (hdr : SectionHeader) : Action × LoadState × Next :=
  let sectionSize := align hdr.secSize V.axiAlign
  if sectionSize = 0 then (.empty, st, .go)
  else if sectionSize.toNat > fwSize then (.tooBig, st, .err (-libvspaErrEnomem))
  else if hdr.secAddr &&& (V.axiAlign - 1) ≠ 0 then (.unaligned, st, .err (-libvspaErrEinvoffset))
  else
    let ptr : ℤ := hdr.secOffset.toNat
    let xfrCtrl := getVspaSectionTransMode info (isVspaSectionValid info secNum)
    if xfrCtrl ≠ noLoad then
      let r := vspaFwDmaWrite dma st.mem st.sent ⟨xfrCtrl, hdr.secAddr, ptr, sectionSize.toNat⟩
      (.dma r.transfers r.ret, ⟨r.mem, r.sent, some ptr⟩, if r.ret < 0 then .err r.ret else .go)
    else (.noTransMode, { st with sectionPtr := some ptr }, .go)

section Sections

variable (V : VspaDev) (info : VspaSecInfo) (dma : ℕ → DmaResp) (shoff : BitVec 32) (str : ℤ) (fwSize : ℕ)

/-- `vspa_fw_dma_write` as it is called for a section. -/
def sectionWrite (st : LoadState) (secNum : ℕ) (hdr : SectionHeader) : DmaOut :=
  vspaFwDmaWrite dma st.mem st.sent
    ⟨getVspaSectionTransMode info (isVspaSectionValid info secNum), hdr.secAddr, hdr.secOffset.toNat,
      (align hdr.secSize V.axiAlign).toNat⟩

/-- What can happen to a selected section. -/
inductive Outcome (st : LoadState) (secNum : ℕ) (hdr : SectionHeader) : Action × LoadState × Next → Prop
  | empty (hsize : align hdr.secSize V.axiAlign = 0) : Outcome st secNum hdr (.empty, st, .go)
  | tooBig (hsize : align hdr.secSize V.axiAlign ≠ 0) (hbig : (align hdr.secSize V.axiAlign).toNat > fwSize) :
    Outcome st secNum hdr (.tooBig, st, .err (-libvspaErrEnomem))
  | unaligned (hsize : align hdr.secSize V.axiAlign ≠ 0)
    (hbig : ¬ (align hdr.secSize V.axiAlign).toNat > fwSize) (hvma : hdr.secAddr &&& (V.axiAlign - 1) ≠ 0) :
    Outcome st secNum hdr (.unaligned, st, .err (-libvspaErrEinvoffset))
  | noTransMode (hsize : align hdr.secSize V.axiAlign ≠ 0)
    (hbig : ¬ (align hdr.secSize V.axiAlign).toNat > fwSize) (hvma : hdr.secAddr &&& (V.axiAlign - 1) = 0)
    (hmode : getVspaSectionTransMode info (isVspaSectionValid info secNum) = noLoad) :
    Outcome st secNum hdr (.noTransMode, { st with sectionPtr := some (hdr.secOffset.toNat : ℤ) }, .go)
  | failed (hsize : align hdr.secSize V.axiAlign ≠ 0)
    (hbig : ¬ (align hdr.secSize V.axiAlign).toNat > fwSize) (hvma : hdr.secAddr &&& (V.axiAlign - 1) = 0)
    (hmode : getVspaSectionTransMode info (isVspaSectionValid info secNum) ≠ noLoad)
    (r : DmaOut) (hr : r = sectionWrite V info dma st secNum hdr) (hret : r.ret < 0) :
    Outcome st secNum hdr
      (.dma r.transfers r.ret, ⟨r.mem, r.sent, some (hdr.secOffset.toNat : ℤ)⟩, .err r.ret)
  | sent (hsize : align hdr.secSize V.axiAlign ≠ 0)
    (hbig : ¬ (align hdr.secSize V.axiAlign).toNat > fwSize) (hvma : hdr.secAddr &&& (V.axiAlign - 1) = 0)
    (hmode : getVspaSectionTransMode info (isVspaSectionValid info secNum) ≠ noLoad)
    (r : DmaOut) (hr : r = sectionWrite V info dma st secNum hdr) (hret : ¬ r.ret < 0) :
    Outcome st secNum hdr (.dma r.transfers r.ret, ⟨r.mem, r.sent, some (hdr.secOffset.toNat : ℤ)⟩, .go)

/-- These are all. -/
theorem dmaSection_outcome (st : LoadState) (secNum : ℕ) (hdr : SectionHeader) :
    Outcome V info dma fwSize st secNum hdr (dmaSection V info dma fwSize st secNum hdr) := by
  unfold dmaSection
  by_cases hsize : align hdr.secSize V.axiAlign = 0
  · rw [if_pos hsize]
    exact .empty hsize
  rw [if_neg hsize]
  by_cases hbig : (align hdr.secSize V.axiAlign).toNat > fwSize
  · rw [if_pos hbig]
    exact .tooBig hsize hbig
  rw [if_neg hbig]
  by_cases hvma : hdr.secAddr &&& (V.axiAlign - 1) = 0
  · rw [if_neg (not_not.mpr hvma)]
    dsimp only
    by_cases hmode : getVspaSectionTransMode info (isVspaSectionValid info secNum) = noLoad
    · rw [if_neg (not_not.mpr hmode)]
      exact .noTransMode hsize hbig hvma hmode
    rw [if_pos hmode]
    change Outcome V info dma fwSize st secNum hdr (_, _, if (sectionWrite V info dma st secNum hdr).ret < 0 then _ else _)
    by_cases hret : (sectionWrite V info dma st secNum hdr).ret < 0
    · rw [if_pos hret]
      exact .failed hsize hbig hvma hmode _ rfl hret
    · rw [if_neg hret]
      exact .sent hsize hbig hvma hmode _ rfl hret
  · rw [if_pos hvma]
    exact .unaligned hsize hbig hvma

/-- A section that is not selected is not sent, and ends the load only at a
null pointer. -/
theorem overlaySection_outcome (st : LoadState) (hdr : SectionHeader) :
    let out := overlaySection V st hdr
    out.1.transfers = none ∧
      out.2.1 = ⟨st.mem, st.sent, if hdr.secInfo ≠ 0 then some (hdr.secOffset.toNat : ℤ) else st.sectionPtr⟩ ∧
      out.2.2 = if hdr.secInfo = 0 ∧ hdr.secAddr &&& gulFecaBaseAddr = gulFecaBaseAddr ∧
        st.sectionPtr = none ∧ align hdr.secSize V.axiAlign ≠ 0 then .fault else .go := by
  intro out
  dsimp only [out, overlaySection]
  by_cases hinfo : hdr.secInfo = 0
  · rw [if_neg (not_not.mpr hinfo), if_neg (not_not.mpr hinfo)]
    by_cases hfeca : hdr.secAddr &&& gulFecaBaseAddr = gulFecaBaseAddr
    · rw [if_pos hfeca]
      refine ⟨rfl, rfl, ?_⟩
      dsimp only
      simp only [hinfo, hfeca, true_and]
    · rw [if_neg hfeca, if_neg fun h => hfeca h.2.1]
      exact ⟨rfl, rfl, rfl⟩
  · have hfault : ¬ (hdr.secInfo = 0 ∧ hdr.secAddr &&& gulFecaBaseAddr = gulFecaBaseAddr ∧
        st.sectionPtr = none ∧ align hdr.secSize V.axiAlign ≠ 0) := fun h => hinfo h.1
    rw [if_pos hinfo, if_pos hinfo, if_neg hfault]
    split_ifs <;> exact ⟨rfl, rfl, rfl⟩

/-- One round of the loop of `fw_read_and_load_sections`. -/
def loadSection (st : LoadState) (secNum : ℕ) : Visit × LoadState × Next :=
  let (hdr, name) := readSection st.mem shoff str secNum
  let (action, st, next) := if isSelected info secNum name then dmaSection V info dma fwSize st secNum hdr
    else overlaySection V st hdr
  (⟨secNum, hdr, name, action⟩, st, next)

/-- What a round does: it reads the section and takes one of the two branches. -/
theorem loadSection_cases {st st' : LoadState} {secNum : ℕ} {v : Visit} {next : Next}
    (h : loadSection V info dma shoff str fwSize st secNum = (v, st', next)) :
    ∃ hdr name action, v = ⟨secNum, hdr, name, action⟩ ∧ readSection st.mem shoff str secNum = (hdr, name) ∧
      ((isSelected info secNum name = true ∧ Outcome V info dma fwSize st secNum hdr (action, st', next)) ∨
        (¬ isSelected info secNum name = true ∧ overlaySection V st hdr = (action, st', next))) := by
  unfold loadSection at h
  generalize readSection st.mem shoff str secNum = rd at h ⊢
  obtain ⟨hdr, name⟩ := rd
  dsimp only at h
  by_cases hsel : isSelected info secNum name = true
  · rw [if_pos hsel] at h
    have hout := dmaSection_outcome V info dma fwSize st secNum hdr
    generalize dmaSection V info dma fwSize st secNum hdr = out at h hout
    cases h
    exact ⟨hdr, name, out.1, rfl, rfl, Or.inl ⟨hsel, hout⟩⟩
  · rw [if_neg hsel] at h
    cases h
    exact ⟨hdr, name, _, rfl, rfl, Or.inr ⟨hsel, rfl⟩⟩

/-- A load does not end with the error 0. -/
theorem loadSection_err {st st' : LoadState} {secNum : ℕ} {v : Visit} {ret : ℤ}
    (h : loadSection V info dma shoff str fwSize st secNum = (v, st', .err ret)) : ret < 0 := by
  obtain ⟨hdr, name, action, -, -, ⟨-, hout⟩ | ⟨-, hov⟩⟩ := loadSection_cases V info dma shoff str fwSize h
  · cases hout with
    | tooBig hsize hbig => decide
    | unaligned hsize hbig hvma => decide
    | failed hsize hbig hvma hmode r hr hret => exact hret
  · have hnext := (overlaySection_outcome V st hdr).2.2
    rw [hov] at hnext
    dsimp only at hnext
    split_ifs at hnext

end Sections

/-- The visited sections and the final state; the value returned, or `none`
for a fault. -/
structure LoadOut where
  visits : List Visit
  st : LoadState
  ret : Option ℤ

/-- The loop of `fw_read_and_load_sections` over the next `k` sections. -/
def loadLoop (V : VspaDev) (info : VspaSecInfo) (dma : ℕ → DmaResp) (shoff : BitVec 32) (str : ℤ)
    (fwSize : ℕ) : ℕ → ℕ → LoadState → LoadOut
  | 0, _, st => ⟨[], st, some 0⟩
  | k + 1, secNum, st =>
    match loadSection V info dma shoff str fwSize st secNum with
    | (visit, st, .go) =>
      let r := loadLoop V info dma shoff str fwSize k (secNum + 1) st
      ⟨visit :: r.visits, r.st, r.ret⟩
    | (visit, st, .err ret) => ⟨[visit], st, some ret⟩
    | (visit, st, .fault) => ⟨[visit], st, none⟩

/-- A loop that returns 0 has gone on from every section. -/
theorem loadLoop_succ_of_ok {V : VspaDev} {info : VspaSecInfo} {dma : ℕ → DmaResp} {shoff : BitVec 32} {str : ℤ}
    {fwSize k secNum : ℕ} {st : LoadState}
    (hret : (loadLoop V info dma shoff str fwSize (k + 1) secNum st).ret = some 0) :
    ∃ v st', loadSection V info dma shoff str fwSize st secNum = (v, st', .go) ∧
      (loadLoop V info dma shoff str fwSize k (secNum + 1) st').ret = some 0 ∧
      (loadLoop V info dma shoff str fwSize (k + 1) secNum st).visits =
        v :: (loadLoop V info dma shoff str fwSize k (secNum + 1) st').visits := by
  obtain ⟨⟨v, st', next⟩, hround⟩ : ∃ out, loadSection V info dma shoff str fwSize st secNum = out := ⟨_, rfl⟩
  rw [loadLoop, hround] at hret ⊢
  cases next with
  | fault => cases hret
  | err ret =>
    have hneg := loadSection_err V info dma shoff str fwSize hround
    obtain rfl := Option.some.inj hret
    omega
  | go => exact ⟨v, st', rfl, hret, rfl⟩

/-- `fw_read_and_load_sections`, for an image in memory. -/
def fwReadAndLoadSections (V : VspaDev) (info : VspaSecInfo) (dma : ℕ → DmaResp) (hd : FileHeader)
    (fwSize : ℕ) (mem : Mem) : LoadOut :=
  loadLoop V info dma hd.fhShoff (stringTable mem hd) fwSize hd.fhShnum.toNat 0 ⟨mem, 0, none⟩

/-! ### Images -/

/-- `GCC_MACH_CODE` -/
def gccMachCode : BitVec 16 := 0xBE

/-- `ISCAPE_MACH_CODE` -/
def iscapeMachCode : BitVec 16 := 0x40c8

/-- `ENOEXEC` -/
def enoexec : ℤ := 8

/-- `EIO` -/
def eio : ℤ := 5

/-- The value returned, or `none` if the function does not return; with the
load, if it came to that. -/
structure ImageOut where
  ret : Option ℤ
  load : Option LoadOut

/-- `gul_load_vspa_image`. `fuel` bounds the records that are read from
`.mw_info`. -/
def gulLoadVspaImage (fuel : ℕ) (V : VspaDev) (kcalloc : Bool) (dma : ℕ → DmaResp) (mem : Mem)
    (vspaFwSize : ℕ) : ImageOut :=
  let hd := fileHeader mem
  if hd.fhMachine ≠ gccMachCode ∧ hd.fhMachine ≠ iscapeMachCode then ⟨some (-enoexec), none⟩ else
  match fwReadAndLoadSectionsInfo fuel mem hd kcalloc with
  | .err _ => ⟨some (-eio), none⟩
  | .overrun | .running => ⟨none, none⟩
  | .ok info =>
    let r := fwReadAndLoadSections V info dma hd vspaFwSize mem
    ⟨r.ret.map fun ret => if ret ≠ 0 then -eio else 0, some r⟩

/-- The machine codes of VSPA images. -/
def FileHeader.IsVspa (hd : FileHeader) : Prop := hd.fhMachine = gccMachCode ∨ hd.fhMachine = iscapeMachCode

section Image

variable {fuel : ℕ} (V : VspaDev) {kcalloc : Bool} (dma : ℕ → DmaResp) {F : Mem} (size : ℕ)

theorem not_isVspa_iff {hd : FileHeader} :
    ¬ hd.IsVspa ↔ hd.fhMachine ≠ gccMachCode ∧ hd.fhMachine ≠ iscapeMachCode := not_or

/-- The load of an image with the right machine code and section tables. -/
theorem gulLoadVspaImage_of_ok {info : VspaSecInfo} (hmach : (fileHeader F).IsVspa)
    (hinfo : fwReadAndLoadSectionsInfo fuel F (fileHeader F) kcalloc = .ok info) :
    gulLoadVspaImage fuel V kcalloc dma F size =
      let r := fwReadAndLoadSections V info dma (fileHeader F) size F
      ⟨r.ret.map fun ret => if ret ≠ 0 then -eio else 0, some r⟩ := by
  unfold gulLoadVspaImage
  dsimp only
  rw [if_neg (fun h => not_isVspa_iff.mpr h hmach), hinfo]

theorem load_of_ok {info : VspaSecInfo} (hmach : (fileHeader F).IsVspa)
    (hinfo : fwReadAndLoadSectionsInfo fuel F (fileHeader F) kcalloc = .ok info) :
    (gulLoadVspaImage fuel V kcalloc dma F size).load =
      some (fwReadAndLoadSections V info dma (fileHeader F) size F) := by
  rw [gulLoadVspaImage_of_ok V dma size hmach hinfo]

variable {V dma size}

/-- An image is accepted after the whole section loop, or not at all. -/
theorem accepted_iff :
    (gulLoadVspaImage fuel V kcalloc dma F size).ret = some 0 ↔
      (fileHeader F).IsVspa ∧ ∃ info, fwReadAndLoadSectionsInfo fuel F (fileHeader F) kcalloc = .ok info ∧
        (fwReadAndLoadSections V info dma (fileHeader F) size F).ret = some 0 := by
  constructor
  · intro h
    by_cases hmach : (fileHeader F).IsVspa
    · refine ⟨hmach, ?_⟩
      unfold gulLoadVspaImage at h
      dsimp only at h
      rw [if_neg fun h => not_isVspa_iff.mpr h hmach] at h
      cases hp : fwReadAndLoadSectionsInfo fuel F (fileHeader F) kcalloc with
      | ok info =>
        rw [hp] at h
        refine ⟨info, rfl, ?_⟩
        obtain ⟨ret, hret, hzero⟩ := Option.map_eq_some_iff.mp h
        by_cases hne : ret = 0
        · rw [hret, hne]
        · rw [if_pos hne] at hzero
          exact absurd hzero (by decide)
      | err e =>
        rw [hp] at h
        have hzero : -eio = 0 := Option.some.inj h
        exact absurd hzero (by decide)
      | overrun =>
        rw [hp] at h
        cases h
      | running =>
        rw [hp] at h
        cases h
    · unfold gulLoadVspaImage at h
      dsimp only at h
      rw [if_pos (not_isVspa_iff.mp hmach)] at h
      exact absurd h (by decide)
  · rintro ⟨hmach, info, hinfo, hret⟩
    rw [gulLoadVspaImage_of_ok V dma size hmach hinfo]
    dsimp only
    rw [hret]
    rfl

/-- An image that is not accepted gives a negative value, or none. -/
theorem gulLoadVspaImage_ret {ret : ℤ} (h : (gulLoadVspaImage fuel V kcalloc dma F size).ret = some ret) :
    ret = 0 ∨ ret < 0 := by
  unfold gulLoadVspaImage at h
  dsimp only at h
  split_ifs at h with hmach
  · obtain rfl := Option.some.inj h
    exact Or.inr (by decide)
  cases hp : fwReadAndLoadSectionsInfo fuel F (fileHeader F) kcalloc with
  | ok info =>
    rw [hp] at h
    obtain ⟨ret', -, rfl⟩ := Option.map_eq_some_iff.mp h
    by_cases hne : ret' = 0
    · exact Or.inl (if_neg (not_not.mpr hne))
    · rw [if_pos hne]
      exact Or.inr (by decide)
  | err e =>
    rw [hp] at h
    obtain rfl := Option.some.inj h
    exact Or.inr (by decide)
  | overrun =>
    rw [hp] at h
    cases h
  | running =>
    rw [hp] at h
    cases h

end Image

end Vspa
end La12xx
