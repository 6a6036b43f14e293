/-
# What staging does to the image

Each piece of a section passes through the bounce buffer, which is the start
of the image. The pieces of one section do not disturb each other: all but the
first come from beyond `MAX_DMA_TRANSFER` (`dmaWriteLoop_spec`). What they
leave behind is the last piece over each offset (`staged`), and later rounds
of the loop read headers, names and sections through that. So the bytes sent
are those of the file exactly if, at every section, what is read there has the
same value as in the file (`transfer_faithful_iff`).
-/
import La12xx.Vspa.Load

namespace La12xx
namespace Vspa

open ByteMem

/-! ### The bytes of one section -/

/-- The image `m` after `n` bytes at `off`, as `src` has them, have gone through
the bounce buffer: every offset below the piece size holds the last byte that
was staged there. -/
def staged (m src : Mem) (off : ℤ) (n : ℕ) : Mem := fun p =>
  if 0 ≤ p ∧ p < min n maxDmaTransfer then
    src (off + maxDmaTransfer * ((n - 1 - p.toNat) / maxDmaTransfer : ℕ) + p)
  else m p

theorem land_dmaBcntMask {n : ℕ} (h : n ≤ maxDmaTransfer) : n &&& dmaBcntMask = n := by
  have : n < 2 ^ 17 := by unfold maxDmaTransfer at h; omega
  rw [show dmaBcntMask = 2 ^ 17 - 1 from rfl, Nat.and_two_pow_sub_one_eq_mod, Nat.mod_eq_of_lt this]

/-- The last piece. -/
theorem staged_of_le {n : ℕ} (m : Mem) (off : ℤ) (h : n ≤ maxDmaTransfer) :
    staged m m off n = move m 0 off n := by
  funext p
  unfold staged move copy
  rw [min_eq_left h]
  by_cases hp : 0 ≤ p ∧ p < n
  · have hz : (n - 1 - p.toNat) / maxDmaTransfer = 0 := Nat.div_eq_of_lt (by omega)
    rw [if_pos hp, if_pos (by omega), hz]
    congr 1
    push_cast
    ring
  · rw [if_neg hp, if_neg (by omega)]

/-- A full piece, and then the rest. -/
theorem staged_of_gt {n : ℕ} (m : Mem) {off : ℤ} (hoff : 0 ≤ off) (h : maxDmaTransfer < n) :
    staged m m off n =
      staged (move m 0 off maxDmaTransfer) (move m 0 off maxDmaTransfer) (off + maxDmaTransfer)
        (n - maxDmaTransfer) := by
  have hpos : 0 < maxDmaTransfer := by decide
  funext p
  unfold staged
  rw [min_eq_right h.le]
  by_cases hp : 0 ≤ p ∧ p < maxDmaTransfer
  · rw [if_pos hp]
    by_cases hq : p < min (n - maxDmaTransfer : ℕ) (maxDmaTransfer : ℕ)
    · -- another piece covers this offset; it comes from beyond the buffer
      rw [if_pos (by push_cast at hq ⊢; exact ⟨hp.1, hq⟩)]
      have hdiv : (n - 1 - p.toNat) / maxDmaTransfer =
          (n - maxDmaTransfer - 1 - p.toNat) / maxDmaTransfer + 1 := by
        rw [← Nat.add_div_right _ hpos]
        congr 1
        omega
      rw [hdiv, move_of_ge]
      · congr 1
        push_cast
        ring
      · have : (0 : ℤ) ≤ maxDmaTransfer * ((n - maxDmaTransfer - 1 - p.toNat) / maxDmaTransfer : ℕ) :=
          Int.mul_nonneg (Int.natCast_nonneg _) (Int.natCast_nonneg _)
        omega
    · -- this offset keeps the byte of the first piece
      rw [if_neg (by push_cast at hq ⊢; exact fun h' => hq h'.2)]
      have hz : (n - 1 - p.toNat) / maxDmaTransfer = 0 := Nat.div_eq_of_lt (by omega)
      rw [hz, move, copy, if_pos (by omega)]
      congr 1
      push_cast
      ring
  · rw [if_neg hp, if_neg (by omega), move, copy, if_neg (by omega)]

/-- Only the bytes of the section matter. -/
theorem staged_congr (m : Mem) {src src' : Mem} {off : ℤ} {n : ℕ} (h : Same src src' off n) :
    staged m src off n = staged m src' off n := by
  funext p
  unfold staged
  by_cases hp : 0 ≤ p ∧ p < min n maxDmaTransfer
  · rw [if_pos hp, if_pos hp]
    have hq : maxDmaTransfer * ((n - 1 - p.toNat) / maxDmaTransfer) ≤ n - 1 - p.toNat := Nat.mul_div_le _ _
    have hqz : (maxDmaTransfer : ℤ) * ((n - 1 - p.toNat) / maxDmaTransfer : ℕ) ≤ (n - 1 - p.toNat : ℕ) := by
      exact_mod_cast hq
    have hq0 : (0 : ℤ) ≤ maxDmaTransfer * ((n - 1 - p.toNat) / maxDmaTransfer : ℕ) :=
      Int.mul_nonneg (Int.natCast_nonneg _) (Int.natCast_nonneg _)
    exact h _ (by omega) (by omega)
  · rw [if_neg hp, if_neg hp]

/-- **One section.** If `vspa_fw_dma_write` succeeds, the blocks it handed over
are, one after the other, the bytes the section had before, and the image is
staged over. -/
theorem dmaWriteLoop_spec (dma : ℕ → DmaResp) : ∀ (fuel : ℕ) (m : Mem) (sent : ℕ) (linfo : DmaParam),
    0 ≤ linfo.phys → linfo.size < maxDmaTransfer * fuel →
    let r := dmaWriteLoop dma fuel m sent linfo
    r.ret < 0 ∨ (r.ret = 0 ∧ (r.transfers.flatMap Transfer.block) = bytes m linfo.phys linfo.size ∧
      r.mem = staged m m linfo.phys linfo.size)
  | 0, m, sent, linfo, _, hfuel => by omega
  | fuel + 1, m, sent, ⟨ctrl, offset, phys, size⟩, hphys, hfuel => by
    intro r
    dsimp only at hphys hfuel ⊢
    by_cases haddr : (offset &&& pramAddrMask).toNat ≥ vspaDramSize
    · left
      simp only [r, dmaWriteLoop, if_pos haddr]
      decide
    by_cases hrc : dmaRawTransmit (dma sent) < 0
    · left
      simp only [r, dmaWriteLoop, if_neg haddr, if_pos hrc]
      decide
    by_cases hsize : size > maxDmaTransfer
    · -- a full piece; the rest of the section is beyond the buffer
      have hcnt : maxDmaTransfer &&& dmaBcntMask = maxDmaTransfer := land_dmaBcntMask le_rfl
      have hne : size - maxDmaTransfer ≠ 0 := by omega
      have ih := dmaWriteLoop_spec dma fuel (move m 0 phys maxDmaTransfer) (sent + 1)
        ⟨ctrl, offset + BitVec.ofNat 32 maxDmaTransfer, phys + maxDmaTransfer, size - maxDmaTransfer⟩
        (by dsimp only; omega) (by dsimp only; rw [Nat.mul_succ] at hfuel; omega)
      dsimp only at ih
      simp only [r, dmaWriteLoop, if_pos hsize, if_neg haddr, if_neg hrc, if_pos hne]
      rw [hcnt]
      obtain hlt | ⟨hret, hblock, hmem⟩ := ih
      · exact Or.inl hlt
      refine Or.inr ⟨hret, ?_, ?_⟩
      · rw [List.flatMap_cons, hblock, bytes_move, bytes_move_of_ge _ _ (by omega), ← bytes_add]
        rw [Nat.add_sub_cancel' hsize.le]
      · rw [hmem, staged_of_gt m hphys hsize]
    · -- the last piece
      have hle : size ≤ maxDmaTransfer := Nat.le_of_not_gt hsize
      have hz : ¬ (size - size ≠ 0) := by omega
      simp only [r, dmaWriteLoop, if_neg hsize, if_neg haddr, if_neg hrc, if_neg hz]
      rw [land_dmaBcntMask hle]
      refine Or.inr ⟨trivial, ?_, ?_⟩
      · rw [List.flatMap_singleton, bytes_move]
      · rw [staged_of_le m phys hle]

theorem vspaFwDmaWrite_spec (dma : ℕ → DmaResp) (m : Mem) (sent : ℕ) (linfo : DmaParam) (h : 0 ≤ linfo.phys)
    (hret : ¬ (vspaFwDmaWrite dma m sent linfo).ret < 0) :
    (vspaFwDmaWrite dma m sent linfo).ret = 0 ∧
      (vspaFwDmaWrite dma m sent linfo).transfers.flatMap Transfer.block = bytes m linfo.phys linfo.size ∧
      (vspaFwDmaWrite dma m sent linfo).mem = staged m m linfo.phys linfo.size := by
  have hfuel : linfo.size < maxDmaTransfer * (linfo.size / maxDmaTransfer + 1) :=
    Nat.lt_mul_div_succ _ (by decide)
  exact (dmaWriteLoop_spec dma _ m sent linfo h hfuel).resolve_left hret

/-! ### One round of the loop -/

section Image

variable (V : VspaDev) (info : VspaSecInfo) (dma : ℕ → DmaResp) (shoff : BitVec 32) (str : ℤ) (fwSize : ℕ)

/-- Where a section lies and how many of its bytes are sent, if it is sent. -/
def sendRange (secNum : ℕ) (hdr : SectionHeader) (name : List Byte) : Option (ℤ × ℕ) :=
  let sectionSize := align hdr.secSize V.axiAlign
  if isSelected info secNum name ∧ sectionSize ≠ 0 ∧
      getVspaSectionTransMode info (isVspaSectionValid info secNum) ≠ noLoad then
    some (hdr.secOffset.toNat, sectionSize.toNat)
  else none

theorem sendRange_of_sent {secNum : ℕ} {hdr : SectionHeader} {name : List Byte}
    (hsel : isSelected info secNum name = true) (hsize : align hdr.secSize V.axiAlign ≠ 0)
    (hmode : getVspaSectionTransMode info (isVspaSectionValid info secNum) ≠ noLoad) :
    sendRange V info secNum hdr name =
      some ((hdr.secOffset.toNat : ℤ), (align hdr.secSize V.axiAlign).toNat) := by
  unfold sendRange
  exact if_pos ⟨hsel, hsize, hmode⟩

/-- What a round that goes on has done: the section is read from the memory as
it is, and a section that is sent is sent from there and staged over it. -/
theorem loadSection_go {st st' : LoadState} {secNum : ℕ} {v : Visit}
    (h : loadSection V info dma shoff str fwSize st secNum = (v, st', .go)) :
    v.secNum = secNum ∧ (v.hdr, v.name) = readSection st.mem shoff str secNum ∧
      ((sendRange V info secNum v.hdr v.name = none ∧ st'.mem = st.mem ∧ v.action.transfers = none) ∨
        ∃ ts,
          sendRange V info secNum v.hdr v.name =
            some ((v.hdr.secOffset.toNat : ℤ), (align v.hdr.secSize V.axiAlign).toNat) ∧
          st'.mem = staged st.mem st.mem v.hdr.secOffset.toNat (align v.hdr.secSize V.axiAlign).toNat ∧
          v.action.transfers = some ts ∧
          ts.flatMap Transfer.block =
            bytes st.mem v.hdr.secOffset.toNat (align v.hdr.secSize V.axiAlign).toNat) := by
  obtain ⟨hdr, name, action, rfl, hread, ⟨hsel, hout⟩ | ⟨hsel, hov⟩⟩ :=
    loadSection_cases V info dma shoff str fwSize h
  · refine ⟨rfl, hread.symm, ?_⟩
    cases hout with
    | empty hsize =>
      refine Or.inl ⟨?_, rfl, rfl⟩
      unfold sendRange
      exact if_neg fun hs => hs.2.1 hsize
    | noTransMode hsize hbig hvma hmode =>
      refine Or.inl ⟨?_, rfl, rfl⟩
      unfold sendRange
      exact if_neg fun hs => hs.2.2 hmode
    | sent hsize hbig hvma hmode r hr hret =>
      obtain ⟨-, hblock, hmem⟩ := vspaFwDmaWrite_spec dma st.mem st.sent ⟨_, _, _, _⟩
        (Int.natCast_nonneg _) (hr ▸ hret)
      refine Or.inr ⟨r.transfers, sendRange_of_sent V info hsel hsize hmode, ?_, rfl, ?_⟩
      · rw [hr]
        exact hmem
      · rw [hr]
        exact hblock
  · obtain ⟨haction, hafter, -⟩ := overlaySection_outcome V st hdr
    rw [hov] at haction hafter
    obtain rfl : st' = _ := hafter
    refine ⟨rfl, hread.symm, Or.inl ⟨?_, rfl, haction⟩⟩
    unfold sendRange
    exact if_neg fun hs => hsel hs.1

/-! ### The whole image -/

/-- Where section `secNum` of the file `F` lies, if it is sent. -/
def fileRange (F : Mem) (secNum : ℕ) : Option (ℤ × ℕ) :=
  sendRange V info secNum (readSection F shoff str secNum).1 (readSection F shoff str secNum).2

/-- The file with the sections before `secNum` staged over it: an offset holds
the byte that the last of them leaves there. -/
def stagedBefore (F : Mem) : ℕ → Mem
  | 0 => F
  | secNum + 1 =>
    match fileRange V info shoff str F secNum with
    | some r => staged (stagedBefore F secNum) F r.1 r.2
    | none => stagedBefore F secNum

/-- What is read of section `secNum` has the value it has in the file: the
header, the name and, if the section is sent, its bytes. -/
def Kept (m F : Mem) (secNum : ℕ) : Prop :=
  readSection m shoff str secNum = readSection F shoff str secNum ∧
    ∀ r ∈ fileRange V info shoff str F secNum, Same m F r.1 r.2

/-- A visit that consulted the header and the name the file has, and sent the
bytes the file has. -/
def Visit.Faithful (F : Mem) (v : Visit) : Prop :=
  (v.hdr, v.name) = readSection F shoff str v.secNum ∧
    ∀ ts ∈ v.action.transfers,
      ts.flatMap Transfer.block = bytes F v.hdr.secOffset.toNat (align v.hdr.secSize V.axiAlign).toNat

/-- One round is faithful exactly if the section is kept. -/
theorem faithful_iff_kept (F : Mem) {st st' : LoadState} {secNum : ℕ} {v : Visit}
    (h : loadSection V info dma shoff str fwSize st secNum = (v, st', .go)) :
    Visit.Faithful V shoff str F v ↔ Kept V info shoff str st.mem F secNum := by
  obtain ⟨hnum, hread, hsend⟩ := loadSection_go V info dma shoff str fwSize h
  unfold Visit.Faithful Kept
  rw [hnum, hread]
  refine and_congr_right fun hsame => ?_
  have hrange : fileRange V info shoff str F secNum = sendRange V info secNum v.hdr v.name := by
    rw [fileRange, ← hsame, ← hread]
  rw [hrange]
  rcases hsend with ⟨hnone, -, haction⟩ | ⟨ts, hsome, -, haction, hblock⟩
  · rw [hnone, haction]
    exact iff_of_true (fun ts hts => absurd hts (Option.not_mem_none ts)) fun r hr =>
      absurd hr (Option.not_mem_none r)
  · constructor
    · intro hsent r hr
      obtain rfl := Option.some.inj (hsome.symm.trans hr)
      rw [← bytes_eq_iff, ← hblock]
      exact hsent ts haction
    · intro hkept ts' hts
      obtain rfl := Option.some.inj (haction.symm.trans hts)
      rw [hblock, bytes_eq_iff]
      exact hkept _ hsome

/-- A round over a kept section leaves what staging the file's own bytes leaves. -/
theorem mem_of_kept {F : Mem} {st st' : LoadState} {secNum : ℕ} {v : Visit}
    (h : loadSection V info dma shoff str fwSize st secNum = (v, st', .go))
    (hmem : st.mem = stagedBefore V info shoff str F secNum) (hkept : Kept V info shoff str st.mem F secNum) :
    st'.mem = stagedBefore V info shoff str F (secNum + 1) := by
  obtain ⟨-, hread, hsend⟩ := loadSection_go V info dma shoff str fwSize h
  have hrange : fileRange V info shoff str F secNum = sendRange V info secNum v.hdr v.name := by
    rw [fileRange, ← hkept.1, ← hread]
  rw [stagedBefore, hrange, ← hmem]
  rcases hsend with ⟨hnone, hst, -⟩ | ⟨ts, hsome, hst, -, -⟩
  · rw [hnone, hst]
  · rw [hsome, hst]
    exact staged_congr _ (hkept.2 _ (hrange.trans hsome))

/-- All rounds of a load that succeeds. -/
theorem loadLoop_faithful_iff (F : Mem) : ∀ (k secNum : ℕ) (st : LoadState),
    st.mem = stagedBefore V info shoff str F secNum →
    (loadLoop V info dma shoff str fwSize k secNum st).ret = some 0 →
    ((∀ v ∈ (loadLoop V info dma shoff str fwSize k secNum st).visits, Visit.Faithful V shoff str F v) ↔
      ∀ i, secNum ≤ i → i < secNum + k → Kept V info shoff str (stagedBefore V info shoff str F i) F i)
  | 0, secNum, st, _, _ => by
    refine iff_of_true (fun v hv => absurd hv List.not_mem_nil) fun i hi hi' => ?_
    omega
  | k + 1, secNum, st, hmem, hret => by
    obtain ⟨v, st', hround, hrest, hvisits⟩ := loadLoop_succ_of_ok hret
    have hhead := faithful_iff_kept V info dma shoff str fwSize F hround
    rw [hvisits, List.forall_mem_cons, hhead]
    constructor
    · rintro ⟨hkept, htail⟩ i hi hi'
      have hst := mem_of_kept V info dma shoff str fwSize hround hmem hkept
      rcases hi.eq_or_lt with rfl | hlt
      · rw [← hmem]
        exact hkept
      · exact (loadLoop_faithful_iff F k (secNum + 1) st' hst hrest).mp htail i hlt (by omega)
    · intro hall
      have hkept : Kept V info shoff str st.mem F secNum := by
        rw [hmem]
        exact hall secNum le_rfl (by omega)
      have hst := mem_of_kept V info dma shoff str fwSize hround hmem hkept
      exact ⟨hkept, (loadLoop_faithful_iff F k (secNum + 1) st' hst hrest).mpr
        fun i hi hi' => hall i (by omega) (by omega)⟩

instance (m F : Mem) (secNum : ℕ) : Decidable (Kept V info shoff str m F secNum) :=
  have : ∀ r : ℤ × ℕ, Decidable (Same m F r.1 r.2) := fun _ => decidable_of_iff _ bytes_eq_iff
  inferInstanceAs (Decidable (_ ∧ _))

instance (F : Mem) (v : Visit) : Decidable (Visit.Faithful V shoff str F v) :=
  inferInstanceAs (Decidable (_ ∧ _))

end Image

section Transfer

variable (fuel : ℕ) (V : VspaDev) (kcalloc : Bool) (dma : ℕ → DmaResp) (F : Mem) (size : ℕ)

/-- Every section that is loaded is sent as the file has it, and the headers
and names that are consulted are those of the file. -/
def TransferFaithful : Prop :=
  ∀ r ∈ (gulLoadVspaImage fuel V kcalloc dma F size).load, ∀ v ∈ r.visits,
    Visit.Faithful V (fileHeader F).fhShoff (stringTable F (fileHeader F)) F v

/-- No section is disturbed by those staged before it: in the file staged over
by the earlier sections, what the loop reads of a section has its file value. -/
def Undisturbed : Prop :=
  let hd := fileHeader F
  ∀ info ∈ (fwReadAndLoadSectionsInfo fuel F hd kcalloc).info, ∀ secNum < hd.fhShnum.toNat,
    Kept V info hd.fhShoff (stringTable F hd)
      (stagedBefore V info hd.fhShoff (stringTable F hd) F secNum) F secNum

instance : Decidable (TransferFaithful fuel V kcalloc dma F size) :=
  Option.decidableForallMem _

instance : Decidable (Undisturbed fuel V kcalloc F) :=
  Option.decidableForallMem _

/-- **Fidelity.** Of an accepted image exactly what the file holds reaches the
core, and headers and names are read as they are in the file, if and only if no
section is disturbed by those staged before it. -/
theorem transfer_faithful_iff (h : (gulLoadVspaImage fuel V kcalloc dma F size).ret = some 0) :
    TransferFaithful fuel V kcalloc dma F size ↔ Undisturbed fuel V kcalloc F := by
  obtain ⟨hmach, info, hinfo, hret⟩ := accepted_iff.mp h
  have hload := load_of_ok V dma size hmach hinfo
  have hloop := loadLoop_faithful_iff V info dma (fileHeader F).fhShoff (stringTable F (fileHeader F)) size F
    (fileHeader F).fhShnum.toNat 0 ⟨F, 0, none⟩ rfl hret
  unfold TransferFaithful Undisturbed
  dsimp only
  rw [hload, hinfo]
  constructor
  · rintro hall info' ⟨⟩ secNum hlt
    exact hloop.mp (hall _ rfl) secNum (Nat.zero_le _) (by omega)
  · rintro hall r ⟨⟩
    exact hloop.mpr fun i _ hi => hall info rfl i (by omega)

end Transfer

/-! ### Two images -/

/-- A section header of 40 bytes. -/
def headerBytes (name addr offset size : BitVec 32) : List Byte :=
  le32 name ++ List.replicate 8 0 ++ le32 addr ++ le32 offset ++ le32 size ++ List.replicate 16 0

/-- An image with a section of four bytes at offset 52 and one of 64 bytes at
offset 64, both for the data memory; `headers` are their two headers. -/
def twoSections (headers : List Byte) : Mem := ofList <|
  List.replicate 18 0 ++ le16 gccMachCode ++ List.replicate 12 0 ++ le32 208 ++ List.replicate 12 0 ++
    le16 4 ++ le16 3 ++
  -- 52: the small section, and 64: the large one
  [1, 2, 3, 4] ++ List.replicate 8 0 ++ List.replicate 64 0xEE ++
  -- 128: `.mw_info`, which puts sections 0 and 1 into memory space 0, named `dram`
  [41, 0, 0, 0, 14] ++ List.replicate 20 0 ++ ascii ['d', 'r', 'a', 'm'] ++ List.replicate 12 0 ++
  [13, 0, 0, 0, 15] ++ le32 0 ++ le32 0 ++ [13, 0, 0, 0, 15] ++ le32 1 ++ le32 0 ++ [0] ++
  -- 196: the names
  [0] ++ ascii ['.', 'm', 'w', '_', 'i', 'n', 'f', 'o'] ++ [0, 0, 0] ++
  -- 208: the section headers
  headers ++ headerBytes 1 0 128 67 ++ headerBytes 0 0 196 10

/-- The large section comes first. -/
def largeFirst : Mem := twoSections (headerBytes 0 0 64 64 ++ headerBytes 0 64 52 4)

/-- The small section comes first. -/
def smallFirst : Mem := twoSections (headerBytes 0 0 52 4 ++ headerBytes 0 64 64 64)

/-- An engine that completes every request at once. -/
def promptDma : ℕ → DmaResp := fun _ => ⟨fun _ => 1, 0, 0⟩

/-- The large section is staged over the small one, and the core gets bytes of
the large one in its place. -/
theorem transfer_disturbed :
    (gulLoadVspaImage 4 ⟨0, 0⟩ true promptDma largeFirst 368).ret = some 0 ∧
      ¬ TransferFaithful 4 ⟨0, 0⟩ true promptDma largeFirst 368 := by
  decide +kernel

/-- In the other order both sections arrive. -/
theorem transfer_faithful_in_order :
    (gulLoadVspaImage 4 ⟨0, 0⟩ true promptDma smallFirst 368).ret = some 0 ∧
      TransferFaithful 4 ⟨0, 0⟩ true promptDma smallFirst 368 := by
  have hret : (gulLoadVspaImage 4 ⟨0, 0⟩ true promptDma smallFirst 368).ret = some 0 := by decide +kernel
  have hkept : Undisturbed 4 ⟨0, 0⟩ true smallFirst := by decide +kernel
  exact ⟨hret, (transfer_faithful_iff 4 ⟨0, 0⟩ true promptDma smallFirst 368 hret).mpr hkept⟩

end Vspa
end La12xx
