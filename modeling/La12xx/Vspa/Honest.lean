/-
# What success of a load means

A load is honest if success means that every section its record selects for
loading has reached the core: requests for all of its bytes in the mode of the
memory space of the record, each completed and without an error. The driver reads
the error words of the engine and drops them, counts a section of an unknown
memory space as failed and goes on, takes a section whose aligned size wraps to
zero for an empty one, and looks records and memory spaces up in eight bits.
`complete_iff_loudOrSound` says when none of this matters.
-/
import La12xx.Vspa.Memspaces
import La12xx.Vspa.Staging

namespace La12xx
namespace Vspa

open ByteMem

/-! ### The requests of one section -/

/-- The number of requests for a section of `n` bytes. -/
def pieces (n : ℕ) : ℕ := (n - 1) / maxDmaTransfer + 1

/-- Where request `i` for a section at `addr` goes. -/
def pieceAddr (addr : BitVec 32) (i : ℕ) : BitVec 32 :=
  (addr + BitVec.ofNat 32 (maxDmaTransfer * i)) &&& pramAddrMask

/-- Request `i` is not made, because its address is out of range, or it does
not complete. `sent` requests were made before those of this section. -/
def Refused (dma : ℕ → DmaResp) (addr : BitVec 32) (sent i : ℕ) : Prop :=
  vspaDramSize ≤ (pieceAddr addr i).toNat ∨ dmaRawTransmit (dma (sent + i)) < 0

instance (dma : ℕ → DmaResp) (addr : BitVec 32) (sent i : ℕ) : Decidable (Refused dma addr sent i) :=
  inferInstanceAs (Decidable (_ ∨ _))

/-- The requests carry `n` bytes to `addr` and on, in the mode `ctrl`. -/
def Covers (ctrl : BitVec 32) : BitVec 32 → ℕ → List Transfer → Prop
  | _, n, [] => n = 0
  | addr, n, t :: ts =>
    (t.xfrCtrl = ctrl ∧ t.dmemAddr = addr &&& pramAddrMask ∧ t.byteCnt = t.block.length ∧ t.byteCnt ≤ n) ∧
      Covers ctrl (addr + BitVec.ofNat 32 t.byteCnt) (n - t.byteCnt) ts

instance decidableCovers (ctrl : BitVec 32) : ∀ addr n ts, Decidable (Covers ctrl addr n ts)
  | _, n, [] => inferInstanceAs (Decidable (n = 0))
  | addr, n, t :: ts =>
    have := decidableCovers ctrl (addr + BitVec.ofNat 32 t.byteCnt) (n - t.byteCnt) ts
    inferInstanceAs (Decidable ((_ ∧ _ ∧ _ ∧ _) ∧ _))

instance (t : Transfer) : Decidable t.Clean := inferInstanceAs (Decidable (_ ∧ _ ∧ _))

theorem pieces_of_le {n : ℕ} (h : n ≤ maxDmaTransfer) : pieces n = 1 := by
  have hpos : 0 < maxDmaTransfer := by decide
  unfold pieces
  rw [Nat.div_eq_of_lt (by omega)]

theorem pieces_of_gt {n : ℕ} (h : maxDmaTransfer < n) : pieces n = pieces (n - maxDmaTransfer) + 1 := by
  have hpos : 0 < maxDmaTransfer := by decide
  have hsub : n - 1 = n - maxDmaTransfer - 1 + maxDmaTransfer := by omega
  unfold pieces
  rw [hsub, Nat.add_div_right _ hpos]

theorem dmaRawTransmit_eq_zero {resp : DmaResp} (h : ¬ dmaRawTransmit resp < 0) : dmaRawTransmit resp = 0 := by
  unfold dmaRawTransmit at h ⊢
  by_cases hpoll : pollLoop resp.compStat vspaDmaMaxCounter 0 = true
  · rw [if_pos hpoll]
  · rw [if_neg hpoll] at h
    exact absurd (by decide) h

theorem pieceAddr_zero (addr : BitVec 32) : pieceAddr addr 0 = addr &&& pramAddrMask := by
  unfold pieceAddr
  rw [Nat.mul_zero, BitVec.add_zero]

/-- The requests after the first are those of the rest of the section. -/
theorem refused_succ (dma : ℕ → DmaResp) (addr : BitVec 32) (sent i : ℕ) :
    Refused dma addr sent (i + 1) ↔ Refused dma (addr + BitVec.ofNat 32 maxDmaTransfer) (sent + 1) i := by
  have haddr : pieceAddr addr (i + 1) = pieceAddr (addr + BitVec.ofNat 32 maxDmaTransfer) i := by
    unfold pieceAddr
    rw [Nat.mul_succ, Nat.add_comm, BitVec.ofNat_add, BitVec.add_assoc]
  unfold Refused
  rw [haddr, Nat.add_right_comm, Nat.add_assoc sent i 1]

/-- **The requests of a section.** `vspa_fw_dma_write` fails exactly if one of
the section's requests is refused; otherwise it has made all of them. -/
theorem dmaWriteLoop_requests (dma : ℕ → DmaResp) : ∀ (fuel : ℕ) (m : Mem) (sent : ℕ) (linfo : DmaParam),
    linfo.size < maxDmaTransfer * fuel →
    let r := dmaWriteLoop dma fuel m sent linfo
    (r.ret < 0 ∧ ∃ i < pieces linfo.size, Refused dma linfo.offset sent i) ∨
      (r.ret = 0 ∧ r.sent = sent + pieces linfo.size ∧ (∀ i < pieces linfo.size, ¬ Refused dma linfo.offset sent i) ∧
        Covers linfo.xfrCtrl linfo.offset linfo.size r.transfers ∧
        r.transfers.map Transfer.resp = (List.range (pieces linfo.size)).map fun i => dma (sent + i))
  | 0, m, sent, linfo, hfuel => by omega
  | fuel + 1, m, sent, ⟨ctrl, offset, phys, size⟩, hfuel => by
    intro r
    dsimp only at hfuel ⊢
    by_cases haddr : (offset &&& pramAddrMask).toNat ≥ vspaDramSize
    · left
      simp only [r, dmaWriteLoop, if_pos haddr]
      refine ⟨by decide, 0, Nat.succ_pos _, Or.inl ?_⟩
      rw [pieceAddr_zero]
      exact haddr
    by_cases hrc : dmaRawTransmit (dma sent) < 0
    · left
      simp only [r, dmaWriteLoop, if_neg haddr, if_pos hrc]
      exact ⟨by decide, 0, Nat.succ_pos _, Or.inr hrc⟩
    have hfirst : ¬ Refused dma offset sent 0 := by
      unfold Refused
      rw [pieceAddr_zero]
      exact not_or.mpr ⟨haddr, hrc⟩
    by_cases hsize : size > maxDmaTransfer
    · have hcnt : maxDmaTransfer &&& dmaBcntMask = maxDmaTransfer := land_dmaBcntMask le_rfl
      have hne : size - maxDmaTransfer ≠ 0 := by omega
      have ih := dmaWriteLoop_requests dma fuel (move m 0 phys maxDmaTransfer) (sent + 1)
        ⟨ctrl, offset + BitVec.ofNat 32 maxDmaTransfer, phys + maxDmaTransfer, size - maxDmaTransfer⟩
        (by dsimp only; rw [Nat.mul_succ] at hfuel; omega)
      dsimp only at ih
      simp only [r, dmaWriteLoop, if_pos hsize, if_neg haddr, if_neg hrc, if_pos hne]
      rw [hcnt, pieces_of_gt hsize]
      obtain ⟨hlt, i, hi, href⟩ | ⟨hret, hsent, hall, hcov, hresp⟩ := ih
      · exact Or.inl ⟨hlt, i + 1, Nat.succ_lt_succ hi, (refused_succ dma offset sent i).mpr href⟩
      refine Or.inr ⟨hret, ?_, ?_, ?_, ?_⟩
      · rw [hsent]
        ring
      · rw [Nat.forall_lt_succ_left]
        exact ⟨hfirst, fun i hi href => hall i hi ((refused_succ dma offset sent i).mp href)⟩
      · exact ⟨⟨rfl, rfl, (length_bytes _ _ _).symm, hsize.le⟩, hcov⟩
      · rw [List.map_cons, hresp, List.range_succ_eq_map, List.map_cons, List.map_map, Nat.add_zero]
        congr 2
        funext i
        rw [Function.comp_apply, Nat.add_right_comm, Nat.add_assoc]
    · have hle : size ≤ maxDmaTransfer := Nat.le_of_not_gt hsize
      have hz : ¬ (size - size ≠ 0) := by omega
      simp only [r, dmaWriteLoop, if_neg hsize, if_neg haddr, if_neg hrc, if_neg hz]
      rw [land_dmaBcntMask hle, pieces_of_le hle]
      refine Or.inr ⟨trivial, rfl, ?_, ?_, rfl⟩
      · intro i hi
        obtain rfl : i = 0 := by omega
        exact hfirst
      · exact ⟨⟨rfl, rfl, (length_bytes _ _ _).symm, le_rfl⟩, Nat.sub_self _⟩

/-- The same requests in two modes. -/
theorem Covers.ctrl_eq {ctrl ctrl' : BitVec 32} {addr addr' : BitVec 32} {n n' : ℕ} {ts : List Transfer}
    (h : Covers ctrl addr n ts) (h' : Covers ctrl' addr' n' ts) (hn : n ≠ 0) : ctrl = ctrl' := by
  cases ts with
  | nil => exact absurd h hn
  | cons t ts => exact h.1.1.symm.trans h'.1.1

/-! ### The record of a section -/

/-- The memory space in the first record that names section `secNum`. -/
def memspaceRecord (info : VspaSecInfo) (secNum : ℕ) : Option (BitVec 32) :=
  ((List.range info.vspaSecCount).find? fun i : ℕ =>
    decide (u32 info.sectionMemspaceMap (8 * i) = BitVec.ofNat 32 secNum)).map
      fun i : ℕ => u32 info.sectionMemspaceMap (8 * i + 4)

/-- The transfer mode of the first memory space with the number of that record. -/
def recordMode (info : VspaSecInfo) (secNum : ℕ) : BitVec 32 :=
  (memspaceRecord info secNum).elim noLoad fun memspaceId =>
    ((List.range info.vspaMemspaceCount).find? fun i : ℕ => decide (u32 info.memspaceMap (36 * i) = memspaceId)).elim
      noLoad fun i : ℕ => compareNames (bytes info.memspaceMap (36 * i + 20) 16)

/-- In tables that hold the records of an image this is the mode they resolve to. -/
theorem Tables.recordMode_eq {info : VspaSecInfo} {rs : List MwRecord}
    (h : Tables info (memspaces rs) (sectionMaps rs)) (secNum : ℕ) :
    recordMode info secNum = (resolve rs secNum).getD noLoad := by
  have hmap : ∀ {α β : Type} (f : α → β) (o : Option α), o.map f = o.elim none fun a => some (f a) := by
    intro α β f o
    cases o <;> rfl
  have hrecord : memspaceRecord info secNum =
      ((sectionMaps rs).find? fun e => e.1 = BitVec.ofNat 32 secNum).map Prod.snd := by
    have hsearch := elim_find?_range (d := none) (f := fun e : BitVec 32 × BitVec 32 => some e.2)
      (q := fun e => decide (e.1 = BitVec.ofNat 32 secNum)) (l := sectionMaps rs)
      (p := fun i => decide (u32 info.sectionMemspaceMap (8 * i) = BitVec.ofNat 32 secNum))
      (g := fun i => some (u32 info.sectionMemspaceMap (8 * i + 4))) fun i e he => by
        obtain ⟨hsec, hspace⟩ := h.sec i e he
        push_cast at hsec hspace
        exact ⟨by rw [hsec], by rw [hspace]⟩
    rw [← h.secCount] at hsearch
    rw [memspaceRecord, hmap, hsearch, hmap]
  have hmode : ∀ memspaceId : BitVec 32,
      ((List.range info.vspaMemspaceCount).find? fun i : ℕ => decide (u32 info.memspaceMap (36 * i) = memspaceId)).elim
        noLoad (fun i : ℕ => compareNames (bytes info.memspaceMap (36 * i + 20) 16)) =
      memspaceMode (memspaces rs) memspaceId := by
    intro memspaceId
    have hsearch := elim_find?_range (d := noLoad) (f := fun e : BitVec 32 × List Byte => transModeOf e.2)
      (q := fun e => decide (e.1 = memspaceId)) (l := memspaces rs)
      (p := fun i => decide (u32 info.memspaceMap (36 * i) = memspaceId))
      (g := fun i => compareNames (bytes info.memspaceMap (36 * i + 20) 16)) fun i e he => by
        obtain ⟨hspace, hname⟩ := h.space i e he
        push_cast at hspace hname
        exact ⟨by rw [hspace], by rw [hname, compareNames_padName]⟩
    rw [h.memspaceCount]
    exact hsearch
  unfold recordMode resolve
  rw [hrecord]
  cases (sectionMaps rs).find? fun e => e.1 = BitVec.ofNat 32 secNum with
  | none => rfl
  | some e => exact hmode e.2

/-! ### One section -/

section Load

variable (V : VspaDev) (info : VspaSecInfo) (dma : ℕ → DmaResp) (shoff : BitVec 32) (str : ℤ) (fwSize : ℕ)

/-- The load ends at this section: with an error, or at a null pointer. -/
def Loud (st : LoadState) (secNum : ℕ) : Prop :=
  let hdr := (readSection st.mem shoff str secNum).1
  let sectionSize := align hdr.secSize V.axiAlign
  if isSelected info secNum (readSection st.mem shoff str secNum).2 then
    sectionSize ≠ 0 ∧
      (sectionSize.toNat > fwSize ∨ hdr.secAddr &&& (V.axiAlign - 1) ≠ 0 ∨
        (getVspaSectionTransMode info (isVspaSectionValid info secNum) ≠ noLoad ∧
          ∃ i < pieces sectionSize.toNat, Refused dma hdr.secAddr st.sent i))
  else
    hdr.secInfo = 0 ∧ hdr.secAddr &&& gulFecaBaseAddr = gulFecaBaseAddr ∧ st.sectionPtr = none ∧ sectionSize ≠ 0

/-- The headers give a section the same place in the image and in the core. -/
def SectionHeader.SamePlace (hdr hdr' : SectionHeader) : Prop :=
  hdr.secAddr = hdr'.secAddr ∧ hdr.secOffset = hdr'.secOffset ∧ hdr.secSize = hdr'.secSize

/-- Nothing is in the way of the section whose header in the file is `hdrF`:
it is still selected and in its place when its turn comes, its aligned size
does not wrap, its memory space is known and found in the mode its record gives,
and the engine reports no error. -/
def Sound (hdrF : SectionHeader) (st : LoadState) (secNum : ℕ) : Prop :=
  isSelected info secNum (readSection st.mem shoff str secNum).2 = true ∧
    (readSection st.mem shoff str secNum).1.SamePlace hdrF ∧ align hdrF.secSize V.axiAlign ≠ 0 ∧
    getVspaSectionTransMode info (isVspaSectionValid info secNum) ≠ noLoad ∧
    getVspaSectionTransMode info (isVspaSectionValid info secNum) = recordMode info secNum ∧
    ∀ i < pieces (align hdrF.secSize V.axiAlign).toNat,
      (dma (st.sent + i)).xfrErr = 0 ∧ (dma (st.sent + i)).cfgErr = 0

/-- The visit carries the whole section to the core, in the mode of its record and
without an error. -/
def Visit.Loads (hdrF : SectionHeader) (v : Visit) : Prop :=
  v.hdr.SamePlace hdrF ∧ hdrF.secSize.toNat ≤ (align hdrF.secSize V.axiAlign).toNat ∧
    ∃ ts ∈ v.action.transfers,
      Covers (recordMode info v.secNum) hdrF.secAddr (align hdrF.secSize V.axiAlign).toNat ts ∧ ∀ t ∈ ts, t.Clean

instance (hdr hdr' : SectionHeader) : Decidable (hdr.SamePlace hdr') := inferInstanceAs (Decidable (_ ∧ _ ∧ _))

instance (hdrF : SectionHeader) (v : Visit) : Decidable (v.Loads V info hdrF) :=
  inferInstanceAs (Decidable (_ ∧ _ ∧ _))

theorem sectionWrite_requests (st : LoadState) (secNum : ℕ) (hdr : SectionHeader) :
    let r := sectionWrite V info dma st secNum hdr
    let n := (align hdr.secSize V.axiAlign).toNat
    (r.ret < 0 ∧ ∃ i < pieces n, Refused dma hdr.secAddr st.sent i) ∨
      (r.ret = 0 ∧ r.sent = st.sent + pieces n ∧ (∀ i < pieces n, ¬ Refused dma hdr.secAddr st.sent i) ∧
        Covers (getVspaSectionTransMode info (isVspaSectionValid info secNum)) hdr.secAddr n r.transfers ∧
        r.transfers.map Transfer.resp = (List.range (pieces n)).map fun i => dma (st.sent + i)) :=
  dmaWriteLoop_requests dma _ st.mem st.sent ⟨_, _, _, _⟩ (Nat.lt_mul_div_succ _ (by decide))

/-- Requests that all completed are clean exactly if the engine reports no error. -/
theorem clean_iff {addr : BitVec 32} {sent n : ℕ} {ts : List Transfer}
    (hresp : ts.map Transfer.resp = (List.range n).map fun i => dma (sent + i))
    (hall : ∀ i < n, ¬ Refused dma addr sent i) :
    (∀ t ∈ ts, t.Clean) ↔ ∀ i < n, (dma (sent + i)).xfrErr = 0 ∧ (dma (sent + i)).cfgErr = 0 := by
  have hmap : (∀ t ∈ ts, t.Clean) ↔
      ∀ x ∈ ts.map Transfer.resp, dmaRawTransmit x = 0 ∧ x.xfrErr = 0 ∧ x.cfgErr = 0 := by
    rw [List.forall_mem_map]
    rfl
  rw [hmap, hresp, List.forall_mem_map]
  constructor
  · intro h i hi
    exact (h i (List.mem_range.mpr hi)).2
  · intro h i hi
    have hi' := List.mem_range.mp hi
    exact ⟨dmaRawTransmit_eq_zero fun hlt => hall i hi' (Or.inr hlt), h i hi'⟩

/-- A round ends the load exactly if the section is loud. -/
theorem next_eq_go_iff {st st' : LoadState} {secNum : ℕ} {v : Visit} {next : Next}
    (h : loadSection V info dma shoff str fwSize st secNum = (v, st', next)) :
    next = .go ↔ ¬ Loud V info dma shoff str fwSize st secNum := by
  obtain ⟨hdr, name, action, -, hread, ⟨hsel, hout⟩ | ⟨hsel, hov⟩⟩ :=
    loadSection_cases V info dma shoff str fwSize h
  · have hreq := sectionWrite_requests V info dma st secNum hdr
    unfold Loud
    rw [hread, if_pos hsel]
    dsimp only
    cases hout with
    | empty hsize => exact iff_of_true rfl fun h => h.1 hsize
    | tooBig hsize hbig => exact iff_of_false Next.noConfusion fun h => h ⟨hsize, Or.inl hbig⟩
    | unaligned hsize hbig hvma =>
      exact iff_of_false Next.noConfusion fun h => h ⟨hsize, Or.inr (Or.inl hvma)⟩
    | noTransMode hsize hbig hvma hmode =>
      refine iff_of_true rfl ?_
      rintro ⟨-, hbig' | hvma' | ⟨hmode', -⟩⟩
      · exact hbig hbig'
      · exact hvma' hvma
      · exact hmode' hmode
    | failed hsize hbig hvma hmode r hr hret =>
      subst hr
      refine iff_of_false Next.noConfusion fun h => h ⟨hsize, Or.inr (Or.inr ⟨hmode, ?_⟩)⟩
      obtain ⟨-, href⟩ | ⟨hzero, -⟩ := hreq
      · exact href
      · omega
    | sent hsize hbig hvma hmode r hr hret =>
      subst hr
      refine iff_of_true rfl ?_
      obtain ⟨hlt, -⟩ | ⟨-, -, hall, -⟩ := hreq
      · exact absurd hlt hret
      rintro ⟨-, hbig' | hvma' | ⟨-, i, hi, href⟩⟩
      · exact hbig hbig'
      · exact hvma' hvma
      · exact hall i hi href
  · have hnext := (overlaySection_outcome V st hdr).2.2
    rw [hov] at hnext
    dsimp only at hnext
    unfold Loud
    rw [hread, if_neg hsel, hnext]
    dsimp only
    split_ifs with hfault
    · exact iff_of_false id (not_not.mpr hfault)
    · exact iff_of_true rfl hfault

theorem exists_round_of_not_loud {st : LoadState} {secNum : ℕ}
    (h : ¬ Loud V info dma shoff str fwSize st secNum) :
    ∃ v st', loadSection V info dma shoff str fwSize st secNum = (v, st', .go) := by
  obtain ⟨⟨v, st', next⟩, hround⟩ : ∃ out, loadSection V info dma shoff str fwSize st secNum = out := ⟨_, rfl⟩
  obtain rfl := (next_eq_go_iff V info dma shoff str fwSize hround).mpr h
  exact ⟨v, st', hround⟩

/-- A section that does not end the load is loaded exactly if it is sound. -/
theorem loads_iff_sound (hdrF : SectionHeader) {st st' : LoadState} {secNum : ℕ} {v : Visit}
    (h : loadSection V info dma shoff str fwSize st secNum = (v, st', .go)) :
    v.Loads V info hdrF ↔ Sound V info dma shoff str hdrF st secNum := by
  obtain ⟨hdr, name, action, rfl, hread, ⟨hsel, hout⟩ | ⟨hsel, hov⟩⟩ :=
    loadSection_cases V info dma shoff str fwSize h
  · have hreq := sectionWrite_requests V info dma st secNum hdr
    unfold Visit.Loads Sound
    rw [hread]
    dsimp only
    cases hout with
    | empty hsize =>
      refine iff_of_false ?_ ?_
      · rintro ⟨-, -, ts, hts, -⟩
        exact Option.not_mem_none ts hts
      · rintro ⟨-, hsame, hne, -⟩
        exact hne (hsame.2.2 ▸ hsize)
    | noTransMode hsize hbig hvma hmode =>
      refine iff_of_false ?_ ?_
      · rintro ⟨-, -, ts, hts, -⟩
        exact Option.not_mem_none ts hts
      · rintro ⟨-, -, -, hmode', -⟩
        exact hmode' hmode
    | sent hsize hbig hvma hmode r hr hret =>
      subst hr
      obtain ⟨hlt, -⟩ | ⟨-, -, hall, hcov, hresp⟩ := hreq
      · exact absurd hlt hret
      constructor
      · rintro ⟨hsame, hle, ts, ⟨⟩, hcov', hclean⟩
        have herr := (clean_iff dma hresp hall).mp hclean
        have hpos : (align hdr.secSize V.axiAlign).toNat ≠ 0 := fun h0 => hsize (BitVec.eq_of_toNat_eq h0)
        have hrecord := hcov.ctrl_eq hcov' hpos
        rw [hsame.2.2] at hsize herr
        exact ⟨hsel, hsame, hsize, hmode, hrecord, herr⟩
      · rintro ⟨-, hsame, hne, -, hrecord, herr⟩
        rw [hsame.1, hsame.2.2, hrecord] at hcov
        rw [hsame.2.2] at hresp hall
        exact ⟨hsame, le_align V hne, _, rfl, hcov, (clean_iff dma hresp hall).mpr herr⟩
  · have haction := (overlaySection_outcome V st hdr).1
    rw [hov] at haction
    unfold Visit.Loads Sound
    rw [hread]
    refine iff_of_false ?_ fun hs => hsel hs.1
    rintro ⟨-, -, ts, hts, -⟩
    rw [haction] at hts
    exact Option.not_mem_none ts hts

/-! ### The whole load -/

/-- The section leaves its place in the image in `section_ptr`. -/
def setsPtr (secNum : ℕ) (hdr : SectionHeader) (name : List Byte) : Bool :=
  if isSelected info secNum name then align hdr.secSize V.axiAlign ≠ 0 else hdr.secInfo ≠ 0

/-- What section `secNum` leaves, if it does not end the load: the image with
the section staged over it, if it is sent, and the number of requests so far. -/
def afterSection (st : LoadState) (secNum : ℕ) : LoadState :=
  let (hdr, name) := readSection st.mem shoff str secNum
  let ptr := if setsPtr V info secNum hdr name then some (hdr.secOffset.toNat : ℤ) else st.sectionPtr
  match sendRange V info secNum hdr name with
  | some (off, n) => ⟨staged st.mem st.mem off n, st.sent + pieces n, ptr⟩
  | none => ⟨st.mem, st.sent, ptr⟩

/-- What the sections of the file `F` before `secNum` leave, had none of them
ended the load. -/
def arrival (F : Mem) : ℕ → LoadState
  | 0 => ⟨F, 0, none⟩
  | secNum + 1 => afterSection V info shoff str (arrival F secNum) secNum

theorem setsPtr_of_selected {secNum : ℕ} {hdr : SectionHeader} {name : List Byte}
    (hsel : isSelected info secNum name = true) :
    setsPtr V info secNum hdr name = decide (align hdr.secSize V.axiAlign ≠ 0) := by
  unfold setsPtr
  rw [if_pos hsel]

theorem setsPtr_of_not_selected {secNum : ℕ} {hdr : SectionHeader} {name : List Byte}
    (hsel : ¬ isSelected info secNum name = true) :
    setsPtr V info secNum hdr name = decide (hdr.secInfo ≠ 0) := by
  unfold setsPtr
  rw [if_neg hsel]

/-- A section that is not sent leaves the image as it is. -/
theorem afterSection_of_not_sent {st : LoadState} {secNum : ℕ} {hdr : SectionHeader} {name : List Byte}
    (hread : readSection st.mem shoff str secNum = (hdr, name)) (h : sendRange V info secNum hdr name = none) :
    afterSection V info shoff str st secNum =
      ⟨st.mem, st.sent, if setsPtr V info secNum hdr name then some (hdr.secOffset.toNat : ℤ) else st.sectionPtr⟩ := by
  unfold afterSection
  rw [hread]
  dsimp only
  rw [h]

/-- A round that goes on leaves this. -/
theorem afterSection_of_go {st st' : LoadState} {secNum : ℕ} {v : Visit}
    (h : loadSection V info dma shoff str fwSize st secNum = (v, st', .go)) :
    afterSection V info shoff str st secNum = st' := by
  obtain ⟨hdr, name, action, -, hread, ⟨hsel, hout⟩ | ⟨hsel, hov⟩⟩ :=
    loadSection_cases V info dma shoff str fwSize h
  · have hreq := sectionWrite_requests V info dma st secNum hdr
    cases hout with
    | empty hsize =>
      have hnone : sendRange V info secNum hdr name = none := if_neg fun hs => hs.2.1 hsize
      rw [afterSection_of_not_sent V info shoff str hread hnone, setsPtr_of_selected V info hsel]
      simp only [hsize, ne_eq, not_true_eq_false, decide_false, Bool.false_eq_true, if_false]
    | noTransMode hsize hbig hvma hmode =>
      have hnone : sendRange V info secNum hdr name = none := if_neg fun hs => hs.2.2 hmode
      rw [afterSection_of_not_sent V info shoff str hread hnone, setsPtr_of_selected V info hsel]
      simp only [hsize, ne_eq, not_false_eq_true, decide_true, if_true]
    | sent hsize hbig hvma hmode r hr hret =>
      obtain ⟨-, -, hmem⟩ := vspaFwDmaWrite_spec dma st.mem st.sent ⟨_, _, _, _⟩ (Int.natCast_nonneg _) (hr ▸ hret)
      subst hr
      obtain ⟨hlt, -⟩ | ⟨-, hsent, -⟩ := hreq
      · exact absurd hlt hret
      unfold afterSection
      rw [hread]
      dsimp only
      rw [sendRange_of_sent V info hsel hsize hmode, setsPtr_of_selected V info hsel, hsent]
      simp only [hsize, ne_eq, not_false_eq_true, decide_true, if_true]
      rw [← hmem]
      rfl
  · have hafter := (overlaySection_outcome V st hdr).2.1
    rw [hov] at hafter
    obtain rfl : st' = _ := hafter
    have hnone : sendRange V info secNum hdr name = none := if_neg fun hs => hsel hs.1
    rw [afterSection_of_not_sent V info shoff str hread hnone, setsPtr_of_not_selected V info hsel]
    simp only [decide_eq_true_eq]

/-- What the next section of a load finds. -/
theorem arrival_succ {F : Mem} {st' : LoadState} {secNum : ℕ} {v : Visit}
    (h : loadSection V info dma shoff str fwSize (arrival V info shoff str F secNum) secNum = (v, st', .go)) :
    st' = arrival V info shoff str F (secNum + 1) :=
  (afterSection_of_go V info dma shoff str fwSize h).symm

/-- The load succeeds exactly if no section on its way is loud. -/
theorem loadLoop_ok_iff (F : Mem) : ∀ k secNum : ℕ,
    (loadLoop V info dma shoff str fwSize k secNum (arrival V info shoff str F secNum)).ret = some 0 ↔
      ∀ i, secNum ≤ i → i < secNum + k → ¬ Loud V info dma shoff str fwSize (arrival V info shoff str F i) i
  | 0, secNum => by
    refine iff_of_true rfl fun i hi hi' => ?_
    omega
  | k + 1, secNum => by
    constructor
    · intro hret i hi hi'
      obtain ⟨v, st', hround, hrest, -⟩ := loadLoop_succ_of_ok hret
      rw [arrival_succ V info dma shoff str fwSize hround] at hrest
      rcases hi.eq_or_lt with rfl | hlt
      · exact (next_eq_go_iff V info dma shoff str fwSize hround).mp rfl
      · exact (loadLoop_ok_iff F k (secNum + 1)).mp hrest i hlt (by omega)
    · intro hall
      obtain ⟨⟨v, st', next⟩, hround⟩ :
        ∃ out, loadSection V info dma shoff str fwSize (arrival V info shoff str F secNum) secNum = out := ⟨_, rfl⟩
      -- a section that is not loud does not end the load
      obtain rfl := (next_eq_go_iff V info dma shoff str fwSize hround).mpr (hall secNum le_rfl (by omega))
      rw [loadLoop, hround]
      dsimp only
      rw [arrival_succ V info dma shoff str fwSize hround, loadLoop_ok_iff F k (secNum + 1)]
      intro i hi hi'
      exact hall i (by omega) (by omega)

/-- The visits of a load that succeeds. -/
theorem mem_visits_iff (F : Mem) (v : Visit) : ∀ k secNum : ℕ,
    (loadLoop V info dma shoff str fwSize k secNum (arrival V info shoff str F secNum)).ret = some 0 →
    (v ∈ (loadLoop V info dma shoff str fwSize k secNum (arrival V info shoff str F secNum)).visits ↔
      ∃ i, secNum ≤ i ∧ i < secNum + k ∧
        ∃ st', loadSection V info dma shoff str fwSize (arrival V info shoff str F i) i = (v, st', .go))
  | 0, secNum, _ => by
    refine iff_of_false List.not_mem_nil ?_
    rintro ⟨i, hi, hi', -⟩
    omega
  | k + 1, secNum, hret => by
    obtain ⟨v', st', hround, hrest, hvisits⟩ := loadLoop_succ_of_ok hret
    rw [arrival_succ V info dma shoff str fwSize hround] at hrest hvisits
    rw [hvisits, List.mem_cons, mem_visits_iff F v k (secNum + 1) hrest]
    constructor
    · rintro (rfl | ⟨i, hi, hi', hmem⟩)
      · exact ⟨secNum, le_rfl, by omega, st', hround⟩
      · exact ⟨i, by omega, by omega, hmem⟩
    · rintro ⟨i, hi, hi', st₁, hround₁⟩
      rcases hi.eq_or_lt with rfl | hlt
      · obtain ⟨rfl, -⟩ := Prod.mk.inj (hround.symm.trans hround₁)
        exact Or.inl rfl
      · exact Or.inr ⟨i, hlt, by omega, st₁, hround₁⟩

end Load

section Honest

variable (V : VspaDev) (info : VspaSecInfo) (dma : ℕ → DmaResp) (hd : FileHeader) (size : ℕ) (F : Mem)

/-- Section `secNum` of the image is selected for loading by a record, and is neither an
overlay nor empty. -/
def Wanted (secNum : ℕ) : Prop :=
  isVspaSectionLoadable (readSection F hd.fhShoff (stringTable F hd) secNum).2 = false ∧
    memspaceRecord info secNum ≠ none ∧
    (readSection F hd.fhShoff (stringTable F hd) secNum).1.secSize ≠ 0

instance (secNum : ℕ) : Decidable (Wanted info hd F secNum) := inferInstanceAs (Decidable (_ ∧ _ ∧ _))

/-- Every wanted section was transferred completely and without an error. -/
def Complete (r : LoadOut) : Prop :=
  ∀ secNum < hd.fhShnum.toNat, Wanted info hd F secNum →
    ∃ v ∈ r.visits, v.secNum = secNum ∧
      v.Loads V info (readSection F hd.fhShoff (stringTable F hd) secNum).1

instance (r : LoadOut) : Decidable (Complete V info hd F r) :=
  inferInstanceAs (Decidable (∀ _, _))

/-- Some section ends the load, or every wanted section is sound, where each
section is met as the sections before it leave the image. -/
def LoudOrSound : Prop :=
  let shoff := hd.fhShoff
  let str := stringTable F hd
  (∃ secNum < hd.fhShnum.toNat, Loud V info dma shoff str size (arrival V info shoff str F secNum) secNum) ∨
  ∀ secNum < hd.fhShnum.toNat, Wanted info hd F secNum →
    Sound V info dma shoff str (readSection F shoff str secNum).1 (arrival V info shoff str F secNum) secNum

/-- `fw_read_and_load_sections` returns 0 only after a complete load, exactly
if the image is loud or sound. -/
theorem complete_iff_loudOrSound :
    ((fwReadAndLoadSections V info dma hd size F).ret = some 0 →
      Complete V info hd F (fwReadAndLoadSections V info dma hd size F)) ↔
    LoudOrSound V info dma hd size F := by
  have hok := loadLoop_ok_iff V info dma hd.fhShoff (stringTable F hd) size F hd.fhShnum.toNat 0
  have hvis := fun v => mem_visits_iff V info dma hd.fhShoff (stringTable F hd) size F v hd.fhShnum.toNat 0
  simp only [Nat.zero_le, true_implies, true_and, Nat.zero_add] at hok hvis
  change (fwReadAndLoadSections V info dma hd size F).ret = some 0 ↔ _ at hok
  constructor
  · intro hhonest
    by_cases hloud : ∃ secNum < hd.fhShnum.toNat, Loud V info dma hd.fhShoff (stringTable F hd) size
        (arrival V info hd.fhShoff (stringTable F hd) F secNum) secNum
    · exact Or.inl hloud
    push Not at hloud
    right
    have hret := hok.mpr hloud
    intro secNum hlt hwant
    obtain ⟨v, hv, rfl, hloads⟩ := hhonest hret secNum hlt hwant
    obtain ⟨i, hi, st', hround⟩ := (hvis v hret).mp hv
    obtain rfl : v.secNum = i := (loadSection_go V info dma hd.fhShoff (stringTable F hd) size hround).1
    exact (loads_iff_sound V info dma hd.fhShoff (stringTable F hd) size _ hround).mp hloads
  · rintro (⟨secNum, hlt, hloud⟩ | hsound) hret
    · exact absurd hloud (hok.mp hret secNum hlt)
    · intro secNum hlt hwant
      obtain ⟨v, st', hround⟩ := exists_round_of_not_loud V info dma hd.fhShoff (stringTable F hd) size
        (hok.mp hret secNum hlt)
      have hnum := (loadSection_go V info dma hd.fhShoff (stringTable F hd) size hround).1
      exact ⟨v, (hvis v hret).mpr ⟨secNum, hlt, st', hround⟩, hnum,
        (loads_iff_sound V info dma hd.fhShoff (stringTable F hd) size _ hround).mpr
          (hsound secNum hlt hwant)⟩

end Honest

end Vspa
end La12xx
