/-
# Where the pieces of a section go

`vspa_fw_dma_write` cuts a section into requests of at most `MAX_DMA_TRANSFER`
bytes. Three things are masked or checked on the way: the address of each
request with `PRAM_ADDR_MASK`, its byte count with `DMA_BCNT_MASK`, and the
masked address against `VSPA_DRAM_SIZE`. The byte count is never truncated,
and the sources are the pieces of the section, in order (`issued_prefix`).

The check is on the first byte of a request and after the mask. So a section
that is loaded at or above 512 KiB goes to the address modulo 512 KiB, and one
whose last piece begins in the memory may end beyond it. In all other cases a
load that returns 0 has stayed inside the memory (`chunked_iff_fits`).
-/
import La12xx.Lib.Tiling
import La12xx.Vspa.Honest

namespace La12xx
namespace Vspa

open ByteMem Tiling

/-! ### Requests with their sources -/

/-- `struct vspa_dma_req` as the loop fills it in, before the bounce buffer
takes the place of the source, with the number of bytes it is for. -/
structure VspaDmaReq where
  dmemAddr : BitVec 32
  axiAddr : ℤ
  byteCnt : ℕ
  xfrCtrl : BitVec 32
  sizeToXfer : ℕ
deriving DecidableEq, Repr

/-- The requests that are made, and the value returned. -/
structure Issued where
  reqs : List VspaDmaReq
  ret : ℤ
deriving DecidableEq, Repr

/-- The loop of `vspa_fw_dma_write` again, with the requests instead of the
memory they go through. -/
def dmaIssueLoop (dma : ℕ → DmaResp) : ℕ → ℕ → DmaParam → Issued
  | 0, _, _ => ⟨[], 0⟩
  | fuel + 1, sent, linfo =>
    let sizeToXfer := if linfo.size > maxDmaTransfer then maxDmaTransfer else linfo.size
    let dmaReq : VspaDmaReq := ⟨linfo.offset &&& pramAddrMask, linfo.phys, sizeToXfer &&& dmaBcntMask,
      linfo.xfrCtrl, sizeToXfer⟩
    let next : DmaParam := ⟨linfo.xfrCtrl, linfo.offset + BitVec.ofNat 32 sizeToXfer,
      linfo.phys + sizeToXfer, linfo.size - sizeToXfer⟩
    if dmaReq.dmemAddr.toNat ≥ vspaDramSize then ⟨[], -einval⟩
    else if dmaRawTransmit (dma sent) < 0 then ⟨[dmaReq], -ecomm⟩
    else if next.size ≠ 0 then
      let r := dmaIssueLoop dma fuel (sent + 1) next
      ⟨dmaReq :: r.reqs, r.ret⟩
    else ⟨[dmaReq], 0⟩

/-- The requests of `vspa_fw_dma_write`. -/
def dmaIssue (dma : ℕ → DmaResp) (sent : ℕ) (linfo : DmaParam) : Issued :=
  dmaIssueLoop dma (linfo.size / maxDmaTransfer + 1) sent linfo

/-- What a request and a transfer have in common. -/
def VspaDmaReq.shape (q : VspaDmaReq) : BitVec 32 × ℕ × BitVec 32 := (q.dmemAddr, q.byteCnt, q.xfrCtrl)

/-- What a request and a transfer have in common. -/
def Transfer.shape (t : Transfer) : BitVec 32 × ℕ × BitVec 32 := (t.dmemAddr, t.byteCnt, t.xfrCtrl)

/-- The two loops go the same way. -/
theorem dmaWriteLoop_issued (dma : ℕ → DmaResp) : ∀ (fuel : ℕ) (m : Mem) (sent : ℕ) (linfo : DmaParam),
    (dmaWriteLoop dma fuel m sent linfo).ret = (dmaIssueLoop dma fuel sent linfo).ret ∧
      (dmaWriteLoop dma fuel m sent linfo).transfers.map Transfer.shape =
        (dmaIssueLoop dma fuel sent linfo).reqs.map VspaDmaReq.shape
  | 0, _, _, _ => ⟨rfl, rfl⟩
  | fuel + 1, m, sent, linfo => by
    unfold dmaWriteLoop dmaIssueLoop
    dsimp only
    by_cases haddr : (linfo.offset &&& pramAddrMask).toNat ≥ vspaDramSize
    · rw [if_pos haddr, if_pos haddr]
      exact ⟨rfl, rfl⟩
    rw [if_neg haddr, if_neg haddr]
    by_cases hrc : dmaRawTransmit (dma sent) < 0
    · rw [if_pos hrc, if_pos hrc]
      exact ⟨rfl, rfl⟩
    rw [if_neg hrc, if_neg hrc]
    by_cases hrest : linfo.size - (if linfo.size > maxDmaTransfer then maxDmaTransfer else linfo.size) ≠ 0
    · rw [if_pos hrest, if_pos hrest]
      obtain ⟨hret, hmap⟩ := dmaWriteLoop_issued dma fuel _ (sent + 1) _
      exact ⟨hret, by rw [List.map_cons, List.map_cons, hmap]; rfl⟩
    · rw [if_neg hrest, if_neg hrest]
      exact ⟨rfl, rfl⟩

/-! ### The pieces -/

/-- Request `k` for a section, if it is made. -/
def DmaParam.req (linfo : DmaParam) (k : ℕ) : VspaDmaReq where
  dmemAddr := pieceAddr linfo.offset k
  axiAddr := linfo.phys + (maxDmaTransfer * k : ℕ)
  byteCnt := chunkLen maxDmaTransfer linfo.size k
  xfrCtrl := linfo.xfrCtrl
  sizeToXfer := chunkLen maxDmaTransfer linfo.size k

/-- What is left of a section after a full piece. -/
def DmaParam.rest (linfo : DmaParam) : DmaParam :=
  ⟨linfo.xfrCtrl, linfo.offset + BitVec.ofNat 32 maxDmaTransfer, linfo.phys + maxDmaTransfer,
    linfo.size - maxDmaTransfer⟩

theorem pieceAddr_succ (addr : BitVec 32) (k : ℕ) :
    pieceAddr addr (k + 1) = pieceAddr (addr + BitVec.ofNat 32 maxDmaTransfer) k := by
  unfold pieceAddr
  rw [Nat.mul_succ, Nat.add_comm, BitVec.ofNat_add, BitVec.add_assoc]

theorem req_succ (linfo : DmaParam) (k : ℕ) : linfo.req (k + 1) = linfo.rest.req k := by
  have hphys : linfo.phys + (maxDmaTransfer * (k + 1) : ℕ) =
      linfo.phys + maxDmaTransfer + (maxDmaTransfer * k : ℕ) := by
    push_cast
    ring
  unfold DmaParam.req DmaParam.rest
  rw [pieceAddr_succ, chunkLen_succ, hphys]

/-- The first request of a section of one piece. -/
theorem req_zero_of_le {linfo : DmaParam} (h : linfo.size ≤ maxDmaTransfer) :
    linfo.req 0 = ⟨linfo.offset &&& pramAddrMask, linfo.phys, linfo.size, linfo.xfrCtrl, linfo.size⟩ := by
  unfold DmaParam.req
  rw [pieceAddr_zero, chunkLen_zero h, Nat.mul_zero, Nat.cast_zero, add_zero]

/-- The first request of a section of several pieces. -/
theorem req_zero_of_gt {linfo : DmaParam} (h : maxDmaTransfer < linfo.size) :
    linfo.req 0 =
      ⟨linfo.offset &&& pramAddrMask, linfo.phys, maxDmaTransfer, linfo.xfrCtrl, maxDmaTransfer⟩ := by
  have hlen : chunkLen maxDmaTransfer linfo.size 0 = maxDmaTransfer := Nat.min_eq_left h.le
  unfold DmaParam.req
  rw [pieceAddr_zero, hlen, Nat.mul_zero, Nat.cast_zero, add_zero]

/-- The first `j` pieces are sent, each to an address the check lets through. -/
structure Sends (linfo : DmaParam) (out : Issued) (j : ℕ) : Prop where
  le : j ≤ pieces linfo.size
  reqs : out.reqs = (List.range j).map linfo.req
  passed : ∀ k < j, (pieceAddr linfo.offset k).toNat < vspaDramSize
  all : out.ret = 0 → j = pieces linfo.size
  first : (pieceAddr linfo.offset 0).toNat < vspaDramSize → 0 < j

/-- A round of the loop: the first piece is sent if its address is let through, and if there
is more and it has arrived, the rest after it. -/
theorem dmaIssueLoop_succ (dma : ℕ → DmaResp) (fuel sent : ℕ) (linfo : DmaParam) :
    dmaIssueLoop dma (fuel + 1) sent linfo =
      if (linfo.offset &&& pramAddrMask).toNat ≥ vspaDramSize then ⟨[], -einval⟩
      else if dmaRawTransmit (dma sent) < 0 then ⟨[linfo.req 0], -ecomm⟩
      else if maxDmaTransfer < linfo.size then
        ⟨linfo.req 0 :: (dmaIssueLoop dma fuel (sent + 1) linfo.rest).reqs,
          (dmaIssueLoop dma fuel (sent + 1) linfo.rest).ret⟩
      else ⟨[linfo.req 0], 0⟩ := by
  rw [dmaIssueLoop]
  dsimp only
  by_cases hsize : linfo.size > maxDmaTransfer
  · have hcnt : maxDmaTransfer &&& dmaBcntMask = maxDmaTransfer := land_dmaBcntMask le_rfl
    have hrest : linfo.size - maxDmaTransfer ≠ 0 := Nat.sub_ne_zero_of_lt hsize
    rw [if_pos hsize, if_pos hsize, hcnt, if_pos hrest, req_zero_of_gt hsize]
    rfl
  · have hle : linfo.size ≤ maxDmaTransfer := Nat.le_of_not_gt hsize
    have hlast : ¬ linfo.size - linfo.size ≠ 0 := not_not.mpr (Nat.sub_self _)
    rw [if_neg hsize, if_neg hsize, land_dmaBcntMask hle, if_neg hlast, req_zero_of_le hle]

/-- **The requests are the pieces of the section**, in order, as many as are
made. -/
theorem issued_prefix (dma : ℕ → DmaResp) : ∀ (fuel : ℕ) (sent : ℕ) (linfo : DmaParam),
    linfo.size < maxDmaTransfer * fuel → ∃ j, Sends linfo (dmaIssueLoop dma fuel sent linfo) j
  | 0, _, linfo, hfuel => by omega
  | fuel + 1, sent, linfo, hfuel => by
    rw [dmaIssueLoop_succ]
    by_cases haddr : (linfo.offset &&& pramAddrMask).toNat ≥ vspaDramSize
    · rw [if_pos haddr]
      refine ⟨0, Nat.zero_le _, rfl, fun k hk => absurd hk (Nat.not_lt_zero k), fun hret => ?_, fun h0 => ?_⟩
      · exact absurd hret (show -einval ≠ 0 by decide)
      · rw [pieceAddr_zero] at h0
        omega
    have hpass : ∀ k < 1, (pieceAddr linfo.offset k).toNat < vspaDramSize := by
      intro k hk
      obtain rfl : k = 0 := by omega
      rw [pieceAddr_zero]
      omega
    rw [if_neg haddr]
    by_cases hrc : dmaRawTransmit (dma sent) < 0
    · rw [if_pos hrc]
      exact ⟨1, Nat.succ_pos _, rfl, hpass, fun hret => absurd hret (show -ecomm ≠ 0 by decide), fun _ => Nat.one_pos⟩
    rw [if_neg hrc]
    by_cases hsize : maxDmaTransfer < linfo.size
    · rw [if_pos hsize]
      obtain ⟨j, ih⟩ := issued_prefix dma fuel (sent + 1) linfo.rest
        (by unfold DmaParam.rest; rw [Nat.mul_succ] at hfuel; dsimp only; omega)
      refine ⟨j + 1, ?_, ?_, ?_, fun hret => ?_, fun _ => Nat.succ_pos j⟩
      · rw [pieces_of_gt hsize]
        exact Nat.succ_le_succ ih.le
      · have hmap : (List.range j).map linfo.rest.req = (List.range j).map (linfo.req ∘ Nat.succ) :=
          List.map_congr_left fun k _ => (req_succ linfo k).symm
        rw [List.range_succ_eq_map, List.map_cons, List.map_map, ← hmap, ← ih.reqs]
      · rw [Nat.forall_lt_succ_left]
        exact ⟨hpass 0 Nat.one_pos, fun k hk => by rw [pieceAddr_succ]; exact ih.passed k hk⟩
      · rw [pieces_of_gt hsize, ih.all hret]
        rfl
    · rw [if_neg hsize]
      have hone := pieces_of_le (Nat.le_of_not_gt hsize)
      exact ⟨1, Nat.succ_pos _, rfl, hpass, fun _ => hone.symm, fun _ => Nat.one_pos⟩

/-! ### Addresses -/

theorem toNat_pieceAddr (addr : BitVec 32) (k : ℕ) :
    (pieceAddr addr k).toNat = (addr.toNat + maxDmaTransfer * k) % 2 ^ 19 := by
  have hmask : pramAddrMask.toNat = 2 ^ 19 - 1 := by decide
  have hsum : (addr + BitVec.ofNat 32 (maxDmaTransfer * k)).toNat = (addr.toNat + maxDmaTransfer * k) % 2 ^ 32 := by
    rw [BitVec.toNat_add, BitVec.toNat_ofNat, Nat.add_mod_mod]
  unfold pieceAddr
  rw [BitVec.toNat_and, hmask, Nat.and_two_pow_sub_one_eq_mod, hsum, Nat.mod_mod_of_dvd _ (by decide)]

/-- Between the end of the memory and the mask there is more than one piece: a
section that starts below the mask does not come back to the memory once it
has left it. -/
theorem dest_lt {addr : BitVec 32} (hlow : addr.toNat < 2 ^ 19) : ∀ k : ℕ,
    (∀ i ≤ k, (pieceAddr addr i).toNat < vspaDramSize) → addr.toNat + maxDmaTransfer * k < vspaDramSize
  | 0, h => by
    have h0 := h 0 le_rfl
    rw [toNat_pieceAddr, Nat.mul_zero, Nat.add_zero, Nat.mod_eq_of_lt hlow] at h0
    rwa [Nat.mul_zero, Nat.add_zero]
  | k + 1, h => by
    have ih := dest_lt hlow k fun i hi => h i (Nat.le_succ_of_le hi)
    have hk := h (k + 1) le_rfl
    have hsmall : addr.toNat + maxDmaTransfer * (k + 1) < 2 ^ 19 := by
      unfold maxDmaTransfer vspaDramSize at *
      omega
    rwa [toNat_pieceAddr, Nat.mod_eq_of_lt hsmall] at hk

/-- A request whose address is in the memory is not changed by the mask. -/
theorem pieceAddr_of_lt {addr : BitVec 32} {k : ℕ} (h : addr.toNat + maxDmaTransfer * k < vspaDramSize) :
    (pieceAddr addr k).toNat = addr.toNat + maxDmaTransfer * k := by
  rw [toNat_pieceAddr, Nat.mod_eq_of_lt (h.trans (by decide))]

/-- What a request is for. -/
def VspaDmaReq.source (q : VspaDmaReq) : ℤ × ℕ := (q.axiAddr, q.sizeToXfer)

/-- The section is sent in pieces: the sources of the requests tile it, or the
beginning of it if an error is returned; each is of 1 to `MAX_DMA_TRANSFER`
bytes and says so; they go to consecutive pieces from the load address on; and
if 0 is returned, the destination lies in the memory. -/
structure Chunked (linfo : DmaParam) (reqs : List VspaDmaReq) (ret : ℤ) : Prop where
  tiles : ∃ e, Tiles linfo.phys (reqs.map VspaDmaReq.source) e ∧ e ≤ linfo.phys + linfo.size ∧
    (ret = 0 → e = linfo.phys + linfo.size)
  sizes : ∀ q ∈ reqs, 1 ≤ q.sizeToXfer ∧ q.sizeToXfer ≤ maxDmaTransfer ∧ q.byteCnt = q.sizeToXfer
  dests : ∀ (k : ℕ) (q : VspaDmaReq), reqs[k]? = some q →
    q.dmemAddr.toNat = linfo.offset.toNat + maxDmaTransfer * k
  inside : (ret = 0 ∧ linfo.offset.toNat + linfo.size ≤ vspaDramSize) ∨ ret < 0

/-- A section below 512 KiB ends in the memory, or its last piece begins
beyond it, or some piece is not transferred in time; a section at or above
512 KiB is beyond the memory modulo 512 KiB. -/
def FitsDram (dma : ℕ → DmaResp) (sent : ℕ) (linfo : DmaParam) : Prop :=
  if linfo.offset.toNat < 2 ^ 19 then
    linfo.offset.toNat + linfo.size ≤ vspaDramSize ∨
      vspaDramSize ≤ linfo.offset.toNat + maxDmaTransfer * (pieces linfo.size - 1) ∨
      ∃ i < pieces linfo.size, dmaRawTransmit (dma (sent + i)) < 0
  else vspaDramSize ≤ linfo.offset.toNat % 2 ^ 19

section Section

variable (dma : ℕ → DmaResp) (mem : Mem) (sent : ℕ) {linfo : DmaParam}

theorem vspaFwDmaWrite_issued (linfo : DmaParam) :
    (vspaFwDmaWrite dma mem sent linfo).ret = (dmaIssue dma sent linfo).ret ∧
      (vspaFwDmaWrite dma mem sent linfo).transfers.map Transfer.shape =
        (dmaIssue dma sent linfo).reqs.map VspaDmaReq.shape :=
  dmaWriteLoop_issued dma _ mem sent linfo

theorem dmaIssue_sends (linfo : DmaParam) : ∃ j, Sends linfo (dmaIssue dma sent linfo) j :=
  issued_prefix dma _ sent linfo (Nat.lt_mul_div_succ _ (by decide))

/-- The value returned: 0 if no request is refused, or an error. -/
theorem dmaIssue_ret (linfo : DmaParam) :
    ((dmaIssue dma sent linfo).ret = 0 ∧ ∀ i < pieces linfo.size, ¬ Refused dma linfo.offset sent i) ∨
      ((dmaIssue dma sent linfo).ret < 0 ∧ ∃ i < pieces linfo.size, Refused dma linfo.offset sent i) := by
  have hfuel : linfo.size < maxDmaTransfer * (linfo.size / maxDmaTransfer + 1) :=
    Nat.lt_mul_div_succ _ (by decide)
  rw [← (vspaFwDmaWrite_issued dma (fun _ => 0) sent linfo).1]
  rcases dmaWriteLoop_requests dma _ (fun _ => 0) sent linfo hfuel with ⟨hneg, href⟩ | ⟨hzero, -, hall, -⟩
  · exact Or.inr ⟨hneg, href⟩
  · exact Or.inl ⟨hzero, hall⟩

/-- Whatever the addresses are, the sources tile the section and no byte count
is truncated. -/
theorem Sends.tiles {out : Issued} {j : ℕ} (h : Sends linfo out j) (hsize : 0 < linfo.size) :
    ∃ e, Tiles linfo.phys (out.reqs.map VspaDmaReq.source) e ∧ e ≤ linfo.phys + linfo.size ∧
      (out.ret = 0 → e = linfo.phys + linfo.size) := by
  refine ⟨linfo.phys + (min linfo.size (maxDmaTransfer * j) : ℕ), ?_, by omega, fun hret => ?_⟩
  · rw [h.reqs, List.map_map]
    exact tiles_chunks linfo.phys hsize j h.le
  · have hend : linfo.size ≤ maxDmaTransfer * pieces linfo.size := le_mul_chunkCount (by decide)
    rw [h.all hret, Nat.min_eq_left hend]

theorem Sends.sizes {out : Issued} {j : ℕ} (h : Sends linfo out j) (hsize : 0 < linfo.size) :
    ∀ q ∈ out.reqs, 1 ≤ q.sizeToXfer ∧ q.sizeToXfer ≤ maxDmaTransfer ∧ q.byteCnt = q.sizeToXfer := by
  rw [h.reqs, List.forall_mem_map]
  intro k hk
  have hlt : k < pieces linfo.size := (List.mem_range.mp hk).trans_le h.le
  exact ⟨chunkLen_pos (by decide) hsize hlt, chunkLen_le, rfl⟩

theorem Sends.getElem?_reqs {out : Issued} {j k : ℕ} {q : VspaDmaReq} (h : Sends linfo out j)
    (hq : out.reqs[k]? = some q) : k < j ∧ q = linfo.req k := by
  rw [h.reqs, List.getElem?_map, Option.map_eq_some_iff] at hq
  obtain ⟨i, hi, rfl⟩ := hq
  obtain ⟨hlt, rfl⟩ := List.getElem?_eq_some_iff.mp hi
  rw [List.length_range] at hlt
  exact ⟨hlt, by rw [List.getElem_range]⟩

/-- A section that starts below 512 KiB: the requests that are made go where
they should, so all that matters is the end. -/
theorem chunked_iff_of_low (hsize : 0 < linfo.size) (hlow : linfo.offset.toNat < 2 ^ 19) :
    Chunked linfo (dmaIssue dma sent linfo).reqs (dmaIssue dma sent linfo).ret ↔
      linfo.offset.toNat + linfo.size ≤ vspaDramSize ∨
        vspaDramSize ≤ linfo.offset.toNat + maxDmaTransfer * (pieces linfo.size - 1) ∨
        ∃ i < pieces linfo.size, dmaRawTransmit (dma (sent + i)) < 0 := by
  obtain ⟨j, hsends⟩ := dmaIssue_sends dma sent linfo
  have hdests : ∀ (k : ℕ) (q : VspaDmaReq), (dmaIssue dma sent linfo).reqs[k]? = some q →
      q.dmemAddr.toNat = linfo.offset.toNat + maxDmaTransfer * k := by
    intro k q hq
    obtain ⟨hk, rfl⟩ := hsends.getElem?_reqs hq
    exact pieceAddr_of_lt (dest_lt hlow k fun i hi => hsends.passed i (by omega))
  constructor
  · intro hchunked
    rcases hchunked.inside with ⟨-, hend⟩ | hneg
    · exact Or.inl hend
    · rcases dmaIssue_ret dma sent linfo with ⟨hzero, -⟩ | ⟨-, i, hi, hout | hslow⟩
      · omega
      · -- the piece that is out of range is not after the last one
        right; left
        by_contra hlast
        have hmul : maxDmaTransfer * i ≤ maxDmaTransfer * (pieces linfo.size - 1) :=
          Nat.mul_le_mul_left _ (by omega)
        rw [pieceAddr_of_lt (by omega)] at hout
        omega
      · exact Or.inr (Or.inr ⟨i, hi, hslow⟩)
  · intro hfits
    refine ⟨hsends.tiles hsize, hsends.sizes hsize, hdests, ?_⟩
    rcases dmaIssue_ret dma sent linfo with ⟨hzero, hall⟩ | ⟨hneg, -⟩
    · left
      refine ⟨hzero, ?_⟩
      have hpos : 0 < pieces linfo.size := Nat.succ_pos _
      have hlast : linfo.offset.toNat + maxDmaTransfer * (pieces linfo.size - 1) < vspaDramSize :=
        dest_lt hlow _ fun i hi => by
          have := hall i (by omega)
          unfold Refused at this
          omega
      rcases hfits with hend | hbeyond | ⟨i, hi, hslow⟩
      · exact hend
      · omega
      · exact absurd (Or.inr hslow) (hall i hi)
    · exact Or.inr hneg

/-- A section that starts at or above 512 KiB: a request that is made goes to
another address, so none may be made. -/
theorem chunked_iff_of_high (hsize : 0 < linfo.size) (hhigh : ¬ linfo.offset.toNat < 2 ^ 19) :
    Chunked linfo (dmaIssue dma sent linfo).reqs (dmaIssue dma sent linfo).ret ↔
      vspaDramSize ≤ linfo.offset.toNat % 2 ^ 19 := by
  obtain ⟨j, hsends⟩ := dmaIssue_sends dma sent linfo
  have h0 : (pieceAddr linfo.offset 0).toNat = linfo.offset.toNat % 2 ^ 19 := by
    rw [toNat_pieceAddr, Nat.mul_zero, Nat.add_zero]
  constructor
  · intro hchunked
    by_contra hlt
    have hj : 0 < j := hsends.first (by omega)
    have hreq : (dmaIssue dma sent linfo).reqs[0]? = some (linfo.req 0) := by
      rw [hsends.reqs, List.getElem?_map, List.getElem?_range hj, Option.map_some]
    have hdest : (pieceAddr linfo.offset 0).toNat = linfo.offset.toNat + maxDmaTransfer * 0 :=
      hchunked.dests 0 _ hreq
    have := Nat.mod_lt linfo.offset.toNat (show 0 < 2 ^ 19 by decide)
    omega
  · intro hbeyond
    have hj : j = 0 := by
      by_contra hne
      have := hsends.passed 0 (by omega)
      omega
    refine ⟨hsends.tiles hsize, hsends.sizes hsize, fun k q hq => ?_, Or.inr ?_⟩
    · obtain ⟨hk, -⟩ := hsends.getElem?_reqs hq
      omega
    · rcases dmaIssue_ret dma sent linfo with ⟨-, hall⟩ | ⟨hneg, -⟩
      · exact absurd (Or.inl (by omega)) (hall 0 (Nat.succ_pos _))
      · exact hneg

/-- **Where a section goes.** The requests of `vspa_fw_dma_write` are the
pieces of the section, with their sizes, at the addresses where they belong,
and 0 is returned only for a section that lies in the memory, exactly if the
section fits in this sense. -/
theorem chunked_iff_fits (hsize : 0 < linfo.size) :
    (vspaFwDmaWrite dma mem sent linfo).transfers.map Transfer.shape =
        (dmaIssue dma sent linfo).reqs.map VspaDmaReq.shape ∧
      (Chunked linfo (dmaIssue dma sent linfo).reqs (vspaFwDmaWrite dma mem sent linfo).ret ↔
        FitsDram dma sent linfo) := by
  obtain ⟨hret, hshape⟩ := vspaFwDmaWrite_issued dma mem sent linfo
  refine ⟨hshape, ?_⟩
  rw [hret]
  unfold FitsDram
  by_cases hlow : linfo.offset.toNat < 2 ^ 19
  · rw [if_pos hlow]
    exact chunked_iff_of_low dma sent hsize hlow
  · rw [if_neg hlow]
    exact chunked_iff_of_high dma sent hsize hlow

end Section

/-- Four bytes for address 512 KiB arrive at address 0, and of eight bytes for
the last word of the memory four go beyond it; both loads return 0. -/
theorem chunks_astray :
    (vspaFwDmaWrite promptDma (fun _ => 0) 0 ⟨0, 0x80000, 0x1000, 4⟩).ret = 0 ∧
      (dmaIssue promptDma 0 ⟨0, 0x80000, 0x1000, 4⟩).reqs = [⟨0, 0x1000, 4, 0, 4⟩] ∧
      ¬ Chunked ⟨0, 0x80000, 0x1000, 4⟩ (dmaIssue promptDma 0 ⟨0, 0x80000, 0x1000, 4⟩).reqs
        (vspaFwDmaWrite promptDma (fun _ => 0) 0 ⟨0, 0x80000, 0x1000, 4⟩).ret ∧
      (vspaFwDmaWrite promptDma (fun _ => 0) 0 ⟨0, 0x4fffc, 0x1000, 8⟩).ret = 0 ∧
      ¬ Chunked ⟨0, 0x4fffc, 0x1000, 8⟩ (dmaIssue promptDma 0 ⟨0, 0x4fffc, 0x1000, 8⟩).reqs
        (vspaFwDmaWrite promptDma (fun _ => 0) 0 ⟨0, 0x4fffc, 0x1000, 8⟩).ret := by
  have hret : (vspaFwDmaWrite promptDma (fun _ => 0) 0 ⟨0, 0x4fffc, 0x1000, 8⟩).ret = 0 := by decide
  refine ⟨by decide, by decide, fun h => ?_, hret, fun h => ?_⟩
  · exact absurd (h.dests 0 ⟨0, 0x1000, 4, 0, 4⟩ (by decide)) (by decide)
  · rcases h.inside with ⟨-, hend⟩ | hneg
    · exact absurd hend (by decide)
    · rw [hret] at hneg
      omega

/-- Two pieces of a section in the middle of the memory. -/
theorem chunked_two_pieces :
    Chunked ⟨0x200, 0x10000, 0x1000, 0x18000⟩ (dmaIssue promptDma 0 ⟨0x200, 0x10000, 0x1000, 0x18000⟩).reqs
      (vspaFwDmaWrite promptDma (fun _ => 0) 0 ⟨0x200, 0x10000, 0x1000, 0x18000⟩).ret :=
  (chunked_iff_fits promptDma (fun _ => 0) 0 (by decide)).2.mpr
    (Or.inl (by decide))

end Vspa
end La12xx
