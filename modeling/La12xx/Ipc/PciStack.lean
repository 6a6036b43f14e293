/-
# The PCI-space allocator is a lazily collected stack

The abstract allocator is a stack of mappings, each with its host address,
its size and whether it is still held (`Stack`): a new mapping goes on top,
a mapping given back is marked, and the marked mappings on top are popped
(`Lib.LazyStack`). A block's modem address is the window's base plus the
sizes below it, and its iATU entry is its position in the stack; neither is
stored in the abstract state.

The control blocks, counters and iATU windows of the driver represent such
a stack (`Rel`), every ioctl acts on them as on the stack and answers what
the stack answers (`ioctl_refines`). What the driver's state satisfies in
every run is read off the stack (`pci_space_invariant`).
-/
import La12xx.Lib.LazyStack
import La12xx.Ipc.PciSpace

namespace La12xx
namespace Ipc

open LazyStack Machine

/-! ### The abstract allocator -/

/-- A mapping of `size` bytes at host address `host`; `live` until it is
given back. -/
structure Mapping where
  host : BitVec 64
  size : ℕ
  live : Bool
deriving DecidableEq, Repr

def Mapping.kill (m : Mapping) : Mapping := { m with live := false }

/-- A held mapping of the host address `host`. -/
def Mapping.isAt (host : BitVec 64) (m : Mapping) : Bool := m.host = host ∧ m.live

theorem map_size_killFirst (host : BitVec 64) (ms : List Mapping) :
    (killFirst (Mapping.isAt host) Mapping.kill ms).map Mapping.size = ms.map Mapping.size :=
  map_killFirst (Mapping.isAt host) Mapping.kill Mapping.size (fun _ => rfl) ms

/-- A stack of mappings in a window of `T` bytes: at most as many as there
are control blocks, no more space than the window has, a held one on top. -/
structure Stack (H : HostIf) (T : ℕ) where
  maps : List Mapping
  length_le : maps.length ≤ H.maxPciUserAllocCount
  total_le : total Mapping.size maps ≤ T
  topLive : TopLive Mapping.live maps

namespace Stack

variable {H : HostIf} {T : ℕ}

@[ext] theorem ext {st st' : Stack H T} (h : st.maps = st'.maps) : st = st' := by
  cases st; cases st'; cases h; rfl

/-- No mapping. -/
def empty (H : HostIf) (T : ℕ) : Stack H T where
  maps := []
  length_le := Nat.zero_le _
  total_le := Nat.zero_le _
  topLive := topLive_nil _

/-- A held mapping on top. -/
def push (st : Stack H T) (host : BitVec 64) (size : ℕ)
    (hl : st.maps.length < H.maxPciUserAllocCount)
    (hs : total Mapping.size st.maps + size ≤ T) : Stack H T where
  maps := st.maps ++ [⟨host, size, true⟩]
  length_le := by simpa using hl
  total_le := by simpa using hs
  topLive := topLive_concat _ rfl

/-- Give back the lowest held mapping of `host`, then pop. -/
def release (st : Stack H T) (host : BitVec 64) : Stack H T where
  maps := collect Mapping.live (killFirst (Mapping.isAt host) Mapping.kill st.maps)
  length_le := by
    have h := (collect_isPrefix Mapping.live (killFirst (Mapping.isAt host) Mapping.kill st.maps)).length_le
    rw [length_killFirst] at h
    exact h.trans st.length_le
  total_le := by
    obtain ⟨t, ht⟩ := collect_isPrefix Mapping.live (killFirst (Mapping.isAt host) Mapping.kill st.maps)
    have h := congrArg (total Mapping.size) ht
    rw [total_append, total_congr _ (map_size_killFirst host st.maps)] at h
    have := st.total_le
    omega
  topLive := topLive_collect _ _

/-- A mapping that stays is one that was there, at the same place. -/
theorem release_getElem? (st : Stack H T) (host : BitVec 64) {i : ℕ} {m : Mapping}
    (hm : (st.release host).maps[i]? = some m) :
    ∃ m0, st.maps[i]? = some m0 ∧ m.host = m0.host ∧ m.size = m0.size ∧
      start Mapping.size (st.release host).maps i = start Mapping.size st.maps i := by
  set ks := killFirst (Mapping.isAt host) Mapping.kill st.maps with hks
  obtain ⟨t, ht⟩ := collect_isPrefix Mapping.live ks
  have hi : i < (collect Mapping.live ks).length := (List.getElem?_eq_some_iff.mp hm).1
  have hst : start Mapping.size (collect Mapping.live ks) i = start Mapping.size st.maps i := by
    rw [← start_congr _ (map_size_killFirst host st.maps), ← hks, ← ht, start_append_left _ hi.le, ht]
  have hm' : ks[i]? = some m := by
    rw [← ht, List.getElem?_append_left hi]; exact hm
  rw [hks, getElem?_killFirst, Option.map_eq_some_iff] at hm'
  obtain ⟨m0, hm0, rfl⟩ := hm'
  refine ⟨m0, hm0, ?_, ?_, hst⟩ <;> split <;> rfl

end Stack

/-- The overlap test on a mapping. -/
def Mapping.overlap (host : BitVec 64) (size : ℕ) (m : Mapping) : Bool :=
  cbOverlap ⟨0, m.host.toNat, m.size, m.live, 0⟩ host.toNat size

/-- The lines of the branches that would leave the allocator half-updated or
stop the collection early. -/
def DevErr.Corrupting : DevErr → Prop
  | .failedIatuEntry => True
  | .topAddrNotMatching _ _ => True
  | _ => False

section Abstract

variable (H : HostIf) (B : ℕ) {T : ℕ}

/-- `IOCTL_GUL_IPC_GET_PCI_MAP` on the stack. -/
def stackGet (st : Stack H T) (desc : Option MemStrtAddr) (copyOut : Bool) : Stack H T × IoctlOut :=
  match desc with
  | none => (st, ⟨-efault, none, []⟩)
  | some d =>
    if H.sizeVal d < 0 then (st, ⟨-einval, none, []⟩)
    else
      let size := (H.sizeVal d).toNat
      match st.maps.find? (Mapping.overlap d.hostPhys size) with
      | some m => (st, ⟨-einval, none, [.overlapping d.hostPhys.toNat m.host.toNat]⟩)
      | none =>
        if hs : total Mapping.size st.maps + size ≤ T then
          if hl : st.maps.length < H.maxPciUserAllocCount then
            (st.push d.hostPhys size hl hs,
              if copyOut then
                ⟨0, some { d with modemPhys := BitVec.ofInt 32 (B + total Mapping.size st.maps : ℕ) }, []⟩
              else ⟨-efault, none, []⟩)
          else (st, ⟨-enomem, none, [.maximumAllocations st.maps.length]⟩)
        else (st, ⟨-enomem, none, [.insufficientSpace]⟩)

/-- `IOCTL_GUL_IPC_PUT_PCI_MAP` on the stack. -/
def stackPut (st : Stack H T) (desc : Option MemStrtAddr) : Stack H T × IoctlOut :=
  match desc with
  | none => (st, ⟨-efault, none, []⟩)
  | some d =>
    if st.maps.any (Mapping.isAt d.hostPhys) then (st.release d.hostPhys, ⟨0, none, []⟩)
    else (st, ⟨-efault, none, [.invalidAddr d.hostPhys.toNat]⟩)

/-- The requests on the stack. -/
def stackIoctl (st : Stack H T) : PciReq → Stack H T × IoctlOut
  | .getPciMap desc copyOut => stackGet H B st desc copyOut
  | .putPciMap desc => stackPut H st desc

variable {H B}

/-- What a request can do to the stack: be refused, map, or give back. -/
theorem stackIoctl_cases (st : Stack H T) (r : PciReq) :
    ((stackIoctl H B st r).1 = st ∧ (stackIoctl H B st r).2.ret ≠ 0 ∧
      (∀ d c, r = .getPciMap (some d) c → (stackIoctl H B st r).2.ret ≠ -efault) ∧
      ∀ e ∈ (stackIoctl H B st r).2.log, ¬ e.Corrupting) ∨
    (∃ d c hl hs, r = .getPciMap (some d) c ∧ 0 ≤ H.sizeVal d ∧
      (∀ m ∈ st.maps, m.overlap d.hostPhys (H.sizeVal d).toNat = false) ∧
      (stackIoctl H B st r).1 = st.push d.hostPhys (H.sizeVal d).toNat hl hs ∧
      (stackIoctl H B st r).2.ret = (if c then 0 else -efault) ∧
      (stackIoctl H B st r).2.log = []) ∨
    (∃ d, r = .putPciMap (some d) ∧ (∃ m ∈ st.maps, m.isAt d.hostPhys = true) ∧
      (stackIoctl H B st r).1 = st.release d.hostPhys ∧ (stackIoctl H B st r).2 = ⟨0, none, []⟩) := by
  have h1 : -einval ≠ 0 ∧ -enomem ≠ 0 ∧ -efault ≠ 0 ∧ -einval ≠ -efault ∧ -enomem ≠ -efault := by decide
  cases r with
  | getPciMap desc c =>
    cases desc with
    | none => exact Or.inl ⟨rfl, h1.2.2.1, by simp, by simp [stackIoctl, stackGet]⟩
    | some d =>
      simp only [stackIoctl, stackGet]
      by_cases hneg : H.sizeVal d < 0
      · rw [if_pos hneg]
        exact Or.inl ⟨rfl, h1.1, fun _ _ _ => h1.2.2.2.1, by simp⟩
      rw [if_neg hneg]
      cases hfind : st.maps.find? (Mapping.overlap d.hostPhys (H.sizeVal d).toNat) with
      | some m => exact Or.inl ⟨rfl, h1.1, fun _ _ _ => h1.2.2.2.1, by simp [DevErr.Corrupting]⟩
      | none =>
        simp only
        by_cases hs : total Mapping.size st.maps + (H.sizeVal d).toNat ≤ T
        · rw [dif_pos hs]
          by_cases hl : st.maps.length < H.maxPciUserAllocCount
          · rw [dif_pos hl]
            refine Or.inr (Or.inl ⟨d, c, hl, hs, rfl, by omega, fun m hm => ?_, rfl, ?_, ?_⟩)
            · simpa using List.find?_eq_none.mp hfind m hm
            · cases c <;> rfl
            · cases c <;> rfl
          · rw [dif_neg hl]
            exact Or.inl ⟨rfl, h1.2.1, fun _ _ _ => h1.2.2.2.2, by simp [DevErr.Corrupting]⟩
        · rw [dif_neg hs]
          exact Or.inl ⟨rfl, h1.2.1, fun _ _ _ => h1.2.2.2.2, by simp [DevErr.Corrupting]⟩
  | putPciMap desc =>
    cases desc with
    | none => exact Or.inl ⟨rfl, h1.2.2.1, by simp, by simp [stackIoctl, stackPut]⟩
    | some d =>
      simp only [stackIoctl, stackPut]
      by_cases hany : st.maps.any (Mapping.isAt d.hostPhys) = true
      · rw [if_pos hany]
        exact Or.inr (Or.inr ⟨d, rfl, List.any_eq_true.mp hany, rfl, rfl⟩)
      · rw [if_neg hany]
        exact Or.inl ⟨rfl, h1.2.2.1, by simp, by simp [DevErr.Corrupting]⟩

end Abstract

/-- What the driver relies on of the window it is given: it lies below 4 GiB,
and either the member `size` is signed, as the driver's test on it presumes,
or the window is smaller than what an `int` holds. -/
structure HostIf.Fits (H : HostIf) (B T : ℕ) : Prop where
  below : B + T < 2 ^ 32
  size : H.sizeSigned = true ∨ T < 2 ^ 31

theorem HostIf.sizeVal_lt (H : HostIf) (d : MemStrtAddr) : H.sizeVal d < 2 ^ 32 := by
  have h1 := d.size.isLt
  have h2 : d.size.toInt < 2 ^ 31 := BitVec.toInt_lt
  unfold HostIf.sizeVal
  split <;> omega

theorem HostIf.Fits.sizeVal_lt {H : HostIf} {B T : ℕ} (hf : H.Fits B T) {d : MemStrtAddr}
    (h : H.sizeVal d ≤ T) : H.sizeVal d < 2 ^ 31 := by
  rcases hf.size with hs | hT
  · have h2 : d.size.toInt < 2 ^ 31 := BitVec.toInt_lt
    simp only [HostIf.sizeVal, hs, ↓reduceIte]
    omega
  · omega

/-! ### The driver's state represents a stack -/

/-- The registers of the window of a mapping of `size` bytes at modem address
`addr`. -/
def winOf (addr : ℕ) (m : Mapping) : IatuWin where
  lowerBase := toU32 addr
  upperBase := toU32 ((addr : ℤ) / 2 ^ 32)
  limit := toU32 (toU64 ((addr : ℤ) + m.size - 1))
  lowerTarget := toU32 m.host.toNat
  upperTarget := toU32 ((m.host.toNat : ℤ) / 2 ^ 32)
  enable := true

/-- The allocator's blocks, sums and iATU entries are those of the mappings
`ms`; `pciAllocCnt` is left out, the collection loop updates it at its end. -/
structure Holds (B T : ℕ) (al : GulPciAllocator) (ms : List Mapping) : Prop where
  cb : ∀ i m, ms[i]? = some m →
    al.cbs i = ⟨(B + start Mapping.size ms i : ℕ), m.host.toNat, m.size, m.live, i⟩
  addr : al.pciAllocAddr = (B + total Mapping.size ms : ℕ)
  avail : al.pciAvailSpace = (T : ℤ) - total Mapping.size ms
  tot : al.pciTotalSpace = T
  map : ∀ j, al.iatuIdxMap j = decide (j < ms.length)

/-- The driver's state represents the stack `st`. -/
structure Rel (H : HostIf) (B : ℕ) {T : ℕ} (dev : GulIpcDev) (st : Stack H T) : Prop where
  holds : Holds B T dev.pciAllocator st.maps
  cnt : dev.pciAllocator.pciAllocCnt = st.maps.length
  win : ∀ i m, st.maps[i]? = some m →
    dev.iatu (H.gulObWinHugePageBufs + i) = winOf (B + start Mapping.size st.maps i) m

/-! ### The loops -/

/-- The search for a free entry stops at the first one. -/
theorem iatuIdxLoop_eq (map : ℕ → Bool) (c : ℕ) (hc : map c = false) :
    ∀ n idx, idx ≤ c → c < idx + n → (∀ j, idx ≤ j → j < c → map j = true) →
      iatuIdxLoop map idx n = some c
  | 0, idx, h1, h2, _ => by omega
  | n + 1, idx, h1, h2, h => by
    rw [iatuIdxLoop]
    rcases Nat.eq_or_lt_of_le h1 with rfl | hlt
    · rw [if_pos hc]
    · rw [if_neg (by simp [h idx le_rfl hlt])]
      exact iatuIdxLoop_eq map c hc n (idx + 1) hlt (by omega) fun j hj => h j (by omega)

/-- The search of `gul_ipc_pci_map_free` is the search for the first held
mapping of the address. -/
theorem freeLoop_eq (cbs : ℕ → GulPciAllocCb) (host : BitVec 64) :
    ∀ (ms : List Mapping) (ii : ℕ),
      (∀ i m, ms[i]? = some m → (cbs (ii + i)).hAddr = m.host.toNat ∧ (cbs (ii + i)).valid = m.live) →
      freeLoop cbs host.toNat ii ms.length = (ms.findIdx? (Mapping.isAt host)).map (ii + ·)
  | [], _, _ => rfl
  | m :: ms, ii, h => by
    have h0 := h 0 m rfl
    have ih := freeLoop_eq cbs host ms (ii + 1) fun i m' hm => by
      have := h (i + 1) m' (by simpa using hm)
      rwa [show ii + 1 + i = ii + (i + 1) by omega]
    rw [List.length_cons, freeLoop, List.findIdx?_cons, ih]
    have hiff : ((cbs ii).hAddr = (host.toNat : ℤ) ∧ (cbs ii).valid = true) ↔
        Mapping.isAt host m = true := by
      rw [Nat.add_zero] at h0
      rw [h0.1, h0.2, Mapping.isAt, decide_eq_true_iff]
      constructor
      · rintro ⟨h1, h2⟩
        exact ⟨BitVec.eq_of_toNat_eq (by exact_mod_cast h1), h2⟩
      · rintro ⟨h1, h2⟩
        exact ⟨by rw [h1], h2⟩
    by_cases hm : Mapping.isAt host m = true
    · rw [if_pos (hiff.mpr hm), if_pos hm]
      rfl
    · rw [if_neg (fun hc => hm (hiff.mp hc)), if_neg hm, Option.map_map]
      congr 1
      funext x
      simp only [Function.comp_apply]
      omega

/-- The overlap loop looks for a mapping that overlaps, held or not. -/
theorem isOverlapLoop_eq (cbs : ℕ → GulPciAllocCb) (host : BitVec 64) (size : ℕ) :
    ∀ (ms : List Mapping) (ii : ℕ),
      (∀ i m, ms[i]? = some m →
        (cbs (ii + i)).hAddr = m.host.toNat ∧ (cbs (ii + i)).size = m.size) →
      isOverlapLoop cbs host.toNat size ii ms.length =
        match ms.find? (Mapping.overlap host size) with
        | some m => (-1, [.overlapping host.toNat m.host.toNat])
        | none => (0, [])
  | [], _, _ => rfl
  | m :: ms, ii, h => by
    have h0 := h 0 m rfl
    have ih := isOverlapLoop_eq cbs host size ms (ii + 1) fun i m' hm => by
      have := h (i + 1) m' (by simpa using hm)
      rwa [show ii + 1 + i = ii + (i + 1) by omega]
    rw [Nat.add_zero] at h0
    have hov : cbOverlap (cbs ii) host.toNat size = Mapping.overlap host size m := by
      rw [Mapping.overlap, cbOverlap, cbOverlap, h0.1, h0.2]
    rw [List.length_cons, isOverlapLoop, hov, List.find?_cons]
    cases Mapping.overlap host size m with
    | true => simp [h0.1]
    | false => simpa using ih

/-! ### What the operations do to the representation -/

section Refine

variable {H : HostIf} {B T : ℕ}

theorem Holds.kill {al : GulPciAllocator} {ms : List Mapping} (h : Holds B T al ms)
    (host : BitVec 64) {ii : ℕ} (hii : ms.findIdx? (Mapping.isAt host) = some ii) :
    Holds B T { al with cbs := Function.update al.cbs ii { al.cbs ii with valid := false } }
      (killFirst (Mapping.isAt host) Mapping.kill ms) := by
  have hsz := map_size_killFirst host ms
  obtain ⟨-, hidx⟩ := List.findIdx?_eq_some_iff_findIdx_eq.mp hii
  refine ⟨fun i m hm => ?_, ?_, ?_, h.tot, fun j => ?_⟩
  · rw [getElem?_killFirst, hidx, Option.map_eq_some_iff] at hm
    obtain ⟨m0, hm0, rfl⟩ := hm
    rw [start_congr _ hsz]
    by_cases hi : ii = i
    · subst hi
      rw [if_pos rfl]
      simp only [Function.update_self, h.cb ii m0 hm0, Mapping.kill]
    · rw [if_neg hi]
      simp only [Function.update_of_ne (Ne.symm hi), h.cb i m0 hm0]
  · rw [total_congr _ hsz]; exact h.addr
  · rw [total_congr _ hsz]; exact h.avail
  · rw [length_killFirst]; exact h.map j

/-- Popping the top block. -/
theorem Holds.pop {al : GulPciAllocator} {ms : List Mapping} {m : Mapping}
    (h : Holds B T al (ms ++ [m])) (hT : total Mapping.size (ms ++ [m]) ≤ T) (hBT : B + T < 2 ^ 32) :
    Holds B T (gulPciPutIatuIdx { al with
      pciAllocAddr := (al.cbs ms.length).mAddr
      pciAvailSpace := toU32 (al.pciAvailSpace + (al.cbs ms.length).size) }
      (al.cbs ms.length).iatuIdx) ms := by
  have hcb := h.cb ms.length m (by simp)
  rw [start_append_left _ le_rfl, start_length] at hcb
  rw [total_append, total_singleton] at hT
  have hav := h.avail
  rw [total_append, total_singleton] at hav
  refine ⟨fun i m' hm' => ?_, ?_, ?_, h.tot, fun j => ?_⟩
  · have hi : i < ms.length := (List.getElem?_eq_some_iff.mp hm').1
    have := h.cb i m' (by rw [List.getElem?_append_left hi]; exact hm')
    rwa [start_append_left _ hi.le] at this
  · simp only [gulPciPutIatuIdx, hcb]
  · simp only [gulPciPutIatuIdx, hcb, hav]
    rw [toU32_of_lt] <;> push_cast <;> omega
  · simp only [gulPciPutIatuIdx, hcb, Int.toNat_natCast]
    by_cases hj : j = ms.length
    · subst hj
      simp
    · rw [Function.update_of_ne hj, h.map j, List.length_append, List.length_singleton]
      simp only [decide_eq_decide]
      omega

/-- The top block ends where the next one would start. -/
theorem Holds.top_matches {al : GulPciAllocator} {ms : List Mapping} {m : Mapping}
    (h : Holds B T al (ms ++ [m])) (hT : total Mapping.size (ms ++ [m]) ≤ T) (hBT : B + T < 2 ^ 32) :
    toU64 ((al.cbs ms.length).mAddr + (al.cbs ms.length).size) = al.pciAllocAddr := by
  have hcb := h.cb ms.length m (by simp)
  rw [start_append_left _ le_rfl, start_length] at hcb
  rw [hcb, h.addr]
  rw [total_append, total_singleton] at hT ⊢
  simp only
  rw [toU64_of_lt] <;> push_cast <;> omega

/-- The collection loop pops the blocks on hold on top and nothing else; the
branch for a top that does not match is not taken. -/
theorem freeGcLoop_eq (hBT : B + T < 2 ^ 32) (ms : List Mapping) :
    ∀ al, Holds B T al ms → total Mapping.size ms ≤ T →
      ∃ al', freeGcLoop ms.length al = ((collect Mapping.live ms).length, al', []) ∧
        Holds B T al' (collect Mapping.live ms) := by
  induction ms using List.reverseRecOn with
  | nil => exact fun al h _ => ⟨al, rfl, h⟩
  | append_singleton ms m ih =>
    intro al h hT
    have hcb := h.cb ms.length m (by simp)
    rw [List.length_append, List.length_singleton, freeGcLoop]
    cases hm : m.live with
    | true =>
      have hv : (al.cbs ms.length).valid = true := by rw [hcb, hm]
      rw [collect_concat_live _ hm]
      exact ⟨al, by simp [hv], h⟩
    | false =>
      have hv : (al.cbs ms.length).valid = false := by rw [hcb, hm]
      rw [collect_concat_dead _ hm]
      simp only [hv, Bool.false_eq_true, ↓reduceIte, h.top_matches hT hBT]
      exact ih _ (h.pop hT hBT) (by rw [total_append] at hT; omega)

theorem gulIpcPciMapFreeGc_eq (hBT : B + T < 2 ^ 32) {al : GulPciAllocator} {ms : List Mapping}
    (h : Holds B T al ms) (hT : total Mapping.size ms ≤ T) (hcnt : al.pciAllocCnt = ms.length) :
    ∃ al', gulIpcPciMapFreeGc al = (al', []) ∧ Holds B T al' (collect Mapping.live ms) ∧
      al'.pciAllocCnt = (collect Mapping.live ms).length := by
  obtain ⟨al', hgc, hal'⟩ := freeGcLoop_eq hBT ms al h hT
  refine ⟨{ al' with pciAllocCnt := (collect Mapping.live ms).length }, ?_,
    ⟨hal'.cb, hal'.addr, hal'.avail, hal'.tot, hal'.map⟩, rfl⟩
  rw [gulIpcPciMapFreeGc, hcnt, hgc]

/-- `gul_ipc_pci_map_free` gives back the lowest held mapping of the address,
or changes nothing. -/
theorem gulIpcPciMapFree_refines (hBT : B + T < 2 ^ 32) {dev : GulIpcDev} {st : Stack H T}
    (h : Rel H B dev st) (host : BitVec 64) :
    if st.maps.any (Mapping.isAt host) then
      ∃ dev', gulIpcPciMapFree dev host.toNat = (dev', 0, []) ∧ Rel H B dev' (st.release host)
    else gulIpcPciMapFree dev host.toNat = (dev, -1, [.invalidAddr host.toNat]) := by
  have hloop : freeLoop dev.pciAllocator.cbs host.toNat 0 dev.pciAllocator.pciAllocCnt =
      st.maps.findIdx? (Mapping.isAt host) := by
    rw [h.cnt, freeLoop_eq _ host st.maps 0 fun i m hm => by
      rw [Nat.zero_add, h.holds.cb i m hm]; exact ⟨rfl, rfl⟩]
    simp
  cases hf : st.maps.findIdx? (Mapping.isAt host) with
  | none =>
    have hany : st.maps.any (Mapping.isAt host) = false := by
      rw [← Bool.not_eq_true, ← List.findIdx?_isSome, hf]; simp
    rw [if_neg (by simp [hany]), gulIpcPciMapFree]
    simp only [hloop, hf]
  | some ii =>
    have hany : st.maps.any (Mapping.isAt host) = true := by rw [← List.findIdx?_isSome, hf]; rfl
    rw [if_pos hany]
    have hk := h.holds.kill host hf
    have hT : total Mapping.size (killFirst (Mapping.isAt host) Mapping.kill st.maps) ≤ T := by
      rw [total_congr _ (map_size_killFirst host st.maps)]; exact st.total_le
    obtain ⟨al', hgc, hal', hcnt⟩ := gulIpcPciMapFreeGc_eq hBT hk hT
      (by rw [length_killFirst]; exact h.cnt)
    refine ⟨{ dev with pciAllocator := al' }, ?_, ⟨hal', hcnt, fun i m hm => ?_⟩⟩
    · rw [gulIpcPciMapFree]
      simp only [hloop, hf, hgc]
    · -- a block that stays keeps its place, so its window is still the one programmed for it
      obtain ⟨m0, hm0, hh, hs, hst⟩ := st.release_getElem? host hm
      rw [hst, h.win i m0 hm0, winOf, winOf, hh, hs]

theorem gulIpcPciMapAlloc_insufficient {dev : GulIpcDev} {st : Stack H T} (h : Rel H B dev st)
    (hAddr : ℤ) {v : ℕ} (hv : v < 2 ^ 32) (hT : ¬ total Mapping.size st.maps + v ≤ T) :
    gulIpcPciMapAlloc H dev hAddr (toS32 v) = (dev, ⟨-1, 0, [.insufficientSpace]⟩) := by
  have hav := h.holds.avail
  rw [gulIpcPciMapAlloc]
  simp only [toU32_toS32]
  rw [toU32_of_lt (by omega) (by exact_mod_cast hv), if_pos (by omega)]

theorem gulIpcPciMapAlloc_maximum {dev : GulIpcDev} {st : Stack H T} (h : Rel H B dev st)
    (hAddr : ℤ) {v : ℕ} (hv : v < 2 ^ 32) (hT : total Mapping.size st.maps + v ≤ T)
    (hl : ¬ st.maps.length < H.maxPciUserAllocCount) :
    gulIpcPciMapAlloc H dev hAddr (toS32 v) =
      (dev, ⟨-1, 0, [.maximumAllocations st.maps.length]⟩) := by
  have hav := h.holds.avail
  have hcnt := h.cnt
  rw [gulIpcPciMapAlloc]
  simp only [toU32_toS32]
  rw [toU32_of_lt (by omega) (by exact_mod_cast hv), if_neg (by omega), if_pos (by omega), hcnt]

/-- Below the number of control blocks there is a free iATU entry: the one
with the new block's position. -/
theorem gulPciGetIatuIdx_eq (al : GulPciAllocator) (n : ℕ)
    (hmap : ∀ j, al.iatuIdxMap j = decide (j < n)) (hl : n < H.maxPciUserAllocCount) :
    gulPciGetIatuIdx H al =
      ({ al with iatuIdxMap := Function.update al.iatuIdxMap n true }, (n : ℤ)) := by
  rw [gulPciGetIatuIdx, iatuIdxLoop_eq al.iatuIdxMap n (by simp [hmap]) _ 0 (Nat.zero_le _)
    (by omega) fun j _ hj => by simp [hmap, hj]]

/-- The allocator with a new mapping of `v` bytes on top. -/
def pushed (al : GulPciAllocator) (n : ℕ) (addr hAddr v : ℤ) : GulPciAllocator :=
  { al with
    pciAvailSpace := toU32 (al.pciAvailSpace - v)
    pciAllocAddr := toU64 (al.pciAllocAddr + v)
    pciAllocCnt := n + 1
    cbs := Function.update al.cbs n ⟨addr, hAddr, v, true, n⟩
    iatuIdxMap := Function.update al.iatuIdxMap n true }

theorem Holds.push {al : GulPciAllocator} {ms : List Mapping} (h : Holds B T al ms)
    (hBT : B + T < 2 ^ 32) (host : BitVec 64) {v : ℕ} (hT : total Mapping.size ms + v ≤ T) :
    Holds B T (pushed al ms.length (B + total Mapping.size ms : ℕ) host.toNat v)
      (ms ++ [⟨host, v, true⟩]) := by
  refine ⟨fun i m hm => ?_, ?_, ?_, h.tot, fun j => ?_⟩
  · rcases getElem?_concat_cases hm with ⟨hi, hm⟩ | ⟨rfl, rfl⟩
    · simp only [pushed, Function.update_of_ne hi.ne, h.cb i m hm, start_append_left _ hi.le]
    · simp only [pushed, Function.update_self, start_append_left _ le_rfl, start_length]
  · simp only [pushed, h.addr, total_append, total_singleton]
    rw [toU64_of_lt] <;> push_cast <;> omega
  · simp only [pushed, h.avail, total_append, total_singleton]
    rw [toU32_of_lt] <;> push_cast <;> omega
  · simp only [pushed, List.length_append, List.length_singleton]
    by_cases hj : j = ms.length
    · subst hj
      simp
    · rw [Function.update_of_ne hj, h.map j, decide_eq_decide]
      omega

/-- With space and a control block left, the new mapping goes on top; the
branch without an iATU entry is not taken. -/
theorem gulIpcPciMapAlloc_push {dev : GulIpcDev} {st : Stack H T} (hBT : B + T < 2 ^ 32)
    (h : Rel H B dev st) (host : BitVec 64) {v : ℕ} (hv : v < 2 ^ 31)
    (hT : total Mapping.size st.maps + v ≤ T) (hl : st.maps.length < H.maxPciUserAllocCount) :
    ∃ dev', gulIpcPciMapAlloc H dev host.toNat (toS32 v) =
        (dev', ⟨0, (B + total Mapping.size st.maps : ℕ), []⟩) ∧ Rel H B dev' (st.push host v hl hT) := by
  have hav := h.holds.avail
  have hcnt := h.cnt
  have hs : toS32 (v : ℤ) = v := toS32_of_lt (by omega) (by exact_mod_cast hv)
  have hu : toU32 (v : ℤ) = v := toU32_of_lt (by omega) (by omega)
  have haddr : toU32 dev.pciAllocator.pciAllocAddr = (B + total Mapping.size st.maps : ℕ) := by
    rw [h.holds.addr, toU32_of_lt] <;> omega
  set addr : ℕ := B + total Mapping.size st.maps
  refine ⟨gulIpcCreateHugepageOutbound
      { dev with pciAllocator := pushed dev.pciAllocator st.maps.length addr host.toNat v }
      (H.gulObWinHugePageBufs + st.maps.length) host.toNat addr v,
    ?_, ⟨h.holds.push hBT host hT, ?_, fun i m hm => ?_⟩⟩
  · rw [gulIpcPciMapAlloc]
    simp only [hs]
    rw [hu, if_neg (by omega), if_neg (by omega), gulPciGetIatuIdx_eq _ st.maps.length (by exact h.holds.map) hl]
    simp only [haddr]
    rw [if_neg (by omega), hcnt]
    rfl
  · simp [gulIpcCreateHugepageOutbound, pushed, Stack.push]
  · simp only [gulIpcCreateHugepageOutbound, lsPcieIatuOutboundSet, hu]
    simp only [Stack.push] at hm ⊢
    rcases getElem?_concat_cases hm with ⟨hi, hm⟩ | ⟨rfl, rfl⟩
    · rw [Function.update_of_ne (by omega), start_append_left _ hi.le, h.win i m hm]
    · rw [Function.update_self, start_append_left _ le_rfl, start_length]
      rfl

theorem getPciMap_refines (hf : H.Fits B T) {dev : GulIpcDev} {st : Stack H T} (h : Rel H B dev st)
    (desc : Option MemStrtAddr) (copyOut : Bool) :
    Rel H B (getPciMap H dev desc copyOut).1 (stackGet H B st desc copyOut).1 ∧
      (getPciMap H dev desc copyOut).2 = (stackGet H B st desc copyOut).2 := by
  cases desc with
  | none => exact ⟨h, rfl⟩
  | some d =>
    by_cases hneg : H.sizeVal d < 0
    · simp only [getPciMap, stackGet, hneg, ↓reduceIte]
      exact ⟨h, trivial⟩
    obtain ⟨v, hv⟩ : ∃ v : ℕ, H.sizeVal d = v := ⟨(H.sizeVal d).toNat, by omega⟩
    have hv32 : v < 2 ^ 32 := by have := H.sizeVal_lt d; omega
    have hov : gulIpcPciMapIsOverlap dev.pciAllocator d.hostPhys.toNat (toU32 (H.sizeVal d)) =
        match st.maps.find? (Mapping.overlap d.hostPhys v) with
        | some m => (-1, [.overlapping d.hostPhys.toNat m.host.toNat])
        | none => (0, []) := by
      rw [gulIpcPciMapIsOverlap, h.cnt, hv, toU32_of_lt (by omega) (by exact_mod_cast hv32)]
      refine isOverlapLoop_eq _ _ _ st.maps 0 fun i m hm => ?_
      rw [Nat.zero_add, h.holds.cb i m hm]
      exact ⟨rfl, rfl⟩
    have htn : (H.sizeVal d).toNat = v := by omega
    simp only [getPciMap, stackGet, hneg, ↓reduceIte, hov, htn]
    cases hfind : st.maps.find? (Mapping.overlap d.hostPhys v) with
    | some m => exact ⟨h, rfl⟩
    | none =>
      simp only [Int.lt_irrefl, ↓reduceIte, hv]
      by_cases hs : total Mapping.size st.maps + v ≤ T
      · by_cases hl : st.maps.length < H.maxPciUserAllocCount
        · have hv31 : v < 2 ^ 31 := by have := hf.sizeVal_lt (d := d) (by omega); omega
          obtain ⟨dev', halloc, hrel⟩ := gulIpcPciMapAlloc_push hf.below h d.hostPhys hv31 hs hl
          simp only [halloc, Int.lt_irrefl, ↓reduceIte, hs, hl, ↓reduceDIte]
          cases copyOut <;> exact ⟨hrel, rfl⟩
        · rw [gulIpcPciMapAlloc_maximum h _ hv32 hs hl]
          simp only [hs, hl, ↓reduceDIte]
          exact ⟨h, rfl⟩
      · rw [gulIpcPciMapAlloc_insufficient h _ hv32 hs]
        simp only [hs, ↓reduceDIte]
        exact ⟨h, rfl⟩

theorem putPciMap_refines (hf : H.Fits B T) {dev : GulIpcDev} {st : Stack H T} (h : Rel H B dev st)
    (desc : Option MemStrtAddr) :
    Rel H B (putPciMap dev desc).1 (stackPut H st desc).1 ∧
      (putPciMap dev desc).2 = (stackPut H st desc).2 := by
  cases desc with
  | none => exact ⟨h, rfl⟩
  | some d =>
    have hfree := gulIpcPciMapFree_refines hf.below h d.hostPhys
    by_cases hany : st.maps.any (Mapping.isAt d.hostPhys) = true
    · rw [if_pos hany] at hfree
      obtain ⟨dev', hd, hrel⟩ := hfree
      rw [putPciMap, stackPut, hd, if_pos hany]
      exact ⟨hrel, rfl⟩
    · rw [if_neg hany] at hfree
      rw [putPciMap, stackPut, hfree, if_neg hany]
      exact ⟨h, rfl⟩

/-- **Every request acts on the driver's state as on the stack**, and the
driver answers what the stack answers. -/
theorem ioctl_refines (hf : H.Fits B T) {dev : GulIpcDev} {st : Stack H T} (h : Rel H B dev st)
    (r : PciReq) :
    Rel H B (gulIpcIoctl H dev r).1 (stackIoctl H B st r).1 ∧
      (gulIpcIoctl H dev r).2 = (stackIoctl H B st r).2 := by
  cases r with
  | getPciMap desc copyOut => exact getPciMap_refines hf h desc copyOut
  | putPciMap desc => exact putPciMap_refines hf h desc

/-- The first modem address of the window. -/
def HostMemRegion.base (r : HostMemRegion) : ℕ := r.modPhysH.toNat * 2 ^ 32 + r.modPhysL.toNat

/-- The size of the window. -/
def HostMemRegion.len (r : HostMemRegion) : ℕ := r.sizeL.toNat

/-- The fresh allocator is the empty stack. -/
theorem setup_rel (H : HostIf) (dev : GulIpcDev) (r : HostMemRegion) :
    Rel H r.base (gulSetupPciSpace dev r) (Stack.empty H r.len) := by
  refine ⟨⟨fun i m hm => ?_, ?_, ?_, rfl, fun j => ?_⟩, rfl, fun i m hm => ?_⟩
  · simp [Stack.empty] at hm
  · simp [gulSetupPciSpace, Stack.empty, HostMemRegion.base]
  · simp [gulSetupPciSpace, Stack.empty, HostMemRegion.len]
  · simp [gulSetupPciSpace, Stack.empty]
  · simp [Stack.empty] at hm

/-- After any run the driver's state represents the stack the same run
leaves. -/
theorem run_rel {r : HostMemRegion} (hf : H.Fits r.base r.len) (dev : GulIpcDev) (rs : List PciReq) :
    Rel H r.base (exec (gulIpcIoctl H) (gulSetupPciSpace dev r) rs)
      (exec (stackIoctl H r.base) (Stack.empty H r.len) rs) :=
  exec_rel (R := fun dev st => Rel H r.base dev st) (fun _ _ i h => (ioctl_refines hf h i).1) rs
    (setup_rel H dev r)

end Refine

end Ipc
end La12xx
