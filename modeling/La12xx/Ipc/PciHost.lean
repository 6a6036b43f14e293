/-
# Host ranges and the space given back

Two questions about whole runs of mapping requests.

May two mappings share host memory? `gul_ipc_pci_map_is_overlap` compares
the end points of the new range with an existing one, both times strictly
inside it, so a request that covers a whole block is not noticed, nor is one
that meets a block whose end wraps to 0 (`cbOverlap_or_disjoint_iff`). In a
run without such requests the ranges stay disjoint, and a request of that
kind, once accepted, breaks it (`host_ranges_exclusive`).

Is all space given back? A live mapping more on the stack is a successful
GET more or a successful PUT less, and a stack without live mappings is
empty; so when the successful GETs and PUTs match, the allocator is as new,
unless a GET failed only when its answer was copied back, after the mapping
was made (`space_restored_iff`).
-/
import La12xx.Ipc.PciInv

namespace La12xx
namespace Ipc

open LazyStack Machine

/-! ### Host ranges -/

/-- The host range of a control block. -/
def GulPciAllocCb.hostRange (cb : GulPciAllocCb) : Set ℤ := Set.Ico cb.hAddr (cb.hAddr + cb.size)

/-- Two different valid blocks of non-zero size share no host address. -/
def Exclusive (al : GulPciAllocator) : Prop :=
  ∀ i < al.pciAllocCnt, ∀ j < al.pciAllocCnt, i ≠ j →
    (al.cbs i).valid = true → (al.cbs j).valid = true → 0 < (al.cbs i).size → 0 < (al.cbs j).size →
    Disjoint (al.cbs i).hostRange (al.cbs j).hostRange

/-- The range `[addr, addr + size)` covers the block, or it meets the block
and the block reaches the end of the 64-bit addresses. -/
def Missed (cb : GulPciAllocCb) (addr size : ℤ) : Prop :=
  (addr ≤ cb.hAddr ∧ cb.hAddr + cb.size ≤ addr + size) ∨
    (2 ^ 64 ≤ cb.hAddr + cb.size ∧ cb.hAddr < addr + size)

theorem disjoint_Ico_iff {a b c d : ℤ} (h1 : a < b) (h2 : c < d) :
    Disjoint (Set.Ico a b) (Set.Ico c d) ↔ b ≤ c ∨ d ≤ a := by
  rw [Set.Ico_disjoint_Ico]
  omega

/-- **What the overlap test notices.** For non-empty ranges, the test on a
block fires or the ranges are disjoint, except for the kinds `Missed` names. -/
theorem cbOverlap_or_disjoint_iff (cb : GulPciAllocCb) (addr size : ℤ)
    (h0 : 0 ≤ cb.hAddr) (h1 : cb.hAddr < 2 ^ 64) (h2 : 0 < cb.size) (h3 : cb.size < 2 ^ 32)
    (h4 : 0 ≤ addr) (h5 : addr < 2 ^ 64) (h6 : 0 < size) (h7 : size < 2 ^ 32) :
    (cbOverlap cb addr size = true ∨ Disjoint cb.hostRange (Set.Ico addr (addr + size))) ↔
      ¬ Missed cb addr size := by
  rw [GulPciAllocCb.hostRange, disjoint_Ico_iff (by omega) (by omega), cbOverlap, decide_eq_true_iff,
    Missed, toU64, toU64]
  omega

/-- Mappings of a stack share no host address. -/
def Apart (m m' : Mapping) : Prop :=
  m.live = true → m'.live = true → 0 < m.size → 0 < m'.size →
    Disjoint (Set.Ico (m.host.toNat : ℤ) (m.host.toNat + m.size))
      (Set.Ico (m'.host.toNat : ℤ) (m'.host.toNat + m'.size))

section Rel

variable {H : HostIf} {B T : ℕ} {dev : GulIpcDev} {st : Stack H T}

theorem Rel.exclusive_iff (h : Rel H B dev st) :
    Exclusive dev.pciAllocator ↔ st.maps.Pairwise Apart := by
  rw [List.pairwise_iff_getElem]
  constructor
  · intro he i j hi hj hij hl hl' hs hs'
    have hci := h.holds.cb i _ (List.getElem?_eq_getElem hi)
    have hcj := h.holds.cb j _ (List.getElem?_eq_getElem hj)
    have := he i (by rw [h.cnt]; exact hi) j (by rw [h.cnt]; exact hj) hij.ne
    rw [hci, hcj] at this
    exact this hl hl' (Int.natCast_pos.mpr hs) (Int.natCast_pos.mpr hs')
  · intro hp i hi j hj hij hl hl' hs hs'
    rw [h.cnt] at hi hj
    have hci := h.holds.cb i _ (List.getElem?_eq_getElem hi)
    have hcj := h.holds.cb j _ (List.getElem?_eq_getElem hj)
    rw [hci] at hl hs ⊢
    rw [hcj] at hl' hs' ⊢
    rcases Nat.lt_or_gt_of_ne hij with hlt | hlt
    · exact hp i j hi hj hlt hl hl' (Int.natCast_pos.mp hs) (Int.natCast_pos.mp hs')
    · exact (hp j i hj hi hlt hl' hl (Int.natCast_pos.mp hs') (Int.natCast_pos.mp hs)).symm

end Rel

theorem Stack.release_apart {H : HostIf} {T : ℕ} {st : Stack H T} (h : st.maps.Pairwise Apart)
    (host : BitVec 64) : (st.release host).maps.Pairwise Apart := by
  have hk : (killFirst (Mapping.isAt host) Mapping.kill st.maps).Pairwise Apart :=
    pairwise_killFirst _ _ (fun _ _ _ hl => absurd hl (by simp [Mapping.kill]))
      (fun _ _ _ _ hl => absurd hl (by simp [Mapping.kill])) _ h
  exact hk.sublist (collect_isPrefix _ _).sublist

/-- The request does not miss a valid block: it is empty, or no valid block
of non-zero size is of a kind its overlap test misses. -/
def GetSafe (H : HostIf) (dev : GulIpcDev) : PciReq → Prop
  | .getPciMap (some d) _ => 0 < H.sizeVal d → ∀ i < dev.pciAllocator.pciAllocCnt,
      (dev.pciAllocator.cbs i).valid = true → 0 < (dev.pciAllocator.cbs i).size →
        ¬ Missed (dev.pciAllocator.cbs i) d.hostPhys.toNat (H.sizeVal d)
  | _ => True

section Step

variable {H : HostIf} {B T : ℕ} {dev : GulIpcDev} {st : Stack H T}

/-- An accepted request is apart from every mapping exactly if it misses no
valid block. -/
theorem Rel.apart_iff_getSafe (hf : H.Fits B T) (h : Rel H B dev st) {d : MemStrtAddr} {c : Bool}
    (hpos : 0 < H.sizeVal d)
    (hov : ∀ m ∈ st.maps, m.overlap d.hostPhys (H.sizeVal d).toNat = false) :
    (∀ m ∈ st.maps, Apart m ⟨d.hostPhys, (H.sizeVal d).toNat, true⟩) ↔
      GetSafe H dev (.getPciMap (some d) c) := by
  have hv := H.sizeVal_lt d
  have hd := d.hostPhys.isLt
  have hsz : ∀ m ∈ st.maps, m.size < 2 ^ 32 := by
    intro m hm
    obtain ⟨i, hi, rfl⟩ := List.getElem_of_mem hm
    have := start_le_total Mapping.size hi
    have := st.total_le
    have := hf.below
    omega
  have hcast : ((H.sizeVal d).toNat : ℤ) = H.sizeVal d := by omega
  have key : ∀ i m, st.maps[i]? = some m → 0 < m.size →
      (Disjoint (Set.Ico (m.host.toNat : ℤ) (m.host.toNat + m.size))
        (Set.Ico (d.hostPhys.toNat : ℤ) (d.hostPhys.toNat + H.sizeVal d)) ↔
      ¬ Missed (dev.pciAllocator.cbs i) d.hostPhys.toNat (H.sizeVal d)) := by
    intro i m hm hm0
    have hmem := List.mem_of_getElem? hm
    have hh := m.host.isLt
    have hsz' := hsz m hmem
    have hno := hov m hmem
    rw [Mapping.overlap, hcast] at hno
    rw [h.holds.cb i m hm]
    have hiff := cbOverlap_or_disjoint_iff
      ⟨(B + start Mapping.size st.maps i : ℕ), m.host.toNat, m.size, m.live, i⟩
      d.hostPhys.toNat (H.sizeVal d) (by simp) (by simp only; omega)
      (by simpa using hm0) (by simp only; omega) (by omega) (by omega) hpos hv
    rw [← hiff]
    constructor
    · exact Or.inr
    · rintro (ho | hd)
      · exact absurd (show cbOverlap ⟨0, m.host.toNat, m.size, m.live, 0⟩ d.hostPhys.toNat (H.sizeVal d) = true
          from ho) (by simp [hno])
      · exact hd
  constructor
  · intro hap _ i hi hval hs
    rw [h.cnt] at hi
    have hm := List.getElem?_eq_getElem hi
    rw [h.holds.cb i _ hm] at hval hs
    have hs' : 0 < st.maps[i].size := Int.natCast_pos.mp hs
    rw [← key i _ hm hs']
    have := hap _ (List.getElem_mem hi) hval rfl hs' (show 0 < (H.sizeVal d).toNat by omega)
    rwa [hcast] at this
  · intro hsafe m hm hl _ hs _
    obtain ⟨i, hi, rfl⟩ := List.getElem_of_mem hm
    have hm' := List.getElem?_eq_getElem hi
    have hcb := h.holds.cb i _ hm'
    simp only
    rw [hcast, key i _ hm' hs]
    exact hsafe hpos i (by rw [h.cnt]; exact hi) (by rw [hcb]; exact hl) (by rw [hcb]; exact Int.natCast_pos.mpr hs)

/-- A request that misses no valid block keeps the host ranges apart. -/
theorem Rel.exclusive_step (hf : H.Fits B T) (h : Rel H B dev st) (he : st.maps.Pairwise Apart)
    (r : PciReq) (hg : GetSafe H dev r) : (stackIoctl H B st r).1.maps.Pairwise Apart := by
  rcases stackIoctl_cases (B := B) st r with ⟨h1, -⟩ | ⟨d, c, hl, hs, rfl, hv, hov, h1, -⟩ | ⟨d, -, -, h1, -⟩
  · rw [h1]; exact he
  · rw [h1]
    refine List.pairwise_append.mpr ⟨he, List.pairwise_singleton _ _, fun m hm m' hm' => ?_⟩
    obtain rfl := List.mem_singleton.mp hm'
    rcases hv.eq_or_lt with h0 | hpos
    · intro _ _ _ h'
      simp [← h0] at h'
    · exact (h.apart_iff_getSafe hf hpos hov).mpr hg m hm
  · rw [h1]; exact Stack.release_apart he _

end Step

/-- Valid blocks of non-zero size with one host address are one block. -/
theorem Exclusive.host_inj {al : GulPciAllocator} (h : Exclusive al) {i j : ℕ}
    (hi : i < al.pciAllocCnt) (hj : j < al.pciAllocCnt) (hvi : (al.cbs i).valid = true)
    (hvj : (al.cbs j).valid = true) (hsi : 0 < (al.cbs i).size) (hsj : 0 < (al.cbs j).size)
    (heq : (al.cbs i).hAddr = (al.cbs j).hAddr) : i = j := by
  by_contra hne
  have hd := h i hi j hj hne hvi hvj hsi hsj
  rw [GulPciAllocCb.hostRange, GulPciAllocCb.hostRange, disjoint_Ico_iff (by omega) (by omega)] at hd
  omega

/-- **Host ranges stay apart** in every run whose requests miss no valid
block, so there a host address names one mapping; and this is exact: from a
state with the ranges apart, an accepted request of non-zero size leaves
them apart only if it misses no valid block. -/
theorem host_ranges_exclusive (H : HostIf) (dev : GulIpcDev) (r : HostMemRegion)
    (hf : H.Fits r.base r.len) (rs : List PciReq) :
    let s := exec (gulIpcIoctl H) (gulSetupPciSpace dev r) rs
    (Guarded (gulIpcIoctl H) (GetSafe H) (gulSetupPciSpace dev r) rs →
      Exclusive s.pciAllocator ∧
      ∀ i < s.pciAllocator.pciAllocCnt, ∀ j < s.pciAllocator.pciAllocCnt,
        (s.pciAllocator.cbs i).valid = true → (s.pciAllocator.cbs j).valid = true →
        0 < (s.pciAllocator.cbs i).size → 0 < (s.pciAllocator.cbs j).size →
        (s.pciAllocator.cbs i).hAddr = (s.pciAllocator.cbs j).hAddr → i = j) ∧
    ∀ d c, Exclusive s.pciAllocator → 0 < H.sizeVal d →
      (gulIpcIoctl H s (.getPciMap (some d) c)).1.pciAllocator.pciAllocCnt =
        s.pciAllocator.pciAllocCnt + 1 →
      (Exclusive (gulIpcIoctl H s (.getPciMap (some d) c)).1.pciAllocator ↔
        GetSafe H s (.getPciMap (some d) c)) := by
  intro s
  have hrel : Rel H r.base s _ := run_rel hf dev rs
  refine ⟨fun hg => ?_, fun d c he hpos hacc => ?_⟩
  · -- the invariant: the state represents a stack whose mappings are apart
    have hinv : ∃ st : Stack H r.len, Rel H r.base s st ∧ st.maps.Pairwise Apart :=
      exec_inv_of_guarded (I := fun s => ∃ st : Stack H r.len, Rel H r.base s st ∧ st.maps.Pairwise Apart)
        (fun _ i ⟨st, h, he⟩ hg => ⟨_, (ioctl_refines hf h i).1, h.exclusive_step hf he i hg⟩) rs
        ⟨Stack.empty H r.len, setup_rel H dev r, List.Pairwise.nil⟩ hg
    obtain ⟨st, h, hp⟩ := hinv
    have hex := h.exclusive_iff.mpr hp
    exact ⟨hex, fun i hi j hj => hex.host_inj hi hj⟩
  · set st := exec (stackIoctl H r.base) (Stack.empty H r.len) rs
    have hnext := (ioctl_refines hf hrel (.getPciMap (some d) c)).1
    rw [hnext.exclusive_iff]
    rw [hnext.cnt, hrel.cnt] at hacc
    have hp := hrel.exclusive_iff.mp he
    rcases stackIoctl_cases (B := r.base) st (.getPciMap (some d) c) with
      ⟨h1, -⟩ | ⟨d', c', hl, hs, hr, -, hov, h1, -⟩ | ⟨d', hr, -⟩
    · rw [h1] at hacc
      omega
    · obtain ⟨rfl, rfl⟩ : d = d' ∧ c = c' := by simpa using hr
      rw [h1, ← hrel.apart_iff_getSafe hf hpos hov]
      simp only [Stack.push, List.pairwise_append, hp, List.pairwise_singleton, true_and,
        List.mem_singleton, forall_eq]
    · cases hr

/-- The same host range mapped twice. -/
theorem host_ranges_shared : (HostIf.mk 16 8 true).Fits 0xa0000000 0x10000000 ∧
    ¬ Exclusive (exec (gulIpcIoctl ⟨16, 8, true⟩) (gulSetupPciSpace default ⟨0xa0000000, 0, 0x10000000⟩)
      [.getPciMap (some ⟨0x80000000, 0, 0x1000⟩) true,
        .getPciMap (some ⟨0x80000000, 0, 0x1000⟩) true]).pciAllocator := by
  refine ⟨⟨by decide, Or.inl rfl⟩, fun h => ?_⟩
  exact absurd (h.host_inj (i := 0) (j := 1) (by decide) (by decide) (by decide) (by decide) (by decide)
    (by decide) (by decide)) (by decide)

/-- Two neighbouring host ranges are mapped and stay apart. -/
theorem host_ranges_exclusive_neighbours :
    Exclusive (exec (gulIpcIoctl ⟨16, 8, true⟩) (gulSetupPciSpace default ⟨0xa0000000, 0, 0x10000000⟩)
      [.getPciMap (some ⟨0x80000000, 0, 0x1000⟩) true,
        .getPciMap (some ⟨0x80001000, 0, 0x1000⟩) true]).pciAllocator := by
  refine ((host_ranges_exclusive ⟨16, 8, true⟩ default ⟨0xa0000000, 0, 0x10000000⟩
    ⟨by decide, Or.inl rfl⟩ [.getPciMap (some ⟨0x80000000, 0, 0x1000⟩) true,
      .getPciMap (some ⟨0x80001000, 0, 0x1000⟩) true]).1
    ⟨fun _ i hi => ?_, fun _ i hi _ _ => ?_, trivial⟩).1
  · exact absurd hi (Nat.not_lt_zero i)
  · have h1 : i < 1 := hi
    obtain rfl : i = 0 := by omega
    unfold Missed
    decide

/-! ### Space given back -/

/-- The host address of a GET that returned 0. -/
def getKey : PciReq × IoctlOut → Option (BitVec 64)
  | (.getPciMap (some d) _, o) => if o.ret = 0 then some d.hostPhys else none
  | (.getPciMap none _, _) => none
  | (.putPciMap _, _) => none

/-- The host address of a PUT that returned 0. -/
def putKey : PciReq × IoctlOut → Option (BitVec 64)
  | (.putPciMap (some d), o) => if o.ret = 0 then some d.hostPhys else none
  | (.putPciMap none, _) => none
  | (.getPciMap _ _, _) => none

/-- The host address of a GET whose request was read and that returned
`-EFAULT`. -/
def lostKey : PciReq × IoctlOut → Option (BitVec 64)
  | (.getPciMap (some d) _, o) => if o.ret = -efault then some d.hostPhys else none
  | (.getPciMap none _, _) => none
  | (.putPciMap _, _) => none

/-- The host addresses of the requests of a run that `f` selects. -/
def keys (f : PciReq × IoctlOut → Option (BitVec 64)) (l : List (PciReq × IoctlOut)) :
    Multiset (BitVec 64) := (l.filterMap f : List (BitVec 64))

theorem keys_cons (f : PciReq × IoctlOut → Option (BitVec 64)) (p : PciReq × IoctlOut)
    (l : List (PciReq × IoctlOut)) : keys f (p :: l) = keys f [p] + keys f l := by
  rw [keys, keys, keys, Multiset.coe_add, ← List.filterMap_append]
  rfl

theorem keys_singleton (f : PciReq × IoctlOut → Option (BitVec 64)) (p : PciReq × IoctlOut) :
    keys f [p] = ((f p).toList : Multiset (BitVec 64)) := by
  rw [keys, List.filterMap_cons]
  cases f p <;> rfl

/-- The copy of the answer to user space does not fail for a request that has
made its mapping. -/
def CopyOutOk (H : HostIf) (dev : GulIpcDev) : PciReq → Prop
  | .getPciMap (some d) false => H.sizeVal d < 0 ∨
      (gulIpcPciMapIsOverlap dev.pciAllocator d.hostPhys.toNat (toU32 (H.sizeVal d))).1 < 0 ∨
      (gulIpcPciMapAlloc H dev d.hostPhys.toNat (toS32 (H.sizeVal d))).2.ret < 0
  | _ => True

theorem copyOutOk_iff (H : HostIf) (dev : GulIpcDev) (r : PciReq) :
    CopyOutOk H dev r ↔ keys lostKey [(r, (gulIpcIoctl H dev r).2)] = 0 := by
  have he : -einval ≠ -efault ∧ -enomem ≠ -efault ∧ 0 ≠ -efault := by decide
  match r with
  | .putPciMap _ => simp [CopyOutOk, keys, lostKey]
  | .getPciMap none _ => simp [CopyOutOk, keys, lostKey]
  | .getPciMap (some d) c =>
    simp only [gulIpcIoctl, getPciMap]
    by_cases h1 : H.sizeVal d < 0
    · cases c <;> simp [CopyOutOk, keys, lostKey, h1, he]
    by_cases h2 : (gulIpcPciMapIsOverlap dev.pciAllocator d.hostPhys.toNat (toU32 (H.sizeVal d))).1 < 0
    · cases c <;> simp [CopyOutOk, keys, lostKey, h1, h2, he]
    by_cases h3 : (gulIpcPciMapAlloc H dev d.hostPhys.toNat (toS32 (H.sizeVal d))).2.ret < 0
    · cases c <;> simp [CopyOutOk, keys, lostKey, h1, h2, h3, he]
    · cases c <;> simp [CopyOutOk, keys, lostKey, h1, h2, h3, he]

theorem guarded_copyOutOk_iff (H : HostIf) : ∀ (rs : List PciReq) (dev : GulIpcDev),
    Guarded (gulIpcIoctl H) (CopyOutOk H) dev rs ↔ keys lostKey (outs (gulIpcIoctl H) dev rs) = 0
  | [], _ => by simp [Guarded, outs, keys]
  | r :: rs, dev => by
    rw [Guarded, outs, keys_cons, add_eq_zero, copyOutOk_iff, guarded_copyOutOk_iff H rs]

/-- The host addresses of the held mappings. -/
def Stack.liveHosts {H : HostIf} {T : ℕ} (st : Stack H T) : Multiset (BitVec 64) :=
  ((st.maps.filter Mapping.live).map Mapping.host : List (BitVec 64))

section Count

variable {H : HostIf} {B T : ℕ}

/-- A request adds to the held mappings what it maps, delivered or not, and
takes away what it gives back. -/
theorem liveHosts_step (st : Stack H T) (r : PciReq) :
    (stackIoctl H B st r).1.liveHosts + keys putKey [(r, (stackIoctl H B st r).2)] =
      st.liveHosts + keys getKey [(r, (stackIoctl H B st r).2)] +
        keys lostKey [(r, (stackIoctl H B st r).2)] := by
  rcases stackIoctl_cases (B := B) st r with
    ⟨h1, h2, h3, -⟩ | ⟨d, c, hl, hs, rfl, -, -, h1, h2, -⟩ | ⟨d, rfl, ⟨m, hm, hat⟩, h1, h2⟩
  · rw [h1]
    match r with
    | .getPciMap none _ => simp [keys_singleton, getKey, putKey, lostKey]
    | .getPciMap (some d) c => simp [keys_singleton, getKey, putKey, lostKey, h2, h3 d c rfl]
    | .putPciMap none => simp [keys_singleton, getKey, putKey, lostKey]
    | .putPciMap (some d) => simp [keys_singleton, getKey, putKey, lostKey, h2]
  · have hpush : (st.push d.hostPhys (H.sizeVal d).toNat hl hs).liveHosts =
        st.liveHosts + {d.hostPhys} := by
      simp only [Stack.liveHosts, Stack.push, List.filter_append, List.map_append, ← Multiset.coe_add]
      rfl
    have he : (0 : ℤ) ≠ -efault ∧ -efault ≠ 0 := by decide
    rw [h1, hpush]
    cases c <;> simp [keys_singleton, getKey, putKey, lostKey, h2, he]
  · have hrel : st.liveHosts = d.hostPhys ::ₘ (st.release d.hostPhys).liveHosts := by
      rw [Stack.liveHosts, Stack.liveHosts, Stack.release, filter_collect]
      refine map_filter_killFirst (Mapping.isAt d.hostPhys) Mapping.kill Mapping.live Mapping.host _
        (fun a ha => ?_) (fun _ => rfl) st.maps ⟨m, hm, hat⟩
      obtain ⟨h1, h2⟩ : a.host = d.hostPhys ∧ a.live = true := by simpa [Mapping.isAt] using ha
      exact ⟨h2, h1⟩
    rw [h1, h2, hrel]
    simp [keys_singleton, getKey, putKey, lostKey, add_comm]

theorem liveHosts_run : ∀ (rs : List PciReq) (st : Stack H T),
    (exec (stackIoctl H B) st rs).liveHosts + keys putKey (outs (stackIoctl H B) st rs) =
      st.liveHosts + keys getKey (outs (stackIoctl H B) st rs) + keys lostKey (outs (stackIoctl H B) st rs)
  | [], st => by simp [exec, outs, keys]
  | r :: rs, st => by
    have h1 := liveHosts_step (B := B) st r
    have h2 := liveHosts_run rs (stackIoctl H B st r).1
    rw [exec, outs, keys_cons putKey, keys_cons getKey, keys_cons lostKey]
    calc _ = (exec (stackIoctl H B) (stackIoctl H B st r).1 rs).liveHosts +
            keys putKey (outs (stackIoctl H B) (stackIoctl H B st r).1 rs) +
            keys putKey [(r, (stackIoctl H B st r).2)] := by abel
      _ = (stackIoctl H B st r).1.liveHosts + keys putKey [(r, (stackIoctl H B st r).2)] +
            (keys getKey (outs (stackIoctl H B) (stackIoctl H B st r).1 rs) +
              keys lostKey (outs (stackIoctl H B) (stackIoctl H B st r).1 rs)) := by rw [h2]; abel
      _ = _ := by rw [h1]; abel

theorem Stack.liveHosts_eq_zero {st : Stack H T} : st.liveHosts = 0 ↔ st = Stack.empty H T := by
  constructor
  · intro h
    ext1
    refine eq_nil_of_topLive Mapping.live st.topLive ?_
    simpa [Stack.liveHosts] using h
  · rintro rfl
    rfl

end Count

/-- The allocator is as `gul_setup_pci_space` leaves it. -/
def Restored (r : HostMemRegion) (al : GulPciAllocator) : Prop :=
  al.pciAvailSpace = al.pciTotalSpace ∧ al.pciAllocAddr = r.base ∧ al.pciAllocCnt = 0 ∧
    ∀ j, al.iatuIdxMap j = false

theorem Rel.restored_iff {H : HostIf} {r : HostMemRegion} {dev : GulIpcDev} {st : Stack H r.len}
    (h : Rel H r.base dev st) : Restored r dev.pciAllocator ↔ st = Stack.empty H r.len := by
  constructor
  · rintro ⟨-, -, hcnt, -⟩
    ext1
    rw [h.cnt] at hcnt
    exact List.length_eq_zero_iff.mp hcnt
  · rintro rfl
    refine ⟨?_, ?_, h.cnt, fun j => ?_⟩
    · rw [h.holds.avail, h.holds.tot]; simp [Stack.empty]
    · rw [h.holds.addr]; simp [Stack.empty]
    · rw [h.holds.map]; simp [Stack.empty]

/-- **No leak, exactly.** In a run whose successful GETs are matched by
successful PUTs of the same host addresses the allocator ends as new if and
only if no GET failed in copying its answer back after the mapping was made;
and from then on it answers every further run as a fresh one does. -/
theorem space_restored_iff (H : HostIf) (dev : GulIpcDev) (r : HostMemRegion)
    (hf : H.Fits r.base r.len) (rs : List PciReq)
    (hmatch : keys getKey (outs (gulIpcIoctl H) (gulSetupPciSpace dev r) rs) =
      keys putKey (outs (gulIpcIoctl H) (gulSetupPciSpace dev r) rs)) :
    let s := exec (gulIpcIoctl H) (gulSetupPciSpace dev r) rs
    (Guarded (gulIpcIoctl H) (CopyOutOk H) (gulSetupPciSpace dev r) rs ↔
      Restored r s.pciAllocator) ∧
    (Restored r s.pciAllocator → ∀ rs',
      outs (gulIpcIoctl H) s rs' = outs (gulIpcIoctl H) (gulSetupPciSpace dev r) rs') := by
  intro s
  have hrel : Rel H r.base s _ := run_rel hf dev rs
  refine ⟨?_, fun hre rs' => ?_⟩
  · have hrun := liveHosts_run (B := r.base) rs (Stack.empty H r.len)
    rw [← run_outs hf dev rs, hmatch, show (Stack.empty H r.len).liveHosts = 0 from rfl, zero_add,
      add_comm] at hrun
    rw [hrel.restored_iff, ← Stack.liveHosts_eq_zero, add_left_cancel hrun, guarded_copyOutOk_iff]
  · -- both allocators represent the empty stack, which answers for both
    have hrel' := hrel
    rw [hrel.restored_iff.mp hre] at hrel'
    have hout : ∀ s' : GulIpcDev, Rel H r.base s' (Stack.empty H r.len) →
        outs (gulIpcIoctl H) s' rs' = outs (stackIoctl H r.base) (Stack.empty H r.len) rs' :=
      fun s' h => outs_eq_of_rel (R := fun dev st => Rel H r.base dev st)
        (fun _ _ i h => (ioctl_refines hf h i).1) (fun _ _ i h => (ioctl_refines hf h i).2) rs' h
    rw [hout s hrel', hout _ (setup_rel H dev r)]

/-- A GET that fails only in copying its answer back: no request has
succeeded, and the space is gone. -/
theorem space_lost : (HostIf.mk 16 8 true).Fits 0xa0000000 0x10000000 ∧
    keys getKey (outs (gulIpcIoctl ⟨16, 8, true⟩) (gulSetupPciSpace default ⟨0xa0000000, 0, 0x10000000⟩)
      [.getPciMap (some ⟨0x80000000, 0, 0x1000⟩) false]) = 0 ∧
    keys putKey (outs (gulIpcIoctl ⟨16, 8, true⟩) (gulSetupPciSpace default ⟨0xa0000000, 0, 0x10000000⟩)
      [.getPciMap (some ⟨0x80000000, 0, 0x1000⟩) false]) = 0 ∧
    ¬ Restored ⟨0xa0000000, 0, 0x10000000⟩ (exec (gulIpcIoctl ⟨16, 8, true⟩)
      (gulSetupPciSpace default ⟨0xa0000000, 0, 0x10000000⟩)
      [.getPciMap (some ⟨0x80000000, 0, 0x1000⟩) false]).pciAllocator := by
  refine ⟨⟨by decide, Or.inl rfl⟩, by decide, by decide, fun h => ?_⟩
  exact absurd h.2.2.1 (by decide)

/-- Two mappings given back in the order they were made. -/
theorem space_restored_fifo :
    Restored ⟨0xa0000000, 0, 0x10000000⟩ (exec (gulIpcIoctl ⟨16, 8, true⟩)
      (gulSetupPciSpace default ⟨0xa0000000, 0, 0x10000000⟩)
      [.getPciMap (some ⟨0x80000000, 0, 0x1000⟩) true,
        .getPciMap (some ⟨0x90000000, 0, 0x2000⟩) true,
        .putPciMap (some ⟨0x80000000, 0, 0⟩),
        .putPciMap (some ⟨0x90000000, 0, 0⟩)]).pciAllocator :=
  (space_restored_iff ⟨16, 8, true⟩ default ⟨0xa0000000, 0, 0x10000000⟩ ⟨by decide, Or.inl rfl⟩
    [.getPciMap (some ⟨0x80000000, 0, 0x1000⟩) true, .getPciMap (some ⟨0x90000000, 0, 0x2000⟩) true,
      .putPciMap (some ⟨0x80000000, 0, 0⟩), .putPciMap (some ⟨0x90000000, 0, 0⟩)]
    (by decide)).1.mp ⟨trivial, trivial, trivial, trivial, trivial⟩

end Ipc
end La12xx
