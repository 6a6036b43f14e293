/-
# The PCI-space allocator over whole runs

What the driver's state satisfies after any sequence of mapping requests,
read off the stack it represents (`PciStack.run_rel`):

* the blocks are stacked without gap, the counters are their sums and the
  iATU entries in use are theirs, one each (`pci_space_invariant`); so the
  error branches that would leave the allocator half-updated are never taken
  and the modem ranges of the mappings are disjoint;
* the iATU translates every address of a held mapping to its host address
  (`mapping_translates`). A window is never switched off, but the entry of a
  block is its position in the stack: the windows before it are those of the
  blocks below it, and every stale window has a higher number.
-/
import La12xx.Ipc.PciStack

namespace La12xx
namespace Ipc

open LazyStack Machine

/-! ### The representation invariant -/

/-- The allocator in a window of `T` bytes at `B`. -/
structure PciInv (H : HostIf) (B T : ℤ) (al : GulPciAllocator) : Prop where
  cnt_le : al.pciAllocCnt ≤ H.maxPciUserAllocCount
  base : 0 < al.pciAllocCnt → (al.cbs 0).mAddr = B
  stacked : ∀ i, i + 1 < al.pciAllocCnt → (al.cbs (i + 1)).mAddr = (al.cbs i).mAddr + (al.cbs i).size
  size_nonneg : ∀ i < al.pciAllocCnt, 0 ≤ (al.cbs i).size
  addr : al.pciAllocAddr = B + ∑ i ∈ Finset.range al.pciAllocCnt, (al.cbs i).size
  avail : al.pciAvailSpace + ∑ i ∈ Finset.range al.pciAllocCnt, (al.cbs i).size = al.pciTotalSpace
  tot : al.pciTotalSpace = T
  map : ∀ j < H.maxPciUserAllocCount,
    al.iatuIdxMap j = true ↔ ∃ i < al.pciAllocCnt, (al.cbs i).iatuIdx = j
  idx_range : ∀ i < al.pciAllocCnt, 0 ≤ (al.cbs i).iatuIdx ∧ (al.cbs i).iatuIdx < H.maxPciUserAllocCount
  idx_inj : ∀ i < al.pciAllocCnt, ∀ j < al.pciAllocCnt, (al.cbs i).iatuIdx = (al.cbs j).iatuIdx → i = j
  top_valid : al.pciAllocCnt = 0 ∨ (al.cbs (al.pciAllocCnt - 1)).valid = true

section Rel

variable {H : HostIf} {B T : ℕ} {dev : GulIpcDev} {st : Stack H T}

theorem Rel.cb (h : Rel H B dev st) {i : ℕ} (hi : i < dev.pciAllocator.pciAllocCnt) :
    ∃ m, st.maps[i]? = some m ∧ dev.pciAllocator.cbs i =
      ⟨(B + start Mapping.size st.maps i : ℕ), m.host.toNat, m.size, m.live, i⟩ := by
  rw [h.cnt] at hi
  exact ⟨_, List.getElem?_eq_getElem hi, h.holds.cb i _ (List.getElem?_eq_getElem hi)⟩

/-- The next block starts where block `i` ends. -/
theorem start_succ_of_getElem? {ms : List Mapping} {i : ℕ} {m : Mapping} (hm : ms[i]? = some m) :
    start Mapping.size ms (i + 1) = start Mapping.size ms i + m.size := by
  obtain ⟨hi, rfl⟩ := List.getElem?_eq_some_iff.mp hm
  exact start_succ _ hi

theorem Rel.sum_size (h : Rel H B dev st) : ∀ n ≤ dev.pciAllocator.pciAllocCnt,
    ∑ i ∈ Finset.range n, (dev.pciAllocator.cbs i).size = start Mapping.size st.maps n
  | 0, _ => by simp [start_zero]
  | n + 1, hn => by
    obtain ⟨m, hm, hcb⟩ := h.cb (i := n) (by omega)
    rw [Finset.sum_range_succ, h.sum_size n (by omega), hcb, start_succ_of_getElem? hm]
    push_cast
    rfl

theorem Rel.pciInv (h : Rel H B dev st) : PciInv H B T dev.pciAllocator := by
  have hsum := h.sum_size _ le_rfl
  rw [h.cnt, start_length] at hsum
  have hlen := st.length_le
  refine ⟨?_, fun h0 => ?_, fun i hi => ?_, fun i hi => ?_, ?_, ?_, h.holds.tot, fun j hj => ?_,
    fun i hi => ?_, fun i hi j hj => ?_, ?_⟩
  · rw [h.cnt]; exact hlen
  · obtain ⟨m, -, hcb⟩ := h.cb h0
    rw [hcb, start_zero]
    simp
  · obtain ⟨m, hm, hcb⟩ := h.cb (i := i) (by omega)
    obtain ⟨m', -, hcb'⟩ := h.cb hi
    rw [hcb, hcb', start_succ_of_getElem? hm]
    push_cast
    ring
  · obtain ⟨m, -, hcb⟩ := h.cb hi
    rw [hcb]
    exact Int.natCast_nonneg _
  · rw [h.cnt, hsum, h.holds.addr]
    push_cast
    ring
  · rw [h.cnt, hsum, h.holds.avail, h.holds.tot]
    ring
  · rw [h.holds.map j, decide_eq_true_iff]
    constructor
    · intro hj'
      obtain ⟨m, -, hcb⟩ := h.cb (i := j) (by rw [h.cnt]; exact hj')
      exact ⟨j, by rw [h.cnt]; exact hj', by rw [hcb]⟩
    · rintro ⟨i, hi, hidx⟩
      obtain ⟨m, -, hcb⟩ := h.cb hi
      rw [hcb] at hidx
      rw [h.cnt] at hi
      simp only at hidx
      omega
  · obtain ⟨m, -, hcb⟩ := h.cb hi
    rw [h.cnt] at hi
    rw [hcb]
    simp only
    omega
  · obtain ⟨m, -, hcb⟩ := h.cb hi
    obtain ⟨m', -, hcb'⟩ := h.cb hj
    rw [hcb, hcb']
    exact fun he => Int.natCast_inj.mp he
  · by_cases hne : st.maps = []
    · exact Or.inl (by rw [h.cnt, hne]; rfl)
    · have hpos := List.length_pos_iff.mpr hne
      have hlast : st.maps[st.maps.length - 1]? = some (st.maps.getLast hne) := by
        rw [List.getLast_eq_getElem, List.getElem?_eq_getElem (by omega)]
      rw [h.cnt, h.holds.cb _ _ hlast]
      exact Or.inr (st.topLive hne)

/-- Blocks do not share modem addresses. -/
theorem PciInv.ends_le {B T : ℤ} {al : GulPciAllocator} (h : PciInv H B T al) {i : ℕ} :
    ∀ {j : ℕ}, i < j → j < al.pciAllocCnt → (al.cbs i).mAddr + (al.cbs i).size ≤ (al.cbs j).mAddr
  | j + 1, hij, hj => by
    have hs := h.stacked j hj
    rcases Nat.lt_succ_iff_lt_or_eq.mp hij with hlt | rfl
    · have := h.ends_le hlt (by omega)
      have := h.size_nonneg j (by omega)
      omega
    · omega

end Rel

theorem stackIoctl_log {H : HostIf} (B : ℕ) {T : ℕ} (st : Stack H T) (r : PciReq) :
    ∀ e ∈ (stackIoctl H B st r).2.log, ¬ e.Corrupting := by
  rcases stackIoctl_cases (B := B) st r with ⟨-, -, -, h⟩ | ⟨d, c, -, -, -, -, -, -, -, h⟩ | ⟨d, -, -, -, h⟩
  · exact h
  · simp [h]
  · simp [h]

/-- The driver answers a run as the stack does. -/
theorem run_outs {H : HostIf} {r : HostMemRegion} (hf : H.Fits r.base r.len) (dev : GulIpcDev)
    (rs : List PciReq) :
    outs (gulIpcIoctl H) (gulSetupPciSpace dev r) rs =
      outs (stackIoctl H r.base) (Stack.empty H r.len) rs :=
  outs_eq_of_rel (R := fun dev st => Rel H r.base dev st) (fun _ _ i h => (ioctl_refines hf h i).1)
    (fun _ _ i h => (ioctl_refines hf h i).2) rs (setup_rel H dev r)

/-- **The allocator's invariant.** After any run of mapping requests from a
fresh allocator the invariant holds, no request of the run took a branch
that would corrupt the allocator, and the modem ranges of the valid blocks
lie in the window and are pairwise disjoint. -/
theorem pci_space_invariant (H : HostIf) (dev : GulIpcDev) (r : HostMemRegion)
    (hf : H.Fits r.base r.len) (rs : List PciReq) :
    let al := (exec (gulIpcIoctl H) (gulSetupPciSpace dev r) rs).pciAllocator
    PciInv H r.base r.len al ∧
      (∀ p ∈ outs (gulIpcIoctl H) (gulSetupPciSpace dev r) rs, ∀ e ∈ p.2.log, ¬ e.Corrupting) ∧
      (∀ i < al.pciAllocCnt, (al.cbs i).valid = true →
        (r.base : ℤ) ≤ (al.cbs i).mAddr ∧ (al.cbs i).mAddr + (al.cbs i).size ≤ r.base + r.len) ∧
      (∀ i < al.pciAllocCnt, ∀ j < al.pciAllocCnt, i ≠ j → (al.cbs i).valid = true →
        (al.cbs j).valid = true →
        Disjoint (Set.Ico (al.cbs i).mAddr ((al.cbs i).mAddr + (al.cbs i).size))
          (Set.Ico (al.cbs j).mAddr ((al.cbs j).mAddr + (al.cbs j).size))) := by
  intro al
  have hrel := run_rel hf dev rs
  have hinv : PciInv H r.base r.len al := hrel.pciInv
  refine ⟨hinv, ?_, fun i hi _ => ?_, fun i hi j hj hne _ _ => ?_⟩
  · rw [run_outs hf]
    exact outs_inv (I := fun _ => True) (Q := fun _ (o : IoctlOut) => ∀ e ∈ o.log, ¬ e.Corrupting)
      (fun _ _ _ => trivial) (fun st i _ => stackIoctl_log r.base st i) rs trivial
  · obtain ⟨m, hm, hcb⟩ := hrel.cb hi
    obtain ⟨hi', rfl⟩ := List.getElem?_eq_some_iff.mp hm
    have h1 := start_le_total Mapping.size hi'
    have h2 := (exec (stackIoctl H r.base) (Stack.empty H r.len) rs).total_le
    rw [show al.cbs i = _ from hcb]
    simp only
    omega
  · rw [Set.disjoint_left]
    intro x hx hx'
    rcases Nat.lt_or_gt_of_ne hne with hlt | hlt
    · have := hinv.ends_le hlt hj
      exact absurd hx.2 (by have := hx'.1; omega)
    · have := hinv.ends_le hlt hi
      exact absurd hx'.2 (by have := hx.1; omega)

/-- A window at `0xa0000000` with two mappings, the lower one on hold. -/
theorem pci_space_invariant_hold : (HostIf.mk 16 8 true).Fits 0xa0000000 0x10000000 ∧
    PciInv ⟨16, 8, true⟩ 0xa0000000 0x10000000
      (exec (gulIpcIoctl ⟨16, 8, true⟩) (gulSetupPciSpace default ⟨0xa0000000, 0, 0x10000000⟩)
        [.getPciMap (some ⟨0x80000000, 0, 0x1000⟩) true, .getPciMap (some ⟨0x90000000, 0, 0x2000⟩) true,
          .putPciMap (some ⟨0x80000000, 0, 0⟩)]).pciAllocator :=
  ⟨⟨by decide, Or.inl rfl⟩, (pci_space_invariant ⟨16, 8, true⟩ default ⟨0xa0000000, 0, 0x10000000⟩
    ⟨by decide, Or.inl rfl⟩ _).1⟩

/-! ### Translation -/

/-- The first address of a window. -/
def IatuWin.base (w : IatuWin) : ℤ := w.upperBase * 2 ^ 32 + w.lowerBase

/-- The host address a window's first address goes to. -/
def IatuWin.target (w : IatuWin) : ℤ := w.upperTarget * 2 ^ 32 + w.lowerTarget

/-- The window is on and `a` lies between its base and its limit. -/
def IatuWin.hit (a : ℤ) (w : IatuWin) : Bool := w.enable ∧ w.base ≤ a ∧ a ≤ w.limit

/-- The device's translation of a modem address by the huge-page windows: the
lowest-numbered window that is hit decides. -/
def translate (H : HostIf) (iatu : ℕ → IatuWin) (a : ℤ) : Option ℤ :=
  (((List.range H.maxPciUserAllocCount).map fun j => iatu (H.gulObWinHugePageBufs + j)).find?
    (IatuWin.hit a)).map fun w => toU64 (w.target + (a - w.base))

theorem winOf_base {addr : ℕ} (h : addr < 2 ^ 32) (m : Mapping) : (winOf addr m).base = addr := by
  simp only [IatuWin.base, winOf, toU32]
  omega

theorem winOf_target (addr : ℕ) (m : Mapping) : (winOf addr m).target = m.host.toNat := by
  have := m.host.isLt
  simp only [IatuWin.target, winOf, toU32]
  omega

/-- A mapping's window is hit by its addresses only, an empty mapping's by
none. At address 0 the limit of an empty one would wrap. -/
theorem winOf_hit {addr : ℕ} {m : Mapping} (h0 : 0 < addr) (h : addr + m.size < 2 ^ 32) (a : ℤ) :
    IatuWin.hit a (winOf addr m) = true ↔ (addr : ℤ) ≤ a ∧ a < addr + m.size := by
  have hlim : (winOf addr m).limit = addr + m.size - 1 := by
    simp only [winOf]
    rw [toU64_of_lt (by omega) (by omega), toU32_of_lt (by omega) (by omega)]
  rw [IatuWin.hit, decide_eq_true_iff, winOf_base (by omega), hlim]
  constructor
  · rintro ⟨-, h1, h2⟩
    exact ⟨h1, by omega⟩
  · rintro ⟨h1, h2⟩
    exact ⟨rfl, h1, by omega⟩

/-- The windows before that of block `i` are those of the blocks below it. -/
theorem Rel.translate {H : HostIf} {B T : ℕ} {dev : GulIpcDev} {st : Stack H T} (h : Rel H B dev st)
    (hB : 0 < B) (hBT : B + T < 2 ^ 32) {i : ℕ} {m : Mapping} (hm : st.maps[i]? = some m) {o : ℤ}
    (ho : 0 ≤ o) (hlt : o < m.size) :
    translate H dev.iatu ((B + start Mapping.size st.maps i : ℕ) + o) =
      some (toU64 (m.host.toNat + o)) := by
  obtain ⟨hi, hget⟩ := List.getElem?_eq_some_iff.mp hm
  have hT := st.total_le
  have hend : ∀ j m', st.maps[j]? = some m' → start Mapping.size st.maps j + m'.size ≤ T := by
    intro j m' hm'
    obtain ⟨hj, rfl⟩ := List.getElem?_eq_some_iff.mp hm'
    exact (start_le_total _ hj).trans hT
  have hi' := hend i m hm
  have hmax : i < H.maxPciUserAllocCount := lt_of_lt_of_le hi st.length_le
  have hfind : ((List.range H.maxPciUserAllocCount).map fun j =>
      dev.iatu (H.gulObWinHugePageBufs + j)).find?
        (IatuWin.hit ((B + start Mapping.size st.maps i : ℕ) + o)) =
      some (winOf (B + start Mapping.size st.maps i) m) := by
    rw [List.find?_eq_some_iff_getElem]
    refine ⟨(winOf_hit (by omega) (by omega) _).mpr ⟨by omega, by omega⟩, i, by simpa using hmax, ?_,
      fun j hj => ?_⟩
    · rw [List.getElem_map, List.getElem_range, h.win i m hm]
    · -- block `j < i` ends at or below the start of block `i`
      have hj' : j < st.maps.length := by omega
      have hle := start_add_le Mapping.size hj' hj
      rw [List.getElem_map, List.getElem_range, h.win j _ (List.getElem?_eq_getElem hj'),
        Bool.not_eq_true', ← Bool.not_eq_true, winOf_hit (by omega)
          (by have := hend j _ (List.getElem?_eq_getElem hj'); omega)]
      omega
  rw [Ipc.translate, hfind, Option.map_some, winOf_target, winOf_base (by omega)]
  congr 2
  ring

/-- **Address translation.** After any run of mapping requests every address
of a valid mapping is translated to its host address, whatever the windows
held before and although the window of a mapping given back stays on. The
window must not start at address 0, where an empty mapping's limit is not
below `2 ^ 32`. -/
theorem mapping_translates (H : HostIf) (dev : GulIpcDev) (r : HostMemRegion)
    (hf : H.Fits r.base r.len) (hB : 0 < r.base) (rs : List PciReq) :
    let dev' := exec (gulIpcIoctl H) (gulSetupPciSpace dev r) rs
    ∀ i < dev'.pciAllocator.pciAllocCnt, (dev'.pciAllocator.cbs i).valid = true →
      ∀ o, 0 ≤ o → o < (dev'.pciAllocator.cbs i).size →
        translate H dev'.iatu ((dev'.pciAllocator.cbs i).mAddr + o) =
          some (toU64 ((dev'.pciAllocator.cbs i).hAddr + o)) := by
  intro dev' i hi _ o ho hlt
  have hrel := run_rel hf dev rs
  obtain ⟨m, hm, hcb⟩ := hrel.cb hi
  rw [show dev'.pciAllocator.cbs i = _ from hcb] at hlt ⊢
  exact hrel.translate hB hf.below hm ho hlt

/-- A second mapping is given back and its space handed out again with
another size: the old window, still on, has the same entry and is gone. -/
theorem mapping_translates_reused :
    translate ⟨16, 8, true⟩
      (exec (gulIpcIoctl ⟨16, 8, true⟩) (gulSetupPciSpace default ⟨0xa0000000, 0, 0x10000000⟩)
        [.getPciMap (some ⟨0x80000000, 0, 0x1000⟩) true, .getPciMap (some ⟨0x90000000, 0, 0x2000⟩) true,
          .putPciMap (some ⟨0x90000000, 0, 0⟩), .getPciMap (some ⟨0x70000000, 0, 0x800⟩) true]).iatu
      0xa0001010 = some 0x70000010 :=
  mapping_translates ⟨16, 8, true⟩ default ⟨0xa0000000, 0, 0x10000000⟩ ⟨by decide, Or.inl rfl⟩
    (by decide) _ 1 (by decide) (by decide) 0x10 (by decide) (by decide)

end Ipc
end La12xx
