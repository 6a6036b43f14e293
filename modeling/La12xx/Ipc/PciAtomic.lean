/-
# A mapping request that fails changes nothing

`gul_ipc_pci_map_alloc` updates the allocator in five places and programs an
iATU window, and the answer is copied to user space only after that. Which
requests that return an error leave everything as it was?

The branch that fails between the updates, without an iATU entry, is never
taken: the entry of a block is its position, so an allocator with a block
left has an entry left (`Numbered`). This needs nothing of the window, it
holds wherever the window lies and whatever its size. What remains is the
answer: a GET that is accepted and cannot be answered returns `-EFAULT` with
the mapping made, and it is the only request of that kind
(`failed_unchanged_iff`).
-/
import La12xx.Ipc.PciStack

namespace La12xx
namespace Ipc

open Machine

/-! ### Entries are positions -/

/-- The iATU entry of a block is its position, and no other entry is taken. -/
structure Numbered (al : GulPciAllocator) : Prop where
  idx : ∀ i < al.pciAllocCnt, (al.cbs i).iatuIdx = i
  map : ∀ j, al.iatuIdxMap j = decide (j < al.pciAllocCnt)

theorem Numbered.setup (dev : GulIpcDev) (region : HostMemRegion) :
    Numbered (gulSetupPciSpace dev region).pciAllocator where
  idx i hi := absurd hi (Nat.not_lt_zero i)
  map j := by simp [gulSetupPciSpace]

/-- What makes a block valid or not is no matter. -/
theorem Numbered.kill {al : GulPciAllocator} (h : Numbered al) (ii : ℕ) :
    Numbered { al with cbs := Function.update al.cbs ii { al.cbs ii with valid := false } } where
  idx i hi := by
    rcases eq_or_ne i ii with rfl | hne
    · simpa using h.idx i hi
    · simpa [Function.update_of_ne hne] using h.idx i hi
  map := h.map

/-- The entry taken for a new block is its position. -/
theorem Numbered.pushed {al : GulPciAllocator} (h : Numbered al) (addr hAddr v : ℤ) :
    Numbered (Ipc.pushed al al.pciAllocCnt addr hAddr v) where
  idx i hi := by
    simp only [Ipc.pushed] at hi ⊢
    rcases eq_or_ne i al.pciAllocCnt with rfl | hne
    · simp
    · rw [Function.update_of_ne hne]
      exact h.idx i (by omega)
  map j := by
    change Function.update al.iatuIdxMap al.pciAllocCnt true j = decide (j < al.pciAllocCnt + 1)
    rcases eq_or_ne j al.pciAllocCnt with rfl | hne
    · simp
    · rw [Function.update_of_ne hne, h.map j, decide_eq_decide]
      omega

/-- Without its top block an allocator has the top entry free. -/
theorem Numbered.pop {al : GulPciAllocator} {ii : ℕ} (h : Numbered { al with pciAllocCnt := ii + 1 })
    (addr avail : ℤ) :
    Numbered { gulPciPutIatuIdx { al with pciAllocAddr := addr, pciAvailSpace := avail } (al.cbs ii).iatuIdx with
      pciAllocCnt := ii } where
  idx i hi := h.idx i (Nat.lt_succ_of_lt hi)
  map j := by
    have hii : (al.cbs ii).iatuIdx = ii := h.idx ii (Nat.lt_succ_self ii)
    simp only [gulPciPutIatuIdx, hii, Int.toNat_natCast]
    rcases eq_or_ne j ii with rfl | hne
    · simp
    · rw [Function.update_of_ne hne, show al.iatuIdxMap j = _ from h.map j, decide_eq_decide]
      simp only
      omega

/-- The collection loop gives back the entries of the blocks it pops. -/
theorem Numbered.freeGcLoop : ∀ (ii : ℕ) {al : GulPciAllocator}, Numbered { al with pciAllocCnt := ii } →
    Numbered { (Ipc.freeGcLoop ii al).2.1 with pciAllocCnt := (Ipc.freeGcLoop ii al).1 }
  | 0, _, h => h
  | ii + 1, al, h => by
    unfold Ipc.freeGcLoop
    by_cases hv : (al.cbs ii).valid = true
    · simpa only [hv, ↓reduceIte] using h
    · by_cases htop : toU64 ((al.cbs ii).mAddr + (al.cbs ii).size) = al.pciAllocAddr
      · simp only [hv, htop, Bool.false_eq_true, ↓reduceIte]
        exact Numbered.freeGcLoop ii (h.pop _ _)
      · simpa only [hv, htop, Bool.false_eq_true, ↓reduceIte] using h

/-! ### What a request does -/

section Requests

variable (H : HostIf) {dev : GulIpcDev}

/-- The overlap loop fails if some block of those it looks at overlaps. -/
theorem isOverlapLoop_neg_iff (cbs : ℕ → GulPciAllocCb) (addr size : ℤ) : ∀ n ii,
    (isOverlapLoop cbs addr size ii n).1 < 0 ↔ ∃ i, ii ≤ i ∧ i < ii + n ∧ cbOverlap (cbs i) addr size = true
  | 0, ii => by
    simp only [isOverlapLoop, Int.lt_irrefl, false_iff]
    rintro ⟨i, h1, h2, -⟩
    omega
  | n + 1, ii => by
    unfold isOverlapLoop
    by_cases hov : cbOverlap (cbs ii) addr size = true
    · rw [if_pos hov]
      exact iff_of_true (show (-1 : ℤ) < 0 by decide) ⟨ii, le_rfl, by omega, hov⟩
    · rw [if_neg hov, isOverlapLoop_neg_iff cbs addr size n (ii + 1)]
      constructor
      · rintro ⟨i, h1, h2, h3⟩
        exact ⟨i, by omega, by omega, h3⟩
      · rintro ⟨i, h1, h2, h3⟩
        rcases h1.eq_or_lt with rfl | hlt
        · exact absurd h3 hov
        · exact ⟨i, hlt, by omega, h3⟩

/-- A GET with this descriptor is accepted: the size is not negative, no block
is in the way, and there is space and a control block for it. -/
def Accepts (dev : GulIpcDev) (d : MemStrtAddr) : Prop :=
  0 ≤ H.sizeVal d ∧
    (∀ i < dev.pciAllocator.pciAllocCnt,
      cbOverlap (dev.pciAllocator.cbs i) d.hostPhys.toNat (toU32 (H.sizeVal d)) = false) ∧
    toU32 (H.sizeVal d) ≤ dev.pciAllocator.pciAvailSpace ∧
    dev.pciAllocator.pciAllocCnt < H.maxPciUserAllocCount

/-- With space and a control block left there is an iATU entry, and the mapping
is made. -/
theorem gulIpcPciMapAlloc_of_room (h : Numbered dev.pciAllocator) (hAddr : ℤ) {size : ℤ}
    (hs : toU32 size ≤ dev.pciAllocator.pciAvailSpace)
    (hc : dev.pciAllocator.pciAllocCnt < H.maxPciUserAllocCount) :
    (gulIpcPciMapAlloc H dev hAddr size).2.ret = 0 ∧
      (gulIpcPciMapAlloc H dev hAddr size).1.pciAllocator.pciAllocCnt = dev.pciAllocator.pciAllocCnt + 1 ∧
      Numbered (gulIpcPciMapAlloc H dev hAddr size).1.pciAllocator := by
  have hs' : ¬ toU32 size > dev.pciAllocator.pciAvailSpace := by omega
  have hc' : ¬ dev.pciAllocator.pciAllocCnt ≥ H.maxPciUserAllocCount := by omega
  simp only [gulIpcPciMapAlloc, hs', hc', ↓reduceIte]
  rw [gulPciGetIatuIdx_eq _ dev.pciAllocator.pciAllocCnt (by exact h.map) hc]
  simp only
  rw [if_neg (by omega)]
  exact ⟨rfl, rfl, h.pushed _ _ _⟩

/-- Without, nothing has been changed when the allocation fails. -/
theorem gulIpcPciMapAlloc_of_full (hAddr : ℤ) {size : ℤ}
    (hf : ¬ (toU32 size ≤ dev.pciAllocator.pciAvailSpace ∧
      dev.pciAllocator.pciAllocCnt < H.maxPciUserAllocCount)) :
    (gulIpcPciMapAlloc H dev hAddr size).1 = dev ∧ (gulIpcPciMapAlloc H dev hAddr size).2.ret = -1 := by
  unfold gulIpcPciMapAlloc
  by_cases hs : toU32 size > dev.pciAllocator.pciAvailSpace
  · simp only [hs, ↓reduceIte, and_self]
  · have hc : dev.pciAllocator.pciAllocCnt ≥ H.maxPciUserAllocCount := by
      by_contra hlt
      exact hf ⟨by omega, by omega⟩
    simp only [hs, hc, ↓reduceIte, and_self]

/-- A GET that is accepted makes its mapping, answered or not. -/
theorem getPciMap_of_accepts (h : Numbered dev.pciAllocator) {d : MemStrtAddr} (ha : Accepts H dev d)
    (copyOut : Bool) :
    (getPciMap H dev (some d) copyOut).2.ret = (if copyOut then 0 else -efault) ∧
      (getPciMap H dev (some d) copyOut).1.pciAllocator.pciAllocCnt = dev.pciAllocator.pciAllocCnt + 1 ∧
      Numbered (getPciMap H dev (some d) copyOut).1.pciAllocator := by
  obtain ⟨hsize, hov, hspace, hcnt⟩ := ha
  have hno : ¬ (gulIpcPciMapIsOverlap dev.pciAllocator d.hostPhys.toNat (toU32 (H.sizeVal d))).1 < 0 := by
    rw [gulIpcPciMapIsOverlap, isOverlapLoop_neg_iff]
    rintro ⟨i, -, hi, hov'⟩
    rw [hov i (by omega)] at hov'
    cases hov'
  obtain ⟨hret, hcnt', hnum⟩ := gulIpcPciMapAlloc_of_room H h d.hostPhys.toNat
    (by rwa [toU32_toS32]) hcnt
  simp only [getPciMap, not_lt.mpr hsize, hno, hret, Int.lt_irrefl, ↓reduceIte]
  cases copyOut <;> exact ⟨rfl, hcnt', hnum⟩

/-- A GET that is refused fails and changes nothing. -/
theorem getPciMap_of_refused {d : MemStrtAddr} (ha : ¬ Accepts H dev d) (copyOut : Bool) :
    (getPciMap H dev (some d) copyOut).2.ret < 0 ∧ (getPciMap H dev (some d) copyOut).1 = dev := by
  unfold getPciMap
  by_cases hneg : H.sizeVal d < 0
  · simp only [hneg, ↓reduceIte]
    exact ⟨by decide, trivial⟩
  by_cases hov : (gulIpcPciMapIsOverlap dev.pciAllocator d.hostPhys.toNat (toU32 (H.sizeVal d))).1 < 0
  · simp only [hneg, hov, ↓reduceIte]
    exact ⟨by decide, trivial⟩
  · have hf : ¬ (toU32 (toS32 (H.sizeVal d)) ≤ dev.pciAllocator.pciAvailSpace ∧
        dev.pciAllocator.pciAllocCnt < H.maxPciUserAllocCount) := by
      rw [toU32_toS32]
      rintro ⟨hspace, hcnt⟩
      refine ha ⟨not_lt.mp hneg, fun i hi => ?_, hspace, hcnt⟩
      by_contra hne
      apply hov
      rw [gulIpcPciMapIsOverlap, isOverlapLoop_neg_iff]
      exact ⟨i, Nat.zero_le i, by omega, by simpa using hne⟩
    obtain ⟨hdev, hret⟩ := gulIpcPciMapAlloc_of_full H d.hostPhys.toNat hf
    simp only [hneg, hov, hdev, hret, ↓reduceIte, show (-1 : ℤ) < 0 by decide]
    exact ⟨by decide, trivial⟩

/-- A PUT gives a mapping back and succeeds, or fails and changes nothing. -/
theorem putPciMap_cases (h : Numbered dev.pciAllocator) (desc : Option MemStrtAddr) :
    ((putPciMap dev desc).2.ret = 0 ∧ Numbered (putPciMap dev desc).1.pciAllocator) ∨
      ((putPciMap dev desc).2.ret < 0 ∧ (putPciMap dev desc).1 = dev) := by
  rcases desc with _ | d
  · exact Or.inr ⟨show -efault < 0 by decide, rfl⟩
  · unfold putPciMap gulIpcPciMapFree
    rcases hii : freeLoop dev.pciAllocator.cbs d.hostPhys.toNat 0 dev.pciAllocator.pciAllocCnt with _ | ii
    · simp only [hii, ne_eq, show ¬ (-1 : ℤ) = 0 by decide, not_false_eq_true, ↓reduceIte]
      exact Or.inr ⟨show -efault < 0 by decide, trivial⟩
    · simp only [hii]
      exact Or.inl ⟨rfl, Numbered.freeGcLoop _ (h.kill ii)⟩

/-- Every request keeps the entries those of the positions. -/
theorem Numbered.step (h : Numbered dev.pciAllocator) (r : PciReq) :
    Numbered (gulIpcIoctl H dev r).1.pciAllocator := by
  cases r with
  | getPciMap desc copyOut =>
    rcases desc with _ | d
    · exact h
    · by_cases ha : Accepts H dev d
      · exact (getPciMap_of_accepts H h ha copyOut).2.2
      · have hdev := (getPciMap_of_refused H ha copyOut).2
        rwa [gulIpcIoctl, hdev]
  | putPciMap desc =>
    rcases putPciMap_cases h desc with ⟨-, hnum⟩ | ⟨-, hdev⟩
    · exact hnum
    · rwa [gulIpcIoctl, hdev]

/-! ### Requests that fail -/

/-- If the request returns an error, the allocator and the windows are as they
were. -/
def Atomic (dev : GulIpcDev) (r : PciReq) : Prop :=
  (gulIpcIoctl H dev r).2.ret < 0 → (gulIpcIoctl H dev r).1 = dev

/-- A GET that is accepted can be answered. -/
def Answered (dev : GulIpcDev) : PciReq → Prop
  | .getPciMap (some d) copyOut => Accepts H dev d → copyOut = true
  | .getPciMap none _ => True
  | .putPciMap _ => True

theorem atomic_iff (h : Numbered dev.pciAllocator) (r : PciReq) : Atomic H dev r ↔ Answered H dev r := by
  unfold Atomic Answered
  rcases r with ⟨_ | d, copyOut⟩ | desc
  · exact iff_of_true (fun _ => rfl) trivial
  · by_cases ha : Accepts H dev d
    · obtain ⟨hret, hcnt, -⟩ := getPciMap_of_accepts H h ha copyOut
      simp only [gulIpcIoctl, hret, ha, forall_const]
      rcases copyOut with _ | _
      · refine iff_of_false (fun hsame => ?_) Bool.false_ne_true
        rw [hsame (by decide)] at hcnt
        omega
      · exact iff_of_true (fun hlt => absurd hlt (by decide)) rfl
    · exact iff_of_true (fun _ => (getPciMap_of_refused H ha copyOut).2) fun hacc => absurd hacc ha
  · refine iff_of_true (fun hlt => ?_) trivial
    rcases putPciMap_cases h desc with ⟨hret, -⟩ | ⟨-, hdev⟩
    · rw [gulIpcIoctl, hret] at hlt
      omega
    · exact hdev

/-- **Which failed requests change nothing.** In every state a run of mapping
requests leads to, a request that returns an error leaves the allocator and
the windows as they were exactly if it is not a GET that is accepted and whose
answer cannot be copied out. So the runs all of whose failed requests change
nothing are those without such a GET. -/
theorem failed_unchanged_iff (dev : GulIpcDev) (region : HostMemRegion) (rs : List PciReq) :
    (∀ r, Atomic H (exec (gulIpcIoctl H) (gulSetupPciSpace dev region) rs) r ↔
      Answered H (exec (gulIpcIoctl H) (gulSetupPciSpace dev region) rs) r) ∧
    (Guarded (gulIpcIoctl H) (Atomic H) (gulSetupPciSpace dev region) rs ↔
      Guarded (gulIpcIoctl H) (Answered H) (gulSetupPciSpace dev region) rs) := by
  have h0 : Numbered (gulSetupPciSpace dev region).pciAllocator := Numbered.setup dev region
  refine ⟨fun r => ?_, ?_, ?_⟩
  · have hnum : Numbered (exec (gulIpcIoctl H) (gulSetupPciSpace dev region) rs).pciAllocator :=
      exec_inv (I := fun s : GulIpcDev => Numbered s.pciAllocator) (fun _ r h => h.step H r) rs h0
    exact atomic_iff H hnum r
  · exact guarded_of_inv (I := fun s : GulIpcDev => Numbered s.pciAllocator) (fun _ r h _ => h.step H r)
      (fun _ r h => (atomic_iff H h r).mp) rs h0
  · exact guarded_of_inv (I := fun s : GulIpcDev => Numbered s.pciAllocator) (fun _ r h _ => h.step H r)
      (fun _ r h => (atomic_iff H h r).mpr) rs h0

end Requests

/-- 4 KiB are mapped, and the answer cannot be copied out: the caller gets
`-EFAULT`, and the space, the control block and the window stay in use. -/
theorem lost_answer_keeps_mapping :
    let s := gulSetupPciSpace default ⟨0xa0000000, 0, 0x10000000⟩
    let p := gulIpcIoctl ⟨16, 8, true⟩ s (.getPciMap (some ⟨0x80000000, 0, 0x1000⟩) false)
    p.2.ret = -14 ∧ s.pciAllocator.pciAllocCnt = 0 ∧ p.1.pciAllocator.pciAllocCnt = 1 ∧
      p.1.pciAllocator.pciAvailSpace = 0x10000000 - 0x1000 ∧ (p.1.iatu 8).enable = true ∧
      ¬ Atomic ⟨16, 8, true⟩ s (.getPciMap (some ⟨0x80000000, 0, 0x1000⟩) false) := by
  refine ⟨by decide, by decide, by decide, by decide, by decide, fun h => ?_⟩
  have hcnt := congrArg (fun dev => dev.pciAllocator.pciAllocCnt) (h (by decide))
  exact absurd hcnt (by decide)

end Ipc
end La12xx
