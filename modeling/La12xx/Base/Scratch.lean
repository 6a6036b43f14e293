/-
# The scratch buffer of a modem

`gul_scratch_buf_init` of `gul_base.c` maps the part of the scratch memory that
belongs to a modem and places it at the end of the modem's own address space;
`scratch_buf_allocator` hands out regions of it, one for each request id. The
module shows that the allocator is a keyed bump allocator (`Bump.Arena`): its
regions and its current address are those of an arena, through every sequence
of requests.

Addresses and sizes are the integers they denote and every assignment converts
to the width of its target. What comes from headers outside the repository and
from the kernel's configuration is a parameter (`Header`), and so is `memremap`.
-/
import La12xx.Lib.Bump
import La12xx.Lib.CInt
import La12xx.Lib.Machine

namespace La12xx
namespace Scratch

/-! ### Sizes -/

/-- What the driver takes from the firmware's headers and the kernel. -/
structure Header where
  /-- `GUL_EP_CORE_MAX` -/
  epCoreMax : ℕ
  /-- `GUL_SCRATCH_DMA_BUF_END_ADDR` -/
  dmaBufEndAddr : ℤ
  /-- `GUL_USER_HUGE_PAGE_ADDR` -/
  userHugePageAddr : ℤ
  /-- `PAGE_SHIFT` -/
  pageShift : ℕ
deriving DecidableEq, Repr

/-- `PAGE_SIZE` -/
def Header.pageSize (H : Header) : ℤ := 2 ^ H.pageShift

/-- `GUL_EP_LOGGER_SIZE`, with `GUL_CORE_LOG_BUF_SIZE` for each core -/
def Header.epLoggerSize (H : Header) : ℤ := H.epCoreMax * (4 * 1024)

/-- `GUL_MAX_IMAGE_SIZE` -/
def Header.maxImageSize (H : Header) : ℤ := 4 * 1024 * 1024 - H.epLoggerSize

/-- `GUL_VSPA_SCRATCH_BUF_MAX_SIZE` -/
def vspaScratchBufMaxSize : ℤ := 10 * 1024 * 1024

/-- `GUL_VSPA_OVERLAY_SIZE` -/
def vspaOverlaySize : ℤ := 2 * 1024 * 1024

/-- `ALIGN(x, PAGE_SIZE)` of an `int`. -/
def Header.align (H : Header) (x : ℤ) : ℤ :=
  (BitVec.ofInt 32 (x + (H.pageSize - 1)) &&& ~~~ BitVec.ofInt 32 (H.pageSize - 1)).toInt

/-- The module parameters that size the scratch memory, as the driver keeps
them after its start. -/
structure Params where
  /-- `global_scratch_buf_size` -/
  globalScratchBufSize : ℤ
  /-- `scratch_buf_phys_addr` -/
  scratchBufPhysAddr : ℤ
  modemShareBufSize : ℤ
  modemHostDataSize : ℤ
  modemRfDataSize : ℤ
deriving DecidableEq, Repr

/-- The usages per modem, as `gul_scratch_buf_init` adds them. -/
def gulScratchBufSize (H : Header) (P : Params) : ℤ :=
  H.align (toS32 (H.maxImageSize + H.epLoggerSize + vspaScratchBufMaxSize + vspaOverlaySize +
    P.modemShareBufSize + P.modemHostDataSize + P.modemRfDataSize))

/-! ### The device -/

/-- `enum scratch_buf_request_id`; `GUL_SCRATCH_END` is the number of ids. -/
inductive ScratchBufRequestId where
  | modemShare
  | hostData
  | rfData
  | firmware
  | dbgLogger
  | vspaFw
  | vspaOverlay
deriving DecidableEq, Repr

instance : Fintype ScratchBufRequestId where
  elems := {.modemShare, .hostData, .rfData, .firmware, .dbgLogger, .vspaFw, .vspaOverlay}
  complete id := by cases id <;> decide

/-- `struct gul_mem_region_info`: what the allocator fills in. -/
structure MemRegionInfo where
  physAddr : ℤ
  vaddr : ℤ
  size : ℤ
deriving DecidableEq, Repr

/-- `struct scratch_allocator` -/
structure ScratchAllocator where
  hostPhys : ℤ
  hostVaddr : ℤ
  modPhys : ℤ
  modPhysCurrent : ℤ
  modPhysEnd : ℤ
  size : ℤ
deriving DecidableEq, Repr

/-- `struct gul_dev`: its `scratch_buf_region` and `scratch_allocator`. -/
structure GulDev where
  scratchBufRegion : ScratchBufRequestId → MemRegionInfo
  scratchAllocator : ScratchAllocator

/-- A `gul_dev` comes from `kzalloc`. -/
def GulDev.zero : GulDev := ⟨fun _ => ⟨0, 0, 0⟩, ⟨0, 0, 0, 0, 0, 0⟩⟩

/-- `ENOMEM` -/
def enomem : ℤ := 12

/-- `gul_scratch_buf_phys_addr`, where the part of the device `id` starts. -/
def gulScratchBufPhysAddr (H : Header) (P : Params) (id : ℤ) : ℤ :=
  toU64 (P.scratchBufPhysAddr + toS32 (id * gulScratchBufSize H P))

/-- `gul_scratch_buf_init` for the device `id`: its return value and the device
afterwards. `memremap` gives the address of the mapping, if it can map. -/
def gulScratchBufInit (H : Header) (memremap : ℤ → ℤ → Option ℤ) (P : Params) (id : ℤ) (d : GulDev) :
    ℤ × GulDev :=
  let size := gulScratchBufSize H P
  let phys := gulScratchBufPhysAddr H P id
  if phys > toU64 (P.scratchBufPhysAddr + P.globalScratchBufSize) then (-enomem, d)
  else
    match memremap phys (toU64 size) with
    | none => (-enomem, { d with scratchAllocator := { d.scratchAllocator with hostVaddr := 0 } })
    | some vaddr =>
      let modPhys := toU64 (H.dmaBufEndAddr - size)
      (0, { d with
        scratchAllocator :=
          { hostPhys := phys
            hostVaddr := vaddr
            modPhys := modPhys
            modPhysCurrent := modPhys
            modPhysEnd := toU64 (modPhys + toU64 size)
            size := toU64 size } })

/-- `scratch_buf_allocator`: the device afterwards and the region it returns a
pointer to. -/
def scratchBufAllocator (d : GulDev) (id : ScratchBufRequestId) (size : ℤ) : GulDev × Option MemRegionInfo :=
  let scr := d.scratchAllocator
  if (d.scratchBufRegion id).size ≠ 0 then (d, some (d.scratchBufRegion id))
  else if toU64 size > toU64 (scr.modPhysEnd - scr.modPhysCurrent) then (d, none)
  else
    let offset := toU64 (scr.modPhysCurrent - scr.modPhys)
    let region : MemRegionInfo :=
      { physAddr := toU64 (scr.modPhys + offset)
        vaddr := toU64 (scr.hostVaddr + offset)
        size := toU64 size }
    ({ scratchBufRegion := Function.update d.scratchBufRegion id region
       scratchAllocator := { scr with modPhysCurrent := toU64 (scr.modPhysCurrent + size) } },
     some region)

/-- A request: the id and the size asked for, an `int`. -/
abbrev Request := ScratchBufRequestId × Int32

/-- One call of the allocator, as a machine. -/
def step (d : GulDev) (r : Request) : GulDev × Option MemRegionInfo :=
  scratchBufAllocator d r.1 r.2.toInt

/-- An area that is a parameter: one of size `0` is not asked for. -/
def areaRequest (id : ScratchBufRequestId) (size : ℤ) : List Request :=
  if size ≠ 0 then [(id, Int32.ofInt size)] else []

/-- The regions `allocate_scratch_buf_regions` asks for, in its order. -/
def regionRequests (H : Header) (P : Params) : List Request :=
  areaRequest .modemShare P.modemShareBufSize ++ areaRequest .hostData P.modemHostDataSize ++
    areaRequest .rfData P.modemRfDataSize ++
  [(.firmware, Int32.ofInt H.maxImageSize), (.dbgLogger, Int32.ofInt H.epLoggerSize),
    (.vspaFw, Int32.ofInt vspaScratchBufMaxSize), (.vspaOverlay, Int32.ofInt vspaOverlaySize)]

/-- `allocate_scratch_buf_regions` -/
def allocateScratchBufRegions (H : Header) (P : Params) (d : GulDev) : GulDev :=
  Machine.exec step d (regionRequests H P)

/-! ### The allocator is a bump allocator -/

/-- The regions and the current address of the device are those of the arena,
counted from `mod_phys` and from `host_vaddr`. -/
structure Refines (d : GulDev) (A : Bump.Arena ScratchBufRequestId) : Prop where
  cap_lt : A.cap < 2 ^ 31
  modPhys : 0 ≤ d.scratchAllocator.modPhys ∧ d.scratchAllocator.modPhys < 2 ^ 64
  modPhysEnd : d.scratchAllocator.modPhysEnd = toU64 (d.scratchAllocator.modPhys + A.cap)
  current : d.scratchAllocator.modPhysCurrent = toU64 (d.scratchAllocator.modPhys + A.top)
  host : 0 ≤ d.scratchAllocator.hostVaddr ∧ d.scratchAllocator.hostVaddr + A.cap ≤ 2 ^ 64
  size : ∀ id, (d.scratchBufRegion id).size = A.size id
  physAddr : ∀ id, A.size id ≠ 0 →
    (d.scratchBufRegion id).physAddr = toU64 (d.scratchAllocator.modPhys + A.base id)
  vaddr : ∀ id, A.size id ≠ 0 →
    (d.scratchBufRegion id).vaddr = toU64 (d.scratchAllocator.hostVaddr + A.base id)

section Step

variable {d : GulDev} {A : Bump.Arena ScratchBufRequestId} {id : ScratchBufRequestId} {n : Int32}

/-- What is left, as the bound check computes it. -/
theorem Refines.left (h : Refines d A) :
    toU64 (d.scratchAllocator.modPhysEnd - d.scratchAllocator.modPhysCurrent) = (A.cap : ℤ) - A.top := by
  have hcap := h.cap_lt
  have htop := Bump.top_le_cap A
  rw [h.modPhysEnd, h.current]
  unfold toU64
  omega

theorem toU64_int32 (n : Int32) : toU64 n.toInt = if n.toInt < 0 then n.toInt + 2 ^ 64 else n.toInt := by
  have h1 := n.le_toInt
  have h2 := n.toInt_lt
  unfold toU64
  split <;> omega

/-- The bound check passes exactly the sizes that are not negative and fit. -/
theorem Refines.check (h : Refines d A) :
    toU64 n.toInt > toU64 (d.scratchAllocator.modPhysEnd - d.scratchAllocator.modPhysCurrent) ↔
      n.toInt < 0 ∨ (A.cap : ℤ) < A.top + n.toInt := by
  have hcap := h.cap_lt
  have htop := Bump.top_le_cap A
  have hn := n.le_toInt
  rw [h.left, toU64_int32]
  split <;> omega

/-- A region that is there is returned as it is. -/
theorem step_held (h : (d.scratchBufRegion id).size ≠ 0) (n : Int32) :
    step d (id, n) = (d, some (d.scratchBufRegion id)) := by
  simp [step, scratchBufAllocator, h]

/-- A request that is refused. -/
theorem Refines.step_refused (h : Refines d A) (hid : (d.scratchBufRegion id).size = 0)
    (hn : n.toInt < 0 ∨ (A.cap : ℤ) < A.top + n.toInt) : step d (id, n) = (d, none) := by
  have hc := h.check.mpr hn
  simp [step, scratchBufAllocator, hid, hc]

/-- The region a request for the next `n` cells fills in. -/
def nextRegion (d : GulDev) (A : Bump.Arena ScratchBufRequestId) (n : ℤ) : MemRegionInfo where
  physAddr := toU64 (d.scratchAllocator.modPhys + A.top)
  vaddr := toU64 (d.scratchAllocator.hostVaddr + A.top)
  size := n

/-- A request that is granted takes the next cells of the arena. -/
theorem Refines.step_granted (h : Refines d A) (hid : (d.scratchBufRegion id).size = 0)
    (hn : 0 ≤ n.toInt) (hfit : A.top + n.toInt ≤ A.cap) :
    step d (id, n) =
      ({ scratchBufRegion := Function.update d.scratchBufRegion id (nextRegion d A n.toInt)
         scratchAllocator := { d.scratchAllocator with
           modPhysCurrent := toU64 (d.scratchAllocator.modPhys + (A.top + n.toInt)) } },
       some (nextRegion d A n.toInt)) := by
  have hc : ¬ toU64 n.toInt > toU64 (d.scratchAllocator.modPhysEnd - d.scratchAllocator.modPhysCurrent) := by
    rw [h.check]
    omega
  have hcap := h.cap_lt
  have hoff : toU64 (d.scratchAllocator.modPhysCurrent - d.scratchAllocator.modPhys) = A.top := by
    rw [h.current]
    unfold toU64
    omega
  have hsize : toU64 n.toInt = n.toInt := toU64_of_lt hn (by omega)
  have hnext : toU64 (d.scratchAllocator.modPhysCurrent + n.toInt) =
      toU64 (d.scratchAllocator.modPhys + (A.top + n.toInt)) := by
    rw [h.current]
    unfold toU64
    omega
  rw [hsize] at hc
  simp [step, scratchBufAllocator, nextRegion, hid, hc, hoff, hsize, hnext]

/-- **A call refines a request to the arena.** -/
theorem Refines.step (h : Refines d A) (id : ScratchBufRequestId) (n : Int32) :
    Refines (step d (id, n)).1 (if n.toInt < 0 then A else A.alloc id n.toInt.toNat) := by
  by_cases hid : (d.scratchBufRegion id).size = 0
  · have hsize : A.size id = 0 := by
      have := h.size id
      omega
    by_cases hn : n.toInt < 0
    · rw [h.step_refused hid (.inl hn), if_pos hn]
      exact h
    · rw [if_neg hn]
      by_cases hfit : A.top + n.toInt.toNat ≤ A.cap
      · rw [h.step_granted hid (by omega) (by omega), Bump.alloc_free hsize hfit]
        refine ⟨h.cap_lt, h.modPhys, h.modPhysEnd, ?_, h.host, fun j => ?_, fun j hj => ?_, fun j hj => ?_⟩
        · show toU64 _ = toU64 _
          rw [Bump.top_extend]
          congr 2
          omega
        -- the new region is the next one of the arena, the others stay
        all_goals rcases eq_or_ne j id with rfl | hji
        · simp only [Function.update_self, Bump.size_extend_self, nextRegion]
          omega
        · simp only [Function.update_of_ne hji, Bump.size_extend_of_ne _ _ _ _ _ hji, h.size]
        · simp [nextRegion]
        · rw [Bump.size_extend_of_ne _ _ _ _ _ hji] at hj
          simp only [Function.update_of_ne hji, Bump.base_extend_of_ne _ _ _ _ _ hji, h.physAddr j hj]
        · simp [nextRegion]
        · rw [Bump.size_extend_of_ne _ _ _ _ _ hji] at hj
          simp only [Function.update_of_ne hji, Bump.base_extend_of_ne _ _ _ _ _ hji, h.vaddr j hj]
      · rw [h.step_refused hid (.inr (by omega)), Bump.alloc_full (by omega)]
        exact h
  · have hsize : A.size id ≠ 0 := by
      have := h.size id
      omega
    rw [step_held hid, Bump.alloc_held hsize, ite_self]
    exact h

end Step

/-- The device refines an arena whatever was asked for. -/
theorem exec_refines {d : GulDev} {A : Bump.Arena ScratchBufRequestId} (h : Refines d A) (rs : List Request) :
    ∃ B, Refines (Machine.exec step d rs) B := by
  refine Machine.exec_inv (I := fun d => ∃ B, Refines d B) ?_ rs ⟨A, h⟩
  intro d r ⟨B, hB⟩
  exact ⟨_, hB.step r.1 r.2⟩

/-! ### Initialisation -/

/-- What the driver relies on of `memremap`: a mapping of `n` bytes is a range
of kernel addresses, the upper half of the address space. -/
def MapsKernelRange (memremap : ℤ → ℤ → Option ℤ) : Prop :=
  ∀ phys n vaddr, memremap phys n = some vaddr → 2 ^ 63 ≤ vaddr ∧ vaddr + n ≤ 2 ^ 64

/-- `ALIGN` gives an `int`. -/
theorem align_bounds (H : Header) (x : ℤ) : -2 ^ 31 ≤ H.align x ∧ H.align x < 2 ^ 31 := by
  constructor
  · exact BitVec.le_toInt _
  · exact BitVec.toInt_lt

/-- The size of a mapping that was made is not negative. -/
theorem size_nonneg_of_mapped {memremap : ℤ → ℤ → Option ℤ} (hm : MapsKernelRange memremap) {phys x vaddr : ℤ}
    (hx : -2 ^ 31 ≤ x) (h : memremap phys (toU64 x) = some vaddr) : 0 ≤ x := by
  by_contra hneg
  have hrange := hm phys _ vaddr h
  have : toU64 x = x + 2 ^ 64 := by unfold toU64; omega
  omega

/-- A device that is initialised refines the empty arena of its size. -/
theorem gulScratchBufInit_refines {H : Header} {memremap : ℤ → ℤ → Option ℤ} (hm : MapsKernelRange memremap)
    {P : Params} {id : ℤ} {d : GulDev} (h : gulScratchBufInit H memremap P id GulDev.zero = (0, d)) :
    Refines d (Bump.empty (gulScratchBufSize H P).toNat) := by
  have hb : -2 ^ 31 ≤ gulScratchBufSize H P ∧ gulScratchBufSize H P < 2 ^ 31 := align_bounds H _
  simp only [gulScratchBufInit] at h
  split at h
  · simp [enomem] at h
  · split at h
    · simp [enomem] at h
    · next vaddr hv =>
      have hrange := hm _ _ vaddr hv
      have h0 := size_nonneg_of_mapped hm hb.1 hv
      have hsize : toU64 (gulScratchBufSize H P) = gulScratchBufSize H P := toU64_of_lt h0 (by omega)
      rw [hsize] at hrange h
      obtain ⟨-, rfl⟩ := Prod.mk.inj h
      have hmod : 0 ≤ toU64 (H.dmaBufEndAddr - gulScratchBufSize H P) ∧
          toU64 (H.dmaBufEndAddr - gulScratchBufSize H P) < 2 ^ 64 := by
        unfold toU64
        omega
      refine ⟨?_, hmod, ?_, ?_, ?_, fun _ => rfl, fun _ h => absurd rfl h, fun _ h => absurd rfl h⟩
      · simp only [Bump.empty]
        omega
      · simp only [Bump.empty, Int.toNat_of_nonneg h0]
      · show _ = toU64 (_ + _)
        rw [Bump.top_empty, Nat.cast_zero, add_zero, toU64_of_lt hmod.1 hmod.2]
      · simp only [Bump.empty, Int.toNat_of_nonneg h0]
        omega

/-! ### The regions of a device -/

/-- The addresses of `n` bytes from `a` on; addresses are 64 bits wide, so a
range may pass the top of the address space. -/
def addrRange (a n : ℤ) : Set ℤ := {x | 0 ≤ x ∧ x < 2 ^ 64 ∧ toU64 (x - a) < n}

/-- A range that does not pass the top is an interval. -/
theorem addrRange_eq_Ico {a n : ℤ} (ha : 0 ≤ a) (h : a + n ≤ 2 ^ 64) :
    addrRange a n = Set.Ico a (a + n) := by
  ext x
  simp only [addrRange, Set.mem_ofPred_eq, Set.mem_Ico]
  unfold toU64
  omega

/-- The addresses from `mod_phys` to `mod_phys_end`. -/
def modRange (scr : ScratchAllocator) : Set ℤ := addrRange scr.modPhys (toU64 (scr.modPhysEnd - scr.modPhys))

/-- The addresses of a region. -/
def MemRegionInfo.range (r : MemRegionInfo) : Set ℤ := addrRange r.physAddr r.size

/-- What the allocator keeps: the regions of non-zero size are apart from each
other inside the modem's range, the virtual addresses go along with the
physical ones, and the current address counts what is allocated. -/
structure Partitioned (d : GulDev) : Prop where
  within : ∀ i, (d.scratchBufRegion i).size ≠ 0 → (d.scratchBufRegion i).range ⊆ modRange d.scratchAllocator
  apart : ∀ i j, i ≠ j → (d.scratchBufRegion i).size ≠ 0 → (d.scratchBufRegion j).size ≠ 0 →
    Disjoint (d.scratchBufRegion i).range (d.scratchBufRegion j).range
  vaddr : ∀ i, (d.scratchBufRegion i).size ≠ 0 →
    (d.scratchBufRegion i).vaddr - d.scratchAllocator.hostVaddr =
      toU64 ((d.scratchBufRegion i).physAddr - d.scratchAllocator.modPhys)
  current : d.scratchAllocator.modPhysCurrent =
    toU64 (d.scratchAllocator.modPhys + ∑ i, (d.scratchBufRegion i).size)

/-- The same in plain integers, where the modem's range does not pass the top
of the address space. -/
structure PartitionedIco (d : GulDev) : Prop where
  range : modRange d.scratchAllocator = Set.Ico d.scratchAllocator.modPhys d.scratchAllocator.modPhysEnd
  within : ∀ i, (d.scratchBufRegion i).size ≠ 0 →
    (d.scratchBufRegion i).range =
        Set.Ico (d.scratchBufRegion i).physAddr ((d.scratchBufRegion i).physAddr + (d.scratchBufRegion i).size) ∧
      d.scratchAllocator.modPhys ≤ (d.scratchBufRegion i).physAddr ∧
      (d.scratchBufRegion i).physAddr + (d.scratchBufRegion i).size ≤ d.scratchAllocator.modPhysEnd
  vaddr : ∀ i, (d.scratchBufRegion i).size ≠ 0 →
    (d.scratchBufRegion i).vaddr - d.scratchAllocator.hostVaddr =
      (d.scratchBufRegion i).physAddr - d.scratchAllocator.modPhys
  current : d.scratchAllocator.modPhysCurrent =
    d.scratchAllocator.modPhys + ∑ i, (d.scratchBufRegion i).size

section Partitioned

variable {d : GulDev} {A : Bump.Arena ScratchBufRequestId}

/-- An allocated region lies inside the arena. -/
theorem Refines.inside (h : Refines d A) {i : ScratchBufRequestId} (hi : (d.scratchBufRegion i).size ≠ 0) :
    A.size i ≠ 0 ∧ A.base i + A.size i ≤ A.cap := by
  have hs : A.size i ≠ 0 := by
    have := h.size i
    omega
  exact ⟨hs, (A.below i hs).trans A.fits⟩

theorem Refines.sum_size (h : Refines d A) : ∑ i, (d.scratchBufRegion i).size = A.top := by
  rw [Bump.Arena.top, Nat.cast_sum]
  exact Finset.sum_congr rfl fun i _ => h.size i

/-- Where a region lies, seen from `mod_phys`. -/
theorem Refines.mem_range (h : Refines d A) {i : ScratchBufRequestId} (hi : (d.scratchBufRegion i).size ≠ 0)
    {x : ℤ} : x ∈ (d.scratchBufRegion i).range ↔
      0 ≤ x ∧ x < 2 ^ 64 ∧ A.base i ≤ toU64 (x - d.scratchAllocator.modPhys) ∧
        toU64 (x - d.scratchAllocator.modPhys) < A.base i + A.size i := by
  obtain ⟨hs, hin⟩ := h.inside hi
  have hcap := h.cap_lt
  simp only [MemRegionInfo.range, addrRange, Set.mem_ofPred_eq, h.physAddr i hs, h.size i]
  unfold toU64
  omega

theorem Refines.partitioned (h : Refines d A) : Partitioned d where
  within i hi x hx := by
    obtain ⟨-, hin⟩ := h.inside hi
    have hcap := h.cap_lt
    obtain ⟨h0, h1, -, h2⟩ := (h.mem_range hi).mp hx
    refine ⟨h0, h1, ?_⟩
    have hlen : toU64 (d.scratchAllocator.modPhysEnd - d.scratchAllocator.modPhys) = A.cap := by
      rw [h.modPhysEnd]
      unfold toU64
      omega
    omega
  apart i j hij hi hj := by
    rw [Set.disjoint_left]
    intro x hx hx'
    have hsi := (h.inside hi).1
    have hsj := (h.inside hj).1
    obtain ⟨-, -, hlo, hhi⟩ := (h.mem_range hi).mp hx
    obtain ⟨-, -, hlo', hhi'⟩ := (h.mem_range hj).mp hx'
    rcases A.apart i j hij hsi hsj with hle | hle <;> omega
  vaddr i hi := by
    obtain ⟨hs, hin⟩ := h.inside hi
    have hhost := h.host
    have hcap := h.cap_lt
    rw [h.vaddr i hs, h.physAddr i hs]
    unfold toU64
    omega
  current := by rw [h.sum_size, h.current]

theorem Refines.partitionedIco (h : Refines d A)
    (hle : d.scratchAllocator.modPhys ≤ d.scratchAllocator.modPhysEnd) : PartitionedIco d := by
  have hcap := h.cap_lt
  have hmod := h.modPhys
  have htop := Bump.top_le_cap A
  have hend : d.scratchAllocator.modPhysEnd = d.scratchAllocator.modPhys + A.cap := by
    have := h.modPhysEnd
    unfold toU64 at this
    omega
  have hlt : d.scratchAllocator.modPhysEnd < 2 ^ 64 := by
    rw [h.modPhysEnd]
    exact Int.emod_lt_of_pos _ (by norm_num)
  have hphys : ∀ i, (d.scratchBufRegion i).size ≠ 0 →
      (d.scratchBufRegion i).physAddr = d.scratchAllocator.modPhys + A.base i := by
    intro i hi
    obtain ⟨hs, hin⟩ := h.inside hi
    rw [h.physAddr i hs]
    exact toU64_of_lt (by omega) (by omega)
  refine ⟨?_, fun i hi => ?_, fun i hi => ?_, ?_⟩
  · have hn : toU64 (d.scratchAllocator.modPhysEnd - d.scratchAllocator.modPhys) = A.cap := by
      rw [hend, add_sub_cancel_left]
      exact toU64_of_lt (by omega) (by omega)
    rw [modRange, hn, addrRange_eq_Ico hmod.1 (by omega), hend]
  · obtain ⟨hs, hin⟩ := h.inside hi
    have hsize := h.size i
    rw [MemRegionInfo.range, hphys i hi, hsize]
    exact ⟨addrRange_eq_Ico (by omega) (by omega), by omega, by omega⟩
  · obtain ⟨hs, hin⟩ := h.inside hi
    rw [h.partitioned.vaddr i hi, hphys i hi]
    exact toU64_of_lt (by omega) (by omega)
  · rw [h.partitioned.current, h.sum_size]
    exact toU64_of_lt (by omega) (by omega)

/-- When a call returns `NULL`. -/
theorem Refines.step_eq_none_iff (h : Refines d A) (id : ScratchBufRequestId) (n : Int32) :
    (Scratch.step d (id, n)).2 = none ↔ (d.scratchBufRegion id).size = 0 ∧
      (n.toInt < 0 ∨
        toU64 (d.scratchAllocator.modPhysEnd - d.scratchAllocator.modPhysCurrent) < n.toInt) := by
  rw [h.left]
  by_cases hid : (d.scratchBufRegion id).size = 0
  · by_cases hn : n.toInt < 0 ∨ (A.cap : ℤ) < A.top + n.toInt
    · rw [h.step_refused hid hn]
      simp only [hid, true_and, true_iff]
      omega
    · rw [h.step_granted hid (by omega) (by omega)]
      simp only [hid, true_and, reduceCtorEq, false_iff]
      omega
  · rw [step_held hid]
    simp [hid]

/-- Requests for different regions, none of them there yet, are all granted
exactly when no size is negative and the sizes together fit. -/
theorem Refines.outs_granted_iff : ∀ (rs : List Request) {d : GulDev} {A : Bump.Arena ScratchBufRequestId},
    Refines d A → (rs.map Prod.fst).Nodup → (∀ r ∈ rs, A.size r.1 = 0) →
    ((∀ o ∈ Machine.outs Scratch.step d rs, o.2 ≠ none) ↔
      (∀ r ∈ rs, 0 ≤ r.2.toInt) ∧ A.top + (rs.map fun r => r.2.toInt).sum ≤ A.cap)
  | [], d, A, _, _, _ => by simpa [Machine.outs] using Bump.top_le_cap A
  | (id, n) :: rs, d, A, h, hnd, hfree => by
    rw [List.map_cons, List.nodup_cons] at hnd
    have hid : A.size id = 0 := hfree _ List.mem_cons_self
    have hrest : ∀ r ∈ rs, r.1 ≠ id := 
      fun r hr he => hnd.1 (List.mem_map.mpr ⟨r, hr, he⟩)
    have hsize : (d.scratchBufRegion id).size = 0 := by rw [h.size, hid, Nat.cast_zero]
    have hnone := h.step_eq_none_iff id n
    rw [h.left] at hnone
    simp only [Machine.outs, List.forall_mem_cons, List.map_cons, List.sum_cons]
    by_cases hn : 0 ≤ n.toInt ∧ A.top + n.toInt ≤ A.cap
    · -- the first is granted: the arena grows by its size
      have hfit : A.top + n.toInt.toNat ≤ A.cap := by omega
      have hext := h.step id n
      rw [if_neg (by omega), Bump.alloc_free hid hfit] at hext
      have hfree' : ∀ r ∈ rs, (A.extend id n.toInt.toNat hid hfit).size r.1 = 0 := by
        intro r hr
        rw [Bump.size_extend_of_ne _ _ _ _ _ (hrest r hr)]
        exact hfree r (List.mem_cons_of_mem _ hr)
      rw [Refines.outs_granted_iff rs hext hnd.2 hfree', Bump.top_extend]
      have hsome : (Scratch.step d (id, n)).2 ≠ none := fun he => by have := hnone.mp he; omega
      have hcap : (A.extend id n.toInt.toNat hid hfit).cap = A.cap := rfl
      have hcast : ((A.top + n.toInt.toNat : ℕ) : ℤ) = A.top + n.toInt := by omega
      rw [hcap, hcast, add_assoc]
      simp only [hsome, ne_eq, not_false_eq_true, true_and, hn.1]
    · -- the first is refused, and later sizes do not make up for it
      have hrefused : (Scratch.step d (id, n)).2 = none := hnone.mpr ⟨hsize, by omega⟩
      constructor
      · intro hall
        exact absurd hrefused hall.1
      · intro hall
        have hsum : 0 ≤ (rs.map fun r => r.2.toInt).sum := by
          apply List.sum_nonneg
          intro x hx
          obtain ⟨r, hr, rfl⟩ := List.mem_map.mp hx
          exact hall.1.2 r hr
        omega

end Partitioned

/-- A call that returns `NULL` changes nothing. -/
theorem step_of_none {d : GulDev} {r : Request} (h : (step d r).2 = none) : (step d r).1 = d := by
  simp only [step, scratchBufAllocator] at h ⊢
  split
  · rfl
  · next hid =>
    split
    · rfl
    · next hc => simp [hid, hc] at h

/-- The regions the probe allocates are apart from each other inside the
modem's range. -/
theorem allocateScratchBufRegions_partitioned {H : Header} {memremap : ℤ → ℤ → Option ℤ}
    (hm : MapsKernelRange memremap) {P : Params} {id : ℤ} {d : GulDev}
    (h : gulScratchBufInit H memremap P id GulDev.zero = (0, d)) :
    Partitioned (allocateScratchBufRegions H P d) := by
  obtain ⟨A, hA⟩ := exec_refines (gulScratchBufInit_refines hm h) (regionRequests H P)
  exact hA.partitioned

/-- **The scratch allocator, after any sequence of requests.** -/
theorem scratchBufAllocator_run (H : Header) (memremap : ℤ → ℤ → Option ℤ) (hm : MapsKernelRange memremap)
    (P : Params) (id : ℤ) (d₀ : GulDev) (h : gulScratchBufInit H memremap P id GulDev.zero = (0, d₀))
    (rs : List Request) (d : GulDev) (hd : Machine.exec step d₀ rs = d) :
    Partitioned d ∧
    (d.scratchAllocator.modPhys ≤ d.scratchAllocator.modPhysEnd → PartitionedIco d) ∧
    (∀ i n, (d.scratchBufRegion i).size ≠ 0 → step d (i, n) = (d, some (d.scratchBufRegion i))) ∧
    (∀ i n, (step d (i, n)).2 = none ↔ (d.scratchBufRegion i).size = 0 ∧
      (n.toInt < 0 ∨
        toU64 (d.scratchAllocator.modPhysEnd - d.scratchAllocator.modPhysCurrent) < n.toInt)) ∧
    (∀ r, (step d r).2 = none → (step d r).1 = d) := by
  obtain ⟨A, hA⟩ := exec_refines (gulScratchBufInit_refines hm h) rs
  rw [hd] at hA
  exact ⟨hA.partitioned, hA.partitionedIco, fun i n hi => step_held hi n, hA.step_eq_none_iff,
    fun r => step_of_none⟩

/-- A kernel that maps up to 4 GB at one address. -/
def mapAt (_ n : ℤ) : Option ℤ := if n ≤ 2 ^ 32 then some 0xffff800000000000 else none

theorem mapAt_kernelRange : MapsKernelRange mapAt := by
  intro phys n vaddr h
  unfold mapAt at h
  split at h
  · obtain rfl := Option.some.inj h
    omega
  · cases h

/-- One modem with 16 MB for the host, asked for regions of every kind of
size: granted, repeated, empty, negative and too big. -/
theorem scratchBufAllocator_run_sixteenMB :
    let H : Header := ⟨6, 0x100000000, 0x40000000, 12⟩
    let P : Params := ⟨0x10000000, 0x90000000, 0, 0x1000000, 0⟩
    let d := Machine.exec step (gulScratchBufInit H mapAt P 0 GulDev.zero).2
      [(.hostData, 0x1000000), (.hostData, 5), (.rfData, 0), (.vspaFw, -1), (.firmware, 0x7fffffff)]
    Partitioned d ∧ PartitionedIco d ∧ (d.scratchBufRegion .hostData).size = 0x1000000 := by
  intro H P d
  have h := scratchBufAllocator_run H mapAt mapAt_kernelRange P 0 _ (Prod.ext (by decide +kernel) rfl) _ d rfl
  exact ⟨h.1, h.2.1 (by decide +kernel), by decide +kernel⟩

end Scratch
end La12xx
