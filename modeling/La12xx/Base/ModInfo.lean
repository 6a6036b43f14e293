/-
# What user space is told of the scratch memory, and may map

`gul_modinfo.c` reports the regions of a modem's scratch buffer and maps its
beginning, the areas of user space, into a process. Both rely on what
`allocate_scratch_buf_regions` placed, in which order, and neither looks: the
mapping takes the sum of the sizes for the end of the areas (`mapsUserRegions_iff`),
the report takes the first region for the start of the buffer
(`reportsSameMemory_iff`). The bound of a mapping is a sum of 64 bits as well.
-/
import La12xx.Base.Partition

namespace La12xx
namespace Scratch

/-! ### Where the regions lie -/

/-- The sizes asked for. -/
def sizesOf (rs : List Request) : List (ScratchBufRequestId × ℤ) := rs.map fun r => (r.1, r.2.toInt)

/-- A run of the allocator is a run of the arena. -/
theorem Refines.exec (rs : List Request) : ∀ {d : GulDev} {A : Bump.Arena ScratchBufRequestId}, Refines d A →
    Refines (Machine.exec Scratch.step d rs) (A.run (sizesOf rs)) := by
  induction rs with
  | nil => exact fun h => h
  | cons r rs ih => exact fun h => ih (h.step r.1 r.2)

/-- The allocator leaves the addresses of the buffer as they are. -/
theorem step_addresses (d : GulDev) (r : Request) :
    (step d r).1.scratchAllocator.hostPhys = d.scratchAllocator.hostPhys ∧
      (step d r).1.scratchAllocator.modPhys = d.scratchAllocator.modPhys ∧
      (step d r).1.scratchAllocator.size = d.scratchAllocator.size := by
  unfold step scratchBufAllocator
  simp only
  split
  · exact ⟨rfl, rfl, rfl⟩
  · split
    · exact ⟨rfl, rfl, rfl⟩
    · exact ⟨rfl, rfl, rfl⟩

theorem exec_addresses (rs : List Request) : ∀ d : GulDev,
    (Machine.exec step d rs).scratchAllocator.hostPhys = d.scratchAllocator.hostPhys ∧
      (Machine.exec step d rs).scratchAllocator.modPhys = d.scratchAllocator.modPhys ∧
      (Machine.exec step d rs).scratchAllocator.size = d.scratchAllocator.size := by
  induction rs with
  | nil => exact fun _ => ⟨rfl, rfl, rfl⟩
  | cons r rs ih =>
    intro d
    obtain ⟨h1, h2, h3⟩ := ih (step d r).1
    obtain ⟨h1', h2', h3'⟩ := step_addresses d r
    exact ⟨h1.trans h1', h2.trans h2', h3.trans h3'⟩

/-- The areas of user space, in the order they are asked for. -/
def userAreas (P : Params) : List Request :=
  areaRequest .modemShare P.modemShareBufSize ++ areaRequest .hostData P.modemHostDataSize ++
    areaRequest .rfData P.modemRfDataSize

/-- The driver's own regions, which come after them. -/
def driverRegions (H : Header) : List Request :=
  [(.firmware, Int32.ofInt H.maxImageSize), (.dbgLogger, Int32.ofInt H.epLoggerSize),
    (.vspaFw, Int32.ofInt vspaScratchBufMaxSize), (.vspaOverlay, Int32.ofInt vspaOverlaySize)]

theorem regionRequests_eq (H : Header) (P : Params) : regionRequests H P = userAreas P ++ driverRegions H := rfl

/-- An area of size 0 takes no room. -/
theorem placed_areaRequest {cap : ℕ} {x : ℤ} (h0 : -2 ^ 31 ≤ x) (h1 : x < 2 ^ 31) (id : ScratchBufRequestId)
    {t : ℤ} (ht : t ≤ cap) :
    Bump.placed cap t ((sizesOf (areaRequest id x)).map Prod.snd) = Bump.placed cap t [x] := by
  unfold areaRequest
  by_cases hx : x ≠ 0
  · rw [if_pos hx]
    show Bump.placed cap t [(Int32.ofInt x).toInt] = _
    rw [Int32.toInt_ofInt_of_le h0 h1]
  · rw [if_neg hx]
    have hzero : x = 0 := not_not.mp hx
    show t = _
    rw [hzero, Bump.placed, if_pos ⟨le_rfl, by omega⟩, add_zero]
    rfl

theorem fst_sizesOf (rs : List Request) : (sizesOf rs).map Prod.fst = rs.map Prod.fst := by
  rw [sizesOf, List.map_map]
  rfl

theorem sizesOf_append (rs rs' : List Request) : sizesOf (rs ++ rs') = sizesOf rs ++ sizesOf rs' := List.map_append

/-- Each region is asked for once, and the driver's are none of user space's. -/
theorem userAreas_nodup (H : Header) (P : Params) : ((sizesOf (userAreas P)).map Prod.fst).Nodup ∧
    ((sizesOf (driverRegions H)).map Prod.fst).Nodup ∧
    ∀ r ∈ sizesOf (driverRegions H), r.1 ∉ (sizesOf (userAreas P)).map Prod.fst := by
  have hnd := regionRequests_nodup H P
  rw [regionRequests_eq, List.map_append, List.nodup_append] at hnd
  rw [fst_sizesOf, fst_sizesOf]
  refine ⟨hnd.1, hnd.2.1, ?_⟩
  intro r hr hmem
  have hr' : r.1 ∈ (driverRegions H).map Prod.fst := by
    rw [← fst_sizesOf]
    exact List.mem_map_of_mem hr
  exact hnd.2.2 r.1 hmem r.1 hr' rfl

/-- What the areas of user space take of a buffer of `size` bytes: those that are negative
or do not fit are left out. -/
def userPlaced (H : Header) (P : Params) : ℤ :=
  Bump.placed (gulScratchBufSize H P).toNat 0 [P.modemShareBufSize, P.modemHostDataSize, P.modemRfDataSize]

section Placed

variable {H : Header} {P : Params} {d₀ : GulDev}

/-- The arena of the areas of user space. -/
def userArena (H : Header) (P : Params) : Bump.Arena ScratchBufRequestId :=
  (Bump.empty (gulScratchBufSize H P).toNat).run (sizesOf (userAreas P))

/-- The arena of all regions. -/
def regionArena (H : Header) (P : Params) : Bump.Arena ScratchBufRequestId :=
  (userArena H P).run (sizesOf (driverRegions H))

theorem allocate_refines (h : Refines d₀ (Bump.empty (gulScratchBufSize H P).toNat)) :
    Refines (allocateScratchBufRegions H P d₀) (regionArena H P) := by
  rw [regionArena, userArena, ← Bump.run_append, ← sizesOf_append, ← regionRequests_eq]
  exact h.exec _

@[simp] theorem cap_userArena : (userArena H P).cap = (gulScratchBufSize H P).toNat := Bump.cap_run _ _

@[simp] theorem cap_regionArena : (regionArena H P).cap = (gulScratchBufSize H P).toNat := by
  rw [regionArena, Bump.cap_run, cap_userArena]

theorem size_userArena_driver {r : ScratchBufRequestId × ℤ} (hr : r ∈ sizesOf (driverRegions H)) :
    (userArena H P).size r.1 = 0 :=
  (Bump.run_of_not_mem _ ((userAreas_nodup H P).2.2 r hr)).1

/-- The areas of user space end where they are placed. -/
theorem top_userArena {M : ModuleParams} {n : ℕ} (hA : Accepted H M n P) :
    ((userArena H P).top : ℤ) = userPlaced H P := by
  obtain ⟨hs0, hs1⟩ := share_bounds hA
  obtain ⟨hh0, hh1⟩ := host_bounds hA
  obtain ⟨hr0, hr1⟩ := rf_bounds hA
  set cap := (gulScratchBufSize H P).toNat
  have hcap : (0 : ℤ) ≤ cap := Int.natCast_nonneg _
  calc ((userArena H P).top : ℤ)
      = Bump.placed cap 0 ((sizesOf (userAreas P)).map Prod.snd) := by
        rw [userArena, Bump.top_run _ (userAreas_nodup H P).1 fun _ _ => rfl, Bump.top_empty]
        rfl
    _ = Bump.placed cap (Bump.placed cap (Bump.placed cap 0 [P.modemShareBufSize]) [P.modemHostDataSize])
          [P.modemRfDataSize] := by
        rw [userAreas, sizesOf_append, sizesOf_append, List.map_append, List.map_append, Bump.placed_append,
          Bump.placed_append, placed_areaRequest hs0 hs1 _ hcap,
          placed_areaRequest hh0 hh1 _ (Bump.placed_le _ hcap),
          placed_areaRequest hr0 hr1 _ (Bump.placed_le _ (Bump.placed_le _ hcap))]
    _ = userPlaced H P := by
        rw [← Bump.placed_append, ← Bump.placed_append]
        rfl

end Placed

/-- What the kernel promises of `memremap`: it maps only physical addresses, of at most 52
bits. -/
def MapsPhysical (memremap : ℤ → ℤ → Option ℤ) : Prop :=
  ∀ phys n vaddr, memremap phys n = some vaddr → phys + n ≤ 2 ^ 52

/-- A device whose buffer is initialised: where the buffer is, and how long. -/
structure Placed (H : Header) (P : Params) (phys : ℤ) (d : GulDev) : Prop where
  refines : Refines d (Bump.empty (gulScratchBufSize H P).toNat)
  hostPhys : d.scratchAllocator.hostPhys = phys
  size_nonneg : 0 ≤ gulScratchBufSize H P
  size_lt : gulScratchBufSize H P < 2 ^ 31
  phys_nonneg : 0 ≤ phys
  phys_le : phys + gulScratchBufSize H P ≤ 2 ^ 52
  modPhys : d.scratchAllocator.modPhys = toU64 (H.dmaBufEndAddr - gulScratchBufSize H P)
  size : d.scratchAllocator.size = gulScratchBufSize H P
  regions : d.scratchBufRegion = GulDev.zero.scratchBufRegion

theorem gulScratchBufInit_placed {H : Header} {memremap : ℤ → ℤ → Option ℤ} (hm : MapsKernelRange memremap)
    (hp : MapsPhysical memremap) {P : Params} {i : ℤ} {d : GulDev}
    (h : gulScratchBufInit H memremap P i GulDev.zero = (0, d)) :
    Placed H P (gulScratchBufPhysAddr H P i) d := by
  have href := gulScratchBufInit_refines hm h
  have hb : -2 ^ 31 ≤ gulScratchBufSize H P ∧ gulScratchBufSize H P < 2 ^ 31 := align_bounds H _
  simp only [gulScratchBufInit] at h
  split at h
  · simp [enomem] at h
  · split at h
    · simp [enomem] at h
    · next vaddr hv =>
      have h0 := size_nonneg_of_mapped hm hb.1 hv
      have hsize : toU64 (gulScratchBufSize H P) = gulScratchBufSize H P := toU64_of_lt h0 (by omega)
      have hphys := hp _ _ vaddr hv
      rw [hsize] at hphys
      obtain ⟨-, rfl⟩ := Prod.mk.inj h
      exact ⟨href, rfl, h0, hb.2, Int.emod_nonneg _ (by norm_num), hphys, rfl, hsize, rfl⟩

/-! ### The mapping into a process -/

/-- `struct vm_area_struct` -/
structure VmArea where
  vmStart : ℤ
  vmEnd : ℤ
  vmPgoff : ℤ
deriving DecidableEq, Repr

/-- A call of `remap_pfn_range`. -/
structure RemapCall where
  addr : ℤ
  pfn : ℤ
  size : ℤ
deriving DecidableEq, Repr

/-- The bytes asked for. -/
def VmArea.size (vma : VmArea) : ℤ := toU64 (vma.vmEnd - vma.vmStart)

/-- `gul_modinfo_mmap`: its return value and the call it makes of `remap_pfn_range`, which
is a parameter. `gulDev` is the `private_data` of the file. -/
def gulModinfoMmap (H : Header) (P : Params) (remapPfnRange : RemapCall → ℤ) (gulDev : Option GulDev) (vma : VmArea) :
    ℤ × Option RemapCall :=
  let offset := toU64 (vma.vmPgoff * H.pageSize)
  let size := vma.size
  match gulDev with
  | none => (-einval, none)
  | some d =>
    let hostPhys := d.scratchAllocator.hostPhys
    if offset ≥ hostPhys ∧
        toU64 (offset + size) ≤ toU64 (hostPhys + P.modemShareBufSize + P.modemHostDataSize + P.modemRfDataSize) then
      let call : RemapCall := ⟨vma.vmStart, vma.vmPgoff, size⟩
      (remapPfnRange call, some call)
    else (-einval, none)

/-- The physical addresses a call maps, without a bound. -/
def RemapCall.physRange (H : Header) (c : RemapCall) : Set ℤ :=
  Set.Ico (c.pfn * H.pageSize) (c.pfn * H.pageSize + c.size)

/-- The sizes of the areas of user space together. -/
def userSize (P : Params) : ℤ := P.modemShareBufSize + P.modemHostDataSize + P.modemRfDataSize

/-- Where user space may map. -/
def userWindow (P : Params) (d : GulDev) : Set ℤ :=
  Set.Ico d.scratchAllocator.hostPhys (d.scratchAllocator.hostPhys + userSize P)

/-- Where a region is in the host's memory. -/
def regionHostRange (d : GulDev) (id : ScratchBufRequestId) : Set ℤ :=
  let offset := toU64 ((d.scratchBufRegion id).vaddr - d.scratchAllocator.hostVaddr)
  Set.Ico (d.scratchAllocator.hostPhys + offset)
    (d.scratchAllocator.hostPhys + offset + (d.scratchBufRegion id).size)

/-- What is mapped is in the window, and nothing of the driver's is. -/
structure MapsUserRegions (H : Header) (P : Params) (remapPfnRange : RemapCall → ℤ) (d : GulDev) (vma : VmArea) :
    Prop where
  contained : ∀ c, (gulModinfoMmap H P remapPfnRange (some d) vma).2 = some c → c.physRange H ⊆ userWindow P d
  apart : ∀ r ∈ driverRegions H, (d.scratchBufRegion r.1).size ≠ 0 →
    Disjoint (userWindow P d) (regionHostRange d r.1)

/-- The areas of user space are placed with all their size, or there is no room for a
region of the driver after them. -/
def UserAreasPlaced (H : Header) (P : Params) : Prop :=
  userSize P ≤ userPlaced H P ∨
    ∀ x ∈ [H.maxImageSize, H.epLoggerSize, vspaScratchBufMaxSize, vspaOverlaySize],
      0 < x → gulScratchBufSize H P < userPlaced H P + x

/-- Neither the end of the range nor that of the window passes the ends of the address
space, or the range is refused as it then looks. -/
def EndsInside (H : Header) (P : Params) (hostPhys : ℤ) (vma : VmArea) : Prop :=
  vma.size = 0 ∨
  (vma.vmPgoff * H.pageSize + vma.size < 2 ^ 64 ∧ 0 ≤ hostPhys + userSize P) ∨
  toU64 (vma.vmPgoff * H.pageSize) < hostPhys ∨
  toU64 (hostPhys + userSize P) < toU64 (vma.vmPgoff * H.pageSize + vma.size)

/-- When the mapping is made. -/
theorem gulModinfoMmap_eq_some {H : Header} {P : Params} {remapPfnRange : RemapCall → ℤ} {d : GulDev} {vma : VmArea}
    {c : RemapCall} : (gulModinfoMmap H P remapPfnRange (some d) vma).2 = some c ↔
      (d.scratchAllocator.hostPhys ≤ toU64 (vma.vmPgoff * H.pageSize) ∧
        toU64 (vma.vmPgoff * H.pageSize + vma.size) ≤ toU64 (d.scratchAllocator.hostPhys + userSize P)) ∧
      c = ⟨vma.vmStart, vma.vmPgoff, vma.size⟩ := by
  have hend : toU64 (toU64 (vma.vmPgoff * H.pageSize) + vma.size) = toU64 (vma.vmPgoff * H.pageSize + vma.size) := by
    unfold toU64
    omega
  have hlimit : d.scratchAllocator.hostPhys + P.modemShareBufSize + P.modemHostDataSize + P.modemRfDataSize =
      d.scratchAllocator.hostPhys + userSize P := by
    unfold userSize
    ring
  unfold gulModinfoMmap
  simp only [hend, hlimit]
  split
  · next h => simp only [Option.some.injEq, eq_comm, ge_iff_le.mp h.1, h.2, true_and]
  · next h => simp only [reduceCtorEq, false_iff, not_and]; exact fun h' => absurd h' h

/-- What is mapped is in the window exactly if no end wraps. -/
theorem contained_iff {H : Header} (hH : H.Documented) {P : Params} {remapPfnRange : RemapCall → ℤ} {d : GulDev}
    {vma : VmArea} (hpg : 0 ≤ vma.vmPgoff) (h0 : 0 ≤ d.scratchAllocator.hostPhys)
    (h1 : d.scratchAllocator.hostPhys + userSize P < 2 ^ 64)
    (h2 : -2 ^ 64 ≤ d.scratchAllocator.hostPhys + userSize P) :
    (∀ c, (gulModinfoMmap H P remapPfnRange (some d) vma).2 = some c → c.physRange H ⊆ userWindow P d) ↔
      EndsInside H P d.scratchAllocator.hostPhys vma := by
  have hp := hH.pageSize_pos
  have hpos : 0 ≤ vma.vmPgoff * H.pageSize := mul_nonneg hpg hp.1.le
  have hsize : 0 ≤ vma.size ∧ vma.size < 2 ^ 64 := by
    unfold VmArea.size toU64
    omega
  have hcall : (∀ c, (gulModinfoMmap H P remapPfnRange (some d) vma).2 = some c → c.physRange H ⊆ userWindow P d) ↔
      (d.scratchAllocator.hostPhys ≤ toU64 (vma.vmPgoff * H.pageSize) ∧
        toU64 (vma.vmPgoff * H.pageSize + vma.size) ≤ toU64 (d.scratchAllocator.hostPhys + userSize P) →
      Set.Ico (vma.vmPgoff * H.pageSize) (vma.vmPgoff * H.pageSize + vma.size) ⊆ userWindow P d) := by
    constructor
    · intro h hgate
      exact h ⟨vma.vmStart, vma.vmPgoff, vma.size⟩ (gulModinfoMmap_eq_some.mpr ⟨hgate, rfl⟩)
    · intro h c hc
      obtain ⟨hgate, rfl⟩ := gulModinfoMmap_eq_some.mp hc
      exact h hgate
  rw [hcall, userWindow, EndsInside]
  generalize vma.vmPgoff * H.pageSize = start at *
  generalize vma.size = size at *
  generalize d.scratchAllocator.hostPhys = base at *
  generalize userSize P = len at *
  rcases hsize.1.eq_or_lt with hz | hz
  · refine iff_of_true ?_ (Or.inl hz.symm)
    intro _
    rw [← hz, add_zero, Set.Ico_self]
    exact Set.empty_subset _
  · have hsub : Set.Ico start (start + size) ⊆ Set.Ico base (base + len) ↔ base ≤ start ∧ start + size ≤ base + len :=
      Set.Ico_subset_Ico_iff (by omega)
    rw [hsub]
    unfold toU64
    constructor
    · intro h
      omega
    · intro h
      omega

section Apart

variable {H : Header} {M : ModuleParams} {n : ℕ} {P : Params} (hA : Accepted H M n P) {phys : ℤ} {d : GulDev}
  (hd : Placed H P phys d)

/-- A region is as far from the start of the buffer in the host's memory as in the arena. -/
theorem Refines.hostRange_eq {d : GulDev} {A : Bump.Arena ScratchBufRequestId} (h : Refines d A)
    {id : ScratchBufRequestId} (hid : A.size id ≠ 0) :
    regionHostRange d id = Set.Ico (d.scratchAllocator.hostPhys + A.base id)
      (d.scratchAllocator.hostPhys + A.base id + A.size id) := by
  have hcap := h.cap_lt
  have hin := (A.below id hid).trans A.fits
  have hoff : toU64 ((d.scratchBufRegion id).vaddr - d.scratchAllocator.hostVaddr) = A.base id := by
    rw [h.vaddr id hid]
    unfold toU64
    omega
  unfold regionHostRange
  rw [hoff, h.size id]

include hA hd

omit hA in
theorem Placed.allocated : Refines (allocateScratchBufRegions H P d) (regionArena H P) := allocate_refines hd.refines

omit hA hd in
/-- The sizes the driver asks for are those of its regions. -/
theorem mem_driverRegions (hH : H.Documented) {x : ℤ} :
    (∃ r ∈ sizesOf (driverRegions H), r.2 = x) ↔
      x ∈ [H.maxImageSize, H.epLoggerSize, vspaScratchBufMaxSize, vspaOverlaySize] := by
  obtain ⟨himg, hlog, -, -⟩ := fixed_toInt hH
  have hfw : (Int32.ofInt vspaScratchBufMaxSize).toInt = vspaScratchBufMaxSize := by decide
  have hov : (Int32.ofInt vspaOverlaySize).toInt = vspaOverlaySize := by decide
  simp only [sizesOf, driverRegions, List.map_cons, List.map_nil, List.mem_cons, List.not_mem_nil, or_false,
    exists_eq_or_imp, exists_eq_left, himg, hlog, hfw, hov, eq_comm]

/-- If the areas of user space are not placed and a region of the driver has room after
them, the first that has lies in the window. -/
theorem userAreasPlaced_of_apart (hH : H.Documented)
    (h : ∀ r ∈ driverRegions H, ((allocateScratchBufRegions H P d).scratchBufRegion r.1).size ≠ 0 →
      Disjoint (userWindow P (allocateScratchBufRegions H P d))
        (regionHostRange (allocateScratchBufRegions H P d) r.1)) : UserAreasPlaced H P := by
  have href := hd.allocated
  have htop := top_userArena hA
  have hcap : (((userArena H P).cap : ℕ) : ℤ) = gulScratchBufSize H P := by
    rw [cap_userArena]
    exact Int.toNat_of_nonneg hd.size_nonneg
  by_contra hno
  unfold UserAreasPlaced at hno
  push Not at hno
  obtain ⟨hlt, x, hx, hpos, hfit⟩ := hno
  obtain ⟨q, hq, rfl⟩ := (mem_driverRegions hH).mpr hx
  -- the first region that is placed lies directly after the areas, inside the window
  obtain ⟨r, hr, hsize, hbase⟩ := Bump.exists_base_eq_top (sizesOf (driverRegions H)) (userAreas_nodup H P).2.1
    (fun _ hr => size_userArena_driver hr) ⟨q, hq, hpos, by rw [htop, hcap]; exact hfit⟩
  obtain ⟨r', hr', rfl⟩ := List.mem_map.mp hr
  have hsize' : (regionArena H P).size r'.1 ≠ 0 := hsize
  have hdis := h r' hr' (by rw [href.size]; exact_mod_cast hsize')
  rw [href.hostRange_eq hsize', Set.disjoint_left] at hdis
  have hb : (((regionArena H P).base r'.1 : ℕ) : ℤ) = userPlaced H P := by
    rw [← htop]
    exact_mod_cast hbase
  have hplaced : 0 ≤ userPlaced H P := by
    rw [← htop]
    exact Int.natCast_nonneg _
  refine hdis (a := (allocateScratchBufRegions H P d).scratchAllocator.hostPhys + userPlaced H P) ?_ ?_
  · rw [userWindow, Set.mem_Ico]
    omega
  · rw [hb, Set.mem_Ico]
    omega

/-- The driver's regions come after the areas of user space, or they have no room. -/
theorem apart_of_userAreasPlaced (hH : H.Documented) (h : UserAreasPlaced H P) {r : Request}
    (hr : r ∈ driverRegions H) (hsize : ((allocateScratchBufRegions H P d).scratchBufRegion r.1).size ≠ 0) :
    Disjoint (userWindow P (allocateScratchBufRegions H P d))
      (regionHostRange (allocateScratchBufRegions H P d) r.1) := by
  have href := hd.allocated
  have htop := top_userArena hA
  have hmem : (r.1, r.2.toInt) ∈ sizesOf (driverRegions H) := List.mem_map_of_mem hr
  rw [href.size] at hsize
  have hsize' : (regionArena H P).size r.1 ≠ 0 := by exact_mod_cast hsize
  rcases h with hle | hnone
  · have hbase : (userArena H P).top ≤ (regionArena H P).base r.1 :=
      Bump.top_le_base_run _ (size_userArena_driver hmem) hsize'
    rw [href.hostRange_eq hsize', Set.disjoint_left]
    intro a ha ha'
    rw [userWindow, Set.mem_Ico] at ha
    rw [Set.mem_Ico] at ha'
    omega
  · have hcap : (((userArena H P).cap : ℕ) : ℤ) = gulScratchBufSize H P := by
      rw [cap_userArena]
      exact Int.toNat_of_nonneg hd.size_nonneg
    exfalso
    apply hsize'
    rw [regionArena, Bump.size_run_of_none_fits _ (userAreas_nodup H P).2.1 fun _ hr => size_userArena_driver hr]
    · exact size_userArena_driver hmem
    · intro q hq hpos
      rw [htop, hcap]
      exact hnone _ ((mem_driverRegions hH).mp ⟨q, hq, rfl⟩) hpos

/-- Nothing of the driver's is in the window exactly if the areas of user space are placed,
or nothing is placed after them. -/
theorem apart_iff (hH : H.Documented) :
    (∀ r ∈ driverRegions H, ((allocateScratchBufRegions H P d).scratchBufRegion r.1).size ≠ 0 →
      Disjoint (userWindow P (allocateScratchBufRegions H P d))
        (regionHostRange (allocateScratchBufRegions H P d) r.1)) ↔
      UserAreasPlaced H P :=
  ⟨userAreasPlaced_of_apart hA hd hH, fun h _ hr hsize => apart_of_userAreasPlaced hA hd hH h hr hsize⟩

end Apart

/-- Parameters that fit place the areas with all their size. -/
theorem userAreasPlaced_of_fits {H : Header} (hH : H.Documented) {M : ModuleParams} {n : ℕ} {P : Params}
    (hA : Accepted H M n P) (hF : FitsExactly H M) : UserAreasPlaced H P := by
  obtain ⟨hlt, es, er, eh⟩ := exact_of_fits hH hA hF
  have hs := hF.share
  have hr := hF.rf
  have hh := hF.host
  have hexact : exactSize H M = 0x1000000 + exactShare H M + exactRf H M + exactHost H M := rfl
  have hS : gulScratchBufSize H P = exactSize H M := gulScratchBufSize_eq hH es er eh (by omega) hlt
  left
  unfold userPlaced userSize
  simp only [Bump.placed, hS, es, er, eh]
  rw [if_pos (by omega), if_pos (by omega), if_pos (by omega)]
  omega

/-- **A mapping stays inside the areas of user space exactly if they are placed as asked
for and no end wraps.** -/
theorem mapsUserRegions_iff (H : Header) (hH : H.Documented) (qbman : Option Qbman) (M : ModuleParams) (n : ℕ)
    (P : Params) (hok : gulPcidevInit H qbman M = .ok (n, P)) (memremap : ℤ → ℤ → Option ℤ)
    (hm : MapsKernelRange memremap) (hp : MapsPhysical memremap) (i : ℕ) (d₀ : GulDev)
    (hinit : gulScratchBufInit H memremap P i GulDev.zero = (0, d₀)) (remapPfnRange : RemapCall → ℤ) (vma : VmArea)
    (hpg : 0 ≤ vma.vmPgoff) :
    MapsUserRegions H P remapPfnRange (allocateScratchBufRegions H P d₀) vma ↔
      UserAreasPlaced H P ∧ EndsInside H P (gulScratchBufPhysAddr H P i) vma := by
  have hA := accepted_of_ok hok
  have hd := gulScratchBufInit_placed hm hp hinit
  have hphys : (allocateScratchBufRegions H P d₀).scratchAllocator.hostPhys = gulScratchBufPhysAddr H P i :=
    (exec_addresses _ d₀).1.trans hd.hostPhys
  obtain ⟨hs0, hs1⟩ := share_bounds hA
  obtain ⟨hh0, hh1⟩ := host_bounds hA
  obtain ⟨hr0, hr1⟩ := rf_bounds hA
  have hnonneg := hd.phys_nonneg
  have hle := hd.phys_le
  have hsize := hd.size_nonneg
  have huser : -3 * 2 ^ 31 ≤ userSize P ∧ userSize P < 3 * 2 ^ 31 := by
    unfold userSize
    omega
  have hcontained : (∀ c, (gulModinfoMmap H P remapPfnRange (some (allocateScratchBufRegions H P d₀)) vma).2 = some c →
      c.physRange H ⊆ userWindow P (allocateScratchBufRegions H P d₀)) ↔
        EndsInside H P (gulScratchBufPhysAddr H P i) vma := by
    rw [← hphys] at hnonneg hle ⊢
    exact contained_iff hH hpg hnonneg (by omega) (by omega)
  constructor
  · intro h
    exact ⟨(apart_iff hA hd hH).mp h.apart, hcontained.mp h.contained⟩
  · rintro ⟨hplaced, hends⟩
    exact ⟨hcontained.mpr hends, (apart_iff hA hd hH).mpr hplaced⟩

/-- A kernel that maps up to 4 GB of the lower 52 bits at one address. -/
def mapLow (phys n : ℤ) : Option ℤ :=
  if n ≤ 2 ^ 32 ∧ phys + n ≤ 2 ^ 52 then some 0xffff800000000000 else none

theorem mapLow_maps : MapsKernelRange mapLow ∧ MapsPhysical mapLow := by
  constructor
  · intro phys n vaddr h
    obtain ⟨hn, he⟩ := Option.ite_none_right_eq_some.mp h
    obtain rfl := Option.some.inj he
    omega
  · intro phys n vaddr h
    exact (Option.ite_none_right_eq_some.mp h).1.2

/-- The first modem of `twoModems`, with its regions. -/
def firstModem : GulDev :=
  allocateScratchBufRegions sixCoreHeader ⟨0x8000000, 0x90000000, 0x100000, 0x2e00000, 0⟩
    (gulScratchBufInit sixCoreHeader mapLow ⟨0x8000000, 0x90000000, 0x100000, 0x2e00000, 0⟩ (0 : ℕ) GulDev.zero).2

/-- The first page of the shared area is mapped. -/
theorem mapsUserRegions_firstPage : MapsUserRegions sixCoreHeader ⟨0x8000000, 0x90000000, 0x100000, 0x2e00000, 0⟩
    (fun _ => 0) firstModem ⟨0x10000, 0x11000, 0x90000⟩ := by
  have hok : gulPcidevInit sixCoreHeader none twoModems =
      .ok (2, ⟨0x8000000, 0x90000000, 0x100000, 0x2e00000, 0⟩) := by decide +kernel
  have hinit : (gulScratchBufInit sixCoreHeader mapLow ⟨0x8000000, 0x90000000, 0x100000, 0x2e00000, 0⟩ (0 : ℕ)
      GulDev.zero).1 = 0 := by decide +kernel
  refine (mapsUserRegions_iff sixCoreHeader sixCoreHeader_documented none twoModems 2 _ hok mapLow mapLow_maps.1
    mapLow_maps.2 0 _ (Prod.ext hinit rfl) (fun _ => 0) ⟨0x10000, 0x11000, 0x90000⟩ (by decide)).mpr ⟨?_, ?_⟩
  · exact Or.inl (by decide +kernel)
  · exact Or.inr (Or.inl ⟨by decide +kernel, by decide +kernel⟩)

/-- Areas of 4 GB together in 16 MB: what a modem needs wraps to `16 MB`. -/
def wrappedAreas : ModuleParams := ⟨1, 0x1000000, 0x90000000, 0x70000000, 0x70000000, 0x20000000, "vspa"⟩

/-- The modem of `wrappedAreas`, with its regions. -/
def wrappedModem : GulDev :=
  allocateScratchBufRegions sixCoreHeader ⟨0x1000000, 0x90000000, 0x70000000, 0x20000000, 0x70000000⟩
    (gulScratchBufInit sixCoreHeader mapLow ⟨0x1000000, 0x90000000, 0x70000000, 0x20000000, 0x70000000⟩ (0 : ℕ)
      GulDev.zero).2

/-- The last page below 2^64 and the one after it pass the check for any parameters. With
`wrappedAreas`, which are accepted, the firmware is where user space may map. -/
theorem mapped_astray :
    ¬ MapsUserRegions sixCoreHeader ⟨0x8000000, 0x90000000, 0x100000, 0x2e00000, 0⟩ (fun _ => 0) firstModem
        ⟨0x10000, 0x12000, 2 ^ 52 - 1⟩ ∧
    gulPcidevInit sixCoreHeader none wrappedAreas =
      .ok (1, ⟨0x1000000, 0x90000000, 0x70000000, 0x20000000, 0x70000000⟩) ∧
    ¬ MapsUserRegions sixCoreHeader ⟨0x1000000, 0x90000000, 0x70000000, 0x20000000, 0x70000000⟩ (fun _ => 0)
        wrappedModem ⟨0x10000, 0x11000, 0x90000⟩ := by
  refine ⟨?_, by decide +kernel, ?_⟩
  · intro h
    have hcall := h.contained ⟨0x10000, 2 ^ 52 - 1, 0x2000⟩ (by decide +kernel)
    have hmem : (2 ^ 64 - 0x1000 : ℤ) ∈ RemapCall.physRange sixCoreHeader ⟨0x10000, 2 ^ 52 - 1, 0x2000⟩ := by
      constructor <;> decide +kernel
    exact absurd (hcall hmem).2 (by decide +kernel)
  · intro h
    have hdis := h.apart (.firmware, Int32.ofInt sixCoreHeader.maxImageSize) List.mem_cons_self (by decide +kernel)
    rw [Set.disjoint_left] at hdis
    refine hdis (a := 0x90000000) ?_ ?_
    · constructor <;> decide +kernel
    · constructor <;> decide +kernel

/-! ### What is reported -/

/-- `modinfo_t`: what it says of one scratch region. -/
structure ScratchRegionInfo where
  modemPhyAddr : ℤ
  hostPhyAddr : ℤ
  size : ℤ
deriving DecidableEq, Repr

/-- `gul_modinfo_get`, its loop over the scratch regions. Addresses of the modem have 32
bits, those of the host 64. -/
def gulModinfoGet (d : GulDev) (id : ScratchBufRequestId) : ScratchRegionInfo :=
  let scratchbufHostPhyAddr := d.scratchAllocator.hostPhys
  -- taken in the round `i == 0`
  let scratchModPhyAddr := toU32 (d.scratchBufRegion .modemShare).physAddr
  let modemPhyAddr := toU32 (d.scratchBufRegion id).physAddr
  { modemPhyAddr := modemPhyAddr
    hostPhyAddr := toU64 (scratchbufHostPhyAddr + toU32 (modemPhyAddr - scratchModPhyAddr))
    size := toU32 (d.scratchBufRegion id).size }

/-- What `ls_pcie_iatu_outbound_set` sets up: a window of the modem's addresses. -/
structure OutboundWindow where
  cpuAddr : ℤ
  pciAddr : ℤ
  size : ℤ
deriving DecidableEq, Repr

/-- `gul_scratch_outbound_create` -/
def gulScratchOutboundCreate (d : GulDev) : OutboundWindow :=
  ⟨d.scratchAllocator.modPhys, d.scratchAllocator.hostPhys, toU32 d.scratchAllocator.size⟩

/-- Where an address of the modem is in the host's memory. -/
def OutboundWindow.translate (w : OutboundWindow) (addr : ℤ) : Option ℤ :=
  if w.cpuAddr ≤ addr ∧ addr < w.cpuAddr + w.size then some (toU64 (w.pciAddr + (addr - w.cpuAddr))) else none

/-- The two addresses of a region denote the same memory, byte by byte. -/
def ReportsSameMemory (d : GulDev) : Prop :=
  ∀ id, (gulModinfoGet d id).size ≠ 0 → ∀ o, 0 ≤ o → o < (gulModinfoGet d id).size →
    (gulScratchOutboundCreate d).translate ((gulModinfoGet d id).modemPhyAddr + o) =
      some (toU64 ((gulModinfoGet d id).hostPhyAddr + o))

/-- The buffer has room below the end of the modem's addresses, the regions placed in it
start below 4 GB, and the first of them is the shared area, or the buffer starts at
address 0. -/
def StartsWithShare (H : Header) (P : Params) : Prop :=
  gulScratchBufSize H P ≤ H.dmaBufEndAddr ∧
    (∀ id, (regionArena H P).size id ≠ 0 →
      H.dmaBufEndAddr - gulScratchBufSize H P + (regionArena H P).base id < 2 ^ 32) ∧
    ((0 < P.modemShareBufSize ∧ P.modemShareBufSize ≤ gulScratchBufSize H P) ∨
      gulScratchBufSize H P = H.dmaBufEndAddr)

/-- No region has room in the buffer. -/
def NothingPlaced (H : Header) (P : Params) : Prop :=
  ∀ r ∈ regionRequests H P, 0 < r.2.toInt → gulScratchBufSize H P < r.2.toInt

/-- A request leaves the other regions as they are. -/
theorem step_of_ne {d : GulDev} {r : Request} {id : ScratchBufRequestId} (h : id ≠ r.1) :
    (step d r).1.scratchBufRegion id = d.scratchBufRegion id := by
  unfold step scratchBufAllocator
  simp only
  split
  · rfl
  · split
    · rfl
    · exact Function.update_of_ne h _ _

theorem exec_of_not_mem (rs : List Request) : ∀ {d : GulDev} {id : ScratchBufRequestId}, id ∉ rs.map Prod.fst →
    (Machine.exec step d rs).scratchBufRegion id = d.scratchBufRegion id := by
  induction rs with
  | nil => exact fun _ => rfl
  | cons r rs ih =>
    intro d id h
    rw [List.map_cons, List.mem_cons, not_or] at h
    exact (ih h.2).trans (step_of_ne h.1)

theorem regionArena_eq (H : Header) (P : Params) :
    regionArena H P = (Bump.empty (gulScratchBufSize H P).toNat).run (sizesOf (regionRequests H P)) := by
  rw [regionRequests_eq, sizesOf_append, Bump.run_append]
  rfl

section Report

variable {H : Header} {M : ModuleParams} {n : ℕ} {P : Params} (hA : Accepted H M n P) {phys : ℤ} {d : GulDev}
  (hd : Placed H P phys d)
include hd

/-- Some region is placed unless none has room. -/
theorem nothingPlaced_iff : (∀ id, (regionArena H P).size id = 0) ↔ NothingPlaced H P := by
  have hcap : (((gulScratchBufSize H P).toNat : ℕ) : ℤ) = gulScratchBufSize H P := Int.toNat_of_nonneg hd.size_nonneg
  have hnd : ((sizesOf (regionRequests H P)).map Prod.fst).Nodup := by
    rw [fst_sizesOf]
    exact regionRequests_nodup H P
  rw [regionArena_eq]
  constructor
  · intro h r hr hpos
    by_contra hfit
    obtain ⟨q, -, hsize, -⟩ := Bump.exists_base_eq_top (sizesOf (regionRequests H P)) hnd
      (fun q _ => (rfl : (Bump.empty (gulScratchBufSize H P).toNat).size q.1 = 0))
      ⟨(r.1, r.2.toInt), List.mem_map_of_mem hr, hpos, by
        rw [Bump.top_empty, Nat.cast_zero, zero_add]
        exact (not_lt.mp hfit).trans hcap.ge⟩
    exact hsize (h q.1)
  · intro h id
    rw [Bump.size_run_of_none_fits _ hnd fun _ _ => rfl]
    · rfl
    · intro q hq hpos
      obtain ⟨r, hr, rfl⟩ := List.mem_map.mp hq
      rw [Bump.top_empty, Nat.cast_zero, zero_add]
      exact hcap.le.trans_lt (h r hr hpos)

omit hd in
/-- The first request is for the shared area. -/
theorem regionRequests_cons (hne : P.modemShareBufSize ≠ 0) :
    ∃ rs, regionRequests H P = (.modemShare, Int32.ofInt P.modemShareBufSize) :: rs := by
  unfold regionRequests areaRequest
  rw [if_pos hne]
  exact ⟨_, rfl⟩

include hA

/-- A shared area that fits is at the start of the buffer. -/
theorem share_placed (hpos : 0 < P.modemShareBufSize) (hle : P.modemShareBufSize ≤ gulScratchBufSize H P) :
    (regionArena H P).size .modemShare ≠ 0 ∧ (regionArena H P).base .modemShare = 0 := by
  have hcap : (((gulScratchBufSize H P).toNat : ℕ) : ℤ) = gulScratchBufSize H P := Int.toNat_of_nonneg hd.size_nonneg
  obtain ⟨hs0, hs1⟩ := share_bounds hA
  have hint := Int32.toInt_ofInt_of_le hs0 hs1
  obtain ⟨rs, hrs⟩ := regionRequests_cons (H := H) hpos.ne'
  have hfit : ((Bump.empty (gulScratchBufSize H P).toNat : Bump.Arena ScratchBufRequestId).top : ℤ) +
      (Int32.ofInt P.modemShareBufSize).toInt ≤ (gulScratchBufSize H P).toNat := by
    rw [Bump.top_empty, hint]
    omega
  obtain ⟨hsize, hbase⟩ := Bump.run_cons_placed (sizesOf rs) (A := Bump.empty (gulScratchBufSize H P).toNat)
    (r := (ScratchBufRequestId.modemShare, (Int32.ofInt P.modemShareBufSize).toInt)) rfl (by rwa [hint]) hfit
  rw [regionArena_eq, hrs]
  refine ⟨?_, hbase.trans (Bump.top_empty _)⟩
  intro h0
  have hnat : (Int32.ofInt P.modemShareBufSize).toInt.toNat = 0 := hsize.symm.trans h0
  omega

/-- One that does not fit, or of size 0, leaves its region as it was. -/
theorem share_absent (hno : ¬ (0 < P.modemShareBufSize ∧ P.modemShareBufSize ≤ gulScratchBufSize H P)) :
    ((allocateScratchBufRegions H P d).scratchBufRegion .modemShare).physAddr = 0 := by
  have hcap : (((gulScratchBufSize H P).toNat : ℕ) : ℤ) = gulScratchBufSize H P := Int.toNat_of_nonneg hd.size_nonneg
  have hzero : (d.scratchBufRegion .modemShare).physAddr = 0 := by
    rw [hd.regions]
    rfl
  by_cases hne : P.modemShareBufSize ≠ 0
  · obtain ⟨hs0, hs1⟩ := share_bounds hA
    have hint := Int32.toInt_ofInt_of_le hs0 hs1
    obtain ⟨rs, hrs⟩ := regionRequests_cons (H := H) hne
    have hnd := regionRequests_nodup H P
    rw [hrs, List.map_cons, List.nodup_cons] at hnd
    have hrefused : step d (.modemShare, Int32.ofInt P.modemShareBufSize) = (d, none) := by
      apply hd.refines.step_refused
      · rw [hd.regions]
        rfl
      · rw [hint, Bump.top_empty, Nat.cast_zero, zero_add]
        simp only [Bump.empty]
        omega
    rw [allocateScratchBufRegions, hrs, Machine.exec, hrefused, exec_of_not_mem _ hnd.1, hzero]
  · have hnot : ScratchBufRequestId.modemShare ∉ (regionRequests H P).map Prod.fst := by
      unfold regionRequests areaRequest
      rw [if_neg hne]
      split <;> split <;> simp
    rw [allocateScratchBufRegions, exec_of_not_mem _ hnot, hzero]

omit hA

/-- The address the offsets are counted from is that of the buffer, or 0. -/
theorem share_addr_iff (hA : Accepted H M n P) (hle : gulScratchBufSize H P ≤ H.dmaBufEndAddr)
    (hlow : ∀ id, (regionArena H P).size id ≠ 0 →
      H.dmaBufEndAddr - gulScratchBufSize H P + (regionArena H P).base id < 2 ^ 32) :
    toU32 ((allocateScratchBufRegions H P d).scratchBufRegion .modemShare).physAddr =
        H.dmaBufEndAddr - gulScratchBufSize H P ↔
      (0 < P.modemShareBufSize ∧ P.modemShareBufSize ≤ gulScratchBufSize H P) ∨
        gulScratchBufSize H P = H.dmaBufEndAddr := by
  by_cases hshare : 0 < P.modemShareBufSize ∧ P.modemShareBufSize ≤ gulScratchBufSize H P
  · obtain ⟨hsize, hbase⟩ := share_placed hA hd hshare.1 hshare.2
    refine iff_of_true ?_ (Or.inl hshare)
    have h32 := hlow .modemShare hsize
    rw [hbase] at h32
    have hm := (exec_addresses (regionRequests H P) d).2.1.trans hd.modPhys
    have haddr := hd.allocated.physAddr .modemShare hsize
    rw [hbase, allocateScratchBufRegions, hm] at haddr
    rw [allocateScratchBufRegions, haddr]
    unfold toU32 toU64
    omega
  · rw [share_absent hA hd hshare]
    unfold toU32
    omega

omit hd in
/-- An offset `base` into a buffer of `S` bytes that ends at `E` and is at `phys` on the host:
the window takes its address of 32 bits there, and the report says so, exactly if the
address has 32 bits and `share` is the start of the buffer. -/
theorem translate_iff {E S base len hostPhys share : ℤ} (hE : 0 < E ∧ E < 2 ^ 64) (hS : 0 ≤ S ∧ S < 2 ^ 31)
    (hbase : 0 ≤ base) (hlen : 0 < len) (hin : base + len ≤ S) (hphys : 0 ≤ hostPhys ∧ hostPhys + S ≤ 2 ^ 52)
    (hshare : 0 ≤ share ∧ share < 2 ^ 32) :
    (∀ o, 0 ≤ o → o < len → (OutboundWindow.mk (toU64 (E - S)) hostPhys S).translate
        (toU32 (toU64 (toU64 (E - S) + base)) + o) =
      some (toU64 (toU64 (hostPhys + toU32 (toU32 (toU64 (toU64 (E - S) + base)) - share)) + o))) ↔
      S ≤ E ∧ E - S + base < 2 ^ 32 ∧ share = E - S := by
  simp only [OutboundWindow.translate]
  constructor
  · intro h
    have hfirst := h 0 le_rfl hlen
    rw [add_zero, add_zero] at hfirst
    obtain ⟨⟨hge, -⟩, hval⟩ := Option.ite_none_right_eq_some.mp hfirst
    -- the window is among the addresses of 32 bits, so the buffer does not start below 0
    have hle : S ≤ E := by
      by_contra hlt
      have hm : toU64 (E - S) = E - S + 2 ^ 64 := by
        unfold toU64
        omega
      have := (toU32_bounds (toU64 (toU64 (E - S) + base))).2
      omega
    have hm : toU64 (E - S) = E - S := toU64_of_lt (by omega) (by omega)
    have hp : toU64 (E - S + base) = E - S + base := toU64_of_lt (by omega) (by omega)
    rw [hm, hp] at hge hval
    have hlow : E - S + base < 2 ^ 32 := by
      unfold toU32 at hge
      omega
    rw [toU32_of_lt (by omega) hlow] at hval
    refine ⟨hle, hlow, ?_⟩
    have hdiff := toU32_bounds (E - S + base - share)
    have hhost : toU64 (hostPhys + toU32 (E - S + base - share)) = hostPhys + toU32 (E - S + base - share) :=
      toU64_of_lt (by omega) (by omega)
    rw [hhost, hhost, toU64_of_lt (by omega) (by omega)] at hval
    have hoff : E - S + base - (E - S) = toU32 (E - S + base - share) := add_left_cancel (Option.some.inj hval)
    unfold toU32 at hoff
    omega
  · rintro ⟨hle, hlow, rfl⟩ o ho hlt
    have hm : toU64 (E - S) = E - S := toU64_of_lt (by omega) (by omega)
    have hoff : toU32 (E - S + base - (E - S)) = base := by
      rw [add_sub_cancel_left]
      exact toU32_of_lt (by omega) (by omega)
    rw [hm, toU64_of_lt (by omega) (by omega), toU32_of_lt (by omega) hlow, hoff, if_pos ⟨by omega, by omega⟩,
      toU64_of_lt (x := hostPhys + base) (by omega) (by omega)]
    congr 2
    ring

/-- A region is reported as it lies exactly if its address has 32 bits and the address the
offsets are counted from is that of the buffer. -/
theorem region_same_iff (hH : H.Documented) {id : ScratchBufRequestId} (hid : (regionArena H P).size id ≠ 0) :
    (∀ o, 0 ≤ o → o < (gulModinfoGet (allocateScratchBufRegions H P d) id).size →
      (gulScratchOutboundCreate (allocateScratchBufRegions H P d)).translate
          ((gulModinfoGet (allocateScratchBufRegions H P d) id).modemPhyAddr + o) =
        some (toU64 ((gulModinfoGet (allocateScratchBufRegions H P d) id).hostPhyAddr + o))) ↔
      gulScratchBufSize H P ≤ H.dmaBufEndAddr ∧
        H.dmaBufEndAddr - gulScratchBufSize H P + (regionArena H P).base id < 2 ^ 32 ∧
        toU32 ((allocateScratchBufRegions H P d).scratchBufRegion .modemShare).physAddr =
          H.dmaBufEndAddr - gulScratchBufSize H P := by
  have href := hd.allocated
  obtain ⟨hhost, hmod, hsize⟩ := exec_addresses (regionRequests H P) d
  have hin := ((regionArena H P).below id hid).trans (regionArena H P).fits
  rw [cap_regionArena] at hin
  have hwin := hH.window
  have h0 := hd.size_nonneg
  have h1 := hd.size_lt
  have haddr := href.physAddr id hid
  have hlen := href.size id
  rw [allocateScratchBufRegions] at haddr hlen ⊢
  have hS : toU32 (gulScratchBufSize H P) = gulScratchBufSize H P := toU32_of_lt h0 (by omega)
  have hlen' : toU32 ((regionArena H P).size id : ℤ) = (regionArena H P).size id :=
    toU32_of_lt (by omega) (by omega)
  unfold gulModinfoGet gulScratchOutboundCreate
  simp only [haddr, hlen, hhost, hmod, hsize, hd.hostPhys, hd.modPhys, hd.size, hS, hlen']
  exact translate_iff ⟨by omega, hwin.2.2⟩ ⟨h0, h1⟩ (by omega) (by omega) (by omega) ⟨hd.phys_nonneg, hd.phys_le⟩
    (toU32_bounds _)

end Report

/-- **Reported addresses denote the same memory exactly if the buffer starts with the
shared area, or at address 0, or nothing is placed in it.** -/
theorem reportsSameMemory_iff (H : Header) (hH : H.Documented) (qbman : Option Qbman) (M : ModuleParams) (n : ℕ)
    (P : Params) (hok : gulPcidevInit H qbman M = .ok (n, P)) (memremap : ℤ → ℤ → Option ℤ)
    (hm : MapsKernelRange memremap) (hp : MapsPhysical memremap) (i : ℕ) (d₀ : GulDev)
    (hinit : gulScratchBufInit H memremap P i GulDev.zero = (0, d₀)) :
    ReportsSameMemory (allocateScratchBufRegions H P d₀) ↔ StartsWithShare H P ∨ NothingPlaced H P := by
  have hA := accepted_of_ok hok
  have hd := gulScratchBufInit_placed hm hp hinit
  have hlen : ∀ id, (gulModinfoGet (allocateScratchBufRegions H P d₀) id).size = (regionArena H P).size id := by
    intro id
    have hcap := hd.allocated.cap_lt
    have hin : (regionArena H P).size id ≠ 0 → (regionArena H P).size id ≤ (regionArena H P).cap := fun h =>
      (Nat.le_add_left _ _).trans (((regionArena H P).below id h).trans (regionArena H P).fits)
    show toU32 _ = _
    rw [hd.allocated.size id]
    exact toU32_of_lt (by omega) (by omega)
  have hregion : ReportsSameMemory (allocateScratchBufRegions H P d₀) ↔ ∀ id, (regionArena H P).size id ≠ 0 →
      gulScratchBufSize H P ≤ H.dmaBufEndAddr ∧
        H.dmaBufEndAddr - gulScratchBufSize H P + (regionArena H P).base id < 2 ^ 32 ∧
        toU32 ((allocateScratchBufRegions H P d₀).scratchBufRegion .modemShare).physAddr =
          H.dmaBufEndAddr - gulScratchBufSize H P := by
    apply forall_congr'
    intro id
    rw [hlen id, ← hlen id]
    constructor
    · intro h hid
      exact (region_same_iff hd hH hid).mp (h (by rw [hlen]; exact_mod_cast hid))
    · intro h hid
      rw [hlen] at hid
      exact (region_same_iff hd hH (by exact_mod_cast hid)).mpr (h (by exact_mod_cast hid))
  rw [hregion, ← nothingPlaced_iff hd]
  constructor
  · intro h
    by_cases hnone : ∀ id, (regionArena H P).size id = 0
    · exact Or.inr hnone
    · push Not at hnone
      obtain ⟨id, hid⟩ := hnone
      obtain ⟨hle, -, haddr⟩ := h id hid
      have hlow := fun id hid => (h id hid).2.1
      exact Or.inl ⟨hle, hlow, (share_addr_iff hd hA hle hlow).mp haddr⟩
  · rintro (⟨hle, hlow, hshare⟩ | hnone) id hid
    · exact ⟨hle, hlow id hid, (share_addr_iff hd hA hle hlow).mpr hshare⟩
    · exact absurd (hnone id) hid

/-- The regions of the first of `twoModems` are reported as they lie. -/
theorem reportsSameMemory_firstModem : ReportsSameMemory firstModem := by
  have hok : gulPcidevInit sixCoreHeader none twoModems =
      .ok (2, ⟨0x8000000, 0x90000000, 0x100000, 0x2e00000, 0⟩) := by decide +kernel
  have hinit : (gulScratchBufInit sixCoreHeader mapLow ⟨0x8000000, 0x90000000, 0x100000, 0x2e00000, 0⟩ (0 : ℕ)
      GulDev.zero).1 = 0 := by decide +kernel
  refine (reportsSameMemory_iff sixCoreHeader sixCoreHeader_documented none twoModems 2 _ hok mapLow mapLow_maps.1
    mapLow_maps.2 0 _ (Prod.ext hinit rfl)).mpr (Or.inl ⟨by decide +kernel, ?_, Or.inl ⟨by decide, by decide +kernel⟩⟩)
  intro id _
  cases id
  all_goals decide +kernel

/-- One modem of 64 MB without a shared area. -/
def noShare : ModuleParams := ⟨1, 0x4000000, 0x90000000, 0, 0, 0, "vspa"⟩

/-- The modem of `noShare`, with its regions. -/
def modemWithoutShare : GulDev :=
  allocateScratchBufRegions sixCoreHeader ⟨0x4000000, 0x90000000, 0, 0x2f00000, 0⟩
    (gulScratchBufInit sixCoreHeader mapLow ⟨0x4000000, 0x90000000, 0, 0x2f00000, 0⟩ (0 : ℕ) GulDev.zero).2

/-- The host's data are at the start of the buffer, which is said to be at its address of the
modem, past the buffer. -/
theorem host_data_reported_astray :
    gulPcidevInit sixCoreHeader none noShare = .ok (1, ⟨0x4000000, 0x90000000, 0, 0x2f00000, 0⟩) ∧
      gulModinfoGet modemWithoutShare .hostData = ⟨0xfc100000, 0x18c100000, 0x2f00000⟩ ∧
      (gulScratchOutboundCreate modemWithoutShare).translate 0xfc100000 = some 0x90000000 ∧
      ¬ ReportsSameMemory modemWithoutShare := by
  refine ⟨by decide +kernel, by decide +kernel, by decide +kernel, ?_⟩
  intro h
  have hfirst := h .hostData (by decide +kernel) 0 le_rfl (by decide +kernel)
  exact absurd hfirst (by decide +kernel)

end Scratch
end La12xx
