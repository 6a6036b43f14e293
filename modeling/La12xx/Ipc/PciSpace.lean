/-
# The PCI-space allocator of the IPC driver

`gul_ipc.c` maps host memory into the modem's PCI window on behalf of user
space: `IOCTL_GUL_IPC_GET_PCI_MAP` takes a host range, cuts a piece of the
same size off the window, and programs an outbound iATU window for it;
`IOCTL_GUL_IPC_PUT_PCI_MAP` gives it back. The control blocks form a stack:
a block given back below the top stays on hold until everything above it is
gone (`gulIpcPciMapFreeGc`).

The functions follow the source statement by statement, with the C types'
conversions. The constants the driver takes from headers outside the
repository (`gul_ipc_ioctl.h`, `gul_host_if.h`) are fields of `HostIf`.
-/
import La12xx.Lib.CInt
import La12xx.Lib.Machine

namespace La12xx
namespace Ipc

/-! ### Data -/

/-- What the driver takes from the host-interface headers. `sizeSigned` says
whether the `size` member of `mem_strt_addr_t` is a signed integer, which
the driver's own test `mem_desc.size < 0` presumes. -/
structure HostIf where
  maxPciUserAllocCount : ℕ
  gulObWinHugePageBufs : ℕ
  sizeSigned : Bool

/-- `mem_strt_addr_t`: the 32-bit words user space hands over. -/
structure MemStrtAddr where
  hostPhys : BitVec 64
  modemPhys : BitVec 32
  size : BitVec 32
deriving DecidableEq, Repr

/-- The value of the member `size`. -/
def HostIf.sizeVal (H : HostIf) (d : MemStrtAddr) : ℤ :=
  if H.sizeSigned then d.size.toInt else d.size.toNat

/-- `struct gul_pci_alloc_cb`. -/
structure GulPciAllocCb where
  mAddr : ℤ
  hAddr : ℤ
  size : ℤ
  valid : Bool
  iatuIdx : ℤ
deriving DecidableEq, Repr, Inhabited

/-- `struct gul_pci_allocator_s`. -/
structure GulPciAllocator where
  pciAvailSpace : ℤ
  pciTotalSpace : ℤ
  pciAllocAddr : ℤ
  pciAllocCnt : ℕ
  cbs : ℕ → GulPciAllocCb
  iatuIdxMap : ℕ → Bool
deriving Inhabited

/-- The registers of one outbound iATU window. Every window is programmed
with the type `PCIE_ATU_TYPE_MEM`, which is left out. -/
structure IatuWin where
  lowerBase : ℤ
  upperBase : ℤ
  limit : ℤ
  lowerTarget : ℤ
  upperTarget : ℤ
  enable : Bool
deriving DecidableEq, Repr, Inhabited

/-- The part of `struct gul_ipc_dev` the mappings use, with the iATU windows
of the device behind it. -/
structure GulIpcDev where
  pciAllocator : GulPciAllocator
  iatu : ℕ → IatuWin
deriving Inhabited

/-- The lines the functions below write with `dev_err`. -/
inductive DevErr where
  /-- `Insufficient PCI space` -/
  | insufficientSpace
  /-- `Maximum PCI allocations done %d` -/
  | maximumAllocations (cnt : ℕ)
  /-- `Failed to allocate iATU entry` -/
  | failedIatuEntry
  /-- `Top addr is not matching %llx : %llx` -/
  | topAddrNotMatching (allocAddr top : ℤ)
  /-- `Inivalid PCI space addr(%llx)` -/
  | invalidAddr (addr : ℤ)
  /-- `overlapping address space %llx:%llx` -/
  | overlapping (addr hAddr : ℤ)
deriving DecidableEq, Repr

/-- `host_regions[HOST_MEM_HUGE_PAGE_BUF]` of the host interface. -/
structure HostMemRegion where
  modPhysL : BitVec 32
  modPhysH : BitVec 32
  sizeL : BitVec 32
deriving DecidableEq, Repr

/-! ### iATU entries -/

/-- The loop of `gul_pci_get_iatu_idx`, from `idx` for `n` more entries. -/
def iatuIdxLoop (map : ℕ → Bool) : ℕ → ℕ → Option ℕ
  | _, 0 => none
  | idx, n + 1 => if map idx = false then some idx else iatuIdxLoop map (idx + 1) n

/-- `gul_pci_get_iatu_idx`: the lowest free entry, now taken, or -1. -/
def gulPciGetIatuIdx (H : HostIf) (al : GulPciAllocator) : GulPciAllocator × ℤ :=
  match iatuIdxLoop al.iatuIdxMap 0 H.maxPciUserAllocCount with
  | some idx => ({ al with iatuIdxMap := Function.update al.iatuIdxMap idx true }, idx)
  | none => (al, -1)

/-- `gul_pci_put_iatu_idx`. -/
def gulPciPutIatuIdx (al : GulPciAllocator) (idx : ℤ) : GulPciAllocator :=
  { al with iatuIdxMap := Function.update al.iatuIdxMap idx.toNat false }

/-- `ls_pcie_iatu_outbound_set`: select the window, then write its registers. -/
def lsPcieIatuOutboundSet (iatu : ℕ → IatuWin) (idx : ℕ) (cpuAddr pciAddr size : ℤ) : ℕ → IatuWin :=
  Function.update iatu idx
    { lowerBase := toU32 cpuAddr
      upperBase := toU32 (cpuAddr / 2 ^ 32)
      limit := toU32 (toU64 (cpuAddr + size - 1))
      lowerTarget := toU32 pciAddr
      upperTarget := toU32 (pciAddr / 2 ^ 32)
      enable := true }

/-- `gul_ipc_create_hugepage_outbound`. -/
def gulIpcCreateHugepageOutbound (dev : GulIpcDev) (idx : ℕ) (pciAddr cpuAddr size : ℤ) : GulIpcDev :=
  { dev with iatu := lsPcieIatuOutboundSet dev.iatu idx cpuAddr pciAddr (toU32 size) }

/-- `gul_setup_pci_space`. -/
def gulSetupPciSpace (dev : GulIpcDev) (region : HostMemRegion) : GulIpcDev :=
  { dev with pciAllocator :=
      { pciAvailSpace := region.sizeL.toNat
        pciTotalSpace := region.sizeL.toNat
        pciAllocAddr := region.modPhysH.toNat * 2 ^ 32 + region.modPhysL.toNat
        pciAllocCnt := 0
        cbs := fun _ => ⟨0, 0, 0, false, 0⟩ -- memset
        iatuIdxMap := fun _ => false } }

/-! ### Mapping -/

/-- What `gul_ipc_pci_map_alloc` gives its caller. -/
structure MapOut where
  ret : ℤ
  addr : ℤ
  log : List DevErr
deriving DecidableEq, Repr

/-- `gul_ipc_pci_map_alloc`. The space is taken before the iATU entry is
asked for, so the branch without an entry leaves the allocator half-updated. -/
def gulIpcPciMapAlloc (H : HostIf) (dev : GulIpcDev) (hAddr size : ℤ) : GulIpcDev × MapOut :=
  let al := dev.pciAllocator
  if toU32 size > al.pciAvailSpace then
    (dev, ⟨-1, 0, [.insufficientSpace]⟩)
  else if al.pciAllocCnt ≥ H.maxPciUserAllocCount then
    (dev, ⟨-1, 0, [.maximumAllocations al.pciAllocCnt]⟩)
  else
    let addr := toU32 al.pciAllocAddr
    let al := { al with
      pciAvailSpace := toU32 (al.pciAvailSpace - size)
      pciAllocAddr := toU64 (al.pciAllocAddr + size) }
    let n := al.pciAllocCnt
    let (al, idx) := gulPciGetIatuIdx H al
    if idx < 0 then
      let al := { al with cbs := Function.update al.cbs n { al.cbs n with iatuIdx := idx } }
      ({ dev with pciAllocator := al }, ⟨-1, addr, [.failedIatuEntry]⟩)
    else
      let al := { al with
        pciAllocCnt := n + 1
        cbs := Function.update al.cbs n ⟨addr, hAddr, size, true, idx⟩ }
      (gulIpcCreateHugepageOutbound { dev with pciAllocator := al }
        (H.gulObWinHugePageBufs + idx.toNat) hAddr addr size, ⟨0, addr, []⟩)

/-- The loop of `gul_ipc_pci_map_free_gc`, with `ii` blocks left. -/
def freeGcLoop : ℕ → GulPciAllocator → ℕ × GulPciAllocator × List DevErr
  | 0, al => (0, al, [])
  | ii + 1, al =>
    let cb := al.cbs ii
    if cb.valid then (ii + 1, al, [])
    else if toU64 (cb.mAddr + cb.size) = al.pciAllocAddr then
      freeGcLoop ii (gulPciPutIatuIdx { al with
        pciAllocAddr := cb.mAddr
        pciAvailSpace := toU32 (al.pciAvailSpace + cb.size) } cb.iatuIdx)
    else (ii + 1, al, [.topAddrNotMatching al.pciAllocAddr (toU64 (cb.mAddr + cb.size))])

/-- `gul_ipc_pci_map_free_gc`. -/
def gulIpcPciMapFreeGc (al : GulPciAllocator) : GulPciAllocator × List DevErr :=
  let (ii, al, log) := freeGcLoop al.pciAllocCnt al
  ({ al with pciAllocCnt := ii }, log)

/-- The loop of `gul_ipc_pci_map_free`, from `ii` for `n` more blocks: the
first valid block at `addr`. -/
def freeLoop (cbs : ℕ → GulPciAllocCb) (addr : ℤ) : ℕ → ℕ → Option ℕ
  | _, 0 => none
  | ii, n + 1 =>
    if (cbs ii).hAddr = addr ∧ (cbs ii).valid then some ii else freeLoop cbs addr (ii + 1) n

/-- `gul_ipc_pci_map_free`. -/
def gulIpcPciMapFree (dev : GulIpcDev) (addr : ℤ) : GulIpcDev × ℤ × List DevErr :=
  let al := dev.pciAllocator
  match freeLoop al.cbs addr 0 al.pciAllocCnt with
  | none => (dev, -1, [.invalidAddr addr])
  | some ii =>
    let (al, log) := gulIpcPciMapFreeGc
      { al with cbs := Function.update al.cbs ii { al.cbs ii with valid := false } }
    ({ dev with pciAllocator := al }, 0, log)

/-- The test of `gul_ipc_pci_map_is_overlap` on one control block. -/
def cbOverlap (cb : GulPciAllocCb) (addr size : ℤ) : Bool :=
  (addr > cb.hAddr ∧ addr < toU64 (cb.hAddr + cb.size)) ∨
    (toU64 (addr + size) > cb.hAddr ∧ toU64 (addr + size) < toU64 (cb.hAddr + cb.size))

/-- The loop of `gul_ipc_pci_map_is_overlap`, from `ii` for `n` more blocks. -/
def isOverlapLoop (cbs : ℕ → GulPciAllocCb) (addr size : ℤ) : ℕ → ℕ → ℤ × List DevErr
  | _, 0 => (0, [])
  | ii, n + 1 =>
    if cbOverlap (cbs ii) addr size then (-1, [.overlapping addr (cbs ii).hAddr])
    else isOverlapLoop cbs addr size (ii + 1) n

/-- `gul_ipc_pci_map_is_overlap`. Blocks on hold count too. -/
def gulIpcPciMapIsOverlap (al : GulPciAllocator) (addr size : ℤ) : ℤ × List DevErr :=
  isOverlapLoop al.cbs addr size 0 al.pciAllocCnt

/-! ### The ioctls -/

def efault : ℤ := 14
def einval : ℤ := 22
def enomem : ℤ := 12

/-- One request. `desc` is what `copy_from_user` read, `none` if it failed;
`copyOut` says whether the `copy_to_user` of the answer succeeds. -/
inductive PciReq where
  | getPciMap (desc : Option MemStrtAddr) (copyOut : Bool)
  | putPciMap (desc : Option MemStrtAddr)
deriving DecidableEq, Repr

/-- What a request returns: the ioctl's value, the structure copied back to
user space, and the error lines. -/
structure IoctlOut where
  ret : ℤ
  desc : Option MemStrtAddr
  log : List DevErr
deriving DecidableEq, Repr

/-- `IOCTL_GUL_IPC_GET_PCI_MAP`. -/
def getPciMap (H : HostIf) (dev : GulIpcDev) (desc : Option MemStrtAddr) (copyOut : Bool) :
    GulIpcDev × IoctlOut :=
  match desc with
  | none => (dev, ⟨-efault, none, []⟩)
  | some d =>
    if H.sizeVal d < 0 then (dev, ⟨-einval, none, []⟩)
    else
      let (ov, log) := gulIpcPciMapIsOverlap dev.pciAllocator d.hostPhys.toNat (toU32 (H.sizeVal d))
      if ov < 0 then (dev, ⟨-einval, none, log⟩)
      else
        let (dev, out) := gulIpcPciMapAlloc H dev d.hostPhys.toNat (toS32 (H.sizeVal d))
        if out.ret < 0 then (dev, ⟨-enomem, none, out.log⟩)
        -- the mapping stays when the answer cannot be delivered
        else if copyOut then (dev, ⟨0, some { d with modemPhys := BitVec.ofInt 32 out.addr }, out.log⟩)
        else (dev, ⟨-efault, none, out.log⟩)

/-- `IOCTL_GUL_IPC_PUT_PCI_MAP`. -/
def putPciMap (dev : GulIpcDev) (desc : Option MemStrtAddr) : GulIpcDev × IoctlOut :=
  match desc with
  | none => (dev, ⟨-efault, none, []⟩)
  | some d =>
    let (dev, ret, log) := gulIpcPciMapFree dev d.hostPhys.toNat
    if ret ≠ 0 then (dev, ⟨-efault, none, log⟩) else (dev, ⟨0, none, log⟩)

/-- `gul_ipc_ioctl`, on the two requests that change the mappings. -/
def gulIpcIoctl (H : HostIf) (dev : GulIpcDev) : PciReq → GulIpcDev × IoctlOut
  | .getPciMap desc copyOut => getPciMap H dev desc copyOut
  | .putPciMap desc => putPciMap dev desc

end Ipc
end La12xx
