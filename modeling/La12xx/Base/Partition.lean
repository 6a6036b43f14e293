/-
# The scratch memory among the modems

`gul_pcidev_init` of `gul_pci.c` takes the module parameters, rounds the areas
of a modem up to pages, gives the host what is left when nothing is said about
it, and refuses parameters whose modems need more than there is.
`gul_scratch_buf_init` then cuts out the part of each modem, and
`hif_init_region_addrs` tells the modem the window below it.

All of it is `int` arithmetic on the parameters. The module says exactly which
accepted parameters partition the memory: those for which the same sums, taken
without wrapping, fit (`FitsExactly`).
-/
import La12xx.Base.Scratch

namespace La12xx
namespace Scratch

/-! ### The start of the driver -/

/-- The module parameters as they are given. -/
structure ModuleParams where
  /-- `pci_addr_count`, the number of addresses in `pci_addr_array` -/
  pciAddrCount : ℕ
  /-- `scratch_buf_size` -/
  globalScratchBufSize : Int32
  scratchBufPhysAddr : UInt64
  /-- `share_buf_size` -/
  modemShareBufSize : Int32
  /-- `rf_data_size` -/
  modemRfDataSize : Int32
  /-- `host_data_size` -/
  modemHostDataSize : Int32
  /-- `alt_vspa_fw_name_prefix` -/
  vspaFwNamePrefix : String
deriving DecidableEq, Repr

/-- The reserved memory of the queue and buffer managers, where the host has
them: address and size. -/
structure Qbman where
  pfdr : UInt64 × UInt64
  fqd : UInt64 × UInt64
  fbpr : UInt64 × UInt64
deriving DecidableEq, Repr

/-- The end of a reserved area is above the address. -/
def conflicts (area : UInt64 × UInt64) (addr : ℤ) : Prop := toU64 (area.1.toNat + area.2.toNat) > addr

instance (area : UInt64 × UInt64) (addr : ℤ) : Decidable (conflicts area addr) :=
  inferInstanceAs (Decidable (_ > _))

/-- `MAX_MODEM` -/
def maxModem : ℕ := 4

/-- `EINVAL` -/
def einval : ℤ := 22

/-- What a modem needs besides the areas that are parameters. -/
def Header.fixedSize (H : Header) : ℤ :=
  H.maxImageSize + H.epLoggerSize + vspaScratchBufMaxSize + vspaOverlaySize

/-- What is left of a modem's share for the host, when nothing is asked for. -/
def defaultHostDataSize (size sizePerModem : ℤ) : ℤ :=
  if size < sizePerModem then
    let rest := toS32 (sizePerModem - size)
    if rest > 0x100000 then toS32 (rest - 0x100000) else rest
  else 0

/-- `modem_num` -/
def ModuleParams.modemNum (M : ModuleParams) : ℕ := if M.pciAddrCount ≠ 0 then M.pciAddrCount else 1

/-- `modem_host_data_size` before it is aligned: what the parameter says, or
what `size` leaves of a modem's share. -/
def ModuleParams.hostDataSize (M : ModuleParams) (size : ℤ) : ℤ :=
  if M.modemHostDataSize.toInt = 0 then
    defaultHostDataSize size (M.globalScratchBufSize.toInt.tdiv M.modemNum)
  else M.modemHostDataSize.toInt

/-- `gul_pcidev_init` up to the registration of the driver: the number of
modems and the sizes it goes on with. `qbman` is the reserved memory on the
LS1046A and LS1043A families. -/
def gulPcidevInit (H : Header) (qbman : Option Qbman) (M : ModuleParams) : Except ℤ (ℕ × Params) :=
  if M.pciAddrCount > maxModem then .error (-einval)
  else
    let modemNum := M.modemNum
    let global := M.globalScratchBufSize.toInt
    let phys : ℤ := M.scratchBufPhysAddr.toNat
    if ¬ (global ≠ 0 ∧ phys ≠ 0) then .error (-einval)
    else if ∃ q ∈ qbman, conflicts q.pfdr phys ∨ conflicts q.fqd phys ∨ conflicts q.fbpr phys then
      .error (-einval)
    else
      let share := H.align M.modemShareBufSize.toInt
      let rf := H.align M.modemRfDataSize.toInt
      let size := toS32 (H.fixedSize + share + rf)
      let host := H.align (M.hostDataSize size)
      let size := H.align (toS32 (size + host))
      if toS32 (modemNum * size) > global then .error (-einval)
      else if M.vspaFwNamePrefix.isEmpty then .error (-einval)
      else .ok (modemNum, ⟨global, phys, share, host, rf⟩)

/-! ### The window of huge pages -/

/-- What `hif_init_region_addrs` writes into the host interface: the addresses
in two words. -/
structure HostRegions where
  scratchModPhys : ℤ × ℤ
  scratchSize : ℤ
  modemShareAreaSize : ℤ
  modemHostDataSize : ℤ
  modemRfDataSize : ℤ
  hugePageModPhys : ℤ × ℤ
  hugePageSize : ℤ
deriving DecidableEq, Repr

/-- `SPLIT_VA32_L` and `SPLIT_VA32_H` -/
def splitVa32 (a : ℤ) : ℤ × ℤ := (toU32 a, toU32 (a / 2 ^ 32))

/-- `mod_phys - GUL_USER_HUGE_PAGE_ADDR`, before it is cut to a word. -/
def hugePageWindow (H : Header) (d : GulDev) : ℤ := toU64 (d.scratchAllocator.modPhys - H.userHugePageAddr)

/-- `hif_init_region_addrs` -/
def hifInitRegionAddrs (H : Header) (P : Params) (d : GulDev) : HostRegions where
  scratchModPhys := splitVa32 d.scratchAllocator.modPhys
  scratchSize := toU32 (gulScratchBufSize H P)
  modemShareAreaSize := toU32 P.modemShareBufSize
  modemHostDataSize := toU32 P.modemHostDataSize
  modemRfDataSize := toU32 P.modemRfDataSize
  hugePageModPhys := splitVa32 H.userHugePageAddr
  hugePageSize := toU32 (hugePageWindow H d)

/-! ### Rounding up to pages -/

/-- What the headers and the kernel promise: pages of 4 to 64 KB, cores whose
logs leave room for an image, and a window that ends above its start. -/
structure Header.Documented (H : Header) : Prop where
  pageShift : 12 ≤ H.pageShift ∧ H.pageShift ≤ 16
  epCoreMax : H.epCoreMax ≤ 1024
  window : 0 ≤ H.userHugePageAddr ∧ H.userHugePageAddr < H.dmaBufEndAddr ∧ H.dmaBufEndAddr < 2 ^ 64

/-- The next multiple of the page size, without a bound. -/
def Header.roundUp (H : Header) (x : ℤ) : ℤ := x + (H.pageSize - 1) - (x + (H.pageSize - 1)) % H.pageSize

theorem toS32_cond (a : ℤ) : toS32 a = if a % 2 ^ 32 < 2 ^ 31 then a % 2 ^ 32 else a % 2 ^ 32 - 2 ^ 32 := by
  unfold toS32
  split <;> omega

/-- Clearing the low bits of an `int` rounds it down. -/
theorem toInt_and_not_mask {k : ℕ} (hk : k ≤ 31) (a : ℤ) :
    (BitVec.ofInt 32 a &&& ~~~ BitVec.ofInt 32 (2 ^ k - 1)).toInt = toS32 a - toS32 a % 2 ^ k := by
  have hmask : BitVec.ofInt 32 (2 ^ k - 1) = BitVec.ofNat 32 (2 ^ k - 1) := by
    rw [← BitVec.ofInt_natCast]
    congr 1
    have : 1 ≤ 2 ^ k := Nat.one_le_two_pow
    push_cast [this]
    rfl
  have hnat : (((BitVec.ofInt 32 a >>> k) <<< k).toNat : ℤ) = a % 2 ^ 32 - a % 2 ^ 32 % 2 ^ k := by
    have hu : ((BitVec.ofInt 32 a).toNat : ℤ) = a % 2 ^ 32 := by
      rw [BitVec.toNat_ofInt]
      exact Int.toNat_of_nonneg (Int.emod_nonneg _ (by norm_num))
    rw [BitVec.toNat_shiftLeft, BitVec.toNat_ushiftRight, Nat.shiftLeft_eq, Nat.shiftRight_eq_div_pow,
      Nat.mod_eq_of_lt (lt_of_le_of_lt (Nat.div_mul_le_self _ _) (BitVec.isLt _)), ← hu]
    have h := Nat.div_add_mod (BitVec.ofInt 32 a).toNat (2 ^ k)
    push_cast at h ⊢
    linarith [(by exact_mod_cast h : (2 ^ k : ℤ) * ((BitVec.ofInt 32 a).toNat / 2 ^ k) + (BitVec.ofInt 32 a).toNat % 2 ^ k = (BitVec.ofInt 32 a).toNat)]
  have hdvd : (2 ^ k : ℤ) ∣ 2 ^ 31 := pow_dvd_pow 2 hk
  have hdvd' : (2 ^ k : ℤ) ∣ 2 ^ 32 := pow_dvd_pow 2 (by omega)
  have hpos : (0 : ℤ) < 2 ^ k := by positivity
  rw [hmask, and_not_mask, BitVec.toInt_eq_toNat_cond, toS32_cond]
  have h2 : (2 * ((BitVec.ofInt 32 a >>> k) <<< k).toNat < 2 ^ 32) ↔ a % 2 ^ 32 < 2 ^ 31 := by
    have hlo := Int.emod_nonneg (a % 2 ^ 32) hpos.ne'
    constructor
    · intro hlt
      by_contra hge
      have : (2 : ℤ) ^ 31 ≤ a % 2 ^ 32 - a % 2 ^ 32 % 2 ^ k := by
        obtain ⟨q, hq⟩ := hdvd
        have hle : q ≤ a % 2 ^ 32 / 2 ^ k := by
          rw [Int.le_ediv_iff_mul_le hpos, mul_comm, ← hq]
          omega
        have hdm := Int.mul_ediv_add_emod (a % 2 ^ 32) (2 ^ k)
        rw [hq]
        nlinarith
      omega
    · intro hlt
      omega
  split
  · next h =>
    rw [if_pos (h2.mp h), hnat]
  · next h =>
    rw [if_neg (fun h' => h (h2.mpr h'))]
    rw [Int.sub_emod, Int.emod_eq_zero_of_dvd hdvd', sub_zero, Int.emod_emod, hnat]
    push_cast
    ring
/-- What an `int` holds is the representative in its range. -/
theorem toS32_eq_of_dvd {x z : ℤ} (h0 : -2 ^ 31 ≤ z) (h1 : z < 2 ^ 31) (h : (2 ^ 32 : ℤ) ∣ x - z) :
    toS32 x = z := by
  unfold toS32
  omega

theorem Header.pageSize_dvd_roundUp (H : Header) (x : ℤ) : H.pageSize ∣ H.roundUp x := Int.dvd_self_sub_emod

section RoundUp

variable {H : Header} (hH : H.Documented)
include hH

theorem Header.Documented.pageSize_dvd {n : ℕ} (hn : 16 ≤ n) : H.pageSize ∣ 2 ^ n :=
  pow_dvd_pow 2 (hH.pageShift.2.trans hn)

theorem Header.Documented.pageSize_pos : 0 < H.pageSize ∧ H.pageSize ≤ 2 ^ 16 := by
  constructor
  · exact pow_pos (by norm_num) _
  · exact pow_le_pow_right₀ (by norm_num) hH.pageShift.2

theorem Header.Documented.roundUp_bounds (x : ℤ) : x ≤ H.roundUp x ∧ H.roundUp x < x + H.pageSize := by
  have hp := hH.pageSize_pos
  have h0 := Int.emod_nonneg (x + (H.pageSize - 1)) hp.1.ne'
  have h1 := Int.emod_lt_of_pos (x + (H.pageSize - 1)) hp.1
  unfold Header.roundUp
  omega

theorem Header.Documented.roundUp_of_dvd {x : ℤ} (h : H.pageSize ∣ x) : H.roundUp x = x := by
  have hb := hH.roundUp_bounds x
  have hd : H.pageSize ∣ H.roundUp x - x := dvd_sub (H.pageSize_dvd_roundUp x) h
  have := Int.eq_zero_of_dvd_of_nonneg_of_lt (by omega) (by omega) hd
  omega

/-- `ALIGN` rounds up and then keeps what an `int` holds. -/
theorem Header.Documented.align_eq (x : ℤ) : H.align x = toS32 (H.roundUp x) := by
  have hk : H.pageShift ≤ 31 := hH.pageShift.2.trans (by norm_num)
  have hal : H.align x = toS32 (x + (H.pageSize - 1)) - toS32 (x + (H.pageSize - 1)) % H.pageSize :=
    toInt_and_not_mask hk _
  symm
  apply toS32_eq_of_dvd (align_bounds H x).1 (align_bounds H x).2
  rw [hal, Header.roundUp]
  set y := x + (H.pageSize - 1)
  -- the two differ by what `toS32` takes off, a multiple of every page size
  have hwrap : (2 ^ 32 : ℤ) ∣ y - toS32 y := by
    unfold toS32
    omega
  have hmod : toS32 y % H.pageSize = y % H.pageSize :=
    Int.modEq_iff_dvd.mpr ((hH.pageSize_dvd (by norm_num)).trans hwrap)
  rw [← hmod]
  have : y - toS32 y % H.pageSize - (toS32 y - toS32 y % H.pageSize) = y - toS32 y := by ring
  rw [this]
  exact hwrap

theorem Header.Documented.align_of_lt {x : ℤ} (h0 : -2 ^ 31 ≤ x) (h : H.roundUp x < 2 ^ 31) :
    H.align x = H.roundUp x := by
  have hb := hH.roundUp_bounds x
  rw [hH.align_eq]
  exact toS32_of_lt (by omega) h

/-- The largest sizes round up past the range of an `int`, to a negative one. -/
theorem Header.Documented.align_of_nonneg {x : ℤ} (h0 : -2 ^ 31 ≤ x) (h1 : x < 2 ^ 31) (h : 0 ≤ H.align x) :
    H.align x = H.roundUp x := by
  apply hH.align_of_lt h0
  by_contra hge
  have hb := hH.roundUp_bounds x
  have hp := hH.pageSize_pos
  have hwrap : H.align x = H.roundUp x - 2 ^ 32 := by
    rw [hH.align_eq]
    exact toS32_eq_of_dvd (by omega) (by omega) (by simp)
  omega

end RoundUp

/-! ### The exact sizes -/

section Exact

variable (H : Header) (M : ModuleParams)

/-- The shared area in whole pages. -/
def exactShare : ℤ := H.roundUp M.modemShareBufSize.toInt

/-- The RF area in whole pages. -/
def exactRf : ℤ := H.roundUp M.modemRfDataSize.toInt

/-- What is left of a modem's share, less a megabyte if it is more than that. -/
def exactRest (size sizePerModem : ℤ) : ℤ :=
  if size < sizePerModem then
    if sizePerModem - size > 0x100000 then sizePerModem - size - 0x100000 else sizePerModem - size
  else 0

/-- What is asked for the host, exactly. -/
def exactHostDataSize : ℤ :=
  if M.modemHostDataSize.toInt = 0 then
    exactRest (0x1000000 + exactShare H M + exactRf H M) (M.globalScratchBufSize.toInt.tdiv M.modemNum)
  else M.modemHostDataSize.toInt

/-- The host's area in whole pages. -/
def exactHost : ℤ := H.roundUp (exactHostDataSize H M)

/-- What one modem needs: 16 MB and its areas. -/
def exactSize : ℤ := 0x1000000 + exactShare H M + exactRf H M + exactHost H M

/-- The sizes are not negative, the modems together need no more than there is,
the memory ends inside the address space, and the modem's window has room for
its part. -/
structure FitsExactly : Prop where
  share : 0 ≤ exactShare H M
  rf : 0 ≤ exactRf H M
  host : 0 ≤ exactHost H M
  memory : M.modemNum * exactSize H M ≤ M.globalScratchBufSize.toInt
  top : M.scratchBufPhysAddr.toNat + M.globalScratchBufSize.toInt < 2 ^ 64
  window : H.userHugePageAddr + exactSize H M ≤ H.dmaBufEndAddr

end Exact

theorem fixedSize_eq (H : Header) : H.fixedSize = 0x1000000 := by
  unfold Header.fixedSize Header.maxImageSize vspaScratchBufMaxSize vspaOverlaySize
  omega

theorem modemNum_pos (M : ModuleParams) : 0 < M.modemNum := by
  unfold ModuleParams.modemNum
  split <;> omega

/-- What the driver goes on with when it accepts its parameters. -/
structure Accepted (H : Header) (M : ModuleParams) (n : ℕ) (P : Params) : Prop where
  modemNum : n = M.modemNum
  global : P.globalScratchBufSize = M.globalScratchBufSize.toInt
  phys : P.scratchBufPhysAddr = M.scratchBufPhysAddr.toNat
  share : P.modemShareBufSize = H.align M.modemShareBufSize.toInt
  rf : P.modemRfDataSize = H.align M.modemRfDataSize.toInt
  host : P.modemHostDataSize =
    H.align (M.hostDataSize (toS32 (0x1000000 + P.modemShareBufSize + P.modemRfDataSize)))

theorem accepted_of_ok {H : Header} {qbman : Option Qbman} {M : ModuleParams} {n : ℕ} {P : Params}
    (h : gulPcidevInit H qbman M = .ok (n, P)) : Accepted H M n P := by
  simp only [gulPcidevInit, fixedSize_eq] at h
  split at h
  · cases h
  split at h
  · cases h
  split at h
  · cases h
  split at h
  · cases h
  split at h
  · cases h
  · simp only [Except.ok.injEq, Prod.mk.injEq] at h
    obtain ⟨rfl, rfl⟩ := h
    exact ⟨rfl, rfl, rfl, rfl, rfl, rfl⟩

/-- While nothing wraps the default for the host is the exact one. -/
theorem defaultHostDataSize_eq {size per : ℤ} (h0 : 0 ≤ size) (hper : per < 2 ^ 31) :
    defaultHostDataSize size per = exactRest size per := by
  unfold defaultHostDataSize exactRest
  by_cases hlt : size < per
  · have hrest : toS32 (per - size) = per - size := toS32_of_lt (by omega) (by omega)
    have hless : toS32 (per - size - 0x100000) = per - size - 0x100000 := toS32_of_lt (by omega) (by omega)
    simp only [hlt, if_true, hrest, hless]
  · simp only [hlt, if_false]

/-- A modem's share of the memory is an `int`. -/
theorem tdiv_modemNum_lt (M : ModuleParams) : M.globalScratchBufSize.toInt.tdiv M.modemNum < 2 ^ 31 := by
  have h1 := M.globalScratchBufSize.toInt_lt
  rcases le_total 0 M.globalScratchBufSize.toInt with hg | hg
  · exact (Int.tdiv_le_self _ hg).trans_lt h1
  · have hn : (0 : ℤ) < M.modemNum := by exact_mod_cast modemNum_pos M
    have hle := Int.tdiv_le_tdiv hn hg
    rw [Int.zero_tdiv] at hle
    exact hle.trans_lt (by norm_num)

theorem exactRest_bounds {size per : ℤ} (h0 : 0 ≤ size) (hper : per < 2 ^ 31) :
    0 ≤ exactRest size per ∧ exactRest size per < 2 ^ 31 := by
  unfold exactRest
  split
  · split <;> omega
  · omega

theorem exactHostDataSize_bounds {H : Header} {M : ModuleParams}
    (h0 : 0 ≤ 0x1000000 + exactShare H M + exactRf H M) :
    -2 ^ 31 ≤ exactHostDataSize H M ∧ exactHostDataSize H M < 2 ^ 31 := by
  have hrest := exactRest_bounds h0 (tdiv_modemNum_lt M)
  have hlo := M.modemHostDataSize.le_toInt
  have hhi := M.modemHostDataSize.toInt_lt
  unfold exactHostDataSize
  split <;> omega

section Sizes

variable {H : Header} {M : ModuleParams} {n : ℕ} {P : Params}

/-- The size asked for the host is the exact one when the two other areas are. -/
theorem host_eq_align (hA : Accepted H M n P) (hs : P.modemShareBufSize = exactShare H M) (hr : P.modemRfDataSize = exactRf H M)
    (h0 : 0 ≤ 0x1000000 + exactShare H M + exactRf H M)
    (h1 : 0x1000000 + exactShare H M + exactRf H M < 2 ^ 31) :
    P.modemHostDataSize = H.align (exactHostDataSize H M) := by
  rw [hA.host, hs, hr, toS32_of_lt (by omega) h1]
  unfold ModuleParams.hostDataSize exactHostDataSize
  rw [defaultHostDataSize_eq h0 (tdiv_modemNum_lt M)]

variable (hH : H.Documented)
include hH

/-- The sizes are exact if they are not negative and their sum is an `int`. -/
theorem exact_of_nonneg (hA : Accepted H M n P) (hs : 0 ≤ P.modemShareBufSize) (hr : 0 ≤ P.modemRfDataSize)
    (hh : 0 ≤ P.modemHostDataSize)
    (hsum : 0x1000000 + P.modemShareBufSize + P.modemRfDataSize + P.modemHostDataSize < 2 ^ 31) :
    P.modemShareBufSize = exactShare H M ∧ P.modemRfDataSize = exactRf H M ∧
      P.modemHostDataSize = exactHost H M := by
  have hshare : P.modemShareBufSize = exactShare H M := by
    rw [hA.share] at hs ⊢
    exact hH.align_of_nonneg (Int32.le_toInt _) (Int32.toInt_lt _) hs
  have hrf : P.modemRfDataSize = exactRf H M := by
    rw [hA.rf] at hr ⊢
    exact hH.align_of_nonneg (Int32.le_toInt _) (Int32.toInt_lt _) hr
  have h0 : 0 ≤ 0x1000000 + exactShare H M + exactRf H M := by omega
  have hhost := host_eq_align hA hshare hrf h0 (by omega)
  have hb := exactHostDataSize_bounds h0
  refine ⟨hshare, hrf, ?_⟩
  rw [hhost] at hh ⊢
  exact hH.align_of_nonneg hb.1 hb.2 hh

/-- The sizes are exact if the exact ones fit. -/
theorem exact_of_fits (hA : Accepted H M n P) (hF : FitsExactly H M) :
    exactSize H M < 2 ^ 31 ∧ P.modemShareBufSize = exactShare H M ∧ P.modemRfDataSize = exactRf H M ∧
      P.modemHostDataSize = exactHost H M := by
  have hs := hF.share
  have hr := hF.rf
  have hh := hF.host
  have hsize : exactSize H M = 0x1000000 + exactShare H M + exactRf H M + exactHost H M := rfl
  have hlt : exactSize H M < 2 ^ 31 := by
    have hg := M.globalScratchBufSize.toInt_lt
    have hm := hF.memory
    have hn : (1 : ℤ) ≤ M.modemNum := by exact_mod_cast modemNum_pos M
    nlinarith
  have hshare : P.modemShareBufSize = exactShare H M := by
    rw [hA.share]
    exact hH.align_of_lt (Int32.le_toInt _) (show exactShare H M < _ by omega)
  have hrf : P.modemRfDataSize = exactRf H M := by
    rw [hA.rf]
    exact hH.align_of_lt (Int32.le_toInt _) (show exactRf H M < _ by omega)
  have h0 : 0 ≤ 0x1000000 + exactShare H M + exactRf H M := by omega
  refine ⟨hlt, hshare, hrf, ?_⟩
  rw [host_eq_align hA hshare hrf h0 (by omega)]
  exact hH.align_of_lt (exactHostDataSize_bounds h0).1 (show exactHost H M < _ by omega)

/-- With exact sizes a modem's part is the sum of them. -/
theorem gulScratchBufSize_eq (hs : P.modemShareBufSize = exactShare H M) (hr : P.modemRfDataSize = exactRf H M)
    (hh : P.modemHostDataSize = exactHost H M) (h0 : 0 ≤ exactSize H M) (h1 : exactSize H M < 2 ^ 31) :
    gulScratchBufSize H P = exactSize H M := by
  have hsum : H.maxImageSize + H.epLoggerSize + vspaScratchBufMaxSize + vspaOverlaySize +
      P.modemShareBufSize + P.modemHostDataSize + P.modemRfDataSize = exactSize H M := by
    have hfix : H.maxImageSize + H.epLoggerSize + vspaScratchBufMaxSize + vspaOverlaySize = 0x1000000 :=
      fixedSize_eq H
    rw [hfix, hs, hr, hh, exactSize]
    ring
  -- every part is a whole number of pages, so the sum is not rounded again
  have hdvd : H.pageSize ∣ exactSize H M := by
    have hfix : H.pageSize ∣ 0x1000000 := hH.pageSize_dvd (n := 24) (by norm_num)
    exact dvd_add (dvd_add (dvd_add hfix (H.pageSize_dvd_roundUp _)) (H.pageSize_dvd_roundUp _))
      (H.pageSize_dvd_roundUp _)
  have hround := hH.roundUp_of_dvd hdvd
  rw [gulScratchBufSize, hsum, toS32_of_lt (by omega) h1, hH.align_of_lt (by omega) (by omega), hround]

end Sizes

/-! ### The partition -/

/-- The part of the scratch memory `gul_scratch_buf_init` maps for a modem. -/
def hostRange (H : Header) (P : Params) (i : ℕ) : Set ℤ :=
  Set.Ico (gulScratchBufPhysAddr H P i) (gulScratchBufPhysAddr H P i + gulScratchBufSize H P)

/-- A kernel that maps at kernel addresses, and any size an `int` holds. -/
structure Maps (memremap : ℤ → ℤ → Option ℤ) : Prop where
  kernel : MapsKernelRange memremap
  all : ∀ phys n, 0 ≤ n → n < 2 ^ 31 → (memremap phys n).isSome

/-- The scratch memory is cut up well: the parts of the modems are apart and
inside the memory; every modem gets all its regions, and its window is the room
below its part. -/
structure PartitionedAmong (H : Header) (n : ℕ) (P : Params) : Prop where
  within : ∀ i < n, hostRange H P i ⊆
    Set.Ico P.scratchBufPhysAddr (P.scratchBufPhysAddr + P.globalScratchBufSize)
  apart : ∀ i < n, ∀ j < n, i ≠ j → Disjoint (hostRange H P i) (hostRange H P j)
  regions : ∀ i < n, ∀ memremap, Maps memremap →
    (gulScratchBufInit H memremap P i GulDev.zero).1 = 0 ∧
      ∀ o ∈ Machine.outs step (gulScratchBufInit H memremap P i GulDev.zero).2 (regionRequests H P), o.2 ≠ none
  window : ∀ i < n, ∀ memremap, Maps memremap →
    hugePageWindow H (gulScratchBufInit H memremap P i GulDev.zero).2 =
      H.dmaBufEndAddr - gulScratchBufSize H P - H.userHugePageAddr

/-! ### The regions of a modem -/

theorem regionRequests_nodup (H : Header) (P : Params) : ((regionRequests H P).map Prod.fst).Nodup := by
  unfold regionRequests areaRequest
  split <;> split <;> split <;> simp

section AreaRequest

variable {x : ℤ} (h0 : -2 ^ 31 ≤ x) (h1 : x < 2 ^ 31) (id : ScratchBufRequestId)
include h0 h1

theorem areaRequest_nonneg_iff : (∀ r ∈ areaRequest id x, 0 ≤ r.2.toInt) ↔ 0 ≤ x := by
  unfold areaRequest
  split
  · rw [List.forall_mem_singleton, Int32.toInt_ofInt_of_le h0 h1]
  · next hx =>
    simp only [List.not_mem_nil, false_implies, implies_true, true_iff]
    omega

theorem areaRequest_sum : ((areaRequest id x).map fun r => r.2.toInt).sum = x := by
  unfold areaRequest
  split
  · rw [List.map_singleton, List.sum_singleton, Int32.toInt_ofInt_of_le h0 h1]
  · next hx =>
    rw [List.map_nil, List.sum_nil]
    omega

end AreaRequest

section Regions

variable {H : Header} {M : ModuleParams} {n : ℕ} {P : Params} (hA : Accepted H M n P)
include hA

theorem share_bounds : -2 ^ 31 ≤ P.modemShareBufSize ∧ P.modemShareBufSize < 2 ^ 31 :=
  hA.share ▸ align_bounds H _

theorem host_bounds : -2 ^ 31 ≤ P.modemHostDataSize ∧ P.modemHostDataSize < 2 ^ 31 :=
  hA.host ▸ align_bounds H _

theorem rf_bounds : -2 ^ 31 ≤ P.modemRfDataSize ∧ P.modemRfDataSize < 2 ^ 31 :=
  hA.rf ▸ align_bounds H _

variable (hH : H.Documented)
include hH

omit hA in
/-- The sizes that are fixed are `int`s. -/
theorem fixed_toInt : (Int32.ofInt H.maxImageSize).toInt = H.maxImageSize ∧
    (Int32.ofInt H.epLoggerSize).toInt = H.epLoggerSize ∧ 0 ≤ H.maxImageSize ∧ 0 ≤ H.epLoggerSize := by
  have hcore := hH.epCoreMax
  have himg : H.maxImageSize = 4194304 - H.epCoreMax * 4096 := rfl
  have hlog : H.epLoggerSize = H.epCoreMax * 4096 := rfl
  refine ⟨Int32.toInt_ofInt_of_le ?_ ?_, Int32.toInt_ofInt_of_le ?_ ?_, ?_, ?_⟩ <;> omega

/-- No region asked for is negative unless one of the areas is. -/
theorem regionRequests_nonneg_iff : (∀ r ∈ regionRequests H P, 0 ≤ r.2.toInt) ↔
    0 ≤ P.modemShareBufSize ∧ 0 ≤ P.modemHostDataSize ∧ 0 ≤ P.modemRfDataSize := by
  obtain ⟨hs0, hs1⟩ := share_bounds hA
  obtain ⟨hh0, hh1⟩ := host_bounds hA
  obtain ⟨hr0, hr1⟩ := rf_bounds hA
  obtain ⟨himg, hlog, himg0, hlog0⟩ := fixed_toInt hH
  have hfw : 0 ≤ (Int32.ofInt vspaScratchBufMaxSize).toInt := by decide
  have hov : 0 ≤ (Int32.ofInt vspaOverlaySize).toInt := by decide
  unfold regionRequests
  rw [List.forall_mem_append, List.forall_mem_append, List.forall_mem_append,
    areaRequest_nonneg_iff hs0 hs1, areaRequest_nonneg_iff hh0 hh1, areaRequest_nonneg_iff hr0 hr1]
  simp only [List.forall_mem_cons, himg, hlog, himg0, hlog0, hfw, hov, List.not_mem_nil, false_implies,
    implies_true, and_true, and_assoc]

/-- The regions asked for are all a modem needs. -/
theorem regionRequests_sum : ((regionRequests H P).map fun r => r.2.toInt).sum =
    0x1000000 + P.modemShareBufSize + P.modemRfDataSize + P.modemHostDataSize := by
  obtain ⟨hs0, hs1⟩ := share_bounds hA
  obtain ⟨hh0, hh1⟩ := host_bounds hA
  obtain ⟨hr0, hr1⟩ := rf_bounds hA
  obtain ⟨himg, hlog, -, -⟩ := fixed_toInt hH
  have hfw : (Int32.ofInt vspaScratchBufMaxSize).toInt = vspaScratchBufMaxSize := by decide
  have hov : (Int32.ofInt vspaOverlaySize).toInt = vspaOverlaySize := by decide
  have hfix : H.maxImageSize + H.epLoggerSize + vspaScratchBufMaxSize + vspaOverlaySize = 0x1000000 :=
    fixedSize_eq H
  unfold regionRequests
  rw [List.map_append, List.map_append, List.map_append, List.sum_append, List.sum_append, List.sum_append,
    areaRequest_sum hs0 hs1, areaRequest_sum hh0 hh1, areaRequest_sum hr0 hr1]
  simp only [List.map_cons, List.map_nil, List.sum_cons, List.sum_nil, himg, hlog, hfw, hov]
  linarith

/-- When a modem is served: its part has a size, and the areas are not negative
and fit in it. -/
theorem regions_granted_iff {memremap : ℤ → ℤ → Option ℤ} (hm : MapsKernelRange memremap) {i : ℤ} {d : GulDev}
    (h : gulScratchBufInit H memremap P i GulDev.zero = (0, d)) :
    (∀ o ∈ Machine.outs step d (regionRequests H P), o.2 ≠ none) ↔
      0 ≤ P.modemShareBufSize ∧ 0 ≤ P.modemHostDataSize ∧ 0 ≤ P.modemRfDataSize ∧
      0x1000000 + P.modemShareBufSize + P.modemRfDataSize + P.modemHostDataSize ≤
        (gulScratchBufSize H P).toNat := by
  have href := gulScratchBufInit_refines hm h
  rw [Refines.outs_granted_iff _ href (regionRequests_nodup H P) (fun _ _ => rfl),
    regionRequests_nonneg_iff hA hH, regionRequests_sum hA hH, Bump.top_empty]
  simp only [Bump.empty, Nat.cast_zero, zero_add, and_assoc]

end Regions

/-! ### Which parameters partition the memory -/

/-- Intervals of one length that are apart and inside another one are together
no longer than it. -/
theorem mul_le_of_disjoint_Ico {a b S : ℤ} {n : ℕ} {f : ℕ → ℤ} (hn : 0 < n) (hS : 0 < S)
    (hin : ∀ i < n, Set.Ico (f i) (f i + S) ⊆ Set.Ico a b)
    (hdis : ∀ i < n, ∀ j < n, i ≠ j → Disjoint (Set.Ico (f i) (f i + S)) (Set.Ico (f j) (f j + S))) :
    n * S ≤ b - a := by
  have hunion : (Finset.range n).biUnion (fun i => Finset.Ico (f i) (f i + S)) ⊆ Finset.Ico a b := by
    intro x hx
    obtain ⟨i, hi, hxi⟩ := Finset.mem_biUnion.mp hx
    exact Finset.mem_Ico.mpr (hin i (Finset.mem_range.mp hi) (Finset.mem_Ico.mp hxi))
  have hcard := Finset.card_le_card hunion
  rw [Finset.card_biUnion] at hcard
  · simp only [Int.card_Ico, add_sub_cancel_left, Finset.sum_const, Finset.card_range, smul_eq_mul] at hcard
    have hlt : a < b := by
      have h0 := hin 0 hn (Set.left_mem_Ico.mpr (by omega))
      exact h0.1.trans_lt h0.2
    have hcast : ((n * S.toNat : ℕ) : ℤ) ≤ ((b - a).toNat : ℤ) := by exact_mod_cast hcard
    rw [Nat.cast_mul, Int.toNat_of_nonneg hS.le, Int.toNat_of_nonneg (by omega)] at hcast
    exact hcast
  · intro i hi j hj hij
    show Disjoint (Finset.Ico _ _) (Finset.Ico _ _)
    rw [Finset.disjoint_left]
    intro x hxi hxj
    have hd := hdis i (by simpa using hi) j (by simpa using hj) hij
    exact Set.disjoint_left.mp hd (Finset.mem_Ico.mp hxi) (Finset.mem_Ico.mp hxj)

/-- When the initialisation of a modem succeeds. -/
theorem gulScratchBufInit_ok_iff (H : Header) (memremap : ℤ → ℤ → Option ℤ) (hm : Maps memremap) (P : Params)
    (i : ℤ) (d : GulDev) :
    (gulScratchBufInit H memremap P i d).1 = 0 ↔
      gulScratchBufPhysAddr H P i ≤ toU64 (P.scratchBufPhysAddr + P.globalScratchBufSize) ∧
        0 ≤ gulScratchBufSize H P := by
  have hb : -2 ^ 31 ≤ gulScratchBufSize H P ∧ gulScratchBufSize H P < 2 ^ 31 := align_bounds H _
  simp only [gulScratchBufInit]
  split
  · next hgt =>
    simp only [enomem]
    omega
  · next hle =>
    split
    · next hnone =>
      have hneg : ¬ 0 ≤ gulScratchBufSize H P := by
        intro h0
        have hall := hm.all (gulScratchBufPhysAddr H P i) _ h0 hb.2
        rw [toU64_of_lt h0 (by omega)] at hnone
        simp [hnone] at hall
      simp [enomem, hneg]
    · next vaddr hv =>
      have h0 := size_nonneg_of_mapped hm.kernel hb.1 hv
      simp only [true_iff]
      omega

/-- Where the modem sees its part. -/
theorem gulScratchBufInit_modPhys {H : Header} {memremap : ℤ → ℤ → Option ℤ} {P : Params} {i : ℤ} {d : GulDev}
    (h : (gulScratchBufInit H memremap P i d).1 = 0) :
    (gulScratchBufInit H memremap P i d).2.scratchAllocator.modPhys =
      toU64 (H.dmaBufEndAddr - gulScratchBufSize H P) := by
  simp only [gulScratchBufInit] at h ⊢
  split
  · next hgt => simp [hgt, enomem] at h
  · next hle =>
    split
    · next hnone => simp [hle, hnone, enomem] at h
    · rfl

/-- The window is the room below the part exactly when there is room. -/
theorem hugePageWindow_eq_iff {H : Header} (hH : H.Documented) {P : Params} {d : GulDev}
    (h0 : 0 ≤ gulScratchBufSize H P)
    (hd : d.scratchAllocator.modPhys = toU64 (H.dmaBufEndAddr - gulScratchBufSize H P)) :
    hugePageWindow H d = H.dmaBufEndAddr - gulScratchBufSize H P - H.userHugePageAddr ↔
      H.userHugePageAddr + gulScratchBufSize H P ≤ H.dmaBufEndAddr := by
  have hw := hH.window
  rw [hugePageWindow, hd]
  unfold toU64
  omega

theorem mapAt_maps : Maps mapAt where
  kernel := mapAt_kernelRange
  all phys n h0 h1 := by
    rw [mapAt, if_pos (by omega)]
    rfl

/-- Slots of one size lie one after the other. -/
theorem slot_end_le {S : ℤ} (hS : 0 ≤ S) {i j : ℕ} (h : i < j) : 0 ≤ i * S ∧ i * S + S ≤ j * S := by
  constructor
  · positivity
  · calc (i : ℤ) * S + S = (i + 1) * S := by ring
      _ ≤ j * S := mul_le_mul_of_nonneg_right (by exact_mod_cast h) hS

section Partition

variable {H : Header} (hH : H.Documented) {M : ModuleParams} {n : ℕ} {P : Params} (hA : Accepted H M n P)
include hH hA

/-- Memory that is partitioned is big enough. -/
theorem fits_of_partitioned (h : PartitionedAmong H n P) : FitsExactly H M := by
  have hn : 0 < n := hA.modemNum ▸ modemNum_pos M
  obtain ⟨hinit, hreq⟩ := h.regions 0 hn mapAt mapAt_maps
  have hb : gulScratchBufSize H P < 2 ^ 31 := (align_bounds H _).2
  obtain ⟨hphys, hsize0⟩ := (gulScratchBufInit_ok_iff H mapAt mapAt_maps P _ _).mp hinit
  rw [regions_granted_iff hA hH mapAt_kernelRange (Prod.ext hinit rfl)] at hreq
  obtain ⟨hs, hh, hr, hsum⟩ := hreq
  rw [Int.toNat_of_nonneg hsize0] at hsum
  obtain ⟨es, er, eh⟩ := exact_of_nonneg hH hA hs hr hh (by omega)
  have hexact : exactSize H M = 0x1000000 + exactShare H M + exactRf H M + exactHost H M := rfl
  have hS : gulScratchBufSize H P = exactSize H M :=
    gulScratchBufSize_eq hH es er eh (by omega) (by omega)
  have hmem : n * exactSize H M ≤ M.globalScratchBufSize.toInt := by
    have hcount := mul_le_of_disjoint_Ico hn (by omega) h.within h.apart
    rwa [add_sub_cancel_left, hA.global, hS] at hcount
  have hglobal := M.globalScratchBufSize.toInt_lt
  refine ⟨by omega, by omega, by omega, ?_, ?_, ?_⟩
  · rw [← hA.modemNum]
    exact hmem
  · -- the check of the first modem compares the start with the end, both cut to 64 bits
    have hlt := M.scratchBufPhysAddr.toNat_lt
    have hpos : 0 ≤ M.globalScratchBufSize.toInt := by nlinarith
    rw [gulScratchBufPhysAddr, hA.phys, hA.global] at hphys
    simp only [Nat.cast_zero, zero_mul] at hphys
    unfold toU64 toS32 at hphys
    omega
  · have hw := h.window 0 hn mapAt mapAt_maps
    rw [hugePageWindow_eq_iff hH hsize0 (gulScratchBufInit_modPhys hinit)] at hw
    omega

/-- Memory that is big enough is partitioned. -/
theorem partitioned_of_fits (hF : FitsExactly H M) : PartitionedAmong H n P := by
  obtain ⟨hlt, es, er, eh⟩ := exact_of_fits hH hA hF
  have hexact : exactSize H M = 0x1000000 + exactShare H M + exactRf H M + exactHost H M := rfl
  have hs := hF.share
  have hr := hF.rf
  have hh := hF.host
  have hS : gulScratchBufSize H P = exactSize H M := gulScratchBufSize_eq hH es er eh (by omega) hlt
  have hmem : n * exactSize H M ≤ M.globalScratchBufSize.toInt := by
    rw [hA.modemNum]
    exact hF.memory
  have hglobal := M.globalScratchBufSize.toInt_lt
  have htop := hF.top
  have hS0 : 0 ≤ exactSize H M := by omega
  -- the part of modem `i` is the `i`-th from the start
  have hpart : ∀ i < n, 0 ≤ i * exactSize H M ∧
      i * exactSize H M + exactSize H M ≤ M.globalScratchBufSize.toInt ∧
      gulScratchBufPhysAddr H P i = M.scratchBufPhysAddr.toNat + i * exactSize H M := by
    intro i hi
    obtain ⟨hge, hle⟩ := slot_end_le hS0 hi
    refine ⟨hge, by omega, ?_⟩
    rw [gulScratchBufPhysAddr, hA.phys, hS, toS32_of_lt (by omega) (by omega)]
    exact toU64_of_lt (by omega) (by omega)
  have hinit : ∀ i < n, ∀ memremap, Maps memremap →
      (gulScratchBufInit H memremap P i GulDev.zero).1 = 0 := by
    intro i hi memremap hm
    obtain ⟨hge, hle, hpi⟩ := hpart i hi
    rw [gulScratchBufInit_ok_iff H memremap hm, hpi, hA.phys, hA.global, hS, toU64_of_lt (by omega) htop]
    constructor <;> omega
  refine ⟨fun i hi => ?_, fun i hi j hj hij => ?_, fun i hi memremap hm => ⟨hinit i hi memremap hm, ?_⟩,
    fun i hi memremap hm => ?_⟩
  · obtain ⟨hge, hle, hpi⟩ := hpart i hi
    rw [hostRange, hpi, hS, hA.phys, hA.global]
    apply Set.Ico_subset_Ico <;> omega
  · obtain ⟨-, -, hpi⟩ := hpart i hi
    obtain ⟨-, -, hpj⟩ := hpart j hj
    rw [hostRange, hostRange, hpi, hpj, hS, Set.disjoint_left]
    intro x hx hx'
    rw [Set.mem_Ico] at hx hx'
    rcases lt_or_gt_of_ne hij with hlt' | hlt'
    · have := slot_end_le hS0 hlt'
      omega
    · have := slot_end_le hS0 hlt'
      omega
  · rw [regions_granted_iff hA hH hm.kernel (Prod.ext (hinit i hi memremap hm) rfl), hS, es, er, eh]
    refine ⟨hs, hh, hr, ?_⟩
    omega
  · rw [hugePageWindow_eq_iff hH (by omega) (gulScratchBufInit_modPhys (hinit i hi memremap hm)), hS]
    exact hF.window

end Partition

/-- **Accepted parameters partition the scratch memory exactly when they fit
without wrapping.** -/
theorem partitionedAmong_iff (H : Header) (hH : H.Documented) (qbman : Option Qbman) (M : ModuleParams) (n : ℕ)
    (P : Params) (h : gulPcidevInit H qbman M = .ok (n, P)) : PartitionedAmong H n P ↔ FitsExactly H M := by
  have hA := accepted_of_ok h
  exact ⟨fits_of_partitioned hH hA, partitioned_of_fits hH hA⟩

/-- Pages of 4 KB and six cores. -/
def sixCoreHeader : Header := ⟨6, 0x100000000, 0x40000000, 12⟩

theorem sixCoreHeader_documented : sixCoreHeader.Documented := by
  refine ⟨?_, ?_, ?_⟩ <;> decide

/-- Two modems that share 128 MB, with 1 MB of shared area each. -/
def twoModems : ModuleParams := ⟨2, 0x8000000, 0x90000000, 0x100000, 0, 0, "vspa"⟩

theorem partitionedAmong_twoModems :
    gulPcidevInit sixCoreHeader none twoModems =
        .ok (2, ⟨0x8000000, 0x90000000, 0x100000, 0x2e00000, 0⟩) ∧
      PartitionedAmong sixCoreHeader 2 ⟨0x8000000, 0x90000000, 0x100000, 0x2e00000, 0⟩ := by
  have h : gulPcidevInit sixCoreHeader none twoModems =
      .ok (2, ⟨0x8000000, 0x90000000, 0x100000, 0x2e00000, 0⟩) := by decide +kernel
  refine ⟨h, (partitionedAmong_iff _ sixCoreHeader_documented none _ _ _ h).mpr ?_⟩
  refine ⟨?_, ?_, ?_, ?_, ?_, ?_⟩ <;> decide +kernel

/-- Four modems of 1 GB each in 256 MB: what they need together wraps to `0`. -/
def fourModems : ModuleParams := ⟨4, 0x10000000, 0x90000000, 0x3f000000, 0, 0, "vspa"⟩

theorem fourModems_not_partitioned :
    gulPcidevInit sixCoreHeader none fourModems = .ok (4, ⟨0x10000000, 0x90000000, 0x3f000000, 0, 0⟩) ∧
      ¬ PartitionedAmong sixCoreHeader 4 ⟨0x10000000, 0x90000000, 0x3f000000, 0, 0⟩ := by
  have h : gulPcidevInit sixCoreHeader none fourModems =
      .ok (4, ⟨0x10000000, 0x90000000, 0x3f000000, 0, 0⟩) := by decide +kernel
  refine ⟨h, fun hp => ?_⟩
  have hfit := (fits_of_partitioned sixCoreHeader_documented (accepted_of_ok h) hp).memory
  exact absurd hfit (by decide +kernel)

end Scratch
end La12xx
