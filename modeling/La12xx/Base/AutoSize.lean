/-
# What is left for the host

When the host's area is not asked for, `gul_pcidev_init` of `gul_pci.c` gives
it what a modem's share of the scratch memory has left, less a megabyte if it
has more than that. The megabyte stands in for the page the rounding takes: a
rest of at most a megabyte is handed out whole, and rounded up it takes the
modem past its share. So the check that follows holds exactly when more than
a megabyte is left or the share is a whole number of pages.
-/
import La12xx.Base.Partition

namespace La12xx
namespace Scratch

section Sizing

variable (H : Header) (M : ModuleParams)

/-! ### The check -/

/-- `size_per_modem` -/
def ModuleParams.sizePerModem : ℤ := M.globalScratchBufSize.toInt.tdiv M.modemNum

/-- `gul_scratch_buf_size` without the host's area. -/
def ModuleParams.needSize : ℤ :=
  toS32 (H.fixedSize + H.align M.modemShareBufSize.toInt + H.align M.modemRfDataSize.toInt)

/-- `gul_scratch_buf_size` as it is checked. -/
def ModuleParams.scratchBufSize : ℤ :=
  H.align (toS32 (M.needSize H + H.align (M.hostDataSize (M.needSize H))))

/-- The check passes, and what passed is right: the modems need no more than there is. -/
structure Sufficient : Prop where
  check : ¬ toS32 (M.modemNum * M.scratchBufSize H) > M.globalScratchBufSize.toInt
  within : M.modemNum * M.scratchBufSize H ≤ M.globalScratchBufSize.toInt

/-- What else `gul_pcidev_init` asks of its parameters. -/
structure OtherChecks (qbman : Option Qbman) (M : ModuleParams) : Prop where
  count : M.pciAddrCount ≤ maxModem
  phys : M.scratchBufPhysAddr.toNat ≠ 0
  qbman : ∀ q ∈ qbman, ¬ conflicts q.pfdr M.scratchBufPhysAddr.toNat ∧
    ¬ conflicts q.fqd M.scratchBufPhysAddr.toNat ∧ ¬ conflicts q.fbpr M.scratchBufPhysAddr.toNat
  vspaFwNamePrefix : ¬ M.vspaFwNamePrefix.isEmpty

/-- With the other checks behind it, the parameters stand or fall with the sizes. -/
theorem gulPcidevInit_ok_iff {H : Header} {M : ModuleParams} {qbman : Option Qbman} (ho : OtherChecks qbman M)
    (hg : M.globalScratchBufSize.toInt ≠ 0) : (∃ r, gulPcidevInit H qbman M = .ok r) ↔
      ¬ toS32 (M.modemNum * M.scratchBufSize H) > M.globalScratchBufSize.toInt := by
  have hsize : H.align (toS32 (toS32 (H.fixedSize + H.align M.modemShareBufSize.toInt +
      H.align M.modemRfDataSize.toInt) + H.align (M.hostDataSize (toS32 (H.fixedSize +
        H.align M.modemShareBufSize.toInt + H.align M.modemRfDataSize.toInt))))) = M.scratchBufSize H := rfl
  have hcount : ¬ M.pciAddrCount > maxModem := Nat.not_lt.mpr ho.count
  have hphys : (M.scratchBufPhysAddr.toNat : ℤ) ≠ 0 := by exact_mod_cast ho.phys
  have hq : ¬ ∃ q ∈ qbman, conflicts q.pfdr M.scratchBufPhysAddr.toNat ∨
      conflicts q.fqd M.scratchBufPhysAddr.toNat ∨ conflicts q.fbpr M.scratchBufPhysAddr.toNat := by
    rintro ⟨q, hmem, hc⟩
    obtain ⟨h1, h2, h3⟩ := ho.qbman q hmem
    rcases hc with h | h | h
    · exact h1 h
    · exact h2 h
    · exact h3 h
  unfold gulPcidevInit
  simp only [hsize]
  rw [if_neg hcount, if_neg (not_not_intro ⟨hg, hphys⟩), if_neg hq]
  by_cases hcheck : toS32 (M.modemNum * M.scratchBufSize H) > M.globalScratchBufSize.toInt
  · rw [if_pos hcheck]
    simp only [reduceCtorEq, exists_false, hcheck, not_true_eq_false]
  · rw [if_neg hcheck, if_neg ho.vspaFwNamePrefix]
    simp only [Except.ok.injEq, exists_eq', hcheck, not_false_eq_true]

/-! ### The exact sizes -/

/-- What a modem needs besides the host's area: 16 MB and the two others. -/
def exactNeed : ℤ := 0x1000000 + exactShare H M + exactRf H M

/-- No sum on the way to the check leaves the range of an `int`. -/
structure NoOverflow : Prop where
  share : exactShare H M < 2 ^ 31
  rf : exactRf H M < 2 ^ 31
  need : -2 ^ 31 ≤ exactNeed H M
  rest : M.sizePerModem - exactNeed H M < 2 ^ 31
  total : -2 ^ 31 ≤ M.modemNum * exactSize H M ∧ M.modemNum * exactSize H M < 2 ^ 31

end Sizing

section Exactness

variable {H : Header} (hH : H.Documented) {M : ModuleParams}

theorem exactSize_eq : exactSize H M = exactNeed H M + exactHost H M := rfl

theorem exactHostDataSize_eq (h0 : M.modemHostDataSize.toInt = 0) :
    exactHostDataSize H M = exactRest (exactNeed H M) M.sizePerModem := if_pos h0

include hH

theorem pageSize_dvd_exactNeed : H.pageSize ∣ exactNeed H M := by
  have hfix : H.pageSize ∣ 0x1000000 := hH.pageSize_dvd (n := 24) (by norm_num)
  exact dvd_add (dvd_add hfix (H.pageSize_dvd_roundUp _)) (H.pageSize_dvd_roundUp _)

/-- Whole pages move out of a rounding. -/
theorem roundUp_add_of_dvd {a : ℤ} (h : H.pageSize ∣ a) (x : ℤ) : H.roundUp (a + x) = a + H.roundUp x := by
  have hb := hH.roundUp_bounds x
  have hb' := hH.roundUp_bounds (a + x)
  have hd : H.pageSize ∣ H.roundUp (a + x) - (a + H.roundUp x) :=
    dvd_sub (H.pageSize_dvd_roundUp _) (dvd_add h (H.pageSize_dvd_roundUp x))
  obtain ⟨q, hq⟩ := hd
  have hp := hH.pageSize_pos.1
  have h1 : q < 1 := by nlinarith
  have h2 : -1 < q := by nlinarith
  have h0 : q = 0 := by omega
  rw [h0, mul_zero] at hq
  omega

/-- Rounded up, the rest of a share that is handed out whole goes past the share
unless the share is a whole number of pages. -/
theorem exactSize_of_rest_le (h0 : M.modemHostDataSize.toInt = 0) (hlt : exactNeed H M < M.sizePerModem)
    (hle : M.sizePerModem - exactNeed H M ≤ 0x100000) : exactSize H M = H.roundUp M.sizePerModem := by
  have hrest : exactHostDataSize H M = M.sizePerModem - exactNeed H M := by
    rw [exactHostDataSize_eq h0, exactRest, if_pos hlt, if_neg (by omega)]
  calc exactSize H M = exactNeed H M + H.roundUp (M.sizePerModem - exactNeed H M) := by
        rw [exactSize_eq, exactHost, hrest]
    _ = H.roundUp (exactNeed H M + (M.sizePerModem - exactNeed H M)) :=
        (roundUp_add_of_dvd hH (pageSize_dvd_exactNeed hH) _).symm
    _ = H.roundUp M.sizePerModem := by rw [add_sub_cancel]

/-- A longer rest gives up a megabyte, which the rounding does not use up. -/
theorem exactSize_of_rest_gt (h0 : M.modemHostDataSize.toInt = 0)
    (hgt : 0x100000 < M.sizePerModem - exactNeed H M) :
    exactSize H M = H.roundUp M.sizePerModem - 0x100000 := by
  have hrest : exactHostDataSize H M = M.sizePerModem - exactNeed H M - 0x100000 := by
    rw [exactHostDataSize_eq h0, exactRest, if_pos (by omega), if_pos hgt]
  have hmb : H.pageSize ∣ 0x100000 := hH.pageSize_dvd (n := 20) (by norm_num)
  have hdvd : H.pageSize ∣ exactNeed H M - 0x100000 := dvd_sub (pageSize_dvd_exactNeed hH) hmb
  have hround := roundUp_add_of_dvd hH (dvd_neg.mpr hmb) M.sizePerModem
  calc exactSize H M = exactNeed H M + H.roundUp (M.sizePerModem - exactNeed H M - 0x100000) := by
        rw [exactSize_eq, exactHost, hrest]
    _ = H.roundUp (exactNeed H M + (M.sizePerModem - exactNeed H M - 0x100000)) :=
        (roundUp_add_of_dvd hH (pageSize_dvd_exactNeed hH) _).symm
    _ = H.roundUp (-0x100000 + M.sizePerModem) := by
        congr 1
        ring
    _ = H.roundUp M.sizePerModem - 0x100000 := by
        rw [hround]
        ring

/-- With nothing left the host gets nothing. -/
theorem exactSize_of_rest_nonpos (h0 : M.modemHostDataSize.toInt = 0) (hle : M.sizePerModem ≤ exactNeed H M) :
    exactSize H M = exactNeed H M := by
  have hrest : exactHostDataSize H M = 0 := by
    rw [exactHostDataSize_eq h0, exactRest, if_neg (by omega)]
  have hzero : H.roundUp 0 = 0 := hH.roundUp_of_dvd (dvd_zero _)
  rw [exactSize_eq, exactHost, hrest, hzero, add_zero]

end Exactness

/-! ### A modem's share -/

section Share

variable {M : ModuleParams} (hg : 0 < M.globalScratchBufSize.toInt)
include hg

theorem sizePerModem_bounds : 0 ≤ M.sizePerModem ∧ M.sizePerModem < 2 ^ 31 := by
  constructor
  · exact Int.tdiv_nonneg hg.le (Int.natCast_nonneg _)
  · exact tdiv_modemNum_lt M

/-- The modems fit exactly when each fits in its share. -/
theorem mul_le_global_iff (x : ℤ) : M.modemNum * x ≤ M.globalScratchBufSize.toInt ↔ x ≤ M.sizePerModem := by
  have hn : (0 : ℤ) < M.modemNum := by exact_mod_cast modemNum_pos M
  rw [ModuleParams.sizePerModem, Int.tdiv_eq_ediv_of_nonneg hg.le, Int.le_ediv_iff_mul_le hn, mul_comm]

omit hg in
/-- A rest is at most a megabyte, or a megabyte less than what is left. -/
theorem exactRest_le (size per : ℤ) : 0 ≤ exactRest size per ∧
    (exactRest size per ≤ 0x100000 ∨ exactRest size per = per - size - 0x100000) := by
  unfold exactRest
  split
  · split <;> omega
  · omega

/-- The size that is checked is the exact one as long as nothing overflows. -/
theorem scratchBufSize_eq {H : Header} (hH : H.Documented) (h0 : M.modemHostDataSize.toInt = 0)
    (hneed : exactNeed H M ≤ M.sizePerModem) (hno : NoOverflow H M) : M.scratchBufSize H = exactSize H M := by
  obtain ⟨hs0, hs1⟩ := sizePerModem_bounds hg
  have hlo := hno.need
  have hrest1 := hno.rest
  have hp := hH.pageSize_pos
  have hn : (1 : ℤ) ≤ M.modemNum := by exact_mod_cast modemNum_pos M
  have hshare : H.align M.modemShareBufSize.toInt = exactShare H M :=
    hH.align_of_lt (Int32.le_toInt _) hno.share
  have hrf : H.align M.modemRfDataSize.toInt = exactRf H M := hH.align_of_lt (Int32.le_toInt _) hno.rf
  have hsize : M.needSize H = exactNeed H M := by
    rw [ModuleParams.needSize, fixedSize_eq, hshare, hrf]
    exact toS32_of_lt (x := exactNeed H M) hlo (by omega)
  -- what is left for the host
  have hdata : M.hostDataSize (M.needSize H) = exactHostDataSize H M := by
    unfold ModuleParams.hostDataSize exactHostDataSize
    rw [if_pos h0, if_pos h0, hsize]
    show defaultHostDataSize (exactNeed H M) M.sizePerModem = exactRest (exactNeed H M) M.sizePerModem
    unfold defaultHostDataSize exactRest
    by_cases hlt : exactNeed H M < M.sizePerModem
    · have hr : toS32 (M.sizePerModem - exactNeed H M) = M.sizePerModem - exactNeed H M :=
        toS32_of_lt (by omega) hrest1
      have hless : toS32 (M.sizePerModem - exactNeed H M - 0x100000) =
          M.sizePerModem - exactNeed H M - 0x100000 := toS32_of_lt (by omega) (by omega)
      simp only [hlt, if_true, hr, hless]
    · simp only [hlt, if_false]
  have hb := hH.roundUp_bounds (exactHostDataSize H M)
  have hlong := exactRest_le (exactNeed H M) M.sizePerModem
  rw [← exactHostDataSize_eq (H := H) h0] at hlong
  have hmega : H.pageSize ≤ 2 ^ 16 := hp.2
  have hhost : H.align (M.hostDataSize (M.needSize H)) = exactHost H M := by
    rw [hdata]
    exact hH.align_of_lt (by omega) (by omega)
  -- the sum is whole pages, and an `int`
  have htotal := hno.total
  have hint : -2 ^ 31 ≤ exactSize H M ∧ exactSize H M < 2 ^ 31 := by
    rcases le_total 0 (exactSize H M) with hpos | hneg
    · have hmore : exactSize H M ≤ M.modemNum * exactSize H M := le_mul_of_one_le_left hpos hn
      omega
    · have hless : M.modemNum * exactSize H M ≤ exactSize H M := mul_le_of_one_le_left hneg hn
      omega
  have hround : H.roundUp (exactSize H M) = exactSize H M :=
    hH.roundUp_of_dvd (dvd_add (pageSize_dvd_exactNeed hH) (H.pageSize_dvd_roundUp _))
  rw [ModuleParams.scratchBufSize, hhost, hsize, ← exactSize_eq, toS32_of_lt hint.1 hint.2,
    hH.align_of_lt hint.1 (by omega), hround]

end Share

/-! ### When the check passes -/

/-- A number is its own next multiple only if it is one. -/
theorem roundUp_le_iff {H : Header} (hH : H.Documented) (x : ℤ) : H.roundUp x ≤ x ↔ H.pageSize ∣ x := by
  constructor
  · intro h
    rw [← le_antisymm h (hH.roundUp_bounds x).1]
    exact H.pageSize_dvd_roundUp x
  · intro h
    exact (hH.roundUp_of_dvd h).le

/-- A modem stays within its share exactly when the megabyte is taken off, or
there is nothing to round. -/
theorem exactSize_le_iff {H : Header} (hH : H.Documented) {M : ModuleParams}
    (h0 : M.modemHostDataSize.toInt = 0) (hneed : exactNeed H M ≤ M.sizePerModem) :
    exactSize H M ≤ M.sizePerModem ↔
      0x100000 < M.sizePerModem - exactNeed H M ∨ H.pageSize ∣ M.sizePerModem := by
  have hb := hH.roundUp_bounds M.sizePerModem
  have hp := hH.pageSize_pos
  by_cases hgt : 0x100000 < M.sizePerModem - exactNeed H M
  · rw [exactSize_of_rest_gt hH h0 hgt]
    constructor
    · intro _
      exact Or.inl hgt
    · intro _
      omega
  · rw [or_iff_right hgt]
    rcases hneed.lt_or_eq with hlt | heq
    · rw [exactSize_of_rest_le hH h0 hlt (by omega)]
      exact roundUp_le_iff hH _
    · rw [exactSize_of_rest_nonpos hH h0 heq.ge, heq, ← heq]
      exact iff_of_true le_rfl (pageSize_dvd_exactNeed hH)

/-- **The host's share passes the check exactly when more than a megabyte is
left of it, or a modem's share is a whole number of pages.** -/
theorem sufficient_iff (H : Header) (hH : H.Documented) (M : ModuleParams)
    (hg : 0 < M.globalScratchBufSize.toInt) (h0 : M.modemHostDataSize.toInt = 0) (hno : NoOverflow H M)
    (hneed : M.modemNum * H.roundUp (exactNeed H M) ≤ M.globalScratchBufSize.toInt) :
    (Sufficient H M ↔ 0x100000 < M.sizePerModem - exactNeed H M ∨ H.pageSize ∣ M.sizePerModem) ∧
      ∀ qbman, OtherChecks qbman M → ((∃ r, gulPcidevInit H qbman M = .ok r) ↔
        0x100000 < M.sizePerModem - exactNeed H M ∨ H.pageSize ∣ M.sizePerModem) := by
  rw [hH.roundUp_of_dvd (pageSize_dvd_exactNeed hH), mul_le_global_iff hg] at hneed
  have hsize := scratchBufSize_eq hg hH h0 hneed hno
  have hcheck : ¬ toS32 (M.modemNum * M.scratchBufSize H) > M.globalScratchBufSize.toInt ↔
      exactSize H M ≤ M.sizePerModem := by
    rw [hsize, toS32_of_lt hno.total.1 hno.total.2, not_lt, mul_le_global_iff hg]
  rw [← exactSize_le_iff hH h0 hneed]
  refine ⟨⟨fun h => hcheck.mp h.check, fun h => ⟨hcheck.mpr h, ?_⟩⟩, fun qbman ho => ?_⟩
  · rw [hsize, mul_le_global_iff hg]
    exact h
  · rw [gulPcidevInit_ok_iff ho hg.ne', hcheck]

theorem twoModems_sufficient : Sufficient sixCoreHeader twoModems ∧
    ∃ r, gulPcidevInit sixCoreHeader none twoModems = .ok r := by
  have hno : NoOverflow sixCoreHeader twoModems := by
    refine ⟨?_, ?_, ?_, ?_, ?_⟩ <;> decide +kernel
  have ho : OtherChecks none twoModems := by
    refine ⟨?_, ?_, ?_, ?_⟩ <;> decide +kernel
  have h := sufficient_iff sixCoreHeader sixCoreHeader_documented twoModems (by decide) (by decide) hno
    (by decide +kernel)
  have hmega : 0x100000 < twoModems.sizePerModem - exactNeed sixCoreHeader twoModems := by decide +kernel
  exact ⟨h.1.mpr (Or.inl hmega), (h.2 none ho).mpr (Or.inl hmega)⟩

/-- Three modems that share 64 MB, with 5 MB of shared area each. -/
def threeModems : ModuleParams := ⟨3, 0x4000000, 0x90000000, 0x500000, 0, 0, "vspa"⟩

/-- 21 MB are needed of 21.3: the third of a megabyte that is left goes to the
host, and the page it is rounded up to is missing. -/
theorem threeModems_refused : 0 < threeModems.globalScratchBufSize.toInt ∧
    threeModems.modemHostDataSize.toInt = 0 ∧ NoOverflow sixCoreHeader threeModems ∧
    threeModems.modemNum * sixCoreHeader.roundUp (exactNeed sixCoreHeader threeModems) ≤
      threeModems.globalScratchBufSize.toInt ∧
    ¬ Sufficient sixCoreHeader threeModems ∧
    gulPcidevInit sixCoreHeader none threeModems = .error (-einval) := by
  refine ⟨by decide, by decide, ?_, by decide +kernel, ?_, by decide +kernel⟩
  · refine ⟨?_, ?_, ?_, ?_, ?_⟩ <;> decide +kernel
  · intro h
    exact absurd h.within (by decide +kernel)

end Scratch
end La12xx
