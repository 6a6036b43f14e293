/-
# Unwinding a probe

A probe unwinds if a failure leaves nothing behind: every resource that was
acquired is released once and no other is, and exactly the sub-drivers that
were probed are removed, last first; and if success means that every step
succeeded (`Unwinds`). `gul_base_probe` does so for some failures and not for
others, and `unwinds_iff` says for which.

The stage that `gul_base_deinit` starts from is entered before its step is
made, so a step that fails is released too; and the sub-drivers are removed by
another check than they are probed by, the one that failed included.
-/
import La12xx.Base.Probe

namespace La12xx
namespace Base

/-! ### Balance -/

section Balance

variable {α : Type} [DecidableEq α]

/-- What was acquired is released exactly once, and nothing else is. -/
def Balanced (acquired released : List α) : Prop :=
  ∀ r, (r ∈ acquired → released.count r = 1) ∧ (r ∉ acquired → r ∉ released)

theorem balanced_of_perm {acquired released : List α} (hnodup : acquired.Nodup) (hperm : released.Perm acquired) :
    Balanced acquired released := by
  intro r
  constructor
  · intro hr
    rw [hperm.count_eq]
    exact List.count_eq_one_of_mem hnodup hr
  · intro hr hrel
    exact hr (hperm.mem_iff.mp hrel)

theorem Balanced.mem {acquired released : List α} (h : Balanced acquired released) {r : α} (hr : r ∈ released) :
    r ∈ acquired := by
  by_contra hn
  exact (h r).2 hn hr

/-- Two choices from a range agree up to the last, which the first leaves out. -/
theorem filter_range_succ_eq_iff (p q : ℕ → Bool) (k : ℕ) :
    (List.range (k + 1)).filter p = (List.range k).filter q ↔ (∀ i < k, p i = q i) ∧ p k = false := by
  have hsplit : (List.range (k + 1)).filter p = (List.range k).filter p ++ [k].filter p := by
    rw [List.range_succ, List.filter_append]
  constructor
  · intro h
    have hmem : ∀ i, (i < k + 1 ∧ p i = true) ↔ (i < k ∧ q i = true) := by
      intro i
      have hi : i ∈ (List.range (k + 1)).filter p ↔ i ∈ (List.range k).filter q := by rw [h]
      rw [List.mem_filter, List.mem_filter, List.mem_range, List.mem_range] at hi
      exact hi
    refine ⟨fun i hi => ?_, ?_⟩
    · have := hmem i
      rw [Bool.eq_iff_iff]
      constructor
      · intro hp
        exact (this.mp ⟨by omega, hp⟩).2
      · intro hq
        exact (this.mpr ⟨hi, hq⟩).2
    · rw [Bool.eq_false_iff]
      intro hp
      have := ((hmem k).mp ⟨Nat.lt_succ_self k, hp⟩).1
      omega
  · rintro ⟨hall, hk⟩
    rw [hsplit, List.filter_singleton, hk]
    have hcongr : (List.range k).filter p = (List.range k).filter q :=
      List.filter_congr fun i hi => hall i (List.mem_range.mp hi)
    rw [hcongr]
    exact List.append_nil _

end Balance

/-! ### TTI devices -/

/-- How many TTI devices are created. -/
def ttiCreated : List TtiStep → ℕ
  | .created :: rest => ttiCreated rest + 1
  | _ => 0

/-- The first device that is not created leaves its pointer behind. -/
def ttiDangling : List TtiStep → Bool
  | .created :: rest => ttiDangling rest
  | .noDevice :: _ => true
  | _ => false

/-- The loop acquires the devices it creates, and keeps a pointer to each and
maybe to one more. -/
theorem ttiLoop_spec : ∀ (steps : List TtiStep) (i : ℕ) (d : Dev),
    (ttiLoop steps i d).2 =
      { d with
        ttiDev := d.ttiDev ++ List.range' i (ttiCreated steps) ++
          (if ttiDangling steps then [i + ttiCreated steps] else [])
        acquired := d.acquired ++ (List.range' i (ttiCreated steps)).map .tti }
  | [], i, d => by simp [ttiLoop, ttiCreated, ttiDangling]
  | .noMem :: _, i, d => by simp [ttiLoop, ttiCreated, ttiDangling]
  | .noIrq :: _, i, d => by simp [ttiLoop, ttiCreated, ttiDangling]
  | .noDevice :: _, i, d => by simp [ttiLoop, ttiCreated, ttiDangling]
  | .created :: rest, i, d => by
    rw [ttiLoop, ttiLoop_spec rest (i + 1), ttiCreated, ttiDangling, List.range'_succ]
    simp [Dev.acquire, Nat.add_assoc, Nat.add_comm 1]

/-- What the loop returns does not depend on the device. -/
theorem ttiLoop_fst (d' : Dev) : ∀ (steps : List TtiStep) (i : ℕ) (d : Dev), (ttiLoop steps i d).1 = (ttiLoop steps i d').1
  | [], _, _ => rfl
  | .noMem :: _, _, _ => rfl
  | .noIrq :: _, _, _ => rfl
  | .noDevice :: _, _, _ => rfl
  | .created :: rest, i, d => by
    rw [ttiLoop, ttiLoop, ttiLoop_fst d' rest (i + 1), ttiLoop_fst d' rest (i + 1) (Dev.acquire _ _)]

namespace Env

variable (E : Env)

/-- `tti_dev_start` gets to its devices. -/
def ttiStarts : Bool := E.disableSideband || E.dnModemTti

/-- How many TTI devices are created. -/
def ttiCount : ℕ := if E.ttiStarts then ttiCreated E.tti else 0

/-- A pointer to a TTI device that was freed is left behind. -/
def dangling : Bool := E.ttiStarts && ttiDangling E.tti

/-- What `tti_dev_start` returns. -/
def ttiRc : ℤ := (ttiDevStart E .fresh).1

end Env

theorem ttiDevStart_eq (E : Env) (d : Dev) :
    ttiDevStart E d = (E.ttiRc,
      { d with
        ttiDev := d.ttiDev ++ List.range E.ttiCount ++ (if E.dangling then [E.ttiCount] else [])
        acquired := d.acquired ++ (List.range E.ttiCount).map .tti }) := by
  unfold Env.ttiRc Env.ttiCount Env.dangling Env.ttiStarts ttiDevStart
  by_cases hstart : (E.disableSideband || E.dnModemTti) = true
  · have hnot : ¬ ((!E.disableSideband && !E.dnModemTti) = true) := by
      rw [← Bool.not_or, hstart]
      decide
    rw [if_neg hnot, if_neg hnot, hstart, if_pos rfl, Bool.true_and, List.range_eq_range']
    have hspec := ttiLoop_spec E.tti 0 d
    have hfst := ttiLoop_fst .fresh E.tti 0 d
    rw [Nat.zero_add] at hspec
    generalize ttiLoop E.tti 0 d = out at hspec hfst
    generalize ttiLoop E.tti 0 .fresh = out' at hfst
    obtain ⟨r, d'⟩ := out
    obtain ⟨r', d''⟩ := out'
    obtain rfl : r = r' := hfst
    obtain rfl := hspec
    cases r with
    | inl rc => rfl
    | inr i => rfl
  · have hnot : (!E.disableSideband && !E.dnModemTti) = true := by
      rw [← Bool.not_or, Bool.eq_false_iff.mpr hstart]
      rfl
    rw [if_pos hnot, if_pos hnot, if_neg hstart, Bool.eq_false_iff.mpr hstart, Bool.false_and]
    simp

/-! ### Sub-drivers -/

namespace Env

variable (E : Env) (i : ℕ)

/-- Sub-driver `i` is probed when its turn comes. -/
def isProbed : Bool :=
  E.subDrvs[i]?.any fun s => gulWarmupSubdrvProbeCheckFail E.toChecks s = 0 ∧ s.probe.isSome

/-- The probe of sub-driver `i` fails. -/
def subdrvFails : Bool :=
  E.subDrvs[i]?.any fun s => gulWarmupSubdrvProbeCheckFail E.toChecks s = 0 ∧ s.probe.any (· ≠ 0)

def hasRemove : Bool := E.subDrvs[i]?.any (·.remove)

/-- The clean-up removes sub-driver `i` when it comes by. -/
def isRemoved : Bool := E.subDrvs[i]?.any fun s => gulSubdrvCheckFail E.toChecks s = 0 ∧ s.remove

end Env

/-- What the loop over the sub-drivers from `i` on gives: it passes all of them,
or stops at the first that fails and has probed those before it. -/
def SubdrvOutcome (E : Env) (i : ℕ) (d : Dev) (r : ℤ × ℕ × Dev) : Prop :=
  (r.1 = 0 ∧ (∀ j, i ≤ j → E.subdrvFails j = false) ∧ r.2.2.acquired = d.acquired) ∨
    (r.1 ≠ 0 ∧ i ≤ r.2.1 ∧ E.subdrvFails r.2.1 = true ∧ (∀ j, i ≤ j → j < r.2.1 → E.subdrvFails j = false) ∧
      r.2.2 = { d with probed := d.probed ++ (List.range' i (r.2.1 - i)).filter E.isProbed })

/-- A sub-driver that does not fail is passed, and maybe added to the probed
ones. -/
theorem SubdrvOutcome.pass {E : Env} {i : ℕ} {d d' : Dev} {r : ℤ × ℕ × Dev} (h : SubdrvOutcome E (i + 1) d' r)
    (hfail : E.subdrvFails i = false) (hd : d' = { d with probed := d.probed ++ [i].filter E.isProbed }) :
    SubdrvOutcome E i d r := by
  subst hd
  have hfrom : ∀ {j}, i ≤ j → j = i ∨ i + 1 ≤ j := by omega
  obtain ⟨hzero, hall, hacq⟩ | ⟨hne, hle, hfails, hall, hdev⟩ := h
  · left
    refine ⟨hzero, fun j hj => ?_, hacq⟩
    obtain rfl | hlt := hfrom hj
    · exact hfail
    · exact hall j hlt
  · right
    refine ⟨hne, by omega, hfails, fun j hj hj' => ?_, ?_⟩
    · obtain rfl | hlt := hfrom hj
      · exact hfail
      · exact hall j hlt hj'
    · rw [hdev]
      dsimp only
      rw [List.append_assoc, ← List.filter_append]
      congr 3
      rw [List.singleton_append, ← List.range'_succ]
      congr 1
      omega

theorem probed_filter_of_not {E : Env} {i : ℕ} (d : Dev) (hp : E.isProbed i = false) :
    d = { d with probed := d.probed ++ [i].filter E.isProbed } := by
  rw [List.filter_singleton, hp]
  simp

/-- The loop stops at the first sub-driver that fails. -/
theorem subdrvLoop_spec (E : Env) : ∀ (l : List SubDriver) (i : ℕ) (d : Dev), E.subDrvs.drop i = l →
    SubdrvOutcome E i d (subdrvLoop E.toChecks l i d)
  | [], i, d, hl => by
    left
    refine ⟨rfl, fun j hj => ?_, rfl⟩
    have hlen : E.subDrvs.length ≤ i := List.drop_eq_nil_iff.mp hl
    unfold Env.subdrvFails
    rw [List.getElem?_eq_none (by omega)]
    rfl
  | s :: rest, i, d, hl => by
    have hget : E.subDrvs[i]? = some s := by
      rw [← List.head?_drop, hl]
      rfl
    have hrest : E.subDrvs.drop (i + 1) = rest := by
      rw [← List.drop_drop, hl]
      rfl
    rw [subdrvLoop]
    by_cases hwarm : gulWarmupSubdrvProbeCheckFail E.toChecks s ≠ 0
    · rw [if_pos hwarm]
      refine (subdrvLoop_spec E rest (i + 1) d hrest).pass ?_ (probed_filter_of_not d ?_)
      · simp [Env.subdrvFails, hget, hwarm]
      · simp [Env.isProbed, hget, hwarm]
    rw [if_neg hwarm]
    rw [not_not] at hwarm
    cases hprobe : s.probe with
    | none =>
      refine (subdrvLoop_spec E rest (i + 1) d hrest).pass ?_ (probed_filter_of_not d ?_)
      · simp [Env.subdrvFails, hget, hprobe]
      · simp [Env.isProbed, hget, hprobe]
    | some rc =>
      dsimp only
      by_cases hrc : rc ≠ 0
      · right
        rw [if_pos hrc]
        refine ⟨hrc, le_rfl, ?_, ?_, ?_⟩
        · simp [Env.subdrvFails, hget, hwarm, hprobe, hrc]
        · intro j hj hj'
          exact absurd hj' (Nat.not_lt.mpr hj)
        · simp
      · rw [if_neg hrc]
        rw [not_not] at hrc
        refine (subdrvLoop_spec E rest (i + 1) _ hrest).pass ?_ ?_
        · simp [Env.subdrvFails, hget, hprobe, hrc]
        · have hprobed : E.isProbed i = true := by simp [Env.isProbed, hget, hwarm, hprobe]
          rw [List.filter_singleton, hprobed]
          rfl

theorem removeSubdrv_eq (E : Env) (i : ℕ) (d : Dev) :
    removeSubdrv E i d = { d with removed := d.removed ++ [i].filter E.isRemoved } := by
  rw [List.filter_singleton]
  unfold removeSubdrv Env.isRemoved
  cases E.subDrvs[i]? with
  | none => simp
  | some s =>
    by_cases hcheck : gulSubdrvCheckFail E.toChecks s = 0
    · by_cases hrem : s.remove = true
      · simp [hcheck, hrem]
      · simp [hcheck, hrem]
    · simp [hcheck]

/-- The clean-up of the first `n` sub-drivers. -/
theorem cleanupSubdrv_eq (E : Env) : ∀ (n : ℕ) (d : Dev),
    cleanupSubdrv E n d = { d with removed := d.removed ++ ((List.range n).filter E.isRemoved).reverse }
  | 0, d => by simp [cleanupSubdrv]
  | n + 1, d => by
    have hlast : [n].filter E.isRemoved = ([n].filter E.isRemoved).reverse := by
      rw [List.filter_singleton]
      cases E.isRemoved n <;> rfl
    rw [cleanupSubdrv, removeSubdrv_eq, cleanupSubdrv_eq E n, List.range_succ, List.filter_append,
      List.reverse_append, ← hlast, ← List.append_assoc]

/-- Clean-up after sub-driver `k` failed undoes the probes before it exactly if
the two checks agree up to there, and `k` itself is passed over. -/
theorem removed_eq_iff (E : Env) (k : ℕ) :
    ((List.range (k + 1)).filter E.isRemoved).reverse =
        (((List.range k).filter E.isProbed).filter E.hasRemove).reverse ↔
      (∀ i < k, E.isRemoved i = (E.hasRemove i && E.isProbed i)) ∧ E.isRemoved k = false := by
  rw [List.reverse_inj, List.filter_filter, filter_range_succ_eq_iff]

/-! ### Where a probe stops -/

namespace Env

variable (E : Env)

/-- The scratch buffer is mapped. -/
def ScratchOk : Prop := E.id * E.scratchBufSize ≤ E.globalScratchBufSize ∧ E.memremap = true

/-- The steps between the TTI devices and sysfs succeed. -/
def BootOk : Prop := E.loadRtosImg = 0 ∧ E.doResetHandshake = 0 ∧ E.initHif = 0

/-- The probe gets as far as sysfs. -/
def ReachesSysfs : Prop := E.ttiRc = 0 ∧ E.BootOk

/-- `gul_stats_init` does all of its work. -/
def StatsOk : Prop := 0 ≤ E.allocChrdevRegion ∧ E.cdevAdd = 0 ∧ E.logBuf = true

/-- The share area, if there is to be one, is allocated. -/
def ShareOk : Prop := E.modemShareBufSize ≠ 0 → E.iqSampleRegion = true

/-- Sub-driver `k` is the first whose probe fails. -/
def FirstFails (k : ℕ) : Prop := E.subdrvFails k = true ∧ ∀ j < k, E.subdrvFails j = false

instance : Decidable E.StatsOk := inferInstanceAs (Decidable (_ ∧ _ ∧ _))

end Env

/-- The device after sysfs and `gul_stats_init`. -/
def withStats (E : Env) (d : Dev) : Dev :=
  if E.StatsOk then (d.acquire .sysfs).acquire .stats else d.acquire .sysfs

theorem gulStatsInit_snd (E : Env) (d : Dev) : (gulStatsInit E (d.acquire .sysfs)).2 = withStats E d := by
  unfold gulStatsInit withStats
  by_cases halloc : E.allocChrdevRegion < 0
  · have hnot : ¬ E.StatsOk := fun h => absurd h.1 (Int.not_le.mpr halloc)
    rw [if_pos halloc, if_neg hnot]
  rw [if_neg halloc]
  by_cases hadd : E.cdevAdd ≠ 0
  · have hnot : ¬ E.StatsOk := fun h => hadd h.2.1
    rw [if_pos hadd, if_neg hnot]
  rw [if_neg hadd]
  by_cases hlog : E.logBuf = true
  · have hok : E.StatsOk := ⟨Int.not_lt.mp halloc, not_not.mp hadd, hlog⟩
    rw [if_neg (by rw [hlog]; decide), if_pos hok]
  · have hnot : ¬ E.StatsOk := fun h => hlog h.2.2
    rw [if_pos (by simpa using hlog), if_neg hnot]

/-- Where the steps after the scratch buffer stop, and with what; `d` is the
device after `tti_dev_start`. -/
inductive Stop (E : Env) (d : Dev) : ℤ × InitStage × ℕ × Dev → Prop
  | boot {rc : ℤ} {stage : InitStage} (hreach : ¬ E.ReachesSysfs) (hrc : rc ≠ 0)
    (hstage : stage = .scratchDmaInit ∨ stage = .handshakeInit) : Stop E d (rc, stage, 0, d)
  | sysfs (hreach : E.ReachesSysfs) (hsysfs : E.initSysfs ≠ 0) : Stop E d (E.initSysfs, .sysfsInit, 0, d)
  | stats (hreach : E.ReachesSysfs) (hsysfs : E.initSysfs = 0) (hadd : E.addStats ≠ 0) :
    Stop E d (E.addStats, .sysfsInit, 0, withStats E d)
  | subdrv {rc : ℤ} {k : ℕ} (hreach : E.ReachesSysfs) (hsysfs : E.initSysfs = 0) (hadd : E.addStats = 0)
    (hrc : rc ≠ 0) (hk : E.FirstFails k) :
    Stop E d (rc, .subdrvProbe, k, { withStats E d with
      probed := (withStats E d).probed ++ (List.range k).filter E.isProbed })
  | done {i : ℕ} {d' : Dev} (hreach : E.ReachesSysfs) (hsysfs : E.initSysfs = 0) (hadd : E.addStats = 0)
    (hall : ∀ j, E.subdrvFails j = false) : Stop E d (0, .subdrvProbe, i, d')

theorem probeFromRtos_stop {E : Env} (d : Dev) (htti : E.ttiRc = 0) : Stop E d (probeFromRtos E d) := by
  unfold probeFromRtos
  by_cases hrtos : E.loadRtosImg = 0
  · rw [if_neg (not_not.mpr hrtos)]
    by_cases hhand : E.doResetHandshake = 0
    · rw [if_neg (not_not.mpr hhand)]
      by_cases hhif : E.initHif = 0
      · rw [if_neg (not_not.mpr hhif)]
        have hreach : E.ReachesSysfs := ⟨htti, hrtos, hhand, hhif⟩
        by_cases hsysfs : E.initSysfs = 0
        · rw [if_neg (not_not.mpr hsysfs), gulStatsInit_snd]
          dsimp only
          by_cases hadd : E.addStats = 0
          · rw [if_neg (not_not.mpr hadd)]
            have hspec := subdrvLoop_spec E E.subDrvs 0 (withStats E d) rfl
            generalize subdrvLoop E.toChecks E.subDrvs 0 (withStats E d) = out at hspec
            obtain ⟨rc, i, d'⟩ := out
            unfold SubdrvOutcome at hspec
            dsimp only at hspec ⊢
            obtain ⟨rfl, hall, -⟩ | ⟨hrc, -, hk, hall, rfl⟩ := hspec
            · rw [if_neg (not_not.mpr rfl), ite_self]
              exact .done hreach hsysfs hadd fun j => hall j (Nat.zero_le j)
            · rw [if_pos hrc, ← List.range_eq_range']
              exact .subdrv hreach hsysfs hadd hrc ⟨hk, fun j hj => hall j (Nat.zero_le j) hj⟩
          · rw [if_pos hadd]
            exact .stats hreach hsysfs hadd
        · rw [if_pos hsysfs]
          exact .sysfs hreach hsysfs
      · rw [if_pos hhif]
        exact .boot (fun h => hhif h.2.2.2) hhif (Or.inr rfl)
    · rw [if_pos hhand]
      exact .boot (fun h => hhand h.2.2.1) hhand (Or.inr rfl)
  · rw [if_pos hrtos]
    exact .boot (fun h => hrtos h.2.1) hrtos (Or.inl rfl)

/-! ### What the clean-up releases -/

theorem memunmap_acquired (d : Dev) : (memunmap d).acquired = d.acquired := by
  unfold memunmap
  split_ifs <;> rfl

theorem gulBaseDeinit_sysfs (E : Env) (i : ℕ) (d : Dev) :
    gulBaseDeinit E .sysfsInit i d = ttiDevStop (memunmap (((d.release .stats).release .sysfs).release .modinfo)) :=
  rfl

theorem gulBaseDeinit_subdrv (E : Env) (i : ℕ) (d : Dev) :
    gulBaseDeinit E .subdrvProbe i d = gulBaseDeinit E .sysfsInit 0 (cleanupSubdrv E (i + 1) d) :=
  rfl

/-- Releasing acquires nothing. -/
theorem gulBaseDeinit_acquired (E : Env) (stage : InitStage) (i : ℕ) (d : Dev) :
    (gulBaseDeinit E stage i d).acquired = d.acquired := by
  cases stage with
  | dmaInit => rfl
  | scratchDmaInit => exact memunmap_acquired _
  | handshakeInit => exact memunmap_acquired _
  | irqInit => exact memunmap_acquired _
  | sysfsInit => exact memunmap_acquired _
  | subdrvProbe =>
    refine (memunmap_acquired _).trans ?_
    rw [cleanupSubdrv_eq]
    rfl

@[simp] theorem release_released (d : Dev) (r : Res) : (d.release r).released = d.released ++ [r] := rfl

/-- The part of the clean-up that all failures go through. -/
theorem released_scratch {d : Dev} (h : d.hostVaddr = true) :
    (ttiDevStop (memunmap (d.release .modinfo))).released =
      d.released ++ [.modinfo, .scratch] ++ d.ttiDev.map .tti := by
  have hmap : memunmap (d.release .modinfo) = (d.release .modinfo).release .scratch := if_pos h
  rw [hmap]
  simp [ttiDevStop, Dev.release]

theorem modinfo_mem_released (d : Dev) : Res.modinfo ∈ (ttiDevStop (memunmap (d.release .modinfo))).released := by
  unfold ttiDevStop memunmap
  split_ifs <;> simp [Dev.release]

theorem stats_mem_released (d : Dev) :
    Res.stats ∈ (ttiDevStop (memunmap (((d.release .stats).release .sysfs).release .modinfo))).released := by
  unfold ttiDevStop memunmap
  split_ifs <;> simp [Dev.release]

/-- A record in which the other resources balance does so exactly if there is
no dangling TTI device. -/
theorem balanced_tti_iff {A B C : List Res} (htti : ∀ i, Res.tti i ∉ A ++ C) (hnodup : (A ++ C).Nodup)
    (hperm : B.Perm (A ++ C)) (n : ℕ) (b : Bool) :
    Balanced (A ++ (List.range n).map .tti ++ C) (B ++ (List.range n ++ if b then [n] else []).map .tti) ↔
      b = false := by
  have hcomm : (A ++ C ++ (List.range n).map Res.tti).Perm (A ++ (List.range n).map Res.tti ++ C) := by
    rw [List.append_assoc, List.append_assoc]
    exact List.perm_append_comm.append_left A
  cases b with
  | true =>
    refine iff_of_false (fun h => ?_) Bool.noConfusion
    have hmem : Res.tti n ∈ A ++ (List.range n).map Res.tti ++ C := h.mem (by simp)
    rw [← hcomm.mem_iff, List.mem_append, List.mem_map] at hmem
    obtain hmem | ⟨i, hi, hin⟩ := hmem
    · exact htti n hmem
    · obtain rfl := Res.tti.inj hin
      exact absurd (List.mem_range.mp hi) (lt_irrefl _)
  | false =>
    refine iff_of_true (balanced_of_perm ?_ ?_) rfl
    · rw [← hcomm.nodup_iff, List.nodup_append]
      refine ⟨hnodup, List.nodup_range.map fun i j h => Res.tti.inj h, ?_⟩
      rintro r hr r' hr' rfl
      obtain ⟨i, -, rfl⟩ := List.mem_map.mp hr'
      exact htti i hr
    · rw [if_neg Bool.false_ne_true, List.append_nil]
      exact (hperm.append_right _).trans hcomm

/-! ### The probe -/

/-- Every step of the probe succeeds. -/
def Env.AllOk (E : Env) : Prop :=
  E.ScratchOk ∧ E.miscRegister = 0 ∧ E.ttiRc = 0 ∧ E.BootOk ∧ E.initSysfs = 0 ∧ E.StatsOk ∧ E.addStats = 0 ∧
    (∀ j, E.subdrvFails j = false) ∧ E.ShareOk

/-- A failure is undone completely, and success means that every step
succeeded. -/
def Unwinds (E : Env) : Prop :=
  ((gulBaseProbe E).1 ≠ 0 →
    (gulBaseProbe E).2.removed = ((gulBaseProbe E).2.probed.filter E.hasRemove).reverse ∧
      Balanced (gulBaseProbe E).2.acquired (gulBaseProbe E).2.released) ∧
  ((gulBaseProbe E).1 = 0 → E.AllOk)

/-- When a probe unwinds. -/
structure UnwindsWhen (E : Env) : Prop where
  scratch : E.ScratchOk
  modinfo : E.miscRegister = 0
  /-- a later failure finds no dangling TTI device -/
  tti : ¬ E.ReachesSysfs ∨ E.addStats ≠ 0 ∨ (∃ k, E.subdrvFails k = true) → E.dangling = false
  sysfs : E.ReachesSysfs → E.initSysfs = 0
  stats : E.ReachesSysfs → E.StatsOk
  /-- the two checks of sub-drivers agree before the one that fails, and the
  one that fails is passed over -/
  subdrv : E.ReachesSysfs → E.addStats = 0 → ∀ k, E.FirstFails k →
    (∀ i < k, E.isRemoved i = (E.hasRemove i && E.isProbed i)) ∧ E.isRemoved k = false
  share : E.ReachesSysfs → E.addStats = 0 → (∀ j, E.subdrvFails j = false) → E.ShareOk

/-- The device when the scratch buffer and modinfo are there. -/
def Dev.mapped : Dev := ⟨true, [], [.scratch, .modinfo], [], [], []⟩

/-- The device after modinfo failed. -/
def Dev.unmapped : Dev := ⟨true, [], [.scratch], [.scratch], [], []⟩

theorem gulScratchBufInit_of_ok {E : Env} (h : E.ScratchOk) :
    gulScratchBufInit E .fresh = (0, if E.miscRegister = 0 then .mapped else .unmapped) := by
  have hsize : ¬ E.id * E.scratchBufSize > E.globalScratchBufSize := Nat.not_lt.mpr h.1
  unfold gulScratchBufInit
  rw [if_neg hsize, if_neg (by rw [h.2]; decide)]
  by_cases hmisc : E.miscRegister = 0
  · rw [if_pos hmisc]
    dsimp only
    rw [if_neg (not_not.mpr hmisc)]
    rfl
  · rw [if_neg hmisc]
    dsimp only
    rw [if_pos hmisc]
    rfl

theorem gulScratchBufInit_of_not_ok {E : Env} (h : ¬ E.ScratchOk) :
    gulScratchBufInit E .fresh = (-enomem, .fresh) := by
  unfold gulScratchBufInit
  by_cases hsize : E.id * E.scratchBufSize > E.globalScratchBufSize
  · rw [if_pos hsize]
  · have hmap : (!E.memremap) = true := by
      rw [Bool.not_eq_true']
      exact Bool.eq_false_iff.mpr fun hm => h ⟨Nat.not_lt.mp hsize, hm⟩
    rw [if_neg hsize, if_pos hmap]
    rfl

/-- The device after `tti_dev_start`. -/
def afterTti (E : Env) : Dev :=
  let d : Dev := if E.miscRegister = 0 then .mapped else .unmapped
  { d with
    ttiDev := d.ttiDev ++ List.range E.ttiCount ++ (if E.dangling then [E.ttiCount] else [])
    acquired := d.acquired ++ (List.range E.ttiCount).map .tti }

theorem probeSteps_stop {E : Env} (h : E.ScratchOk) : Stop E (afterTti E) (probeSteps E) := by
  unfold probeSteps
  rw [gulScratchBufInit_of_ok h]
  dsimp only
  rw [if_neg (not_not.mpr rfl), ttiDevStart_eq]
  dsimp only
  by_cases htti : E.ttiRc = 0
  · rw [if_neg (not_not.mpr htti)]
    exact probeFromRtos_stop _ htti
  · rw [if_pos htti]
    exact .boot (fun hr => htti hr.1) htti (Or.inl rfl)

theorem withStats_acquired (E : Env) (d : Dev) :
    (withStats E d).acquired = d.acquired ++ if E.StatsOk then [.sysfs, .stats] else [.sysfs] := by
  unfold withStats
  split_ifs
  · exact List.append_assoc _ _ _
  · rfl

/-- `gul_stats_init` only adds to what is acquired. -/
theorem withStats_eq (E : Env) (d : Dev) : withStats E d = { d with acquired := (withStats E d).acquired } := by
  unfold withStats
  split_ifs <;> rfl

/-- The stage of a failure, and what is not acquired until then. -/
theorem Stop.not_acquired {E : Env} {d d' : Dev} {rc : ℤ} {stage : InitStage} {i : ℕ}
    (h : Stop E d (rc, stage, i, d')) (hd : Res.modinfo ∉ d.acquired) (hrc : rc ≠ 0) :
    stage ≠ .dmaInit ∧ Res.modinfo ∉ d'.acquired := by
  have hwith : Res.modinfo ∉ (withStats E d).acquired := by
    rw [withStats_acquired, List.mem_append]
    rintro (hm | hm)
    · exact hd hm
    · split_ifs at hm <;> simp at hm
  cases h with
  | boot hreach hrc hstage => exact ⟨by rcases hstage with rfl | rfl <;> decide, hd⟩
  | sysfs hreach hsysfs => exact ⟨by decide, hd⟩
  | stats hreach hsysfs hadd => exact ⟨by decide, hwith⟩
  | subdrv hreach hsysfs hadd hrc hk => exact ⟨by decide, hwith⟩
  | done hreach hsysfs hadd hall => exact absurd rfl hrc

theorem modinfo_mem_deinit {E : Env} {stage : InitStage} (h : stage ≠ .dmaInit) (i : ℕ) (d : Dev) :
    Res.modinfo ∈ (gulBaseDeinit E stage i d).released := by
  cases stage with
  | dmaInit => exact absurd rfl h
  | scratchDmaInit => exact modinfo_mem_released _
  | handshakeInit => exact modinfo_mem_released _
  | irqInit => exact modinfo_mem_released _
  | sysfsInit => exact modinfo_mem_released _
  | subdrvProbe => exact modinfo_mem_released _

/-- What is to be shown of a probe that fails. -/
theorem unwinds_iff_of_ne {E : Env} {rc : ℤ} {stage : InitStage} {i : ℕ} {d : Dev}
    (h : probeSteps E = (rc, stage, i, d)) (hrc : rc ≠ 0) :
    Unwinds E ↔
      (gulBaseDeinit E stage i d).removed = ((gulBaseDeinit E stage i d).probed.filter E.hasRemove).reverse ∧
        Balanced d.acquired (gulBaseDeinit E stage i d).released := by
  have hprobe : gulBaseProbe E = (rc, gulBaseDeinit E stage i d) := by
    unfold gulBaseProbe
    rw [h]
    dsimp only
    rw [if_pos hrc]
  unfold Unwinds
  rw [hprobe, gulBaseDeinit_acquired]
  exact ⟨fun hu => hu.1 hrc, fun hu => ⟨fun _ => hu, fun hz => absurd hz hrc⟩⟩

theorem unwinds_iff_of_zero {E : Env} {stage : InitStage} {i : ℕ} {d : Dev}
    (h : probeSteps E = (0, stage, i, d)) : Unwinds E ↔ E.AllOk := by
  have hprobe : (gulBaseProbe E).1 = 0 := by
    unfold gulBaseProbe
    rw [h]
  unfold Unwinds
  rw [hprobe]
  exact ⟨fun hu => hu.2 rfl, fun hall => ⟨fun hne => absurd rfl hne, fun _ => hall⟩⟩

theorem not_unwinds_of_scratch {E : Env} (h : ¬ E.ScratchOk) : ¬ Unwinds E := by
  have hsteps : probeSteps E = (-enomem, .scratchDmaInit, 0, .fresh) := by
    unfold probeSteps
    rw [gulScratchBufInit_of_not_ok h]
    dsimp only
    rw [if_pos (by decide)]
  rw [unwinds_iff_of_ne hsteps (by decide)]
  rintro ⟨-, hbal⟩
  exact absurd (hbal.mem (modinfo_mem_released _)) List.not_mem_nil

theorem not_unwinds_of_modinfo {E : Env} (hscratch : E.ScratchOk) (h : E.miscRegister ≠ 0) : ¬ Unwinds E := by
  have hstop := probeSteps_stop hscratch
  have hd : Res.modinfo ∉ (afterTti E).acquired := by
    unfold afterTti
    rw [if_neg h]
    simp [Dev.unmapped]
  obtain ⟨⟨rc, stage, i, d⟩, hsteps⟩ : ∃ out, probeSteps E = out := ⟨_, rfl⟩
  rw [hsteps] at hstop
  by_cases hrc : rc = 0
  · subst hrc
    rw [unwinds_iff_of_zero hsteps]
    exact fun hall => h hall.2.1
  · obtain ⟨hstage, hacq⟩ := hstop.not_acquired hd hrc
    rw [unwinds_iff_of_ne hsteps hrc]
    rintro ⟨-, hbal⟩
    exact hacq (hbal.mem (modinfo_mem_deinit hstage i d))

section Mapped

variable {E : Env} (hmisc : E.miscRegister = 0)

include hmisc

theorem afterTti_eq :
    afterTti E = ⟨true, List.range E.ttiCount ++ (if E.dangling then [E.ttiCount] else []),
      [.scratch, .modinfo] ++ (List.range E.ttiCount).map .tti, [], [], []⟩ := by
  unfold afterTti
  rw [if_pos hmisc]
  rfl

/-- A failure before sysfs. -/
theorem balanced_boot_iff {stage : InitStage} (hstage : stage = .scratchDmaInit ∨ stage = .handshakeInit) :
    Balanced (afterTti E).acquired (gulBaseDeinit E stage 0 (afterTti E)).released ↔ E.dangling = false := by
  have hdeinit : gulBaseDeinit E stage 0 (afterTti E) = ttiDevStop (memunmap ((afterTti E).release .modinfo)) := by
    rcases hstage with rfl | rfl <;> rfl
  have hhost : (afterTti E).hostVaddr = true := by rw [afterTti_eq hmisc]
  have hacq : (afterTti E).acquired = ([.scratch, .modinfo] : List Res) ++ (List.range E.ttiCount).map Res.tti ++ [] := by
    rw [afterTti_eq hmisc, List.append_nil]
  rw [hdeinit, released_scratch hhost, hacq, afterTti_eq hmisc]
  dsimp only
  rw [List.nil_append]
  exact balanced_tti_iff (by simp) (by decide) (by decide) _ _

/-- A failure after `gul_stats_init` has done its work. `d` is the device after
the sub-drivers are cleaned up. -/
theorem balanced_stats_iff (hstats : E.StatsOk) {d : Dev} (hhost : d.hostVaddr = (afterTti E).hostVaddr)
    (htti : d.ttiDev = (afterTti E).ttiDev) (hrel : d.released = (afterTti E).released) :
    Balanced (withStats E (afterTti E)).acquired
        (ttiDevStop (memunmap (((d.release .stats).release .sysfs).release .modinfo))).released ↔
      E.dangling = false := by
  have hhost' : ((d.release .stats).release .sysfs).hostVaddr = true := by
    refine hhost.trans ?_
    rw [afterTti_eq hmisc]
  have htti' : ((d.release .stats).release .sysfs).ttiDev = (afterTti E).ttiDev := htti
  have hrel' : ((d.release .stats).release .sysfs).released = [.stats, .sysfs] := by
    have hd : d.released = [] := by rw [hrel, afterTti_eq hmisc]
    rw [release_released, release_released, hd, List.nil_append]
    rfl
  rw [released_scratch hhost', htti', hrel', withStats_acquired, if_pos hstats, afterTti_eq hmisc]
  exact balanced_tti_iff (by simp) (by decide) (by decide) _ _

omit hmisc in
/-- Without `gul_stats_init`, the clean-up releases what is not there. -/
theorem not_balanced_of_not_stats {acquired : List Res} (hacq : Res.stats ∉ acquired) (d : Dev) :
    ¬ Balanced acquired (ttiDevStop (memunmap (((d.release .stats).release .sysfs).release .modinfo))).released :=
  fun h => hacq (h.mem (stats_mem_released d))

theorem stats_not_mem_acquired : Res.stats ∉ (afterTti E).acquired := by
  rw [afterTti_eq hmisc]
  simp

theorem stats_not_mem_withStats (hstats : ¬ E.StatsOk) : Res.stats ∉ (withStats E (afterTti E)).acquired := by
  rw [withStats_acquired, if_neg hstats, afterTti_eq hmisc]
  simp

end Mapped

/-- Without sub-drivers to undo, nothing is removed. -/
theorem deinit_probed_removed {E : Env} {stage : InitStage} (hstage : stage ≠ .subdrvProbe) (i : ℕ) (d : Dev) :
    (gulBaseDeinit E stage i d).probed = d.probed ∧ (gulBaseDeinit E stage i d).removed = d.removed := by
  have hunmap : ∀ d : Dev, (memunmap d).probed = d.probed ∧ (memunmap d).removed = d.removed := by
    intro d
    unfold memunmap
    split_ifs <;> exact ⟨rfl, rfl⟩
  cases stage with
  | subdrvProbe => exact absurd rfl hstage
  | dmaInit => exact ⟨rfl, rfl⟩
  | scratchDmaInit => exact hunmap _
  | handshakeInit => exact hunmap _
  | irqInit => exact hunmap _
  | sysfsInit => exact hunmap _

/-- A failure before sysfs. -/
theorem unwound_boot_iff {E : Env} (hmisc : E.miscRegister = 0) {stage : InitStage}
    (hstage : stage = .scratchDmaInit ∨ stage = .handshakeInit) :
    ((gulBaseDeinit E stage 0 (afterTti E)).removed =
        ((gulBaseDeinit E stage 0 (afterTti E)).probed.filter E.hasRemove).reverse ∧
      Balanced (afterTti E).acquired (gulBaseDeinit E stage 0 (afterTti E)).released) ↔ E.dangling = false := by
  have hne : stage ≠ .subdrvProbe := by rcases hstage with rfl | rfl <;> decide
  obtain ⟨hprobed, hremoved⟩ := deinit_probed_removed (E := E) hne 0 (afterTti E)
  rw [hprobed, hremoved, balanced_boot_iff hmisc hstage, afterTti_eq hmisc]
  exact and_iff_right rfl

/-- A failure to register the statistics. -/
theorem unwound_stats_iff {E : Env} (hmisc : E.miscRegister = 0) (hstats : E.StatsOk) :
    ((gulBaseDeinit E .sysfsInit 0 (withStats E (afterTti E))).removed =
        ((gulBaseDeinit E .sysfsInit 0 (withStats E (afterTti E))).probed.filter E.hasRemove).reverse ∧
      Balanced (withStats E (afterTti E)).acquired
        (gulBaseDeinit E .sysfsInit 0 (withStats E (afterTti E))).released) ↔ E.dangling = false := by
  have hne : InitStage.sysfsInit ≠ .subdrvProbe := by decide
  obtain ⟨hprobed, hremoved⟩ := deinit_probed_removed (E := E) hne 0 (withStats E (afterTti E))
  have hbal : Balanced (withStats E (afterTti E)).acquired
      (gulBaseDeinit E .sysfsInit 0 (withStats E (afterTti E))).released ↔ E.dangling = false := by
    rw [gulBaseDeinit_sysfs]
    refine balanced_stats_iff hmisc hstats ?_ ?_ ?_ <;> rw [withStats_eq]
  rw [hprobed, hremoved, hbal, withStats_eq, afterTti_eq hmisc]
  exact and_iff_right rfl

/-- A failure of sub-driver `k`. -/
theorem unwound_subdrv_iff {E : Env} (hmisc : E.miscRegister = 0) (hstats : E.StatsOk) (k : ℕ) {d : Dev}
    (hd : d = { withStats E (afterTti E) with
      probed := (withStats E (afterTti E)).probed ++ (List.range k).filter E.isProbed }) :
    ((gulBaseDeinit E .subdrvProbe k d).removed =
        ((gulBaseDeinit E .subdrvProbe k d).probed.filter E.hasRemove).reverse ∧
      Balanced d.acquired (gulBaseDeinit E .subdrvProbe k d).released) ↔
    ((∀ i < k, E.isRemoved i = (E.hasRemove i && E.isProbed i)) ∧ E.isRemoved k = false) ∧
      E.dangling = false := by
  have hne : InitStage.sysfsInit ≠ .subdrvProbe := by decide
  obtain ⟨hprobed, hremoved⟩ := deinit_probed_removed (E := E) hne 0 (cleanupSubdrv E (k + 1) d)
  change _ = ((gulBaseDeinit E .sysfsInit 0 (cleanupSubdrv E (k + 1) d)).probed.filter E.hasRemove).reverse ∧ _ ↔ _
  have hbal : Balanced d.acquired (gulBaseDeinit E .subdrvProbe k d).released ↔ E.dangling = false := by
    have hacq : d.acquired = (withStats E (afterTti E)).acquired := by rw [hd]
    rw [hacq, gulBaseDeinit_subdrv, gulBaseDeinit_sysfs]
    refine balanced_stats_iff hmisc hstats ?_ ?_ ?_ <;> rw [cleanupSubdrv_eq, hd, withStats_eq]
  refine and_congr ?_ hbal
  have hrem : (gulBaseDeinit E .subdrvProbe k d).removed = ((List.range (k + 1)).filter E.isRemoved).reverse := by
    refine hremoved.trans ?_
    rw [cleanupSubdrv_eq, hd, withStats_eq, afterTti_eq hmisc]
    rfl
  have hpro : (cleanupSubdrv E (k + 1) d).probed = (List.range k).filter E.isProbed := by
    rw [cleanupSubdrv_eq, hd, withStats_eq, afterTti_eq hmisc]
    rfl
  rw [hrem, hprobed, hpro]
  exact removed_eq_iff E k

theorem firstFails_unique {E : Env} {k k' : ℕ} (h : E.FirstFails k) (h' : E.FirstFails k') : k = k' := by
  rcases lt_trichotomy k k' with hlt | heq | hlt
  · exact absurd h.1 (by rw [h'.2 k hlt]; decide)
  · exact heq
  · exact absurd h'.1 (by rw [h.2 k' hlt]; decide)

/-! What `UnwindsWhen` asks for, by the step at which the probe stops. -/

section Cases

variable {E : Env} (hscratch : E.ScratchOk) (hmisc : E.miscRegister = 0)

include hscratch hmisc

theorem unwindsWhen_iff_of_boot (hreach : ¬ E.ReachesSysfs) : UnwindsWhen E ↔ E.dangling = false := by
  constructor
  · intro h
    exact h.tti (Or.inl hreach)
  · intro hdang
    exact ⟨hscratch, hmisc, fun _ => hdang, fun h => absurd h hreach, fun h => absurd h hreach,
      fun h => absurd h hreach, fun h => absurd h hreach⟩

theorem unwindsWhen_iff_of_addStats (hsysfs : E.initSysfs = 0) (hadd : E.addStats ≠ 0) (hstats : E.StatsOk) :
    UnwindsWhen E ↔ E.dangling = false := by
  constructor
  · intro h
    exact h.tti (Or.inr (Or.inl hadd))
  · intro hdang
    exact ⟨hscratch, hmisc, fun _ => hdang, fun _ => hsysfs, fun _ => hstats, fun _ h => absurd h hadd,
      fun _ h => absurd h hadd⟩

theorem unwindsWhen_iff_of_subdrv (hreach : E.ReachesSysfs) (hsysfs : E.initSysfs = 0) (hadd : E.addStats = 0)
    (hstats : E.StatsOk) {k : ℕ} (hk : E.FirstFails k) :
    UnwindsWhen E ↔ ((∀ i < k, E.isRemoved i = (E.hasRemove i && E.isProbed i)) ∧ E.isRemoved k = false) ∧
      E.dangling = false := by
  constructor
  · intro h
    exact ⟨h.subdrv hreach hadd k hk, h.tti (Or.inr (Or.inr ⟨k, hk.1⟩))⟩
  · rintro ⟨hundone, hdang⟩
    refine ⟨hscratch, hmisc, fun _ => hdang, fun _ => hsysfs, fun _ => hstats, ?_, ?_⟩
    · intro _ _ k' hk'
      obtain rfl := firstFails_unique hk hk'
      exact hundone
    · intro _ _ hall
      exact absurd hk.1 (by rw [hall k]; decide)

theorem unwindsWhen_iff_of_done (hreach : E.ReachesSysfs) (hsysfs : E.initSysfs = 0) (hadd : E.addStats = 0)
    (hall : ∀ j, E.subdrvFails j = false) : UnwindsWhen E ↔ E.AllOk := by
  constructor
  · intro h
    exact ⟨hscratch, hmisc, hreach.1, hreach.2, hsysfs, h.stats hreach, hadd, hall, h.share hreach hadd hall⟩
  · rintro ⟨-, -, -, -, -, hstats, -, -, hshare⟩
    refine ⟨hscratch, hmisc, ?_, fun _ => hsysfs, fun _ => hstats, ?_, fun _ _ _ => hshare⟩
    · rintro (h | h | ⟨k, h⟩)
      · exact absurd hreach h
      · exact absurd hadd h
      · exact absurd h (by rw [hall k]; decide)
    · intro _ _ k hk
      exact absurd hk.1 (by rw [hall k]; decide)

end Cases

/-- **Unwinding.** For every list of sub-drivers, every setting of the checks
and every failure, `gul_base_probe` unwinds exactly in the cases of
`UnwindsWhen`. -/
theorem unwinds_iff (E : Env) : Unwinds E ↔ UnwindsWhen E := by
  by_cases hscratch : E.ScratchOk
  swap
  · exact iff_of_false (not_unwinds_of_scratch hscratch) fun h => hscratch h.scratch
  by_cases hmisc : E.miscRegister = 0
  swap
  · exact iff_of_false (not_unwinds_of_modinfo hscratch hmisc) fun h => hmisc h.modinfo
  have hstop := probeSteps_stop hscratch
  generalize hsteps : probeSteps E = out at hstop
  cases hstop with
  | boot hreach hrc hstage =>
    rw [unwinds_iff_of_ne hsteps hrc, unwound_boot_iff hmisc hstage, unwindsWhen_iff_of_boot hscratch hmisc hreach]
  | sysfs hreach hsysfs =>
    rw [unwinds_iff_of_ne hsteps hsysfs]
    refine iff_of_false ?_ fun h => hsysfs (h.sysfs hreach)
    rintro ⟨-, hbal⟩
    exact not_balanced_of_not_stats (stats_not_mem_acquired hmisc) _ hbal
  | stats hreach hsysfs hadd =>
    rw [unwinds_iff_of_ne hsteps hadd]
    by_cases hstats : E.StatsOk
    · rw [unwound_stats_iff hmisc hstats, unwindsWhen_iff_of_addStats hscratch hmisc hsysfs hadd hstats]
    · refine iff_of_false ?_ fun h => hstats (h.stats hreach)
      rintro ⟨-, hbal⟩
      exact not_balanced_of_not_stats (stats_not_mem_withStats hmisc hstats) _ hbal
  | @subdrv rc k hreach hsysfs hadd hrc hk =>
    rw [unwinds_iff_of_ne hsteps hrc]
    by_cases hstats : E.StatsOk
    · rw [unwound_subdrv_iff hmisc hstats k rfl,
        unwindsWhen_iff_of_subdrv hscratch hmisc hreach hsysfs hadd hstats hk]
    · refine iff_of_false ?_ fun h => hstats (h.stats hreach)
      rintro ⟨-, hbal⟩
      exact not_balanced_of_not_stats (stats_not_mem_withStats hmisc hstats) _ hbal
  | done hreach hsysfs hadd hall =>
    rw [unwinds_iff_of_zero hsteps, unwindsWhen_iff_of_done hscratch hmisc hreach hsysfs hadd hall]

/-- The table `sub_drvs_g` without the drivers that are build options. -/
def subDrvsG (rc : SubdrvType → ℤ) : List SubDriver :=
  [⟨.wdog, some (rc .wdog), false⟩, ⟨.tvd, some (rc .tvd), true⟩, ⟨.vspa, some (rc .vspa), true⟩,
    ⟨.ipc, some (rc .ipc), true⟩, ⟨.cli, some (rc .cli), true⟩, ⟨.none, none, false⟩]

/-- A probe in which every step succeeds but the probe of the TVD driver. -/
def tvdFailing : Env where
  warmup := false
  socRev := .revB
  hostBoardRev := 'C'
  fuse := 15
  hsdcsEnable := true
  vspaDisable := false
  rficDisable := false
  tvdDisable := false
  wdogDisable := false
  id := ⟨0, Nat.succ_pos 3⟩
  scratchBufSize := 0x2000000
  globalScratchBufSize := 0x8000000
  memremap := true
  miscRegister := 0
  disableSideband := false
  dnModemTti := true
  tti := [.created, .noIrq]
  loadRtosImg := 0
  doResetHandshake := 0
  initHif := 0
  initSysfs := 0
  allocChrdevRegion := 0
  cdevAdd := 0
  logBuf := true
  addStats := 0
  subDrvs := subDrvsG fun t => if t = .tvd then -19 else 0
  modemShareBufSize := 0
  iqSampleRegion := true

/-- The TVD driver is removed although its probe failed. -/
theorem tvd_removed_unprobed : (gulBaseProbe tvdFailing).1 = -19 ∧ ¬ Unwinds tvdFailing := by
  refine ⟨by decide +kernel, fun h => ?_⟩
  have hremoved := (h.1 (by decide +kernel)).1
  exact absurd hremoved (by decide +kernel)

end Base
end La12xx
