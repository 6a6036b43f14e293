/-
# Probing a modem

`gul_base_probe` of `gul_base.c` takes the resources of a modem one after the
other and then probes the sub-drivers; if a step fails, `gul_base_deinit`
releases what was taken, from the stage the probe says it had reached.

The outcome of every call to the kernel, the modem and the sub-drivers is part
of the input (`Env`). The state keeps a record of what is acquired and released
and of the sub-drivers that are probed and removed; a release is recorded when
its function is called, whatever that does to a resource that is not there.
What only logs or writes registers is left out.
-/
import Mathlib

namespace La12xx
namespace Base

/-! ### Sub-drivers -/

/-- `enum gul_subdrv_type_t`; `none` is the type of the empty entry that ends
the table. -/
inductive SubdrvType where
  | none
  | vspa
  | ipc
  | wdog
  | rfic
  | dcs
  | v2h
  | tvd
  | cli
  | hawk
  | usim
  | test
deriving DecidableEq, Repr

/-- `struct gul_sub_driver`: what its `probe` returns, if it has one, and
whether it has a `remove`. -/
structure SubDriver where
  type : SubdrvType
  probe : Option ℤ
  remove : Bool
deriving DecidableEq, Repr

/-- What `gul_ep_get_soc_rev` tells apart. -/
inductive SocRev where
  | revA
  | revB
  | other
deriving DecidableEq, Repr

/-- `FUSE_INVALID` -/
def fuseInvalid : ℕ := 16

/-- The switches the checks of sub-drivers read. -/
structure Checks where
  /-- `warmup_flag` of the modem -/
  warmup : Bool
  socRev : SocRev
  hostBoardRev : Char
  /-- the personality field of the fuse register -/
  fuse : ℕ
  hsdcsEnable : Bool
  vspaDisable : Bool
  rficDisable : Bool
  tvdDisable : Bool
  wdogDisable : Bool
deriving DecidableEq, Repr

/-- `get_fuse_val` -/
def getFuseVal (C : Checks) : ℕ := if C.fuse = 0 then fuseInvalid else C.fuse

/-- `gul_hsdcs_check`: LA1215, LA1225, LA1235, LA1216, LA1218, LA1236, LA1238
and LA1224. -/
def gulHsdcsCheck (socFuse : ℕ) : ℤ := if socFuse ∈ [4, 7, 9, 5, 11, 10, 12, 15] then 0 else -1

/-- `gul_lsdcs_check`: LA1212, LA1214, LA1223, LA1232, LA1234, LA1216, LA1218,
LA1236, LA1238 and LA1224. -/
def gulLsdcsCheck (socFuse : ℕ) : ℤ := if socFuse ∈ [2, 3, 6, 13, 8, 5, 11, 10, 12, 15] then 0 else -1

/-- `gul_subdrv_check_fail` -/
def gulSubdrvCheckFail (C : Checks) (subdrv : SubDriver) : ℤ :=
  if C.vspaDisable ∧ subdrv.type = .vspa then -1
  else if C.rficDisable ∧ subdrv.type = .rfic then -1
  else if C.tvdDisable ∧ subdrv.type = .tvd then -1
  else if C.wdogDisable ∧ subdrv.type = .wdog then -1
  else 0

/-- `gul_warmup_subdrv_probe_check_fail` -/
def gulWarmupSubdrvProbeCheckFail (C : Checks) (subdrv : SubDriver) : ℤ :=
  if C.warmup then
    match subdrv.type with
    | .dcs => if C.socRev = .revA then 0 else -1
    | .wdog | .vspa => 0
    | _ => -1
  else if subdrv.type = .dcs then
    if C.hostBoardRev ≠ 'A' ∧ C.hostBoardRev ≠ 'B' ∧ C.socRev = .revB then
      let fusePersonality := getFuseVal C
      if fusePersonality = fuseInvalid then 0
      else
        let hsdcsCheck := if C.hsdcsEnable then gulHsdcsCheck fusePersonality else -1
        let lsdcsCheck := gulLsdcsCheck fusePersonality
        if hsdcsCheck = 0 ∨ lsdcsCheck = 0 then 0 else -1
    else 0
  else gulSubdrvCheckFail C subdrv

/-! ### The probe -/

/-- What a probe acquires. -/
inductive Res where
  | scratch
  | modinfo
  | tti (i : ℕ)
  | sysfs
  | stats
deriving DecidableEq, Repr

/-- How it goes with one TTI device. -/
inductive TtiStep where
  | noMem
  | noIrq
  | noDevice
  | created
deriving DecidableEq, Repr

/-- What a probe meets. -/
structure Env extends Checks where
  id : Fin 4
  scratchBufSize : ℕ
  globalScratchBufSize : ℕ
  memremap : Bool
  miscRegister : ℤ
  disableSideband : Bool
  dnModemTti : Bool
  /-- the `tti_per_dev` devices -/
  tti : List TtiStep
  loadRtosImg : ℤ
  doResetHandshake : ℤ
  initHif : ℤ
  initSysfs : ℤ
  allocChrdevRegion : ℤ
  cdevAdd : ℤ
  logBuf : Bool
  addStats : ℤ
  subDrvs : List SubDriver
  modemShareBufSize : ℕ
  iqSampleRegion : Bool
deriving DecidableEq, Repr

/-- The device and the record. -/
structure Dev where
  /-- `host_vaddr` is not null -/
  hostVaddr : Bool
  /-- the TTI devices whose `tti_dev` is not null, in order -/
  ttiDev : List ℕ
  acquired : List Res
  released : List Res
  probed : List ℕ
  removed : List ℕ
deriving DecidableEq, Repr

def Dev.fresh : Dev := ⟨false, [], [], [], [], []⟩

def Dev.acquire (d : Dev) (r : Res) : Dev := { d with acquired := d.acquired ++ [r] }

def Dev.release (d : Dev) (r : Res) : Dev := { d with released := d.released ++ [r] }

/-- `memunmap(scr->host_vaddr)`, which keeps the pointer. -/
def memunmap (d : Dev) : Dev := if d.hostVaddr then d.release .scratch else d

/-- `ENOMEM` -/
def enomem : ℤ := 12

/-- `ENODEV` -/
def enodev : ℤ := 19

/-- `gul_scratch_buf_init`; `gul_scratch_outbound_create` does not fail. -/
def gulScratchBufInit (E : Env) (d : Dev) : ℤ × Dev :=
  if E.id * E.scratchBufSize > E.globalScratchBufSize then (-enomem, d)
  else if !E.memremap then (-enomem, { d with hostVaddr := false })
  else
    let rc := 0
    let d := { d with hostVaddr := true }.acquire .scratch
    if E.miscRegister ≠ 0 then (rc, memunmap d) else (0, d.acquire .modinfo)

/-- The loop of `tti_dev_start` from device `i` on: the value it returns from
within the loop, or the index at which the loop ends. -/
def ttiLoop : List TtiStep → ℕ → Dev → (ℤ ⊕ ℕ) × Dev
  | [], i, d => (.inr i, d)
  | .noMem :: _, _, d => (.inl (-enomem), d)
  | .noIrq :: _, i, d => (.inr i, d)
  -- the device is freed, and the pointer to it kept
  | .noDevice :: _, i, d => (.inr i, { d with ttiDev := d.ttiDev ++ [i] })
  | .created :: rest, i, d => ttiLoop rest (i + 1) ({ d with ttiDev := d.ttiDev ++ [i] }.acquire (.tti i))

/-- `tti_dev_start` -/
def ttiDevStart (E : Env) (d : Dev) : ℤ × Dev :=
  if !E.disableSideband && !E.dnModemTti then (-enodev, d)
  else
    match ttiLoop E.tti 0 d with
    | (.inl rc, d) => (rc, d)
    | (.inr i, d) => (if i = 0 then -enodev else 0, d)

/-- `tti_dev_stop` -/
def ttiDevStop (d : Dev) : Dev := { d with released := d.released ++ d.ttiDev.map .tti, ttiDev := [] }

/-- `gul_stats_init`: the value it returns, which is 0 also without a log
buffer. -/
def gulStatsInit (E : Env) (d : Dev) : ℤ × Dev :=
  if E.allocChrdevRegion < 0 then (E.allocChrdevRegion, d)
  else if E.cdevAdd ≠ 0 then (E.cdevAdd, d)
  else if !E.logBuf then (E.cdevAdd, d)
  else (E.cdevAdd, d.acquire .stats)

/-- The loop over the sub-drivers, from index `i` on. -/
def subdrvLoop (C : Checks) : List SubDriver → ℕ → Dev → ℤ × ℕ × Dev
  | [], i, d => (0, i, d)
  | subdrv :: rest, i, d =>
    if gulWarmupSubdrvProbeCheckFail C subdrv ≠ 0 then subdrvLoop C rest (i + 1) d
    else
      match subdrv.probe with
      | none => subdrvLoop C rest (i + 1) d
      | some rc =>
        if rc ≠ 0 then (rc, i, d)
        else subdrvLoop C rest (i + 1) { d with probed := d.probed ++ [i] }

/-- `enum gul_init_stage` -/
inductive InitStage where
  | dmaInit
  | scratchDmaInit
  | sysfsInit
  | handshakeInit
  | irqInit
  | subdrvProbe
deriving DecidableEq, Repr

/-- One round of `gul_base_cleanup_subdrv`. -/
def removeSubdrv (E : Env) (i : ℕ) (d : Dev) : Dev :=
  match E.subDrvs[i]? with
  | some subdrv =>
    if gulSubdrvCheckFail E.toChecks subdrv ≠ 0 then d
    else if subdrv.remove then { d with removed := d.removed ++ [i] } else d
  | none => d

/-- The loop of `gul_base_cleanup_subdrv` over the first `n` sub-drivers, from
the last one down. -/
def cleanupSubdrv (E : Env) : ℕ → Dev → Dev
  | 0, d => d
  | n + 1, d => cleanupSubdrv E n (removeSubdrv E n d)

/-- `gul_base_deinit` -/
def gulBaseDeinit (E : Env) (stage : InitStage) (drvIndex : ℕ) (d : Dev) : Dev :=
  let scratchDma (d : Dev) := ttiDevStop (memunmap (d.release .modinfo))
  let sysfs (d : Dev) := scratchDma ((d.release .stats).release .sysfs)
  match stage with
  | .subdrvProbe => sysfs (cleanupSubdrv E (drvIndex + 1) d)
  | .sysfsInit => sysfs d
  | .irqInit | .handshakeInit | .scratchDmaInit => scratchDma d
  | .dmaInit => d

/-- The steps of `gul_base_probe` from `gul_load_rtos_img` up to `out`: the
value, the stage and the index of the sub-driver there. -/
def probeFromRtos (E : Env) (d : Dev) : ℤ × InitStage × ℕ × Dev :=
  if E.loadRtosImg ≠ 0 then (E.loadRtosImg, .scratchDmaInit, 0, d) else
  if E.doResetHandshake ≠ 0 then (E.doResetHandshake, .handshakeInit, 0, d) else
  if E.initHif ≠ 0 then (E.initHif, .handshakeInit, 0, d) else
  if E.initSysfs ≠ 0 then (E.initSysfs, .sysfsInit, 0, d) else
  -- the value of `gul_stats_init` is not looked at
  let d := (gulStatsInit E (d.acquire .sysfs)).2
  if E.addStats ≠ 0 then (E.addStats, .sysfsInit, 0, d) else
  let (rc, i, d) := subdrvLoop E.toChecks E.subDrvs 0 d
  if rc ≠ 0 then (rc, .subdrvProbe, i, d) else
  -- without its share area the probe goes to `out` too, with `rc` still 0
  if E.modemShareBufSize ≠ 0 ∧ !E.iqSampleRegion then (rc, .subdrvProbe, i, d) else
  (rc, .subdrvProbe, i, d)

/-- All steps of `gul_base_probe` up to `out`. -/
def probeSteps (E : Env) : ℤ × InitStage × ℕ × Dev :=
  let (rc, d) := gulScratchBufInit E .fresh
  if rc ≠ 0 then (rc, .scratchDmaInit, 0, d) else
  let (rc, d) := ttiDevStart E d
  if rc ≠ 0 then (rc, .scratchDmaInit, 0, d) else
  probeFromRtos E d

/-- `gul_base_probe` -/
def gulBaseProbe (E : Env) : ℤ × Dev :=
  let (rc, stage, i, d) := probeSteps E
  (rc, if rc ≠ 0 then gulBaseDeinit E stage i d else d)

end Base
end La12xx
