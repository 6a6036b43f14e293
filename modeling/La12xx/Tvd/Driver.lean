/-
# The thermal driver

One record for each modem (`tvd_priv_d`), and the memory the host shares with it
(`gul_hif`). A call of the driver on a modem works on the record and the shared memory
of that modem, except at three places: `tvd_probe` clears `rtd_event_flag` in the
first record, `gul_tvd_dev_read` clears `ctd_event_flag` there, and both ways of
fetching an event report the RTD event of the first record. When these show is
`isolated_iff`.

A call that waits is two operations: what it does before `schedule()` and what it does
when it runs again. What the driver is told by others is an input: the results of
kernel calls, the sensor of the host, the time that is left.
-/
import La12xx.Lib.Machine

namespace La12xx
namespace Tvd

/-- `EINVAL` -/
def einval : ℤ := 22

/-- `ENOMEM` -/
def enomem : ℤ := 12

/-- `MAX_MODEM` records. -/
abbrev Modem := Fin 4

/-- The modem of the first record. -/
def Modem.first : Modem := ⟨0, four_pos⟩

def Modem.second : Modem := ⟨1, Nat.one_lt_succ_succ 2⟩

/-- `enum mtd_temp_sites`; any other number is read as the first. -/
inductive Site where
  | vspaTemp
  | fecaTemp
  | pciTemp
  | diodeTemp
  | combinedTemp
deriving DecidableEq, Repr

/-- What is not in this repository: where the temperatures are in the word of
`union mtdcurentTemp`, `TEMP_ADJUST`, and `INVALID_CTD_TEMP`. -/
structure Platform where
  vspaTemp : BitVec 32 → ℤ
  fecaTemp : BitVec 32 → ℤ
  pciTemp : BitVec 32 → ℤ
  diodeTemp : BitVec 32 → ℤ
  tempAdjust : ℤ
  invalidCtdTemp : ℤ

/-- A threshold: how many, and the values. -/
structure Threshold where
  thresholdCount : ℤ
  threshold : Fin 2 → ℤ
deriving DecidableEq

/-- A request word: nothing asked, `TVD_MTD_CURENT_TEMP_REQUESTED` or its like of the
other words, `TVD_MTD_HYSTERESIS_UPDATE_REQUESTED`. -/
inductive Word where
  | clear
  | requested
  | hysteresis
deriving DecidableEq, Repr

/-- What the host and a modem share. -/
structure Hif where
  mtdEventTemp : BitVec 32
  mtdTmuEvent : ℤ
  rtdEventTemp : ℤ
  rtdTmuEvent : ℤ
  tvdMtdEvent : Word
  tvdRtdEvent : Word
  tvdMtdPowerEvent : Word
  mtdCurentTemp : BitVec 32
  rtdCurentTemp : ℤ
  mtdThreshold : Threshold
  rtdThreshold : Threshold
  mtdHysteresisVal : ℤ
  msiMtdTvd : ℤ
  msiMtdTvdCurentTemp : ℤ
  msiRtdTvdCurentTemp : ℤ
  msiMtdPowerInfo : ℤ

/-- `struct tvd_priv_data` -/
structure Priv where
  msiIndex : ℤ
  irq : ℤ
  msiTempIndex : ℤ
  irqTemp : ℤ
  irqStatusFlag : ℤ
  irqTempFlag : ℤ
  tvdId : ℤ
  mtdEventType : ℤ
  mtdCurTemp : ℤ
  rtdEventType : ℤ
  rtdCurTemp : ℤ
  ctdEventType : ℤ
  ctdCurTemp : ℤ
  mtdEventFlag : ℤ
  ctdEventFlag : ℤ
  rtdEventFlag : ℤ
  mtdPowerEventFlag : ℤ
  getMtdCurTemp : ℤ
  getCtdCurTemp : ℤ
  getRtdCurTemp : ℤ
deriving DecidableEq

/-- The records, the shared memories, and which modems have a device
(`tvd_dev_data_g`). -/
structure Driver where
  priv : Modem → Priv
  hif : Modem → Hif
  present : Modem → Bool

/-- The interrupts raised at a modem: `HOST_MSI_TMU`, `HOST_MSI_RTD`,
`HOST_MSI_MTD_POWER`. -/
inductive Bell where
  | tmu
  | rtd
  | mtdPower
deriving DecidableEq, Repr

/-- What a call leaves with others: its result, the interrupts it raises, and what it
puts to the caller (type and temperature of each event); a field that it does not put
stays as the caller had it. -/
structure Report where
  ret : ℤ
  bells : List Bell
  thermalId : Option ℤ
  ctd : Option (ℤ × ℤ)
  mtd : Option (ℤ × ℤ)
  rtd : Option (ℤ × ℤ)
  temp : Option ℤ
deriving DecidableEq

/-- A result alone. -/
def Report.rc (n : ℤ) : Report := ⟨n, [], none, none, none, none, none⟩

namespace Driver

def setPriv (s : Driver) (i : Modem) (p : Priv) : Driver := { s with priv := Function.update s.priv i p }

def setHif (s : Driver) (i : Modem) (h : Hif) : Driver := { s with hif := Function.update s.hif i h }

def setPresent (s : Driver) (i : Modem) (b : Bool) : Driver := { s with present := Function.update s.present i b }

end Driver

/-! ### Interrupts and callbacks -/

def tvdIrqHandler (i : Modem) (s : Driver) : Driver :=
  s.setPriv i { s.priv i with mtdEventFlag := 1, rtdEventFlag := 1 }

/-- `ctd_cbk`: every modem with a device is told. -/
def ctdCbk (thermalEventId temp : ℤ) (s : Driver) : Driver :=
  { s with
    priv := fun i =>
      if s.present i then { s.priv i with ctdEventFlag := 1, ctdEventType := thermalEventId, ctdCurTemp := temp }
      else s.priv i }

/-! ### Events -/

def ctdEvent : ℤ := 1
def mtdEvent : ℤ := 2
def bothCtdMtdEvent : ℤ := 3
def rtdEvent : ℤ := 4

/-- `cpu_to_be32` on a little-endian host. -/
def cpuToBe32 (x : BitVec 32) : BitVec 32 :=
  x.extractLsb' 0 8 ++ x.extractLsb' 8 8 ++ x.extractLsb' 16 8 ++ x.extractLsb' 24 8

def mtdGetSiteTemp (u : Platform) (mtdSiteTemp : BitVec 32) (site : Site) (isRemoteTemp : Bool) : ℤ :=
  let t := if isRemoteTemp then mtdSiteTemp else cpuToBe32 mtdSiteTemp
  match site with
  | .vspaTemp => u.vspaTemp t + u.tempAdjust
  | .fecaTemp => u.fecaTemp t + u.tempAdjust
  | .pciTemp => u.pciTemp t + u.tempAdjust
  | .diodeTemp => u.diodeTemp t + u.tempAdjust
  | .combinedTemp => t.toInt

/-- The two ways to fetch an event: `IOCTL_GUL_TVD_GET_THERMAL_EVENT` and
`gul_tvd_dev_read`. -/
inductive Path where
  | ioctl
  | read
deriving DecidableEq, Repr

/-- The record in which a pending CTD event is cleared. The read goes through the
array `tvd_priv_d` of the device, which is its first record. -/
def Path.cleared : Path → Modem → Modem
  | .ioctl, i => i
  | .read, _ => .first

section Take

variable (i : Modem)

/-- The CTD part; `k` is the record that is cleared. -/
def takeCtd (k : Modem) (s : Driver) (r : Report) : Driver × Report :=
  if (s.priv i).ctdEventFlag = 1 then
    let s' := s.setPriv k { s.priv k with ctdEventFlag := 0 }
    (s', { r with
      thermalId := some ctdEvent
      ctd := some ((s'.priv i).ctdEventType, (s'.priv i).ctdCurTemp) })
  else (s, r)

/-- The MTD part. -/
def takeMtd (u : Platform) (site : Site) (s : Driver) (r : Report) : Driver × Report :=
  if (s.priv i).mtdEventFlag = 1 then
    let temp := mtdGetSiteTemp u (s.hif i).mtdEventTemp site false
    let type := (s.hif i).mtdTmuEvent
    (s.setPriv i { s.priv i with mtdEventFlag := 0, mtdCurTemp := temp, mtdEventType := type },
      { r with thermalId := some mtdEvent, mtd := some (type, temp) })
  else (s, r)

/-- The RTD part. The values are stored in the record of the modem and put to the
caller from the first. -/
def takeRtd (s : Driver) (r : Report) : Driver × Report :=
  if (s.priv i).rtdEventFlag = 1 then
    let h := s.hif i
    let s' := s.setPriv i
      { s.priv i with rtdEventFlag := 0, rtdCurTemp := h.rtdEventTemp, rtdEventType := h.rtdTmuEvent }
    if (s'.priv i).rtdEventType ≠ 0 then
      (s'.setHif i { h with rtdTmuEvent := 0 },
        { r with thermalId := some rtdEvent, rtd := some ((s'.priv .first).rtdEventType, (s'.priv .first).rtdCurTemp) })
    else (s', r)
  else (s, r)

/-- Both kinds are named. -/
def nameBoth (both : Prop) [Decidable both] (r : Report) : Report :=
  if both then { r with thermalId := some bothCtdMtdEvent } else r

/-- What a call does with the events once it runs again. Both kinds are named before
the first part, and again after the second. -/
def takeEvents (u : Platform) (path : Path) (site : Site) (s : Driver) (r : Report) : Driver × Report :=
  let ctdFlag := (s.priv i).ctdEventFlag = 1
  let c := takeCtd i (path.cleared i) s (nameBoth (ctdFlag ∧ (s.priv i).mtdEventFlag = 1) r)
  let mtdFlag := (c.1.priv i).mtdEventFlag = 1
  let m := takeMtd i u site c.1 c.2
  let left := (m.1.priv i).ctdEventFlag = 1 ∧ (m.1.priv i).mtdEventFlag = 1
  takeRtd i m.1 (nameBoth (left ∨ ctdFlag ∧ mtdFlag) m.2)

/-- `get_thermal_event`, from its waking on. -/
def getThermalEvent (u : Platform) (site : Site) (s : Driver) : Driver × Report := takeEvents i u .ioctl site s (.rc 0)

/-- `gul_tvd_dev_read`, from its waking on; it returns the size of `tvd_count`. -/
def gulTvdDevRead (u : Platform) (site : Site) (s : Driver) : Driver × Report := takeEvents i u .read site s (.rc 8)

end Take

/-! ### Thresholds and hysteresis -/

/-- The values below the count, from the last down. -/
def copyThreshold (t dst : Threshold) : Threshold where
  thresholdCount := t.thresholdCount
  threshold k := if (k : ℤ) < t.thresholdCount then t.threshold k else dst.threshold k

/-- `TVD_MIN_THRESHOLD` to `TVD_MAX_THRESHOLD` thresholds. -/
def countInRange (t : Threshold) : Prop := 1 ≤ t.thresholdCount ∧ t.thresholdCount ≤ 2

instance (t : Threshold) : Decidable (countInRange t) := inferInstanceAs (Decidable (_ ∧ _))

/-- A result with interrupts raised. -/
def Report.rung (n : ℤ) (bells : List Bell) : Report := { Report.rc n with bells := bells }

def mtdUpdateThreshold (t : Threshold) (h : Hif) : Hif × Report :=
  if countInRange t then ({ h with mtdThreshold := copyThreshold t h.mtdThreshold }, .rung 0 [.tmu])
  else (h, .rc (-einval))

/-- `rtd_update_threshold` raises no interrupt. -/
def rtdUpdateThreshold (t : Threshold) (h : Hif) : Hif × Report :=
  if countInRange t then ({ h with rtdThreshold := copyThreshold t h.rtdThreshold }, .rc 0) else (h, .rc (-einval))

/-- `ctd_update_threshold`; `rc` is the result of `ctd_program_threshold`. -/
def ctdUpdateThreshold (t : Threshold) (rc : ℤ) : Report := if countInRange t then .rc rc else .rc (-einval)

/-- `mtd_update_hysteresis`, with values from `TVD_MIN_HYSTERESIS` to `TVD_MAX_HYSTERESIS`. -/
def mtdUpdateHysteresis (val : ℤ) (h : Hif) : Hif × Report :=
  if 1 ≤ val ∧ val ≤ 10 then ({ h with mtdHysteresisVal := val, tvdMtdEvent := .hysteresis }, .rung 0 [.tmu])
  else (h, .rc (-einval))

/-! ### Temperatures -/

/-- The interrupt for answers is requested by the first call that needs it. -/
def requestTempIrq (irqRc : ℤ) (p : Priv) : Except ℤ Priv :=
  if p.irqTemp ≠ 0 then
    if p.irqTempFlag = 0 then
      if irqRc < 0 then .error irqRc else .ok { p with irqTempFlag := 1 }
    else .ok p
  else .error (-einval)

/-- Asks for the temperature, unless it is asked for already. -/
def postMtd (h : Hif) : Hif × List Bell :=
  if h.tvdMtdEvent ≠ .requested then ({ h with tvdMtdEvent := .requested }, [.tmu]) else (h, [])

def postRtd (h : Hif) : Hif × List Bell :=
  if h.tvdRtdEvent ≠ .requested then ({ h with tvdRtdEvent := .requested }, [.rtd]) else (h, [])

def postPower (h : Hif) : Hif × List Bell :=
  if h.tvdMtdPowerEvent ≠ .requested then ({ h with tvdMtdPowerEvent := .requested }, [.mtdPower]) else (h, [])

/-- `IOCTL_GUL_TVD_MTD_GET_TEMP` up to the wait. The error of `mtd_get_temp` is not
passed on. -/
def mtdGetTempAsk (irqRc : ℤ) (p : Priv) (h : Hif) : Priv × Hif × Report :=
  match requestTempIrq irqRc p with
  | .error _ => (p, h, { Report.rc 0 with temp := some 0 })
  | .ok p => (p, (postMtd h).1, .rung 0 (postMtd h).2)

/-- `MTD_TEMP_INVALID` -/
def mtdTempInvalid : ℤ := -70

/-- `INVALID_TEMP_COMB`, as an `int32_t`. -/
def invalidTempComb : ℤ := (0x88888888 : BitVec 32).toInt

/-- The rest of it; no time remains after a time-out. -/
def mtdGetTempAnswer (u : Platform) (site : Site) (timeRemain : ℕ) (p : Priv) (h : Hif) : Priv × Hif × Report :=
  if timeRemain = 0 then
    (p, h, { Report.rc 0 with temp := some (if site = .combinedTemp then invalidTempComb else mtdTempInvalid) })
  else
    let temp := mtdGetSiteTemp u h.mtdCurentTemp site false
    ({ p with getMtdCurTemp := temp }, h, { Report.rc 0 with temp := some temp })

/-- The end of `IOCTL_GUL_TVD_RTD_GET_TEMP`. -/
def putRtdTemp (temp : ℤ) (p : Priv) (h : Hif) : Priv × Hif × Report :=
  ({ p with getRtdCurTemp := temp }, h, { Report.rc 0 with temp := some temp })

/-- `IOCTL_GUL_TVD_RTD_GET_TEMP` up to the wait; an error comes in place of the
temperature. -/
def rtdGetTempAsk (irqRc : ℤ) (p : Priv) (h : Hif) : Priv × Hif × Report :=
  match requestTempIrq irqRc p with
  | .error e => putRtdTemp e p h
  | .ok p => (p, (postRtd h).1, .rung 0 (postRtd h).2)

def rtdGetTempAnswer (timeRemain : ℕ) (p : Priv) (h : Hif) : Priv × Hif × Report :=
  putRtdTemp (if timeRemain = 0 then mtdTempInvalid else h.rtdCurentTemp) p h

/-- `EAGAIN` -/
def eagain : ℤ := 11

/-- `get_ctd_temp`; `first` and `second` are the results and temperatures of the calls
of `ctd_get_temp_v2`. -/
def getCtdTemp (u : Platform) (first second : ℤ × ℤ) : ℤ :=
  if first.1 = -eagain then if second.1 < 0 then u.invalidCtdTemp else second.2
  else if first.1 < 0 then u.invalidCtdTemp else first.2

def ctdGetTemp (u : Platform) (first second : ℤ × ℤ) (p : Priv) (h : Hif) : Priv × Hif × Report :=
  let temp := getCtdTemp u first second
  ({ p with getCtdCurTemp := temp }, h, { Report.rc 0 with temp := some temp })

/-! ### The probe -/

/-- What a probe is given: the interrupts of the modem, and how the kernel calls end. -/
structure Probe where
  msiIndex : ℤ
  irq : ℤ
  msiTempIndex : ℤ
  irqTemp : ℤ
  allocated : Bool
  cdevRc : ℤ
  irqRc : ℤ
deriving DecidableEq, Repr

/-- `DEFAULT_MAX_MTD_THRESHOLD` thresholds. -/
def defaultMtdThreshold : Threshold := ⟨2, fun k => if k = 0 then 60 else 80⟩

/-- The end of a probe that has the interrupt. -/
def applyDefaults (h : Hif) : Hif × Report :=
  let (h, _) := mtdUpdateThreshold defaultMtdThreshold h
  let (h, _) := mtdUpdateHysteresis 2 h
  (h, .rung 0 [.tmu, .tmu])

/-- `tvd_register_irq` of a record whose interrupt is not requested. -/
def tvdRegisterIrq (irqRc : ℤ) (p : Priv) : Except ℤ Priv :=
  if p.irq ≠ 0 then if irqRc < 0 then .error irqRc else .ok { p with irqStatusFlag := 1 } else .error (-einval)

/-- `tvd_probe` on the record and the memory of its modem: whether it has a device
afterwards. -/
def probeOwn (c : Probe) (i : Modem) (p : Priv) (h : Hif) (present : Bool) : Priv × Hif × Bool × Report :=
  let h := { h with
    tvdMtdEvent := .clear
    tvdRtdEvent := .clear
    tvdMtdPowerEvent := .clear
    msiMtdTvd := c.msiIndex
    msiMtdTvdCurentTemp := c.msiTempIndex
    msiRtdTvdCurentTemp := c.msiTempIndex
    msiMtdPowerInfo := c.msiTempIndex }
  let p := { p with
    msiIndex := c.msiIndex
    irq := c.irq
    msiTempIndex := c.msiTempIndex
    irqTemp := c.irqTemp
    irqStatusFlag := 0
    irqTempFlag := 0
    mtdEventFlag := 0
    ctdEventFlag := 0
    mtdPowerEventFlag := 0 }
  if c.allocated then
    let p := { p with tvdId := i }
    if c.cdevRc < 0 then (p, h, false, .rc c.cdevRc)
    else
      match tvdRegisterIrq c.irqRc p with
      | .error e => (p, h, false, .rc e)
      | .ok p =>
        let (h, r) := applyDefaults h
        (p, h, true, r)
  else (p, h, present, .rc (-enomem))

/-- `tvd_probe`, which clears `rtd_event_flag` of the first record. -/
def tvdProbe (c : Probe) (i : Modem) (s : Driver) : Driver × Report :=
  let s := s.setPriv .first { s.priv .first with rtdEventFlag := 0 }
  let (p, h, b, r) := probeOwn c i (s.priv i) (s.hif i) (s.present i)
  (((s.setPriv i p).setHif i h).setPresent i b, r)

/-! ### Operations -/

/-- An operation on the record and the memory of its modem. -/
def own (i : Modem) (f : Priv → Hif → Priv × Hif × Report) (s : Driver) : Driver × Report :=
  let (p, h, r) := f (s.priv i) (s.hif i)
  ((s.setPriv i p).setHif i h, r)

/-- An operation on the memory of its modem. -/
def shared (f : Hif → Hif × Report) (p : Priv) (h : Hif) : Priv × Hif × Report := (p, f h)

/-- The operations on a modem. -/
inductive Op where
  | probe (c : Probe)
  | take (path : Path) (site : Site)
  | mtdAsk (irqRc : ℤ)
  | mtdAnswer (site : Site) (timeRemain : ℕ)
  | rtdAsk (irqRc : ℤ)
  | rtdAnswer (timeRemain : ℕ)
  | ctdTemp (first second : ℤ × ℤ)
  | mtdThreshold (t : Threshold)
  | rtdThreshold (t : Threshold)
  | ctdThreshold (t : Threshold) (rc : ℤ)

def Op.run (u : Platform) (i : Modem) (s : Driver) : Op → Driver × Report
  | .probe c => tvdProbe c i s
  | .take .ioctl site => getThermalEvent i u site s
  | .take .read site => gulTvdDevRead i u site s
  | .mtdAsk irqRc => own i (mtdGetTempAsk irqRc) s
  | .mtdAnswer site timeRemain => own i (mtdGetTempAnswer u site timeRemain) s
  | .rtdAsk irqRc => own i (rtdGetTempAsk irqRc) s
  | .rtdAnswer timeRemain => own i (rtdGetTempAnswer timeRemain) s
  | .ctdTemp first second => own i (ctdGetTemp u first second) s
  | .mtdThreshold t => own i (shared (mtdUpdateThreshold t)) s
  | .rtdThreshold t => own i (shared (rtdUpdateThreshold t)) s
  | .ctdThreshold t rc => (s, ctdUpdateThreshold t rc)

/-! ### Isolation -/

/-- Two states agree on a modem. -/
structure Agree (i : Modem) (s t : Driver) : Prop where
  priv : s.priv i = t.priv i
  hif : s.hif i = t.hif i

/-- A pending flag is taken back. -/
def lower (flag : ℤ) : ℤ := if flag = 1 then 0 else flag

/-- An operation on modem `i` leaves the other modems alone, leaves with others what
depends on its modem only, and if it fetches events takes back those that are pending,
by either way. -/
structure Isolated (u : Platform) (op : Op) (i : Modem) (s : Driver) : Prop where
  others : ∀ j, j ≠ i → (op.run u i s).1.priv j = s.priv j ∧ (op.run u i s).1.hif j = s.hif j ∧
    (op.run u i s).1.present j = s.present j
  report : ∀ t, Agree i s t → (op.run u i s).2 = (op.run u i t).2
  taken : ∀ path site, op = .take path site →
    ((op.run u i s).1.priv i).ctdEventFlag = lower (s.priv i).ctdEventFlag ∧
      ((op.run u i s).1.priv i).mtdEventFlag = lower (s.priv i).mtdEventFlag ∧
      ((op.run u i s).1.priv i).rtdEventFlag = lower (s.priv i).rtdEventFlag

/-- The first record does not come in: the modem is the first, or nothing is pending
that is cleared or reported there. -/
def Apart (i : Modem) (s : Driver) : Op → Prop
  | .probe _ => i = .first ∨ (s.priv .first).rtdEventFlag = 0
  | .take path _ =>
    i = .first ∨ ((s.priv i).rtdEventFlag = 1 → (s.hif i).rtdTmuEvent = 0) ∧ (path = .read → (s.priv i).ctdEventFlag ≠ 1)
  | _ => True

namespace Driver

variable {i j : Modem} (s : Driver) {p : Priv} {h : Hif} {b : Bool}

@[simp] theorem setPriv_self : (s.setPriv i p).priv i = p := Function.update_self ..

@[simp] theorem setHif_self : (s.setHif i h).hif i = h := Function.update_self ..

@[simp] theorem setPriv_hif : (s.setPriv i p).hif = s.hif := rfl

@[simp] theorem setHif_priv : (s.setHif i h).priv = s.priv := rfl

theorem setPriv_of_ne (hne : j ≠ i) : (s.setPriv i p).priv j = s.priv j := Function.update_of_ne hne ..

theorem setHif_of_ne (hne : j ≠ i) : (s.setHif i h).hif j = s.hif j := Function.update_of_ne hne ..

theorem setPresent_of_ne (hne : j ≠ i) : (s.setPresent i b).present j = s.present j := Function.update_of_ne hne ..

end Driver

section Stages

variable {i j k : Modem} {s t : Driver} {r : Report} {u : Platform} {site : Site}

/-- What the CTD part does to a record. -/
theorem takeCtd_priv (j : Modem) : (takeCtd i k s r).1.priv j =
    if (s.priv i).ctdEventFlag = 1 ∧ j = k then { s.priv j with ctdEventFlag := 0 } else s.priv j := by
  unfold takeCtd
  by_cases hf : (s.priv i).ctdEventFlag = 1
  · by_cases hj : j = k
    · subst hj
      simp [hf]
    · simp [hf, hj, Driver.setPriv_of_ne s hj]
  · simp [hf]

@[simp] theorem takeCtd_hif : (takeCtd i k s r).1.hif = s.hif := by
  unfold takeCtd
  split <;> rfl

@[simp] theorem takeCtd_present : (takeCtd i k s r).1.present = s.present := by
  unfold takeCtd
  split <;> rfl

/-- The CTD part reports what the record of the modem holds. -/
theorem takeCtd_report : (takeCtd i k s r).2 =
    if (s.priv i).ctdEventFlag = 1 then
      { r with thermalId := some ctdEvent, ctd := some ((s.priv i).ctdEventType, (s.priv i).ctdCurTemp) }
    else r := by
  unfold takeCtd
  split
  · by_cases hk : i = k
    · subst hk
      simp
    · simp [Driver.setPriv_of_ne s hk]
  · rfl

theorem takeCtd_agree (h : Agree i s t) :
    Agree i (takeCtd i k s r).1 (takeCtd i k t r).1 ∧ (takeCtd i k s r).2 = (takeCtd i k t r).2 := by
  refine ⟨⟨?_, ?_⟩, ?_⟩
  · rw [takeCtd_priv, takeCtd_priv, h.priv]
  · rw [takeCtd_hif, takeCtd_hif, h.hif]
  · rw [takeCtd_report, takeCtd_report, h.priv]

/-- What the MTD part does to the record of the modem. -/
theorem takeMtd_priv_self : (takeMtd i u site s r).1.priv i =
    if (s.priv i).mtdEventFlag = 1 then
      { s.priv i with
        mtdEventFlag := 0
        mtdCurTemp := mtdGetSiteTemp u (s.hif i).mtdEventTemp site false
        mtdEventType := (s.hif i).mtdTmuEvent }
    else s.priv i := by
  unfold takeMtd
  split
  · exact Driver.setPriv_self ..
  · rfl

theorem takeMtd_priv_of_ne (hj : j ≠ i) : (takeMtd i u site s r).1.priv j = s.priv j := by
  unfold takeMtd
  split
  · exact Driver.setPriv_of_ne s hj
  · rfl

@[simp] theorem takeMtd_hif : (takeMtd i u site s r).1.hif = s.hif := by
  unfold takeMtd
  split <;> rfl

@[simp] theorem takeMtd_present : (takeMtd i u site s r).1.present = s.present := by
  unfold takeMtd
  split <;> rfl

theorem takeMtd_agree (site : Site) (h : Agree i s t) :
    Agree i (takeMtd i u site s r).1 (takeMtd i u site t r).1 ∧
      (takeMtd i u site s r).2 = (takeMtd i u site t r).2 := by
  refine ⟨⟨?_, ?_⟩, ?_⟩
  · rw [takeMtd_priv_self, takeMtd_priv_self, h.priv, h.hif]
  · rw [takeMtd_hif, takeMtd_hif, h.hif]
  · simp only [takeMtd, h.priv, h.hif]
    split <;> rfl

/-- An RTD event is pending. -/
def RtdPending (i : Modem) (s : Driver) : Prop := (s.priv i).rtdEventFlag = 1 ∧ (s.hif i).rtdTmuEvent ≠ 0

instance : Decidable (RtdPending i s) := inferInstanceAs (Decidable (_ ∧ _))

/-- What the RTD part does to the record of the modem. -/
theorem takeRtd_priv_self : (takeRtd i s r).1.priv i =
    if (s.priv i).rtdEventFlag = 1 then
      { s.priv i with
        rtdEventFlag := 0
        rtdCurTemp := (s.hif i).rtdEventTemp
        rtdEventType := (s.hif i).rtdTmuEvent }
    else s.priv i := by
  unfold takeRtd
  split
  · simp only
    split
    · exact Driver.setPriv_self ..
    · exact Driver.setPriv_self ..
  · rfl

theorem takeRtd_priv_of_ne (hj : j ≠ i) : (takeRtd i s r).1.priv j = s.priv j := by
  unfold takeRtd
  split
  · simp only
    split
    · exact Driver.setPriv_of_ne s hj
    · exact Driver.setPriv_of_ne s hj
  · rfl

/-- The RTD part clears the event in the memory of the modem once it is reported. -/
theorem takeRtd_hif_self : (takeRtd i s r).1.hif i =
    if RtdPending i s then { s.hif i with rtdTmuEvent := 0 } else s.hif i := by
  unfold takeRtd RtdPending
  by_cases hf : (s.priv i).rtdEventFlag = 1
  · by_cases ht : (s.hif i).rtdTmuEvent = 0
    · simp [hf, ht]
    · simp [hf, ht]
  · simp [hf]

theorem takeRtd_hif_of_ne (hj : j ≠ i) : (takeRtd i s r).1.hif j = s.hif j := by
  unfold takeRtd
  split
  · simp only
    split
    · exact Driver.setHif_of_ne _ hj
    · rfl
  · rfl

@[simp] theorem takeRtd_present : (takeRtd i s r).1.present = s.present := by
  unfold takeRtd
  split
  · simp only
    split <;> rfl
  · rfl

/-- What the RTD part reports. The first record is the one it stores in if the modem is
the first. -/
theorem takeRtd_report : (takeRtd i s r).2 =
    if RtdPending i s then
      { r with
        thermalId := some rtdEvent
        rtd := some (if i = .first then ((s.hif i).rtdTmuEvent, (s.hif i).rtdEventTemp)
          else ((s.priv .first).rtdEventType, (s.priv .first).rtdCurTemp)) }
    else r := by
  unfold takeRtd RtdPending
  by_cases hf : (s.priv i).rtdEventFlag = 1
  · by_cases ht : (s.hif i).rtdTmuEvent = 0
    · simp [hf, ht]
    · by_cases hi : i = .first
      · subst hi
        simp [hf, ht]
      · have h0 : Modem.first ≠ i := fun he => hi he.symm
        simp [hf, ht, hi, Driver.setPriv_of_ne s h0]
  · simp [hf]

theorem rtdPending_agree (h : Agree i s t) : RtdPending i s ↔ RtdPending i t := by
  unfold RtdPending
  rw [h.priv, h.hif]

end Stages

section Take

variable {i j k : Modem} {s t : Driver} {r : Report} {u : Platform} {path : Path} {site : Site}

@[simp] theorem takeCtd_mtdEventFlag : ((takeCtd i k s r).1.priv j).mtdEventFlag = (s.priv j).mtdEventFlag := by
  rw [takeCtd_priv]
  split <;> rfl

@[simp] theorem takeCtd_rtdEventFlag : ((takeCtd i k s r).1.priv j).rtdEventFlag = (s.priv j).rtdEventFlag := by
  rw [takeCtd_priv]
  split <;> rfl

@[simp] theorem takeCtd_rtdEventType : ((takeCtd i k s r).1.priv j).rtdEventType = (s.priv j).rtdEventType := by
  rw [takeCtd_priv]
  split <;> rfl

@[simp] theorem takeCtd_rtdCurTemp : ((takeCtd i k s r).1.priv j).rtdCurTemp = (s.priv j).rtdCurTemp := by
  rw [takeCtd_priv]
  split <;> rfl

theorem takeCtd_ctdEventFlag : ((takeCtd i k s r).1.priv i).ctdEventFlag =
    if i = k then lower (s.priv i).ctdEventFlag else (s.priv i).ctdEventFlag := by
  rw [takeCtd_priv]
  by_cases hk : i = k
  · rw [if_pos hk]
    unfold lower
    split
    · next h => rw [if_pos h.1]
    · next h => rw [if_neg fun hf => h ⟨hf, hk⟩]
  · rw [if_neg hk, if_neg fun h => hk h.2]

@[simp] theorem takeMtd_ctdEventFlag :
    ((takeMtd i u site s r).1.priv i).ctdEventFlag = (s.priv i).ctdEventFlag := by
  rw [takeMtd_priv_self]
  split <;> rfl

@[simp] theorem takeMtd_rtdEventFlag :
    ((takeMtd i u site s r).1.priv i).rtdEventFlag = (s.priv i).rtdEventFlag := by
  rw [takeMtd_priv_self]
  split <;> rfl

theorem takeMtd_mtdEventFlag : ((takeMtd i u site s r).1.priv i).mtdEventFlag = lower (s.priv i).mtdEventFlag := by
  rw [takeMtd_priv_self]
  unfold lower
  split <;> rfl

@[simp] theorem takeRtd_ctdEventFlag : ((takeRtd i s r).1.priv i).ctdEventFlag = (s.priv i).ctdEventFlag := by
  rw [takeRtd_priv_self]
  split <;> rfl

@[simp] theorem takeRtd_mtdEventFlag : ((takeRtd i s r).1.priv i).mtdEventFlag = (s.priv i).mtdEventFlag := by
  rw [takeRtd_priv_self]
  split <;> rfl

theorem takeRtd_rtdEventFlag : ((takeRtd i s r).1.priv i).rtdEventFlag = lower (s.priv i).rtdEventFlag := by
  rw [takeRtd_priv_self]
  unfold lower
  split <;> rfl

/-- The flags after a call. -/
theorem takeEvents_flags : ((takeEvents i u path site s r).1.priv i).ctdEventFlag =
      (if i = path.cleared i then lower (s.priv i).ctdEventFlag else (s.priv i).ctdEventFlag) ∧
    ((takeEvents i u path site s r).1.priv i).mtdEventFlag = lower (s.priv i).mtdEventFlag ∧
    ((takeEvents i u path site s r).1.priv i).rtdEventFlag = lower (s.priv i).rtdEventFlag := by
  unfold takeEvents
  refine ⟨?_, ?_, ?_⟩
  · rw [takeRtd_ctdEventFlag, takeMtd_ctdEventFlag, takeCtd_ctdEventFlag]
  · rw [takeRtd_mtdEventFlag, takeMtd_mtdEventFlag, takeCtd_mtdEventFlag]
  · rw [takeRtd_rtdEventFlag, takeMtd_rtdEventFlag, takeCtd_rtdEventFlag]

/-- The other modems after a call. -/
theorem takeEvents_others (path : Path) (site : Site) (hj : j ≠ i) : (takeEvents i u path site s r).1.priv j =
      (if (s.priv i).ctdEventFlag = 1 ∧ j = path.cleared i then { s.priv j with ctdEventFlag := 0 } else s.priv j) ∧
    (takeEvents i u path site s r).1.hif j = s.hif j := by
  unfold takeEvents
  constructor
  · rw [takeRtd_priv_of_ne hj, takeMtd_priv_of_ne hj, takeCtd_priv]
  · rw [takeRtd_hif_of_ne hj, takeMtd_hif, takeCtd_hif]

theorem takeEvents_present : (takeEvents i u path site s r).1.present = s.present := by
  unfold takeEvents
  rw [takeRtd_present, takeMtd_present, takeCtd_present]

/-- An RTD event that is pending is not reported, or not before the RTD part. -/
theorem takeEvents_rtdPending {r' r'' : Report} :
    RtdPending i (takeMtd i u site (takeCtd i k s r').1 r'').1 ↔ RtdPending i s := by
  unfold RtdPending
  rw [takeMtd_rtdEventFlag, takeCtd_rtdEventFlag, takeMtd_hif, takeCtd_hif]

theorem lower_ne_one (flag : ℤ) : lower flag ≠ 1 := by
  unfold lower
  split
  · decide
  · assumption

theorem nameBoth_thermalId (both : Prop) [Decidable both] :
    (nameBoth both r).thermalId = if both then some bothCtdMtdEvent else r.thermalId := by
  unfold nameBoth
  split <;> rfl

theorem takeCtd_thermalId :
    (takeCtd i k s r).2.thermalId = if (s.priv i).ctdEventFlag = 1 then some ctdEvent else r.thermalId := by
  unfold takeCtd
  split <;> rfl

theorem takeMtd_thermalId :
    (takeMtd i u site s r).2.thermalId = if (s.priv i).mtdEventFlag = 1 then some mtdEvent else r.thermalId := by
  unfold takeMtd
  split <;> rfl

theorem takeRtd_thermalId : (takeRtd i s r).2.thermalId = if RtdPending i s then some rtdEvent else r.thermalId := by
  rw [takeRtd_report]
  split <;> rfl

/-- The id a call reports: an RTD event overwrites what the other parts have put. -/
theorem takeEvents_thermalId : (takeEvents i u path site s r).2.thermalId =
    if RtdPending i s then some rtdEvent
    else if (s.priv i).mtdEventFlag = 1 then
      if (s.priv i).ctdEventFlag = 1 then some bothCtdMtdEvent else some mtdEvent
    else if (s.priv i).ctdEventFlag = 1 then some ctdEvent
    else r.thermalId := by
  unfold takeEvents
  simp only [takeRtd_thermalId, nameBoth_thermalId, takeMtd_thermalId, takeCtd_thermalId, takeEvents_rtdPending,
    takeMtd_mtdEventFlag, takeCtd_mtdEventFlag, lower_ne_one, and_false, false_or]
  split_ifs <;> first | rfl | simp_all

/-- The RTD event that a call has reported is cleared in the memory of the modem. -/
theorem takeEvents_rtdTmuEvent : ((takeEvents i u path site s r).1.hif i).rtdTmuEvent =
    if RtdPending i s then 0 else (s.hif i).rtdTmuEvent := by
  unfold takeEvents
  rw [takeRtd_hif_self, takeMtd_hif, takeCtd_hif]
  simp only [takeEvents_rtdPending]
  split <;> rfl

/-- The report of a call comes from the record and the memory of the modem, unless an
RTD event is pending and the modem is not the first. -/
theorem takeEvents_agree (h : Agree i s t) (hrtd : i = .first ∨ ¬ RtdPending i s) :
    (takeEvents i u path site s r).2 = (takeEvents i u path site t r).2 := by
  unfold takeEvents
  simp only [h.priv]
  obtain ⟨hctd, hctd'⟩ := takeCtd_agree (k := path.cleared i)
    (r := nameBoth ((t.priv i).ctdEventFlag = 1 ∧ (t.priv i).mtdEventFlag = 1) r) h
  rw [hctd']
  obtain ⟨hmtd, hmtd'⟩ := takeMtd_agree (u := u)
    (r := (takeCtd i (path.cleared i) t (nameBoth ((t.priv i).ctdEventFlag = 1 ∧ (t.priv i).mtdEventFlag = 1) r)).2)
    site hctd
  rw [takeRtd_report, takeRtd_report]
  simp only [hmtd', hctd.priv, hmtd.priv, hmtd.hif, rtdPending_agree hmtd, takeEvents_rtdPending]
  rcases hrtd with hi | hnone
  · simp only [if_pos hi]
  · simp only [if_neg fun hp => hnone ((rtdPending_agree h).mpr hp)]

/-- Away from the first modem an RTD event is reported from the first record. -/
theorem takeEvents_rtd (hi : i ≠ .first) (hrtd : RtdPending i s) :
    (takeEvents i u path site s r).2.rtd = some ((s.priv .first).rtdEventType, (s.priv .first).rtdCurTemp) := by
  have h0 : Modem.first ≠ i := fun he => hi he.symm
  unfold takeEvents
  rw [takeRtd_report, if_pos (takeEvents_rtdPending.mpr hrtd), if_neg hi, takeMtd_priv_of_ne h0]
  simp only [takeCtd_rtdEventType, takeCtd_rtdCurTemp]

end Take

section Isolation

variable {i : Modem} {s : Driver} {u : Platform}

/-- What works on the record and the memory of its modem is isolated. -/
theorem own_others (f : Priv → Hif → Priv × Hif × Report) {j : Modem} (hj : j ≠ i) : (own i f s).1.priv j = s.priv j ∧
    (own i f s).1.hif j = s.hif j ∧ (own i f s).1.present j = s.present j :=
  ⟨Driver.setPriv_of_ne s hj, Driver.setHif_of_ne _ hj, rfl⟩

theorem own_report (f : Priv → Hif → Priv × Hif × Report) {t : Driver} (h : Agree i s t) :
    (own i f s).2 = (own i f t).2 := by
  unfold own
  rw [h.priv, h.hif]

/-- A read returns the size of `tvd_count`. -/
theorem run_take (i : Modem) (u : Platform) (path : Path) (site : Site) :
    ∃ n, ∀ t : Driver, Op.run u i t (.take path site) = takeEvents i u path site t (.rc n) := by
  cases path with
  | ioctl => exact ⟨0, fun _ => rfl⟩
  | read => exact ⟨8, fun _ => rfl⟩

/-- With another temperature in the first record the report would be another. -/
theorem not_rtdPending_of_report {path : Path} {site : Site} (hi : i ≠ .first)
    (hreport : ∀ t, Agree i s t → (Op.run u i s (.take path site)).2 = (Op.run u i t (.take path site)).2) :
    ¬ RtdPending i s := by
  intro hpending
  obtain ⟨n, hrun⟩ := run_take i u path site
  let t := s.setPriv .first { s.priv .first with rtdCurTemp := (s.priv .first).rtdCurTemp + 1 }
  have hagree : Agree i s t := ⟨(Driver.setPriv_of_ne s hi).symm, rfl⟩
  have hsame := hreport t hagree
  rw [hrun, hrun] at hsame
  have hrtd := congrArg Report.rtd hsame
  rw [takeEvents_rtd hi hpending, takeEvents_rtd hi ((rtdPending_agree hagree).mp hpending)] at hrtd
  simp [t] at hrtd

/-- Apart, a pending CTD event is cleared in the record it is in. -/
theorem Apart.cleared_eq {path : Path} {site : Site} (h : Apart i s (.take path site))
    (hctd : (s.priv i).ctdEventFlag = 1) : path.cleared i = i := by
  cases path with
  | ioctl => rfl
  | read =>
    rcases h with hi | ⟨-, hread⟩
    · exact hi.symm
    · exact absurd hctd (hread rfl)

/-- Fetching an event is isolated exactly if nothing of the first record comes in. -/
theorem take_isolated_iff (path : Path) (site : Site) :
    Isolated u (.take path site) i s ↔ Apart i s (.take path site) := by
  obtain ⟨n, hrun⟩ := run_take i u path site
  constructor
  · intro h
    by_cases hi : i = .first
    · exact .inl hi
    have hne : i ≠ .first := hi
    refine .inr ⟨fun hflag => ?_, ?_⟩
    · by_contra htmu
      exact not_rtdPending_of_report hne h.report ⟨hflag, htmu⟩
    · rintro rfl hctd
      have htaken := (h.taken .read site rfl).1
      rw [hrun, takeEvents_flags.1, if_neg (by exact hne), hctd] at htaken
      exact absurd htaken (by decide)
  · intro h
    refine ⟨fun j hj => ?_, fun t ht => ?_, ?_⟩
    · rw [hrun]
      refine ⟨?_, (takeEvents_others path site hj).2, congrFun takeEvents_present j⟩
      rw [(takeEvents_others path site hj).1, if_neg]
      rintro ⟨hctd, hcleared⟩
      exact hj (hcleared.trans (h.cleared_eq hctd))
    · rw [hrun, hrun]
      refine takeEvents_agree ht ?_
      rcases h with hi | ⟨hrtd, -⟩
      · exact .inl hi
      · exact .inr fun hp => hp.2 (hrtd hp.1)
    · rintro path' site' heq
      obtain ⟨rfl, rfl⟩ := Op.take.inj heq
      rw [hrun]
      refine ⟨?_, takeEvents_flags.2⟩
      rw [takeEvents_flags.1]
      split
      · rfl
      · next hne => exact (if_neg fun hctd => hne (h.cleared_eq hctd).symm).symm

/-- A probe reports the same whether the modem had a device or not. -/
theorem probeOwn_report (c : Probe) (i : Modem) (p : Priv) (h : Hif) (b b' : Bool) :
    (probeOwn c i p h b).2.2.2 = (probeOwn c i p h b').2.2.2 := by
  unfold probeOwn
  simp only
  split
  · split
    · rfl
    · cases tvdRegisterIrq c.irqRc _ <;> rfl
  · rfl

/-- A probe is isolated exactly if its modem is the first or the flag it clears is
clear. -/
theorem probe_isolated_iff (c : Probe) : Isolated u (.probe c) i s ↔ Apart i s (.probe c) := by
  constructor
  · intro h
    by_cases hi : i = .first
    · exact .inl hi
    have h0 : Modem.first ≠ i := fun he => hi he.symm
    right
    have hfirst : ({ s.priv .first with rtdEventFlag := 0 } : Priv) = s.priv .first := by
      refine Eq.trans ?_ (h.others .first h0).1
      show _ = (Driver.setPriv _ i _).priv .first
      rw [Driver.setPriv_of_ne _ h0, Driver.setPriv_self]
    exact (congrArg Priv.rtdEventFlag hfirst).symm
  · intro h
    refine ⟨fun j hj => ⟨?_, Driver.setHif_of_ne _ hj, Driver.setPresent_of_ne _ hj⟩, fun t ht => ?_,
      fun _ _ heq => by cases heq⟩
    · show (Driver.setPriv _ i _).priv j = s.priv j
      rw [Driver.setPriv_of_ne _ hj]
      by_cases hj0 : j = .first
      · subst hj0
        rcases h with hi | hclear
        · exact absurd hi.symm hj
        · rw [Driver.setPriv_self, ← hclear]
      · exact Driver.setPriv_of_ne s hj0
    · have hpriv : (s.setPriv .first { s.priv .first with rtdEventFlag := 0 }).priv i =
          (t.setPriv .first { t.priv .first with rtdEventFlag := 0 }).priv i := by
        by_cases hi : i = .first
        · subst hi
          rw [Driver.setPriv_self, Driver.setPriv_self, ht.priv]
        · rw [Driver.setPriv_of_ne s hi, Driver.setPriv_of_ne t hi, ht.priv]
      show (probeOwn c i ((s.setPriv .first _).priv i) (s.hif i) (s.present i)).2.2.2 =
        (probeOwn c i ((t.setPriv .first _).priv i) (t.hif i) (t.present i)).2.2.2
      rw [hpriv, ht.hif]
      exact probeOwn_report c i _ _ _ _

/-- **An operation is isolated exactly if it does not meet the first record of another
modem.** -/
theorem isolated_iff (u : Platform) (op : Op) (i : Modem) (s : Driver) : Isolated u op i s ↔ Apart i s op := by
  cases op with
  | probe c => exact probe_isolated_iff c
  | take path site => exact take_isolated_iff path site
  | ctdThreshold t rc =>
    exact iff_of_true ⟨fun j _ => ⟨rfl, rfl, rfl⟩, fun _ _ => rfl, fun _ _ h => by cases h⟩ trivial
  | mtdAsk irqRc | mtdAnswer site timeRemain | rtdAsk irqRc | rtdAnswer timeRemain | ctdTemp first second
  | mtdThreshold t | rtdThreshold t =>
    exact iff_of_true ⟨fun j hj => own_others _ hj, fun t ht => own_report _ ht, fun _ _ h => by cases h⟩ trivial

end Isolation

/-- A cleared record. -/
def Priv.zero : Priv := ⟨0, 0, 0, 0, 0, 0, 0, 0, 0, 0, 0, 0, 0, 0, 0, 0, 0, 0, 0, 0⟩

/-- A cleared memory. -/
def Hif.zero : Hif :=
  ⟨0, 0, 0, 0, .clear, .clear, .clear, 0, 0, ⟨0, fun _ => 0⟩, ⟨0, fun _ => 0⟩, 0, 0, 0, 0, 0⟩

/-- Every modem has a device, and nothing has happened. -/
def quiet : Driver := ⟨fun _ => .zero, fun _ => .zero, fun _ => true⟩

/-- A platform on which the word of a temperature holds a byte for each site. -/
def bytes : Platform :=
  ⟨fun t => (t.extractLsb' 0 8).toInt, fun t => (t.extractLsb' 8 8).toInt, fun t => (t.extractLsb' 16 8).toInt,
    fun t => (t.extractLsb' 24 8).toInt, 50, 0xffff⟩

/-- The ioctl fetches a CTD event of the second modem. -/
theorem isolated_ioctl : Isolated bytes (.take .ioctl .vspaTemp) .second (ctdCbk 1 70 quiet) :=
  (isolated_iff bytes (.take .ioctl .vspaTemp) .second (ctdCbk 1 70 quiet)).mpr
    (.inr ⟨fun h => absurd h (by decide), fun h => by cases h⟩)

/-- The read leaves a CTD event of the second modem pending. -/
theorem read_not_taken :
    ¬ ∀ (u : Platform) (op : Op) (i : Modem) (s : Driver), Isolated u op i s := by
  intro hall
  have htaken := ((hall bytes (.take .read .vspaTemp) .second (ctdCbk 1 70 quiet)).taken _ _ rfl).1
  exact absurd htaken (by decide +kernel)

end Tvd
end La12xx
