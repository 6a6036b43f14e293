/-
# The ioctls of the thermal device

`gul_tvd_dev_ioctl` with all of its commands. Each copies the user's structure and
takes an index from it, some from the copy and some by reading the user's memory
again, which may have changed; only registering checks it. What lies behind an
index outside the arrays is arbitrary: a record for `tvd_priv_d`, and for
`gul_dev` the memory its `hif` leads to, if it leads anywhere.

The work on a record is that of `Tvd/Driver` and `Notify/Registration`. A call that
waits is one step here; what the modem does meanwhile is `answer`, unless the time
runs out.
-/
import La12xx.Chardev.Arrays
import La12xx.Tvd.Driver

namespace La12xx
namespace Chardev

open Access

/-! ### Data -/

/-- The commands of the thermal device. -/
inductive TvdCmd where
  | registerEvefd
  | deregisterEvefd
  | getThermalEvent
  | programMtdThreshold
  | programCtdThreshold
  | programRtdThreshold
  | mtdGetTemp
  | mtdGetPowerInfo
  | ctdGetTemp
  | rtdGetTemp
  | programMtdHysteresis
  | programCtdHysteresis
  | other
deriving DecidableEq, Repr

/-- The user's structure: how much of it cannot be copied, the index in the copy and the
index at each later read, and the other members. -/
structure TvdCall where
  notCopied : ℕ
  copy : BitVec 32
  tvdid : ℕ → BitVec 32
  mtdSite : Tvd.Site
  tvdEventfd : ℤ
  file : Notify.File
  mtdThreshold : Tvd.Threshold
  ctdThreshold : Tvd.Threshold
  rtdThreshold : Tvd.Threshold
  mtdHysteresisVal : ℤ
  ctdHysteresisVal : ℤ

/-- What others do during a call. -/
structure TvdEnv where
  platform : Tvd.Platform
  irqRc : ℤ
  timeRemain : ℕ
  answer : Tvd.Hif → Tvd.Hif
  /-- the calls of `ctd_get_temp_v2` -/
  ctdFirst : ℤ × ℤ
  ctdSecond : ℤ × ℤ
  /-- `ctd_program_threshold` and `ctd_program_hysteresis` -/
  ctdRc : ℤ

/-- The memory of the device by index, inside the arrays and out: the records, what
registering keeps in them, and the shared memories. -/
structure TvdMem where
  priv : ℤ → Tvd.Priv
  evt : ℤ → Notify.Priv
  hif : ℤ → Option Tvd.Hif

/-! ### Work on one modem -/

section Work

variable (e : TvdEnv) (c : TvdCall) (i : ℤ)

/-- Registering and its like work on the record alone. -/
def onEvt (f : Notify.Priv → Notify.Priv × Notify.Ret) (s : TvdMem) : Outcome Arr Tvd.Report TvdMem :=
  ⟨[(.tvdPriv, i)], retOf (f (s.evt i)).2, none, { s with evt := Function.update s.evt i (f (s.evt i)).1 }⟩

/-- Thresholds and hysteresis go to the memory behind `gul_dev`. -/
def onHif (f : Tvd.Hif → Tvd.Hif × Tvd.Report) (s : TvdMem) : Outcome Arr Tvd.Report TvdMem :=
  match s.hif i with
  | none => ⟨[(.gulDev, i)], none, none, s⟩
  | some h =>
    ⟨[(.gulDev, i)], some (f h).2.ret, some (f h).2, { s with hif := Function.update s.hif i (some (f h).1) }⟩

/-- Other calls work on both. -/
def onModem (f : Tvd.Priv → Tvd.Hif → Tvd.Priv × Tvd.Hif × Tvd.Report) (s : TvdMem) : Outcome Arr Tvd.Report TvdMem :=
  match s.hif i with
  | none => ⟨[(.tvdPriv, i), (.gulDev, i)], none, none, s⟩
  | some h =>
    let r := f (s.priv i) h
    ⟨[(.tvdPriv, i), (.gulDev, i)], some r.2.2.ret, some r.2.2,
      { s with priv := Function.update s.priv i r.1, hif := Function.update s.hif i (some r.2.1) }⟩

/-- The shared memory once a call runs again. -/
def TvdEnv.after (h : Tvd.Hif) : Tvd.Hif := if e.timeRemain = 0 then h else e.answer h

/-- The modem at the index among those of the driver: the first, or another one. -/
def slot : Tvd.Modem := if i = 0 then .first else .second

/-- `get_thermal_event` on the record at `i`, which also reports from the first record. -/
def getThermalEvent (first p : Tvd.Priv) (h : Tvd.Hif) : Tvd.Priv × Tvd.Hif × Tvd.Report :=
  let d : Tvd.Driver := ⟨Function.update (fun _ => first) (slot i) p, fun _ => e.answer h, fun _ => true⟩
  let r := Tvd.getThermalEvent (slot i) e.platform c.mtdSite d
  (r.1.priv (slot i), r.1.hif (slot i), r.2)

/-- `mtd_get_temp`, whose error is not passed on. -/
def mtdGetTemp (p : Tvd.Priv) (h : Tvd.Hif) : Tvd.Priv × Tvd.Hif × Tvd.Report :=
  let (p, h, asked) := Tvd.mtdGetTempAsk e.irqRc p h
  if asked.temp.isSome then (p, h, asked)
  else
    let (p, h, r) := Tvd.mtdGetTempAnswer e.platform c.mtdSite e.timeRemain p (e.after h)
    (p, h, { r with bells := asked.bells })

/-- `mtd_get_power_info`; the values it puts to the user are left out. -/
def mtdGetPowerInfo (p : Tvd.Priv) (h : Tvd.Hif) : Tvd.Priv × Tvd.Hif × Tvd.Report :=
  match Tvd.requestTempIrq e.irqRc p with
  | .error rc => (p, h, .rc rc)
  | .ok p =>
    let (h, bells) := Tvd.postPower h
    (p, e.after h, .rung (if e.timeRemain = 0 then -Tvd.einval else 0) bells)

/-- `rtd_get_temp`, which returns a temperature or an error. -/
def rtdGetTemp (p : Tvd.Priv) (h : Tvd.Hif) : Tvd.Priv × Tvd.Hif × Tvd.Report :=
  match Tvd.requestTempIrq e.irqRc p with
  | .error rc => (p, h, .rc rc)
  | .ok p =>
    let (h, bells) := Tvd.postRtd h
    let h := e.after h
    if e.timeRemain = 0 then (p, h, .rung Tvd.mtdTempInvalid bells)
    else ({ p with getRtdCurTemp := h.rtdCurentTemp }, h, .rung h.rtdCurentTemp bells)

/-- `ctd_update_hysteresis` -/
def ctdUpdateHysteresis : ℤ := if 1 ≤ c.ctdHysteresisVal ∧ c.ctdHysteresisVal ≤ 10 then e.ctdRc else -Tvd.einval

end Work

/-! ### The commands -/

section Commands

variable (e : TvdEnv) (c : TvdCall)

/-- The request of a register command. -/
def TvdCall.request : Notify.Request := ⟨c.notCopied = 0, c.copy.toNat, c.tvdEventfd, c.file, e.irqRc⟩

/-- `IOCTL_GUL_TVD_REGISTER_EVEFD` -/
def registerEvefd (s : TvdMem) : Outcome Arr Tvd.Report TvdMem :=
  if c.notCopied ≠ 0 ∨ Notify.maxModem ≤ c.copy.toNat then .done (-Notify.efault) s
  else onEvt (idx c.copy) (Notify.tvdRegister (c.request e)) s

/-- `IOCTL_GUL_TVD_CTD_GET_TEMP`: the index is read for the store and again for the load. -/
def ctdGetTemp (s : TvdMem) : Outcome Arr Tvd.Report TvdMem :=
  let i := idx (c.tvdid 0)
  let k := idx (c.tvdid 1)
  let temp := Tvd.getCtdTemp e.platform e.ctdFirst e.ctdSecond
  let s := { s with priv := Function.update s.priv i { s.priv i with getCtdCurTemp := temp } }
  ⟨[(.tvdPriv, i), (.tvdPriv, k)], some 0, some { Tvd.Report.rc 0 with temp := some (s.priv k).getCtdCurTemp }, s⟩

/-- `IOCTL_GUL_TVD_RTD_GET_TEMP`: whether the structure was copied is not asked, and the index
is read for `rtd_get_temp`, for the store and for the load. -/
def rtdGetTempCmd (s : TvdMem) : Outcome Arr Tvd.Report TvdMem :=
  let o := onModem (idx (c.tvdid 0)) (rtdGetTemp e) s
  match o.ret with
  | none => o
  | some temp =>
    let i := idx (c.tvdid 1)
    let k := idx (c.tvdid 2)
    let s := { o.state with priv := Function.update o.state.priv i { o.state.priv i with getRtdCurTemp := temp } }
    ⟨o.accesses ++ [(.tvdPriv, i), (.tvdPriv, k)], some c.notCopied,
      o.out.map fun r => { r with ret := c.notCopied, temp := some (s.priv k).getRtdCurTemp }, s⟩

/-- `gul_tvd_dev_ioctl` -/
def gulTvdDevIoctl (s : TvdMem) : TvdCmd → Outcome Arr Tvd.Report TvdMem
  | .registerEvefd => registerEvefd e c s
  | .deregisterEvefd => copied c.notCopied s (onEvt (idx c.copy) Notify.tvdDeregister s)
  -- `int tvd_id`
  | .getThermalEvent =>
    copied c.notCopied s (onModem (c.tvdid 0).toInt (getThermalEvent e c (c.tvdid 0).toInt (s.priv 0)) s)
  | .programMtdThreshold => copied c.notCopied s (onHif (idx (c.tvdid 0)) (Tvd.mtdUpdateThreshold c.mtdThreshold) s)
  | .programCtdThreshold => copied c.notCopied s (.done (Tvd.ctdUpdateThreshold c.ctdThreshold e.ctdRc).ret s)
  -- here `tvd_ptr` is still the copy
  | .programRtdThreshold => copied c.notCopied s (onHif (idx c.copy) (Tvd.rtdUpdateThreshold c.rtdThreshold) s)
  | .mtdGetTemp => copied c.notCopied s (onModem (idx (c.tvdid 0)) (mtdGetTemp e c) s)
  | .mtdGetPowerInfo => copied c.notCopied s (onModem (idx (c.tvdid 0)) (mtdGetPowerInfo e) s)
  | .ctdGetTemp => copied c.notCopied s (ctdGetTemp e c s)
  | .rtdGetTemp => rtdGetTempCmd e c s
  | .programMtdHysteresis =>
    copied c.notCopied s (onHif (idx (c.tvdid 0)) (Tvd.mtdUpdateHysteresis c.mtdHysteresisVal) s)
  | .programCtdHysteresis => copied c.notCopied s (.done (ctdUpdateHysteresis e c) s)
  | .other => .done (-enotty) s

/-- `mtd_get_power_info` fails before it has changed anything: there is no interrupt or it cannot
be requested; or it was requested, and so was the answer, which does not come. -/
def PowerRefuses (p : Tvd.Priv) (h : Tvd.Hif) : Prop :=
  p.irqTemp = 0 ∨ (p.irqTempFlag = 0 ∧ e.irqRc < 0) ∨
    (p.irqTempFlag ≠ 0 ∧ h.tvdMtdPowerEvent = .requested ∧ e.timeRemain = 0)

/-- When a command of the thermal device checks its index, or has no need to: the index is in
range, or the values that go with it are refused. -/
def TvdChecked (s : TvdMem) : TvdCmd → Prop
  | .registerEvefd | .programCtdThreshold | .programCtdHysteresis | .other => True
  | .deregisterEvefd => c.notCopied = 0 → c.copy.toNat < Notify.maxModem
  | .getThermalEvent | .mtdGetTemp => c.notCopied = 0 → (c.tvdid 0).toNat < Notify.maxModem
  | .programMtdThreshold => c.notCopied = 0 →
    (c.tvdid 0).toNat < Notify.maxModem ∨ (s.hif (idx (c.tvdid 0))).isSome ∧ ¬ Tvd.countInRange c.mtdThreshold
  | .programRtdThreshold => c.notCopied = 0 →
    c.copy.toNat < Notify.maxModem ∨ (s.hif (idx c.copy)).isSome ∧ ¬ Tvd.countInRange c.rtdThreshold
  | .programMtdHysteresis => c.notCopied = 0 →
    (c.tvdid 0).toNat < Notify.maxModem ∨
      (s.hif (idx (c.tvdid 0))).isSome ∧ ¬ (1 ≤ c.mtdHysteresisVal ∧ c.mtdHysteresisVal ≤ 10)
  | .mtdGetPowerInfo => c.notCopied = 0 →
    (c.tvdid 0).toNat < Notify.maxModem ∨
      ∃ h ∈ s.hif (idx (c.tvdid 0)), PowerRefuses e (s.priv (idx (c.tvdid 0))) h
  | .ctdGetTemp => c.notCopied = 0 → (c.tvdid 0).toNat < Notify.maxModem ∧ (c.tvdid 1).toNat < Notify.maxModem
  | .rtdGetTemp => (c.tvdid 0).toNat < Notify.maxModem ∧
    ((s.hif (idx (c.tvdid 0))).isSome → (c.tvdid 1).toNat < Notify.maxModem ∧ (c.tvdid 2).toNat < Notify.maxModem)

end Commands

/-! ### What is right -/

section Work

variable {coreMax : ℕ} {i : ℤ} {s : TvdMem}

theorem inRange_tvdPriv : InRange (Arr.size coreMax) (.tvdPriv, i) ↔ 0 ≤ i ∧ i < Notify.maxModem := Iff.rfl

theorem inRange_gulDev : InRange (Arr.size coreMax) (.gulDev, i) ↔ 0 ≤ i ∧ i < Notify.maxModem := Iff.rfl

theorem setHif_eq_iff {h h' : Tvd.Hif} (hs : s.hif i = some h) :
    ({ s with hif := Function.update s.hif i (some h') } : TvdMem) = s ↔ h' = h := by
  obtain ⟨priv, evt, hif⟩ := s
  change hif i = some h at hs
  simp only [TvdMem.mk.injEq, true_and, Function.update_eq_self_iff]
  rw [hs, Option.some.injEq]

theorem setModem_eq_iff {p : Tvd.Priv} {h h' : Tvd.Hif} (hs : s.hif i = some h) :
    ({ s with priv := Function.update s.priv i p, hif := Function.update s.hif i (some h') } : TvdMem) = s ↔
      p = s.priv i ∧ h' = h := by
  obtain ⟨priv, evt, hif⟩ := s
  change hif i = some h at hs
  simp only [TvdMem.mk.injEq, true_and, Function.update_eq_self_iff]
  rw [hs, Option.some.injEq]

/-- Registering and its like return no error. -/
theorem validated_onEvt {f : Notify.Priv → Notify.Priv × Notify.Ret} (hf : ∀ p n, (f p).2 = .rc n → 0 ≤ n) :
    Validated (Arr.size coreMax) Eq s (onEvt i f s) ↔ 0 ≤ i ∧ i < Notify.maxModem := by
  rw [validated_iff_contained]
  · simp [onEvt, inRange_tvdPriv]
  · intro n hn
    cases hr : (f (s.evt i)).2 with
    | rc m =>
      simp only [onEvt, hr, retOf, Option.some.injEq] at hn
      exact hn ▸ hf _ m hr
    | oops => simp [onEvt, hr, retOf] at hn

theorem validated_onHif {f : Tvd.Hif → Tvd.Hif × Tvd.Report} :
    Validated (Arr.size coreMax) Eq s (onHif i f s) ↔
      (0 ≤ i ∧ i < Notify.maxModem) ∨ ∃ h ∈ s.hif i, (f h).2.ret < 0 ∧ (f h).1 = h := by
  refine validated_iff_of_index ?_ fun _ => ?_
  · unfold onHif
    split <;> simp [inRange_gulDev]
  · unfold onHif
    cases hs : s.hif i with
    | none => simp [Outcome.Refused]
    | some h => simp [Outcome.Refused, eq_comm (a := s), setHif_eq_iff hs]

theorem validated_onModem {f : Tvd.Priv → Tvd.Hif → Tvd.Priv × Tvd.Hif × Tvd.Report} :
    Validated (Arr.size coreMax) Eq s (onModem i f s) ↔
      (0 ≤ i ∧ i < Notify.maxModem) ∨
        ∃ h ∈ s.hif i, (f (s.priv i) h).2.2.ret < 0 ∧ (f (s.priv i) h).1 = s.priv i ∧ (f (s.priv i) h).2.1 = h := by
  refine validated_iff_of_index ?_ fun _ => ?_
  · unfold onModem
    split <;> simp [inRange_tvdPriv, inRange_gulDev]
  · unfold onModem
    cases hs : s.hif i with
    | none => simp [Outcome.Refused]
    | some h => simp [Outcome.Refused, eq_comm (a := s), setModem_eq_iff hs]

/-- A call that returns 0 is right only on a modem. -/
theorem validated_onModem_zero {f : Tvd.Priv → Tvd.Hif → Tvd.Priv × Tvd.Hif × Tvd.Report}
    (hf : ∀ p h, (f p h).2.2.ret = 0) :
    Validated (Arr.size coreMax) Eq s (onModem i f s) ↔ 0 ≤ i ∧ i < Notify.maxModem := by
  rw [validated_onModem]
  simp [hf]

end Work

section Commands

variable {coreMax : ℕ} {e : TvdEnv} {c : TvdCall} {s : TvdMem}

theorem tvdDeregister_nonneg (p : Notify.Priv) (n : ℤ) (h : (Notify.tvdDeregister p).2 = .rc n) : 0 ≤ n := by
  rw [Notify.tvdDeregister, Notify.evefdDeregister] at h
  cases hput : Notify.putEventfd p with
  | none => simp [hput, Notify.finish] at h
  | some p' =>
    simp only [hput, Notify.finish, Notify.Ret.rc.injEq] at h
    exact h.le

theorem tvdRegister_nonneg (r : Notify.Request) (p : Notify.Priv) (n : ℤ) (h : (Notify.tvdRegister r p).2 = .rc n) :
    0 ≤ n := by
  rw [Notify.tvdRegister, Notify.evefdRegister] at h
  cases htake : Notify.takeEventfd r { p with evtFdCtxt := .null } with
  | none => simp [htake, Notify.finish] at h
  | some p' =>
    simp only [htake, Notify.finish, Notify.Ret.rc.injEq] at h
    exact h.le

/-- The index to register is checked with the copy. -/
theorem validated_registerEvefd : Validated (Arr.size coreMax) Eq s (registerEvefd e c s) := by
  unfold registerEvefd
  split
  case isTrue => exact validated_done _
  case isFalse h =>
    rw [not_or, not_le] at h
    exact (validated_onEvt (tvdRegister_nonneg _)).mpr (idx_range_iff.mpr h.2)

theorem neg_einval_lt : -Tvd.einval < 0 := by decide

/-- An update that is made if its values are in range, and else refused. -/
theorem refuses_ite_iff {P : Prop} [Decidable P] {h h' : Tvd.Hif} {r : Tvd.Report} (hr : r.ret = 0) :
    ((if P then (h', r) else (h, .rc (-Tvd.einval))).2.ret < 0 ∧
      (if P then (h', r) else (h, .rc (-Tvd.einval))).1 = h) ↔ ¬ P := by
  by_cases hP : P
  · rw [if_pos hP]
    exact iff_of_false (fun hlt => hlt.1.ne hr) (not_not.mpr hP)
  · rw [if_neg hP]
    exact iff_of_true ⟨neg_einval_lt, rfl⟩ hP

theorem mtdUpdateThreshold_refuses {t : Tvd.Threshold} (h : Tvd.Hif) :
    (Tvd.mtdUpdateThreshold t h).2.ret < 0 ∧ (Tvd.mtdUpdateThreshold t h).1 = h ↔ ¬ Tvd.countInRange t :=
  refuses_ite_iff rfl

theorem rtdUpdateThreshold_refuses {t : Tvd.Threshold} (h : Tvd.Hif) :
    (Tvd.rtdUpdateThreshold t h).2.ret < 0 ∧ (Tvd.rtdUpdateThreshold t h).1 = h ↔ ¬ Tvd.countInRange t :=
  refuses_ite_iff rfl

theorem mtdUpdateHysteresis_refuses {val : ℤ} (h : Tvd.Hif) :
    (Tvd.mtdUpdateHysteresis val h).2.ret < 0 ∧ (Tvd.mtdUpdateHysteresis val h).1 = h ↔ ¬ (1 ≤ val ∧ val ≤ 10) :=
  refuses_ite_iff rfl

/-- A call on the shared memory that is refused for its values, whatever the memory. -/
theorem exists_refuses_iff {i : ℤ} {f : Tvd.Hif → Tvd.Hif × Tvd.Report} {P : Prop}
    (hf : ∀ h, (f h).2.ret < 0 ∧ (f h).1 = h ↔ ¬ P) :
    (∃ h ∈ s.hif i, (f h).2.ret < 0 ∧ (f h).1 = h) ↔ (s.hif i).isSome ∧ ¬ P := by
  simp only [hf]
  cases s.hif i with
  | none => simp
  | some h => simp

/-- The request of an interrupt that is there and requested changes nothing. -/
theorem requestTempIrq_cases (irqRc : ℤ) (p : Tvd.Priv) :
    (Tvd.requestTempIrq irqRc p = .error (-Tvd.einval) ∧ p.irqTemp = 0) ∨
      (Tvd.requestTempIrq irqRc p = .error irqRc ∧ p.irqTemp ≠ 0 ∧ p.irqTempFlag = 0 ∧ irqRc < 0) ∨
      (Tvd.requestTempIrq irqRc p = .ok { p with irqTempFlag := 1 } ∧ p.irqTemp ≠ 0 ∧ p.irqTempFlag = 0 ∧ 0 ≤ irqRc) ∨
      (Tvd.requestTempIrq irqRc p = .ok p ∧ p.irqTemp ≠ 0 ∧ p.irqTempFlag ≠ 0) := by
  unfold Tvd.requestTempIrq
  by_cases hirq : p.irqTemp = 0
  · exact .inl ⟨by simp [hirq], hirq⟩
  by_cases hflag : p.irqTempFlag = 0
  · by_cases hrc : irqRc < 0
    · exact .inr (.inl ⟨by simp [hirq, hflag, hrc], hirq, hflag, hrc⟩)
    · exact .inr (.inr (.inl ⟨by simp [hirq, hflag, hrc], hirq, hflag, not_lt.mp hrc⟩))
  · exact .inr (.inr (.inr ⟨by simp [hirq, hflag], hirq, hflag⟩))

theorem postPower_eq_iff {h : Tvd.Hif} : (Tvd.postPower h).1 = h ↔ h.tvdMtdPowerEvent = .requested := by
  unfold Tvd.postPower
  split
  case isTrue hne => exact iff_of_false (fun he => hne (congrArg Tvd.Hif.tvdMtdPowerEvent he).symm) hne
  case isFalse heq => exact iff_of_true rfl (not_not.mp heq)

theorem mtdGetPowerInfo_refuses {p : Tvd.Priv} {h : Tvd.Hif} :
    ((mtdGetPowerInfo e p h).2.2.ret < 0 ∧ (mtdGetPowerInfo e p h).1 = p ∧ (mtdGetPowerInfo e p h).2.1 = h) ↔
      PowerRefuses e p h := by
  unfold mtdGetPowerInfo PowerRefuses
  obtain ⟨hreq, hirq⟩ | ⟨hreq, hirq, hflag, hrc⟩ | ⟨hreq, hirq, hflag, hrc⟩ | ⟨hreq, hirq, hflag⟩ :=
    requestTempIrq_cases e.irqRc p
  · rw [hreq]
    exact iff_of_true ⟨neg_einval_lt, rfl, rfl⟩ (.inl hirq)
  · rw [hreq]
    exact iff_of_true ⟨hrc, rfl, rfl⟩ (.inr (.inl ⟨hflag, hrc⟩))
  · -- the interrupt is requested, which the flag records
    rw [hreq]
    refine iff_of_false (fun hr => ?_) ?_
    · have hset := congrArg Tvd.Priv.irqTempFlag hr.2.1
      rw [hflag] at hset
      exact one_ne_zero hset
    · rintro (h0 | ⟨-, hlt⟩ | ⟨hne, -⟩)
      · exact hirq h0
      · exact absurd hlt (not_lt.mpr hrc)
      · exact hne hflag
  · rw [hreq]
    by_cases ht : e.timeRemain = 0
    · simp only [ht, TvdEnv.after, if_true, postPower_eq_iff, true_and]
      constructor
      · exact fun hr => .inr (.inr ⟨hflag, hr.2, trivial⟩)
      · rintro (h0 | ⟨hzero, -⟩ | ⟨-, hword, -⟩)
        · exact absurd h0 hirq
        · exact absurd hzero hflag
        · exact ⟨neg_einval_lt, hword⟩
    · simp [ht, hirq, hflag, Tvd.Report.rung, Tvd.Report.rc]

theorem mtdGetTemp_ret (p : Tvd.Priv) (h : Tvd.Hif) : (mtdGetTemp e c p h).2.2.ret = 0 := by
  have hask : ∀ p h, (Tvd.mtdGetTempAsk e.irqRc p h).2.2.ret = 0 := fun p h => by
    unfold Tvd.mtdGetTempAsk
    split <;> rfl
  have hanswer : ∀ p h, (Tvd.mtdGetTempAnswer e.platform c.mtdSite e.timeRemain p h).2.2.ret = 0 := fun p h => by
    unfold Tvd.mtdGetTempAnswer
    split <;> rfl
  simp only [mtdGetTemp]
  split
  · exact hask p h
  · exact hanswer _ _

/-- Fetching events does not change the return. -/
theorem takeEvents_ret (i : Tvd.Modem) (u : Tvd.Platform) (path : Tvd.Path) (site : Tvd.Site) (d : Tvd.Driver)
    (r : Tvd.Report) : (Tvd.takeEvents i u path site d r).2.ret = r.ret := by
  have hctd : ∀ k d r, (Tvd.takeCtd i k d r).2.ret = r.ret := fun k d r => by
    unfold Tvd.takeCtd
    split <;> rfl
  have hmtd : ∀ d r, (Tvd.takeMtd i u site d r).2.ret = r.ret := fun d r => by
    unfold Tvd.takeMtd
    split <;> rfl
  have hrtd : ∀ d r, (Tvd.takeRtd i d r).2.ret = r.ret := fun d r => by
    unfold Tvd.takeRtd
    split
    · dsimp only
      split <;> rfl
    · rfl
  have hboth : ∀ (both : Prop) [Decidable both] (r : Tvd.Report), (Tvd.nameBoth both r).ret = r.ret := by
    intro both _ r
    unfold Tvd.nameBoth
    split <;> rfl
  simp only [Tvd.takeEvents, hrtd, hboth, hmtd, hctd]

theorem getThermalEvent_ret (i : ℤ) (first p : Tvd.Priv) (h : Tvd.Hif) :
    (getThermalEvent e c i first p h).2.2.ret = 0 := by
  simp only [getThermalEvent, Tvd.getThermalEvent, takeEvents_ret]
  rfl

/-- The returned bytes are not negative, and a call that does not return is right only
within the arrays it has used. -/
theorem validated_rtdGetTemp : Validated (Arr.size coreMax) Eq s (rtdGetTempCmd e c s) ↔
    (c.tvdid 0).toNat < Notify.maxModem ∧ ((s.hif (idx (c.tvdid 0))).isSome →
      (c.tvdid 1).toNat < Notify.maxModem ∧ (c.tvdid 2).toNat < Notify.maxModem) := by
  rw [validated_iff_contained]
  · unfold rtdGetTempCmd onModem
    cases s.hif (idx (c.tvdid 0)) with
    | none => simp [inRange_tvdPriv, inRange_gulDev, idx_range_iff]
    | some h => simp [inRange_tvdPriv, inRange_gulDev, idx_range_iff]
  · intro n hn
    unfold rtdGetTempCmd onModem at hn
    cases hs : s.hif (idx (c.tvdid 0)) with
    | none => simp [hs] at hn
    | some h =>
      simp only [hs, Option.some.injEq] at hn
      exact hn ▸ Int.natCast_nonneg _

theorem validated_ctdGetTemp : Validated (Arr.size coreMax) Eq s (ctdGetTemp e c s) ↔
    (c.tvdid 0).toNat < Notify.maxModem ∧ (c.tvdid 1).toNat < Notify.maxModem := by
  rw [validated_iff_contained]
  · simp [ctdGetTemp, inRange_tvdPriv, idx_range_iff]
  · intro n hn
    exact (Option.some.inj hn).le

/-- The thermal device checks its indices exactly as `TvdChecked` says. -/
theorem tvd_validated_iff (cmd : TvdCmd) :
    Validated (Arr.size coreMax) Eq s (gulTvdDevIoctl e c s cmd) ↔ TvdChecked e c s cmd := by
  cases cmd with
  | registerEvefd => exact iff_of_true validated_registerEvefd trivial
  | deregisterEvefd =>
    rw [gulTvdDevIoctl, validated_copied, validated_onEvt tvdDeregister_nonneg, idx_range_iff, TvdChecked]
  | getThermalEvent =>
    rw [gulTvdDevIoctl, validated_copied, validated_onModem_zero (getThermalEvent_ret _ _),
      toInt_range_iff (by decide), TvdChecked]
  | programMtdThreshold =>
    rw [gulTvdDevIoctl, validated_copied, validated_onHif, exists_refuses_iff mtdUpdateThreshold_refuses, idx_range_iff,
      TvdChecked]
  | programCtdThreshold => exact iff_of_true (validated_copied.mpr fun _ => validated_done _) trivial
  | programRtdThreshold =>
    rw [gulTvdDevIoctl, validated_copied, validated_onHif, exists_refuses_iff rtdUpdateThreshold_refuses, idx_range_iff,
      TvdChecked]
  | mtdGetTemp =>
    rw [gulTvdDevIoctl, validated_copied, validated_onModem_zero mtdGetTemp_ret, idx_range_iff, TvdChecked]
  | mtdGetPowerInfo =>
    simp only [gulTvdDevIoctl, validated_copied, validated_onModem, mtdGetPowerInfo_refuses, idx_range_iff, TvdChecked]
  | ctdGetTemp => rw [gulTvdDevIoctl, validated_copied, validated_ctdGetTemp, TvdChecked]
  | rtdGetTemp => rw [gulTvdDevIoctl, validated_rtdGetTemp, TvdChecked]
  | programMtdHysteresis =>
    rw [gulTvdDevIoctl, validated_copied, validated_onHif, exists_refuses_iff mtdUpdateHysteresis_refuses,
      idx_range_iff, TvdChecked]
  | programCtdHysteresis => exact iff_of_true (validated_copied.mpr fun _ => validated_done _) trivial
  | other => exact iff_of_true (validated_done _) trivial

end Commands

end Chardev
end La12xx
