/-
# Probing the watchdog, and probing it again

`wdog_probe` makes the record of a modem once: `wdog_probed_once` is set before
anything is acquired, and is not cleared when the probe fails. A later probe then
finds the flag set and the pointer missing. So the flag means a record exactly in
the runs in which no first probe fails (`present_along_iff`); and since the event
context of a record is written only by registering, or for a modem that warms up, a
record is complete only after the latter (`probe_retry`).

The unwinding releases what was acquired, except that it frees the GPIO also where
`wdog_gpio_config` has not got it, or has given it back (`balanced_iff`).
-/
import La12xx.Base.Unwind
import La12xx.Wdog.Delivery

namespace La12xx
namespace Wdog

open Machine Notify

/-- `ENOMEM` -/
def enomem : ℤ := 12

/-- `ENODEV` -/
def enodev : ℤ := 19

/-- `PCI_DOMAIN_NR_INVALID` -/
def pciDomainNrInvalid : ℤ := -1

/-- What a probe acquires: its two allocations, the GPIO and the interrupt. -/
inductive Resource where
  | dev
  | data
  | gpio
  | irq
deriving DecidableEq, Repr

/-- What a call has acquired and released, in order. -/
structure Ledger where
  acquired : List Resource
  released : List Resource
deriving DecidableEq, Repr

def Ledger.acquire (l : Ledger) (r : Resource) : Ledger := { l with acquired := l.acquired ++ [r] }

def Ledger.release (l : Ledger) (r : Resource) : Ledger := { l with released := l.released ++ [r] }

/-- What a probe meets. `gpioRequest`, `gpioDirection` and `irqRc` are what the kernel
returns for them, the first two as the number of the error; `deviceCreated` is that
`device_create` does not return `NULL`. -/
structure Env where
  gulDev : ℕ
  disableSideband : Bool
  node : Bool
  devAlloc : Bool
  irq : ℤ
  gpio : ℤ
  gpioValid : Bool
  gpioRequest : ℕ
  gpioDirection : ℕ
  dataAlloc : Bool
  warmup : Bool
  irqRc : ℤ
  deviceCreated : Bool
deriving DecidableEq, Repr

/-- The record of a modem. -/
structure Rec where
  priv : Priv
  gpio : ℤ
  wdogId : ℕ
  modemStatus : ModemStatus
  domainNr : ℤ
  uspaceRegistered : Bool
  gulDev : ℕ
  queueInit : Bool
deriving DecidableEq, Repr

/-- `wdog_probed_once` and `wdog_dev_data_g`. -/
structure Probed where
  once : ℕ → Bool
  devData : ℕ → Option Rec

def Probed.none : Probed := ⟨fun _ => false, fun _ => Option.none⟩

def Probed.set (s : Probed) (i : ℕ) (d : Option Rec) : Probed := { s with devData := Function.update s.devData i d }

theorem Probed.set_devData_self (s : Probed) (i : ℕ) (d : Option Rec) : (s.set i d).devData i = d :=
  Function.update_self ..

theorem Probed.set_devData_of_ne (s : Probed) {i j : ℕ} (h : j ≠ i) (d : Option Rec) :
    (s.set i d).devData j = s.devData j := Function.update_of_ne h ..

/-- How a probe ends. -/
structure Result where
  ret : Ret
  ledger : Ledger
deriving DecidableEq, Repr

/-! ### The probe -/

/-- `wdog_gpio_config` -/
def wdogGpioConfig (E : Env) (l : Ledger) : ℤ × Ledger :=
  if E.gpio ≠ 0 then
    if E.gpioRequest ≠ 0 then (-E.gpioRequest, l)
    else if E.gpioDirection ≠ 0 then (-E.gpioDirection, (l.acquire .gpio).release .gpio)
    else (0, l.acquire .gpio)
  else (-einval, l)

/-- `out_irq` -/
def outIrq (p : Priv) (rc : ℤ) (l : Ledger) : Result :=
  ⟨.rc rc, (if p.irqStatus then l.release .irq else l).release .dev⟩

/-- `out_gpio` -/
def outGpio (E : Env) (p : Priv) (rc : ℤ) (l : Ledger) : Result :=
  outIrq p rc (if E.gpio ≠ 0 then l.release .gpio else l)

/-- `out_device` -/
def outDevice (E : Env) (p : Priv) (rc : ℤ) (l : Ledger) : Result := outGpio E p rc (l.release .data)

/-- A modem that warms up has its interrupt requested, without a descriptor; whether
this succeeds is not asked. -/
def warmupIrq (E : Env) (p : Priv) : Priv :=
  if E.warmup then (wdogRegisterIrq ⟨true, 0, 0, .closed, E.irqRc⟩ p).1 else p

/-- The record a probe leaves. -/
def Env.record (E : Env) (i : ℕ) (p : Priv) : Rec :=
  { priv := p
    gpio := E.gpio
    wdogId := i
    modemStatus := .notReady
    domainNr := pciDomainNrInvalid
    uspaceRegistered := false
    gulDev := E.gulDev
    queueInit := true }

/-- `wdog_probe` of a modem that was not probed before. -/
def wdogProbeFirst (E : Env) (i : ℕ) (s : Probed) : Probed × Result :=
  if ¬ E.devAlloc then (s, ⟨.rc (-enomem), ⟨[], []⟩⟩)
  else
    let l : Ledger := ⟨[.dev], []⟩
    let p := Priv.new E.irq .unset
    if E.irq < 0 then (s, outIrq p (-einval) l)
    else if ¬ E.gpioValid then (s, outIrq p (-einval) l)
    else if (wdogGpioConfig E l).1 < 0 then (s, outGpio E p (-enodev) (wdogGpioConfig E l).2)
    else if ¬ E.dataAlloc then (s, outGpio E p (-enomem) (wdogGpioConfig E l).2)
    else
      let l := (wdogGpioConfig E l).2.acquire .data
      let p := warmupIrq E p
      let l := if p.irqStatus then l.acquire .irq else l
      if E.deviceCreated then (s.set i (E.record i p), ⟨.rc 0, l⟩)
      else (s.set i none, outDevice E p (-enodev) l)

/-- `wdog_probe` -/
def wdogProbe (s : Probed) (c : ℕ × Env) : Probed × Result :=
  if c.2.disableSideband then (s, ⟨.rc 0, ⟨[], []⟩⟩)
  else if ¬ c.2.node then (s, ⟨.rc (-enodev), ⟨[], []⟩⟩)
  else if s.once c.1 then
    match s.devData c.1 with
    | some d => (s.set c.1 (some { d with gulDev := c.2.gulDev }), ⟨.rc 0, ⟨[], []⟩⟩)
    | none => (s, ⟨.oops, ⟨[], []⟩⟩)
  else wdogProbeFirst c.2 c.1 { s with once := Function.update s.once c.1 true }

/-! ### First probes -/

namespace Env

variable (E : Env)

/-- The probe gets to the GPIO. -/
def ReachesGpio : Prop := E.devAlloc = true ∧ 0 ≤ E.irq ∧ E.gpioValid = true

/-- `wdog_gpio_config` succeeds. -/
def GpioOk : Prop := E.gpio ≠ 0 ∧ E.gpioRequest = 0 ∧ E.gpioDirection = 0

/-- Everything a first probe needs succeeds. -/
def Complete : Prop := E.ReachesGpio ∧ E.GpioOk ∧ E.dataAlloc = true ∧ E.deviceCreated = true

/-- The GPIO is there and cannot be had, or not be configured. -/
def GpioRefused : Prop := E.gpio ≠ 0 ∧ (E.gpioRequest ≠ 0 ∨ E.gpioDirection ≠ 0)

instance : Decidable E.ReachesGpio := inferInstanceAs (Decidable (E.devAlloc = true ∧ 0 ≤ E.irq ∧ E.gpioValid = true))

instance : Decidable E.GpioOk := inferInstanceAs (Decidable (E.gpio ≠ 0 ∧ E.gpioRequest = 0 ∧ E.gpioDirection = 0))

instance : Decidable E.Complete :=
  inferInstanceAs (Decidable (E.ReachesGpio ∧ E.GpioOk ∧ E.dataAlloc = true ∧ E.deviceCreated = true))

end Env

/-- The call is the first probe of its modem. -/
def IsFirst (s : Probed) (c : ℕ × Env) : Prop :=
  c.2.disableSideband = false ∧ c.2.node = true ∧ s.once c.1 = false

instance (s : Probed) (c : ℕ × Env) : Decidable (IsFirst s c) :=
  inferInstanceAs (Decidable (c.2.disableSideband = false ∧ c.2.node = true ∧ s.once c.1 = false))

theorem wdogProbe_of_first {s : Probed} {c : ℕ × Env} (h : IsFirst s c) :
    wdogProbe s c = wdogProbeFirst c.2 c.1 { s with once := Function.update s.once c.1 true } := by
  simp [wdogProbe, h.1, h.2.1, h.2.2]

/-- Registering without a descriptor leaves no context. -/
theorem warmupIrq_evtFdCtxt (E : Env) (p : Priv) :
    (warmupIrq E p).evtFdCtxt = if E.warmup then .null else p.evtFdCtxt := by
  have herr : ∀ (q : Priv) (n : ℤ), q.evtFdCtxt = .null → (wdogRegisterErr q n).1.evtFdCtxt = .null := by
    intro q n hq
    simp [wdogRegisterErr, putEventfd, hq, finish]
  unfold warmupIrq
  split
  · show (wdogRequestIrq _ { p with evtFdCtxt := .null }).1.evtFdCtxt = .null
    unfold wdogRequestIrq
    split
    · split
      · split
        · exact herr _ _ rfl
        · rfl
      · rfl
    · exact herr _ _ rfl
  · rfl

section First

variable {E : Env} {i : ℕ} {s : Probed}

theorem wdogGpioConfig_of_ok (h : E.GpioOk) (l : Ledger) : wdogGpioConfig E l = (0, l.acquire .gpio) := by
  obtain ⟨hgpio, hreq, hdir⟩ := h
  simp [wdogGpioConfig, hgpio, hreq, hdir]

theorem wdogGpioConfig_neg (h : ¬ E.GpioOk) (l : Ledger) : (wdogGpioConfig E l).1 < 0 := by
  unfold wdogGpioConfig
  split
  · next hgpio =>
    split
    · show -(E.gpioRequest : ℤ) < 0
      omega
    · next hreq =>
      split
      · show -(E.gpioDirection : ℤ) < 0
        omega
      · next hdir => exact absurd ⟨hgpio, not_not.mp hreq, not_not.mp hdir⟩ h
  · show -einval < 0
    decide

/-- The ways a first probe ends, each with the steps it has got through. -/
inductive FirstEnd (E : Env) (i : ℕ) (s : Probed) : Probed × Result → Prop
  | noDevice (h : ¬ E.ReachesGpio) : FirstEnd E i s (s, ⟨.rc (-enomem), ⟨[], []⟩⟩)
  | noIrq (h : ¬ E.ReachesGpio) : FirstEnd E i s (s, outIrq (Priv.new E.irq .unset) (-einval) ⟨[.dev], []⟩)
  | refused (h : E.ReachesGpio) (hgpio : ¬ E.GpioOk) :
      FirstEnd E i s (s, outGpio E (Priv.new E.irq .unset) (-enodev) (wdogGpioConfig E ⟨[.dev], []⟩).2)
  | noData (hgpio : E.GpioOk) (hdata : E.dataAlloc ≠ true) :
      FirstEnd E i s (s, outGpio E (Priv.new E.irq .unset) (-enomem) ⟨[.dev, .gpio], []⟩)
  | noCharDevice (hgpio : E.GpioOk) (hdevice : E.deviceCreated ≠ true) :
      FirstEnd E i s (s.set i none, outDevice E (warmupIrq E (Priv.new E.irq .unset)) (-enodev)
        (if (warmupIrq E (Priv.new E.irq .unset)).irqStatus then ⟨[.dev, .gpio, .data, .irq], []⟩
        else ⟨[.dev, .gpio, .data], []⟩))
  | complete (h : E.Complete) (l : Ledger) :
      FirstEnd E i s (s.set i (E.record i (warmupIrq E (Priv.new E.irq .unset))), ⟨.rc 0, l⟩)

theorem wdogProbeFirst_end (E : Env) (i : ℕ) (s : Probed) : FirstEnd E i s (wdogProbeFirst E i s) := by
  by_cases hreach : E.ReachesGpio
  · obtain ⟨halloc, hirq, hvalid⟩ := hreach
    have hirq' : ¬ E.irq < 0 := not_lt.mpr hirq
    by_cases hgpio : E.GpioOk
    · have hconf : wdogGpioConfig E ⟨[.dev], []⟩ = (0, ⟨[.dev, .gpio], []⟩) := wdogGpioConfig_of_ok hgpio _
      by_cases hdata : E.dataAlloc = true
      · by_cases hdevice : E.deviceCreated = true
        · simp only [wdogProbeFirst, halloc, hirq', hvalid, hconf, hdata, hdevice, not_true, if_false, if_true,
            lt_irrefl]
          exact .complete ⟨⟨halloc, hirq, hvalid⟩, hgpio, hdata, hdevice⟩ _
        · simp only [wdogProbeFirst, halloc, hirq', hvalid, hconf, hdata, hdevice, not_true, if_false, lt_irrefl]
          exact .noCharDevice hgpio hdevice
      · simp only [wdogProbeFirst, halloc, hirq', hvalid, hconf, hdata, not_true, if_false, lt_irrefl]
        exact .noData hgpio hdata
    · simp only [wdogProbeFirst, halloc, hirq', hvalid, wdogGpioConfig_neg hgpio, not_true, if_false, if_true]
      exact .refused ⟨halloc, hirq, hvalid⟩ hgpio
  · by_cases halloc : E.devAlloc = true
    · have hend : wdogProbeFirst E i s = (s, outIrq (Priv.new E.irq .unset) (-einval) ⟨[.dev], []⟩) := by
        rw [wdogProbeFirst, if_neg (not_not.mpr halloc)]
        by_cases hirq : E.irq < 0
        · exact if_pos hirq
        · have hvalid : ¬ E.gpioValid = true := fun hvalid => hreach ⟨halloc, not_lt.mp hirq, hvalid⟩
          exact (if_neg hirq).trans (if_pos hvalid)
      rw [hend]
      exact .noIrq hreach
    · rw [wdogProbeFirst, if_pos halloc]
      exact .noDevice hreach

/-- A first probe that meets no failure leaves a record. -/
theorem wdogProbeFirst_of_complete (h : E.Complete) :
    (wdogProbeFirst E i s).1 = s.set i (E.record i (warmupIrq E (.new E.irq .unset))) ∧
      (wdogProbeFirst E i s).2.ret = .rc 0 := by
  obtain ⟨⟨halloc, hirq, hvalid⟩, hgpio, hdata, hdevice⟩ := h
  simp [wdogProbeFirst, halloc, not_lt.mpr hirq, hvalid, wdogGpioConfig_of_ok hgpio, hdata, hdevice]

/-- Any other fails and leaves none where there was none. -/
theorem wdogProbeFirst_of_not_complete (h : ¬ E.Complete) (hnone : s.devData i = none) :
    (wdogProbeFirst E i s).1 = s ∧ ∃ n < 0, (wdogProbeFirst E i s).2.ret = .rc n := by
  have hset : s.set i none = s := by
    unfold Probed.set
    rw [← hnone, Function.update_eq_self]
  have hend := wdogProbeFirst_end E i s
  generalize wdogProbeFirst E i s = r at hend ⊢
  cases hend with
  | complete hc _ => exact absurd hc h
  | noCharDevice => exact ⟨hset, _, by decide, rfl⟩
  | _ => exact ⟨rfl, _, by decide, rfl⟩

end First

/-! ### What a failing probe releases -/

section Release

open Base

variable {E : Env} {i : ℕ} {s : Probed}

theorem dev_balanced : Balanced [Resource.dev] [.dev] := balanced_of_perm (by decide) (List.Perm.refl _)

/-- The GPIO is freed though it was never acquired, or twice. -/
theorem not_balanced_of_refused (h : E.GpioRefused) (rc : ℤ) :
    ¬ Balanced (outGpio E (.new E.irq .unset) rc (wdogGpioConfig E ⟨[.dev], []⟩).2).ledger.acquired
      (outGpio E (.new E.irq .unset) rc (wdogGpioConfig E ⟨[.dev], []⟩).2).ledger.released := by
  obtain ⟨hgpio, hrefused⟩ := h
  intro hbal
  by_cases hreq : E.gpioRequest = 0
  · have hdir : E.gpioDirection ≠ 0 := hrefused.resolve_left (not_not.mpr hreq)
    have hconf : wdogGpioConfig E ⟨[.dev], []⟩ = (-(E.gpioDirection : ℤ), ⟨[.dev, .gpio], [.gpio]⟩) := by
      simp [wdogGpioConfig, hgpio, hreq, hdir, Ledger.acquire, Ledger.release]
    have htwice := (hbal .gpio).1
    simp [hconf, outGpio, outIrq, hgpio, Priv.new, Ledger.release] at htwice
  · have hconf : wdogGpioConfig E ⟨[.dev], []⟩ = (-(E.gpioRequest : ℤ), ⟨[.dev], []⟩) := by
      simp [wdogGpioConfig, hgpio, hreq]
    have hnever := (hbal .gpio).2
    simp [hconf, outGpio, outIrq, hgpio, Priv.new, Ledger.release] at hnever

theorem not_refused_of_ok (h : E.GpioOk) : ¬ E.GpioRefused := by
  rintro ⟨-, hreq | hdir⟩
  · exact hreq h.2.1
  · exact hdir h.2.2

/-- **A failing first probe releases what it acquired, unless the GPIO is refused.** -/
theorem balanced_first_iff (hfail : (wdogProbeFirst E i s).2.ret ≠ .rc 0) :
    Balanced (wdogProbeFirst E i s).2.ledger.acquired (wdogProbeFirst E i s).2.ledger.released ↔
      ¬ (E.ReachesGpio ∧ E.GpioRefused) := by
  have hend := wdogProbeFirst_end E i s
  generalize wdogProbeFirst E i s = r at hend hfail ⊢
  cases hend with
  | noDevice h =>
    have hnothing : Balanced ([] : List Resource) [] := balanced_of_perm List.nodup_nil (List.Perm.refl _)
    exact iff_of_true hnothing fun hr => h hr.1
  | noIrq h => exact iff_of_true dev_balanced fun hr => h hr.1
  | refused h hgpio =>
    by_cases hnone : E.gpio = 0
    · refine iff_of_true ?_ fun hr => hr.2.1 hnone
      have hconf : wdogGpioConfig E ⟨[.dev], []⟩ = (-einval, ⟨[.dev], []⟩) := by
        simp [wdogGpioConfig, hnone]
      rw [hconf, outGpio, if_neg (not_not.mpr hnone)]
      exact dev_balanced
    · have hrefused : E.GpioRefused := by
        refine ⟨hnone, ?_⟩
        by_contra hno
        push Not at hno
        exact hgpio ⟨hnone, hno⟩
      exact iff_of_false (not_balanced_of_refused hrefused _) (not_not.mpr ⟨h, hrefused⟩)
  | noData hgpio hdata =>
    refine iff_of_true ?_ fun hr => not_refused_of_ok hgpio hr.2
    rw [outGpio, if_pos hgpio.1]
    show Balanced [Resource.dev, .gpio] [.gpio, .dev]
    exact balanced_of_perm (by decide) (by decide)
  | noCharDevice hgpio hdevice =>
    refine iff_of_true ?_ fun hr => not_refused_of_ok hgpio hr.2
    rw [outDevice, outGpio, outIrq, if_pos hgpio.1]
    cases (warmupIrq E (Priv.new E.irq .unset)).irqStatus with
    | true =>
      show Balanced [Resource.dev, .gpio, .data, .irq] [.data, .gpio, .irq, .dev]
      exact balanced_of_perm (by decide) (by decide)
    | false =>
      show Balanced [Resource.dev, .gpio, .data] [.data, .gpio, .dev]
      exact balanced_of_perm (by decide) (by decide)
  | complete => exact absurd rfl hfail

/-- Any other probe acquires nothing and releases nothing. -/
theorem ledger_of_not_first {c : ℕ × Env} (h : ¬ IsFirst s c) : (wdogProbe s c).2.ledger = ⟨[], []⟩ := by
  unfold wdogProbe
  split
  · rfl
  · next hside =>
    split
    · rfl
    · next hnode =>
      split
      · cases s.devData c.1 with
        | none => rfl
        | some d => rfl
      · next honce =>
        exact absurd ⟨Bool.eq_false_of_not_eq_true hside, not_not.mp hnode, Bool.eq_false_of_not_eq_true honce⟩ h

theorem balanced_iff {c : ℕ × Env} (hfail : (wdogProbe s c).2.ret ≠ .rc 0) :
    Balanced (wdogProbe s c).2.ledger.acquired (wdogProbe s c).2.ledger.released ↔
      ¬ (IsFirst s c ∧ c.2.ReachesGpio ∧ c.2.GpioRefused) := by
  by_cases h : IsFirst s c
  · rw [wdogProbe_of_first h] at hfail ⊢
    rw [balanced_first_iff hfail]
    exact ⟨fun hno hyes => hno hyes.2, fun hno hyes => hno ⟨h, hyes⟩⟩
  · rw [ledger_of_not_first h]
    exact iff_of_true (balanced_of_perm List.nodup_nil (List.Perm.refl _)) fun hyes => h hyes.1

end Release

/-! ### Runs -/

/-- What is not known of a modem that was not probed. -/
def Fresh (s : Probed) : Prop := ∀ i, s.once i = false → s.devData i = none

/-- Nothing of the record is left as it was allocated. -/
structure Rec.Initialised (d : Rec) : Prop where
  evtFdCtxt : d.priv.evtFdCtxt ≠ .unset
  queue : d.queueInit = true

/-- A modem that was probed has a record that meets `P`. -/
def Kept (P : Rec → Prop) (s : Probed) : Prop := ∀ i, s.once i = true → ∃ d, s.devData i = some d ∧ P d

section Step

variable {P : Rec → Prop} {s : Probed} {c : ℕ × Env}

/-- What a probe can do: leave everything, set the device of a record that is there,
or probe for the first time, with a record or without. -/
theorem wdogProbe_cases (h : Fresh s) (c : ℕ × Env) :
    (¬ IsFirst s c ∧ (wdogProbe s c).1 = s ∧
      ((wdogProbe s c).2.ret = .oops → s.once c.1 = true ∧ s.devData c.1 = none)) ∨
    (¬ IsFirst s c ∧ (wdogProbe s c).2.ret = .rc 0 ∧ s.once c.1 = true ∧ ∃ d, s.devData c.1 = some d ∧
      (wdogProbe s c).1 = s.set c.1 (some { d with gulDev := c.2.gulDev })) ∨
    (IsFirst s c ∧ c.2.Complete ∧ (wdogProbe s c).2.ret = .rc 0 ∧
      (wdogProbe s c).1 = ({ s with once := Function.update s.once c.1 true } : Probed).set c.1
        (some (c.2.record c.1 (warmupIrq c.2 (.new c.2.irq .unset))))) ∨
    (IsFirst s c ∧ ¬ c.2.Complete ∧ (∃ n < 0, (wdogProbe s c).2.ret = .rc n) ∧
      (wdogProbe s c).1 = { s with once := Function.update s.once c.1 true }) := by
  by_cases hfirst : IsFirst s c
  · by_cases hcomp : c.2.Complete
    · rw [wdogProbe_of_first hfirst]
      obtain ⟨hs, hret⟩ := wdogProbeFirst_of_complete (i := c.1)
        (s := { s with once := Function.update s.once c.1 true }) hcomp
      exact .inr (.inr (.inl ⟨hfirst, hcomp, hret, hs⟩))
    · rw [wdogProbe_of_first hfirst]
      obtain ⟨hs, hret⟩ := wdogProbeFirst_of_not_complete (i := c.1)
        (s := { s with once := Function.update s.once c.1 true }) hcomp (h c.1 hfirst.2.2)
      exact .inr (.inr (.inr ⟨hfirst, hcomp, hret, hs⟩))
  · unfold wdogProbe
    split
    · exact .inl ⟨hfirst, rfl, fun hoops => by cases hoops⟩
    · next hside =>
      split
      · exact .inl ⟨hfirst, rfl, fun hoops => by cases hoops⟩
      · next hnode =>
        split
        · next honce =>
          cases hd : s.devData c.1 with
          | none => exact .inl ⟨hfirst, rfl, fun _ => ⟨honce, rfl⟩⟩
          | some d => exact .inr (.inl ⟨hfirst, rfl, honce, d, rfl, rfl⟩)
        · next honce =>
          have hunset : s.once c.1 = false := Bool.eq_false_of_not_eq_true honce
          exact absurd ⟨Bool.eq_false_of_not_eq_true hside, not_not.mp hnode, hunset⟩ hfirst

/-- A flag that a first probe leaves unset belongs to another modem. -/
theorem once_of_update {i : ℕ} (hi : Function.update s.once c.1 true i = false) : i ≠ c.1 ∧ s.once i = false := by
  by_cases he : i = c.1
  · rw [he, Function.update_self] at hi
    cases hi
  · rw [Function.update_of_ne he] at hi
    exact ⟨he, hi⟩

theorem fresh_step (h : Fresh s) (c : ℕ × Env) : Fresh (wdogProbe s c).1 := by
  obtain ⟨-, hs, -⟩ | ⟨-, -, honce, d, -, hs⟩ | ⟨-, -, -, hs⟩ | ⟨-, -, -, hs⟩ := wdogProbe_cases h c
  · rw [hs]
    exact h
  · rw [hs]
    intro i hi
    have he : i ≠ c.1 := by
      rintro rfl
      exact Bool.false_ne_true (hi.symm.trans honce)
    exact (Probed.set_devData_of_ne _ he _).trans (h i hi)
  · rw [hs]
    intro i hi
    obtain ⟨he, hi⟩ := once_of_update hi
    exact (Probed.set_devData_of_ne _ he _).trans (h i hi)
  · rw [hs]
    intro i hi
    exact h i (once_of_update hi).2

/-- A first probe has all it needs, and leaves a record that meets `P`. -/
def Passes (P : Rec → Prop) (s : Probed) (c : ℕ × Env) : Prop :=
  IsFirst s c → c.2.Complete ∧ P (c.2.record c.1 (warmupIrq c.2 (.new c.2.irq .unset)))

theorem kept_set (h : Kept P s) {i : ℕ} {d : Rec} (hd : P d) {f : ℕ → Bool} (hf : ∀ j, j ≠ i → f j = s.once j) :
    Kept P (({ s with once := f } : Probed).set i (some d)) := by
  intro j hj
  by_cases he : j = i
  · subst he
    exact ⟨d, Probed.set_devData_self .., hd⟩
  · obtain ⟨d', hd', hP⟩ := h j ((hf j he).symm.trans hj)
    exact ⟨d', (Probed.set_devData_of_ne _ he _).trans hd', hP⟩

/-- A probe keeps the records exactly if it passes. `P` must not ask for the device. -/
theorem kept_step_iff (hP : ∀ d g, P d → P { d with gulDev := g }) (hfresh : Fresh s) (h : Kept P s) (c : ℕ × Env) :
    Kept P (wdogProbe s c).1 ↔ Passes P s c := by
  obtain ⟨hno, hs, -⟩ | ⟨hno, -, honce, d, hd, hs⟩ | ⟨hfirst, hcomp, -, hs⟩ | ⟨hfirst, hcomp, -, hs⟩ :=
    wdogProbe_cases hfresh c
  · rw [hs]
    exact iff_of_true h fun hyes => absurd hyes hno
  · rw [hs]
    refine iff_of_true ?_ fun hyes => absurd hyes hno
    obtain ⟨d', hd', hPd⟩ := h c.1 honce
    obtain rfl := Option.some.inj (hd.symm.trans hd')
    exact kept_set h (hP d _ hPd) fun _ _ => rfl
  · rw [hs]
    constructor
    · intro hkept _
      obtain ⟨d, hd, hPd⟩ := hkept c.1 (Function.update_self ..)
      rw [Probed.set_devData_self] at hd
      obtain rfl := Option.some.inj hd
      exact ⟨hcomp, hPd⟩
    · intro hpass
      exact kept_set h (hpass hfirst).2 fun j hj => Function.update_of_ne hj ..
  · rw [hs]
    refine iff_of_false (fun hkept => ?_) fun hpass => hcomp (hpass hfirst).1
    obtain ⟨d, hd, -⟩ := hkept c.1 (Function.update_self ..)
    exact Option.some_ne_none d (hd.symm.trans (hfresh c.1 hfirst.2.2))

end Step

/-- A first probe has all it needs. -/
def PassesAny (s : Probed) (c : ℕ × Env) : Prop := IsFirst s c → c.2.Complete

/-- And its modem warms up. -/
def PassesWarm (s : Probed) (c : ℕ × Env) : Prop := IsFirst s c → c.2.Complete ∧ c.2.warmup = true

instance (s : Probed) (c : ℕ × Env) : Decidable (PassesWarm s c) :=
  inferInstanceAs (Decidable (IsFirst s c → c.2.Complete ∧ c.2.warmup = true))

theorem passes_true_iff {s : Probed} {c : ℕ × Env} : Passes (fun _ => True) s c ↔ PassesAny s c :=
  ⟨fun h hfirst => (h hfirst).1, fun h hfirst => ⟨h hfirst, trivial⟩⟩

/-- Only registering writes the event context. -/
theorem passes_initialised_iff {s : Probed} {c : ℕ × Env} : Passes Rec.Initialised s c ↔ PassesWarm s c := by
  have hctxt : (c.2.record c.1 (warmupIrq c.2 (.new c.2.irq .unset))).Initialised ↔ c.2.warmup = true := by
    have heq := warmupIrq_evtFdCtxt c.2 (.new c.2.irq .unset)
    constructor
    · intro hinit
      have hne := hinit.evtFdCtxt
      by_contra hcold
      exact hne (heq.trans (if_neg hcold))
    · intro hwarm
      refine ⟨?_, rfl⟩
      show (warmupIrq c.2 (.new c.2.irq .unset)).evtFdCtxt ≠ .unset
      rw [heq, if_pos hwarm]
      decide
  exact ⟨fun h hfirst => ⟨(h hfirst).1, hctxt.mp (h hfirst).2⟩, fun h hfirst => ⟨(h hfirst).1, hctxt.mpr (h hfirst).2⟩⟩

/-- The records are kept in every state of a run exactly if its first probes
pass. -/
theorem kept_along_iff {P : Rec → Prop} (hP : ∀ d g, P d → P { d with gulDev := g }) (calls : List (ℕ × Env)) :
    (∀ pre, pre <+: calls → Kept P (exec wdogProbe .none pre)) ↔ Guarded wdogProbe (Passes P) .none calls := by
  have hfresh : Fresh .none := fun _ _ => rfl
  have hkept : Kept P .none := fun _ h => by cases h
  exact inv_iff_guarded (I := Kept P) (G := Passes P) (J := Fresh) (fun s c hf _ => fresh_step hf c)
    (fun s c hf hk => kept_step_iff hP hf hk c) calls hfresh hkept

/-- While the records are kept, no probe reads a missing one. -/
theorem no_oops_of_kept {P : Rec → Prop} {s : Probed} (hfresh : Fresh s) (h : Kept P s) (c : ℕ × Env) :
    (wdogProbe s c).2.ret ≠ .oops := by
  intro hoops
  obtain ⟨-, -, hmissing⟩ | ⟨-, hret, -⟩ | ⟨-, -, hret, -⟩ | ⟨-, -, ⟨n, -, hret⟩, -⟩ := wdogProbe_cases hfresh c
  · obtain ⟨honce, hnone⟩ := hmissing hoops
    obtain ⟨d, hd, -⟩ := h c.1 honce
    exact Option.some_ne_none d (hd.symm.trans hnone)
  · exact Ret.noConfusion (hret.symm.trans hoops)
  · exact Ret.noConfusion (hret.symm.trans hoops)
  · exact Ret.noConfusion (hret.symm.trans hoops)

/-- **In a run of probes the flag means a record exactly if no first probe fails, and a
complete one exactly if besides each of their modems warms up; no probe of such a run
reads a missing record. A failing probe releases what it acquired exactly if it is
not the first of its modem, or does not get to the GPIO, or gets it.** -/
theorem probe_retry (calls : List (ℕ × Env)) :
    ((∀ pre, pre <+: calls → Kept Rec.Initialised (exec wdogProbe .none pre)) ↔
      Guarded wdogProbe PassesWarm .none calls) ∧
    ((∀ pre, pre <+: calls → Kept (fun _ => True) (exec wdogProbe .none pre)) ↔
      Guarded wdogProbe PassesAny .none calls) ∧
    (Guarded wdogProbe PassesAny .none calls → ∀ pre c, pre <+: calls →
      (wdogProbe (exec wdogProbe .none pre) c).2.ret ≠ .oops) ∧
    ∀ s c, (wdogProbe s c).2.ret ≠ .rc 0 →
      (Base.Balanced (wdogProbe s c).2.ledger.acquired (wdogProbe s c).2.ledger.released ↔
        ¬ (IsFirst s c ∧ c.2.ReachesGpio ∧ c.2.GpioRefused)) := by
  have hinit := kept_along_iff (P := Rec.Initialised) (fun d g h => ⟨h.evtFdCtxt, h.queue⟩) calls
  have hany := kept_along_iff (P := fun _ => True) (fun _ _ _ => trivial) calls
  have hwarm : Passes Rec.Initialised = PassesWarm := by
    funext s c
    exact propext passes_initialised_iff
  have htrue : Passes (fun _ => True) = PassesAny := by
    funext s c
    exact propext passes_true_iff
  rw [hwarm] at hinit
  rw [htrue] at hany
  refine ⟨hinit, hany, ?_, fun s c hfail => balanced_iff hfail⟩
  intro hg pre c hpre
  apply no_oops_of_kept
  · exact exec_inv (I := Fresh) (fun s c h => fresh_step h c) pre fun _ _ => rfl
  · exact hany.mpr hg pre hpre

/-- Everything is there. -/
def anEnv : Env := ⟨0, false, true, true, 80, 12, true, 0, 0, true, true, 0, true⟩

/-- A modem that warms up, probed twice. -/
theorem probe_retry_warm : ∀ pre, pre <+: [(0, anEnv), (0, anEnv)] →
    Kept Rec.Initialised (exec wdogProbe .none pre) :=
  (probe_retry [(0, anEnv), (0, anEnv)]).1.mpr (by decide)

/-- The first probe of a modem cannot have its GPIO and frees it all the same; the
second reads a record that is not there. -/
theorem probe_retry_oops :
    ¬ (∀ calls : List (ℕ × Env), Kept Rec.Initialised (exec wdogProbe .none calls)) ∧
    (wdogProbe (exec wdogProbe .none [(0, { anEnv with gpioRequest := 16 })]) (0, anEnv)).2.ret = .oops ∧
    (wdogProbe .none (0, { anEnv with gpioRequest := 16 })).2 = ⟨.rc (-enodev), ⟨[.dev], [.gpio, .dev]⟩⟩ := by
  refine ⟨fun h => ?_, rfl, rfl⟩
  obtain ⟨d, hd, -⟩ := h [(0, { anEnv with gpioRequest := 16 })] 0 rfl
  cases hd

end Wdog
end La12xx
