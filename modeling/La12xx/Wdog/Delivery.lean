/-
# Delivery of watchdog events

`modem_worker` runs after a watchdog interrupt or a call of `gul_reset_modem`. If
`uspace_registered` is set it signals the event context of the record, if there is
one, and wakes who waits in `gul_wdog_dev_read`; otherwise it resets the PCI device
while the modem warms up or after a HSDCS error. Registering sets
`uspace_registered` before anything can fail, and nothing clears it again. So it
agrees with who is registered exactly in the runs that keep a user for good and
register none in vain, and in these no event is dropped if every descriptor that is
registered names an eventfd (`delivered`).
-/
import La12xx.Notify.Pairing

namespace La12xx
namespace Wdog

open Machine Notify

/-- `enum wdog_modem_status` -/
inductive ModemStatus where
  | notReady
  | ready
  | hsdcsErr
  | warmupReset
deriving DecidableEq, Repr

/-- The device of one modem: its record (the interrupt and the event context as in
`Notify.Priv`), `wdog_handler_notifier` and `warmup_flag` of the modem, and whether
`modem_worker` is scheduled. -/
structure WdogDev where
  priv : Priv
  modemStatus : ModemStatus
  uspaceRegistered : Bool
  notifier : Bool
  warmup : Bool
  scheduled : Bool
  wild : Bool
deriving DecidableEq, Repr

/-- What `modem_worker` does about an event. -/
inductive Action where
  /-- the event context is signalled, and the wait queue woken -/
  | signal
  /-- `evt_fd_ctxt` is NULL, and only the wait queue is woken -/
  | wake
  | resetDevice
  | nothing
  | oops
deriving DecidableEq, Repr

inductive Input where
  | register (r : Request)
  | deregister (r : Request)
  | irq
  | resetModem (status : ModemStatus)
  | setStatus (status : ModemStatus)
  | setWarmup (on : Bool)
  | worker (hifWarmup : Bool)
deriving DecidableEq, Repr

inductive Output where
  | ret (r : Ret)
  | done
  | worked (a : Action)
deriving DecidableEq, Repr

/-! ### The driver -/

/-- A call on the only record. -/
def WdogDev.call (w : WdogDev) (id : ℕ) (f : Priv → Priv × Ret)  : WdogDev × Ret :=
  if id = 0 then ({ w with priv := (f w.priv).1 }, (f w.priv).2) else ({ w with wild := true }, .oops)

/-- `IOCTL_GUL_MODEM_WDOG_REGISTER` -/
def wdogRegister (r : Request) (w : WdogDev)  : WdogDev × Ret :=
  if ¬ r.copied then (w, .rc (-efault))
  else { w with uspaceRegistered := true, notifier := true }.call r.id (wdogRegisterIrq r)

/-- `IOCTL_GUL_MODEM_WDOG_DEREGISTER`: `uspace_registered` stays as it is. -/
def wdogDeregister (r : Request) (w : WdogDev)  : WdogDev × Ret :=
  if ¬ r.copied then (w, .rc (-efault))
  else match w.call r.id wdogDeregisterIrq with
    | (w, .rc n) => ({ w with notifier := false }, .rc n)
    | (w, .oops) => (w, .oops)

/-- `wdog_irq_handler` -/
def wdogIrqHandler (w : WdogDev) : WdogDev := if w.modemStatus ≠ .ready then w else { w with scheduled := true }

/-- `gul_reset_modem` -/
def gulResetModem (status : ModemStatus) (w : WdogDev) : WdogDev := { w with modemStatus := status, scheduled := true }

/-- What `gul_pcidev_reset_device` does here, in `wdog_reset_modem_ext`. -/
def wdogResetModemExt (w : WdogDev) : WdogDev :=
  if w.priv.irqStatus then { w with priv := (wdogDeregisterIrq w.priv).1 } else w

/-- The status `modem_worker` leaves. -/
def workerStatus (hifWarmup : Bool) (status : ModemStatus) : ModemStatus :=
  if hifWarmup then .warmupReset else if status = .hsdcsErr then status else .notReady

/-- `modem_worker` -/
def modemWorker (hifWarmup : Bool) (w : WdogDev) : WdogDev × Action :=
  let w := { w with scheduled := false, modemStatus := workerStatus hifWarmup w.modemStatus }
  if w.uspaceRegistered then
    match w.priv.evtFdCtxt with
    | .ctx => ({ w with warmup := false }, .signal)
    | .null => ({ w with warmup := false }, .wake)
    | .err => (w, .oops)
    | .unset => (w, .oops)
  else if w.warmup ∨ w.modemStatus = .hsdcsErr then
    (wdogResetModemExt { w with warmup := false }, .resetDevice)
  else (w, .nothing)

/-- One step. The worker runs when it is scheduled. -/
def wdogStep (w : WdogDev) : Input → WdogDev × Output
  | .register r => ((wdogRegister r w).1, .ret (wdogRegister r w).2)
  | .deregister r => ((wdogDeregister r w).1, .ret (wdogDeregister r w).2)
  | .irq => (wdogIrqHandler w, .done)
  | .resetModem status => (gulResetModem status w, .done)
  | .setStatus status => ({ w with modemStatus := status }, .done)
  | .setWarmup on => ({ w with warmup := on }, .done)
  | .worker hifWarmup =>
    if w.scheduled then ((modemWorker hifWarmup w).1, .worked (modemWorker hifWarmup w).2) else (w, .done)

/-- The device after `wdog_probe`, over memory with `c` in it. -/
def WdogDev.probed (irq : ℤ) (c : Ctxt) (warmup : Bool) : WdogDev :=
  ⟨.new irq c, .notReady, false, false, warmup, false, false⟩

/-! ### The user -/

/-- Who is registered: nobody, a user who has passed no descriptor and waits in
`gul_wdog_dev_read`, or one who has passed the descriptor of an eventfd. -/
inductive User where
  | nobody
  | waits
  | hasEventfd
deriving DecidableEq, Repr

def User.registered (u : User) : Bool := u ≠ .nobody

/-- The user a successful registration makes. -/
def User.ofRequest (r : Request) : User := if 0 < r.eventfd then .hasEventfd else .waits

/-- The last request that did not fail says who is registered. -/
def nextUser (user : User) : Input → Output → User
  | .register r, .ret c => if c = .rc 0 then .ofRequest r else user
  | .deregister _, .ret c => if c = .rc 0 then .nobody else user
  | _, _ => user

/-- The driver, and the user next to it. -/
def step (s : WdogDev × User) (i : Input) : (WdogDev × User) × Output :=
  (((wdogStep s.1 i).1, nextUser s.2 i (wdogStep s.1 i).2), (wdogStep s.1 i).2)

/-- The driver knows who is registered, in both places. -/
structure Agrees (s : WdogDev × User) : Prop where
  tame : s.1.wild = false
  uspace : s.1.uspaceRegistered = s.2.registered
  notifier : s.1.notifier = s.1.uspaceRegistered

instance (s : WdogDev × User) : Decidable (Agrees s) :=
  decidable_of_iff (s.1.wild = false ∧ s.1.uspaceRegistered = s.2.registered ∧ s.1.notifier = s.1.uspaceRegistered)
    ⟨fun h => ⟨h.1, h.2.1, h.2.2⟩, fun h => ⟨h.tame, h.uspace, h.notifier⟩⟩

/-- `wdog_register_irq` succeeds. -/
def CanRegister (r : Request) (p : Priv) : Prop :=
  p.irq ≠ 0 ∧ (p.irqStatus = true ∨ 0 ≤ r.irqRc) ∧ (0 < r.eventfd → r.file ≠ .closed)

/-- The context of a record can be put. -/
def CanPut (p : Priv) : Prop := p.evtFdCtxt = .null ∨ p.evtFdCtxt = .ctx

/-- No user is registered in vain, and none goes. -/
def Keeps (s : WdogDev × User) : Input → Prop
  | .register r => r.copied = true → r.id = 0 ∧ (s.2.registered = true ∨ CanRegister r s.1.priv)
  | .deregister r => r.copied = true → r.id = 0 ∧ (s.2.registered = false ∨ ¬ CanPut s.1.priv)
  | _ => True

/-- The descriptor of a registration, if it passes one, names an eventfd. -/
def NamesEventfd : Input → Prop
  | .register r => r.copied = true → 0 < r.eventfd → r.file = .eventfd
  | _ => True

/-- What a run of the worker owes the event: the eventfd of a registered user is
signalled, or he is woken if he has none; and the device is reset when there is no
user and the modem warms up or had a HSDCS error. -/
def Serves (s : WdogDev × User) (hifWarmup : Bool) (a : Action) : Prop :=
  match s.2 with
  | .hasEventfd => a = .signal
  | .waits => a = .wake
  | .nobody =>
    if s.1.warmup = true ∨ (hifWarmup = false ∧ s.1.modemStatus = .hsdcsErr) then a = .resetDevice
    else a = .nothing

section Decide

variable (r : Request) (p : Priv) (s : WdogDev × User)

instance : Decidable (CanRegister r p) :=
  inferInstanceAs (Decidable (p.irq ≠ 0 ∧ (p.irqStatus = true ∨ 0 ≤ r.irqRc) ∧ (0 < r.eventfd → r.file ≠ .closed)))

instance : Decidable (CanPut p) := inferInstanceAs (Decidable (p.evtFdCtxt = .null ∨ p.evtFdCtxt = .ctx))

instance : ∀ i, Decidable (Keeps s i)
  | .register r => inferInstanceAs (Decidable (r.copied = true → r.id = 0 ∧ (s.2.registered = true ∨ CanRegister r s.1.priv)))
  | .deregister r => inferInstanceAs (Decidable (r.copied = true → r.id = 0 ∧ (s.2.registered = false ∨ ¬ CanPut s.1.priv)))
  | .irq => isTrue trivial
  | .resetModem _ => isTrue trivial
  | .setStatus _ => isTrue trivial
  | .setWarmup _ => isTrue trivial
  | .worker _ => isTrue trivial

instance : ∀ i, Decidable (NamesEventfd i)
  | .register r => inferInstanceAs (Decidable (r.copied = true → 0 < r.eventfd → r.file = .eventfd))
  | .deregister _ => isTrue trivial
  | .irq => isTrue trivial
  | .resetModem _ => isTrue trivial
  | .setStatus _ => isTrue trivial
  | .setWarmup _ => isTrue trivial
  | .worker _ => isTrue trivial

end Decide

/-! ### Registering and deregistering -/

section Requests

variable {r : Request} {p : Priv}

/-- The error exit of `wdog_register_irq` does not succeed. -/
theorem wdogRegisterErr_ne {n : ℤ} (hn : n ≠ 0) : (wdogRegisterErr p n).2 ≠ .rc 0 := by
  unfold wdogRegisterErr
  cases putEventfd p with
  | none => simp [finish]
  | some p' => simpa [finish] using hn

theorem wdogRequestIrq_iff {p' : Priv} :
    (wdogRequestIrq r p').2 = .rc 0 ↔ p'.irq ≠ 0 ∧ (p'.irqStatus = true ∨ 0 ≤ r.irqRc) := by
  unfold wdogRequestIrq
  split
  · next hirq =>
    split
    · next hidle =>
      split
      · next hneg =>
        have hne := wdogRegisterErr_ne (p := p') (ne_of_lt hneg)
        simp [hne, hidle, hneg]
      · next hpos => simp [hirq, not_lt.mp hpos]
    · next hbusy => simp [hirq, Bool.eq_true_of_not_eq_false hbusy]
  · next hirq =>
    have hne := wdogRegisterErr_ne (p := p') (n := -einval) (by decide)
    simp [hne, hirq]

theorem wdogRegisterIrq_iff : (wdogRegisterIrq r p).2 = .rc 0 ↔ CanRegister r p := by
  unfold wdogRegisterIrq CanRegister
  simp only
  cases ht : takeEventfd r { p with evtFdCtxt := .null } with
  | none =>
    have hclosed : 0 < r.eventfd ∧ r.file = .closed := by
      unfold takeEventfd at ht
      split at ht
      · next hpos =>
        refine ⟨hpos, ?_⟩
        cases hf : r.file with
        | closed => rfl
        | other => simp [hf, eventfdCtxFileget] at ht
        | eventfd => simp [hf, eventfdCtxFileget] at ht
      · cases ht
    simp [hclosed]
  | some p' =>
    have hopen : 0 < r.eventfd → r.file ≠ .closed := by
      intro hpos hf
      simp [takeEventfd, hpos, hf, eventfdCtxFileget] at ht
    obtain ⟨c, t, rfl⟩ := Priv.takeEventfd_eq ht
    rw [wdogRequestIrq_iff]
    exact ⟨fun h => ⟨h.1, h.2, hopen⟩, fun h => ⟨h.1, h.2.1⟩⟩

/-- Deregistering succeeds or does not return. -/
theorem wdogDeregisterIrq_snd : (wdogDeregisterIrq p).2 = if CanPut p then .rc 0 else .oops := by
  have hput : ∀ q : Priv, q.evtFdCtxt = p.evtFdCtxt →
      (finish q 0 (putEventfd q)).2 = if CanPut p then .rc 0 else .oops := by
    intro q hq
    cases hc : p.evtFdCtxt <;> simp [putEventfd, CanPut, hq, hc, finish]
  unfold wdogDeregisterIrq
  apply hput
  split <;> rfl

/-- A registration that succeeds has the interrupt, and the context of its descriptor
if it passes one. -/
theorem wdogRegisterIrq_of_canRegister (hcan : CanRegister r p) (hfile : 0 < r.eventfd → r.file = .eventfd) :
    (wdogRegisterIrq r p).1.irq = p.irq ∧ (wdogRegisterIrq r p).1.irqStatus = true ∧
      (wdogRegisterIrq r p).1.evtFdCtxt = if 0 < r.eventfd then .ctx else .null := by
  obtain ⟨hirq, hrc, -⟩ := hcan
  have hreq : ∀ q : Priv, q.irq = p.irq → q.irqStatus = p.irqStatus →
      (wdogRequestIrq r q).1.irq = p.irq ∧ (wdogRequestIrq r q).1.irqStatus = true ∧
        (wdogRequestIrq r q).1.evtFdCtxt = q.evtFdCtxt := by
    intro q hqi hqs
    rw [wdogRequestIrq, if_pos (by rw [hqi]; exact hirq)]
    split
    · next hidle =>
      have hnn : ¬ r.irqRc < 0 := not_lt.mpr (hrc.resolve_left (by simp [← hqs, hidle]))
      rw [if_neg hnn]
      exact ⟨hqi, rfl, rfl⟩
    · next hbusy => exact ⟨hqi, Bool.eq_true_of_not_eq_false hbusy, rfl⟩
  unfold wdogRegisterIrq
  by_cases hpos : 0 < r.eventfd
  · simp only [takeEventfd, if_pos hpos, hfile hpos, eventfdCtxFileget]
    exact hreq _ rfl rfl
  · simp only [takeEventfd, if_neg hpos]
    exact hreq _ rfl rfl

end Requests

/-! ### One step -/

section Step

theorem User.registered_ofRequest (r : Request) : (User.ofRequest r).registered = true := by
  unfold User.ofRequest
  split <;> rfl

variable {s : WdogDev × User} {r : Request}

/-- A request that cannot be copied is refused. -/
theorem step_refused (hc : ¬ r.copied = true) :
    (step s (.register r)).1 = s ∧ (step s (.deregister r)).1 = s := by
  constructor <;> simp [step, wdogStep, wdogRegister, wdogDeregister, hc, nextUser, efault]

/-- A request for another record works on other memory. -/
theorem step_wild (hc : r.copied = true) (hid : r.id ≠ 0) :
    (step s (.register r)).1.1.wild = true ∧ (step s (.deregister r)).1.1.wild = true := by
  constructor <;> simp [step, wdogStep, wdogRegister, wdogDeregister, hc, WdogDev.call, hid]

/-- Registering sets both flags, whether it succeeds or not. -/
theorem step_register (hc : r.copied = true) (hid : r.id = 0) :
    (step s (.register r)).1 =
      ({ s.1 with priv := (wdogRegisterIrq r s.1.priv).1, uspaceRegistered := true, notifier := true },
        if CanRegister r s.1.priv then .ofRequest r else s.2) := by
  have hrc : (wdogRegisterIrq r s.1.priv).2 = .rc 0 ↔ CanRegister r s.1.priv := wdogRegisterIrq_iff
  simp [step, wdogStep, wdogRegister, hc, WdogDev.call, hid, nextUser, hrc]

/-- Deregistering clears one of them. -/
theorem step_deregister (hc : r.copied = true) (hid : r.id = 0) (hput : CanPut s.1.priv) :
    (step s (.deregister r)).1 = ({ s.1 with priv := (wdogDeregisterIrq s.1.priv).1, notifier := false }, .nobody) := by
  have hsnd : (wdogDeregisterIrq s.1.priv).2 = .rc 0 := by
    rw [wdogDeregisterIrq_snd, if_pos hput]
  simp [step, wdogStep, wdogDeregister, hc, WdogDev.call, hid, nextUser, hsnd]

/-- It does not return where the context cannot be put. -/
theorem step_deregister_oops (hc : r.copied = true) (hid : r.id = 0) (hput : ¬ CanPut s.1.priv) :
    (step s (.deregister r)).1 = ({ s.1 with priv := (wdogDeregisterIrq s.1.priv).1 }, s.2) := by
  have hsnd : (wdogDeregisterIrq s.1.priv).2 = .oops := by
    rw [wdogDeregisterIrq_snd, if_neg hput]
  simp [step, wdogStep, wdogDeregister, hc, WdogDev.call, hid, nextUser, hsnd]

/-- The worker leaves both flags and the user alone. -/
theorem step_worker (hif : Bool) :
    (step s (.worker hif)).1.1.wild = s.1.wild ∧ (step s (.worker hif)).1.1.uspaceRegistered = s.1.uspaceRegistered ∧
      (step s (.worker hif)).1.1.notifier = s.1.notifier ∧ (step s (.worker hif)).1.2 = s.2 := by
  have hwork : ∀ w, (modemWorker hif w).1.wild = w.wild ∧ (modemWorker hif w).1.uspaceRegistered = w.uspaceRegistered ∧
      (modemWorker hif w).1.notifier = w.notifier := by
    intro w
    simp only [modemWorker, wdogResetModemExt]
    split
    · split <;> exact ⟨rfl, rfl, rfl⟩
    · split
      · split <;> exact ⟨rfl, rfl, rfl⟩
      · exact ⟨rfl, rfl, rfl⟩
  by_cases hsched : s.1.scheduled = true
  · obtain ⟨hwild, huspace, hnotifier⟩ := hwork s.1
    simpa [step, wdogStep, hsched, nextUser] using ⟨hwild, huspace, hnotifier⟩
  · simp [step, wdogStep, hsched, nextUser]

/-- A registration keeps the agreement exactly if it registers a user, or one is
registered. -/
theorem agrees_register_iff (h : Agrees s) (r : Request) : Agrees (step s (.register r)).1 ↔ Keeps s (.register r) := by
  by_cases hc : r.copied = true
  · by_cases hid : r.id = 0
    · rw [step_register hc hid]
      constructor
      · intro h' _
        have huser : true = (if CanRegister r s.1.priv then .ofRequest r else s.2 : User).registered := h'.uspace
        refine ⟨hid, ?_⟩
        split at huser
        · next hcan => exact .inr hcan
        · exact .inl huser.symm
      · intro hk
        refine ⟨h.tame, ?_, rfl⟩
        show true = (if CanRegister r s.1.priv then .ofRequest r else s.2 : User).registered
        split
        · exact (User.registered_ofRequest r).symm
        · next hcan => exact ((hk hc).2.resolve_right hcan).symm
    · refine iff_of_false (fun h' => ?_) fun hk => hid (hk hc).1
      exact Bool.false_ne_true (h'.tame.symm.trans (step_wild hc hid).1)
  · rw [(step_refused hc).1]
    exact iff_of_true h fun hc' => absurd hc' hc

/-- A deregistration keeps the agreement exactly if nobody is registered, or it does not
return. -/
theorem agrees_deregister_iff (h : Agrees s) (r : Request) :
    Agrees (step s (.deregister r)).1 ↔ Keeps s (.deregister r) := by
  by_cases hc : r.copied = true
  · by_cases hid : r.id = 0
    · by_cases hput : CanPut s.1.priv
      · rw [step_deregister hc hid hput]
        constructor
        · intro h' _
          exact ⟨hid, .inl (h.uspace.symm.trans h'.uspace)⟩
        · intro hk
          have huser : s.2.registered = false := (hk hc).2.resolve_right (not_not.mpr hput)
          exact ⟨h.tame, h.uspace.trans huser, (h.uspace.trans huser).symm⟩
      · rw [step_deregister_oops hc hid hput]
        exact iff_of_true ⟨h.tame, h.uspace, h.notifier⟩ fun _ => ⟨hid, .inr hput⟩
    · refine iff_of_false (fun h' => ?_) fun hk => hid (hk hc).1
      exact Bool.false_ne_true (h'.tame.symm.trans (step_wild hc hid).2)
  · rw [(step_refused hc).2]
    exact iff_of_true h fun hc' => absurd hc' hc

/-- A step from agreement keeps it exactly if it keeps the users. -/
theorem agrees_step_iff (h : Agrees s) (i : Input) : Agrees (step s i).1 ↔ Keeps s i := by
  cases i with
  | register r => exact agrees_register_iff h r
  | deregister r => exact agrees_deregister_iff h r
  | irq =>
    refine iff_of_true ?_ trivial
    show Agrees (wdogIrqHandler s.1, s.2)
    unfold wdogIrqHandler
    split
    · exact h
    · exact ⟨h.tame, h.uspace, h.notifier⟩
  | resetModem status => exact iff_of_true ⟨h.tame, h.uspace, h.notifier⟩ trivial
  | setStatus status => exact iff_of_true ⟨h.tame, h.uspace, h.notifier⟩ trivial
  | setWarmup on => exact iff_of_true ⟨h.tame, h.uspace, h.notifier⟩ trivial
  | worker hif =>
    obtain ⟨hwild, huspace, hnotifier, huser⟩ := step_worker (s := s) hif
    refine iff_of_true ⟨hwild.trans h.tame, ?_, ?_⟩ trivial
    · rw [huspace, huser]
      exact h.uspace
    · rw [hnotifier, huspace]
      exact h.notifier

/-- Who is registered has the interrupt, and his context is in the record. -/
structure Signals (s : WdogDev × User) : Prop where
  agrees : Agrees s
  irq : s.2.registered = true → s.1.priv.irq ≠ 0 ∧ s.1.priv.irqStatus = true
  ctx : s.2 = .hasEventfd → s.1.priv.evtFdCtxt = .ctx
  null : s.2 = .waits → s.1.priv.evtFdCtxt = .null

/-- A step that leaves the record and the user alone keeps this. -/
theorem Signals.same {t : WdogDev × User} (h : Signals s) (hagrees : Agrees t) (hpriv : t.1.priv = s.1.priv)
    (huser : t.2 = s.2) : Signals t := by
  refine ⟨hagrees, ?_, ?_, ?_⟩ <;> rw [hpriv, huser]
  · exact h.irq
  · exact h.ctx
  · exact h.null

/-- The context of a registered user can be put. -/
theorem Signals.canPut (h : Signals s) (huser : s.2.registered = true) : CanPut s.1.priv := by
  cases hs : s.2 with
  | nobody =>
    rw [hs] at huser
    cases huser
  | waits => exact .inl (h.null hs)
  | hasEventfd => exact .inr (h.ctx hs)

/-- While a user is registered every registration with an eventfd succeeds. -/
theorem Signals.canRegister (h : Signals s) (huser : s.2.registered = true)
    (hfile : 0 < r.eventfd → r.file = .eventfd) : CanRegister r s.1.priv := by
  obtain ⟨hirq, hstatus⟩ := h.irq huser
  refine ⟨hirq, .inl hstatus, fun hpos => ?_⟩
  rw [hfile hpos]
  decide

theorem signals_step (h : Signals s) {i : Input} (hk : Keeps s i) (hfile : NamesEventfd i) :
    Signals (step s i).1 := by
  have hagrees : Agrees (step s i).1 := (agrees_step_iff h.agrees i).mpr hk
  cases i with
  | register r =>
    by_cases hc : r.copied = true
    · have hcan : CanRegister r s.1.priv :=
        (hk hc).2.elim (fun huser => h.canRegister huser (hfile hc)) id
      obtain ⟨hirq, hstatus, hctx⟩ := wdogRegisterIrq_of_canRegister hcan (hfile hc)
      rw [step_register hc (hk hc).1] at hagrees ⊢
      rw [if_pos hcan] at hagrees ⊢
      refine ⟨hagrees, fun _ => ⟨fun h0 => hcan.1 (hirq.symm.trans h0), hstatus⟩, fun huser => ?_, fun huser => ?_⟩
      · rw [hctx, if_pos]
        by_contra hno
        rw [User.ofRequest, if_neg hno] at huser
        cases huser
      · rw [hctx, if_neg]
        intro hpos
        rw [User.ofRequest, if_pos hpos] at huser
        cases huser
    · rw [(step_refused hc).1]
      exact h
  | deregister r =>
    by_cases hc : r.copied = true
    · by_cases hput : CanPut s.1.priv
      · rw [step_deregister hc (hk hc).1 hput] at hagrees ⊢
        exact ⟨hagrees, nofun, nofun, nofun⟩
      · -- nobody is registered, and the call does not return
        rw [step_deregister_oops hc (hk hc).1 hput] at hagrees ⊢
        have huser : s.2 = .nobody := by
          by_contra hne
          exact hput (h.canPut (by simpa [User.registered] using hne))
        refine ⟨hagrees, ?_, ?_, ?_⟩ <;> rw [huser] <;> nofun
    · rw [(step_refused hc).2]
      exact h
  | irq =>
    refine h.same hagrees ?_ rfl
    show (wdogIrqHandler s.1).priv = s.1.priv
    unfold wdogIrqHandler
    split <;> rfl
  | resetModem status => exact h.same hagrees rfl rfl
  | setStatus status => exact h.same hagrees rfl rfl
  | setWarmup on => exact h.same hagrees rfl rfl
  | worker hif =>
    have huser : (step s (.worker hif)).1.2 = s.2 := (step_worker hif).2.2.2
    by_cases hreg : s.2.registered = true
    · refine h.same hagrees ?_ huser
      have huspace : s.1.uspaceRegistered = true := h.agrees.uspace.trans hreg
      simp only [step, wdogStep, modemWorker, huspace, if_true]
      split
      · split <;> rfl
      · rfl
    · have hnobody : s.2 = .nobody := by simpa [User.registered] using hreg
      refine ⟨hagrees, ?_, ?_, ?_⟩ <;> rw [huser, hnobody] <;> nofun

/-- Then the worker does what it owes the event. -/
theorem serves_of_signals (h : Signals s) (hif : Bool) (hsched : s.1.scheduled = true) :
    ∃ a, (step s (.worker hif)).2 = .worked a ∧ Serves s hif a := by
  refine ⟨(modemWorker hif s.1).2, by simp [step, wdogStep, hsched], ?_⟩
  unfold Serves modemWorker
  simp only [h.agrees.uspace]
  cases hs : s.2 with
  | hasEventfd => simp [User.registered, h.ctx hs]
  | waits => simp [User.registered, h.null hs]
  | nobody =>
    have hstatus : workerStatus hif s.1.modemStatus = .hsdcsErr ↔ hif = false ∧ s.1.modemStatus = .hsdcsErr := by
      unfold workerStatus
      cases hif <;> cases s.1.modemStatus <;> decide
    have hnobody : ¬ (User.nobody.registered = true) := nofun
    rw [if_neg hnobody]
    simp only [hstatus]
    split
    · rfl
    · rfl

end Step

/-! ### Runs -/

theorem agrees_probed (irq : ℤ) (c : Ctxt) (warmup : Bool) : Agrees (.probed irq c warmup, .nobody) := ⟨rfl, rfl, rfl⟩

/-- **The driver knows who is registered in every state of a run exactly if no user
goes and none is registered in vain; and if then every descriptor that is registered
names an eventfd, every run of the worker serves its event.** -/
theorem delivered (irq : ℤ) (c : Ctxt) (warmup : Bool) (is : List Input) :
    ((∀ pre, pre <+: is → Agrees (exec step (.probed irq c warmup, .nobody) pre)) ↔
      Guarded step Keeps (.probed irq c warmup, .nobody) is) ∧
    (Guarded step Keeps (.probed irq c warmup, .nobody) is → (∀ i ∈ is, NamesEventfd i) →
      ∀ pre hif, pre ++ [.worker hif] <+: is → (exec step (.probed irq c warmup, .nobody) pre).1.scheduled = true →
        ∃ a, (step (exec step (.probed irq c warmup, .nobody) pre) (.worker hif)).2 = .worked a ∧
          Serves (exec step (.probed irq c warmup, .nobody) pre) hif a) := by
  constructor
  · exact inv_iff_guarded (I := Agrees) (J := fun _ => True) (G := Keeps) (fun _ _ _ _ => trivial)
      (fun s i _ h => agrees_step_iff h i) is trivial (agrees_probed irq c warmup)
  · intro hg hfile pre hif hpre hsched
    have hpre' : pre <+: is := (List.prefix_append pre _).trans hpre
    have hboth : Guarded step (fun s i => Keeps s i ∧ NamesEventfd i) (.probed irq c warmup, .nobody) pre :=
      guarded_and (hg.initial hpre') fun i hi => hfile i (hpre'.subset hi)
    have hsig : Signals (exec step (.probed irq c warmup, .nobody) pre) :=
      exec_inv_of_guarded (I := Signals) (fun s i h hk => signals_step h hk.1 hk.2) pre
        ⟨agrees_probed irq c warmup, nofun, nofun, nofun⟩ hboth
    exact serves_of_signals hsig hif hsched

/-- A request with an event descriptor. -/
def aRequest : Request := ⟨true, 0, 5, .eventfd, 0⟩

/-- A user who stays hears of an interrupt. -/
theorem delivered_user :
    Serves (exec step (.probed 80 .unset false, .nobody) [.register aRequest, .setStatus .ready, .irq]) false .signal := by
  obtain ⟨a, ha, hserves⟩ := (delivered 80 .unset false
    [.register aRequest, .setStatus .ready, .irq, .worker false]).2 (by decide) (by decide)
    [.register aRequest, .setStatus .ready, .irq] false (by decide) (by decide)
  obtain rfl : .signal = a := by
    have hsignal : (step (exec step (.probed 80 .unset false, .nobody)
      [.register aRequest, .setStatus .ready, .irq]) (.worker false)).2 = .worked .signal := by decide
    exact Output.worked.inj (hsignal.symm.trans ha)
  exact hserves

/-- After a user has gone the driver still takes him for registered: the device is
not reset after a HSDCS error, and the empty wait queue is woken. -/
theorem user_gone_still_notified :
    ¬ (∀ is : List Input, Agrees (exec step (.probed 80 .null false, .nobody) is)) ∧
    (step (exec step (.probed 80 .null false, .nobody)
      [.register aRequest, .deregister aRequest, .resetModem .hsdcsErr]) (.worker false)).2 = .worked .wake := by
  constructor
  · intro h
    have hgone := h [.register aRequest, .deregister aRequest]
    revert hgone
    decide
  · decide

end Wdog
end La12xx
