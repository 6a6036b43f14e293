/-
# Waiting for the modem

A reader of events enters `tvd_wq` and goes to sleep; an event sets its flag and wakes
the queue. A call that asks for a temperature posts its request, enters `tvd_temp_wq`
and goes to sleep for two seconds; an answer wakes the queue. Neither looks, after it
has entered, whether what it waits for is already there. The waiting itself is
`Lib/WaitQueue`; here are the two waiters of the driver (`reader_views`, `call_views`).

A reader sleeps on a pending event exactly if the event was pending when it entered
and nothing woke it before `schedule()`. A call reports a time-out after its answer has
come exactly if the answer came before it entered, and nothing woke it later, or if it is
woken and does not run again in time (`no_event_missed`).
-/
import La12xx.Lib.WaitQueue
import La12xx.Tvd.Driver

namespace La12xx
namespace Tvd

open Machine WaitQueue

/-! ### The reader -/

/-- An event of the modem is set and not fetched. -/
def flagSet (i : Modem) (s : Driver) : Bool :=
  (s.priv i).ctdEventFlag = 1 || (s.priv i).mtdEventFlag = 1 || (s.priv i).rtdEventFlag = 1

/-- The driver and one reader: where it waits, whether an event was pending when it
entered, and its call. -/
structure Reader where
  drv : Driver
  phase : Phase
  atEnqueue : Bool
  path : Path
  site : Site

/-- A callback of the host, an interrupt of a modem, which also writes its memory; and
the steps of the reader. A signal wakes it, too. -/
inductive Move where
  | ctd (thermalEventId temp : ℤ)
  | irq (j : Modem)
  | write (j : Modem) (h : Hif)
  | enqueue (path : Path) (site : Site)
  | schedule
  | signal
  | consume

section Reader

variable (u : Platform) (i : Modem)

/-- Modem `i` is the one the reader has called for. -/
def Reader.step (r : Reader) : Move → Reader × Option Report
  | .ctd thermalEventId temp =>
    ({ r with
        drv := ctdCbk thermalEventId temp r.drv
        phase := if r.drv.present i then r.phase.wake else r.phase }, none)
  | .irq j => ({ r with drv := tvdIrqHandler j r.drv, phase := if j = i then r.phase.wake else r.phase }, none)
  | .write j h => ({ r with drv := r.drv.setHif j h }, none)
  | .enqueue path site =>
    if r.phase = .out then
      ({ r with phase := .queued, atEnqueue := flagSet i r.drv, path := path, site := site }, none)
    else (r, none)
  | .schedule => (if r.phase = .queued then { r with phase := .asleep } else r, none)
  | .signal => ({ r with phase := r.phase.wake }, none)
  | .consume =>
    if r.phase = .woken then
      let out := Op.run u i r.drv (.take r.path r.site)
      ({ r with drv := out.1, phase := .out }, some out.2)
    else (r, none)

/-- The reader as a waiter for its flags. -/
def Reader.view (r : Reader) : Waiter := ⟨r.phase, flagSet i r.drv, r.atEnqueue⟩

/-- What a move is for the waiter. -/
def Reader.act (r : Reader) : Move → Option Act
  | .ctd _ _ => if r.drv.present i then some .raise else none
  | .irq j => if j = i then some .raise else none
  | .write _ _ => none
  | .enqueue _ _ => some .enqueue
  | .schedule => some .sleep
  | .signal => some .wake
  | .consume => some (.leave (flagSet i (Op.run u i r.drv (.take r.path r.site)).1))

variable {u i}

theorem flagSet_ctdCbk (s : Driver) (thermalEventId temp : ℤ) :
    flagSet i (ctdCbk thermalEventId temp s) = if s.present i then true else flagSet i s := by
  unfold flagSet ctdCbk
  split <;> simp [*]

theorem flagSet_irq (s : Driver) (j : Modem) :
    flagSet i (tvdIrqHandler j s) = if j = i then true else flagSet i s := by
  unfold flagSet tvdIrqHandler
  by_cases hj : j = i
  · subst hj
    simp
  · have hi : i ≠ j := fun he => hj he.symm
    simp [hj, Driver.setPriv_of_ne s hi]

theorem reader_views : Views (Reader.view i) (Reader.act u i) (Reader.step u i) := by
  intro r m
  cases m with
  | ctd thermalEventId temp =>
    simp only [Reader.step, Reader.view, Reader.act, flagSet_ctdCbk]
    split <;> rfl
  | irq j =>
    simp only [Reader.step, Reader.view, Reader.act, flagSet_irq]
    split <;> rfl
  | write j h => rfl
  | enqueue path site =>
    simp only [Reader.step, Reader.act, Option.elim_some, Waiter.next, Reader.view]
    split <;> rfl
  | schedule =>
    simp only [Reader.step, Reader.act, Option.elim_some, Waiter.next, Reader.view]
    split <;> rfl
  | signal => rfl
  | consume =>
    simp only [Reader.step, Reader.act, Option.elim_some, Waiter.next, Reader.view]
    split <;> rfl

end Reader

/-! ### The call that asks for a temperature -/

/-- The driver and one call of `mtd_get_temp`: whether it has asked, where it waits,
whether its time is running, whether an answer has come since it asked and had come
when it entered, and once its time is up whether an answer had come by then. -/
structure TempCall where
  drv : Driver
  asked : Bool
  phase : Phase
  started : Bool
  answered : Bool
  atEnqueue : Bool
  expired : Option Bool

/-- An answer's interrupt, which any call may have caused; what others do to the
driver; and the steps of the call. Its time runs from `schedule_timeout()` on. -/
inductive TempMove where
  | ask (irqRc : ℤ)
  | answer
  | others (s : Driver)
  | enqueue
  | schedule
  | signal
  | expire
  | finish (site : Site) (remain : ℕ)

/-- How a call ends: whether it reports a time-out, and whether an answer had come when
its time was up. -/
structure Ended where
  timedOut : Bool
  answered : Bool
deriving DecidableEq, Repr

namespace TempCall

/-- The time of the call is running. -/
def Running (c : TempCall) : Prop := c.started = true ∧ c.expired = none ∧ (c.phase = .asleep ∨ c.phase = .woken)

instance (c : TempCall) : Decidable c.Running := inferInstanceAs (Decidable (_ ∧ _))

section Step

variable (u : Platform) (i : Modem)

/-- A call that does not get its interrupt ends where it asks. -/
def step (c : TempCall) : TempMove → TempCall × Option Ended
  | .ask irqRc =>
    if c.asked = false ∧ c.phase = .out then
      ({ c with
        drv := (Op.run u i c.drv (.mtdAsk irqRc)).1
        asked := (requestTempIrq irqRc (c.drv.priv i)).isOk
        answered := false }, none)
    else (c, none)
  | .answer => ({ c with answered := true, phase := c.phase.wake }, none)
  | .others s => ({ c with drv := s }, none)
  | .enqueue =>
    if c.asked = true ∧ c.phase = .out then ({ c with phase := .queued, atEnqueue := c.answered }, none) else (c, none)
  | .schedule =>
    (if c.phase = .queued then { c with phase := .asleep, started := true }
      else if c.phase = .woken then { c with started := true }
      else c, none)
  | .signal => ({ c with phase := c.phase.wake }, none)
  | .expire => (if c.Running then { c with phase := .woken, expired := some c.answered } else c, none)
  | .finish site remain =>
    if c.phase = .woken ∧ c.started = true then
      let timeRemain := if c.expired.isSome then 0 else remain + 1
      ({ c with
        drv := (Op.run u i c.drv (.mtdAnswer site timeRemain)).1
        asked := false
        phase := .out
        started := false
        answered := false
        expired := none }, some ⟨timeRemain = 0, c.expired = some true⟩)
    else (c, none)

/-- The call as a waiter for its answer. -/
def view (c : TempCall) : Waiter := ⟨c.phase, c.answered, c.atEnqueue⟩

/-- What a move is for the waiter. -/
def act (c : TempCall) : TempMove → Option Act
  | .ask _ => if c.asked = false ∧ c.phase = .out then some (.change false) else none
  | .answer => some .raise
  | .others _ => none
  | .enqueue => if c.asked = true then some .enqueue else none
  | .schedule => some .sleep
  | .signal => some .wake
  | .expire => if c.Running then some .wake else none
  | .finish _ _ => if c.started = true then some (.leave false) else none

/-- Its time is up although an answer has come. -/
def Late (c : TempCall) : Prop := c.expired = some true

/-- The time of a sleeping call is up only if no answer had come when it entered, that
of a woken one only if no answer has come. -/
def InTime (c : TempCall) (m : TempMove) : Prop :=
  m = .expire → c.Running → (c.phase = .asleep → c.atEnqueue = false) ∧ (c.phase = .woken → c.answered = false)

instance (c : TempCall) : ∀ m, Decidable (c.InTime m)
  | .expire =>
    decidable_of_iff (c.Running → (c.phase = .asleep → c.atEnqueue = false) ∧ (c.phase = .woken → c.answered = false))
      (by simp [InTime])
  | .ask _ | .answer | .others _ | .enqueue | .schedule | .signal | .finish _ _ => isTrue fun h => by cases h

end Step

variable {u : Platform} {i : Modem} {c : TempCall}

theorem call_views : Views view act (step u i) := by
  intro c m
  cases m with
  | ask irqRc =>
    simp only [step, act]
    split
    · next h => simp [view, Waiter.next, h.2]
    · rfl
  | answer => rfl
  | others s => rfl
  | enqueue =>
    simp only [step, act]
    by_cases ha : c.asked = true
    · simp only [ha, true_and, if_true, Option.elim_some, Waiter.next, view]
      split <;> rfl
    · simp [ha]
  | schedule =>
    simp only [step, act, Option.elim_some, Waiter.next, view]
    split
    · rfl
    · split <;> rfl
  | signal => rfl
  | expire =>
    simp only [step, act]
    split
    · next h =>
      rcases h.2.2 with hp | hp <;> simp [view, Waiter.next, Phase.wake, hp]
    · rfl
  | finish site remain =>
    simp only [step, act]
    by_cases hs : c.started = true
    · simp only [hs, and_true, if_true, Option.elim_some, Waiter.next, view]
      split <;> rfl
    · simp [hs]

/-- A step makes the call late only when its time is up. -/
theorem late_step_iff (hf : c.view.Fresh) (hl : ¬ c.Late) (m : TempMove) : ¬ (step u i c m).1.Late ↔ c.InTime m := by
  cases m with
  | expire =>
    unfold InTime
    simp only [step, forall_const]
    split
    · next hr =>
      have hlate : ¬ ({ c with phase := .woken, expired := some c.answered } : TempCall).Late ↔ c.answered = false := by
        simp [Late]
      rw [hlate]
      rcases hr.2.2 with hp | hp
      · have hfresh : c.answered = c.atEnqueue := hf (.inr hp)
        simp [hr, hp, hfresh]
      · simp [hr, hp]
    · next hr => exact iff_of_true hl fun h => absurd h hr
  | ask irqRc =>
    refine iff_of_true ?_ fun h => by cases h
    simp only [step]
    split <;> exact hl
  | answer | others s | signal => exact iff_of_true hl fun h => by cases h
  | enqueue =>
    refine iff_of_true ?_ fun h => by cases h
    simp only [step]
    split <;> exact hl
  | schedule =>
    refine iff_of_true ?_ fun h => by cases h
    simp only [step]
    split
    · exact hl
    · split <;> exact hl
  | finish site remain =>
    refine iff_of_true ?_ fun h => by cases h
    simp only [step]
    split
    · exact fun h => by cases h
    · exact hl

/-- A call that is not late reports no time-out after its answer. -/
theorem ended_of_not_late (hl : ¬ c.Late) (m : TempMove) : ∀ e ∈ (step u i c m).2, e.answered = false := by
  cases m with
  | finish site remain =>
    simp only [step]
    split
    · simpa [Late] using hl
    · exact fun e he => by cases he
  | ask irqRc | enqueue =>
    simp only [step]
    split <;> exact fun e he => by cases he
  | answer | others s | schedule | signal | expire => exact fun e he => by cases he

end TempCall

/-! ### Runs -/

/-- The reader does not go to sleep unwoken after it entered with an event pending. -/
def Reader.Alert (r : Reader) (m : Move) : Prop := m = .schedule → r.phase = .queued → r.atEnqueue = false

instance (r : Reader) : ∀ m, Decidable (r.Alert m)
  | .schedule => decidable_of_iff (r.phase = .queued → r.atEnqueue = false) (by simp [Reader.Alert])
  | .ctd _ _ | .irq _ | .write _ _ | .enqueue _ _ | .signal | .consume => isTrue fun h => by cases h

theorem reader_alert_iff {u : Platform} {i : Modem} (r : Reader) (m : Move) :
    (∀ a ∈ Reader.act u i r m, (Reader.view i r).Alert a) ↔ r.Alert m := by
  cases m with
  | schedule =>
    unfold Reader.act Reader.Alert Waiter.Alert Reader.view
    simp
  | ctd thermalEventId temp =>
    refine iff_of_true ?_ fun h => by cases h
    simp only [Reader.act, Waiter.Alert]
    split <;> simp
  | irq j =>
    refine iff_of_true ?_ fun h => by cases h
    simp only [Reader.act, Waiter.Alert]
    split <;> simp
  | write j h => exact iff_of_true (fun a ha => by cases ha) fun h => by cases h
  | enqueue path site | signal | consume =>
    refine iff_of_true ?_ fun h => by cases h
    unfold Reader.act Waiter.Alert
    simp

/-- **In a run a reader never sleeps on a pending event exactly if it never goes to
sleep unwoken after it entered with one pending; and no call's time is up after its
answer exactly if it is so of calls that sleep and had their answer when they entered
or are woken and have it.** -/
theorem no_event_missed (u : Platform) (i : Modem) :
    (∀ (r : Reader) (ms : List Move), r.phase = .out →
      ((∀ pre, pre <+: ms → ¬ ((exec (Reader.step u i) r pre).phase = .asleep ∧
          flagSet i (exec (Reader.step u i) r pre).drv = true)) ↔
        Guarded (Reader.step u i) Reader.Alert r ms)) ∧
    ∀ (c : TempCall) (ms : List TempMove), c.phase = .out → c.expired = none →
      ((∀ pre, pre <+: ms → ¬ (exec (TempCall.step u i) c pre).Late) ↔
        Guarded (TempCall.step u i) TempCall.InTime c ms) ∧
      (Guarded (TempCall.step u i) TempCall.InTime c ms →
        ∀ p ∈ outs (TempCall.step u i) c ms, ∀ e ∈ p.2, e.timedOut = true → e.answered = false) := by
  constructor
  · intro r ms hout
    have hfresh : (Reader.view i r).Fresh := fun h => absurd h (by simp [Reader.view, hout])
    have hmissed : ¬ (Reader.view i r).Missed := fun h => absurd (hout.symm.trans h.1) (by decide)
    have hruns := reader_views (u := u) |>.not_missed_iff_guarded ms hfresh hmissed
    simp only [reader_alert_iff] at hruns
    exact hruns
  · intro c ms hout hexpired
    have hfresh : c.view.Fresh := fun h => absurd h (by simp [TempCall.view, hout])
    have hlate : ¬ c.Late := fun h => by cases hexpired.symm.trans h
    have hruns := inv_iff_guarded (I := fun c => ¬ TempCall.Late c) (J := fun c => (TempCall.view c).Fresh)
      (fun c m hf _ => (TempCall.call_views (u := u) (i := i)).fresh_step hf m)
      (fun c m hf hl => TempCall.late_step_iff hf hl m) ms hfresh hlate
    refine ⟨hruns, fun hg p hp e he _ => ?_⟩
    obtain ⟨js, hjs, hend⟩ := exists_of_mem_outs hp
    rw [hend] at he
    exact TempCall.ended_of_not_late (hruns.mpr hg js ((List.prefix_append js _).trans hjs)) p.1 e he

/-- The reader of the second modem enters, an event comes, and then it goes to sleep. -/
def eventInTime : List Move := [.enqueue .ioctl .vspaTemp, .irq .second, .schedule, .consume]

/-- A reader, out of the queue. -/
def idleReader : Reader := ⟨quiet, .out, false, .ioctl, .vspaTemp⟩

/-- A call that has not asked. -/
def idleCall : TempCall := ⟨quiet.setPriv .second { Priv.zero with irqTemp := 40 }, false, .out, false, false, false, none⟩

/-- A call whose answer comes while it is in the queue. -/
def answerInTime : List TempMove := [.ask 0, .enqueue, .answer, .schedule, .finish .vspaTemp 7]

/-- A call whose answer comes before it is in the queue. -/
def answerTooEarly : List TempMove := [.ask 0, .answer, .enqueue, .schedule, .expire, .finish .vspaTemp 0]

theorem no_event_missed_in_time :
    (∀ pre, pre <+: eventInTime → ¬ ((exec (Reader.step bytes .second) idleReader pre).phase = .asleep ∧
        flagSet .second (exec (Reader.step bytes .second) idleReader pre).drv = true)) ∧
      ∀ pre, pre <+: answerInTime → ¬ (exec (TempCall.step bytes .second) idleCall pre).Late :=
  ⟨((no_event_missed bytes .second).1 idleReader eventInTime rfl).mpr (by decide +kernel),
    ((no_event_missed bytes .second).2 idleCall answerInTime rfl rfl).1.mpr (by decide +kernel)⟩

/-- An event before the reader enters does not wake it, and an answer before the call
enters does not either. -/
theorem early_event_missed :
    (¬ ∀ (u : Platform) (i : Modem) (r : Reader) (ms : List Move), r.phase = .out →
      ¬ ((exec (Reader.step u i) r ms).phase = .asleep ∧ flagSet i (exec (Reader.step u i) r ms).drv = true)) ∧
    ¬ ∀ (u : Platform) (i : Modem) (c : TempCall) (ms : List TempMove), c.phase = .out → c.expired = none →
      ∀ p ∈ outs (TempCall.step u i) c ms, ∀ e ∈ p.2, e.timedOut = true → e.answered = false := by
  constructor
  · intro hall
    refine hall bytes .second idleReader [.irq .second, .enqueue .ioctl .vspaTemp, .schedule] rfl ⟨?_, ?_⟩
    · decide +kernel
    · decide +kernel
  · intro hall
    have hended : ∃ p ∈ outs (TempCall.step bytes .second) idleCall answerTooEarly, ⟨true, true⟩ ∈ p.2 := by
      decide +kernel
    obtain ⟨p, hp, he⟩ := hended
    have hanswered := hall bytes .second idleCall answerTooEarly rfl rfl p hp ⟨true, true⟩ he rfl
    exact absurd hanswered (by decide)

end Tvd
end La12xx
