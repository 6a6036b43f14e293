/-
# The temperature monitor

`hsdcs_tempmonitor` asks the firmware of each modem for a recalibration when its
temperature has moved far enough since the last one, or when a trigger flag is
set. The request is a dialogue over one word of the HIF, which the host polls a
fixed number of times; the caller does not learn how it ended, and records the
temperature and clears the flag in any case. The books are right in the runs in
which every request that changes a temperature is completed, and a trigger is
served for the only modem that has the recalibration enabled (`recal_books`).
-/
import La12xx.Lib.Machine

namespace La12xx
namespace Dcs

open Machine

/-- `MAX_MODEM` -/
def maxModem : ℕ := 4

/-- `HSDCS_DO_INC_RECAL` and `HSDCS_DO_FULL_RECAL` -/
inductive Kind where
  | inc
  | full
deriving DecidableEq, Repr

/-- `HSADC_EVENT_RECAL_*`, with one value for all others. -/
inductive Event where
  | requestedAnt0
  | requestedAnt1
  | requestedAnt01
  | failedAnt0
  | failedAnt1
  | failedAnt01
  | reqAckAnt0
  | reqAckAnt1
  | reqAckAnt01
  | reqDenied
  | completed
  | completed2
  | other
deriving DecidableEq, Repr

/-! ### One request -/

/-- What a request meets: what the modem has written before each poll, if anything,
whether the recalibration the host makes there succeeds, and the triggers that are
set while it lasts. -/
structure Dialog where
  modem : ℕ → Option Event
  recalOk : ℕ → Bool
  sets : Kind → Bool

/-- `HSDCS_TMON_RETRY_COUNT` -/
def retryCount : ℕ := 500

/-- The body of the polling loop counts as well as the loop does. -/
def polls : ℕ := retryCount / 2 + 1

/-- The word that asks for a recalibration. -/
def Kind.request : Kind → Event
  | .inc => .requestedAnt0
  | .full => .requestedAnt01

/-- The completion a word stands for. -/
def Event.ends : Event → Option Kind
  | .completed => some .inc
  | .completed2 => some .full
  | _ => none

/-- What the host writes after it has read a word: an acknowledged recalibration is
made, and its result is the next word. -/
def Event.reply (e : Event) (ok : Bool) : Event :=
  match e with
  | .reqAckAnt0 => if ok then .requestedAnt1 else .failedAnt0
  | .reqAckAnt1 => if ok then .completed else .failedAnt1
  | .reqAckAnt01 => if ok then .completed2 else .failedAnt01
  | e => e

/-- The polling loop of `hsdcs_raise_modem_cal_req`, from poll `n` on. It returns when
it reads a completion. -/
def poll (D : Dialog) : ℕ → ℕ → Event → Option Kind
  | 0, _, _ => none
  | left + 1, n, word =>
    let eventidRcv := (D.modem n).getD word
    match eventidRcv.ends with
    | some k => some k
    | none => poll D left (n + 1) (eventidRcv.reply (D.recalOk n))

/-- `hsdcs_raise_modem_cal_req`, and the completion it has seen. -/
def hsdcsRaiseModemCalReq (D : Dialog) (caltype : Kind) : Option Kind := poll D polls 0 caltype.request

/-! ### The monitor -/

/-- A modem: `hsdcs_inc_recal_enabled` and `hsdcs_full_recal_enabled`, and
`ihsdcs_lastime_inc_cal_temp` and `ihsdcs_lastime_full_cal_temp`. -/
structure Modem where
  present : Bool
  enabled : Kind → Bool
  lastTemp : Kind → ℤ
  currentTemp : ℤ

/-- The modems, `hsdcs_tmon_modem_trigger_inc_recal` and
`hsdcs_tmon_modem_trigger_full_recal`. -/
structure Monitor where
  modems : Fin maxModem → Modem
  trig : Kind → Bool

/-- `THRESHOLD_INCREMENTAL_RECAL` and `THRESHOLD_FULL_RECAL` -/
def Kind.threshold : Kind → ℤ
  | .inc => 30
  | .full => 70

/-- `hsdcs_get_curr_temperature`: the sensor may fail, and values outside the
supported range are refused. -/
def hsdcsGetCurrTemperature (sensor : Option ℤ) : Option ℤ := sensor.filter fun t => -30 ≤ t ∧ t ≤ 105

/-- A recalibration of kind `k` sets the temperature of kind `k'` too. -/
def Kind.Sets (k k' : Kind) : Prop := k = .full ∨ k' = k

instance (k k' : Kind) : Decidable (k.Sets k') := inferInstanceAs (Decidable (k = .full ∨ k' = k))

/-- The monitor asks modem `i` for a recalibration of kind `k` at the temperature `t`. -/
def Monitor.Asks (s : Monitor) (k : Kind) (i : Fin maxModem) (t : ℤ) : Prop :=
  (s.modems i).enabled k = true ∧ (t ≠ (s.modems i).lastTemp k ∨ s.trig k = true) ∧
    (k.threshold ≤ |t - (s.modems i).lastTemp k| ∨ s.trig k = true)

instance (s : Monitor) (k : Kind) (i : Fin maxModem) (t : ℤ) : Decidable (s.Asks k i t) :=
  inferInstanceAs (Decidable ((s.modems i).enabled k = true ∧ (t ≠ (s.modems i).lastTemp k ∨ s.trig k = true) ∧
    (k.threshold ≤ |t - (s.modems i).lastTemp k| ∨ s.trig k = true)))

def Monitor.set (s : Monitor) (i : Fin maxModem) (m : Modem) : Monitor :=
  { s with modems := Function.update s.modems i m }

/-- After a request: the temperature is recorded and the flag cleared, however the
request ended. -/
def Monitor.recorded (s : Monitor) (k : Kind) (i : Fin maxModem) (t : ℤ) (D : Dialog) : Monitor :=
  { s.set i { s.modems i with lastTemp := fun k' => if k.Sets k' then t else (s.modems i).lastTemp k' } with
    trig := fun k' => if k' = k then false else s.trig k' || D.sets k' }

/-- One of the two checks of the monitor, with the request it makes. -/
def check (k : Kind) (i : Fin maxModem) (t : ℤ) (D : Dialog) (s : Monitor) : Monitor × List (Kind × Option Kind) :=
  if s.Asks k i t then (s.recorded k i t D, [(k, hsdcsRaiseModemCalReq D k)]) else (s, [])

/-- A round of the monitor for one modem: its sensor, and what the two requests
would meet. -/
structure Visit where
  modem : Fin maxModem
  sensor : Option ℤ
  full : Dialog
  inc : Dialog

/-- What happens: a modem is probed or removed, its recalibrations are enabled or
disabled, a trigger is set, or the monitor visits a modem. -/
inductive Input where
  | probe (i : Fin maxModem) (m : Modem)
  | remove (i : Fin maxModem)
  | enable (k : Kind) (i : Fin maxModem) (on : Bool)
  | trigger (k : Kind)
  | visit (v : Visit)

/-- The body of `hsdcs_tempmonitor` for one modem. -/
def visit (s : Monitor) (v : Visit) : Monitor × List (Kind × Option Kind) :=
  if (s.modems v.modem).present then
    match hsdcsGetCurrTemperature v.sensor with
    | none => (s, [])
    | some t =>
      let s := s.set v.modem { s.modems v.modem with currentTemp := t }
      let full := check .full v.modem t v.full s
      let inc := check .inc v.modem t v.inc full.1
      (inc.1, full.2 ++ inc.2)
  else (s, [])

def monitorStep (s : Monitor) : Input → Monitor × List (Kind × Option Kind)
  | .probe i m => (s.set i m, [])
  | .remove i => (s.set i { s.modems i with present := false }, [])
  | .enable k i on =>
    (s.set i { s.modems i with enabled := Function.update (s.modems i).enabled k on }, [])
  | .trigger k => ({ s with trig := Function.update s.trig k true }, [])
  | .visit v => visit s v

/-! ### Completion -/

section Dialog

variable (D : Dialog) (k : Kind)

/-- The word that poll `n` of a request reads, if none before it ended the request. -/
def Dialog.word : ℕ → Event
  | 0 => (D.modem 0).getD k.request
  | n + 1 => (D.modem (n + 1)).getD ((word n).reply (D.recalOk n))

/-- The first completion among the words of the polls is `o`. -/
def Dialog.Ends (o : Kind) : Prop :=
  ∃ n < polls, (D.word k n).ends = some o ∧ ∀ m < n, (D.word k m).ends = none

/-- The request completes a recalibration of kind `o`: a full one counts as an
incremental one. -/
def Dialog.Completes (o : Kind) : Prop :=
  match o with
  | .inc => D.Ends k .inc ∨ D.Ends k .full
  | .full => D.Ends k .full

/-- From poll `n` on the loop finds the first completion among the words. -/
theorem poll_eq_some_iff {o : Kind} : ∀ (left n : ℕ) (word : Event), (D.modem n).getD word = D.word k n →
    (poll D left n word = some o ↔
      ∃ j < left, (D.word k (n + j)).ends = some o ∧ ∀ m < j, (D.word k (n + m)).ends = none)
  | 0, n, word, _ => by simp [poll]
  | left + 1, n, word, hword => by
    have hnext : (D.modem (n + 1)).getD ((D.word k n).reply (D.recalOk n)) = D.word k (n + 1) := rfl
    rw [poll, hword]
    cases hends : (D.word k n).ends with
    | some k' =>
      constructor
      · intro h
        refine ⟨0, Nat.succ_pos left, ?_, fun m hm => absurd hm (Nat.not_lt_zero m)⟩
        exact hends.trans h
      · rintro ⟨j, hj, hend, hbefore⟩
        cases j with
        | zero => exact hends.symm.trans hend
        | succ j =>
          have hnone := hbefore 0 (Nat.succ_pos j)
          rw [Nat.add_zero, hends] at hnone
          cases hnone
    | none =>
      rw [poll_eq_some_iff left (n + 1) _ hnext]
      constructor
      · rintro ⟨j, hj, hend, hbefore⟩
        refine ⟨j + 1, Nat.succ_lt_succ hj, ?_, ?_⟩
        · rwa [Nat.add_assoc, Nat.add_comm 1] at hend
        · intro m hm
          cases m with
          | zero => exact hends
          | succ m =>
            have := hbefore m (Nat.lt_of_succ_lt_succ hm)
            rwa [Nat.add_assoc, Nat.add_comm 1] at this
      · rintro ⟨j, hj, hend, hbefore⟩
        cases j with
        | zero => simp [hends] at hend
        | succ j =>
          refine ⟨j, Nat.lt_of_succ_lt_succ hj, ?_, ?_⟩
          · rwa [Nat.add_assoc, Nat.add_comm 1]
          · intro m hm
            have := hbefore (m + 1) (Nat.succ_lt_succ hm)
            rwa [Nat.add_assoc, Nat.add_comm 1]

/-- A request has seen the completion it ends with. -/
theorem hsdcsRaiseModemCalReq_eq_iff {o : Kind} : hsdcsRaiseModemCalReq D k = some o ↔ D.Ends k o := by
  unfold hsdcsRaiseModemCalReq Dialog.Ends
  rw [poll_eq_some_iff D k polls 0 k.request rfl]
  simp only [Nat.zero_add]

/-- A completion that was seen counts as one of kind `k'`. -/
def Kind.Counts (k' : Kind) (o : Option Kind) : Prop :=
  match k' with
  | .inc => o.isSome = true
  | .full => o = some .full

instance (k' : Kind) (o : Option Kind) : Decidable (k'.Counts o) :=
  match k' with
  | .inc => inferInstanceAs (Decidable (o.isSome = true))
  | .full => inferInstanceAs (Decidable (o = some .full))

theorem counts_iff (k' : Kind) : k'.Counts (hsdcsRaiseModemCalReq D k) ↔ D.Completes k k' := by
  cases k' with
  | full => exact hsdcsRaiseModemCalReq_eq_iff D k
  | inc =>
    have hsome : ∀ o : Option Kind, o.isSome = true ↔ o = some .inc ∨ o = some .full := by
      rintro (_ | _ | _) <;> decide
    show (hsdcsRaiseModemCalReq D k).isSome = true ↔ D.Ends k .inc ∨ D.Ends k .full
    rw [hsome, hsdcsRaiseModemCalReq_eq_iff, hsdcsRaiseModemCalReq_eq_iff]

end Dialog

/-! ### The books -/

/-- What the books are held against: the temperature of each modem at its last
completed recalibration of each kind, and the modems not served since the trigger
of the kind was set. -/
structure Ledger where
  calTemp : Kind → Fin maxModem → ℤ
  unserved : Kind → Fin maxModem → Bool

/-- A modem is served when it is asked, or, to the `strict` reader, when its
recalibration is completed. A trigger set meanwhile is for everyone again. -/
def Ledger.asked (strict : Bool) (i : Fin maxModem) (t : ℤ) (D : Dialog) (g : Ledger) (r : Kind × Option Kind) : Ledger where
  calTemp k' j := if j = i ∧ r.1.Sets k' ∧ k'.Counts r.2 then t else g.calTemp k' j
  unserved k' j :=
    if D.sets k' then true
    else if k' = r.1 ∧ j = i ∧ (strict = true → r.1.Counts r.2) then false
    else g.unserved k' j

/-- A check of the monitor, with the books. -/
def bookCheck (strict : Bool) (k : Kind) (i : Fin maxModem) (t : ℤ) (D : Dialog) (p : Monitor × Ledger) :
    (Monitor × Ledger) × List (Kind × Option Kind) :=
  (((check k i t D p.1).1, (check k i t D p.1).2.foldl (Ledger.asked strict i t D) p.2), (check k i t D p.1).2)

/-- The state in which the first check of a visit is made. -/
def atVisit (p : Monitor × Ledger) (v : Visit) (t : ℤ) : Monitor × Ledger :=
  (p.1.set v.modem { p.1.modems v.modem with currentTemp := t }, p.2)

def bookVisit (strict : Bool) (p : Monitor × Ledger) (v : Visit) : (Monitor × Ledger) × List (Kind × Option Kind) :=
  if (p.1.modems v.modem).present then
    match hsdcsGetCurrTemperature v.sensor with
    | none => (p, [])
    | some t =>
      let full := bookCheck strict .full v.modem t v.full (atVisit p v t)
      let inc := bookCheck strict .inc v.modem t v.inc full.1
      (inc.1, full.2 ++ inc.2)
  else (p, [])

/-- The monitor, with the books. -/
def bookStep (strict : Bool) (p : Monitor × Ledger) : Input → (Monitor × Ledger) × List (Kind × Option Kind)
  | .visit v => bookVisit strict p v
  | .probe i m =>
    (((monitorStep p.1 (.probe i m)).1,
      { p.2 with calTemp := fun k => Function.update (p.2.calTemp k) i (m.lastTemp k) }), [])
  | .trigger k =>
    (((monitorStep p.1 (.trigger k)).1, { p.2 with unserved := Function.update p.2.unserved k fun _ => true }), [])
  | i => (((monitorStep p.1 i).1, p.2), [])

/-- The books do not change what the monitor does. -/
theorem bookStep_monitor (strict : Bool) (p : Monitor × Ledger) (i : Input) :
    (bookStep strict p i).1.1 = (monitorStep p.1 i).1 ∧ (bookStep strict p i).2 = (monitorStep p.1 i).2 := by
  cases i with
  | visit v =>
    simp only [bookStep, monitorStep, bookVisit, visit]
    split
    · split
      · exact ⟨rfl, rfl⟩
      · exact ⟨rfl, rfl⟩
    · exact ⟨rfl, rfl⟩
  | probe i m => exact ⟨rfl, rfl⟩
  | remove i => exact ⟨rfl, rfl⟩
  | enable k i on => exact ⟨rfl, rfl⟩
  | trigger k => exact ⟨rfl, rfl⟩

/-- The books of a device whose modems were calibrated when they were probed. -/
def Ledger.start (s : Monitor) : Ledger := ⟨fun k i => (s.modems i).lastTemp k, fun _ _ => true⟩

/-! ### What is asked of them -/

/-- A temperature changes only with a completed recalibration. -/
structure Honest (m m' : Modem) (out : List (Kind × Option Kind)) : Prop where
  full : m'.lastTemp .full ≠ m.lastTemp .full → ∃ r ∈ out, r.2 = some .full
  inc : m'.lastTemp .inc ≠ m.lastTemp .inc → ∃ r ∈ out, r.2.isSome = true

/-- A check that clears a flag leaves no modem unserved that has the recalibration
enabled. -/
def Served (strict : Bool) (k : Kind) (i : Fin maxModem) (t : ℤ) (D : Dialog) (p : Monitor × Ledger) : Prop :=
  p.1.Asks k i t → p.1.trig k = true ∨ D.sets k = true →
    ∀ j, (p.1.modems j).enabled k = true → (bookCheck strict k i t D p).1.2.unserved k j = false

/-- A visit asks while the temperature is far from the last recalibration. -/
def Insists (p : Monitor × Ledger) (v : Visit) (t : ℤ) (out : List (Kind × Option Kind)) : Prop :=
  ((p.1.modems v.modem).enabled .full = true → Kind.full.threshold ≤ |t - p.2.calTemp .full v.modem| →
    ∃ o, (.full, o) ∈ out) ∧
  ((p.1.modems v.modem).enabled .inc = true → Kind.inc.threshold ≤ |t - p.2.calTemp .inc v.modem| → out ≠ [])

/-- The monitor keeps its books in this step. -/
def RightBooks (strict : Bool) (p : Monitor × Ledger) : Input → Prop
  | .visit v =>
    (∀ j ≠ v.modem, (visit p.1 v).1.modems j = p.1.modems j) ∧
    Honest (p.1.modems v.modem) ((visit p.1 v).1.modems v.modem) (visit p.1 v).2 ∧
    ∀ t, (p.1.modems v.modem).present = true → hsdcsGetCurrTemperature v.sensor = some t →
      Served strict .full v.modem t v.full (atVisit p v t) ∧
      Served strict .inc v.modem t v.inc (bookCheck strict .full v.modem t v.full (atVisit p v t)).1 ∧
      Insists p v t (visit p.1 v).2
  | .probe i m => (∀ j ≠ i, (monitorStep p.1 (.probe i m)).1.modems j = p.1.modems j) ∧
    (monitorStep p.1 (.probe i m)).1.trig = p.1.trig
  | i => (∀ j, ((monitorStep p.1 i).1.modems j).lastTemp = (p.1.modems j).lastTemp) ∧
    ∀ k, p.1.trig k = true → (monitorStep p.1 i).1.trig k = true

/-! ### When they are right -/

/-- A request is completed where it changes a temperature, and a trigger is served
for the only modem that has the recalibration enabled, and not set again
meanwhile. -/
def CheckOk (strict : Bool) (k : Kind) (i : Fin maxModem) (t : ℤ) (D : Dialog) (s : Monitor) : Prop :=
  s.Asks k i t →
    (∀ k', k.Sets k' → t ≠ (s.modems i).lastTemp k' → D.Completes k k') ∧
    (s.trig k = true ∨ D.sets k = true →
      D.sets k = false ∧ (∀ j ≠ i, (s.modems j).enabled k = false) ∧ (strict = true → D.Completes k k))

def InputOk (strict : Bool) (p : Monitor × Ledger) : Input → Prop
  | .visit v => ∀ t, (p.1.modems v.modem).present = true → hsdcsGetCurrTemperature v.sensor = some t →
      CheckOk strict .full v.modem t v.full (atVisit p v t).1 ∧
      CheckOk strict .inc v.modem t v.inc (check .full v.modem t v.full (atVisit p v t).1).1
  | _ => True

/-- The temperatures are those of the last recalibrations. -/
def Books (p : Monitor × Ledger) : Prop := ∀ k i, (p.1.modems i).lastTemp k = p.2.calTemp k i

section Check

variable {strict : Bool} {k : Kind} {i : Fin maxModem} {t : ℤ} {D : Dialog} {p : Monitor × Ledger}

theorem check_of_asks {s : Monitor} (h : s.Asks k i t) :
    check k i t D s = (s.recorded k i t D, [(k, hsdcsRaiseModemCalReq D k)]) := if_pos h

theorem check_of_not_asks {s : Monitor} (h : ¬ s.Asks k i t) : check k i t D s = (s, []) := if_neg h

theorem Monitor.set_modems_self (s : Monitor) (i : Fin maxModem) (m : Modem) : (s.set i m).modems i = m :=
  Function.update_self ..

theorem Monitor.set_modems_of_ne (s : Monitor) {i j : Fin maxModem} (h : j ≠ i) (m : Modem) :
    (s.set i m).modems j = s.modems j := Function.update_of_ne h ..

theorem recorded_modems_self (s : Monitor) :
    ((s.recorded k i t D).modems i).lastTemp = fun k' => if k.Sets k' then t else (s.modems i).lastTemp k' := by
  show ((s.set i _).modems i).lastTemp = _
  rw [Monitor.set_modems_self]

theorem recorded_modems_of_ne (s : Monitor) {j : Fin maxModem} (h : j ≠ i) :
    (s.recorded k i t D).modems j = s.modems j := Monitor.set_modems_of_ne s h _

/-- A check that is as it should be keeps the books and serves whom it must. -/
theorem bookCheck_ok (h : Books p) (hok : CheckOk strict k i t D p.1) :
    Books (bookCheck strict k i t D p).1 ∧ Served strict k i t D p := by
  by_cases hasks : p.1.Asks k i t
  · obtain ⟨htemp, htrig⟩ := hok hasks
    constructor
    · intro k' j
      have hbook := h k' j
      simp only [bookCheck, check_of_asks hasks, List.foldl, Ledger.asked]
      by_cases hj : j = i
      · subst hj
        rw [recorded_modems_self]
        by_cases hsets : k.Sets k'
        · by_cases hcounts : k'.Counts (hsdcsRaiseModemCalReq D k)
          · simp [hsets, hcounts]
          · have hsame : t = (p.1.modems j).lastTemp k' := by
              by_contra hne
              exact hcounts ((counts_iff D k k').mpr (htemp k' hsets hne))
            simp only [hsets, hcounts, if_true, and_false, if_false]
            exact hsame.trans hbook
        · simpa [hsets] using hbook
      · rw [recorded_modems_of_ne _ hj]
        simpa [hj] using hbook
    · intro _ hflag j hj
      obtain ⟨hsets, hother, hcomp⟩ := htrig hflag
      have hji : j = i := by
        by_contra hne
        exact Bool.false_ne_true ((hother j hne).symm.trans hj)
      have hcounts : strict = true → k.Counts (hsdcsRaiseModemCalReq D k) := fun hs => (counts_iff D k k).mpr (hcomp hs)
      simp only [bookCheck, check_of_asks hasks, List.foldl, Ledger.asked]
      rw [if_neg (by simp [hsets]), if_pos ⟨trivial, hji, hcounts⟩]
  · refine ⟨?_, fun h' => absurd h' hasks⟩
    simpa [bookCheck, check_of_not_asks hasks] using h

end Check

/-! ### A visit -/

section Visit

variable {strict : Bool} {p : Monitor × Ledger} {v : Visit} {t : ℤ}

theorem books_atVisit (h : Books p) : Books (atVisit p v t) := by
  intro k i
  show ((p.1.set v.modem _).modems i).lastTemp k = p.2.calTemp k i
  by_cases hi : i = v.modem
  · subst hi
    rw [Monitor.set_modems_self]
    exact h k v.modem
  · rw [Monitor.set_modems_of_ne _ hi]
    exact h k i

/-- A visit of a modem whose temperature can be read. -/
theorem visit_of_temp {s : Monitor} (hp : (s.modems v.modem).present = true)
    (ht : hsdcsGetCurrTemperature v.sensor = some t) :
    visit s v =
      ((check .inc v.modem t v.inc (check .full v.modem t v.full (s.set v.modem { s.modems v.modem with currentTemp := t })).1).1,
        (check .full v.modem t v.full (s.set v.modem { s.modems v.modem with currentTemp := t })).2 ++
        (check .inc v.modem t v.inc (check .full v.modem t v.full (s.set v.modem { s.modems v.modem with currentTemp := t })).1).2) := by
  simp [visit, hp, ht]

/-- Any other does nothing. -/
theorem visit_of_none {s : Monitor}
    (h : ∀ t, (s.modems v.modem).present = true → hsdcsGetCurrTemperature v.sensor ≠ some t) : visit s v = (s, []) := by
  unfold visit
  split
  · next hp =>
    cases ht : hsdcsGetCurrTemperature v.sensor with
    | none => rfl
    | some t => exact absurd ht (h t hp)
  · rfl

theorem check_modems_of_ne {s : Monitor} {k : Kind} {i j : Fin maxModem} {D : Dialog} (hj : j ≠ i) :
    (check k i t D s).1.modems j = s.modems j := by
  unfold check
  split
  · exact recorded_modems_of_ne s hj
  · rfl

/-- Only the modem that is visited changes. -/
theorem visit_modems_of_ne {s : Monitor} {j : Fin maxModem} (hj : j ≠ v.modem) :
    (visit s v).1.modems j = s.modems j := by
  by_cases h : ∃ t, (s.modems v.modem).present = true ∧ hsdcsGetCurrTemperature v.sensor = some t
  · obtain ⟨t, hp, ht⟩ := h
    rw [visit_of_temp hp ht]
    show (check .inc v.modem t v.inc _).1.modems j = s.modems j
    rw [check_modems_of_ne hj, check_modems_of_ne hj, Monitor.set_modems_of_ne _ hj]
  · rw [visit_of_none fun t hp ht => h ⟨t, hp, ht⟩]

/-- The temperature of a kind after a check. -/
theorem check_lastTemp (s : Monitor) (k k' : Kind) (i : Fin maxModem) (D : Dialog) :
    ((check k i t D s).1.modems i).lastTemp k' = if s.Asks k i t ∧ k.Sets k' then t else (s.modems i).lastTemp k' := by
  by_cases hasks : s.Asks k i t
  · rw [check_of_asks hasks, recorded_modems_self]
    simp [hasks]
  · rw [check_of_not_asks hasks]
    simp [hasks]

/-- A temperature that a visit changes belongs to a completed recalibration. -/
theorem honest_visit (s : Monitor) (hfull : ∀ k', t ≠ (s.modems v.modem).lastTemp k' → s.Asks .full v.modem t →
      v.full.Completes .full k')
    (hinc : (check .full v.modem t v.full s).1.Asks .inc v.modem t →
      t ≠ ((check .full v.modem t v.full s).1.modems v.modem).lastTemp .inc → v.inc.Completes .inc .inc) :
    Honest (s.modems v.modem)
      ((check .inc v.modem t v.inc (check .full v.modem t v.full s).1).1.modems v.modem)
      ((check .full v.modem t v.full s).2 ++ (check .inc v.modem t v.inc (check .full v.modem t v.full s).1).2) := by
  have hnot : ¬ Kind.inc.Sets .full := by decide
  -- a request that was made is among the outputs
  have hmade : ∀ k', s.Asks .full v.modem t → v.full.Completes .full k' → ∃ r ∈
      (check .full v.modem t v.full s).2 ++ (check .inc v.modem t v.inc (check .full v.modem t v.full s).1).2,
      k'.Counts r.2 := by
    intro k' hasks hcomp
    refine ⟨(.full, hsdcsRaiseModemCalReq v.full .full), List.mem_append_left _ ?_, (counts_iff _ _ _).mpr hcomp⟩
    rw [check_of_asks hasks]
    exact List.mem_singleton.mpr rfl
  constructor
  · intro hne
    rw [check_lastTemp, if_neg (fun h => hnot h.2), check_lastTemp] at hne
    by_cases hasks : s.Asks .full v.modem t
    · rw [if_pos ⟨hasks, .inl rfl⟩] at hne
      exact hmade .full hasks (hfull .full hne hasks)
    · rw [if_neg fun h => hasks h.1] at hne
      exact absurd rfl hne
  · intro hne
    rw [check_lastTemp] at hne
    by_cases hasks : s.Asks .full v.modem t
    · have hlast : ((check .full v.modem t v.full s).1.modems v.modem).lastTemp .inc = t := by
        rw [check_lastTemp, if_pos ⟨hasks, .inl rfl⟩]
      rw [hlast, ite_self] at hne
      exact hmade .inc hasks (hfull .inc hne hasks)
    · have hlast : ((check .full v.modem t v.full s).1.modems v.modem).lastTemp .inc =
          (s.modems v.modem).lastTemp .inc := by
        rw [check_lastTemp, if_neg fun h => hasks h.1]
      by_cases hasks' : (check .full v.modem t v.full s).1.Asks .inc v.modem t
      · rw [if_pos ⟨hasks', .inr rfl⟩] at hne
        have hcomp := hinc hasks' (by rwa [hlast])
        refine ⟨(.inc, hsdcsRaiseModemCalReq v.inc .inc), List.mem_append_right _ ?_, (counts_iff v.inc .inc .inc).mpr hcomp⟩
        rw [check_of_asks hasks']
        exact List.mem_singleton.mpr rfl
      · rw [if_neg fun h => hasks' h.1, hlast] at hne
        exact absurd rfl hne

/-- Far from the last recalibration the monitor asks. -/
theorem asks_of_far {s : Monitor} {k : Kind} {i : Fin maxModem} (hen : (s.modems i).enabled k = true)
    (hfar : k.threshold ≤ |t - (s.modems i).lastTemp k|) : s.Asks k i t := by
  have hpos : 0 < k.threshold := by
    cases k <;> decide
  refine ⟨hen, .inl ?_, .inl hfar⟩
  intro heq
  rw [heq, sub_self, abs_zero] at hfar
  exact absurd hfar (not_le.mpr hpos)

theorem atVisit_modem : ((atVisit p v t).1.modems v.modem) = { p.1.modems v.modem with currentTemp := t } :=
  Monitor.set_modems_self ..

theorem insists_visit (h : Books p) (hp : (p.1.modems v.modem).present = true)
    (ht : hsdcsGetCurrTemperature v.sensor = some t) : Insists p v t (visit p.1 v).2 := by
  have hmodem : (atVisit p v t).1.modems v.modem = { p.1.modems v.modem with currentTemp := t } := atVisit_modem
  have hasks : ∀ k, (p.1.modems v.modem).enabled k = true → k.threshold ≤ |t - p.2.calTemp k v.modem| →
      (atVisit p v t).1.Asks k v.modem t := by
    intro k hen hfar
    apply asks_of_far
    · rw [hmodem]
      exact hen
    · rw [hmodem, h k v.modem]
      exact hfar
  rw [visit_of_temp hp ht]
  constructor
  · intro hen hfar
    refine ⟨hsdcsRaiseModemCalReq v.full .full, List.mem_append_left _ ?_⟩
    show _ ∈ (check .full v.modem t v.full (atVisit p v t).1).2
    rw [check_of_asks (hasks .full hen hfar)]
    exact List.mem_singleton.mpr rfl
  · intro hen hfar hnil
    obtain ⟨hfull, hinc⟩ := List.append_eq_nil_iff.mp hnil
    by_cases hfullAsks : (atVisit p v t).1.Asks .full v.modem t
    · change (check .full v.modem t v.full (atVisit p v t).1).2 = [] at hfull
      rw [check_of_asks hfullAsks] at hfull
      cases hfull
    · change (check .inc v.modem t v.inc (check .full v.modem t v.full (atVisit p v t).1).1).2 = [] at hinc
      rw [check_of_not_asks hfullAsks, check_of_asks (hasks .inc hen hfar)] at hinc
      cases hinc

end Visit

/-! ### Runs -/

section Run

variable {strict : Bool} {p : Monitor × Ledger}

theorem bookVisit_of_temp {v : Visit} {t : ℤ} (hp : (p.1.modems v.modem).present = true)
    (ht : hsdcsGetCurrTemperature v.sensor = some t) :
    (bookVisit strict p v).1 =
      (bookCheck strict .inc v.modem t v.inc (bookCheck strict .full v.modem t v.full (atVisit p v t)).1).1 := by
  simp [bookVisit, hp, ht]

theorem bookVisit_of_none {v : Visit}
    (h : ∀ t, (p.1.modems v.modem).present = true → hsdcsGetCurrTemperature v.sensor ≠ some t) :
    (bookVisit strict p v).1 = p := by
  unfold bookVisit
  split
  · next hp =>
    cases ht : hsdcsGetCurrTemperature v.sensor with
    | none => rfl
    | some t => exact absurd ht (h t hp)
  · rfl

/-- A step that is as it should be keeps the books. -/
theorem books_step (h : Books p) {i : Input} (hok : InputOk strict p i) : Books (bookStep strict p i).1 := by
  cases i with
  | visit v =>
    show Books (bookVisit strict p v).1
    by_cases hread : ∃ t, (p.1.modems v.modem).present = true ∧ hsdcsGetCurrTemperature v.sensor = some t
    · obtain ⟨t, hp, ht⟩ := hread
      obtain ⟨hfull, hinc⟩ := hok t hp ht
      rw [bookVisit_of_temp hp ht]
      exact (bookCheck_ok (bookCheck_ok (books_atVisit h) hfull).1 hinc).1
    · rw [bookVisit_of_none fun t hp ht => hread ⟨t, hp, ht⟩]
      exact h
  | probe i m =>
    intro k j
    show ((p.1.set i m).modems j).lastTemp k = Function.update (p.2.calTemp k) i (m.lastTemp k) j
    by_cases hj : j = i
    · subst hj
      rw [Monitor.set_modems_self, Function.update_self]
    · rw [Monitor.set_modems_of_ne _ hj, Function.update_of_ne hj]
      exact h k j
  | remove i =>
    intro k j
    show ((p.1.set i _).modems j).lastTemp k = p.2.calTemp k j
    by_cases hj : j = i
    · subst hj
      rw [Monitor.set_modems_self]
      exact h k j
    · rw [Monitor.set_modems_of_ne _ hj]
      exact h k j
  | enable k' i on =>
    intro k j
    show ((p.1.set i _).modems j).lastTemp k = p.2.calTemp k j
    by_cases hj : j = i
    · subst hj
      rw [Monitor.set_modems_self]
      exact h k j
    · rw [Monitor.set_modems_of_ne _ hj]
      exact h k j
  | trigger k => exact h

/-- Then the monitor is right in this step. -/
theorem rightBooks_of_ok (h : Books p) {i : Input} (hok : InputOk strict p i) : RightBooks strict p i := by
  have hset : ∀ (i : Fin maxModem) (m : Modem), m.lastTemp = (p.1.modems i).lastTemp →
      ∀ j, ((p.1.set i m).modems j).lastTemp = (p.1.modems j).lastTemp := by
    intro i m hm j
    by_cases hj : j = i
    · subst hj
      rw [Monitor.set_modems_self]
      exact hm
    · rw [Monitor.set_modems_of_ne _ hj]
  cases i with
  | visit v =>
    refine ⟨fun j hj => visit_modems_of_ne hj, ?_, ?_⟩
    · by_cases hread : ∃ t, (p.1.modems v.modem).present = true ∧ hsdcsGetCurrTemperature v.sensor = some t
      · obtain ⟨t, hp, ht⟩ := hread
        obtain ⟨hfull, hinc⟩ := hok t hp ht
        have hmodem : (atVisit p v t).1.modems v.modem = { p.1.modems v.modem with currentTemp := t } := atVisit_modem
        have hhonest := honest_visit (t := t) (v := v) (atVisit p v t).1
          (fun k' hne hasks => (hfull hasks).1 k' (.inl rfl) hne) fun hasks hne => (hinc hasks).1 .inc (.inr rfl) hne
        rw [hmodem] at hhonest
        rw [visit_of_temp hp ht]
        exact ⟨hhonest.full, hhonest.inc⟩
      · rw [visit_of_none fun t hp ht => hread ⟨t, hp, ht⟩]
        exact ⟨fun hne => absurd rfl hne, fun hne => absurd rfl hne⟩
    · intro t hp ht
      obtain ⟨hfull, hinc⟩ := hok t hp ht
      have hfirst : Books _ ∧ Served strict .full v.modem t v.full (atVisit p v t) := bookCheck_ok (books_atVisit h) hfull
      obtain ⟨hbooks, hserved⟩ := hfirst
      exact ⟨hserved, (bookCheck_ok hbooks hinc).2, insists_visit h hp ht⟩
  | probe i m => exact ⟨fun j hj => Monitor.set_modems_of_ne p.1 hj m, rfl⟩
  | remove i => exact ⟨hset i _ rfl, fun k hk => hk⟩
  | enable k i on => exact ⟨hset i _ rfl, fun k hk => hk⟩
  | trigger k =>
    refine ⟨fun j => rfl, fun k' hk' => ?_⟩
    show Function.update p.1.trig k true k' = true
    by_cases he : k' = k
    · rw [he, Function.update_self]
    · rwa [Function.update_of_ne he]

/-- **In a run in which every request that changes a temperature is completed and a
trigger is served for the only modem that has the recalibration enabled, the
monitor keeps its books in every step: temperatures change only with completed
recalibrations, flags are cleared when everyone is served, and a modem that is far
from its last recalibration is asked at every visit.** -/
theorem recal_books (strict : Bool) (s : Monitor) (is : List Input)
    (hok : Guarded (bookStep strict) (InputOk strict) (s, .start s) is) :
    ∀ pre i, pre ++ [i] <+: is → RightBooks strict (exec (bookStep strict) (s, .start s) pre) i := by
  intro pre i hpre
  have hguard := hok.initial hpre
  have hpre' : pre <+: is := (List.prefix_append pre [i]).trans hpre
  have hbooks : Books (exec (bookStep strict) (s, .start s) pre) :=
    exec_inv_of_guarded (I := Books) (fun p i h => books_step h) pre (fun _ _ => rfl) (hok.initial hpre')
  exact rightBooks_of_ok hbooks hguard.last

end Run

theorem maxModem_pos : 0 < maxModem := Nat.succ_pos 3

def aModem : Fin maxModem := ⟨0, maxModem_pos⟩

/-- One modem is there with both recalibrations enabled, calibrated at 20 degrees. -/
def aMonitor : Monitor where
  modems i := ⟨decide (i = aModem), fun _ => decide (i = aModem), fun _ => 20, 20⟩
  trig _ := false

/-- The modem acknowledges before the second poll, and the host recalibrates. -/
def acked : Dialog := ⟨fun n => if n = 1 then some .reqAckAnt01 else none, fun _ => true, fun _ => false⟩

/-- The modem denies. -/
def denied : Dialog := ⟨fun _ => some .reqDenied, fun _ => true, fun _ => false⟩

theorem acked_ends : acked.Ends .full .full := ⟨2, by decide, rfl, by decide⟩

/-- A request that is acknowledged. -/
theorem recal_books_acked : RightBooks true (aMonitor, .start aMonitor) (.visit ⟨aModem, some 95, acked, acked⟩) := by
  refine recal_books true aMonitor [.visit ⟨aModem, some 95, acked, acked⟩] ⟨?_, trivial⟩ [] _ (List.prefix_refl _)
  intro t _ ht
  obtain rfl : 95 = t := Option.some.inj ht
  constructor
  · intro _
    refine ⟨fun k' _ _ => ?_, fun h => ?_⟩
    · cases k' with
      | inc => exact .inr acked_ends
      | full => exact acked_ends
    · obtain h | h := h
      · exact Bool.noConfusion h
      · exact Bool.noConfusion h
  · rintro ⟨-, h | h, -⟩
    · exact absurd rfl h
    · exact Bool.noConfusion h

/-- A request that is denied counts as made: the temperature is recorded, and the
modem is not asked again. -/
theorem recal_denied :
    ¬ (∀ (s : Monitor) (is : List Input) (i : Input), RightBooks false (exec (bookStep false) (s, .start s) is) i) ∧
    (visit aMonitor ⟨aModem, some 95, denied, denied⟩).2 = [(.full, none)] ∧
    (visit (visit aMonitor ⟨aModem, some 95, denied, denied⟩).1 ⟨aModem, some 95, denied, denied⟩).2 = [] := by
  have hout : (visit aMonitor ⟨aModem, some 95, denied, denied⟩).2 = [(.full, none)] := by
    decide +kernel
  refine ⟨fun h => ?_, hout, by decide +kernel⟩
  obtain ⟨-, hhonest, -⟩ := h aMonitor [] (.visit ⟨aModem, some 95, denied, denied⟩)
  change Honest _ _ (visit aMonitor ⟨aModem, some 95, denied, denied⟩).2 at hhonest
  rw [hout] at hhonest
  obtain ⟨r, hr, hseen⟩ := hhonest.full (by decide)
  obtain rfl := List.mem_singleton.mp hr
  cases hseen

end Dcs
end La12xx
