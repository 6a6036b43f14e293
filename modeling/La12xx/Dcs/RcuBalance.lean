/-
# The lock of the temperature monitor

`hsdcs_tempmonitor` looks at each modem inside an RCU read section of its own: it
takes `rcu_read_lock` before it reads `dev_list`, and releases it at the end of
the loop's body and at each `continue` before that. One `continue` has no release,
that of a temperature which could not be read, and nothing later makes up for it. So the depth
never goes below zero, and it is zero when the monitor sleeps and when it ends
exactly if no reading has failed; what is left at the end is the number of readings
that did (`depth_tempmonitor`).

What a modem goes through between its checks is `check` of the monitor; a turn that
comes so far is a `visit` (`turn_eq_visit`).
-/
import La12xx.Dcs.Monitor

namespace La12xx
namespace Dcs
namespace RcuBalance

open Machine

/-! ### The thread -/

/-- What the thread does, as far as the lock and its sleep go. -/
inductive Act where
  | rcuReadLock
  | rcuReadUnlock
  | ssleep
  | writeTempCompensation
  | raiseModemCalReq (k : Kind) (seen : Option Kind)
  | exit
deriving DecidableEq, Repr

/-- The requests among them, each with the completion it has seen. -/
def requests (acts : List Act) : List (Kind × Option Kind) :=
  acts.filterMap fun a =>
    match a with
    | .raiseModemCalReq k seen => some (k, seen)
    | _ => none

/-- `struct gul_dev`: whether `dcs_priv` and `tvd_priv` are set. -/
structure GulDev where
  dcsPriv : Bool
  tvdPriv : Bool

/-- What the thread meets when it comes to a modem: what the other threads have done
to the modems and the flags before, the entry of `dev_list`, the sensor, and the two
requests. -/
structure Turn where
  others : Monitor → Monitor
  gulDev : Option GulDev
  sensor : Option ℤ
  full : Dialog
  inc : Dialog

/-- The body of the inner loop of `hsdcs_tempmonitor`, for modem `i`. -/
def turn (i : Fin maxModem) (x : Turn) (s : Monitor) : Monitor × List Act :=
  match x.gulDev with
  | none => (s, [.rcuReadLock, .rcuReadUnlock])
  | some gulDev =>
    if gulDev.dcsPriv = false then (s, [.rcuReadLock, .rcuReadUnlock])
    else if gulDev.tvdPriv = false then (s, [.rcuReadLock, .rcuReadUnlock])
    else
      match hsdcsGetCurrTemperature x.sensor with
      -- the section is still open at this `continue`
      | none => (s, [.rcuReadLock, .writeTempCompensation])
      | some t =>
        let s := s.set i { s.modems i with currentTemp := t }
        let full := check .full i t x.full s
        let inc := check .inc i t x.inc full.1
        (inc.1, .rcuReadLock :: .writeTempCompensation ::
          ((full.2 ++ inc.2).map (fun r => .raiseModemCalReq r.1 r.2) ++ [.rcuReadUnlock]))

/-- What the thread meets in one iteration. -/
abbrev Round := Fin maxModem → Turn

/-- The inner loop, over the modems that are left. -/
def modemLoop (r : Round) : List (Fin maxModem) → Monitor → Monitor × List Act
  | [], s => (s, [])
  | i :: is, s =>
    let p := turn i (r i) ((r i).others s)
    let q := modemLoop r is p.1
    (q.1, p.2 ++ q.2)

/-- `hsdcs_tempmonitor`, until it finds that it should stop. -/
def tempmonitor : List Round → Monitor → List Act
  | [], _ => [.exit]
  | r :: rs, s =>
    let p := modemLoop r (List.finRange maxModem) s
    .ssleep :: (p.2 ++ tempmonitor rs p.1)

/-! ### The depth -/

/-- The nesting depth of `rcu_read_lock` -/
def rcuStep (depth : ℤ) : Act → ℤ × Unit
  | .rcuReadLock => (depth + 1, ())
  | .rcuReadUnlock => (depth - 1, ())
  | _ => (depth, ())

/-- The thread must not hold the lock when it does this. -/
def Act.Rests (a : Act) : Prop := a = .ssleep ∨ a = .exit

instance (a : Act) : Decidable a.Rests := inferInstanceAs (Decidable (a = .ssleep ∨ a = .exit))

/-- From depth 0 on, the depth is never negative, and it is 0 at every sleep and at
the end. -/
structure Balanced (acts : List Act) : Prop where
  nonneg : Along rcuStep (fun depth => 0 ≤ depth) 0 acts
  level : Guarded rcuStep (fun depth a => a.Rests → depth = 0) 0 acts

/-- A modem that has a device with DCS and TVD data has a temperature, and one in the
supported range. -/
def Turn.Reads (x : Turn) : Prop :=
  ∀ gulDev, x.gulDev = some gulDev → gulDev.dcsPriv = true → gulDev.tvdPriv = true →
    ∃ t, x.sensor = some t ∧ -30 ≤ t ∧ t ≤ 105

/-- What a turn adds to the depth. -/
def Turn.leak (x : Turn) : ℕ :=
  match x.gulDev with
  | none => 0
  | some gulDev =>
    if gulDev.dcsPriv = false then 0
    else if gulDev.tvdPriv = false then 0
    else if (hsdcsGetCurrTemperature x.sensor).isSome then 0 else 1

def Round.leak (r : Round) : ℕ := ((List.finRange maxModem).map fun i => (r i).leak).sum

theorem hsdcsGetCurrTemperature_isSome_iff {sensor : Option ℤ} :
    (hsdcsGetCurrTemperature sensor).isSome = true ↔ ∃ t, sensor = some t ∧ -30 ≤ t ∧ t ≤ 105 := by
  rw [Option.isSome_iff_exists]
  simp [hsdcsGetCurrTemperature]

theorem Turn.leak_eq_zero_iff (x : Turn) : x.leak = 0 ↔ x.Reads := by
  unfold Turn.leak Turn.Reads
  cases hdev : x.gulDev with
  | none => simp
  | some gulDev =>
    rcases gulDev with ⟨dcs, tvd⟩
    cases dcs with
    | false => simp
    | true =>
      cases tvd with
      | false => simp
      | true => simp [← hsdcsGetCurrTemperature_isSome_iff, Option.isSome_iff_ne_none]

theorem Round.leak_eq_zero_iff (r : Round) : r.leak = 0 ↔ ∀ i, (r i).Reads := by
  rw [Round.leak, List.sum_eq_zero_iff]
  constructor
  · intro h i
    exact (r i).leak_eq_zero_iff.mp (h _ (List.mem_map.mpr ⟨i, List.mem_finRange i, rfl⟩))
  · intro h n hn
    obtain ⟨i, -, rfl⟩ := List.mem_map.mp hn
    exact (r i).leak_eq_zero_iff.mpr (h i)

/-! ### One turn -/

/-- What is done inside a section, and moves nothing. -/
def Act.Inside (a : Act) : Prop := a = .writeTempCompensation ∨ ∃ k seen, a = .raiseModemCalReq k seen

section Inside

variable {a : Act} {acts : List Act} {d : ℤ}

theorem Act.Inside.rcuStep_eq (h : a.Inside) (d : ℤ) : (rcuStep d a).1 = d := by
  rcases h with rfl | ⟨k, seen, rfl⟩ <;> rfl

theorem Act.Inside.not_rests (h : a.Inside) : ¬ a.Rests := by
  rcases h with rfl | ⟨k, seen, rfl⟩ <;> exact of_decide_eq_false rfl

theorem exec_inside (h : ∀ a ∈ acts, a.Inside) : exec rcuStep d acts = d := by
  induction acts with
  | nil => rfl
  | cons a acts ih =>
    rw [List.forall_mem_cons] at h
    rw [exec, h.1.rcuStep_eq]
    exact ih h.2

theorem along_inside (h : ∀ a ∈ acts, a.Inside) (hd : 0 ≤ d) : Along rcuStep (fun depth => 0 ≤ depth) d acts := by
  induction acts with
  | nil => exact hd
  | cons a acts ih =>
    rw [List.forall_mem_cons] at h
    rw [Along, h.1.rcuStep_eq]
    exact ⟨hd, ih h.2⟩

end Inside

section Turn

variable (i : Fin maxModem) (x : Turn) (r : Round) (s : Monitor)

/-- A turn takes the lock first, and releases it last unless it leaks. -/
theorem turn_acts : ∃ inside : List Act, (∀ a ∈ inside, a.Inside) ∧
    (turn i x s).2 = .rcuReadLock :: (inside ++ List.replicate (1 - x.leak) .rcuReadUnlock) := by
  unfold turn Turn.leak
  cases x.gulDev with
  | none => exact ⟨[], List.forall_mem_nil _, rfl⟩
  | some gulDev =>
    rcases gulDev with ⟨dcs, tvd⟩
    cases dcs with
    | false => exact ⟨[], List.forall_mem_nil _, rfl⟩
    | true =>
      cases tvd with
      | false => exact ⟨[], List.forall_mem_nil _, rfl⟩
      | true =>
        cases hsdcsGetCurrTemperature x.sensor with
        | none => exact ⟨[.writeTempCompensation], by simp [Act.Inside], rfl⟩
        | some t =>
          refine ⟨_ :: _, ?_, rfl⟩
          rw [List.forall_mem_cons]
          refine ⟨Or.inl rfl, ?_⟩
          intro a ha
          obtain ⟨q, -, rfl⟩ := List.mem_map.mp ha
          exact Or.inr ⟨q.1, q.2, rfl⟩

theorem leak_le_one : x.leak ≤ 1 := by
  unfold Turn.leak
  repeat' split
  all_goals omega

theorem exec_turn (d : ℤ) : exec rcuStep d (turn i x s).2 = d + x.leak := by
  obtain ⟨inside, hinside, hacts⟩ := turn_acts i x s
  rw [hacts, exec, exec_append, exec_inside hinside]
  rcases Nat.le_one_iff_eq_zero_or_eq_one.mp (leak_le_one x) with hleak | hleak
  · rw [hleak]
    simp [exec, rcuStep]
  · rw [hleak]
    simp [exec, rcuStep]

theorem along_turn {d : ℤ} (hd : 0 ≤ d) : Along rcuStep (fun depth => 0 ≤ depth) d (turn i x s).2 := by
  obtain ⟨inside, hinside, hacts⟩ := turn_acts i x s
  have hlocked : (0 : ℤ) ≤ d + 1 := Int.add_nonneg hd Int.one_nonneg
  rw [hacts, Along]
  refine ⟨hd, along_append (along_inside hinside hlocked) ?_⟩
  rw [exec_inside hinside]
  rcases Nat.le_one_iff_eq_zero_or_eq_one.mp (leak_le_one x) with hleak | hleak
  · rw [hleak]
    refine ⟨hlocked, ?_⟩
    show (0 : ℤ) ≤ d + 1 - 1
    omega
  · rw [hleak]
    exact hlocked

/-- The thread neither sleeps nor ends in a turn. -/
theorem turn_not_rests : ∀ a ∈ (turn i x s).2, ¬ a.Rests := by
  obtain ⟨inside, hinside, hacts⟩ := turn_acts i x s
  intro a ha
  rw [hacts] at ha
  rcases List.mem_cons.mp ha with rfl | ha
  · exact of_decide_eq_false rfl
  · rcases List.mem_append.mp ha with ha | ha
    · exact (hinside a ha).not_rests
    · rw [List.eq_of_mem_replicate ha]
      exact of_decide_eq_false rfl

/-- For a monitor that takes a modem to be there when all that the thread looks for
is, a turn does what a visit does. -/
theorem turn_eq_visit
    (hpresent : (s.modems i).present = x.gulDev.any fun gulDev => gulDev.dcsPriv && gulDev.tvdPriv) :
    (turn i x s).1 = (visit s ⟨i, x.sensor, x.full, x.inc⟩).1 ∧
      requests (turn i x s).2 = (visit s ⟨i, x.sensor, x.full, x.inc⟩).2 := by
  unfold turn visit
  rw [hpresent]
  cases x.gulDev with
  | none => exact ⟨rfl, rfl⟩
  | some gulDev =>
    rcases gulDev with ⟨dcs, tvd⟩
    cases dcs with
    | false => exact ⟨rfl, rfl⟩
    | true =>
      cases tvd with
      | false => exact ⟨rfl, rfl⟩
      | true =>
        cases hsdcsGetCurrTemperature x.sensor with
        | none => exact ⟨rfl, rfl⟩
        | some t => exact ⟨rfl, by simp [requests, List.filterMap_append, List.filterMap_map]⟩

end Turn

/-! ### The thread's run -/

section Run

variable (r : Round)

theorem exec_modemLoop {d : ℤ} (is : List (Fin maxModem)) (s : Monitor) :
    exec rcuStep d (modemLoop r is s).2 = d + ((is.map fun i => (r i).leak).sum : ℕ) := by
  induction is generalizing d s with
  | nil => exact (add_zero d).symm
  | cons i is ih =>
    rw [modemLoop, exec_append, exec_turn, ih, List.map_cons, List.sum_cons, Nat.cast_add, add_assoc]

theorem along_modemLoop {d : ℤ} (is : List (Fin maxModem)) (s : Monitor) (hd : 0 ≤ d) :
    Along rcuStep (fun depth => 0 ≤ depth) d (modemLoop r is s).2 := by
  induction is generalizing d s with
  | nil => exact hd
  | cons i is ih =>
    apply along_append (along_turn i (r i) _ hd)
    rw [exec_turn]
    exact ih _ (Int.add_nonneg hd (Int.natCast_nonneg _))

theorem modemLoop_not_rests (is : List (Fin maxModem)) (s : Monitor) : ∀ a ∈ (modemLoop r is s).2, ¬ a.Rests := by
  induction is generalizing s with
  | nil => exact List.forall_mem_nil _
  | cons i is ih =>
    intro a ha
    rcases List.mem_append.mp ha with ha | ha
    · exact turn_not_rests i (r i) _ a ha
    · exact ih _ a ha

/-- What is left of the lock when the thread ends is one level for each reading that
has failed. -/
theorem depth_tempmonitor (rounds : List Round) (s : Monitor) (d : ℤ) :
    exec rcuStep d (tempmonitor rounds s) = d + ((rounds.map Round.leak).sum : ℕ) := by
  induction rounds generalizing s d with
  | nil => exact (add_zero d).symm
  | cons r rounds ih =>
    rw [tempmonitor, exec, exec_append, exec_modemLoop, ih, List.map_cons, List.sum_cons, Nat.cast_add, ← add_assoc]
    rfl

/-- However many readings fail, the thread never releases a lock it has not taken. -/
theorem nonneg_tempmonitor (rounds : List Round) (s : Monitor) {d : ℤ} (hd : 0 ≤ d) :
    Along rcuStep (fun depth => 0 ≤ depth) d (tempmonitor rounds s) := by
  induction rounds generalizing s d with
  | nil => exact ⟨hd, hd⟩
  | cons r rounds ih =>
    refine ⟨hd, along_append (along_modemLoop r _ s hd) ?_⟩
    rw [exec_modemLoop]
    exact ih _ (Int.add_nonneg hd (Int.natCast_nonneg _))

/-- The depth is 0 at each sleep and at the end if it was 0 to start with and no
turn has added to it. -/
theorem level_tempmonitor_iff (rounds : List Round) (s : Monitor) (d : ℤ) :
    Guarded rcuStep (fun depth a => a.Rests → depth = 0) d (tempmonitor rounds s) ↔
      d = 0 ∧ ∀ r ∈ rounds, Round.leak r = 0 := by
  induction rounds generalizing s d with
  | nil =>
    have hexit : Act.exit.Rests := Or.inr rfl
    simp [tempmonitor, Guarded, hexit]
  | cons r rounds ih =>
    have hsleep : Act.ssleep.Rests := Or.inl rfl
    have hloop : Guarded rcuStep (fun depth a => a.Rests → depth = 0) d (modemLoop r (List.finRange maxModem) s).2 :=
      guarded_of_forall fun a ha _ hrests => absurd hrests (modemLoop_not_rests r _ s a ha)
    have hstep : (rcuStep d .ssleep).1 = d := rfl
    rw [tempmonitor, Guarded, guarded_append, hstep, exec_modemLoop, ih, List.forall_mem_cons]
    constructor
    · rintro ⟨hd, -, hsum, hrest⟩
      have hd : d = 0 := hd hsleep
      rw [hd, zero_add] at hsum
      exact ⟨hd, Int.natCast_eq_zero.mp hsum, hrest⟩
    · rintro ⟨rfl, hleak, hrest⟩
      refine ⟨fun _ => rfl, hloop, ?_, hrest⟩
      rw [zero_add]
      exact Int.natCast_eq_zero.mpr hleak

/-- The lock is balanced in a run of the monitor, however long, exactly if every
modem that is there could be read each time. -/
theorem tempmonitor_balanced_iff (rounds : List Round) (s : Monitor) :
    Balanced (tempmonitor rounds s) ↔ ∀ r ∈ rounds, ∀ i, (r i).Reads := by
  have hleaks : (∀ r ∈ rounds, Round.leak r = 0) ↔ ∀ r ∈ rounds, ∀ i, (r i).Reads :=
    forall₂_congr fun r _ => r.leak_eq_zero_iff
  rw [← hleaks]
  constructor
  · intro h
    exact ((level_tempmonitor_iff rounds s 0).mp h.level).2
  · intro h
    exact ⟨nonneg_tempmonitor rounds s le_rfl, (level_tempmonitor_iff rounds s 0).mpr ⟨rfl, h⟩⟩

end Run

/-! ### A busy sensor -/

/-- Modem 0 is there with all its data, and its sensor cannot be read; the other
modems are not there. -/
def busySensor : Round := fun i =>
  { others := id
    gulDev := if i.val = 0 then some ⟨true, true⟩ else none
    sensor := none
    full := ⟨fun _ => none, fun _ => true, fun _ => false⟩
    inc := ⟨fun _ => none, fun _ => true, fun _ => false⟩ }

/-- Recalibrations are off, and no flag is set. -/
def idle : Monitor where
  modems _ := ⟨true, fun _ => false, fun _ => 0, 0⟩
  trig _ := false

/-- One reading that fails, and the thread ends with the lock held. -/
theorem busySensor_unbalanced :
    exec rcuStep 0 (tempmonitor [busySensor] idle) = 1 ∧ ¬ Balanced (tempmonitor [busySensor] idle) := by
  refine ⟨by decide, ?_⟩
  intro h
  have hlevel := h.level
  revert hlevel
  decide

end RcuBalance
end Dcs
end La12xx
