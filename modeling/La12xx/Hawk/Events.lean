/-
# The events of the Hawk counters

The counters of the E200 cores count events of `hawk_event_table`, a table of
`gul_hawk.c`. The files of sysfs list the table, set up to
`HAWK_EVENT_MAX_COUNT` events by their numbers, show the events that are set,
and report the counters. The list and the report name an event by the entry
with its number; `__hawk_events_show` takes the entry at its place among the
events that are set. No number is checked. So the views agree, and stay within
the table, exactly as long as the events are set in the order of the table
(`views_agree_iff`).
-/
import La12xx.Hawk.SwCmd

namespace La12xx
namespace Hawk

open Machine

/-! ### Data -/

/-- `struct hawk_event` -/
structure HawkEvent where
  eventOutputStart : ℕ
  eventOutputEnd : ℕ
  eventString : String
deriving DecidableEq, Repr

def hawkEventTable : List HawkEvent := [
  ⟨0, 0, "Nothing"⟩,
  ⟨0, 0, "Processor cycles"⟩,
  ⟨0, 1, "Instructions completed"⟩,
  ⟨1, 3, "Processor cycles with 0 instructions issued"⟩,
  ⟨1, 3, "Processor cycles with 1 instruction issued"⟩,
  ⟨1, 3, "Processor cycles with 2 instructions issued"⟩,
  ⟨2, 3, "Instruction words fetched"⟩,
  ⟨2, 3, "PM_EVENT transitions"⟩,
  ⟨2, 3, "PM_EVENT cycles"⟩,
  ⟨0, 0, "Nothing"⟩,
  ⟨2, 3, "Branch instructions completed"⟩,
  ⟨2, 3, "Branch and link type instructions completed"⟩,
  ⟨2, 3, "Conditional branch instructions completed"⟩,
  ⟨2, 3, "Taken Branch instructions completed"⟩,
  ⟨2, 3, "Taken Conditional Branch instructions completed"⟩,
  ⟨2, 3, "Load instructions completed"⟩,
  ⟨2, 3, "Store instructions completed"⟩,
  ⟨2, 3, "Integer instructions completed"⟩,
  ⟨2, 3, "Multiply instructions completed"⟩,
  ⟨2, 3, "Divide instructions completed"⟩,
  ⟨2, 3, "Divide instruction execution cycles"⟩,
  ⟨2, 3, "EFPU FP instructions completed"⟩,
  ⟨2, 3, "Cycles decode stalled due to no instructions available"⟩,
  ⟨2, 3, "Cycles issue stalled, not due to empty instruction buffer"⟩,
  ⟨2, 3, "Dcache linefills"⟩,
  ⟨2, 3, "Dcache load hits"⟩,
  ⟨2, 3, "Store buffer full stalls"⟩,
  ⟨2, 3, "Icache linefills"⟩,
  ⟨2, 3, "Number of Instruction fetches"⟩,
  ⟨2, 3, "BIU instruction-side transfers"⟩,
  ⟨2, 3, "BIU instruction-side cycles"⟩,
  ⟨2, 3, "BIU data-side transfers"⟩,
  ⟨2, 3, "BIU data-side cycles"⟩,
  ⟨2, 3, "BIU single-beat write cycles"⟩,
  ⟨0, 0, "PMC0 rollover"⟩,
  ⟨0, 0, "PMC1 rollover"⟩,
  ⟨0, 0, "PMC2 rollover"⟩,
  ⟨0, 0, "PMC3 rollover"⟩,
  ⟨2, 3, "Interrupts taken"⟩,
  ⟨2, 3, "External input interrupts taken"⟩,
  ⟨2, 3, "Critical input interrupts taken"⟩,
  ⟨2, 3, "Cycles in which MSREE=0"⟩,
  ⟨2, 3, "Cycles in which MSRCE=0"⟩
]

/-- `struct hawk_swcmd_stat` -/
structure CmdStat where
  eventCount : ℕ
  eventOutput : ℕ → BitVec 32
  event : ℕ → BitVec 32
  /-- by core and event -/
  ctrs : ℕ → ℕ → BitVec 32

/-- `struct hawk_host_data` -/
structure HawkHostData where
  cmdStat : CmdStat
  coreMask : BitVec 32

/-! ### Setting events -/

/-- `__hawk_event_set`; `maxCount` is `HAWK_EVENT_MAX_COUNT`. -/
def hawkEventSet (maxCount : ℕ) (s : CmdStat) (eventOutput event : BitVec 32) : CmdStat × ℤ :=
  if s.eventCount ≥ maxCount then (s, -1)
  else
    ({ s with eventOutput := Function.update s.eventOutput s.eventCount eventOutput,
              event := Function.update s.event s.eventCount event,
              eventCount := s.eventCount + 1 }, 0)

def CmdStat.zero : CmdStat := ⟨0, fun _ => 0, fun _ => 0, fun _ _ => 0⟩

/-- `__hawk_event_reset` -/
def hawkEventReset (s : CmdStat) : CmdStat × ℤ := if s.eventCount = 0 then (s, -1) else (CmdStat.zero, 0)

/-- What is written to a file of sysfs, with the numbers in it or `none` if it cannot be
read, or the end of a recording. -/
inductive StatOp where
  | hawkEventSet (arg : Option (BitVec 32 × BitVec 32))
  | hawkEventReset (val : Option (BitVec 32))
  | hawkCoreMaskSet (coreMask : Option (BitVec 32))
  /-- `__hawk_record_set` that stops a recording and has the counters -/
  | recordStop (ctrs : ℕ → ℕ → BitVec 32)

/-- The files `hawk_event_set`, `hawk_event_reset` and `hawk_core_mask_set`, and
`__hawk_record_set` for a command that is answered OK. -/
def statStep (maxCount : ℕ) (d : HawkHostData) : StatOp → HawkHostData × Unit
  | .hawkEventSet (some (eventOutput, event)) =>
    ({ d with cmdStat := (hawkEventSet maxCount d.cmdStat eventOutput event).1 }, ())
  | .hawkEventSet none => (d, ())
  | .hawkEventReset val =>
    if val = some 1 then ({ d with cmdStat := (hawkEventReset d.cmdStat).1 }, ()) else (d, ())
  | .hawkCoreMaskSet (some coreMask) => ({ d with coreMask := coreMask }, ())
  | .hawkCoreMaskSet none => (d, ())
  | .recordStop ctrs =>
    if d.cmdStat.eventCount = 0 then (d, ()) else ({ d with cmdStat := { d.cmdStat with ctrs := ctrs } }, ())

/-- `gul_hawk_probe` -/
def gulHawkProbe : HawkHostData := ⟨CmdStat.zero, 0xf⟩

/-! ### The views -/

/-- A loop of `sprintf` over `n` rows, the `i`-th of which reads the entry `entry i`;
`none` if one reads outside the table. -/
def showRows (n : ℕ) (entry : ℕ → ℕ) (text : ℕ → HawkEvent → String) : Option String :=
  ((List.range n).mapM fun i => (hawkEventTable[entry i]?).map (text i)).map String.join

/-- Which entry the `i`-th row of `__hawk_list_events_show` names. -/
def listEntry (i : ℕ) : ℕ := i

/-- Which entry the `i`-th row of `__hawk_events_show` names. -/
def eventsEntry (_ : CmdStat) (i : ℕ) : ℕ := i

/-- Which entry the `i`-th row of `__hawk_report_show` names. -/
def reportEntry (s : CmdStat) (i : ℕ) : ℕ := (s.event i).toNat

/-- `__hawk_list_events_show` -/
def hawkListEventsShow : Option String :=
  (showRows hawkEventTable.length listEntry fun i e =>
    " C" ++ toString e.eventOutputStart ++ "-" ++ toString e.eventOutputEnd ++ ":" ++ toString i ++ " " ++
      e.eventString ++ "\n").map ("Supported Events:\n" ++ ·)

/-- "C%u:%u" -/
def CmdStat.label (s : CmdStat) (i : ℕ) : String :=
  "C" ++ toString (s.eventOutput i).toNat ++ ":" ++ toString (s.event i).toNat

/-- `__hawk_events_show` -/
def hawkEventsShow (s : CmdStat) : Option String :=
  showRows s.eventCount (eventsEntry s) fun i e => s.label i ++ "\t" ++ e.eventString ++ "\n"

/-- "%10u\t" -/
def counterText (x : BitVec 32) : String :=
  let digits := toString x.toNat
  "".pushn ' ' (10 - digits.length) ++ digits ++ "\t"

/-- `__hawk_report_show` -/
def hawkReportShow (e200CoreCount : ℕ) (d : HawkHostData) : Option String :=
  showRows d.cmdStat.eventCount (reportEntry d.cmdStat) fun i e =>
    d.cmdStat.label i ++ " = " ++
      String.join (((List.range e200CoreCount).filter fun j => selected d.coreMask j).map fun j =>
        counterText (d.cmdStat.ctrs j i)) ++
      e.eventString.pushn ' ' (64 - e.eventString.length) ++ "\n"

/-! ### When the views agree -/

/-- Both views name every event that is set by the entry that is listed under its number,
and neither reads outside the table. -/
structure ViewsAgree (e200CoreCount : ℕ) (d : HawkHostData) : Prop where
  events : ∀ i < d.cmdStat.eventCount, eventsEntry d.cmdStat i = listEntry (d.cmdStat.event i).toNat
  report : ∀ i < d.cmdStat.eventCount, reportEntry d.cmdStat i = listEntry (d.cmdStat.event i).toNat
  eventsInside : (hawkEventsShow d.cmdStat).isSome
  reportInside : (hawkReportShow e200CoreCount d).isSome

/-- The events that are set are the first of the table, in its order. -/
def Ordered (s : CmdStat) : Prop := ∀ i < s.eventCount, (s.event i).toNat = i ∧ i < hawkEventTable.length

/-- An event that is set has the number of its place, and there is an entry for it. -/
def InTableOrder (maxCount : ℕ) (d : HawkHostData) : StatOp → Prop
  | .hawkEventSet (some (_, event)) => d.cmdStat.eventCount < maxCount →
    event.toNat = d.cmdStat.eventCount ∧ d.cmdStat.eventCount < hawkEventTable.length
  | .hawkEventSet none | .hawkEventReset _ | .hawkCoreMaskSet _ | .recordStop _ => True

/-- A loop that may fail gets to its end if no round fails. -/
theorem mapM_isSome_iff {α β : Type} {f : α → Option β} {l : List α} : (l.mapM f).isSome ↔ ∀ x ∈ l, (f x).isSome := by
  induction l with
  | nil => exact iff_of_true rfl fun x hx => absurd hx List.not_mem_nil
  | cons x l ih =>
    rw [List.mapM_cons, List.forall_mem_cons, ← ih]
    rcases hx : f x with _ | y
    · simp
    · rcases l.mapM f with _ | ys
      · simp
      · simp

theorem mapM_congr {α β : Type} {f g : α → Option β} {l : List α} (h : ∀ x ∈ l, f x = g x) : l.mapM f = l.mapM g := by
  induction l with
  | nil => rfl
  | cons x l ih =>
    rw [List.forall_mem_cons] at h
    rw [List.mapM_cons, List.mapM_cons, h.1, ih h.2]

/-- A view is within the table exactly if all its rows are. -/
theorem showRows_isSome_iff {n : ℕ} {entry : ℕ → ℕ} {text : ℕ → HawkEvent → String} :
    (showRows n entry text).isSome ↔ ∀ i < n, entry i < hawkEventTable.length := by
  rw [showRows, Option.isSome_map, mapM_isSome_iff]
  simp only [List.mem_range, Option.isSome_map, isSome_getElem?]

/-- The table is listed. -/
theorem hawkListEventsShow_isSome : hawkListEventsShow.isSome := by
  rw [hawkListEventsShow, Option.isSome_map, showRows_isSome_iff]
  exact fun i hi => hi

/-- The views agree exactly if the events are set in order. -/
theorem viewsAgree_iff {e200CoreCount : ℕ} {d : HawkHostData} : ViewsAgree e200CoreCount d ↔ Ordered d.cmdStat := by
  constructor
  · intro h i hi
    have hplace : i = (d.cmdStat.event i).toNat := h.events i hi
    exact ⟨hplace.symm, showRows_isSome_iff.mp h.eventsInside i hi⟩
  · intro h
    refine ⟨fun i hi => (h i hi).1.symm, fun i hi => rfl, ?_, ?_⟩
    · exact showRows_isSome_iff.mpr fun i hi => (h i hi).2
    · refine showRows_isSome_iff.mpr fun i hi => ?_
      rw [reportEntry, (h i hi).1]
      exact (h i hi).2

/-- The `i`-th row of a view that agrees is the one of the entry with the event's number. -/
theorem hawkEventsShow_eq {e200CoreCount : ℕ} {d : HawkHostData} (h : ViewsAgree e200CoreCount d) :
    hawkEventsShow d.cmdStat = showRows d.cmdStat.eventCount (fun i => (d.cmdStat.event i).toNat)
      fun i e => d.cmdStat.label i ++ "\t" ++ e.eventString ++ "\n" := by
  have hrow : ∀ i ∈ List.range d.cmdStat.eventCount, eventsEntry d.cmdStat i = (d.cmdStat.event i).toNat :=
    fun i hi => h.events i (List.mem_range.mp hi)
  unfold hawkEventsShow showRows
  rw [mapM_congr fun i hi => by rw [hrow i hi]]

/-! ### What a request does -/

theorem ordered_zero : Ordered CmdStat.zero := fun i hi => absurd hi (Nat.not_lt_zero i)

/-- An event that is set keeps the order exactly if it is next in it. -/
theorem ordered_set_iff {maxCount : ℕ} {s : CmdStat} (h : Ordered s) (eventOutput event : BitVec 32) :
    Ordered (hawkEventSet maxCount s eventOutput event).1 ↔
      (s.eventCount < maxCount → event.toNat = s.eventCount ∧ s.eventCount < hawkEventTable.length) := by
  unfold hawkEventSet
  by_cases hfull : s.eventCount ≥ maxCount
  · rw [if_pos hfull]
    exact iff_of_true h fun hlt => absurd hlt (Nat.not_lt.mpr hfull)
  · rw [if_neg hfull]
    constructor
    · intro hnew _
      have hlast : (Function.update s.event s.eventCount event s.eventCount).toNat = s.eventCount ∧ _ :=
        hnew s.eventCount (Nat.lt_succ_self _)
      rwa [Function.update_self] at hlast
    · intro hnext i hi
      rcases Nat.lt_succ_iff_lt_or_eq.mp hi with hlt | rfl
      · show (Function.update s.event s.eventCount event i).toNat = i ∧ _
        rw [Function.update_of_ne hlt.ne]
        exact h i hlt
      · show (Function.update s.event s.eventCount event s.eventCount).toNat = s.eventCount ∧ _
        rw [Function.update_self]
        exact hnext (Nat.lt_of_not_le hfull)

/-- What a request does to the events: it keeps them, clears them, or sets one more. -/
theorem statStep_cases (maxCount : ℕ) (d : HawkHostData) (op : StatOp) :
    ((statStep maxCount d op).1.cmdStat.eventCount = d.cmdStat.eventCount ∧
      (statStep maxCount d op).1.cmdStat.event = d.cmdStat.event ∧ InTableOrder maxCount d op) ∨
    ((statStep maxCount d op).1.cmdStat = CmdStat.zero ∧ InTableOrder maxCount d op) ∨
    ∃ eventOutput event, op = .hawkEventSet (some (eventOutput, event)) ∧
      (statStep maxCount d op).1.cmdStat = (hawkEventSet maxCount d.cmdStat eventOutput event).1 := by
  rcases op with (_ | ⟨eventOutput, event⟩) | val | (_ | coreMask) | ctrs
  · exact Or.inl ⟨rfl, rfl, trivial⟩
  · exact Or.inr (Or.inr ⟨eventOutput, event, rfl, rfl⟩)
  · by_cases hval : val = some 1
    · simp only [statStep, hval, if_true]
      by_cases hempty : d.cmdStat.eventCount = 0
      · rw [hawkEventReset, if_pos hempty]
        exact Or.inl ⟨rfl, rfl, trivial⟩
      · rw [hawkEventReset, if_neg hempty]
        exact Or.inr (Or.inl ⟨rfl, trivial⟩)
    · simp only [statStep, hval, if_false]
      exact Or.inl ⟨trivial, trivial, trivial⟩
  · exact Or.inl ⟨rfl, rfl, trivial⟩
  · exact Or.inl ⟨rfl, rfl, trivial⟩
  · by_cases hempty : d.cmdStat.eventCount = 0
    · simp only [statStep, hempty, if_true]
      exact Or.inl ⟨trivial, trivial, trivial⟩
    · simp only [statStep, hempty, if_false]
      exact Or.inl ⟨trivial, trivial, trivial⟩

/-- No request fills the arrays beyond their end. -/
theorem eventCount_step {maxCount : ℕ} {d : HawkHostData} (op : StatOp) (h : d.cmdStat.eventCount ≤ maxCount) :
    (statStep maxCount d op).1.cmdStat.eventCount ≤ maxCount := by
  rcases statStep_cases maxCount d op with ⟨hcount, -, -⟩ | ⟨hzero, -⟩ | ⟨eventOutput, event, -, hset⟩
  · rwa [hcount]
  · rw [hzero]
    exact Nat.zero_le _
  · rw [hset, hawkEventSet]
    split
    · exact h
    · show d.cmdStat.eventCount + 1 ≤ maxCount
      omega

/-- A request keeps the order exactly if it does not set an event out of it. -/
theorem ordered_step_iff {maxCount : ℕ} {d : HawkHostData} (op : StatOp) (h : Ordered d.cmdStat) :
    Ordered (statStep maxCount d op).1.cmdStat ↔ InTableOrder maxCount d op := by
  rcases statStep_cases maxCount d op with ⟨hcount, hevent, hop⟩ | ⟨hzero, hop⟩ | ⟨eventOutput, event, rfl, hset⟩
  · refine iff_of_true ?_ hop
    unfold Ordered
    rwa [hcount, hevent]
  · refine iff_of_true ?_ hop
    rw [hzero]
    exact ordered_zero
  · rw [hset]
    exact ordered_set_iff h eventOutput event

/-- **The views agree throughout a run exactly if it sets the events in the order of the
table**; and the arrays never overflow. -/
theorem views_agree_iff (maxCount e200CoreCount : ℕ) (ops : List StatOp) :
    ((∀ ops', ops' <+: ops → ViewsAgree e200CoreCount (exec (statStep maxCount) gulHawkProbe ops')) ↔
        Guarded (statStep maxCount) (InTableOrder maxCount) gulHawkProbe ops) ∧
      ∀ ops', ops' <+: ops → (exec (statStep maxCount) gulHawkProbe ops').cmdStat.eventCount ≤ maxCount := by
  have h0 : Ordered gulHawkProbe.cmdStat := ordered_zero
  constructor
  · simp only [viewsAgree_iff]
    exact inv_iff_guarded (I := fun d : HawkHostData => Ordered d.cmdStat) (J := fun _ => True)
      (fun _ _ _ _ => trivial) (fun _ op _ hd => ordered_step_iff op hd) ops trivial h0
  · intro ops' _
    exact exec_inv (I := fun d : HawkHostData => d.cmdStat.eventCount ≤ maxCount)
      (fun _ op hd => eventCount_step op hd) ops'
      (Nat.zero_le maxCount)

/-- "0:1" alone: the event with number 1 is shown as the entry 0. -/
theorem second_event_first : ¬ ViewsAgree 4 (exec (statStep 8) gulHawkProbe [.hawkEventSet (some (0, 1))]) ∧
    hawkEventsShow (exec (statStep 8) gulHawkProbe [.hawkEventSet (some (0, 1))]).cmdStat = some "C0:1\tNothing\n" := by
  constructor
  · rw [viewsAgree_iff]
    intro h
    exact absurd (h 0 (by decide)).1 (by decide)
  · decide

end Hawk
end La12xx
