/-
# Waiting for a condition

A waiter enters a queue and then goes to sleep, unless it has been woken since it
entered. Whoever makes the condition true wakes the queue in the same step. The waiter
looks at the condition neither before it enters nor between entering and sleeping: what
is true when it enters wakes nobody.

It sleeps although the condition is true exactly if the condition was true when it
entered and nothing has woken it before it went to sleep (`missed_next_iff`); of a machine
that has such a waiter in it, this holds along a run (`not_missed_iff_guarded`).
-/
import La12xx.Lib.Machine

namespace La12xx
namespace WaitQueue

open Machine

/-- Where a waiter is. Once woken it is on its way out of the queue. -/
inductive Phase where
  | out
  | queued
  | asleep
  | woken
deriving DecidableEq, Repr

/-- Wakes the queue: a waiter that is out of it, or woken already, stays as it is. -/
def Phase.wake : Phase → Phase
  | .out => .out
  | .queued => .woken
  | .asleep => .woken
  | .woken => .woken

/-- A waiter, whether its condition is true, and whether it was when it entered. -/
structure Waiter where
  phase : Phase
  cond : Bool
  atEnqueue : Bool
deriving DecidableEq, Repr

/-- What happens to a waiter: outside the queue its condition changes in any way; `leave`
is the waiter's own work on it after waking. -/
inductive Act where
  | change (c : Bool)
  | enqueue
  | sleep
  | raise
  | wake
  | leave (c : Bool)
deriving DecidableEq, Repr

def Waiter.next (w : Waiter) : Act → Waiter
  | .change c => if w.phase = .out then { w with cond := c } else w
  | .enqueue => if w.phase = .out then { w with phase := .queued, atEnqueue := w.cond } else w
  | .sleep => if w.phase = .queued then { w with phase := .asleep } else w
  | .raise => { w with phase := w.phase.wake, cond := true }
  | .wake => { w with phase := w.phase.wake }
  | .leave c => if w.phase = .woken then { w with phase := .out, cond := c } else w

/-- While it waits the condition is as it was when it entered. -/
def Waiter.Fresh (w : Waiter) : Prop := w.phase = .queued ∨ w.phase = .asleep → w.cond = w.atEnqueue

/-- It sleeps although the condition is true. -/
def Waiter.Missed (w : Waiter) : Prop := w.phase = .asleep ∧ w.cond = true

/-- It does not go to sleep unwoken after it entered with the condition true. -/
def Waiter.Alert (w : Waiter) (a : Act) : Prop := a = .sleep → w.phase = .queued → w.atEnqueue = false

variable {w : Waiter}

theorem wake_ne (p : Phase) : ¬ (p.wake = .queued ∨ p.wake = .asleep) := by
  cases p <;> simp [Phase.wake]

theorem fresh_next (h : w.Fresh) (a : Act) : (w.next a).Fresh := by
  cases a with
  | change c =>
    simp only [Waiter.next]
    split
    · next hout => exact fun hp => absurd hp (by simp [hout])
    · exact h
  | enqueue =>
    simp only [Waiter.next]
    split
    · exact fun _ => rfl
    · exact h
  | sleep =>
    simp only [Waiter.next]
    split
    · next hq => exact fun _ => h (.inl hq)
    · exact h
  | raise => exact fun hp => absurd hp (wake_ne _)
  | wake => exact fun hp => absurd hp (wake_ne _)
  | leave c =>
    simp only [Waiter.next]
    split
    · exact fun hp => absurd hp (by simp)
    · exact h

/-- A step makes it miss its condition only by going to sleep. -/
theorem missed_next_iff (h : w.Fresh) (hm : ¬ w.Missed) (a : Act) : ¬ (w.next a).Missed ↔ w.Alert a := by
  cases a with
  | sleep =>
    simp only [Waiter.next, Waiter.Alert]
    split
    · next hq =>
      rw [← h (.inl hq)]
      simp [Waiter.Missed, hq]
    · next hq => exact iff_of_true hm fun _ hq' => absurd hq' hq
  | change c =>
    refine iff_of_true ?_ (fun ha => by cases ha)
    simp only [Waiter.next]
    split
    · next hout => exact fun hp => absurd (hout.symm.trans hp.1) (by decide)
    · exact hm
  | enqueue =>
    refine iff_of_true ?_ (fun ha => by cases ha)
    simp only [Waiter.next]
    split
    · exact fun hp => absurd hp.1 (by simp)
    · exact hm
  | raise => exact iff_of_true (fun hp => wake_ne _ (.inr hp.1)) fun ha => by cases ha
  | wake => exact iff_of_true (fun hp => wake_ne _ (.inr hp.1)) fun ha => by cases ha
  | leave c =>
    refine iff_of_true ?_ (fun ha => by cases ha)
    simp only [Waiter.next]
    split
    · exact fun hp => absurd hp.1 (by simp)
    · exact hm

section View

variable {σ ι ο : Type*} {step : σ → ι → σ × ο} (view : σ → Waiter) (act : σ → ι → Option Act)

/-- The waiter in a machine's state moves as `act` says, or not at all. -/
def Views (step : σ → ι → σ × ο) : Prop :=
  ∀ s i, view (step s i).1 = (act s i).elim (view s) (view s).next

variable {view act}

theorem Views.fresh_step (hv : Views view act step) {s : σ} (h : (view s).Fresh) (i : ι) : (view (step s i).1).Fresh := by
  rw [hv s i]
  cases act s i with
  | none => exact h
  | some a => exact fresh_next h a

/-- The waiter in a machine never misses its condition exactly if it is alert at every
step. -/
theorem Views.not_missed_iff_guarded (hv : Views view act step) (is : List ι) {s : σ} (h : (view s).Fresh)
    (hm : ¬ (view s).Missed) : (∀ js, js <+: is → ¬ (view (exec step s js)).Missed) ↔
      Guarded step (fun s i => ∀ a ∈ act s i, (view s).Alert a) s is := by
  refine inv_iff_guarded (J := fun s => (view s).Fresh) (I := fun s => ¬ (view s).Missed) ?_ ?_ is h hm
  · exact fun s i hf _ => hv.fresh_step hf i
  · intro s i hf hn
    rw [hv s i]
    cases act s i with
    | none => exact iff_of_true hn fun a ha => by cases ha
    | some a =>
      simp only [Option.elim_some, Option.mem_some_iff, forall_eq']
      exact missed_next_iff hf hn a

end View

end WaitQueue
end La12xx
