/-
# Histories of a protocol

A protocol is a relation `next : σ → ε → σ → Prop`: at which stage which event may happen,
and where it leads. `Path next s es t` says that the events `es`, in order, lead from
`s` to `t`. A machine that gives out events in each step keeps to the protocol if each
of its steps does (`path_of_exec`). What comes before an event is found by going one
event back from the stage it needs (`Path.last`), and a stage without a way out ends
every history (`Path.nil_of_dead`).
-/
import La12xx.Lib.Machine

namespace La12xx
namespace History

open Machine

section Path

variable {σ ε : Type*} {next : σ → ε → σ → Prop}

/-- The events lead from one stage to another. -/
inductive Path (next : σ → ε → σ → Prop) : σ → List ε → σ → Prop
  | nil (s : σ) : Path next s [] s
  | cons {s t u : σ} {e : ε} {es : List ε} : next s e t → Path next t es u → Path next s (e :: es) u

variable {s t u : σ} {e : ε} {es es' : List ε}

theorem Path.single (h : next s e t) : Path next s [e] t := .cons h (.nil t)

theorem Path.append (h : Path next s es t) (h' : Path next t es' u) : Path next s (es ++ es') u := by
  induction h with
  | nil => exact h'
  | cons hnext _ ih => exact .cons hnext (ih h')

/-- A history stops at some stage in between. -/
theorem Path.split (h : Path next s (es ++ es') u) : ∃ t, Path next s es t ∧ Path next t es' u := by
  induction es generalizing s with
  | nil => exact ⟨s, .nil s, h⟩
  | cons e es ih =>
    cases h with
    | cons hnext hrest =>
      obtain ⟨t, ht, hu⟩ := ih hrest
      exact ⟨t, .cons hnext ht, hu⟩

/-- An event in a history happens at some stage. -/
theorem Path.event (h : Path next s (es ++ e :: es') u) :
    ∃ t t', Path next s es t ∧ next t e t' ∧ Path next t' es' u := by
  obtain ⟨t, ht, hu⟩ := h.split
  cases hu with
  | cons hnext hrest => exact ⟨t, _, ht, hnext, hrest⟩

/-- A history that leads elsewhere has a last event. -/
theorem Path.last (h : Path next s es u) (hne : u ≠ s) :
    ∃ es' e t, es = es' ++ [e] ∧ Path next s es' t ∧ next t e u := by
  rcases List.eq_nil_or_concat es with rfl | ⟨es', e, rfl⟩
  · cases h
    exact absurd rfl hne
  · rw [List.concat_eq_append] at h
    obtain ⟨t, ht, hlast⟩ := h.split
    cases hlast with
    | cons hnext hrest =>
      cases hrest
      exact ⟨es', e, t, List.concat_eq_append, ht, hnext⟩

/-- Nothing happens at a stage without a way out. -/
theorem Path.nil_of_dead (h : Path next s es u) (hdead : ∀ e t, ¬ next s e t) : es = [] := by
  cases h with
  | nil => rfl
  | cons hnext _ => exact absurd hnext (hdead _ _)

/-- What every event keeps holds after a history. -/
theorem Path.inv {I : σ → Prop} (h : Path next s es u) (hstep : ∀ s e t, next s e t → I s → I t) (hs : I s) : I u := by
  induction h with
  | nil => exact hs
  | cons hnext _ ih => exact ih (hstep _ _ _ hnext hs)

end Path

section Exec

variable {σ τ ι ε : Type*} (step : τ → ι → τ × List ε)

/-- What a run gives out. -/
def history : τ → List ι → List ε
  | _, [] => []
  | t, i :: is => (step t i).2 ++ history (step t i).1 is

variable {step} {next : σ → ε → σ → Prop} {R : τ → σ → Prop}

/-- A machine whose steps keep to the protocol does so in a whole run. -/
theorem path_of_exec (hstep : ∀ t s i, R t s → ∃ s', Path next s (step t i).2 s' ∧ R (step t i).1 s') :
    ∀ (is : List ι) {t : τ} {s : σ}, R t s → ∃ s', Path next s (history step t is) s' ∧ R (exec step t is) s' := by
  intro is
  induction is with
  | nil => exact fun h => ⟨_, .nil _, h⟩
  | cons i is ih =>
    intro t s h
    obtain ⟨s₁, h₁, hR₁⟩ := hstep t s i h
    obtain ⟨s₂, h₂, hR₂⟩ := ih hR₁
    exact ⟨s₂, h₁.append h₂, hR₂⟩

end Exec

end History
end La12xx
