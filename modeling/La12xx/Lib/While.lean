/-
# Loops with a break

A loop `while (cond) body` goes from state to state; its body gives the next
state, or none where it breaks out. It ends after at most `n` rounds
(`EndsWithin`) if some measure that is positive while the condition holds falls
with every round that goes on (`endsWithin_of_measure`), and it never ends if
it comes to a state that a round leaves as it is (`not_endsWithin_of_stuck`).
What the rounds put out is what the states put out that the loop comes to
(`forall_outputs_iff`).
-/
import Mathlib

namespace La12xx
namespace While

variable {σ : Type*} (cond : σ → Prop) (body : σ → Option σ)

/-- From `s` the loop ends after at most `n` rounds. -/
def EndsWithin : ℕ → σ → Prop
  | 0, s => ¬ cond s
  | n + 1, s => cond s → ∀ t, body s = some t → EndsWithin n t

/-- The loop comes from one state to the other. -/
inductive Reaches : σ → σ → Prop
  | refl (s : σ) : Reaches s s
  | round {s t u : σ} (hs : cond s) (hbody : body s = some t) (hrest : Reaches t u) : Reaches s u

variable {cond body}

/-- What every round keeps holds of all states the loop comes to. -/
theorem Reaches.inv {I : σ → Prop} (hstep : ∀ s t, I s → cond s → body s = some t → I t) {s t : σ}
    (h : Reaches cond body s t) (hs : I s) : I t := by
  induction h with
  | refl s => exact hs
  | round hcond hbody _ ih => exact ih (hstep _ _ hs hcond hbody)

/-- **The bound.** As many rounds as the measure says are enough. -/
theorem endsWithin_of_measure (μ : σ → ℕ) (hpos : ∀ s, cond s → 0 < μ s) : ∀ (n : ℕ) (s : σ), μ s ≤ n →
    (∀ t, Reaches cond body s t → cond t → ∀ u, body t = some u → μ u < μ t) → EndsWithin cond body n s
  | 0, s, hn, _ => fun hs => by
    have := hpos s hs
    omega
  | n + 1, s, hn, hdec => by
    intro hs t ht
    have hlt := hdec s (.refl s) hs t ht
    exact endsWithin_of_measure μ hpos n t (by omega) fun u hu => hdec u (.round hs ht hu)

/-- A loop that comes to a state and stays there does not end. -/
theorem not_endsWithin_of_stuck {s t : σ} (h : Reaches cond body s t) (ht : cond t) (hstuck : body t = some t) :
    ∀ n, ¬ EndsWithin cond body n s := by
  induction h with
  | refl s =>
    intro n
    induction n with
    | zero => exact fun hend => hend ht
    | succ n ih => exact fun hend => ih (hend ht s hstuck)
  | round hs hbody _ ih =>
    intro n hend
    cases n with
    | zero => exact hend hs
    | succ n => exact ih ht hstuck n (hend hs _ hbody)

section Outputs

variable {ε : Type*} (cond) (body) [DecidablePred cond] (out : σ → List ε)

/-- What at most `n` rounds put out. -/
def outputs : ℕ → σ → List ε
  | 0, _ => []
  | n + 1, s => if cond s then out s ++ (body s).elim [] (outputs n) else []

variable {cond} {body} {out}

/-- **All that is ever put out** comes from a round the loop comes to. -/
theorem forall_outputs_iff {P : ε → Prop} {s : σ} :
    (∀ n, ∀ e ∈ outputs cond body out n s, P e) ↔ ∀ t, Reaches cond body s t → cond t → ∀ e ∈ out t, P e := by
  constructor
  · intro h t hreach
    induction hreach with
    | refl s =>
      intro hs e he
      have h1 := h 1 e
      rw [outputs, if_pos hs] at h1
      exact h1 (List.mem_append_left _ he)
    | round hs hbody _ ih =>
      apply ih
      intro n e he
      have hn := h (n + 1) e
      rw [outputs, if_pos hs, hbody] at hn
      exact hn (List.mem_append_right _ he)
  · intro h n
    induction n generalizing s with
    | zero => exact fun e he => absurd he List.not_mem_nil
    | succ n ih =>
      intro e he
      rw [outputs] at he
      by_cases hs : cond s
      · rw [if_pos hs] at he
        rcases List.mem_append.mp he with hout | hrest
        · exact h s (.refl s) hs e hout
        · rcases hbody : body s with _ | t
          · rw [hbody] at hrest
            exact absurd hrest List.not_mem_nil
          · rw [hbody] at hrest
            exact ih (fun u hu => h u (.round hs hbody hu)) e hrest
      · rw [if_neg hs] at he
        exact absurd he List.not_mem_nil

end Outputs

end While
end La12xx
