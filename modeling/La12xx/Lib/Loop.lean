/-
# Counted loops

`loop n body s` is `for (i = 0; i < n; i++) s = body(i, s)`. What a loop does follows from
one round: an invariant that counts the rounds (`loop_inv`), a relation between two loops
(`loop_rel`); a loop that fills an array is `loop_update`.
-/
import Mathlib

namespace La12xx

section Loop

variable {σ : Type}

/-- A loop over `i` from 0 to `n - 1`. -/
def loop (n : ℕ) (body : ℕ → σ → σ) (s : σ) : σ := (List.range n).foldl (fun s i => body i s) s

variable {n : ℕ} {body : ℕ → σ → σ} {s : σ}

theorem loop_zero : loop 0 body s = s := rfl

theorem loop_succ : loop (n + 1) body s = body n (loop n body s) := by
  rw [loop, List.range_succ, List.foldl_append]
  rfl

theorem loop_four : loop 4 body s = body 3 (body 2 (body 1 (body 0 s))) := rfl

/-- What holds before the loop and is kept by its rounds. -/
theorem loop_inv {I : ℕ → σ → Prop} (h0 : I 0 s) (hstep : ∀ i < n, ∀ s, I i s → I (i + 1) (body i s)) :
    I n (loop n body s) := by
  have key : ∀ m, m ≤ n → I m (loop m body s) := by
    intro m
    induction m with
    | zero => exact fun _ => h0
    | succ m ih =>
      intro hm
      rw [loop_succ]
      exact hstep m hm _ (ih (Nat.le_of_lt hm))
  exact key n le_rfl

/-- Two loops whose rounds keep a relation. -/
theorem loop_rel {τ : Type} {body' : ℕ → τ → τ} {t : τ} {R : σ → τ → Prop} (h : R s t)
    (hstep : ∀ i < n, ∀ s t, R s t → R (body i s) (body' i t)) : R (loop n body s) (loop n body' t) := by
  have key : ∀ m, m ≤ n → R (loop m body s) (loop m body' t) := by
    intro m
    induction m with
    | zero => exact fun _ => h
    | succ m ih =>
      intro hm
      rw [loop_succ, loop_succ]
      exact hstep m hm _ _ (ih (Nat.le_of_lt hm))
  exact key n le_rfl

/-- A loop that stores at every index once. -/
theorem loop_update {α : Type} (n : ℕ) (v : ℕ → α) (f : ℕ → α) (j : ℕ) :
    loop n (fun i f => Function.update f i (v i)) f j = if j < n then v j else f j := by
  induction n with
  | zero => rw [loop_zero, if_neg (Nat.not_lt_zero j)]
  | succ n ih =>
    rw [loop_succ]
    by_cases hj : j = n
    · subst hj
      rw [Function.update_self, if_pos j.lt_succ_self]
    · rw [Function.update_of_ne hj, ih]
      exact if_congr (by omega) rfl rfl

end Loop
end La12xx
