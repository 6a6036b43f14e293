/-
# Calls that index arrays

What a call on a state leaves: the array elements it has used, its return, if it
returns, what it hands out besides, and the state after it. `Validated` says that
every index lies in its array, or that the call has refused: it returns an error and
leaves the state as it was. What this comes to may depend on the return alone
(`validated_iff_contained`), or on one index (`validated_iff_of_index`).
-/
import Mathlib.Tactic

namespace La12xx
namespace Access

/-- What a call leaves; no return means that it does not return. -/
structure Outcome (α ο σ : Type*) where
  accesses : List (α × ℤ)
  ret : Option ℤ
  out : Option ο
  state : σ

section Outcome

variable {α ο σ : Type*} (size : α → ℕ) (same : σ → σ → Prop)

/-- The index lies in the array. -/
def InRange (a : α × ℤ) : Prop := 0 ≤ a.2 ∧ a.2 < size a.1

instance (a : α × ℤ) : Decidable (InRange size a) := inferInstanceAs (Decidable (_ ∧ _))

/-- Every index used lies in its array. -/
def Outcome.Contained (o : Outcome α ο σ) : Prop := ∀ a ∈ o.accesses, InRange size a

/-- The call returns an error and has changed nothing. -/
def Outcome.Refused (s : σ) (o : Outcome α ο σ) : Prop := (∃ n < 0, o.ret = some n) ∧ same s o.state

def Validated (s : σ) (o : Outcome α ο σ) : Prop := o.Contained size ∨ o.Refused same s

/-- A return before any access. -/
def Outcome.done (n : ℤ) (s : σ) : Outcome α ο σ := ⟨[], some n, none, s⟩

variable {size same} {s : σ} {o : Outcome α ο σ}

theorem validated_of_nil (h : o.accesses = []) : Validated size same s o :=
  .inl fun a ha => by simp [h] at ha

theorem validated_done (n : ℤ) : Validated size same s (Outcome.done n s : Outcome α ο σ) := validated_of_nil rfl

/-- A call that returns no error is right only within its arrays. -/
theorem validated_iff_contained (h : ∀ n, o.ret = some n → 0 ≤ n) : Validated size same s o ↔ o.Contained size := by
  constructor
  · rintro (hc | ⟨⟨n, hn, hret⟩, -⟩)
    · exact hc
    · exact absurd (h n hret) (not_le.mpr hn)
  · exact .inl

/-- A call whose accesses all lie at one index is right if that is in range, and else exactly
if it refuses. -/
theorem validated_iff_of_index {Q P : Prop} (hc : o.Contained size ↔ Q) (hr : ¬ Q → (o.Refused same s ↔ P)) :
    Validated size same s o ↔ Q ∨ P := by
  rw [Validated, hc]
  by_cases hQ : Q
  · exact iff_of_true (.inl hQ) (.inl hQ)
  · rw [hr hQ]

@[simp] theorem contained_cons {a : α × ℤ} {l : List (α × ℤ)} {r : Option ℤ} {x : Option ο} {t : σ} :
    (⟨a :: l, r, x, t⟩ : Outcome α ο σ).Contained size ↔
      InRange size a ∧ (⟨l, r, x, t⟩ : Outcome α ο σ).Contained size :=
  List.forall_mem_cons

@[simp] theorem contained_nil {r : Option ℤ} {x : Option ο} {t : σ} : (⟨[], r, x, t⟩ : Outcome α ο σ).Contained size :=
  fun _ ha => absurd ha List.not_mem_nil

end Outcome

end Access
end La12xx
