/-
# Ledgers of resources

A ledger is what a piece of code acquires and releases, in order. A resource is kept
properly if it is never acquired while it is held and never released while it is not;
`held` follows one resource through a ledger and says whether it is held at the end, or
that it was not kept properly. The ledgers of a sequence of pieces are appended
(`held_append`), so what a function does to a resource is one equation about `held`.
-/
import Mathlib

namespace La12xx
namespace Ledger

/-- One entry of a ledger. -/
inductive Entry (ρ : Type*) where
  | acquire (r : ρ)
  | release (r : ρ)
deriving DecidableEq, Repr

section Held

variable {ρ ι : Type*} [DecidableEq ρ]

/-- Whether `r` is held after the ledger if it is kept properly; `b` says whether it was
held before. -/
def held (r : ρ) : Bool → List (Entry ρ) → Option Bool
  | b, [] => some b
  | b, .acquire x :: l => if x = r then (if b then none else held r true l) else held r b l
  | b, .release x :: l => if x = r then (if b then held r false l else none) else held r b l

variable {r : ρ} {b : Bool}

@[simp] theorem held_nil : held r b [] = some b := rfl

theorem held_append : ∀ (l : List (Entry ρ)) {b : Bool} (l' : List (Entry ρ)),
    held r b (l ++ l') = (held r b l).bind fun b => held r b l'
  | [], _, _ => rfl
  | .acquire x :: l, b, l' => by
    simp only [List.cons_append, held]
    split_ifs
    · rfl
    · exact held_append l l'
    · exact held_append l l'
  | .release x :: l, b, l' => by
    simp only [List.cons_append, held]
    split_ifs
    · exact held_append l l'
    · rfl
    · exact held_append l l'

/-- A ledger in which a resource is kept, and one more after it. -/
theorem held_append_of {l : List (Entry ρ)} {b' : Bool} (h : held r b l = some b') (l' : List (Entry ρ)) :
    held r b (l ++ l') = held r b' l' := by
  rw [held_append, h]
  rfl

@[simp] theorem held_acquire_cons (x : ρ) (l : List (Entry ρ)) :
    held r false (.acquire x :: l) = held r (decide (x = r)) l := by
  by_cases hx : x = r <;> simp [held, hx]

@[simp] theorem held_release_cons (x : ρ) (l : List (Entry ρ)) (h : x = r → b = true) :
    held r b (.release x :: l) = held r (b && !decide (x = r)) l := by
  by_cases hx : x = r <;> simp [held, hx, h]

/-- What is acquired beside a resource does not touch it. -/
theorem held_acquire_of_ne {x : ρ} (h : x ≠ r) (l : List (Entry ρ)) : held r b (.acquire x :: l) = held r b l := by
  simp [held, h]

theorem held_release_of_ne {x : ρ} (h : x ≠ r) (l : List (Entry ρ)) : held r b (.release x :: l) = held r b l := by
  simp [held, h]

/-- A family of resources that is released, each once, leaves none of them held and the
others as they were. -/
theorem held_releases {f : ι → ρ} (hf : Function.Injective f) : ∀ {is : List ι} {b : Bool}, is.Nodup →
    ((∃ i ∈ is, f i = r) → b = true) → held r b (is.map fun i => .release (f i)) = some (b && !decide (∃ i ∈ is, f i = r))
  | [], b, _, _ => by simp
  | i :: is, b, hnd, hb => by
    rw [List.nodup_cons] at hnd
    rw [List.map_cons, held]
    by_cases hi : f i = r
    · have hb' : b = true := hb ⟨i, List.mem_cons_self, hi⟩
      have hrest : ¬ ∃ j ∈ is, f j = r := by
        rintro ⟨j, hj, hjr⟩
        exact hnd.1 (hf (hi.trans hjr.symm) ▸ hj)
      rw [if_pos hi, if_pos hb', held_releases hf hnd.2 fun h => absurd h hrest]
      simp [hi]
    · rw [if_neg hi, held_releases hf hnd.2 fun ⟨j, hj, hjr⟩ => hb ⟨j, List.mem_cons_of_mem i hj, hjr⟩]
      simp [hi]

/-- A family of resources that is acquired, each once, is held afterwards, and the others are
as they were. -/
theorem held_acquires {f : ι → ρ} (hf : Function.Injective f) : ∀ {is : List ι} {b : Bool}, is.Nodup →
    ((∃ i ∈ is, f i = r) → b = false) → held r b (is.map fun i => .acquire (f i)) = some (b || decide (∃ i ∈ is, f i = r))
  | [], b, _, _ => by simp
  | i :: is, b, hnd, hb => by
    rw [List.nodup_cons] at hnd
    rw [List.map_cons, held]
    by_cases hi : f i = r
    · have hb' : b = false := hb ⟨i, List.mem_cons_self, hi⟩
      have hrest : ¬ ∃ j ∈ is, f j = r := by
        rintro ⟨j, hj, hjr⟩
        exact hnd.1 (hf (hi.trans hjr.symm) ▸ hj)
      rw [if_pos hi, if_neg (by rw [hb']; decide), held_acquires hf hnd.2 fun h => absurd h hrest]
      simp [hi]
    · rw [if_neg hi, held_acquires hf hnd.2 fun ⟨j, hj, hjr⟩ => hb ⟨j, List.mem_cons_of_mem i hj, hjr⟩]
      simp [hi]

/-- What is released and never acquired was not kept. -/
theorem held_of_not_acquired : ∀ {l : List (Entry ρ)}, .acquire r ∉ l → .release r ∈ l → held r false l = none
  | [], _, h => absurd h List.not_mem_nil
  | .acquire x :: l, hacq, h => by
    rw [List.mem_cons, not_or] at hacq
    rw [List.mem_cons] at h
    have hx : x ≠ r := fun hx => hacq.1 (hx ▸ rfl)
    rw [held_acquire_of_ne hx]
    exact held_of_not_acquired hacq.2 (h.resolve_left nofun)
  | .release x :: l, hacq, h => by
    rw [List.mem_cons, not_or] at hacq
    rw [List.mem_cons] at h
    by_cases hx : x = r
    · simp [held, hx]
    · rw [held_release_of_ne hx]
      exact held_of_not_acquired hacq.2 (h.resolve_left fun he => hx (Entry.release.inj he).symm)

/-- What is held and never released is held at the end. -/
theorem held_of_not_released : ∀ {l : List (Entry ρ)} {b : Bool}, .release r ∉ l → b = true ∨ .acquire r ∈ l →
    held r b l ≠ some false
  | [], b, _, h => by
    rcases h with rfl | h
    · simp
    · exact absurd h List.not_mem_nil
  | .acquire x :: l, b, hrel, h => by
    rw [List.mem_cons, not_or] at hrel
    by_cases hx : x = r
    · rw [held, if_pos hx]
      split_ifs
      · simp
      · exact held_of_not_released hrel.2 (Or.inl rfl)
    · rw [held_acquire_of_ne hx]
      apply held_of_not_released hrel.2
      refine h.imp_right fun hmem => ?_
      rw [List.mem_cons] at hmem
      exact hmem.resolve_left fun he => hx (Entry.acquire.inj he).symm
  | .release x :: l, b, hrel, h => by
    rw [List.mem_cons, not_or] at hrel
    have hx : x ≠ r := fun hx => hrel.1 (hx ▸ rfl)
    rw [held_release_of_ne hx]
    apply held_of_not_released hrel.2
    refine h.imp_right fun hmem => ?_
    rw [List.mem_cons] at hmem
    exact hmem.resolve_left nofun

/-- A ledger that acquires some resources, each once, and then releases the same ones, each
once, leaves nothing held. -/
theorem held_acquires_releases {as bs : List ρ} (has : as.Nodup) (hbs : bs.Nodup) (hiff : ∀ x, x ∈ as ↔ x ∈ bs) (r : ρ) :
    held r false (as.map .acquire ++ bs.map .release) = some false := by
  have hacq : held r false (as.map .acquire) = some (decide (r ∈ as)) := by
    have h := held_acquires (r := r) (b := false) Function.injective_id has fun _ => rfl
    simpa using h
  rw [held_append_of hacq]
  have h := held_releases (r := r) (b := decide (r ∈ as)) Function.injective_id hbs fun ⟨x, hx, hxr⟩ => by
    rw [← hxr]
    simpa using (hiff x).mpr hx
  simpa [← hiff] using h

/-- Only then: what is released is what was acquired. -/
theorem mem_iff_of_held {as bs : List ρ} (h : ∀ r, held r false (as.map .acquire ++ bs.map .release) = some false)
    (r : ρ) : r ∈ as ↔ r ∈ bs := by
  constructor
  · intro has
    by_contra hbs
    exact held_of_not_released (by simpa using hbs) (Or.inr (by simpa using has)) (h r)
  · intro hbs
    by_contra has
    have hnone : held r false (as.map .acquire ++ bs.map .release) = none :=
      held_of_not_acquired (by simpa using has) (by simpa using hbs)
    rw [h] at hnone
    cases hnone

end Held

end Ledger
end La12xx
