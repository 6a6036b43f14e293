/-
# Machines driven by a list of inputs

A machine is a function `step : σ → ι → σ × ο`: the state and the output
after one input. A run is a list of inputs; an interleaving of several
parties is a run whose inputs say who moves. What holds of every run is
proved from one step: an invariant (`exec_inv`), an invariant that needs
every input to meet a condition in the state it arrives in
(`exec_inv_of_guarded`), a property of every output (`outs_inv`), the outputs of
a machine that keeps its state (`outs_eq_map`) or answers without a look at it
(`outs_eq_map_of_answer`), and the agreement of two machines
(`exec_rel`, `outs_eq_of_rel`, `rel_of_guarded`). Where the condition is also
necessary for a step, a property holds in every state of a run exactly if the
run meets it (`inv_iff_guarded`), and every output is as it should be exactly then
(`outs_iff_guarded`). Where a step moves one of several parties,
`forall_update₂_iff` splits what holds of each.
-/
import Mathlib

namespace La12xx
namespace Machine

section Run

variable {σ ι ο : Type*} (step : σ → ι → σ × ο)

/-- The state after the inputs, in order, from `s`. -/
def exec : σ → List ι → σ
  | s, [] => s
  | s, i :: is => exec (step s i).1 is

/-- The outputs of a run, each with the input it answers. -/
def outs : σ → List ι → List (ι × ο)
  | _, [] => []
  | s, i :: is => (i, (step s i).2) :: outs (step s i).1 is

/-- Every input of the run meets `G` in the state it arrives in. -/
def Guarded (G : σ → ι → Prop) : σ → List ι → Prop
  | _, [] => True
  | s, i :: is => G s i ∧ Guarded G (step s i).1 is

instance decidableGuarded {G : σ → ι → Prop} [h : ∀ s i, Decidable (G s i)] :
    ∀ s is, Decidable (Guarded step G s is)
  | _, [] => inferInstanceAs (Decidable True)
  | s, i :: is => @instDecidableAnd _ _ (h s i) (decidableGuarded (step s i).1 is)

variable {step} in
/-- The beginning of a guarded run is guarded. -/
theorem Guarded.initial {G : σ → ι → Prop} : ∀ {s : σ} {is js : List ι}, Guarded step G s is → js <+: is → Guarded step G s js
  | _, _, [], _, _ => trivial
  | _, [], _ :: _, _, hjs => absurd hjs (by simp)
  | _, _ :: _, _ :: _, h, hjs => by
    obtain ⟨rfl, hpre⟩ := List.cons_prefix_cons.mp hjs
    exact ⟨h.1, h.2.initial hpre⟩

variable {step} in
/-- The last input of a guarded run meets the condition where it arrives. -/
theorem Guarded.last {G : σ → ι → Prop} {i : ι} {s : σ} {is : List ι} (h : Guarded step G s (is ++ [i])) :
    G (exec step s is) i := by
  induction is generalizing s with
  | nil => exact h.1
  | cons j is ih => exact ih h.2

variable {step} in
/-- A condition on the inputs alone can be met beside another. -/
theorem guarded_and {G : σ → ι → Prop} {H : ι → Prop} : ∀ {s : σ} {is : List ι}, Guarded step G s is → (∀ i ∈ is, H i) →
    Guarded step (fun s i => G s i ∧ H i) s is
  | _, [], _, _ => trivial
  | _, i :: _, h, hall =>
    ⟨⟨h.1, hall i List.mem_cons_self⟩, guarded_and h.2 fun j hj => hall j (List.mem_cons_of_mem i hj)⟩

variable {step} in
/-- A condition on the inputs alone is met throughout if every input meets it. -/
theorem guarded_iff_forall {H : ι → Prop} : ∀ {s : σ} {is : List ι}, Guarded step (fun _ i => H i) s is ↔ ∀ i ∈ is, H i
  | _, [] => iff_of_true trivial fun _ hi => absurd hi List.not_mem_nil
  | _, i :: is => by
    rw [Guarded, List.forall_mem_cons, guarded_iff_forall]

theorem exec_append (s : σ) (is js : List ι) :
    exec step s (is ++ js) = exec step (exec step s is) js := by
  induction is generalizing s with
  | nil => rfl
  | cons i is ih => exact ih (step s i).1

variable {step} in
/-- What no input of the run asks for is met throughout. -/
theorem guarded_of_forall {G : σ → ι → Prop} {is : List ι} {s : σ} (h : ∀ i ∈ is, ∀ t, G t i) : Guarded step G s is := by
  induction is generalizing s with
  | nil => trivial
  | cons i is ih =>
    rw [List.forall_mem_cons] at h
    exact ⟨h.1 s, ih h.2⟩

variable {step} in
/-- A run that is two runs is guarded if each is, the second from where the first ends. -/
theorem guarded_append {G : σ → ι → Prop} {js : List ι} : ∀ {is : List ι} {s : σ},
    Guarded step G s (is ++ js) ↔ Guarded step G s is ∧ Guarded step G (exec step s is) js
  | [], _ => by rw [List.nil_append, Guarded, exec, true_and]
  | i :: is, s => by
    rw [List.cons_append, Guarded, Guarded, exec, and_assoc, guarded_append]

/-- Some run leads from `s` to `t`. -/
def Reaches (s t : σ) : Prop := ∃ is, exec step s is = t

variable {step}

theorem Reaches.refl (s : σ) : Reaches step s s := ⟨[], rfl⟩

theorem Reaches.trans {s t u : σ} (h : Reaches step s t) (h' : Reaches step t u) : Reaches step s u := by
  obtain ⟨is, rfl⟩ := h
  obtain ⟨js, rfl⟩ := h'
  exact ⟨is ++ js, exec_append step s is js⟩

theorem Reaches.head {s t : σ} (i : ι) (h : Reaches step (step s i).1 t) : Reaches step s t := by
  obtain ⟨is, rfl⟩ := h
  exact ⟨i :: is, rfl⟩

/-- A property every step keeps holds after every run. -/
theorem exec_inv {I : σ → Prop} (hstep : ∀ s i, I s → I (step s i).1) :
    ∀ (is : List ι) {s : σ}, I s → I (exec step s is)
  | [], _, h => h
  | i :: is, s, h => exec_inv hstep is (hstep s i h)

/-- A property every step that meets `G` keeps holds after every run whose
steps all meet `G`. -/
theorem exec_inv_of_guarded {I : σ → Prop} {G : σ → ι → Prop}
    (hstep : ∀ s i, I s → G s i → I (step s i).1) :
    ∀ (is : List ι) {s : σ}, I s → Guarded step G s is → I (exec step s is)
  | [], _, h, _ => h
  | i :: is, s, h, hg => exec_inv_of_guarded hstep is (hstep s i h hg.1) hg.2

/-- A run that meets `G` throughout meets whatever follows from `G` and a property it
keeps. -/
theorem guarded_of_inv {I : σ → Prop} {G H : σ → ι → Prop} (hstep : ∀ s i, I s → G s i → I (step s i).1)
    (himp : ∀ s i, I s → G s i → H s i) :
    ∀ (is : List ι) {s : σ}, I s → Guarded step G s is → Guarded step H s is
  | [], _, _, _ => trivial
  | i :: is, s, h, hg => ⟨himp s i h hg.1, guarded_of_inv hstep himp is (hstep s i h hg.1) hg.2⟩

variable (step) in
/-- `I` holds in every state of the run, its first included. -/
def Along (I : σ → Prop) : σ → List ι → Prop
  | s, [] => I s
  | s, i :: is => I s ∧ Along I (step s i).1 is

/-- The states of a run that is two runs. -/
theorem along_append {I : σ → Prop} {js : List ι} : ∀ {is : List ι} {s : σ}, Along step I s is →
    Along step I (exec step s is) js → Along step I s (is ++ js)
  | [], _, _, h => h
  | _ :: _, _, h, h' => ⟨h.1, along_append h.2 h'⟩

/-- The states of a run are those its beginnings end in. -/
theorem along_iff_exec {I : σ → Prop} : ∀ (is : List ι) {s : σ},
    Along step I s is ↔ ∀ js, js <+: is → I (exec step s js)
  | [], s => by
    simp [Along, exec]
  | i :: is, s => by
    rw [Along, along_iff_exec is]
    constructor
    · rintro ⟨hs, hrest⟩ js hjs
      cases js with
      | nil => exact hs
      | cons j js =>
        obtain ⟨rfl, hpre⟩ := List.cons_prefix_cons.mp hjs
        exact hrest js hpre
    · intro h
      exact ⟨h [] (List.nil_prefix), fun js hjs => h (i :: js) (List.cons_prefix_cons.mpr ⟨rfl, hjs⟩)⟩

theorem Along.head {I : σ → Prop} {is : List ι} {s : σ} (h : Along step I s is) : I s := by
  cases is with
  | nil => exact h
  | cons i is => exact h.1

/-- If, beside an invariant `J`, a step from a state with `I` leads to one with `I`
exactly when it meets `G`, the runs that keep `I` are those that meet `G` throughout. -/
theorem inv_iff_guarded {I J : σ → Prop} {G : σ → ι → Prop} (hJ : ∀ s i, J s → I s → J (step s i).1)
    (hstep : ∀ s i, J s → I s → (I (step s i).1 ↔ G s i)) (is : List ι) {s : σ} (hs : J s) (h : I s) :
    (∀ js, js <+: is → I (exec step s js)) ↔ Guarded step G s is := by
  rw [← along_iff_exec]
  induction is generalizing s with
  | nil => exact iff_of_true h trivial
  | cons i is ih =>
    constructor
    · rintro ⟨-, hrest⟩
      exact ⟨(hstep s i hs h).mp hrest.head, (ih (hJ s i hs h) hrest.head).mp hrest⟩
    · rintro ⟨hg, hrest⟩
      have hi : I (step s i).1 := (hstep s i hs h).mpr hg
      exact ⟨h, (ih (hJ s i hs h) hi).mpr hrest⟩

/-- Under an invariant, what every step's output satisfies holds of every
output of a run. -/
theorem outs_inv {I : σ → Prop} {Q : ι → ο → Prop} (hstep : ∀ s i, I s → I (step s i).1)
    (hout : ∀ s i, I s → Q i (step s i).2) :
    ∀ (is : List ι) {s : σ}, I s → ∀ p ∈ outs step s is, Q p.1 p.2
  | [], _, _, p, hp => by simp [outs] at hp
  | i :: is, s, h, p, hp => by
    rcases List.mem_cons.mp hp with rfl | hp
    · exact hout s i h
    · exact outs_inv hstep hout is (hstep s i h) p hp

/-- An output of a run is given in a state the run goes through. -/
theorem exists_of_mem_outs : ∀ {is : List ι} {s : σ} {p : ι × ο}, p ∈ outs step s is →
    ∃ js, js ++ [p.1] <+: is ∧ p.2 = (step (exec step s js) p.1).2
  | [], _, p, hp => by simp [outs] at hp
  | i :: is, s, p, hp => by
    rcases List.mem_cons.mp hp with rfl | hp
    · exact ⟨[], List.cons_prefix_cons.mpr ⟨rfl, List.nil_prefix⟩, rfl⟩
    · obtain ⟨js, hjs, hout⟩ := exists_of_mem_outs hp
      exact ⟨i :: js, List.cons_prefix_cons.mpr ⟨rfl, hjs⟩, hout⟩

/-- If an output is as it should be exactly when its step meets `G`, and such steps keep
`I`, the runs whose outputs all are so are those that meet `G` throughout. -/
theorem outs_iff_guarded {I : σ → Prop} {G : σ → ι → Prop} {Q : ι → ο → Prop}
    (hstep : ∀ s i, I s → G s i → I (step s i).1) (hout : ∀ s i, I s → (Q i (step s i).2 ↔ G s i)) :
    ∀ (is : List ι) {s : σ}, I s → ((∀ p ∈ outs step s is, Q p.1 p.2) ↔ Guarded step G s is)
  | [], _, _ => iff_of_true (fun p hp => by simp [outs] at hp) trivial
  | i :: is, s, h => by
    rw [outs, List.forall_mem_cons, hout s i h]
    exact and_congr_right fun hg => outs_iff_guarded hstep hout is (hstep s i h hg)

/-- In a run whose steps all meet `G`, what the output of such a step satisfies holds of
every output. -/
theorem outs_of_guarded {I : σ → Prop} {G : σ → ι → Prop} {Q : ι → ο → Prop}
    (hstep : ∀ s i, I s → G s i → I (step s i).1) (hout : ∀ s i, I s → G s i → Q i (step s i).2) :
    ∀ (is : List ι) {s : σ}, I s → Guarded step G s is → ∀ p ∈ outs step s is, Q p.1 p.2
  | [], _, _, _, p, hp => by simp [outs] at hp
  | i :: is, s, h, hg, p, hp => by
    rcases List.mem_cons.mp hp with rfl | hp
    · exact hout s i h hg.1
    · exact outs_of_guarded hstep hout is (hstep s i h hg.1) hg.2 p hp

/-- A machine that keeps its state answers every input as it does at first. -/
theorem outs_eq_map {s : σ} (hs : ∀ i, (step s i).1 = s) :
    ∀ is : List ι, outs step s is = is.map fun i => (i, (step s i).2)
  | [] => rfl
  | i :: is => by
    rw [outs, hs i, outs_eq_map hs is, List.map_cons]

/-- So does a machine whose answer does not depend on its state. -/
theorem outs_eq_map_of_answer {f : ι → ο} (hf : ∀ s i, (step s i).2 = f i) (s : σ) (is : List ι) :
    outs step s is = is.map fun i => (i, f i) := by
  induction is generalizing s with
  | nil => rfl
  | cons i is ih => rw [outs, hf, ih, List.map_cons]

end Run

section Rel

variable {σ σ' ι ο : Type*} {step : σ → ι → σ × ο} {step' : σ' → ι → σ' × ο} {R : σ → σ' → Prop}

/-- Two machines whose steps keep `R` are related after every run. -/
theorem exec_rel (hR : ∀ s t i, R s t → R (step s i).1 (step' t i).1) :
    ∀ (is : List ι) {s : σ} {t : σ'}, R s t → R (exec step s is) (exec step' t is)
  | [], _, _, h => h
  | i :: is, s, t, h => exec_rel hR is (hR s t i h)

/-- Two machines whose steps keep `R` and answer alike answer a whole run
alike. -/
theorem outs_eq_of_rel (hR : ∀ s t i, R s t → R (step s i).1 (step' t i).1)
    (hO : ∀ s t i, R s t → (step s i).2 = (step' t i).2) :
    ∀ (is : List ι) {s : σ} {t : σ'}, R s t → outs step s is = outs step' t is
  | [], _, _, _ => rfl
  | i :: is, s, t, h => by
    simp only [outs]
    rw [hO s t i h, outs_eq_of_rel hR hO is (hR s t i h)]

/-- The same for two machines whose steps do so when they meet `G`. -/
theorem rel_of_guarded {G : σ → ι → Prop} (hstep : ∀ s t i, R s t → G s i →
      R (step s i).1 (step' t i).1 ∧ (step s i).2 = (step' t i).2) :
    ∀ (is : List ι) {s : σ} {t : σ'}, R s t → Guarded step G s is →
      R (exec step s is) (exec step' t is) ∧ outs step s is = outs step' t is
  | [], _, _, h, _ => ⟨h, rfl⟩
  | i :: is, s, t, h, hg => by
    obtain ⟨hrel, hout⟩ := hstep s t i h hg.1
    obtain ⟨hrel', hout'⟩ := rel_of_guarded hstep is hrel hg.2
    simp only [outs]
    rw [hout, hout']
    exact ⟨hrel', rfl⟩

end Rel

/-- What holds of every party of a machine, in each of two parts of the state, after one
of them has moved. -/
theorem forall_update₂_iff {α β γ : Type*} [DecidableEq α] {P : α → β → γ → Prop} (f : α → β) (g : α → γ) {i : α}
    {b : β} {c : γ} :
    (∀ j, P j (Function.update f i b j) (Function.update g i c j)) ↔ P i b c ∧ ∀ j, j ≠ i → P j (f j) (g j) := by
  constructor
  · intro h
    refine ⟨?_, fun j hj => ?_⟩
    · have hi := h i
      rwa [Function.update_self, Function.update_self] at hi
    · have hj' := h j
      rwa [Function.update_of_ne hj, Function.update_of_ne hj] at hj'
  · rintro ⟨hi, hne⟩ j
    by_cases hj : j = i
    · subst hj
      rwa [Function.update_self, Function.update_self]
    · rw [Function.update_of_ne hj, Function.update_of_ne hj]
      exact hne j hj

end Machine
end La12xx
