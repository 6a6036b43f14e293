/-
# A stack of regions with lazy reclamation

Regions are handed out from a window in stack order: a new region starts
where the last one ends (`start`). A region is given back in any order, but
its space is reclaimed only when everything above it is given back too: a
released region is marked (`killFirst`) and the dead regions on top are
popped (`collect`). What the clients of such an allocator need:

* after `collect` the top is live (`topLive_collect`), and no live region is
  lost (`filter_collect`);
* with a live top, no live region means an empty stack
  (`eq_nil_of_topLive`): nothing leaks, whatever the order of the releases;
* the regions are pairwise disjoint and below the top (`start_add_le`,
  `start_le_total`).
-/
import Mathlib

namespace La12xx
namespace LazyStack

variable {α : Type*}

/-! ### Where the regions lie -/

section Layout

variable (size : α → ℕ)

/-- The space the regions take. -/
def total (l : List α) : ℕ := (l.map size).sum

/-- The offset of region `i` in the window. -/
def start (l : List α) (i : ℕ) : ℕ := total size (l.take i)

@[simp] theorem total_nil : total size ([] : List α) = 0 := rfl

@[simp] theorem total_append (l l' : List α) : total size (l ++ l') = total size l + total size l' := by
  simp [total]

@[simp] theorem total_singleton (a : α) : total size [a] = size a := by simp [total]

theorem start_zero (l : List α) : start size l 0 = 0 := by simp [start]

theorem start_length (l : List α) : start size l l.length = total size l := by simp [start]

theorem start_succ {l : List α} {i : ℕ} (h : i < l.length) :
    start size l (i + 1) = start size l i + size l[i] := by
  rw [start, List.take_succ_eq_append_getElem h, total_append, total_singleton]
  rfl

theorem start_append_left {l l' : List α} {i : ℕ} (h : i ≤ l.length) :
    start size (l ++ l') i = start size l i := by
  rw [start, start, List.take_append_of_le_length h]

theorem start_mono (l : List α) {i j : ℕ} (h : i ≤ j) : start size l i ≤ start size l j := by
  have hp : l.take i <+: l.take j := List.take_prefix_take_left h
  obtain ⟨t, ht⟩ := hp
  rw [start, start, ← ht, total_append]
  exact Nat.le_add_right _ _

/-- The layout depends on the sizes alone. -/
theorem total_congr {l l' : List α} (h : l.map size = l'.map size) : total size l = total size l' := by
  rw [total, total, h]

theorem start_congr {l l' : List α} (h : l.map size = l'.map size) (i : ℕ) :
    start size l i = start size l' i := by
  apply total_congr
  rw [List.map_take, List.map_take, h]

/-- A region ends before any region above it starts. -/
theorem start_add_le {l : List α} {i j : ℕ} (hi : i < l.length) (h : i < j) :
    start size l i + size l[i] ≤ start size l j := by
  rw [← start_succ size hi]
  exact start_mono size l h

/-- Every region ends inside the space taken. -/
theorem start_le_total {l : List α} {i : ℕ} (hi : i < l.length) :
    start size l i + size l[i] ≤ total size l := by
  rw [← start_length]
  exact start_add_le size hi hi

end Layout

/-- A region of a stack with `a` on top is below the top or is `a`. -/
theorem getElem?_concat_cases {l : List α} {a b : α} {i : ℕ} (h : (l ++ [a])[i]? = some b) :
    (i < l.length ∧ l[i]? = some b) ∨ (i = l.length ∧ b = a) := by
  rcases Nat.lt_trichotomy i l.length with hi | rfl | hi
  · rw [List.getElem?_append_left hi] at h
    exact Or.inl ⟨hi, h⟩
  · rw [List.getElem?_concat_length, Option.some.injEq] at h
    exact Or.inr ⟨rfl, h.symm⟩
  · rw [List.getElem?_eq_none (by simpa using hi)] at h
    cases h

/-! ### Popping the dead regions on top -/

section Collect

variable (live : α → Bool)

/-- Pop the dead regions on top. -/
def collect (l : List α) : List α := l.rdropWhile fun a => !live a

/-- The stack is empty or its top is live. -/
def TopLive (l : List α) : Prop := ∀ h : l ≠ [], live (l.getLast h) = true

theorem topLive_nil : TopLive live [] := fun h => absurd rfl h

theorem topLive_concat {l : List α} {a : α} (h : live a = true) : TopLive live (l ++ [a]) := by
  intro _
  simpa using h

theorem collect_concat_live {l : List α} {a : α} (h : live a = true) :
    collect live (l ++ [a]) = l ++ [a] :=
  List.rdropWhile_concat_neg _ _ _ (by simp [h])

theorem collect_concat_dead {l : List α} {a : α} (h : live a = false) :
    collect live (l ++ [a]) = collect live l :=
  List.rdropWhile_concat_pos _ _ _ (by simp [h])

theorem collect_isPrefix (l : List α) : collect live l <+: l := List.rdropWhile_prefix _ _

theorem topLive_collect (l : List α) : TopLive live (collect live l) := by
  intro h
  have := List.rdropWhile_last_not (fun a => !live a) l h
  simpa [collect] using this

/-- Popping loses no live region. -/
theorem filter_collect (l : List α) : (collect live l).filter live = l.filter live := by
  induction l using List.reverseRecOn with
  | nil => rfl
  | append_singleton l a ih =>
    cases ha : live a with
    | false => simp [collect_concat_dead live ha, ih, List.filter_append, ha]
    | true => rw [collect_concat_live live ha]

/-- With a live top, a stack without live regions is empty. -/
theorem eq_nil_of_topLive {l : List α} (ht : TopLive live l) (h : l.filter live = []) : l = [] := by
  by_contra hne
  have hmem := List.getLast_mem hne
  have := List.filter_eq_nil_iff.mp h _ hmem
  exact this (ht hne)

end Collect

/-! ### Releasing a region -/

section Kill

variable (p : α → Bool) (kill : α → α)

/-- Mark the lowest region that matches. -/
def killFirst : List α → List α
  | [] => []
  | a :: l => if p a then kill a :: l else a :: killFirst l

theorem length_killFirst : ∀ l : List α, (killFirst p kill l).length = l.length
  | [] => rfl
  | a :: l => by
    rw [killFirst]
    split
    · rfl
    · rw [List.length_cons, length_killFirst l, List.length_cons]

/-- Marking keeps what the mark does not touch. -/
theorem map_killFirst {β : Type*} (f : α → β) (hf : ∀ a, f (kill a) = f a) :
    ∀ l : List α, (killFirst p kill l).map f = l.map f
  | [] => rfl
  | a :: l => by
    rw [killFirst]
    split
    · simp [hf]
    · simp [map_killFirst f hf l]

/-- Marking changes the lowest match and nothing else. -/
theorem getElem?_killFirst : ∀ (l : List α) (i : ℕ),
    (killFirst p kill l)[i]? = l[i]?.map fun a => if l.findIdx p = i then kill a else a
  | [], i => rfl
  | a :: l, 0 => by by_cases ha : p a = true <;> simp [killFirst, List.findIdx_cons, ha]
  | a :: l, i + 1 => by
    by_cases ha : p a = true
    · simp [killFirst, List.findIdx_cons, ha]
    · simp [killFirst, List.findIdx_cons, ha, getElem?_killFirst l i]

theorem mem_killFirst {b : α} : ∀ l : List α, b ∈ killFirst p kill l → b ∈ l ∨ ∃ a ∈ l, b = kill a
  | [], h => by simp [killFirst] at h
  | a :: l, h => by
    rw [killFirst] at h
    split at h
    · rcases List.mem_cons.mp h with rfl | h
      · exact Or.inr ⟨a, List.mem_cons_self, rfl⟩
      · exact Or.inl (List.mem_cons_of_mem _ h)
    · rcases List.mem_cons.mp h with rfl | h
      · exact Or.inl List.mem_cons_self
      · rcases mem_killFirst l h with h | ⟨x, hx, rfl⟩
        · exact Or.inl (List.mem_cons_of_mem _ h)
        · exact Or.inr ⟨x, List.mem_cons_of_mem _ hx, rfl⟩

/-- A relation that marking cannot break holds of the marked stack. -/
theorem pairwise_killFirst {R : α → α → Prop} (h1 : ∀ a b, R a b → R (kill a) b)
    (h2 : ∀ a b, R a b → R a (kill b)) :
    ∀ l : List α, l.Pairwise R → (killFirst p kill l).Pairwise R
  | [], _ => List.Pairwise.nil
  | a :: l, h => by
    obtain ⟨ha, hl⟩ := List.pairwise_cons.mp h
    rw [killFirst]
    split
    · exact List.pairwise_cons.mpr ⟨fun b hb => h1 a b (ha b hb), hl⟩
    · refine List.pairwise_cons.mpr ⟨fun b hb => ?_, pairwise_killFirst h1 h2 l hl⟩
      rcases mem_killFirst p kill l hb with hb | ⟨b', hb', rfl⟩
      · exact ha b hb
      · exact h2 a b' (ha b' hb')

/-- Marking a region moves one key out of the live ones. -/
theorem map_filter_killFirst {β : Type*} (live : α → Bool) (key : α → β) (k : β)
    (hp : ∀ a, p a = true → live a = true ∧ key a = k) (hk : ∀ a, live (kill a) = false) :
    ∀ l : List α, (∃ a ∈ l, p a = true) →
      (((l.filter live).map key : List β) : Multiset β) =
        k ::ₘ ((((killFirst p kill l).filter live).map key : List β) : Multiset β)
  | [], h => by simp at h
  | a :: l, h => by
    by_cases ha : p a = true
    · obtain ⟨hl, hkey⟩ := hp a ha
      simp [killFirst, ha, hl, hk, hkey]
    · have ih := map_filter_killFirst live key k hp hk l (by simpa [ha] using h)
      cases hl : live a with
      | false => simpa [killFirst, ha, hl] using ih
      | true =>
        simp only [killFirst, ha, Bool.false_eq_true, ↓reduceIte, List.filter_cons, hl,
          List.map_cons, ← Multiset.cons_coe, ih]
        exact Multiset.cons_swap _ _ _

end Kill

end LazyStack
end La12xx
