/-
# Keyed bump allocation

An arena of `cap` cells hands out intervals from the bottom up, one for each
key and once: a key that holds cells keeps them whatever is asked for later,
and a key of size `0` holds nothing. An `Arena` carries its own soundness: the
intervals of two keys do not meet, they end below the sum of the sizes, and the
sum does not exceed the capacity.

A run of requests for different keys places those that fit, in order (`placed`),
each above what was there before (`top_le_base_run`), the first of them directly
(`exists_base_eq_top`).
-/
import Mathlib

namespace La12xx
namespace Bump

variable {κ : Type*} [DecidableEq κ] [Fintype κ]

/-- Intervals `[base k, base k + size k)` of an arena, packed from the bottom. -/
structure Arena (κ : Type*) [DecidableEq κ] [Fintype κ] where
  cap : ℕ
  base : κ → ℕ
  size : κ → ℕ
  below : ∀ k, size k ≠ 0 → base k + size k ≤ ∑ j, size j
  apart : ∀ j k, j ≠ k → size j ≠ 0 → size k ≠ 0 → base j + size j ≤ base k ∨ base k + size k ≤ base j
  fits : ∑ j, size j ≤ cap

/-- The number of cells handed out. -/
def Arena.top (A : Arena κ) : ℕ := ∑ k, A.size k

/-- An arena with nothing handed out. -/
def empty (cap : ℕ) : Arena κ where
  cap := cap
  base _ := 0
  size _ := 0
  below _ h := absurd rfl h
  apart _ _ _ h := absurd rfl h
  fits := by simp

@[simp] theorem top_empty (cap : ℕ) : (empty cap : Arena κ).top = 0 := by
  simp [Arena.top, empty]

/-- What a new interval adds to the sum of the sizes. -/
theorem sum_update {f : κ → ℕ} {k : κ} (h : f k = 0) (n : ℕ) :
    ∑ j, Function.update f k n j = (∑ j, f j) + n := by
  have hsplit := Finset.add_sum_erase Finset.univ f (Finset.mem_univ k)
  rw [Finset.sum_update_of_mem (Finset.mem_univ k), ← hsplit, h, Finset.sdiff_singleton_eq_erase]
  omega

/-- The next `n` cells go to the key `k`, which held none. -/
def Arena.extend (A : Arena κ) (k : κ) (n : ℕ) (hk : A.size k = 0) (hn : A.top + n ≤ A.cap) : Arena κ where
  cap := A.cap
  base := Function.update A.base k A.top
  size := Function.update A.size k n
  below j hj := by
    rw [sum_update hk]
    rcases eq_or_ne j k with rfl | hjk
    · simp [Arena.top]
    · rw [Function.update_of_ne hjk] at hj
      rw [Function.update_of_ne hjk, Function.update_of_ne hjk]
      exact (A.below j hj).trans (Nat.le_add_right _ _)
  apart i j hij hi hj := by
    -- every old interval ends at `top` at the latest, where the new one starts
    rcases eq_or_ne i k with rfl | hik
    · have hji : j ≠ i := hij.symm
      rw [Function.update_of_ne hji] at hj
      rw [Function.update_of_ne hji, Function.update_of_ne hji, Function.update_self]
      exact .inr (A.below j hj)
    · rw [Function.update_of_ne hik] at hi
      rcases eq_or_ne j k with rfl | hjk
      · rw [Function.update_of_ne hik, Function.update_of_ne hik, Function.update_self]
        exact .inl (A.below i hi)
      · rw [Function.update_of_ne hjk] at hj
        simp only [Function.update_of_ne hik, Function.update_of_ne hjk]
        exact A.apart i j hij hi hj
  fits := by
    rw [sum_update hk]
    exact hn

/-- A request: nothing changes for a key that holds cells or when too few are
left. -/
def Arena.alloc (A : Arena κ) (k : κ) (n : ℕ) : Arena κ :=
  if hk : A.size k = 0 then
    if hn : A.top + n ≤ A.cap then A.extend k n hk hn else A
  else A

theorem alloc_held {A : Arena κ} {k : κ} (h : A.size k ≠ 0) (n : ℕ) : A.alloc k n = A := by
  unfold Arena.alloc
  rw [dif_neg h]

theorem alloc_full {A : Arena κ} {n : ℕ} (h : A.cap < A.top + n) (k : κ) : A.alloc k n = A := by
  unfold Arena.alloc
  split
  · rw [dif_neg (by omega)]
  · rfl

theorem alloc_free {A : Arena κ} {k : κ} {n : ℕ} (hk : A.size k = 0) (hn : A.top + n ≤ A.cap) :
    A.alloc k n = A.extend k n hk hn := by
  unfold Arena.alloc
  rw [dif_pos hk, dif_pos hn]

section Extend

variable (A : Arena κ) (k : κ) (n : ℕ) (hk : A.size k = 0) (hn : A.top + n ≤ A.cap)

theorem top_extend : (A.extend k n hk hn).top = A.top + n := sum_update hk n

@[simp] theorem size_extend_self : (A.extend k n hk hn).size k = n := Function.update_self ..

@[simp] theorem base_extend_self : (A.extend k n hk hn).base k = A.top := Function.update_self ..

theorem size_extend_of_ne {j : κ} (h : j ≠ k) : (A.extend k n hk hn).size j = A.size j :=
  Function.update_of_ne h ..

theorem base_extend_of_ne {j : κ} (h : j ≠ k) : (A.extend k n hk hn).base j = A.base j :=
  Function.update_of_ne h ..

end Extend

theorem top_le_cap (A : Arena κ) : A.top ≤ A.cap := A.fits

/-! ### A run of requests -/

/-- A request for an integer number of cells: nothing is given for a negative one. -/
def Arena.request (A : Arena κ) (r : κ × ℤ) : Arena κ := if r.2 < 0 then A else A.alloc r.1 r.2.toNat

/-- The arena after the requests, in order. -/
def Arena.run : Arena κ → List (κ × ℤ) → Arena κ
  | A, [] => A
  | A, r :: rs => (A.request r).run rs

/-- How far an arena is filled after requests of these sizes: those that are negative or
do not fit are left out. -/
def placed (cap : ℕ) : ℤ → List ℤ → ℤ
  | t, [] => t
  | t, x :: xs => if 0 ≤ x ∧ t + x ≤ cap then placed cap (t + x) xs else placed cap t xs

theorem placed_append (cap : ℕ) (xs ys : List ℤ) : ∀ t : ℤ,
    placed cap t (xs ++ ys) = placed cap (placed cap t xs) ys := by
  induction xs with
  | nil => exact fun _ => rfl
  | cons x xs ih =>
    intro t
    rw [List.cons_append, placed, placed]
    split
    · exact ih _
    · exact ih _

theorem placed_le {cap : ℕ} (xs : List ℤ) : ∀ {t : ℤ}, t ≤ cap → placed cap t xs ≤ cap := by
  induction xs with
  | nil => exact fun h => h
  | cons x xs ih =>
    intro t h
    rw [placed]
    split
    · next hx => exact ih hx.2
    · exact ih h

section Request

variable (A : Arena κ) (r : κ × ℤ)

@[simp] theorem cap_request : (A.request r).cap = A.cap := by
  unfold Arena.request Arena.alloc
  split
  · rfl
  · split
    · split
      · rfl
      · rfl
    · rfl

theorem request_of_held (h : A.size r.1 ≠ 0) : A.request r = A := by
  unfold Arena.request
  rw [alloc_held h, ite_self]

variable {A r}

theorem request_placed (hfree : A.size r.1 = 0) (h0 : 0 ≤ r.2) (h : A.top + r.2 ≤ A.cap) :
    ∃ hn, A.request r = A.extend r.1 r.2.toNat hfree hn := by
  have hn : A.top + r.2.toNat ≤ A.cap := by omega
  refine ⟨hn, ?_⟩
  unfold Arena.request
  rw [if_neg (by omega), alloc_free hfree hn]

theorem request_refused (h : ¬ (0 ≤ r.2 ∧ A.top + r.2 ≤ A.cap)) : A.request r = A := by
  unfold Arena.request
  split
  · rfl
  · exact alloc_full (by omega) _

/-- A request changes nothing for other keys. -/
theorem request_of_ne {k : κ} (h : k ≠ r.1) :
    (A.request r).size k = A.size k ∧ (A.request r).base k = A.base k := by
  by_cases hfree : A.size r.1 = 0
  · by_cases hp : 0 ≤ r.2 ∧ A.top + r.2 ≤ A.cap
    · obtain ⟨hn, heq⟩ := request_placed hfree hp.1 hp.2
      rw [heq]
      exact ⟨size_extend_of_ne _ _ _ _ _ h, base_extend_of_ne _ _ _ _ _ h⟩
    · rw [request_refused hp]
      exact ⟨rfl, rfl⟩
  · rw [request_of_held A r hfree]
    exact ⟨rfl, rfl⟩

end Request

/-- Keys that hold cells keep them. -/
theorem run_of_held (rs : List (κ × ℤ)) : ∀ {A : Arena κ} {k : κ}, A.size k ≠ 0 →
    (A.run rs).size k = A.size k ∧ (A.run rs).base k = A.base k := by
  induction rs with
  | nil => exact fun _ => ⟨rfl, rfl⟩
  | cons r rs ih =>
    intro A k hk
    have hstep : (A.request r).size k = A.size k ∧ (A.request r).base k = A.base k := by
      by_cases h : k = r.1
      · rw [request_of_held A r (h ▸ hk)]
        exact ⟨rfl, rfl⟩
      · exact request_of_ne h
    have hrest := ih (A := A.request r) (k := k) (by rwa [hstep.1])
    rwa [hstep.1, hstep.2] at hrest

/-- Keys that are not asked for stay as they are. -/
theorem run_of_not_mem (rs : List (κ × ℤ)) : ∀ {A : Arena κ} {k : κ}, k ∉ rs.map Prod.fst →
    (A.run rs).size k = A.size k ∧ (A.run rs).base k = A.base k := by
  induction rs with
  | nil => exact fun _ => ⟨rfl, rfl⟩
  | cons r rs ih =>
    intro A k hk
    rw [List.map_cons, List.mem_cons, not_or] at hk
    have hstep := request_of_ne (A := A) hk.1
    have hrest := ih (A := A.request r) hk.2
    rwa [hstep.1, hstep.2] at hrest

@[simp] theorem cap_run (rs : List (κ × ℤ)) : ∀ A : Arena κ, (A.run rs).cap = A.cap := by
  induction rs with
  | nil => exact fun _ => rfl
  | cons r rs ih =>
    intro A
    rw [Arena.run, ih, cap_request]

theorem top_le_top_request (A : Arena κ) (r : κ × ℤ) : A.top ≤ (A.request r).top := by
  by_cases hfree : A.size r.1 = 0
  · by_cases hp : 0 ≤ r.2 ∧ A.top + r.2 ≤ A.cap
    · obtain ⟨hn, heq⟩ := request_placed hfree hp.1 hp.2
      rw [heq, top_extend]
      exact Nat.le_add_right _ _
    · rw [request_refused hp]
  · rw [request_of_held A r hfree]

/-- What a run places lies above what was there. -/
theorem top_le_base_run (rs : List (κ × ℤ)) : ∀ {A : Arena κ} {k : κ}, A.size k = 0 → (A.run rs).size k ≠ 0 →
    A.top ≤ (A.run rs).base k := by
  induction rs with
  | nil => exact fun h h' => absurd h h'
  | cons r rs ih =>
    intro A k hk hrun
    by_cases hnew : (A.request r).size k = 0
    · exact (top_le_top_request A r).trans (ih hnew hrun)
    · -- this request placed it
      have hkr : k = r.1 := by
        by_contra hne
        exact hnew ((request_of_ne hne).1.trans hk)
      subst hkr
      have hp : 0 ≤ r.2 ∧ A.top + r.2 ≤ A.cap := by
        by_contra hp
        rw [request_refused hp] at hnew
        exact hnew hk
      obtain ⟨hn, heq⟩ := request_placed hk hp.1 hp.2
      rw [Arena.run, (run_of_held rs hnew).2, heq, base_extend_self]

/-- How far a run for different keys fills the arena. -/
theorem top_run (rs : List (κ × ℤ)) : ∀ {A : Arena κ}, (rs.map Prod.fst).Nodup → (∀ r ∈ rs, A.size r.1 = 0) →
    ((A.run rs).top : ℤ) = placed A.cap A.top (rs.map Prod.snd) := by
  induction rs with
  | nil => exact fun _ _ => rfl
  | cons r rs ih =>
    intro A hnd hfree
    rw [List.map_cons, List.nodup_cons] at hnd
    rw [List.forall_mem_cons] at hfree
    have hrest : ∀ q ∈ rs, (A.request r).size q.1 = 0 := by
      intro q hq
      have hne : q.1 ≠ r.1 := fun he => hnd.1 (he ▸ List.mem_map_of_mem hq)
      rw [(request_of_ne hne).1, hfree.2 q hq]
    rw [Arena.run, ih hnd.2 hrest, cap_request, List.map_cons, placed]
    by_cases hp : 0 ≤ r.2 ∧ A.top + r.2 ≤ A.cap
    · obtain ⟨hn, heq⟩ := request_placed hfree.1 hp.1 hp.2
      rw [if_pos hp, heq, top_extend]
      congr 1
      omega
    · rw [if_neg hp, request_refused hp]

/-- A first request that fits is placed at the top, and stays. -/
theorem run_cons_placed (rs : List (κ × ℤ)) {A : Arena κ} {r : κ × ℤ} (hfree : A.size r.1 = 0) (hpos : 0 < r.2)
    (hfit : A.top + r.2 ≤ A.cap) :
    (A.run (r :: rs)).size r.1 = r.2.toNat ∧ (A.run (r :: rs)).base r.1 = A.top := by
  obtain ⟨hn, heq⟩ := request_placed hfree hpos.le hfit
  have hsize : (A.request r).size r.1 = r.2.toNat := by rw [heq, size_extend_self]
  have hheld := run_of_held rs (A := A.request r) (k := r.1) (by omega)
  rw [hsize] at hheld
  refine ⟨hheld.1, hheld.2.trans ?_⟩
  rw [heq, base_extend_self]

/-- If anything of a run fits, something is placed directly above what was there. -/
theorem exists_base_eq_top (rs : List (κ × ℤ)) : ∀ {A : Arena κ}, (rs.map Prod.fst).Nodup →
    (∀ r ∈ rs, A.size r.1 = 0) → (∃ r ∈ rs, 0 < r.2 ∧ A.top + r.2 ≤ A.cap) →
    ∃ r ∈ rs, (A.run rs).size r.1 ≠ 0 ∧ (A.run rs).base r.1 = A.top := by
  induction rs with
  | nil =>
    rintro A - - ⟨r, hr, -⟩
    exact absurd hr List.not_mem_nil
  | cons r rs ih =>
    intro A hnd hfree hfits
    rw [List.map_cons, List.nodup_cons] at hnd
    rw [List.forall_mem_cons] at hfree
    by_cases hp : 0 < r.2 ∧ A.top + r.2 ≤ A.cap
    · obtain ⟨hsize, hbase⟩ := run_cons_placed rs hfree.1 hp.1 hp.2
      exact ⟨r, List.mem_cons_self, by omega, hbase⟩
    · -- a request for no cells, or one that is refused, leaves the top where it is
      have htop : (A.request r).top = A.top := by
        by_cases hz : 0 ≤ r.2 ∧ A.top + r.2 ≤ A.cap
        · obtain ⟨hn, heq⟩ := request_placed hfree.1 hz.1 hz.2
          rw [heq, top_extend]
          omega
        · rw [request_refused hz]
      have hrest : ∀ q ∈ rs, (A.request r).size q.1 = 0 := by
        intro q hq
        have hne : q.1 ≠ r.1 := fun he => hnd.1 (he ▸ List.mem_map_of_mem hq)
        rw [(request_of_ne hne).1, hfree.2 q hq]
      obtain ⟨q, hq, hfit⟩ := hfits
      have hq' : q ∈ rs := by
        rcases List.mem_cons.mp hq with rfl | hq
        · exact absurd hfit hp
        · exact hq
      obtain ⟨q', hmem, hsize, hbase⟩ := ih hnd.2 hrest ⟨q, hq', by rwa [htop, cap_request]⟩
      exact ⟨q', List.mem_cons_of_mem r hmem, hsize, by rw [Arena.run, hbase, htop]⟩

/-- If nothing of a run fits, nothing is placed. -/
theorem size_run_of_none_fits (rs : List (κ × ℤ)) : ∀ {A : Arena κ}, (rs.map Prod.fst).Nodup →
    (∀ r ∈ rs, A.size r.1 = 0) → (∀ r ∈ rs, 0 < r.2 → A.cap < A.top + r.2) → (A.run rs).size = A.size := by
  induction rs with
  | nil => exact fun _ _ _ => rfl
  | cons r rs ih =>
    intro A hnd hfree hnone
    rw [List.map_cons, List.nodup_cons] at hnd
    rw [List.forall_mem_cons] at hfree hnone
    have hsize : (A.request r).size = A.size := by
      by_cases hp : 0 ≤ r.2 ∧ A.top + r.2 ≤ A.cap
      · obtain ⟨hn, heq⟩ := request_placed hfree.1 hp.1 hp.2
        have hzero : r.2.toNat = A.size r.1 := by
          rw [hfree.1]
          by_contra hne
          have := hnone.1 (by omega)
          omega
        have hupdate : Function.update A.size r.1 r.2.toNat = A.size := by
          rw [hzero, Function.update_eq_self]
        rw [heq]
        exact hupdate
      · rw [request_refused hp]
    have htop : (A.request r).top = A.top := by rw [Arena.top, hsize, Arena.top]
    have hrest := ih (A := A.request r) hnd.2 (by rw [hsize]; exact hfree.2)
      (by rw [htop, cap_request]; exact hnone.2)
    rw [Arena.run, hrest, hsize]

theorem run_append (rs rs' : List (κ × ℤ)) : ∀ A : Arena κ, A.run (rs ++ rs') = (A.run rs).run rs' := by
  induction rs with
  | nil => exact fun _ => rfl
  | cons r rs ih => exact fun A => ih (A.request r)

end Bump
end La12xx
