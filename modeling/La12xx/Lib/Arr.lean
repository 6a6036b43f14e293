/-
# Arrays with a size

An `Arr` is a memory with a size. `get` and `fill` are programs: an index
outside of the array, and a copy of more bytes than it has, are faults.
-/
import La12xx.Lib.ByteMem
import La12xx.Lib.Dialogue

namespace La12xx

open ByteMem

/-- An array of bytes. -/
structure Arr where
  size : ℕ
  mem : Mem

namespace Arr

variable {Q R α : Type}

/-- An array of zeros. -/
def zeros (n : ℕ) : Arr := ⟨n, fun _ => 0⟩

/-- The index is one of the array. -/
def Inside (a : Arr) (i : ℤ) : Prop := 0 ≤ i ∧ i < a.size

instance (a : Arr) (i : ℤ) : Decidable (a.Inside i) := inferInstanceAs (Decidable (_ ∧ _))

/-- `a[i]` -/
def get (a : Arr) (i : ℤ) : Dialogue Q R Byte := if a.Inside i then pure (a.mem i) else .fault

/-- The array with `n` bytes of another memory at its start. -/
def filled (a : Arr) (src : Mem) (n : ℕ) : Arr := ⟨a.size, copy a.mem 0 src 0 n⟩

/-- `memcpy(a, src, n)` -/
def fill (a : Arr) (src : Mem) (n : ℤ) : Dialogue Q R Arr :=
  if 0 ≤ n ∧ n ≤ a.size then pure (a.filled src n.toNat) else .fault

/-- `memcpy(dst, a + i, n)` into another memory. -/
def copyOut (a : Arr) (i n : ℤ) (dst : Mem) : Dialogue Q R Mem :=
  if 0 ≤ n ∧ 0 ≤ i ∧ i + n ≤ a.size then pure (copy dst 0 a.mem i n.toNat) else .fault

variable {a : Arr} {i n : ℤ} {src : Mem}

theorem get_bind_eq (a : Arr) (i : ℤ) (f : Byte → Dialogue Q R α) :
    (a.get i >>= f) = if 0 ≤ i ∧ i < a.size then f (a.mem i) else .fault := by
  rw [get]
  split
  · next h => rw [Dialogue.pure_bind, if_pos (show 0 ≤ i ∧ i < a.size from h)]
  · next h => rw [Dialogue.fault_bind, if_neg (show ¬ (0 ≤ i ∧ i < a.size) from h)]

theorem get_bind (h : a.Inside i) (f : Byte → Dialogue Q R α) : (a.get i >>= f) = f (a.mem i) := by
  rw [get, if_pos h, Dialogue.pure_bind]

theorem get_bind_of_not (h : ¬ a.Inside i) (f : Byte → Dialogue Q R α) : (a.get i >>= f) = .fault := by
  rw [get, if_neg h, Dialogue.fault_bind]

theorem fill_bind (h0 : 0 ≤ n) (hn : n ≤ a.size) (f : Arr → Dialogue Q R α) :
    (a.fill src n >>= f) = f (a.filled src n.toNat) := by
  rw [fill, if_pos ⟨h0, hn⟩, Dialogue.pure_bind]

theorem copyOut_bind (h0 : 0 ≤ n) (hi : 0 ≤ i) (hn : i + n ≤ a.size) (dst : Mem) (f : Mem → Dialogue Q R α) :
    (a.copyOut i n dst >>= f) = f (copy dst 0 a.mem i n.toNat) := by
  rw [copyOut, if_pos ⟨h0, hi, hn⟩, Dialogue.pure_bind]

@[simp] theorem size_filled (a : Arr) (src : Mem) (n : ℕ) : (a.filled src n).size = a.size := rfl

@[simp] theorem size_zeros (n : ℕ) : (zeros n).size = n := rfl

/-- What was put into the array. -/
theorem mem_filled {p : ℤ} {n : ℕ} (h0 : 0 ≤ p) (hn : p < n) : (a.filled src n).mem p = src p := by
  show copy a.mem 0 src 0 n p = src p
  rw [copy, if_pos ⟨h0, by rwa [zero_add]⟩, sub_zero, add_zero]

/-! ### Reading without a dialogue -/

/-- The array of a list. -/
def ofBytes (l : List Byte) : Arr := ⟨l.length, ofList l⟩

/-- `a[i]`; `none` is an index outside of the array. -/
def fetch (a : Arr) (i : ℤ) : Option Byte := if a.Inside i then some (a.mem i) else none

/-- `n` bytes from `i` on. -/
def slice (a : Arr) (i : ℤ) (n : ℕ) : Option (List Byte) :=
  if n = 0 ∨ (0 ≤ i ∧ i + n ≤ a.size) then some (bytes a.mem i n) else none

theorem fetch_bind_eq_some {f : Byte → Option α} {x : α} :
    (a.fetch i >>= f) = some x ↔ a.Inside i ∧ f (a.mem i) = some x := by
  rw [fetch]
  split
  · next h => exact (and_iff_right h).symm
  · next h => exact iff_of_false (by simp) fun hx => h hx.1

theorem slice_bind_eq_some {k : ℕ} {f : List Byte → Option α} {x : α} :
    (a.slice i k >>= f) = some x ↔ (k = 0 ∨ (0 ≤ i ∧ i + k ≤ a.size)) ∧ f (bytes a.mem i k) = some x := by
  rw [slice]
  split
  · next h => exact (and_iff_right h).symm
  · next h => exact iff_of_false (by simp) fun hx => h hx.1

end Arr
end La12xx
