/-
# Cutting a range into pieces

Pieces, each with its start and its length, tile a range if each begins where
the one before it ends (`Tiles`). A range of `n` is cut into pieces of `c`, of
which the last may be shorter: there are `chunkCount c n` of them, piece `k`
begins `c * k` after the start and has `chunkLen c n k`. The first pieces of
the cut tile what they cover (`tiles_chunks`), all of them the whole range.
-/
import Mathlib

namespace La12xx
namespace Tiling

/-- The pieces cover the range from `a` to `b`, in order and without gap or
overlap. -/
def Tiles : ℤ → List (ℤ × ℕ) → ℤ → Prop
  | a, [], b => a = b
  | a, p :: ps, b => p.1 = a ∧ Tiles (a + p.2) ps b

/-- One piece more. -/
theorem Tiles.concat {b : ℤ} (n : ℕ) : ∀ {ps : List (ℤ × ℕ)} {a : ℤ}, Tiles a ps b → Tiles a (ps ++ [(b, n)]) (b + n)
  | [], _, h => by
    obtain rfl := h
    exact ⟨rfl, rfl⟩
  | _ :: _, _, h => ⟨h.1, h.2.concat n⟩

/-- The number of pieces of at most `c` in `n`, which is not 0. -/
def chunkCount (c n : ℕ) : ℕ := (n - 1) / c + 1

/-- The length of piece `k`. -/
def chunkLen (c n k : ℕ) : ℕ := min c (n - c * k)

section Chunks

variable {c n k : ℕ}

/-- A piece begins within the range. -/
theorem mul_lt_of_lt_chunkCount (hn : 0 < n) (hk : k < chunkCount c n) : c * k < n := by
  have hle : k ≤ (n - 1) / c := Nat.lt_succ_iff.mp hk
  have := (Nat.mul_le_mul_left c hle).trans (Nat.mul_div_le (n - 1) c)
  omega

/-- The pieces reach the end. -/
theorem le_mul_chunkCount (hc : 0 < c) : n ≤ c * chunkCount c n := by
  have := Nat.lt_mul_div_succ (n - 1) hc
  unfold chunkCount
  omega

theorem chunkLen_pos (hc : 0 < c) (hn : 0 < n) (hk : k < chunkCount c n) : 0 < chunkLen c n k := by
  have := mul_lt_of_lt_chunkCount hn hk
  unfold chunkLen
  omega

theorem chunkLen_le : chunkLen c n k ≤ c := Nat.min_le_left _ _

theorem chunkLen_zero (h : n ≤ c) : chunkLen c n 0 = n := by
  unfold chunkLen
  omega

/-- Without the first piece, those left are those of the rest. -/
theorem chunkLen_succ : chunkLen c n (k + 1) = chunkLen c (n - c) k := by
  unfold chunkLen
  rw [Nat.mul_succ, Nat.add_comm, Nat.sub_add_eq]

/-- **The first pieces tile what they cover.** -/
theorem tiles_chunks (a : ℤ) (hn : 0 < n) : ∀ j, j ≤ chunkCount c n →
    Tiles a ((List.range j).map fun k => (a + (c * k : ℕ), chunkLen c n k)) (a + (min n (c * j) : ℕ))
  | 0, _ => by simp [Tiles]
  | j + 1, hj => by
    have hlt : c * j < n := mul_lt_of_lt_chunkCount hn hj
    have hend : min n (c * (j + 1)) = c * j + chunkLen c n j := by
      unfold chunkLen
      rw [Nat.mul_succ]
      omega
    have ih := tiles_chunks a hn j (Nat.le_of_succ_le hj)
    rw [Nat.min_eq_right hlt.le] at ih
    rw [List.range_succ, List.map_append, List.map_singleton, hend, Nat.cast_add, ← add_assoc]
    exact ih.concat _

end Chunks

end Tiling
end La12xx
