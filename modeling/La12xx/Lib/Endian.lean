/-
# Words of the other byte order

On a little-endian host `cpu_to_be32` and `be32_to_cpu` both turn the bytes of
a word around (`swab32`). A word stored so lies in memory with its highest byte
first (`le32_swab32`), and a word read so is the one whose highest byte is read
first (`swab32_u32`).
-/
import La12xx.Lib.ByteMem

namespace La12xx
namespace Endian

open ByteMem

/-- The bytes of a 16-bit word in the other order. -/
def swab16 (x : BitVec 16) : BitVec 16 := x.extractLsb' 0 8 ++ x.extractLsb' 8 8

/-- The bytes of a 32-bit word in the other order. -/
def swab32 (x : BitVec 32) : BitVec 32 :=
  x.extractLsb' 0 8 ++ x.extractLsb' 8 8 ++ x.extractLsb' 16 8 ++ x.extractLsb' 24 8

/-- The bytes of a word put together from bytes. -/
theorem le32_append (a b c d : BitVec 8) : le32 (a ++ b ++ c ++ d) = [d, c, b, a] := by
  have hbyte : ∀ (k : ℕ) (x : BitVec 8), (∀ i < 8, (a ++ b ++ c ++ d : BitVec 32).getLsbD (k + i) = x.getLsbD i) →
      (a ++ b ++ c ++ d : BitVec 32).extractLsb' k 8 = x := by
    intro k x h
    apply BitVec.eq_of_getLsbD_eq
    intro i hi
    rw [BitVec.getLsbD_extractLsb', h i hi, decide_eq_true hi, Bool.true_and]
  unfold le32
  rw [hbyte 0 d, hbyte 8 c, hbyte 16 b, hbyte 24 a]
  all_goals
    intro i hi
    simp only [BitVec.getLsbD_append]
    grind

/-- A word is put together from its bytes. -/
theorem append_bytes (x : BitVec 32) :
    x.extractLsb' 24 8 ++ x.extractLsb' 16 8 ++ x.extractLsb' 8 8 ++ x.extractLsb' 0 8 = x := by
  apply BitVec.eq_of_getLsbD_eq
  intro i hi
  simp only [BitVec.getLsbD_append, BitVec.getLsbD_extractLsb']
  grind

/-- Turning the bytes around twice. -/
@[simp] theorem swab32_swab32 (x : BitVec 32) : swab32 (swab32 x) = x := by
  have h := le32_append (x.extractLsb' 0 8) (x.extractLsb' 8 8) (x.extractLsb' 16 8) (x.extractLsb' 24 8)
  unfold le32 at h
  simp only [List.cons.injEq, and_true] at h
  obtain ⟨h0, h8, h16, h24⟩ := h
  rw [swab32, swab32, h0, h8, h16, h24]
  exact append_bytes x

/-- A word stored in the other order has its highest byte first. -/
theorem le32_swab32 (x : BitVec 32) : le32 (swab32 x) = (le32 x).reverse := le32_append _ _ _ _

/-- A word read in the other order is read from its highest byte on. -/
theorem swab32_u32 (m : Mem) (a : ℤ) : swab32 (u32 m a) = m a ++ m (a + 1) ++ m (a + 2) ++ m (a + 3) := by
  have h := le32_append (m (a + 3)) (m (a + 2)) (m (a + 1)) (m a)
  unfold le32 at h
  simp only [List.cons.injEq, and_true] at h
  obtain ⟨h0, h8, h16, h24⟩ := h
  unfold swab32 u32
  rw [h0, h8, h16, h24]

end Endian
end La12xx
