/-
# Length fields

A length is written in one byte up to 127; otherwise a byte says how many octets
follow, and those give the length, highest first. `LengthField` is a field so
written, with its bytes and its value. A decoder that adds the octets up gets
another number than the value: `octetSum_eq_beValue_iff` and
`head_add_octetSum_eq_iff` say when it does not.
-/
import La12xx.Lib.ByteMem

namespace La12xx
namespace Ber

open ByteMem

/-- The number the octets give, highest first. -/
def beValue (octets : List Byte) : ℕ := Nat.ofDigits 256 (octets.reverse.map BitVec.toNat)

/-- The octets added up. -/
def octetSum (octets : List Byte) : ℕ := (octets.map BitVec.toNat).sum

/-- A length in the short or in the long form. -/
inductive LengthField where
  | short (n : ℕ) (h : n ≤ 127)
  | long (octets : List Byte) (hpos : 1 ≤ octets.length) (hlen : octets.length ≤ 127)
      (hval : beValue octets < 2 ^ 31)

namespace LengthField

def bytes : LengthField → List Byte
  | short n _ => [BitVec.ofNat 8 n]
  | long octets _ _ _ => BitVec.ofNat 8 (0x80 + octets.length) :: octets

def value : LengthField → ℕ
  | short n _ => n
  | long octets _ _ _ => beValue octets

end LengthField

/-! ### Octets added up -/

theorem octetSum_reverse (l : List Byte) : octetSum l.reverse = octetSum l := by
  rw [octetSum, List.map_reverse, List.sum_reverse, octetSum]

/-- What the memory holds, added up byte by byte. -/
theorem sum_range_eq_octetSum {m : Mem} : ∀ {l : List Byte} {a : ℤ}, Holds m a l →
    ((List.range l.length).map fun i : ℕ => (m (a + i)).toNat).sum = octetSum l
  | [], _, _ => rfl
  | x :: l, a, h => by
    obtain ⟨hx, hl⟩ := holds_cons.mp h
    have ih := sum_range_eq_octetSum hl
    have hshift : ((List.range l.length).map fun i : ℕ => (m (a + (i + 1 : ℕ))).toNat) =
        (List.range l.length).map fun i : ℕ => (m (a + 1 + i)).toNat := by
      refine List.map_congr_left fun i _ => ?_
      rw [add_assoc, Nat.cast_add, Nat.cast_one, add_comm (i : ℤ)]
    rw [List.length_cons, List.range_succ_eq_map, List.map_cons, List.map_map, List.sum_cons]
    simp only [Function.comp_def, Nat.succ_eq_add_one]
    rw [hshift, ih, Nat.cast_zero, add_zero, hx, octetSum, octetSum, List.map_cons, List.sum_cons]

/-- The sum leaves out as much of the value as the higher octets are worth. -/
theorem exists_beValue_eq {octets : List Byte} (h : 1 ≤ octets.length) :
    ∃ d s x : ℕ, d < 256 ∧ octetSum octets = d + s ∧ beValue octets = d + 256 * x ∧ s ≤ x ∧ x ≡ s [MOD 255] := by
  obtain ⟨init, last, rfl⟩ : ∃ init last, octets = init ++ [last] :=
    ⟨_, _, (List.dropLast_append_getLast (List.length_pos_iff.mp h)).symm⟩
  refine ⟨last.toNat, octetSum init, beValue init, last.isLt, ?_, ?_, ?_, ?_⟩
  · rw [octetSum, List.map_append, List.sum_append, octetSum, List.map_singleton, List.sum_singleton, add_comm]
  · rw [beValue, List.reverse_append, List.reverse_singleton, List.singleton_append, List.map_cons, Nat.ofDigits_cons]
    rfl
  · rw [← octetSum_reverse]
    exact Nat.sum_le_ofDigits _ (by norm_num)
  · rw [← octetSum_reverse, octetSum, ← Nat.ofDigits_one]
    exact Nat.ofDigits_modEq 256 255 _

/-- The octets add up to the value exactly when it fits in the last of them. -/
theorem octetSum_eq_beValue_iff {octets : List Byte} (h : 1 ≤ octets.length) :
    octetSum octets = beValue octets ↔ beValue octets < 256 := by
  obtain ⟨d, s, x, hd, hsum, hval, hle, -⟩ := exists_beValue_eq h
  omega

/-- The first byte of the field and the octets add up to the value exactly when
there are 127 octets and the last but one is `1`, behind zeros. -/
theorem head_add_octetSum_eq_iff {octets : List Byte} (h : 1 ≤ octets.length) (h' : octets.length ≤ 127) :
    0x80 + octets.length + octetSum octets = beValue octets ↔
      octets.length = 127 ∧ 256 ≤ beValue octets ∧ beValue octets < 512 := by
  obtain ⟨d, s, x, hd, hsum, hval, hle, hmod⟩ := exists_beValue_eq h
  obtain ⟨t, ht⟩ : ∃ t, x = s + 255 * t := ⟨(x - s) / 255, by
    have := (Nat.modEq_iff_dvd' hle).mp hmod.symm
    omega⟩
  omega

end Ber
end La12xx
