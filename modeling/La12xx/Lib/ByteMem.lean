/-
# Byte memories

A memory is a function from addresses to bytes; addresses are integers, so
that a pointer may also move below its base. `bytes` reads a range, `u16` and
`u32` read little-endian words, `copy` copies from another memory, and `move`
is `memmove`, which reads the whole source before it writes. `put` stores a
list, and `Holds` says that a list is stored; what a memory holds is taken apart
and put together by the lemmas about them, along the list.
-/
import Mathlib

namespace La12xx
namespace ByteMem

abbrev Byte := BitVec 8

abbrev Mem := ℤ → Byte

/-- A memory that holds `l` from address 0, and zeros elsewhere. -/
def ofList (l : List Byte) : Mem := fun p => if 0 ≤ p then l.getD p.toNat 0 else 0

/-- The `n` bytes from address `a`. -/
def bytes (m : Mem) (a : ℤ) : ℕ → List Byte
  | 0 => []
  | n + 1 => m a :: bytes m (a + 1) n

/-- The bytes of a 16-bit word, lowest first. -/
def le16 (x : BitVec 16) : List Byte := [x.extractLsb' 0 8, x.extractLsb' 8 8]

/-- The bytes of a 32-bit word, lowest first. -/
def le32 (x : BitVec 32) : List Byte :=
  [x.extractLsb' 0 8, x.extractLsb' 8 8, x.extractLsb' 16 8, x.extractLsb' 24 8]

/-- A little-endian 16-bit word. -/
def u16 (m : Mem) (a : ℤ) : BitVec 16 := m (a + 1) ++ m a

/-- A little-endian 32-bit word. -/
def u32 (m : Mem) (a : ℤ) : BitVec 32 := m (a + 3) ++ m (a + 2) ++ m (a + 1) ++ m a

/-- `memcpy(dst, src, n)` from another memory, `m'`. -/
def copy (m : Mem) (dst : ℤ) (m' : Mem) (src : ℤ) (n : ℕ) : Mem :=
  fun p => if dst ≤ p ∧ p < dst + n then m' (p - dst + src) else m p

/-- `memmove(dst, src, n)` -/
def move (m : Mem) (dst src : ℤ) (n : ℕ) : Mem := copy m dst m src n

/-- The list is stored from address `a` on. -/
def put (m : Mem) (a : ℤ) (l : List Byte) : Mem := copy m a (ofList l) 0 l.length

/-- The memory holds the list from address `a` on. -/
def Holds (m : Mem) (a : ℤ) (l : List Byte) : Prop := bytes m a l.length = l

/-- The memories hold the same bytes in `[a, a + n)`. -/
def Same (m m' : Mem) (a : ℤ) (n : ℕ) : Prop := ∀ p, a ≤ p → p < a + n → m p = m' p

@[simp] theorem length_bytes (m : Mem) : ∀ (a : ℤ) (n : ℕ), (bytes m a n).length = n
  | _, 0 => rfl
  | a, n + 1 => by rw [bytes, List.length_cons, length_bytes m (a + 1) n]

theorem bytes_add (m : Mem) : ∀ (a : ℤ) (n k : ℕ), bytes m a (n + k) = bytes m a n ++ bytes m (a + n) k
  | a, 0, k => by simp [bytes]
  | a, n + 1, k => by
    rw [Nat.succ_add, bytes, bytes, bytes_add m (a + 1) n k, List.cons_append]
    congr 3
    push_cast
    ring

theorem bytes_eq_iff {m m' : Mem} : ∀ {a : ℤ} {n : ℕ}, bytes m a n = bytes m' a n ↔ Same m m' a n
  | a, 0 => by
    refine iff_of_true rfl fun p hp hp' => ?_
    push_cast at hp'
    omega
  | a, n + 1 => by
    rw [bytes, bytes, List.cons.injEq, bytes_eq_iff]
    constructor
    · rintro ⟨h0, h⟩ p hp hp'
      rcases hp.eq_or_lt with rfl | hlt
      · exact h0
      · exact h p (by omega) (by push_cast at hp'; omega)
    · intro h
      refine ⟨h a le_rfl (by push_cast; omega), fun p hp hp' => h p (by omega) ?_⟩
      push_cast
      omega

theorem bytes_eq_bytes_iff {m m' : Mem} : ∀ {a a' : ℤ} {n : ℕ},
    bytes m a n = bytes m' a' n ↔ ∀ i < n, m (a + i) = m' (a' + i)
  | a, a', 0 => iff_of_true rfl fun i hi => absurd hi (Nat.not_lt_zero i)
  | a, a', n + 1 => by
    have hshift : ∀ (b : ℤ) (i : ℕ), b + 1 + i = b + (i + 1 : ℕ) := by
      intro b i
      push_cast
      ring
    rw [bytes, bytes, List.cons.injEq, bytes_eq_bytes_iff, Nat.forall_lt_succ_left]
    simp only [hshift, Nat.cast_zero, add_zero]

/-- What `memmove` puts in place is what the source held. -/
theorem bytes_move (m : Mem) (dst src : ℤ) (n : ℕ) : bytes (move m dst src n) dst n = bytes m src n := by
  have key : ∀ (k : ℕ) (d s : ℤ), dst ≤ d → d + k ≤ dst + n → s - d = src - dst →
      bytes (move m dst src n) d k = bytes m s k := by
    intro k
    induction k with
    | zero => intros; rfl
    | succ k ih =>
      intro d s h1 h2 h3
      push_cast at h2
      rw [bytes, bytes, ih (d + 1) (s + 1) (by omega) (by omega) (by omega), move, copy,
        if_pos ⟨h1, by omega⟩, show d - dst + src = s by omega]
  exact key n dst src le_rfl le_rfl rfl

/-- What `memcpy` puts in place. -/
theorem copy_at {m m' : Mem} {dst src : ℤ} {n d : ℕ} (h : d < n) : copy m dst m' src n (dst + d) = m' (src + d) := by
  unfold copy
  rw [if_pos ⟨by omega, by omega⟩]
  congr 1
  omega

theorem copy_of_lt {m m' : Mem} {dst src p : ℤ} {n : ℕ} (h : p < dst) : copy m dst m' src n p = m p :=
  if_neg fun h' => by omega

theorem copy_of_ge {m m' : Mem} {dst src p : ℤ} {n : ℕ} (h : dst + n ≤ p) : copy m dst m' src n p = m p :=
  if_neg fun h' => by omega

theorem bytes_copy_within {m m' : Mem} {dst src : ℤ} {n d k : ℕ} (h : d + k ≤ n) :
    bytes (copy m dst m' src n) (dst + d) k = bytes m' (src + d) k := by
  rw [bytes_eq_bytes_iff]
  intro i hi
  rw [add_assoc, add_assoc, ← Nat.cast_add, copy_at (by omega)]

theorem bytes_copy_of_le {m m' : Mem} {dst src a : ℤ} {n k : ℕ} (h : a + k ≤ dst) :
    bytes (copy m dst m' src n) a k = bytes m a k :=
  bytes_eq_iff.mpr fun _ _ hp => copy_of_lt (by omega)

/-- A word is its four bytes. -/
theorem u32_congr {m m' : Mem} {a a' : ℤ} (h : bytes m a 4 = bytes m' a' 4) : u32 m a = u32 m' a' := by
  rw [bytes_eq_bytes_iff] at h
  have h0 := h 0 (by decide)
  have h1 := h 1 (by decide)
  have h2 := h 2 (by decide)
  have h3 := h 3 (by decide)
  rw [Nat.cast_zero, add_zero, add_zero] at h0
  unfold u32
  rw [h0, show m (a + 1) = m' (a' + 1) from h1, show m (a + 2) = m' (a' + 2) from h2,
    show m (a + 3) = m' (a' + 3) from h3]

theorem move_of_ge {m : Mem} {dst src p : ℤ} {n : ℕ} (h : dst + n ≤ p) : move m dst src n p = m p :=
  if_neg fun h' => by omega

/-- A `memmove` does not reach beyond its destination. -/
theorem same_move_of_ge (m : Mem) {dst src a : ℤ} {n : ℕ} (k : ℕ) (h : dst + n ≤ a) :
    Same (move m dst src n) m a k :=
  fun _ hp _ => move_of_ge (by omega)

theorem bytes_move_of_ge (m : Mem) {dst src a : ℤ} {n : ℕ} (k : ℕ) (h : dst + n ≤ a) :
    bytes (move m dst src n) a k = bytes m a k :=
  bytes_eq_iff.mpr (same_move_of_ge m k h)

/-! ### What a memory holds -/

section Holds

variable {m : Mem} {a : ℤ} {l l' : List Byte}

theorem holds_nil (m : Mem) (a : ℤ) : Holds m a [] := rfl

theorem holds_cons {x : Byte} : Holds m a (x :: l) ↔ m a = x ∧ Holds m (a + 1) l := by
  show m a :: bytes m (a + 1) l.length = x :: l ↔ _
  rw [List.cons.injEq]
  rfl

theorem holds_append : Holds m a (l ++ l') ↔ Holds m a l ∧ Holds m (a + l.length) l' := by
  unfold Holds
  rw [List.length_append, bytes_add]
  constructor
  · intro h
    exact List.append_inj h (length_bytes _ _ _)
  · intro h
    rw [h.1, h.2]

theorem Holds.bytes_eq (h : Holds m a l) {n : ℕ} (hn : n = l.length) : bytes m a n = l := hn ▸ h

/-- The byte at an index of the list. -/
theorem Holds.getD_eq (h : Holds m a l) {i : ℕ} (hi : i < l.length) : m (a + i) = l.getD i 0 := by
  have hsplit : l = l.take i ++ l.drop i := (List.take_append_drop i l).symm
  rw [hsplit, holds_append, List.drop_eq_getElem_cons hi, holds_cons, List.length_take_of_le hi.le] at h
  rw [h.2.1, List.getD_eq_getElem _ _ hi]

theorem holds_ofList (l : List Byte) : Holds (ofList l) 0 l := by
  have key : ∀ (l₁ l₂ : List Byte), Holds (ofList (l₁ ++ l₂)) l₁.length l₂ := by
    intro l₁ l₂
    induction l₂ generalizing l₁ with
    | nil => exact holds_nil _ _
    | cons x l₂ ih =>
      rw [holds_cons]
      constructor
      · simp [ofList]
      · have h := ih (l₁ ++ [x])
        rwa [List.append_assoc, List.singleton_append, List.length_append, List.length_singleton,
          Nat.cast_add, Nat.cast_one] at h
  exact key [] l

theorem put_of_lt {p : ℤ} (h : p < a) : put m a l p = m p := if_neg fun h' => by omega

theorem put_of_ge {p : ℤ} (h : a + l.length ≤ p) : put m a l p = m p := if_neg fun h' => by omega

/-- A list that is copied is there. -/
theorem Holds.copy {m' : Mem} {src : ℤ} (h : Holds m' src l) (m : Mem) (dst : ℤ) :
    Holds (copy m dst m' src l.length) dst l := by
  have hall : bytes (ByteMem.copy m dst m' src l.length) (dst + (0 : ℕ)) l.length = bytes m' (src + (0 : ℕ)) l.length :=
    bytes_copy_within (Nat.zero_add _).le
  rw [Nat.cast_zero, add_zero, add_zero] at hall
  exact hall.trans h

/-- A list that is stored is there. -/
theorem holds_put (m : Mem) (a : ℤ) (l : List Byte) : Holds (put m a l) a l := (holds_ofList l).copy m a

/-- What is held elsewhere stays. -/
theorem Holds.put_of_disjoint (h : Holds m a l) {b : ℤ} (hd : a + l.length ≤ b ∨ b + l'.length ≤ a) :
    Holds (put m b l') a l := by
  refine (bytes_eq_iff.mpr ?_).trans h
  intro p hp hp'
  rcases hd with hd | hd
  · exact put_of_lt (by omega)
  · exact put_of_ge (by omega)

/-- A list that is appended to what is held. -/
theorem Holds.append_put (h : Holds m a l) {b : ℤ} (hb : b = a + l.length) : Holds (put m b l') a (l ++ l') := by
  subst hb
  exact holds_append.mpr ⟨h.put_of_disjoint (.inl le_rfl), holds_put _ _ _⟩

/-- A part of what is held is replaced. -/
theorem Holds.put_replace {l₁ l₂ l₃ : List Byte} (h : Holds m a (l₁ ++ (l₂ ++ l₃))) (hlen : l'.length = l₂.length)
    {b : ℤ} (hb : b = a + l₁.length) : Holds (put m b l') a (l₁ ++ (l' ++ l₃)) := by
  subst hb
  rw [holds_append, holds_append] at h ⊢
  rw [hlen]
  exact ⟨h.1.put_of_disjoint (.inl le_rfl), holds_put _ _ _, h.2.2.put_of_disjoint (.inr (by omega))⟩

/-- One byte of what is held is replaced. -/
theorem Holds.put_set (h : Holds m a l) {i : ℕ} (hi : i < l.length) (x : Byte) :
    Holds (put m (a + i) [x]) a (l.set i x) := by
  have hsplit : l = l.take i ++ ([l[i]] ++ l.drop (i + 1)) := by
    rw [List.singleton_append, ← List.drop_eq_getElem_cons hi, List.take_append_drop]
  have hset : l.set i x = l.take i ++ ([x] ++ l.drop (i + 1)) :=
    List.set_eq_take_append_cons_drop.trans (if_pos hi)
  rw [hset]
  rw [hsplit] at h
  have hlen : [x].length = [l[i]].length := rfl
  exact h.put_replace hlen (by rw [List.length_take_of_le hi.le])

end Holds

end ByteMem
end La12xx
