/-
# Sequences of TLVs

A TLV is a tag byte, a byte that says how many bytes follow, and those bytes.
`encodeAll` puts TLVs one after the other, and `decode` takes a list apart again:
it accepts what was so put together, nothing else, and in one way only
(`decode_eq_some_iff`). `decode_bytes` takes the first TLV from a memory, where it
is the one that begins at the address, if it ends within the range.
-/
import La12xx.Lib.ByteMem

namespace La12xx

open ByteMem

/-- A tag and a value that a length byte can announce. -/
structure Tlv where
  tag : Byte
  value : List Byte
  length_lt : value.length < 256
deriving DecidableEq

namespace Tlv

def encode (t : Tlv) : List Byte := t.tag :: BitVec.ofNat 8 t.value.length :: t.value

def encodeAll (ts : List Tlv) : List Byte := ts.flatMap encode

/-- The TLV with the tag and the length byte, whose value is at the front of `rest`. -/
def ofFront (tag len : Byte) (rest : List Byte) : Tlv :=
  ⟨tag, rest.take len.toNat, (List.length_take_le _ _).trans_lt len.isLt⟩

def decode : List Byte → Option (List Tlv)
  | [] => some []
  | [_] => none
  | tag :: len :: rest =>
    if len.toNat ≤ rest.length then (decode (rest.drop len.toNat)).map (ofFront tag len rest :: ·)
    else none
termination_by l => l.length
decreasing_by
  simp only [List.length_drop, List.length_cons]
  omega

@[simp] theorem encodeAll_nil : encodeAll [] = [] := rfl

@[simp] theorem encodeAll_cons (t : Tlv) (ts : List Tlv) : encodeAll (t :: ts) = encode t ++ encodeAll ts := rfl

@[simp] theorem length_encode (t : Tlv) : t.encode.length = 2 + t.value.length := by
  rw [encode, List.length_cons, List.length_cons]
  omega

theorem toNat_length (t : Tlv) : (BitVec.ofNat 8 t.value.length).toNat = t.value.length :=
  Nat.mod_eq_of_lt t.length_lt

theorem encode_ofFront {tag len : Byte} {rest : List Byte} (h : len.toNat ≤ rest.length) :
    (ofFront tag len rest).encode = tag :: len :: rest.take len.toNat := by
  rw [encode, ofFront, List.length_take_of_le h, BitVec.ofNat_toNat, BitVec.setWidth_eq]

theorem decode_encodeAll (ts : List Tlv) : decode (encodeAll ts) = some ts := by
  induction ts with
  | nil => rw [encodeAll_nil, decode]
  | cons t ts ih =>
    have hfront : ofFront t.tag (BitVec.ofNat 8 t.value.length) (t.value ++ encodeAll ts) = t := by
      cases t with
      | mk tag value hlt => simp only [ofFront, BitVec.toNat_ofNat, Nat.mod_eq_of_lt hlt, List.take_left]
    rw [encodeAll_cons, encode, List.cons_append, List.cons_append, decode, toNat_length, List.drop_left, ih, hfront,
      if_pos (by rw [List.length_append]; omega), Option.map_some]

theorem encodeAll_of_decode (l : List Byte) : ∀ ts, decode l = some ts → l = encodeAll ts := by
  induction l using decode.induct with
  | case1 =>
    intro ts h
    rw [decode, Option.some.injEq] at h
    rw [← h, encodeAll_nil]
  | case2 b =>
    intro ts h
    rw [decode] at h
    exact absurd h (by simp)
  | case3 tag len rest hle ih =>
    intro ts h
    rw [decode, if_pos hle, Option.map_eq_some_iff] at h
    obtain ⟨ts', hts', rfl⟩ := h
    rw [encodeAll_cons, encode_ofFront hle, ← ih ts' hts', List.cons_append, List.cons_append, List.take_append_drop]
  | case4 tag len rest hle =>
    intro ts h
    rw [decode, if_neg hle] at h
    exact absurd h (by simp)

/-- The encodings are what is accepted, each as the TLVs it encodes. -/
theorem decode_eq_some_iff {l : List Byte} {ts : List Tlv} : decode l = some ts ↔ l = encodeAll ts :=
  ⟨encodeAll_of_decode l ts, fun h => h ▸ decode_encodeAll ts⟩

/-! ### In a memory -/

/-- The TLV that begins at `pos`. -/
def stored (m : Mem) (pos : ℤ) : Tlv :=
  ⟨m pos, bytes m (pos + 2) (m (pos + 1)).toNat, by rw [length_bytes]; exact (m (pos + 1)).isLt⟩

theorem decode_bytes (m : Mem) (pos : ℤ) (n : ℕ) :
    decode (bytes m pos (n + 2)) =
      if (m (pos + 1)).toNat ≤ n then
        (decode (bytes m (pos + (2 + (m (pos + 1)).toNat)) (n - (m (pos + 1)).toNat))).map (stored m pos :: ·)
      else none := by
  have h2 : pos + 1 + 1 = pos + 2 := by ring
  rw [bytes, bytes, decode, length_bytes, h2]
  by_cases hle : (m (pos + 1)).toNat ≤ n
  · have hsplit : bytes m (pos + 2) n = bytes m (pos + 2) (m (pos + 1)).toNat ++
        bytes m (pos + (2 + (m (pos + 1)).toNat)) (n - (m (pos + 1)).toNat) := by
      rw [← add_assoc, ← bytes_add, Nat.add_sub_cancel' hle]
    have hfront : ofFront (m pos) (m (pos + 1)) (bytes m (pos + 2) n) = stored m pos := by
      simp only [ofFront, stored, hsplit, List.take_left' (length_bytes _ _ _)]
    rw [if_pos hle, if_pos hle, hfront, hsplit, List.drop_left' (length_bytes _ _ _)]
  · rw [if_neg hle, if_neg hle]

theorem length_stored (m : Mem) (pos : ℤ) : (stored m pos).value.length = (m (pos + 1)).toNat := length_bytes _ _ _

/-- The first TLV of a range, and the range behind it. -/
theorem decode_bytes_cons {m : Mem} {pos : ℤ} {n : ℕ} {t : Tlv} {ts : List Tlv}
    (h : decode (bytes m pos n) = some (t :: ts)) :
    t = stored m pos ∧ ∃ k, n = 2 + (m (pos + 1)).toNat + k ∧
      decode (bytes m (pos + (2 + (m (pos + 1)).toNat)) k) = some ts := by
  obtain _ | _ | n := n
  · rw [bytes, decode] at h
    simp at h
  · rw [bytes, bytes, decode] at h
    simp at h
  rw [decode_bytes] at h
  split at h
  · next hle =>
    obtain ⟨ts', hts', hcons⟩ := Option.map_eq_some_iff.mp h
    obtain ⟨rfl, rfl⟩ := List.cons.inj hcons
    exact ⟨rfl, n - (m (pos + 1)).toNat, by omega, hts'⟩
  · simp at h

/-- A memory holds a TLV where the TLV that begins there is this one. -/
theorem holds_encode {m : Mem} {pos : ℤ} {t : Tlv} : Holds m pos t.encode ↔ t = stored m pos := by
  have h2 : pos + 1 + 1 = pos + 2 := by ring
  rw [encode, holds_cons, holds_cons, h2]
  constructor
  · rintro ⟨htag, hlen, hvalue⟩
    obtain ⟨tag, value, hlt⟩ := t
    have hn : (m (pos + 1)).toNat = value.length := by rw [hlen, BitVec.toNat_ofNat, Nat.mod_eq_of_lt hlt]
    rw [stored, mk.injEq, htag, hn]
    exact ⟨rfl, hvalue.symm⟩
  · rintro rfl
    rw [length_stored, BitVec.ofNat_toNat, BitVec.setWidth_eq]
    refine ⟨rfl, rfl, ?_⟩
    rw [Holds, length_stored]
    rfl

/-- The memory holds the TLVs from `pos` to `last`. -/
def Fill (m : Mem) (pos last : ℤ) (ts : List Tlv) : Prop :=
  Holds m pos (encodeAll ts) ∧ last = pos + (encodeAll ts).length

theorem fill_nil {m : Mem} {pos last : ℤ} : Fill m pos last [] ↔ last = pos := by
  rw [Fill, encodeAll_nil, List.length_nil, Nat.cast_zero, add_zero]
  exact and_iff_right (holds_nil m pos)

theorem fill_cons {m : Mem} {pos last : ℤ} {t : Tlv} {ts : List Tlv} :
    Fill m pos last (t :: ts) ↔ t = stored m pos ∧ Fill m (pos + (2 + (m (pos + 1)).toNat)) last ts := by
  rw [Fill, Fill, encodeAll_cons, holds_append, holds_encode, List.length_append, length_encode]
  constructor
  · rintro ⟨⟨rfl, hrest⟩, hlast⟩
    rw [length_stored] at hrest hlast
    push_cast at hrest hlast
    exact ⟨rfl, hrest, by omega⟩
  · rintro ⟨rfl, hrest, hlast⟩
    rw [length_stored]
    push_cast
    exact ⟨⟨rfl, hrest⟩, by omega⟩

theorem Fill.le {m : Mem} {pos last : ℤ} {ts : List Tlv} (h : Fill m pos last ts) : pos ≤ last := by
  rw [h.2]
  omega

end Tlv
end La12xx
