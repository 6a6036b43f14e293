/-
# The access point control list

`vtq_usim_read_acl`. The file is a count and that many TLVs; the loop reads the
first eight at most and moves a pointer over those that have the tag of an
access point. The invariant ties the pointer to the elements before it, as long
as they have the tag.
-/
import La12xx.Lib.Loop
import La12xx.Usim.Delivery

namespace La12xx
namespace Usim

open ByteMem Dialogue

/-- `USIM_ACL_FILEID` -/
def aclFileid : Word := 0x6f57

/-- `ACL_TAG` -/
def aclTag : Byte := 0xdd

/-- `ACL_MAX_LIST` -/
def aclMaxList : ℕ := 8

/-- `vtq_usim_acl_t` -/
structure Acl where
  count : ℕ
  tlvList : ℕ → Tlv

/-- One round of the loop, with the list of the caller and the pointer. -/
def aclRound (m : Mem) (i : ℕ) (st : (ℕ → Tlv) × ℤ) : (ℕ → Tlv) × ℤ :=
  let r := getTlv m aclTag st.2 (st.1 i)
  (Function.update st.1 i r.1, r.2)

/-- How `vtq_usim_read_acl` fills in the caller's list from its buffer. -/
def decodeAcl (m : Mem) (acl : Acl) : Acl :=
  let count := if aclMaxList ≤ (m 0).toNat then aclMaxList else (m 0).toNat
  ⟨count, (loop count (aclRound m) (acl.tlvList, 1)).1⟩

/-- `vtq_usim_read_acl`: the return value and the caller's list. -/
def readAcl (S : Sim) (E : Env) (acl : Acl) (aclMaxLen : ℤ) : Card (ℤ × Acl) :=
  if ¬ E.malloc aclMaxLen then pure (-1, acl)
  else do
    let out ← readTransparent S E aclFileid 0 E.heap 0
    if out.ret < 0 then pure (out.ret, acl)
    else if out.len > aclMaxLen then pure (-1, acl)
    else pure (0, decodeAcl out.buf acl)

/-! ### The file -/

/-- A control list as it lies in the file. -/
def aclFile (ts : List Tlv) (padding : List Byte) : List Byte :=
  BitVec.ofNat 8 ts.length :: (ts.flatMap Tlv.bytes ++ padding)

theorem length_flatMap_bytes_ge : ∀ ts : List Tlv, 2 * ts.length ≤ (ts.flatMap Tlv.bytes).length
  | [] => Nat.zero_le _
  | t :: ts => by
    have ih := length_flatMap_bytes_ge ts
    rw [List.flatMap_cons, List.length_append, List.length_cons, t.length_bytes]
    omega

/-- A TLV is no longer than the list it is in. -/
theorem length_bytes_le_of_mem {ts : List Tlv} {t : Tlv} (h : t ∈ ts) :
    t.bytes.length ≤ (ts.flatMap Tlv.bytes).length := by
  obtain ⟨l₁, l₂, rfl⟩ := List.append_of_mem h
  rw [List.flatMap_append, List.flatMap_cons, List.length_append, List.length_append]
  omega

/-- Where the `i`-th element is. -/
def tlvAt (ts : List Tlv) (i : ℕ) : ℤ := 1 + ((ts.take i).flatMap Tlv.bytes).length

section Round

variable {m : Mem} {ts : List Tlv} {i : ℕ} {t : Tlv}

theorem holds_tlvAt (h : Holds m 1 (ts.flatMap Tlv.bytes)) (hi : ts[i]? = some t) : Holds m (tlvAt ts i) t.bytes := by
  obtain ⟨hlt, rfl⟩ := List.getElem?_eq_some_iff.mp hi
  have hsplit : ts = ts.take i ++ ts[i] :: ts.drop (i + 1) := by
    rw [← List.drop_eq_getElem_cons hlt, List.take_append_drop]
  rw [hsplit, List.flatMap_append, List.flatMap_cons, holds_append, holds_append] at h
  exact h.2.1

theorem tlvAt_succ (hi : ts[i]? = some t) : tlvAt ts (i + 1) = tlvAt ts i + t.bytes.length := by
  rw [tlvAt, tlvAt, List.take_add_one, hi, Option.toList_some, List.flatMap_append, List.flatMap_singleton,
    List.length_append]
  push_cast
  ring

/-- What the loop has read after `i` rounds: every element behind elements with
the tag has its own tag and, if that is the right one, is read whole. -/
structure AclRead (ts : List Tlv) (i : ℕ) (st : (ℕ → Tlv) × ℤ) : Prop where
  pos : (∀ t ∈ ts.take i, t.tag = aclTag) → st.2 = tlvAt ts i
  entry : ∀ j t, j < i → ts[j]? = some t → (∀ t' ∈ ts.take j, t'.tag = aclTag) →
    (st.1 j).tag = t.tag ∧ (t.tag = aclTag → st.1 j = t)

/-- One round, at an element of the file. -/
theorem AclRead.round {st : (ℕ → Tlv) × ℤ} (h : AclRead ts i st) (hm : Holds m 1 (ts.flatMap Tlv.bytes))
    (hi : ts[i]? = some t) (hlen : t.value.length < 256) : AclRead ts (i + 1) (aclRound m i st) := by
  have hat : Holds m (tlvAt ts i) t.bytes := holds_tlvAt hm hi
  have htag : m (tlvAt ts i) = t.tag := (holds_cons.mp hat).1
  constructor
  · intro hall
    have hbefore : ∀ t' ∈ ts.take i, t'.tag = aclTag := fun t' h' =>
      hall t' (List.take_subset_take_left ts (Nat.le_succ i) h')
    have hown : t.tag = aclTag := hall t (by rw [List.take_add_one, hi]; simp)
    have hread := getTlv_holds hat hlen (st.1 i)
    rw [hown] at hread
    simp only [aclRound, h.pos hbefore, hread]
    exact (tlvAt_succ hi).symm
  · intro j t' hj hj' hbefore
    rcases Nat.lt_succ_iff_lt_or_eq.mp hj with hlt | rfl
    · have hold := h.entry j t' hlt hj' hbefore
      simp only [aclRound, Function.update_of_ne hlt.ne]
      exact hold
    · obtain rfl : t = t' := Option.some.inj (hi.symm.trans hj')
      simp only [aclRound, Function.update_self, h.pos hbefore]
      by_cases hown : t.tag = aclTag
      · have hread := getTlv_holds hat hlen (st.1 j)
        rw [hown] at hread
        rw [hread]
        exact ⟨rfl, fun _ => rfl⟩
      · rw [getTlv, if_neg (htag ▸ hown)]
        exact ⟨htag, fun h' => absurd h' hown⟩

end Round

/-- What the decoder makes of a control list. -/
theorem decodeAcl_aclFile {m : Mem} {ts : List Tlv} {padding : List Byte} (h : Holds m 0 (aclFile ts padding))
    (hlen : (aclFile ts padding).length ≤ 255) (acl : Acl) :
    (decodeAcl m acl).count = min ts.length aclMaxList ∧
      ∀ j t, j < min ts.length aclMaxList → ts[j]? = some t → (∀ t' ∈ ts.take j, t'.tag = aclTag) →
        ((decodeAcl m acl).tlvList j).tag = t.tag ∧ (t.tag = aclTag → (decodeAcl m acl).tlvList j = t) := by
  obtain ⟨h0, hrest⟩ := holds_cons.mp h
  have hts : Holds m 1 (ts.flatMap Tlv.bytes) := (holds_append.mp hrest).1
  have hge := length_flatMap_bytes_ge ts
  rw [aclFile, List.length_cons, List.length_append] at hlen
  have hbyte : (m 0).toNat = ts.length := by
    rw [h0, BitVec.toNat_ofNat]
    exact Nat.mod_eq_of_lt (by omega)
  have hcount : (if aclMaxList ≤ (m 0).toNat then aclMaxList else (m 0).toNat) = min ts.length aclMaxList := by
    rw [hbyte]
    split <;> omega
  have hread : AclRead ts (min ts.length aclMaxList)
      (loop (min ts.length aclMaxList) (aclRound m) (acl.tlvList, 1)) := by
    apply loop_inv (I := AclRead ts)
    · exact ⟨fun _ => rfl, fun j t hj => absurd hj (Nat.not_lt_zero j)⟩
    · intro i hi st hst
      have hi' : i < ts.length := hi.trans_le (Nat.min_le_left _ _)
      have hvalue := length_bytes_le_of_mem (List.getElem_mem hi')
      rw [Tlv.length_bytes] at hvalue
      exact hst.round hts (List.getElem?_eq_getElem hi') (by omega)
  simp only [decodeAcl, hcount]
  exact ⟨trivial, hread.entry⟩

end Usim
end La12xx
