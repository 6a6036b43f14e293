/-
# The template parser

`usim_parse_fcp_tmpl` of `usim_apdu.c`, round by round, with pointers that may be
null and with what it stores before it fails. The loop has two exits: the
comparison with the end, after a round, returns 0; the test before a round returns
`-1`, also after a jump over the end. For every buffer the function returns, and it
returns 0 exactly for a template that is filled by TLVs (`parseFcpTmpl_spec`). What
the other functions go on with is `parseFcpTmpl` of `Apdu` (`parseFcpTmpl_eq_some_iff`).
-/
import La12xx.Lib.Tlv
import La12xx.Usim.Apdu

namespace La12xx
namespace Usim

open ByteMem

namespace Fcp

/-! ### The function -/

/-- `*file_len` and `*usim_rec`; a pointer may be `NULL`. -/
structure Out where
  fileLen : Option ℤ
  record : Option UsimRec

/-- The `switch` on the TLV at `pos`; the other cases only print. -/
def tlvCase (buffer : Mem) (pos : ℤ) (out : Out) : Out :=
  if buffer pos = 0x82 then
    { out with
      record := out.record.map fun _ =>
        ⟨(buffer (pos + 4)).toNat * 256 + (buffer (pos + 5)).toNat, (buffer (pos + 6)).toNat⟩ }
  else if buffer pos = 0x80 then
    if buffer (pos + 1) = 1 then { out with fileLen := out.fileLen.map fun _ => (buffer (pos + 2)).toNat }
    else if buffer (pos + 1) = 2 then
      { out with fileLen := out.fileLen.map fun _ => (buffer (pos + 2)).toNat * 256 + (buffer (pos + 3)).toNat }
    else out
  else out

/-- At the test of the loop, or after a `return`. -/
inductive Parse where
  | running (pos : ℤ) (out : Out)
  | returned (ret : ℤ) (out : Out)

/-- One round of the loop. -/
def Parse.step (buffer : Mem) (last : ℤ) : Parse → Parse
  | .returned ret out => .returned ret out
  | .running pos out =>
    if pos + 1 < last then
      let out := tlvCase buffer pos out
      let pos := pos + (2 + (buffer (pos + 1)).toNat)
      if pos = last then .returned 0 out else .running pos out
    else .returned (-1) out

/-- `end` -/
def last (buffer : Mem) : ℤ := 3 + (buffer 2).toNat

/-- Up to the loop. -/
def start (buffer : Mem) (out : Out) : Parse :=
  if buffer 1 ≠ 0x62 then .returned (-1) out else .running 3 out

/-- The loop ends with a `return`. -/
def Ends (buffer : Mem) (last : ℤ) (p : Parse) (ret : ℤ) (out : Out) : Prop :=
  ∃ n, (Parse.step buffer last)^[n] p = .returned ret out

/-- The function returns `ret` and leaves `out'`. -/
def Returns (buffer : Mem) (out : Out) (ret : ℤ) (out' : Out) : Prop :=
  Ends buffer (last buffer) (start buffer out) ret out'

/-! ### Rounds -/

section Rounds

variable {buffer : Mem} {last pos ret ret' : ℤ} {out out' : Out}

theorem ends_step (p : Parse) : Ends buffer last (p.step buffer last) ret out ↔ Ends buffer last p ret out := by
  constructor
  · rintro ⟨n, hn⟩
    exact ⟨n + 1, hn⟩
  · rintro ⟨n, hn⟩
    cases n with
    | zero =>
      obtain rfl : p = .returned ret out := hn
      exact ⟨0, rfl⟩
    | succ n => exact ⟨n, hn⟩

theorem ends_returned : Ends buffer last (.returned ret out) ret' out' ↔ ret' = ret ∧ out' = out := by
  have hfix : ∀ n, (Parse.step buffer last)^[n] (.returned ret out) = .returned ret out := fun n =>
    Function.iterate_fixed rfl n
  constructor
  · rintro ⟨n, hn⟩
    rw [hfix, Parse.returned.injEq] at hn
    exact ⟨hn.1.symm, hn.2.symm⟩
  · rintro ⟨rfl, rfl⟩
    exact ⟨0, rfl⟩

/-- A loop ends in one way. -/
theorem Ends.unique {p : Parse} (h : Ends buffer last p ret out) :
    Ends buffer last p ret' out' ↔ ret' = ret ∧ out' = out := by
  obtain ⟨n, hn⟩ := h
  have hiter : ∀ n q, Ends buffer last ((Parse.step buffer last)^[n] q) ret' out' ↔ Ends buffer last q ret' out' := by
    intro n
    induction n with
    | zero => exact fun _ => Iff.rfl
    | succ n ih => exact fun q => (ih _).trans (ends_step q)
  rw [← hiter n, hn, ends_returned]

/-- Within less than two bytes of the end, or behind it. -/
theorem ends_of_le (h : last ≤ pos + 1) :
    Ends buffer last (.running pos out) ret out' ↔ ret = -1 ∧ out' = out := by
  rw [← ends_step, Parse.step, if_neg (by omega), ends_returned]

/-- The last TLV, and one before others. -/
theorem ends_of_lt (h : pos + 1 < last) :
    Ends buffer last (.running pos out) ret out' ↔
      if pos + (2 + (buffer (pos + 1)).toNat) = last then ret = 0 ∧ out' = tlvCase buffer pos out
      else Ends buffer last (.running (pos + (2 + (buffer (pos + 1)).toNat)) (tlvCase buffer pos out)) ret out' := by
  rw [← ends_step, Parse.step, if_pos h]
  show Ends _ _ (if _ then _ else _) _ _ ↔ _
  split
  · exact ends_returned
  · rfl

end Rounds

/-! ### What the TLVs say -/

/-- The file size of a TLV with the tag `USIM_TLV_FILE_SIZE`, if its length is 1 or 2. -/
def fileSize? (t : Tlv) : Option ℤ :=
  if t.tag = 0x80 then
    match t.value with
    | [a] => some a.toNat
    | [a, b] => some (a.toNat * 256 + b.toNat)
    | _ => none
  else none

/-- The record length and count of a TLV with the tag `USIM_TLV_FILE_DESC`, if it has them. -/
def fileDesc? (t : Tlv) : Option UsimRec :=
  if t.tag = 0x82 then
    match t.value with
    | _ :: _ :: a :: b :: c :: _ => some ⟨a.toNat * 256 + b.toNat, c.toNat⟩
    | _ => none
  else none

theorem fileSize?_eq_none {t : Tlv} (h1 : t.value.length ≠ 1) (h2 : t.value.length ≠ 2) : fileSize? t = none := by
  obtain ⟨tag, value, hlt⟩ := t
  rw [fileSize?]
  obtain _ | ⟨a, _ | ⟨b, _ | ⟨c, l⟩⟩⟩ := value
  · exact ite_self none
  · exact absurd rfl h1
  · exact absurd rfl h2
  · exact ite_self none

/-- What the last of the TLVs says of those that say something. -/
def lastOf {α : Type} (f : Tlv → Option α) (ts : List Tlv) : Option α := ts.reverse.findSome? f

theorem lastOf_cons {α : Type} (f : Tlv → Option α) (t : Tlv) (ts : List Tlv) :
    lastOf f (t :: ts) = (lastOf f ts).or (f t) := by
  rw [lastOf, List.reverse_cons, List.findSome?_append, List.findSome?_singleton, lastOf]

theorem fileLen_tlvCase (buffer : Mem) (pos : ℤ) (out : Out) :
    (tlvCase buffer pos out).fileLen = out.fileLen.map (fileSize? (Tlv.stored buffer pos)).getD := by
  have hid : out.fileLen = out.fileLen.map (none : Option ℤ).getD := (congrFun Option.map_id out.fileLen).symm
  rw [tlvCase]
  by_cases hdesc : buffer pos = 0x82
  · have hne : (Tlv.stored buffer pos).tag ≠ 0x80 := fun h => absurd (hdesc.symm.trans h) (by decide)
    rw [if_pos hdesc, fileSize?, if_neg hne]
    exact hid
  by_cases hsize : buffer pos = 0x80
  · have htag : (Tlv.stored buffer pos).tag = 0x80 := hsize
    rw [if_neg hdesc, if_pos hsize]
    by_cases h1 : buffer (pos + 1) = 1
    · have hvalue : (Tlv.stored buffer pos).value = [buffer (pos + 2)] := by
        simp only [Tlv.stored, h1]
        rfl
      rw [if_pos h1, fileSize?, if_pos htag, hvalue]
      rfl
    by_cases h2 : buffer (pos + 1) = 2
    · have hvalue : (Tlv.stored buffer pos).value = [buffer (pos + 2), buffer (pos + 3)] := by
        simp only [Tlv.stored, h2]
        show [buffer (pos + 2), buffer (pos + 2 + 1)] = _
        rw [add_assoc]
        rfl
      rw [if_neg h1, if_pos h2, fileSize?, if_pos htag, hvalue]
      rfl
    · rw [if_neg h1, if_neg h2, fileSize?_eq_none]
      · exact hid
      · rw [Tlv.length_stored]
        exact fun h => h1 (BitVec.eq_of_toNat_eq h)
      · rw [Tlv.length_stored]
        exact fun h => h2 (BitVec.eq_of_toNat_eq h)
  · rw [if_neg hdesc, if_neg hsize, fileSize?, if_neg (show (Tlv.stored buffer pos).tag ≠ 0x80 from hsize)]
    exact hid

theorem record_tlvCase (buffer : Mem) (pos : ℤ) (out : Out)
    (h : (Tlv.stored buffer pos).tag = 0x82 → 5 ≤ (Tlv.stored buffer pos).value.length) :
    (tlvCase buffer pos out).record = out.record.map (fileDesc? (Tlv.stored buffer pos)).getD := by
  have hid : out.record = out.record.map (none : Option UsimRec).getD := (congrFun Option.map_id out.record).symm
  rw [tlvCase]
  by_cases hdesc : buffer pos = 0x82
  · have h5 := h hdesc
    rw [Tlv.length_stored] at h5
    obtain ⟨k, hk⟩ := Nat.exists_eq_add_of_le' h5
    have hvalue : (Tlv.stored buffer pos).value = buffer (pos + 2) :: buffer (pos + 3) :: buffer (pos + 4) ::
        buffer (pos + 5) :: buffer (pos + 6) :: bytes buffer (pos + 7) k := by
      simp only [Tlv.stored, hk, bytes]
      ring_nf
    rw [if_pos hdesc, fileDesc?, if_pos (show (Tlv.stored buffer pos).tag = 0x82 from hdesc), hvalue]
    rfl
  · rw [if_neg hdesc, fileDesc?, if_neg (show (Tlv.stored buffer pos).tag ≠ 0x82 from hdesc), ← hid,
      apply_ite Out.record, apply_ite Out.record, apply_ite Out.record, ite_self, ite_self, ite_self]

/-- The effect of the TLVs from `pos` on. -/
def tlvCases (buffer : Mem) : ℤ → List Tlv → Out → Out
  | _, [], out => out
  | pos, t :: ts, out => tlvCases buffer (pos + (2 + t.value.length)) ts (tlvCase buffer pos out)

/-- A range that is filled by TLVs, at least one, is read to its end. -/
theorem ends_of_decode (buffer : Mem) (ts : List Tlv) : ∀ {n : ℕ} {pos : ℤ} (out : Out), ts ≠ [] →
    Tlv.decode (bytes buffer pos n) = some ts →
    Ends buffer (pos + n) (.running pos out) 0 (tlvCases buffer pos ts out) := by
  induction ts with
  | nil => exact fun _ h => absurd rfl h
  | cons t ts ih =>
    intro n pos out _ h
    obtain ⟨rfl, k, rfl, hts⟩ := Tlv.decode_bytes_cons h
    have hk := congrArg List.length (Tlv.decode_eq_some_iff.mp hts)
    rw [length_bytes] at hk
    push_cast
    rw [ends_of_lt (by omega), tlvCases, Tlv.length_stored]
    cases ts with
    | nil =>
      rw [Tlv.encodeAll_nil, List.length_nil] at hk
      rw [if_pos (by omega)]
      exact ⟨rfl, rfl⟩
    | cons t' ts =>
      rw [Tlv.encodeAll_cons, List.length_append, Tlv.length_encode] at hk
      rw [if_neg (by omega), ← add_assoc]
      exact ih (tlvCase buffer pos out) (by simp) hts

/-- Any other range is left with `-1`. -/
theorem ends_of_not_decode (buffer : Mem) (n : ℕ) : ∀ (pos : ℤ) (out : Out),
    (∀ ts, Tlv.decode (bytes buffer pos n) = some ts → ts = []) →
    ∃ out', Ends buffer (pos + n) (.running pos out) (-1) out' := by
  induction n using Nat.strong_induction_on with
  | _ n ih =>
    intro pos out h
    rcases lt_or_ge n 2 with hn | hn
    · exact ⟨out, (ends_of_le (by omega)).mpr ⟨rfl, rfl⟩⟩
    obtain ⟨n, rfl⟩ := Nat.exists_eq_add_of_le' hn
    simp only [ends_of_lt (show pos + 1 < pos + ((n + 2 : ℕ) : ℤ) by omega)]
    by_cases hle : (buffer (pos + 1)).toNat ≤ n
    · have hrest : ∀ ts, Tlv.decode
          (bytes buffer (pos + (2 + (buffer (pos + 1)).toNat)) (n - (buffer (pos + 1)).toNat)) ≠ some ts := by
        intro ts hts
        have h' := h (Tlv.stored buffer pos :: ts) (by rw [Tlv.decode_bytes, if_pos hle, hts, Option.map_some])
        simp at h'
      have hne : n - (buffer (pos + 1)).toNat ≠ 0 := by
        intro h0
        refine hrest [] ?_
        rw [h0, bytes, Tlv.decode]
      obtain ⟨out', hout'⟩ := ih (n - (buffer (pos + 1)).toNat) (by omega) _ (tlvCase buffer pos out)
        fun ts hts => absurd hts (hrest ts)
      refine ⟨out', ?_⟩
      rw [if_neg (by omega)]
      convert hout' using 1
      omega
    · refine ⟨tlvCase buffer pos out, ?_⟩
      rw [if_neg (by omega), ends_of_le (by omega)]
      exact ⟨rfl, rfl⟩

theorem map_getD_or {α : Type} (a b : Option α) (o : Option α) : (o.map b.getD).map a.getD = o.map (a.or b).getD := by
  cases o with
  | none => rfl
  | some x => cases a <;> rfl

theorem fileLen_tlvCases (buffer : Mem) (ts : List Tlv) : ∀ {n : ℕ} {pos : ℤ} (out : Out),
    Tlv.decode (bytes buffer pos n) = some ts →
    (tlvCases buffer pos ts out).fileLen = out.fileLen.map (lastOf fileSize? ts).getD := by
  induction ts with
  | nil =>
    intro _ _ out _
    exact (congrFun Option.map_id out.fileLen).symm
  | cons t ts ih =>
    intro n pos out h
    obtain ⟨rfl, k, -, hts⟩ := Tlv.decode_bytes_cons h
    rw [tlvCases, Tlv.length_stored, ih _ hts, fileLen_tlvCase, map_getD_or, lastOf_cons]

theorem record_tlvCases (buffer : Mem) (ts : List Tlv) : ∀ {n : ℕ} {pos : ℤ} (out : Out),
    Tlv.decode (bytes buffer pos n) = some ts → (∀ t ∈ ts, t.tag = 0x82 → 5 ≤ t.value.length) →
    (tlvCases buffer pos ts out).record = out.record.map (lastOf fileDesc? ts).getD := by
  induction ts with
  | nil =>
    intro _ _ out _ _
    exact (congrFun Option.map_id out.record).symm
  | cons t ts ih =>
    intro n pos out h hlen
    obtain ⟨rfl, k, -, hts⟩ := Tlv.decode_bytes_cons h
    rw [List.forall_mem_cons] at hlen
    rw [tlvCases, Tlv.length_stored, ih _ hts hlen.2, record_tlvCase buffer pos out hlen.1, map_getD_or, lastOf_cons]

/-! ### The whole function -/

/-- The body of the template, of the length in byte 2, is the encoding of `ts`. -/
def Body (buffer : Mem) (ts : List Tlv) : Prop := bytes buffer 3 (buffer 2).toNat = Tlv.encodeAll ts

/-- What a call that returns `ret` and leaves `out'` promises. -/
structure Spec (buffer : Mem) (out : Out) (ret : ℤ) (out' : Out) : Prop where
  ret_eq : ret = 0 ∨ ret = -1
  ret_zero_iff : ret = 0 ↔ buffer 1 = 0x62 ∧ ∃ ts, ts ≠ [] ∧ Body buffer ts
  fileLen : ret = 0 → ∀ ts, Body buffer ts → out'.fileLen = out.fileLen.map (lastOf fileSize? ts).getD
  record : ret = 0 → ∀ ts, Body buffer ts → (∀ t ∈ ts, t.tag = 0x82 → 5 ≤ t.value.length) →
    out'.record = out.record.map (lastOf fileDesc? ts).getD
  noTag : buffer 1 ≠ 0x62 → ret = -1 ∧ out' = out

/-- **The parser on every buffer**: it returns, with one result, which is 0 exactly for
a template with a body of TLVs, and then what the last file size and the last file
descriptor say is stored. -/
theorem parseFcpTmpl_spec (buffer : Mem) (out : Out) :
    ∃ ret out', (∀ r o, Returns buffer out r o ↔ r = ret ∧ o = out') ∧ Spec buffer out ret out' := by
  have hret : (-1 : ℤ) ≠ 0 := by decide
  by_cases htag : buffer 1 = 0x62
  · have hstart : start buffer out = .running 3 out := if_neg (not_not_intro htag)
    by_cases hbody : ∃ ts, ts ≠ [] ∧ Body buffer ts
    · obtain ⟨ts, hne, hts⟩ := hbody
      have hdecode := Tlv.decode_eq_some_iff.mpr hts
      have hends := ends_of_decode buffer ts out hne hdecode
      have hsame : ∀ ts', Body buffer ts' → ts' = ts := fun ts' hts' =>
        Option.some.inj ((Tlv.decode_eq_some_iff.mpr hts').symm.trans hdecode)
      rw [← hstart] at hends
      refine ⟨0, _, fun r o => hends.unique, ⟨.inl rfl, iff_of_true rfl ⟨htag, ts, hne, hts⟩, ?_, ?_, absurd htag⟩⟩
      · intro _ ts' hts'
        rw [hsame ts' hts', fileLen_tlvCases buffer ts out hdecode]
      · intro _ ts' hts' hlen
        rw [hsame ts' hts'] at hlen ⊢
        exact record_tlvCases buffer ts out hdecode hlen
    · have hnone : ∀ ts, Tlv.decode (bytes buffer 3 (buffer 2).toNat) = some ts → ts = [] := fun ts hts =>
        not_not.mp fun hne => hbody ⟨ts, hne, Tlv.decode_eq_some_iff.mp hts⟩
      obtain ⟨out', hends⟩ := ends_of_not_decode buffer _ 3 out hnone
      rw [← hstart] at hends
      exact ⟨-1, out', fun r o => hends.unique,
        ⟨.inr rfl, iff_of_false hret fun h => hbody h.2, fun h => absurd h hret, fun h => absurd h hret, absurd htag⟩⟩
  · have hstart : start buffer out = .returned (-1) out := if_pos htag
    refine ⟨-1, out, fun r o => ?_, ⟨.inr rfl, iff_of_false hret fun h => htag h.1, fun h => absurd h hret,
      fun h => absurd h hret, fun _ => ⟨rfl, rfl⟩⟩⟩
    rw [Returns, hstart, ends_returned]

/-! ### What the other functions go on with -/

/-- Both pointers are given. -/
def ofInfo (info : FcpInfo) : Out := ⟨some info.fileLen, some info.record⟩

theorem ofInfo_injective : Function.Injective ofInfo := by
  intro info info' h
  rw [ofInfo, ofInfo, Out.mk.injEq, Option.some.injEq, Option.some.injEq] at h
  cases info
  cases info'
  rw [FcpInfo.mk.injEq]
  exact h

theorem tlvCase_ofInfo (buffer : Mem) (pos : ℤ) (info : FcpInfo) :
    tlvCase buffer pos (ofInfo info) = ofInfo (fcpTlv buffer pos info) := by
  rw [tlvCase, fcpTlv]
  split_ifs <;> rfl

/-- The rounds counted by the fuel are all there are. -/
theorem parseFcpLoop_eq_some_iff (buffer : Mem) (last : ℤ) (info' : FcpInfo) (fuel : ℕ) : ∀ (pos : ℤ) (info : FcpInfo),
    last ≤ pos + fuel →
    (parseFcpLoop buffer last fuel pos info = some info' ↔
      Ends buffer last (.running pos (ofInfo info)) 0 (ofInfo info')) := by
  have hret : (0 : ℤ) ≠ -1 := by decide
  induction fuel with
  | zero =>
    intro pos info h
    rw [parseFcpLoop, ends_of_le (by push_cast at h; omega)]
    exact iff_of_false (by simp) fun h => hret h.1
  | succ fuel ih =>
    intro pos info h
    rw [parseFcpLoop]
    by_cases hlt : pos + 1 < last
    · rw [if_pos hlt, ends_of_lt hlt, tlvCase_ofInfo]
      show (if _ then _ else _) = _ ↔ _
      by_cases hlast : pos + (2 + ((buffer (pos + 1)).toNat : ℤ)) = last
      · rw [if_pos hlast, if_pos hlast, Option.some.injEq, ofInfo_injective.eq_iff, eq_comm]
        exact (and_iff_right rfl).symm
      · rw [if_neg hlast, if_neg hlast]
        exact ih _ _ (by push_cast at h; omega)
    · rw [if_neg hlt, ends_of_le (by omega)]
      exact iff_of_false (by simp) fun h => hret h.1

theorem parseFcpTmpl_eq_some_iff (buffer : Mem) (info info' : FcpInfo) :
    parseFcpTmpl buffer info = some info' ↔ Returns buffer (ofInfo info) 0 (ofInfo info') := by
  rw [parseFcpTmpl, Returns, start]
  by_cases htag : buffer 1 ≠ 0x62
  · rw [if_pos htag, if_pos htag, ends_returned]
    exact iff_of_false (by simp) fun h => absurd h.1 (by decide)
  · rw [if_neg htag, if_neg htag]
    exact parseFcpLoop_eq_some_iff buffer _ info' _ 3 info (by omega)

end Fcp
end Usim
end La12xx
