/-
# The search of EF_DIR

`usim_get_aid` of `usim_apdu.c` reads the records of `EF_DIR` one after the other
into `record_buf` and lays `struct efdir` over the buffer, where a short record
leaves bytes of the ones before and its status word. `getAid_iff` says for which
records the AID it returns is the one of the first application that is a USIM.
-/
import La12xx.Lib.Tlv
import La12xx.Usim.Conformance
import La12xx.Usim.Delivery

namespace La12xx
namespace Usim

open ByteMem Dialogue

/-! ### The function -/

/-- `USIM_FILE_EF_DIR` -/
def efDirFileid : Word := 0x2f00

section Search

variable (S : Sim)

/-- What the answer to a READ RECORD of a wrong length says of the length. -/
def announcedLen (r : Resp) : ℤ := if r.data 0 ≠ 0x6c ∧ r.data 0 ≠ 0x67 then -1 else (r.data 1).toNat

/-- `usim_get_record_len`, which asks for 127 bytes and does not look at the
return value of the transfer. -/
def getRecordLen (i : ℕ) : Card ℤ := do
  let r ← sendReceiveAPDU (readRecordCmd S i 127)
  pure (announcedLen r)

/-- The tests on `struct efdir`, which lies over `record_buf` from byte 1 on. -/
def IsUsimApp (buf : Mem) (rlen : ℤ) : Prop :=
  buf 1 = 0x61 ∧ (buf 2).toNat ≤ rlen - 2 ∧ buf 3 = 0x4f ∧ 1 ≤ (buf 4).toNat ∧ (buf 4).toNat ≤ 16 ∧
    buf 10 = 0x10 ∧ buf 11 = 0x02

instance (buf : Mem) (rlen : ℤ) : Decidable (IsUsimApp buf rlen) :=
  inferInstanceAs (Decidable (_ ∧ _ ∧ _ ∧ _ ∧ _ ∧ _ ∧ _))

/-- What is done with a record in the buffer; `next` are the rounds after this
one. With the return value goes what is written to `aid`. -/
def testRecord (len rlen : ℤ) (buf : Mem) (next : Mem → Card (ℤ × List Byte)) : Card (ℤ × List Byte) :=
  if IsUsimApp buf rlen then
    if len < (buf 4).toNat then pure (-1, [])
    else pure ((buf 4).toNat, bytes buf 5 (buf 4).toNat)
  else next buf

/-- A round of the loop of `usim_get_aid`, with the length of the record. -/
def getAidRound (len : ℤ) (i : ℕ) (rlen : ℤ) (buf : Mem) (next : Mem → Card (ℤ × List Byte)) :
    Card (ℤ × List Byte) := do
  if rlen < 0 then pure (-1, [])
  else if 125 ≤ rlen then pure (-1, [])
  else
    let r ← sendReceiveAPDU (readRecordCmd S i rlen)
    if r.ret < 0 then pure (-1, [])
    else
      let buf := copy buf 0 r.data 0 (rlen + 3).toNat
      if ¬ (buf (rlen + 1) = 0x90 ∧ buf (rlen + 2) = 0x00) then pure (-1, [])
      else testRecord len rlen buf next

/-- The loop of `usim_get_aid` over the records from `i` on, and what follows it. -/
def getAidLoop (len : ℤ) : ℕ → ℕ → Mem → Card (ℤ × List Byte)
  | 0, _, _ => pure (-1, [])
  | left + 1, i, buf => do
    let rlen ← getRecordLen S i
    getAidRound S len i rlen buf fun buf => getAidLoop len left (i + 1) buf

/-- `usim_get_aid` -/
def getAid (len : ℤ) : Card (ℤ × List Byte) := do
  let resp ← sendReceiveAPDU (selectByIdCmd S efDirFileid)
  if resp.ret < 0 then pure (resp.ret, [])
  else if ¬ resp.Accepted then pure (-1, [])
  else getAidLoop S len 9 1 (fun _ => 0)

/-- `usim_select_aid`, with the AID it leaves in the global. -/
def selectAid : Card (ℤ × List Byte) := do
  let found ← getAid S 32
  let aid := if found.1 < 0 then [0xa0, 0x00, 0x00, 0x00, 0x87] else found.2
  let resp ← sendReceiveAPDU ([0x00, 0xa4, 0x04, 0x00, BitVec.ofNat 8 aid.length] ++ aid)
  if resp.ret < 0 then pure (resp.ret, aid)
  else if ¬ resp.Accepted then pure (-1, aid)
  else pure (0, aid)

/-! ### What is written -/

/-- What is written has a length of 16 bytes at most, and no more than `len`. -/
theorem yields_getAidLoop (len : ℤ) (left : ℕ) : ∀ (i : ℕ) (buf : Mem),
    Yields (fun x : ℤ × List Byte => x.2.length ≤ 16 ∧ x.2.length ≤ len.toNat) (getAidLoop S len left i buf) := by
  have hnone : Yields (fun x : ℤ × List Byte => x.2.length ≤ 16 ∧ x.2.length ≤ len.toNat)
      (pure (-1, []) : Card (ℤ × List Byte)) :=
    yields_pure ⟨Nat.zero_le _, Nat.zero_le _⟩
  induction left with
  | zero => exact fun _ _ => hnone
  | succ left ih =>
    intro i buf
    apply yields_query_bind
    intro r
    show Yields _ (if _ then _ else _)
    split
    · exact hnone
    split
    · exact hnone
    apply yields_query_bind
    intro r'
    show Yields _ (if _ then _ else if _ then _ else testRecord _ _ _ _)
    split
    · exact hnone
    split
    · exact hnone
    unfold testRecord
    split
    · next happ =>
      split
      · exact hnone
      · next hlen =>
        refine yields_pure ⟨?_, ?_⟩
        · rw [length_bytes]
          exact happ.2.2.2.2.1
        · rw [length_bytes]
          omega
    · exact ih _ _

theorem yields_getAid (len : ℤ) :
    Yields (fun x : ℤ × List Byte => x.2.length ≤ 16 ∧ x.2.length ≤ len.toNat) (getAid S len) := by
  apply yields_query_bind
  intro resp
  split
  · exact yields_pure ⟨Nat.zero_le _, Nat.zero_le _⟩
  split
  · exact yields_pure ⟨Nat.zero_le _, Nat.zero_le _⟩
  · exact yields_getAidLoop S len 9 1 _

/-- The AID that is left in the global fits into `Sim`. -/
theorem yields_selectAid : Yields (fun x : ℤ × List Byte => x.2.length ≤ 16) (selectAid S) := by
  apply yields_bind (yields_getAid S 32)
  rintro ⟨ret, found⟩ ⟨h16, -⟩
  have haid : (if ret < 0 then [0xa0, 0x00, 0x00, 0x00, 0x87] else found : List Byte).length ≤ 16 := by
    split
    · exact Nat.le_of_ble_eq_true rfl
    · exact h16
  apply yields_query_bind
  intro resp
  split
  · exact yields_pure haid
  split
  · exact yields_pure haid
  · exact yields_pure haid

end Search

/-! ### The applications of the card -/

/-- The value of an application template that is complete in the record. -/
def appTemplate : List Byte → Option (List Byte)
  | tag :: len :: rest => if tag = 0x61 ∧ len.toNat ≤ rest.length then some (rest.take len.toNat) else none
  | _ => none

/-- The application template of the record contains the AID, as the value of a
TLV, and the AID is one of a USIM. -/
structure AidOf (r aid : List Byte) : Prop where
  le_length : 7 ≤ aid.length
  length_le : aid.length ≤ 16
  code_high : aid[5]? = some 0x10
  code_low : aid[6]? = some 0x02
  contained : ∃ (ts : List La12xx.Tlv) (t : La12xx.Tlv) (after : List Byte),
    appTemplate r = some (La12xx.Tlv.encodeAll ts ++ t.encode ++ after) ∧ t.tag = 0x4f ∧ t.value = aid

/-- A READ RECORD of one of the records is accepted only in its length, and gives
its content; how the length is found out is left open. -/
def KeepsRecords (S : Sim) {σ : Type} (card : σ → Apdu → σ × Resp) (records : List (List Byte)) : Prop :=
  ∀ (s : σ) (k len : ℕ), k < 254 → len < 256 →
    let a := card s (readRecordCmd S (k + 1) len)
    0 ≤ a.2.ret → a.2.sw (len + 1) 0x90 0x00 →
      ∃ r, records[k]? = some r ∧ r.length = len ∧ Holds a.2.data 1 r

/-- No more than `len` bytes are written. A positive length is that of the AID
of the first record with one, which is the record that was read last. -/
def AidRight (S : Sim) (records : List (List Byte)) (len : ℤ) {σ : Type}
    (o : Outcome σ Apdu Resp (ℤ × List Byte)) : Prop :=
  ∃ ret aid, o.val = some (ret, aid) ∧ aid.length ≤ len.toNat ∧
    (0 < ret → ret = aid.length ∧ ∃ k r, k < 9 ∧ records[k]? = some r ∧
      o.log.getLast?.map Prod.fst = some (readRecordCmd S (k + 1) r.length) ∧ AidOf r aid ∧
      ∀ j < k, ∀ r', records[j]? = some r' → ∀ aid', ¬ AidOf r' aid')

/-! ### The buffer -/

/-- A record and its status word, over what was there. -/
def overlay (buf : Mem) (r : List Byte) : Mem := put buf 1 (r ++ [0x90, 0x00])

/-- `record_buf` from byte 1 on after the records. -/
def dirBuffer (records : List (List Byte)) : Mem := records.foldl overlay fun _ => 0

/-- The tests succeed on the record at `k`, in the buffer after the records up
to it. -/
def Passes (records : List (List Byte)) (k : ℕ) : Prop :=
  ∃ r, records[k]? = some r ∧ IsUsimApp (dirBuffer (records.take (k + 1))) r.length

/-- When the first record on which the tests succeed is reached, the length byte
of the AID is 7 or more and the AID ends within the template; and no record
before has an AID of a USIM behind another TLV. -/
def DirFits (records : List (List Byte)) : Prop :=
  ∀ k < 9, (∀ r ∈ records.take (k + 1), r.length ≤ 124) → (∀ j < k, ¬ Passes records j) → Passes records k →
    7 ≤ (dirBuffer (records.take (k + 1)) 4).toNat ∧
      (dirBuffer (records.take (k + 1)) 4).toNat + 2 ≤ (dirBuffer (records.take (k + 1)) 2).toNat ∧
      ∀ j < k, ∀ r, records[j]? = some r → ∀ aid, ¬ AidOf r aid

section Buffer

variable {buf buf' : Mem} {r : List Byte} {records : List (List Byte)}

/-- The tests look at bytes of the struct only. -/
theorem isUsimApp_congr (h : ∀ p : ℤ, 1 ≤ p → buf p = buf' p) (rlen : ℤ) :
    IsUsimApp buf rlen ↔ IsUsimApp buf' rlen := by
  unfold IsUsimApp
  rw [h 1 (by decide), h 2 (by decide), h 3 (by decide), h 4 (by decide), h 10 (by decide), h 11 (by decide)]

/-- The buffer after one more record. -/
theorem dirBuffer_take_succ {k : ℕ} (hr : records[k]? = some r) :
    dirBuffer (records.take (k + 1)) = overlay (dirBuffer (records.take k)) r := by
  rw [List.take_add_one, hr, dirBuffer, List.foldl_append]
  rfl

/-- What the transfer of a record leaves in the buffer. -/
theorem copy_record {resp : Mem} (h : Holds resp 1 (r ++ [0x90, 0x00])) (hbuf : ∀ p : ℤ, 1 ≤ p → buf p = buf' p)
    (p : ℤ) (hp : 1 ≤ p) : copy buf 0 resp 0 (r.length + 3) p = overlay buf' r p := by
  have hlen : (r ++ [0x90, 0x00] : List Byte).length = r.length + 2 := by simp
  have hsame : Same resp (overlay buf' r) 1 (r.length + 2) := by
    rw [← bytes_eq_iff, ← hlen]
    exact h.trans (holds_put buf' 1 _).symm
  rw [copy]
  split
  · next hin =>
    push_cast at hin
    rw [sub_zero, add_zero]
    exact hsame p hp (by push_cast; omega)
  · next hout =>
    push_cast at hout
    rw [overlay, put_of_ge (by rw [hlen]; push_cast; omega)]
    exact hbuf p hp

theorem overlay_holds (buf : Mem) (r : List Byte) : Holds (overlay buf r) 1 r :=
  (holds_append.mp (holds_put buf 1 _)).1

/-- A template that begins with the AID. -/
theorem aid_contained {aid rest : List Byte} {tl n : Byte} (hn : n.toNat = aid.length) (htl : aid.length + 2 ≤ tl.toNat)
    (hle : tl.toNat ≤ (aid ++ rest).length + 2) :
    ∃ (ts : List La12xx.Tlv) (t : La12xx.Tlv) (after : List Byte),
      appTemplate (0x61 :: tl :: 0x4f :: n :: (aid ++ rest)) = some (La12xx.Tlv.encodeAll ts ++ t.encode ++ after) ∧
        t.tag = 0x4f ∧ t.value = aid := by
  obtain ⟨m, hm⟩ : ∃ m, tl.toNat = aid.length + m + 1 + 1 := ⟨tl.toNat - 2 - aid.length, by omega⟩
  have hid : BitVec.ofNat 8 aid.length = n := by rw [← hn, BitVec.ofNat_toNat, BitVec.setWidth_eq]
  have htake : (aid ++ rest).take (aid.length + m) = aid ++ rest.take m := List.take_length_add_append m
  refine ⟨[], ⟨0x4f, aid, hn ▸ n.isLt⟩, rest.take m, ?_, rfl, rfl⟩
  rw [appTemplate, if_pos ⟨rfl, hle⟩, hm, List.take_succ_cons, List.take_succ_cons, htake, La12xx.Tlv.encode, hid]
  rfl

/-- Where the tests succeed and the AID ends within the template, it is one of
the record. -/
theorem aidOf_bytes (hr : Holds buf 1 r) (happ : IsUsimApp buf r.length) (h7 : 7 ≤ (buf 4).toNat)
    (hend : (buf 4).toNat + 2 ≤ (buf 2).toNat) : AidOf r (bytes buf 5 (buf 4).toNat) := by
  obtain ⟨htag, htl, haidTag, -, h16, h10, h11⟩ := happ
  obtain ⟨n, hn⟩ : ∃ n, r.length = 4 + ((buf 4).toNat + n) := ⟨r.length - 4 - (buf 4).toNat, by omega⟩
  have hrec : r = 0x61 :: buf 2 :: 0x4f :: buf 4 :: (bytes buf 5 (buf 4).toNat ++ bytes buf (5 + (buf 4).toNat) n) := by
    have hsplit : bytes buf 1 r.length = bytes buf 1 4 ++ bytes buf 5 ((buf 4).toNat + n) := by
      rw [hn, bytes_add]
      rfl
    rw [← hr, hsplit, bytes_add, ← htag, ← haidTag]
    rfl
  have hlen : (bytes buf 5 (buf 4).toNat).length = (buf 4).toNat := length_bytes _ _ _
  have hget : ∀ i < (buf 4).toNat, (bytes buf 5 (buf 4).toNat)[i]? = some (buf (5 + i)) := by
    intro i hi
    have hheld : Holds buf 5 (bytes buf 5 (buf 4).toNat) := by rw [Holds, hlen]
    rw [hheld.getD_eq (by rwa [hlen]), List.getElem?_eq_getElem (by rwa [hlen]), List.getD_eq_getElem _ _ (by rwa [hlen])]
  refine ⟨by rwa [hlen], by rwa [hlen], (hget 5 (by omega)).trans (congrArg some h10),
    (hget 6 (by omega)).trans (congrArg some h11), ?_⟩
  rw [hrec]
  refine aid_contained hlen.symm (by omega) ?_
  rw [List.length_append, hlen, length_bytes]
  omega

/-- An AID of the record ends within the length of the template. -/
theorem AidOf.length_add_le {aid : List Byte} (h : AidOf r aid) (hr : Holds buf 1 r) :
    aid.length + 2 ≤ (buf 2).toNat := by
  obtain ⟨ts, t, after, htemplate, -, rfl⟩ := h.contained
  obtain _ | ⟨tag, _ | ⟨len, rest⟩⟩ := r
  · exact absurd htemplate (by simp [appTemplate])
  · exact absurd htemplate (by simp [appTemplate])
  rw [appTemplate, Option.ite_none_right_eq_some, Option.some.injEq] at htemplate
  have hlen := congrArg List.length htemplate.2
  rw [List.length_take_of_le htemplate.1.2, List.length_append, List.length_append, La12xx.Tlv.length_encode] at hlen
  have h2 : buf 2 = len := (holds_cons.mp (holds_cons.mp hr).2).1
  rw [h2]
  omega

end Buffer

/-! ### Rounds -/

section Rounds

variable {S : Sim} {records : List (List Byte)} {len : ℤ} {σ : Type} {card : σ → Apdu → σ × Resp}

/-- The record is read in the length. -/
def RecordRead (rlen : ℤ) (r : Resp) : Prop := 0 ≤ rlen ∧ rlen < 125 ∧ 0 ≤ r.ret ∧ r.sw (rlen + 1) 0x90 0x00

/-- The status word of a record in the buffer. -/
theorem copy_status (buf resp : Mem) {rlen : ℤ} (h : 0 ≤ rlen) :
    copy buf 0 resp 0 (rlen + 3).toNat (rlen + 1) = resp (rlen + 1) ∧
      copy buf 0 resp 0 (rlen + 3).toNat (rlen + 2) = resp (rlen + 1 + 1) := by
  rw [copy, copy, if_pos (by omega), if_pos (by omega), sub_zero, add_zero, sub_zero, add_zero, add_assoc]
  exact ⟨rfl, rfl⟩

/-- A round with a record that is read. -/
theorem run_getAidRound {rlen : ℤ} {i : ℕ} {s : σ} (h : RecordRead rlen (card s (readRecordCmd S i rlen)).2) (buf : Mem)
    (next : Mem → Card (ℤ × List Byte)) :
    let a := card s (readRecordCmd S i rlen)
    let o := run card (testRecord len rlen (copy buf 0 a.2.data 0 (rlen + 3).toNat) next) a.1
    run card (getAidRound S len i rlen buf next) s = ⟨o.state, (readRecordCmd S i rlen, a.2) :: o.log, o.val⟩ := by
  obtain ⟨h0, h125, hret, hsw⟩ := h
  obtain ⟨hsw1, hsw2⟩ := copy_status buf (card s (readRecordCmd S i rlen)).2.data h0
  simp only [getAidRound, if_neg (not_lt.mpr h0), if_neg (not_le.mpr h125), sendReceiveAPDU, run_query_bind,
    if_neg (not_lt.mpr hret), hsw1, hsw2, hsw.1, hsw.2, and_self, not_true, if_false]

theorem run_getAidLoop_succ (left i : ℕ) (buf : Mem) (s : σ) :
    run card (getAidLoop S len (left + 1) i buf) s =
      let a := card s (readRecordCmd S i 127)
      let o := run card
        (getAidRound S len i (announcedLen a.2) buf fun buf => getAidLoop S len left (i + 1) buf) a.1
      ⟨o.state, (readRecordCmd S i 127, a.2) :: o.log, o.val⟩ := rfl

/-- A round with a record that is not read is the last. -/
theorem val_getAidRound_of_not {rlen : ℤ} {i : ℕ} {s : σ} (h : ¬ RecordRead rlen (card s (readRecordCmd S i rlen)).2)
    (buf : Mem) (next : Mem → Card (ℤ × List Byte)) :
    (run card (getAidRound S len i rlen buf next) s).val = some (-1, []) := by
  rw [getAidRound]
  split
  · rfl
  split
  · rfl
  next h0 h125 =>
  obtain ⟨hsw1, hsw2⟩ := copy_status buf (card s (readRecordCmd S i rlen)).2.data (not_lt.mp h0)
  simp only [sendReceiveAPDU, run_query_bind, hsw1, hsw2]
  split
  · rfl
  split
  · rfl
  · next hret hsw => exact absurd ⟨not_lt.mp h0, not_le.mp h125, not_lt.mp hret, not_not.mp hsw⟩ h

/-- A record that is read is one of the card, and is in the buffer then. -/
theorem KeepsRecords.read (hkeeps : KeepsRecords S card records) {k : ℕ} (hk : k < 254) {rlen : ℤ} {s : σ}
    (h : RecordRead rlen (card s (readRecordCmd S (k + 1) rlen)).2) {buf : Mem}
    (hbuf : ∀ p : ℤ, 1 ≤ p → buf p = dirBuffer (records.take k) p) :
    ∃ r, records[k]? = some r ∧ rlen = r.length ∧ ∀ p : ℤ, 1 ≤ p →
      copy buf 0 (card s (readRecordCmd S (k + 1) rlen)).2.data 0 (rlen + 3).toNat p =
        dirBuffer (records.take (k + 1)) p := by
  obtain ⟨h0, h125, hret, hsw⟩ := h
  obtain ⟨n, rfl⟩ := Int.eq_ofNat_of_zero_le h0
  obtain ⟨r, hr, rfl, hdata⟩ := hkeeps s k n hk (by omega) hret hsw
  have hheld : Holds (card s (readRecordCmd S (k + 1) r.length)).2.data 1 (r ++ [0x90, 0x00]) := by
    rw [holds_append, holds_cons, holds_cons, add_comm (1 : ℤ)]
    exact ⟨hdata, hsw.1, hsw.2, holds_nil _ _⟩
  refine ⟨r, hr, rfl, ?_⟩
  rw [dirBuffer_take_succ hr]
  exact copy_record hheld hbuf

theorem passes_iff {k : ℕ} {r : List Byte} (hr : records[k]? = some r) :
    Passes records k ↔ IsUsimApp (dirBuffer (records.take (k + 1))) r.length := by
  rw [Passes, hr]
  exact ⟨fun ⟨_, h, happ⟩ => Option.some.inj h ▸ happ, fun happ => ⟨r, rfl, happ⟩⟩

theorem short_take_succ {k : ℕ} {r : List Byte} (hr : records[k]? = some r) (hlen : r.length ≤ 124)
    (hshort : ∀ r ∈ records.take k, r.length ≤ 124) : ∀ r ∈ records.take (k + 1), r.length ≤ 124 := by
  rw [List.take_add_one, hr]
  intro r' hr'
  rcases List.mem_append.mp hr' with hr' | hr'
  · exact hshort r' hr'
  · rwa [List.mem_singleton.mp hr']

theorem getLast?_map_cons {α β : Type} {f : α → β} {l : List α} {b : β} (h : l.getLast?.map f = some b) (a : α) :
    (a :: l).getLast?.map f = some b := by
  obtain ⟨x, hx, -⟩ := Option.map_eq_some_iff.mp h
  rwa [List.getLast?_cons_of_ne_nil fun hnil => by simp [hnil] at hx]

/-- An exchange before the others. -/
theorem AidRight.cons {o : Outcome σ Apdu Resp (ℤ × List Byte)} (h : AidRight S records len o) (e : Apdu × Resp) :
    AidRight S records len ⟨o.state, e :: o.log, o.val⟩ := by
  obtain ⟨ret, aid, hval, hlen, hpos⟩ := h
  refine ⟨ret, aid, hval, hlen, fun h0 => ?_⟩
  obtain ⟨hret, k, r, hk, hr, hlast, hrest⟩ := hpos h0
  exact ⟨hret, k, r, hk, hr, getLast?_map_cons hlast e, hrest⟩

theorem aidRight_of_failed {o : Outcome σ Apdu Resp (ℤ × List Byte)} {ret : ℤ} (h : o.val = some (ret, []))
    (hret : ret < 0) : AidRight S records len o :=
  ⟨ret, [], h, Nat.zero_le _, fun h0 => absurd h0 hret.le.not_gt⟩

/-- A round after records on which the tests failed, when the rounds after it
are right. -/
theorem getAidRound_right (hfits : DirFits records) (hkeeps : KeepsRecords S card records) {k : ℕ} (hk : k < 9)
    {buf : Mem} (hbuf : ∀ p : ℤ, 1 ≤ p → buf p = dirBuffer (records.take k) p)
    (hshort : ∀ r ∈ records.take k, r.length ≤ 124) (hfail : ∀ j < k, ¬ Passes records j) (rlen : ℤ) (s : σ)
    {next : Mem → Card (ℤ × List Byte)}
    (hnext : ∀ (buf' : Mem) (t : σ), (∀ p : ℤ, 1 ≤ p → buf' p = dirBuffer (records.take (k + 1)) p) →
      (∀ r ∈ records.take (k + 1), r.length ≤ 124) → (∀ j < k + 1, ¬ Passes records j) →
      AidRight S records len (run card (next buf') t)) :
    AidRight S records len (run card (getAidRound S len (k + 1) rlen buf next) s) := by
  by_cases hread : RecordRead rlen (card s (readRecordCmd S (k + 1) rlen)).2
  swap
  · exact aidRight_of_failed (val_getAidRound_of_not hread buf next) (by decide)
  rw [run_getAidRound hread buf next]
  obtain ⟨r, hr, hrlen, hbuf'⟩ := hkeeps.read (by omega) hread hbuf
  have h125 := hread.2.1
  have hshort' := short_take_succ hr (by omega) hshort
  generalize card s (readRecordCmd S (k + 1) rlen) = a at hbuf'
  generalize copy buf 0 a.2.data 0 (rlen + 3).toNat = buf' at hbuf'
  subst hrlen
  have hpasses : Passes records k ↔ IsUsimApp buf' r.length :=
    (passes_iff hr).trans (isUsimApp_congr (fun p hp => (hbuf' p hp).symm) _)
  by_cases happ : IsUsimApp buf' r.length
  · by_cases hle : len < (buf' 4).toNat
    · refine (aidRight_of_failed ?_ (show (-1 : ℤ) < 0 by decide)).cons _
      rw [testRecord, if_pos happ, if_pos hle]
      rfl
    · obtain ⟨h7, hend, hfirst⟩ := hfits k hk hshort' hfail (hpasses.mpr happ)
      rw [← hbuf' 4 (by decide)] at h7 hend
      rw [← hbuf' 2 (by decide)] at hend
      have hrec : Holds buf' 1 r := by
        rw [dirBuffer_take_succ hr] at hbuf'
        exact (bytes_eq_iff.mpr fun p hp _ => hbuf' p hp).trans (overlay_holds _ r)
      have hlen : (bytes buf' 5 (buf' 4).toNat).length = (buf' 4).toNat := length_bytes _ _ _
      rw [testRecord, if_pos happ, if_neg hle]
      exact ⟨_, _, rfl, by omega, fun _ => ⟨by rw [hlen], k, r, hk, hr, rfl, aidOf_bytes hrec happ h7 hend, hfirst⟩⟩
  · rw [testRecord, if_neg happ]
    refine (hnext buf' a.1 hbuf' hshort' fun j hj => ?_).cons _
    rcases Nat.lt_succ_iff_lt_or_eq.mp hj with hj | rfl
    · exact hfail j hj
    · exact fun h => happ (hpasses.mp h)

/-- The loop from the record at `k` on, when the tests failed before. -/
theorem getAidLoop_right (hfits : DirFits records) (hkeeps : KeepsRecords S card records) (left : ℕ) :
    ∀ (k : ℕ) (buf : Mem) (s : σ), left + k = 9 → (∀ p : ℤ, 1 ≤ p → buf p = dirBuffer (records.take k) p) →
      (∀ r ∈ records.take k, r.length ≤ 124) → (∀ j < k, ¬ Passes records j) →
      AidRight S records len (run card (getAidLoop S len left (k + 1) buf) s) := by
  induction left with
  | zero => exact fun k buf s _ _ _ _ => aidRight_of_failed rfl (by decide)
  | succ left ih =>
    intro k buf s hk hbuf hshort hfail
    have hround := getAidRound_right hfits hkeeps (by omega) hbuf hshort hfail
      (announcedLen (card s (readRecordCmd S (k + 1) 127)).2) (card s (readRecordCmd S (k + 1) 127)).1
      fun buf' t => ih (k + 1) buf' t (by omega)
    exact hround.cons _

theorem getAid_right (hfits : DirFits records) (hkeeps : KeepsRecords S card records) (s : σ) :
    AidRight S records len (run card (getAid S len) s) := by
  rw [getAid, sendReceiveAPDU, run_query_bind]
  apply AidRight.cons
  split
  · exact aidRight_of_failed rfl ‹_›
  split
  · exact aidRight_of_failed rfl (by decide)
  · exact getAidLoop_right hfits hkeeps 9 0 _ _ rfl (fun _ _ => rfl) (by simp) fun j hj => absurd hj (Nat.not_lt_zero j)

end Rounds

/-! ### A card with the records -/

/-- A card that keeps the records. It answers the query with the length of the
record, and other wrong lengths with an error. -/
def dirCard (records : List (List Byte)) (s : Unit) (q : Apdu) : Unit × Resp :=
  if q.getD 1 0 = 0xa4 then (s, statusResp 0x90 0x00)
  else
    match records[(q.getD 2 0).toNat - 1]? with
    | none => (s, statusResp 0x6a 0x83)
    | some r =>
      if r.length = (q.getD 4 0).toNat then (s, ⟨0, ofList ([0xb2] ++ r ++ [0x90, 0x00])⟩)
      else if q.getD 4 0 = 127 then (s, ⟨0, ofList [0x6c, BitVec.ofNat 8 r.length]⟩)
      else (s, statusResp 0x67 0x00)

section DirCard

variable {S : Sim} {records : List (List Byte)} {k : ℕ}

theorem dirCard_readRecord {r : List Byte} (hr : records[k]? = some r) (hk : k < 254) {len : ℕ} (hlen : len < 256) :
    dirCard records () (readRecordCmd S (k + 1) len) =
      if r.length = len then ((), ⟨0, ofList ([0xb2] ++ r ++ [0x90, 0x00])⟩)
      else if len = 127 then ((), ⟨0, ofList [0x6c, BitVec.ofNat 8 r.length]⟩)
      else ((), statusResp 0x67 0x00) := by
  have hid : (BitVec.ofNat 8 (k + 1)).toNat - 1 = k := by
    rw [BitVec.toNat_ofNat]
    omega
  have hle : (BitVec.ofInt 8 (len : ℤ)).toNat = len := by
    rw [BitVec.ofInt_natCast, BitVec.toNat_ofNat]
    exact Nat.mod_eq_of_lt hlen
  have h127 : BitVec.ofInt 8 (len : ℤ) = 127 ↔ len = 127 := by
    rw [← BitVec.toNat_inj, hle]
    rfl
  show (match records[(BitVec.ofNat 8 (k + 1)).toNat - 1]? with
    | none => ((), statusResp 0x6a 0x83)
    | some r =>
      if r.length = (BitVec.ofInt 8 (len : ℤ)).toNat then ((), ⟨0, ofList ([0xb2] ++ r ++ [0x90, 0x00])⟩)
      else if BitVec.ofInt 8 (len : ℤ) = 127 then ((), ⟨0, ofList [0x6c, BitVec.ofNat 8 r.length]⟩)
      else ((), statusResp 0x67 0x00)) = _
  simp only [hid, hr, hle, h127]

/-- A status word that is not there. -/
theorem ofList_ne {l : List Byte} {b : Byte} (h0 : b ≠ 0) (hb : b ∉ l) (p : ℤ) : ofList l p ≠ b := by
  rw [ofList]
  split
  · intro h
    rw [List.getD_eq_getElem?_getD] at h
    cases hget : l[p.toNat]? with
    | none =>
      rw [hget, Option.getD_none] at h
      exact h0 h.symm
    | some x =>
      rw [hget, Option.getD_some] at h
      exact hb (h ▸ List.mem_of_getElem? hget)
  · exact h0.symm

theorem statusResp_ne {sw1 sw2 : Byte} (h1 : sw1 ≠ 0x90) (h2 : sw2 ≠ 0x90) (p : ℤ) :
    (statusResp sw1 sw2).data p ≠ 0x90 := by
  refine ofList_ne (by decide) ?_ p
  rw [List.mem_cons, List.mem_pair]
  rintro (h | h | h)
  · exact absurd h (by decide)
  · exact h1 h.symm
  · exact h2 h.symm

theorem dirCard_noRecord (hr : records[k]? = none) (hk : k < 254) (len : ℤ) :
    dirCard records () (readRecordCmd S (k + 1) len) = ((), statusResp 0x6a 0x83) := by
  have hid : (BitVec.ofNat 8 (k + 1)).toNat - 1 = k := by
    rw [BitVec.toNat_ofNat]
    omega
  show (match records[(BitVec.ofNat 8 (k + 1)).toNat - 1]? with | none => _ | some r => _) = _
  simp only [hid, hr]

/-- What the card gives of a record. -/
theorem holds_readRecord (r : List Byte) : Holds (ofList ([0xb2] ++ r ++ [0x90, 0x00])) 1 r ∧
    (⟨0, ofList ([0xb2] ++ r ++ [0x90, 0x00])⟩ : Resp).sw (r.length + 1) 0x90 0x00 := by
  have hheld := holds_ofList ([0xb2] ++ r ++ [0x90, 0x00])
  simp only [holds_append, holds_cons, List.length_append, List.length_singleton] at hheld
  obtain ⟨⟨-, hdata⟩, h90, h00, -⟩ := hheld
  push_cast at h90 h00
  rw [zero_add, add_comm (1 : ℤ)] at h90 h00
  exact ⟨hdata, h90, h00⟩

theorem dirCard_keepsRecords : KeepsRecords S (dirCard records) records := by
  intro s k len hk hlen a hret hsw
  obtain ⟨hsw, -⟩ := hsw
  cases hr : records[k]? with
  | none =>
    have ha : a = _ := dirCard_noRecord hr hk len
    rw [ha] at hsw
    exact absurd hsw (statusResp_ne (by decide) (by decide) _)
  | some r =>
    have ha : a = _ := dirCard_readRecord hr hk hlen
    by_cases h : r.length = len
    · rw [if_pos h] at ha
      rw [ha]
      exact ⟨r, rfl, h, (holds_readRecord r).1⟩
    rw [if_neg h] at ha
    by_cases h127 : len = 127
    · subst h127
      rw [if_pos rfl] at ha
      rw [ha] at hsw
      exact absurd (show (0 : Byte) = 0x90 from hsw) (by decide)
    · rw [if_neg h127] at ha
      rw [ha] at hsw
      exact absurd hsw (statusResp_ne (by decide) (by decide) _)

theorem announcedLen_dirCard {r : List Byte} (hr : records[k]? = some r) (hk : k < 254) (hlen : r.length ≤ 124) :
    announcedLen (dirCard records () (readRecordCmd S (k + 1) 127)).2 = r.length := by
  have ha := dirCard_readRecord (S := S) hr hk (show 127 < 256 by decide)
  rw [if_neg (by omega), if_pos rfl] at ha
  rw [show (127 : ℤ) = (127 : ℕ) from rfl, ha]
  have h1 : ofList [0x6c, BitVec.ofNat 8 r.length] 1 = BitVec.ofNat 8 r.length := rfl
  show (if _ then (-1 : ℤ) else ((ofList [0x6c, BitVec.ofNat 8 r.length] 1).toNat : ℤ)) = _
  rw [if_neg (fun h => h.1 rfl), h1, BitVec.toNat_ofNat]
  omega

theorem recordRead_dirCard {r : List Byte} (hr : records[k]? = some r) (hk : k < 254) (hlen : r.length ≤ 124) :
    RecordRead r.length (dirCard records () (readRecordCmd S (k + 1) r.length)).2 := by
  rw [dirCard_readRecord hr hk (by omega), if_pos rfl]
  exact ⟨by omega, by omega, le_rfl, (holds_readRecord r).2⟩

/-- A round with the card. -/
theorem run_round_dirCard {r : List Byte} (hr : records[k]? = some r) (hk : k < 254) (hlen : r.length ≤ 124) {buf : Mem}
    (hbuf : ∀ p : ℤ, 1 ≤ p → buf p = dirBuffer (records.take k) p) (len : ℤ) (left : ℕ) :
    ∃ buf', (∀ p : ℤ, 1 ≤ p → buf' p = dirBuffer (records.take (k + 1)) p) ∧
      let o := run (dirCard records) (testRecord len r.length buf' fun buf => getAidLoop S len left (k + 1 + 1) buf) ()
      ∃ e resp, run (dirCard records) (getAidLoop S len (left + 1) (k + 1) buf) () =
        ⟨o.state, e :: (readRecordCmd S (k + 1) r.length, resp) :: o.log, o.val⟩ := by
  have hread := recordRead_dirCard (S := S) hr hk hlen
  obtain ⟨r', hr', -, hbuf'⟩ := dirCard_keepsRecords.read hk hread hbuf
  refine ⟨_, hbuf', (readRecordCmd S (k + 1) 127, (dirCard records () (readRecordCmd S (k + 1) 127)).2),
    (dirCard records () (readRecordCmd S (k + 1) r.length)).2, ?_⟩
  rw [run_getAidLoop_succ]
  dsimp only
  rw [announcedLen_dirCard hr hk hlen, run_getAidRound hread]

/-- The loop gets to the first record on which the tests succeed. -/
theorem run_getAidLoop_dirCard {r : List Byte} (hr : records[k]? = some r) (hk : k < 254)
    (hshort : ∀ r ∈ records.take (k + 1), r.length ≤ 124) (hfail : ∀ j < k, ¬ Passes records j)
    (happ : Passes records k) (d : ℕ) : ∀ (j left : ℕ) (buf : Mem), j + d = k → d < left →
    (∀ p : ℤ, 1 ≤ p → buf p = dirBuffer (records.take j) p) →
    let o := run (dirCard records) (getAidLoop S 16 left (j + 1) buf) ()
    ∃ aid, o.val = some (((dirBuffer (records.take (k + 1)) 4).toNat : ℤ), aid) ∧
      o.log.getLast?.map Prod.fst = some (readRecordCmd S (k + 1) r.length) := by
  have hlen : ∀ (j : ℕ) {r' : List Byte}, records[j]? = some r' → j ≤ k → r'.length ≤ 124 := fun j r' hr' hj =>
    hshort r' (List.mem_of_getElem? ((List.getElem?_take_of_lt (Nat.lt_succ_of_le hj)).trans hr'))
  induction d with
  | zero =>
    intro j left buf hj hleft hbuf
    obtain rfl : j = k := hj
    obtain ⟨left, rfl⟩ := Nat.exists_eq_succ_of_ne_zero hleft.ne'
    obtain ⟨buf', hbuf', e, resp, hrun⟩ := run_round_dirCard (S := S) hr hk (hlen j hr le_rfl) hbuf 16 left
    have hhere : IsUsimApp buf' r.length := (isUsimApp_congr hbuf' _).mpr ((passes_iff hr).mp happ)
    have h16 := hhere.2.2.2.2.1
    rw [hrun, testRecord, if_pos hhere, if_neg (by omega), hbuf' 4 (by decide)]
    exact ⟨_, rfl, rfl⟩
  | succ d ih =>
    intro j left buf hj hleft hbuf
    obtain ⟨left, rfl⟩ := Nat.exists_eq_succ_of_ne_zero (Nat.ne_of_gt (Nat.zero_lt_of_lt hleft))
    have hjlt : j < records.length := by
      have := (List.getElem?_eq_some_iff.mp hr).1
      omega
    have hrj := List.getElem?_eq_getElem hjlt
    obtain ⟨buf', hbuf', e, resp, hrun⟩ :=
      run_round_dirCard (S := S) hrj (by omega) (hlen j hrj (by omega)) hbuf 16 left
    have hnot : ¬ IsUsimApp buf' records[j].length := fun h =>
      hfail j (by omega) ((passes_iff hrj).mpr ((isUsimApp_congr hbuf' _).mp h))
    obtain ⟨aid, hval, hlast⟩ := ih (j + 1) left buf' (by omega) (by omega) hbuf'
    rw [hrun, testRecord, if_neg hnot]
    exact ⟨aid, hval, getLast?_map_cons (getLast?_map_cons hlast _) _⟩

theorem run_getAid_dirCard (len : ℤ) :
    run (dirCard records) (getAid S len) () =
      let o := run (dirCard records) (getAidLoop S len 9 1 fun _ => 0) ()
      ⟨o.state, (selectByIdCmd S efDirFileid, statusResp 0x90 0x00) :: o.log, o.val⟩ := rfl

end DirCard

/-- **The search of EF_DIR.** For any records, every card that keeps them, however
it answers the queries for their lengths, gets the AID of the first record with
one exactly when, at the first record on which the tests succeed, the AID has
a length of 7 bytes or more within the template, and no record before has an AID
behind another TLV. -/
theorem getAid_iff (records : List (List Byte)) :
    (∀ (S : Sim) (len : ℤ) {σ : Type} (card : σ → Apdu → σ × Resp) (s : σ), KeepsRecords S card records →
      AidRight S records len (run card (getAid S len) s)) ↔ DirFits records := by
  constructor
  · intro h k hk hshort hfail happ
    obtain ⟨r, hr, happ'⟩ := happ
    obtain ⟨aid, hval, hlast⟩ := run_getAidLoop_dirCard (S := fiveByteAid) hr (by omega) hshort hfail ⟨r, hr, happ'⟩
      k 0 9 (fun _ => 0) (zero_add k) hk fun _ _ => rfl
    obtain ⟨ret, aid', hval', -, hpos⟩ := h fiveByteAid 16 (dirCard records) () dirCard_keepsRecords
    rw [run_getAid_dirCard] at hval' hpos
    obtain ⟨rfl, rfl⟩ := Prod.mk.inj (Option.some.inj (hval.symm.trans hval'))
    have h1 := happ'.2.2.2.1
    obtain ⟨hret, k', r', hk', hr', hlast', haid, hfirst⟩ := hpos (by omega)
    obtain rfl : k' = k := by
      have hcmd := (getLast?_map_cons hlast _).symm.trans hlast'
      have hid : BitVec.ofNat 8 (k + 1) = BitVec.ofNat 8 (k' + 1) := by
        rw [Option.some.injEq, readRecordCmd, readRecordCmd] at hcmd
        injection hcmd with _ hcmd
        injection hcmd with _ hcmd
        injection hcmd
      have hnum := congrArg BitVec.toNat hid
      rw [BitVec.toNat_ofNat, BitVec.toNat_ofNat] at hnum
      omega
    obtain rfl : r' = r := Option.some.inj (hr'.symm.trans hr)
    have hend := haid.length_add_le (overlay_holds (dirBuffer (records.take k')) r')
    rw [← dirBuffer_take_succ hr] at hend
    have h7 := haid.le_length
    exact ⟨by omega, by omega, hfirst⟩
  · intro hfits S len σ card s hkeeps
    exact getAid_right hfits hkeeps s

/-- A short record behind a longer one: the AID that is returned consists of three
bytes of the record, its status word and bytes of the record before. -/
theorem stale_bytes_returned :
    let first : List Byte := [0x00, 0x00, 0x4f, 0x10, 0xa0, 0x00, 0x00, 0x00, 0x87, 0x10, 0x02, 0xff, 0x49, 0xff, 0xff,
      0x89, 0x03, 0x02, 0x00, 0x00]
    let second : List Byte := [0x61, 0x05, 0x4f, 0x10, 0xa0, 0x00, 0x00]
    let o := run (dirCard [first, second]) (getAid fiveByteAid 16) ()
    KeepsRecords fiveByteAid (dirCard [first, second]) [first, second] ∧
      o.val = some (16, [0xa0, 0x00, 0x00, 0x90, 0x00, 0x10, 0x02, 0xff, 0x49, 0xff, 0xff, 0x89, 0x03, 0x02, 0x00, 0x00]) ∧
      ¬ AidRight fiveByteAid [first, second] 16 o := by
  intro first second o
  have hval : o.val = some (16, [0xa0, 0x00, 0x00, 0x90, 0x00, 0x10, 0x02, 0xff, 0x49, 0xff, 0xff, 0x89, 0x03, 0x02,
      0x00, 0x00]) := by decide +kernel
  refine ⟨dirCard_keepsRecords, hval, ?_⟩
  rintro ⟨ret, aid, hval', -, hpos⟩
  obtain ⟨rfl, rfl⟩ := Prod.mk.inj (Option.some.inj (hval.symm.trans hval'))
  obtain ⟨-, k, r, -, hr, -, haid, -⟩ := hpos (by decide)
  have hend := haid.length_add_le (overlay_holds (fun _ => 0) r)
  rcases List.mem_pair.mp (List.mem_of_getElem? hr) with rfl | rfl
  · exact absurd hend (by decide)
  · exact absurd hend (by decide)

end Usim
end La12xx
