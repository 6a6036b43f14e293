/-
# The buffers of the reading functions

The functions of `usim_lib.c` that hand a buffer of their own to one of the two
readers. The readers store as many bytes as the file has, and nobody tells them how
long the buffer is; some functions look at the length afterwards. Each decodes the
bytes that were delivered (`Decoders`).

`caller_buffers_iff` says for every function and every card when the buffer is not
overrun and only delivered bytes are decoded.
-/
import La12xx.Usim.Decoders
import La12xx.Usim.EfRead

namespace La12xx
namespace Usim

open ByteMem Dialogue

namespace Bounds

/-! ### The functions -/

/-- What a reading function ends with: its return value, the number of bytes that were
stored into its buffer, and what it has decoded, if it came to that. Decoding is
`none` when it reads bytes that the card has not delivered. -/
structure Decoded (α : Type) where
  ret : ℤ
  stored : ℕ
  data : Option (Option α)

/-- The bytes that were delivered. -/
def Read.delivered (out : Read) : Arr := .ofBytes (bytes out.buf 0 out.stored)

/-- A function that decodes what is read. -/
def decodeAll {α : Type} (decode : Arr → Option α) (out : Read) : Decoded α :=
  if out.ret < 0 then ⟨out.ret, out.stored, none⟩ else ⟨0, out.stored, some (decode out.delivered)⟩

/-- A function that compares the length with the size of its buffer first, and returns
`tooLong` if the buffer is too small. -/
def decodeChecked {α : Type} (size tooLong : ℤ) (decode : Arr → Option α) (out : Read) : Decoded α :=
  if out.ret < 0 then ⟨out.ret, out.stored, none⟩
  else if size < out.len then ⟨tooLong, out.stored, none⟩
  else ⟨0, out.stored, some (decode out.delivered)⟩

/-- `malloc` gives the memory. A negative length is a `size_t` that no memory has. -/
def Allocated (E : Env) (size : ℤ) : Prop := 0 ≤ size ∧ E.malloc size

instance (E : Env) (size : ℤ) : Decidable (Allocated E size) := inferInstanceAs (Decidable (_ ∧ _))

def imsiFileid : Word := 0x6f07
def opPlmnFileid : Word := 0x4f08
def plmnNnFileid : Word := 0x6fc5
def accFileid : Word := 0x6f78
def adminFileid : Word := 0x6fad
def ustFileid : Word := 0x6f38

section Functions

variable (S : Sim) (E : Env) (debug : BitVec 32)

/-- `vtq_usim_read_rid` -/
def readRid : Card (Decoded Word) := do
  let out ← readTransparent S E debug ridFileid 2 E.heap dir5gs
  pure (decodeAll decodeRid out)

/-- `vtq_usim_read_imsi` -/
def readImsi : Card (Decoded Imsi) := do
  let out ← readTransparent S E debug imsiFileid 9 E.heap 0
  pure (decodeAll decodeImsi out)

/-- The functions that count the entries of a list. -/
def readPlmnList (list : PlmnList) : Card (Decoded (List PlmnEntry)) := do
  let out ← readTransparent S E debug list.fileid 0 E.heap 0
  pure (decodeAll (decodePlmnList list.withAct out.len) out)

/-- `vtq_usim_read_op_plmn` -/
def readOpPlmn : Card (Decoded OpPlmn) := do
  let out ← readLinearfixed S E debug opPlmnFileid 10 E.heap dir5gs
  pure (decodeAll decodeOpPlmn out)

/-- `vtq_usim_read_plmn_nn` -/
def readPlmnNn (c : PlmnNn) (plmnNnLen : ℤ) : Card (Decoded PlmnNn) :=
  if ¬ Allocated E plmnNnLen then pure ⟨-1, 0, none⟩
  else do
    let out ← readLinearfixed S E debug plmnNnFileid 0 E.heap 0
    pure (decodeChecked plmnNnLen (-1) (decodePlmnNn · c) out)

/-- `vtq_usim_read_uac` -/
def readUac : Card (Decoded (List Byte)) := do
  let out ← readTransparent S E debug uacFileid 4 E.heap dir5gs
  pure (decodeAll (Arr.slice · 0 4) out)

/-- `vtq_usim_read_acc` -/
def readAcc : Card (Decoded (List Byte)) := do
  let out ← readTransparent S E debug accFileid 2 E.heap 0
  pure (decodeAll (Arr.slice · 0 2) out)

/-- `vtq_usim_read_5gs_loc_info` -/
def read5gsLocInfo : Card (Decoded LocInfo) := do
  let out ← readTransparent S E debug locationInfoFileid 20 E.heap dir5gs
  pure (decodeAll decode5gsLocInfo out)

/-- `vtq_usim_read_nas_sec_ctx` -/
def readNasSecCtx (ctx : NasSecurityCtx) (nasSecCtxLen : ℤ) : Card (Decoded NasSecurityCtx) :=
  if ¬ Allocated E nasSecCtxLen then pure ⟨-1, 0, none⟩
  else do
    let out ← readLinearfixed S E debug nasSecCtxFileid 0 E.heap dir5gs
    pure (decodeChecked nasSecCtxLen (-1) (decodeNasSecCtx · ctx) out)

/-- `vtq_usim_read_admin_data` -/
def readAdminData : Card (Decoded AdminData) := do
  let out ← readTransparent S E debug adminFileid 4 E.heap 0
  pure (decodeAll decodeAdminData out)

/-- `vtq_usim_read_nas_auth_keys` -/
def readNasAuthKeys (keys : NasAuthKeys) (authKeyLen : ℤ) : Card (Decoded NasAuthKeys) :=
  if ¬ Allocated E authKeyLen then pure ⟨-1, 0, none⟩
  else do
    let out ← readTransparent S E debug nasAuthKeysFileid 0 E.heap dir5gs
    pure (decodeChecked authKeyLen (-1) (decodeNasAuthKeys · keys) out)

/-- `vtq_usim_read_acl` -/
def readAcl (acl : Acl) (aclMaxLen : ℤ) : Card (Decoded Acl) :=
  if ¬ Allocated E aclMaxLen then pure ⟨-1, 0, none⟩
  else do
    let out ← readTransparent S E debug aclFileid 0 E.heap 0
    pure (decodeChecked aclMaxLen (-1) (decodeAcl · acl) out)

/-- `vtq_usim_read_ust` -/
def readUst : Card (Decoded (List Byte)) := do
  let out ← readTransparent S E debug ustFileid 20 E.heap 0
  pure (decodeAll (Arr.slice · 0 out.len.toNat) out)

/-- `vtq_usim_read_nasconfig`; a file that is too long ends it with what the reading
returned. -/
def readNasconfig (c : Nasconfig) (nasLen : ℤ) : Card (Decoded Nasconfig) :=
  if ¬ Allocated E nasLen then pure ⟨-1, 0, none⟩
  else do
    let out ← readTransparent S E debug nasconfigFileid 0 E.heap 0
    pure (decodeChecked nasLen out.ret (decodeNasconfig · c) out)

/-- `vtq_usim_read_suci_calc_info` -/
def readSuciCalcInfo (suciCalcInfoLen : ℤ) : Card (Decoded SuciLists) :=
  if ¬ Allocated E suciCalcInfoLen then pure ⟨-1, 0, none⟩
  else do
    let out ← readTransparent S E debug suciCalcInfoFileid 0 E.heap dir5gs
    pure (decodeChecked suciCalcInfoLen (-1) decodeSuciCalcInfo out)

end Functions

/-! ### The records of a file -/

section Records

variable (S : Sim) {σ : Type} (card : σ → Apdu → σ × Resp) (t : σ) (recLen : ℕ)

/-- The card after `i` records. -/
def recordState : ℕ → σ
  | 0 => t
  | i + 1 => (card (recordState i) (readRecordCmd S (i + 1 : ℕ) recLen)).1

/-- The answer to the READ RECORD for the record behind the first `i`. -/
def recordAnswer (i : ℕ) : Resp := (card (recordState S card t recLen i) (readRecordCmd S (i + 1 : ℕ) recLen)).2

/-- It is read. -/
def RecordRead (i : ℕ) : Prop :=
  recLen ≤ 253 ∧ 0 ≤ (recordAnswer S card t recLen i).ret ∧
    (recordAnswer S card t recLen i).sw (recLen + 1) 0x90 0x00

variable {S card t recLen} {debug : BitVec 32}

theorem bytes_copy (buf src : Mem) (n : ℕ) : bytes (copy buf 0 src 1 n) 0 n = bytes src 1 n := by
  have h := @bytes_copy_within buf src 0 1 n 0 n (Nat.zero_add n).le
  rwa [Nat.cast_zero, add_zero, add_zero] at h

/-- When the rest of the records is read, the last one is in the buffer. -/
theorem val_readRecords_of_read (b : Bool) (left : ℕ) : ∀ {i : ℕ} {a : Arr} {out : Read}, a.size = 256 →
    (∀ j, i ≤ j → j < i + left → RecordRead S card t recLen j) →
    ∃ o, (run card (readRecords S debug recLen b left (i + 1) a out) (recordState S card t recLen i)).val = some o ∧
      o.ret = 0 ∧ (left = 0 → o = { out with ret := 0 }) ∧ (left ≠ 0 → o.len = recLen ∧ o.stored = recLen ∧
        bytes o.buf 0 recLen = bytes (recordAnswer S card t recLen (i + left - 1)).data 1 recLen) := by
  induction left with
  | zero =>
    intro i a out _ _
    rw [readRecords, val_leave]
    exact ⟨_, rfl, rfl, fun _ => rfl, fun h => absurd rfl h⟩
  | succ left ih =>
    intro i a out ha hread
    obtain ⟨hshort, hret, hsw⟩ := hread i le_rfl (by omega)
    have hfill : (a.filled (recordAnswer S card t recLen i).data (recLen + 3)).size = 256 := ha
    obtain ⟨o, hval, h0, hlast, hmore⟩ := @ih (i + 1) _
      ⟨0, recLen, copy out.buf 0 (recordAnswer S card t recLen i).data 1 recLen, recLen⟩ hfill fun j h1 h2 =>
        hread j (by omega) (by omega)
    refine ⟨o, ?_, h0, fun h => absurd h (Nat.succ_ne_zero left), fun _ => ?_⟩
    · rw [val_readRecords_succ ha]
      exact (if_pos ⟨hshort, hret⟩).trans ((if_pos hsw).trans hval)
    · by_cases hleft : left = 0
      · obtain rfl := hleft
        rw [hlast rfl]
        exact ⟨rfl, rfl, bytes_copy _ _ recLen⟩
      · obtain ⟨hlen, hstored, hbytes⟩ := hmore hleft
        rw [Nat.add_right_comm] at hbytes
        exact ⟨hlen, hstored, hbytes⟩

/-- When one is not, an error is returned; the first record has been stored if it was
read. -/
theorem val_readRecords_of_not_read (b : Bool) (left : ℕ) : ∀ {i : ℕ} {a : Arr} {out o : Read}, a.size = 256 →
    (∃ j, i ≤ j ∧ j < i + left ∧ ¬ RecordRead S card t recLen j) →
    (run card (readRecords S debug recLen b left (i + 1) a out) (recordState S card t recLen i)).val = some o →
    o.ret < 0 ∧ (¬ RecordRead S card t recLen i → o.stored = out.stored) ∧
      (RecordRead S card t recLen i → o.stored = recLen) := by
  induction left with
  | zero =>
    rintro i a out o _ ⟨j, h1, h2, -⟩ _
    omega
  | succ left ih =>
    rintro i a out o ha ⟨j, h1, h2, hj⟩ hval
    rw [val_readRecords_succ ha] at hval
    by_cases hread : RecordRead S card t recLen i
    · have hfill : (a.filled (recordAnswer S card t recLen i).data (recLen + 3)).size = 256 := ha
      have hne : j ≠ i := fun h => hj (h ▸ hread)
      have hval' := ((if_pos ⟨hread.1, hread.2.1⟩).trans (if_pos hread.2.2)).symm.trans hval
      obtain ⟨hneg, hno, hyes⟩ := @ih (i + 1) _ _ o hfill ⟨j, by omega, by omega, hj⟩ hval'
      refine ⟨hneg, fun h => absurd hread h, fun _ => ?_⟩
      by_cases hnext : RecordRead S card t recLen (i + 1)
      · exact hyes hnext
      · exact hno hnext
    · have hout : o = { out with ret := -1 } := by
        dsimp only at hval
        split at hval
        · next h =>
          split at hval
          · next hsw => exact absurd ⟨h.1, h.2, hsw⟩ hread
          split at hval
          · exact (Option.some.inj hval).symm
          · simp at hval
        · exact (Option.some.inj hval).symm
      have hneg : (-1 : ℤ) < 0 := by decide
      rw [hout]
      exact ⟨hneg, fun _ => rfl, fun h => absurd h hread⟩

end Records

/-! ### What a function may do -/

section Respects

/-- The buffer of `size` bytes is not overrun, and `0` is returned only when delivered
bytes were decoded. -/
def Respected {α : Type} (size : ℤ) (val : Option (Decoded α)) : Prop :=
  ∀ d, val = some d → d.stored ≤ size.toNat ∧ (d.ret = 0 → d.data ≠ some none)

theorem respected_iff {α : Type} {size : ℤ} {val : Option (Decoded α)} (hsize : 0 ≤ size) :
    Respected size val ↔ ∀ d, val = some d → (d.stored : ℤ) ≤ size ∧ (d.ret = 0 → d.data ≠ some none) := by
  simp only [Respected, Int.le_toNat hsize]

variable (S : Sim) (E : Env) (debug : BitVec 32) {σ : Type} (card : σ → Apdu → σ × Resp) (s : σ) (dirFileid : ℤ)
  (fileid : Word)

/-- A transparent file that is read is no longer than the buffer, and the decoding ends
inside it. -/
def FileFits (size : ℤ) (inside : Arr → Prop) : Prop :=
  ∀ n, Fetched S E debug card s dirFileid fileid n →
    (n : ℤ) ≤ size ∧ inside (.ofBytes (bytes (contentAnswer S card s dirFileid fileid n).data 1 n))

/-- What the last of the records delivers; nothing if there are none. -/
def lastRecord (record : UsimRec) : List Byte :=
  if record.count = 0 then []
  else bytes (recordAnswer S card (descriptionAnswer S card s dirFileid fileid).1 record.len (record.count - 1)).data 1
    record.len

/-- The records of a linear fixed file that are read are no longer than the buffer, and
when all are read the decoding ends inside the last. `len` is what the function passes
as the length. -/
def RecordsFit (size len : ℤ) (inside : Arr → Prop) : Prop :=
  ∀ record, Described S card s dirFileid fileid → RecordReadable S debug (description S card s dirFileid fileid) →
    recordInfo S E (description S card s dirFileid fileid).mem = .ok record →
    let read := RecordRead S card (descriptionAnswer S card s dirFileid fileid).1 record.len
    (1 ≤ record.count → read 0 → (record.len : ℤ) ≤ size) ∧
      ((∀ i < record.count, read i) → (record.count = 0 → len ≤ size) →
        inside (.ofBytes (lastRecord S card s dirFileid fileid record)))

variable {S E debug card s dirFileid fileid} {α : Type} {size len : ℤ} {buf : Mem} {inside : Arr → Prop}
  {decode : Arr → Option α}

/-- For a card that keeps a file, it is the file that has to fit. -/
theorem TransparentEf.fileFits_iff {content : List Byte} (F : TransparentEf S dirFileid fileid content card)
    (hs : dirFileid = 0 → F.inDir s) : FileFits S E debug card s dirFileid fileid size inside ↔
      ((∃ n, Fetched S E debug card s dirFileid fileid n) → (content.length : ℤ) ≤ size ∧ inside (.ofBytes content)) := by
  have heq : ∀ {n}, Fetched S E debug card s dirFileid fileid n →
      n = content.length ∧ bytes (contentAnswer S card s dirFileid fileid n).data 1 n = content := by
    intro n hn
    have hlen := F.length_eq E debug hs hn
    exact ⟨hlen, (F.content_held E debug hs hn).bytes_eq hlen⟩
  constructor
  · rintro h ⟨n, hn⟩
    obtain ⟨hle, hin⟩ := h n hn
    rw [(heq hn).2] at hin
    rw [(heq hn).1] at hle
    exact ⟨hle, hin⟩
  · intro h n hn
    rw [(heq hn).2, (heq hn).1]
    exact h ⟨n, hn⟩

section Transparent

variable {f : Read → Decoded α} (hsize : 0 ≤ size) (hfail : ∀ out, out.ret < 0 → (f out).ret < 0)
  (hstored : ∀ out, (f out).stored = out.stored)

include hsize hfail hstored

/-- A function that reads a transparent file. -/
theorem transparent_respected_iff (hok : ∀ (n : ℕ) (buf : Mem), (n : ℤ) ≤ size →
      (f ⟨0, n, buf, n⟩).ret = 0 ∧ ((f ⟨0, n, buf, n⟩).data ≠ some none ↔ inside (.ofBytes (bytes buf 0 n)))) :
    Respected size (run card (do
      let out ← readTransparent S E debug fileid len buf dirFileid
      pure (f out)) s).val ↔ FileFits S E debug card s dirFileid fileid size inside := by
  rw [respected_iff hsize, run_bind_pure]
  constructor
  · intro h n hn
    obtain ⟨hle, hdata⟩ := h _ (congrArg (Option.map f) (hn.val len buf))
    rw [hstored] at hle
    obtain ⟨h0, hin⟩ := hok n (copy buf 0 (contentAnswer S card s dirFileid fileid n).data 1 n) hle
    rw [bytes_copy] at hin
    exact ⟨hle, hin.mp (hdata h0)⟩
  · intro h d hd
    obtain ⟨out, hval, rfl⟩ := Option.map_eq_some_iff.mp hd
    by_cases hex : ∃ n, Fetched S E debug card s dirFileid fileid n
    · obtain ⟨n, hn⟩ := hex
      obtain ⟨hle, hin⟩ := h n hn
      rw [hn.val, Option.some.injEq] at hval
      subst hval
      rw [hstored]
      obtain ⟨-, hiff⟩ := hok n (copy buf 0 (contentAnswer S card s dirFileid fileid n).data 1 n) hle
      rw [bytes_copy] at hiff
      exact ⟨hle, fun _ => hiff.mpr hin⟩
    · obtain ⟨hneg, h0⟩ := failed_of_not_fetched (not_exists.mp hex) hval
      have hneg' := hfail out hneg
      rw [hstored, h0]
      exact ⟨by exact_mod_cast hsize, fun hret => absurd hret hneg'.ne⟩

end Transparent

/-- A linear fixed file that is described is read record by record. -/
theorem val_readLinearfixed {record : UsimRec} (hd : Described S card s dirFileid fileid)
    (hread : RecordReadable S debug (description S card s dirFileid fileid))
    (hinfo : recordInfo S E (description S card s dirFileid fileid).mem = .ok record) :
    ∃ b, (run card (readLinearfixed S E debug fileid len buf dirFileid) s).val =
      (run card (readRecords S debug record.len b record.count 1 ⟨256, E.heap⟩ ⟨-1, len, buf, 0⟩)
        (descriptionAnswer S card s dirFileid fileid).1).val := by
  obtain ⟨b, hval⟩ := val_of_described hd (fun ret => (⟨ret, len, buf, 0⟩ : Read)) (fetchRecords S E debug len buf)
  obtain ⟨r, hr, hinfo'⟩ := usimRecord_of_readable (description_size dirFileid fileid) hread
  refine ⟨b, ?_⟩
  rw [readLinearfixed, hval, fetchRecords, hr, Dialogue.pure_bind]
  cases r with
  | none => exact absurd ((hinfo' E).symm.trans hinfo) (by simp)
  | some record' =>
    obtain rfl := RecordInfo.ok.inj ((hinfo' E).symm.trans hinfo)
    rfl

/-- Any other ends with an error, and nothing is stored. -/
theorem failed_of_not_record (h : ∀ record, Described S card s dirFileid fileid →
      RecordReadable S debug (description S card s dirFileid fileid) →
      recordInfo S E (description S card s dirFileid fileid).mem ≠ .ok record) {out : Read}
    (hval : (run card (readLinearfixed S E debug fileid len buf dirFileid) s).val = some out) :
    out.ret < 0 ∧ out.stored = 0 := by
  have hneg : (-1 : ℤ) < 0 := by decide
  by_cases hd : Described S card s dirFileid fileid
  swap
  · obtain ⟨r, hr, hval'⟩ := val_of_not_described hd (fun ret => (⟨ret, len, buf, 0⟩ : Read)) (fetchRecords S E debug len buf)
    rw [readLinearfixed, hval', Option.some.injEq] at hval
    subst hval
    exact ⟨hr, rfl⟩
  obtain ⟨b, hval'⟩ := val_of_described hd (fun ret => (⟨ret, len, buf, 0⟩ : Read)) (fetchRecords S E debug len buf)
  rw [readLinearfixed, hval', fetchRecords] at hval
  by_cases hread : RecordReadable S debug (description S card s dirFileid fileid)
  swap
  · rw [usimRecord_of_not_readable (description_size dirFileid fileid) hread, fault_bind] at hval
    exact absurd hval (by simp)
  obtain ⟨r, hr, hinfo⟩ := usimRecord_of_readable (description_size dirFileid fileid) hread
  cases r with
  | none =>
    rw [hr, Dialogue.pure_bind] at hval
    dsimp only at hval
    rw [val_leave, Option.some.injEq] at hval
    subst hval
    exact ⟨hneg, rfl⟩
  | some record => exact absurd (hinfo E) (h record hd hread)

/-- The loop returns once the first record is read. -/
theorem readRecords_returns_of_first {t : σ} {b : Bool} {recLen count : ℕ} (hcount : 1 ≤ count)
    (hfirst : RecordRead S card t recLen 0) :
    (run card (readRecords S debug recLen b count 1 ⟨256, E.heap⟩ ⟨-1, len, buf, 0⟩) t).val ≠ none := by
  have h256 : (⟨256, E.heap⟩ : Arr).size = 256 := rfl
  obtain ⟨left, rfl⟩ := Nat.exists_eq_add_of_le' hcount
  obtain ⟨hshort, hret, hsw⟩ := hfirst
  rw [val_readRecords_succ h256]
  refine ne_of_eq_of_ne ((if_pos ⟨hshort, hret⟩).trans (if_pos hsw)) ?_
  exact readRecords_returns b left _ _ _ _ rfl (by dsimp only; omega) (by dsimp only; omega)

section Linear

variable {f : Read → Decoded α} (hsize : 0 ≤ size) (hfail : ∀ out, out.ret < 0 → (f out).ret < 0)
  (hstored : ∀ out, (f out).stored = out.stored)

include hsize hfail hstored

/-- A record that is not read ends the loop with an error; the first one may
have been stored. -/
theorem records_respected_iff_of_not_read {t : σ} {b : Bool} {recLen count : ℕ}
    (hnot : ∃ j, 0 ≤ j ∧ j < 0 + count ∧ ¬ RecordRead S card t recLen j) :
    Respected size ((run card (readRecords S debug recLen b count 1 ⟨256, E.heap⟩ ⟨-1, len, buf, 0⟩) t).val.map f) ↔
      (1 ≤ count → RecordRead S card t recLen 0 → (recLen : ℤ) ≤ size) := by
  have h256 : (⟨256, E.heap⟩ : Arr).size = 256 := rfl
  rw [respected_iff hsize]
  constructor
  · intro h hcount hfirst
    obtain ⟨o, ho⟩ := Option.ne_none_iff_exists'.mp (@readRecords_returns_of_first S E debug σ card len buf t b recLen
      count hcount hfirst)
    obtain ⟨-, -, hyes⟩ := @val_readRecords_of_not_read S σ card t recLen debug b count 0 _ _ o h256 hnot ho
    have hle := (h (f o) (congrArg (Option.map f) ho)).1
    rw [hstored, hyes hfirst] at hle
    exact hle
  · intro hfirst d hd
    obtain ⟨o, ho, rfl⟩ := Option.map_eq_some_iff.mp hd
    obtain ⟨hneg, hno, hyes⟩ := @val_readRecords_of_not_read S σ card t recLen debug b count 0 _ _ o h256 hnot ho
    refine ⟨?_, fun hret => absurd hret (hfail o hneg).ne⟩
    rw [hstored]
    by_cases h0 : RecordRead S card t recLen 0
    · obtain ⟨j, -, hj, -⟩ := hnot
      rw [hyes h0]
      exact hfirst (by omega) h0
    · rw [hno h0]
      exact_mod_cast hsize

/-- The loop over the records, once the file is described. -/
theorem records_respected_iff {t : σ} {b : Bool} {recLen count : ℕ}
    (hok : ∀ out : Read, out.ret = 0 → out.len ≤ size →
      (f out).ret = 0 ∧ ((f out).data ≠ some none ↔ inside out.delivered))
    (hlong : len ≤ size ∨ ∀ out : Read, out.ret = 0 → size < out.len → (f out).data = none) :
    Respected size ((run card (readRecords S debug recLen b count 1 ⟨256, E.heap⟩ ⟨-1, len, buf, 0⟩) t).val.map f) ↔
      (1 ≤ count → RecordRead S card t recLen 0 → (recLen : ℤ) ≤ size) ∧
        ((∀ i < count, RecordRead S card t recLen i) → (count = 0 → len ≤ size) →
          inside (.ofBytes (if count = 0 then [] else bytes (recordAnswer S card t recLen (count - 1)).data 1 recLen))) := by
  have h256 : (⟨256, E.heap⟩ : Arr).size = 256 := rfl
  by_cases hall : ∀ i < count, RecordRead S card t recLen i
  swap
  · obtain ⟨j, hj, hnot⟩ : ∃ j, j < count ∧ ¬ RecordRead S card t recLen j := by
      push Not at hall
      exact hall
    rw [records_respected_iff_of_not_read hsize hfail hstored ⟨j, Nat.zero_le j, by omega, hnot⟩]
    exact ⟨fun h => ⟨h, fun h' => absurd h' hall⟩, And.left⟩
  rw [respected_iff hsize]
  obtain ⟨o, hval, h0, hnone, hsome⟩ := @val_readRecords_of_read S σ card t recLen debug b count 0 ⟨256, E.heap⟩
    ⟨-1, len, buf, 0⟩ h256 fun j _ hj => hall j (by omega)
  have hval' : (run card (readRecords S debug recLen b count 1 ⟨256, E.heap⟩ ⟨-1, len, buf, 0⟩) t).val.map f =
      some (f o) := congrArg (Option.map f) hval
  rw [hval']
  by_cases hcount : count = 0
  · obtain rfl := hcount
    obtain rfl := hnone rfl
    have hin := hok ⟨0, len, buf, 0⟩ rfl
    constructor
    · refine fun h => ⟨fun h1 => absurd h1 (by decide), fun _ hle => ?_⟩
      exact (hin (hle rfl)).2.mp ((h _ rfl).2 (hin (hle rfl)).1)
    · rintro ⟨-, h⟩ d ⟨⟩
      rw [hstored]
      refine ⟨by exact_mod_cast hsize, fun _ => ?_⟩
      by_cases hle : len ≤ size
      · exact (hin hle).2.mpr (h hall fun _ => hle)
      · rw [hlong.resolve_left hle _ rfl (not_le.mp hle)]
        simp
  · obtain ⟨hlen, hst, hbytes⟩ := hsome hcount
    have hone : 1 ≤ count := Nat.one_le_iff_ne_zero.mpr hcount
    have hdel : o.delivered = .ofBytes (bytes (recordAnswer S card t recLen (count - 1)).data 1 recLen) := by
      rw [Read.delivered, hst, hbytes, zero_add]
    rw [if_neg hcount, ← hdel]
    have hin : (recLen : ℤ) ≤ size → _ := fun hle => hok o h0 (by rw [hlen]; exact hle)
    constructor
    · intro h
      obtain ⟨hle, hdata⟩ := h _ rfl
      rw [hstored, hst] at hle
      exact ⟨fun _ _ => hle, fun _ _ => (hin hle).2.mp (hdata (hin hle).1)⟩
    · rintro ⟨hle, h⟩ d ⟨⟩
      rw [hstored, hst]
      have hle := hle hone (hall 0 hone)
      exact ⟨hle, fun _ => (hin hle).2.mpr (h hall fun h' => absurd h' hcount)⟩

/-- A function that reads a linear fixed file. -/
theorem linear_respected_iff (hok : ∀ out : Read, out.ret = 0 → out.len ≤ size →
      (f out).ret = 0 ∧ ((f out).data ≠ some none ↔ inside out.delivered))
    (hlong : len ≤ size ∨ ∀ out : Read, out.ret = 0 → size < out.len → (f out).data = none) :
    Respected size (run card (do
      let out ← readLinearfixed S E debug fileid len buf dirFileid
      pure (f out)) s).val ↔ RecordsFit S E debug card s dirFileid fileid size len inside := by
  rw [run_bind_pure]
  constructor
  · intro h record hd hread hinfo
    obtain ⟨b, hval⟩ := @val_readLinearfixed S E debug σ card s dirFileid fileid len buf record hd hread hinfo
    dsimp only at h
    rw [hval] at h
    exact (records_respected_iff hsize hfail hstored hok hlong).mp h
  · intro h
    by_cases hex : ∃ record, Described S card s dirFileid fileid ∧
        RecordReadable S debug (description S card s dirFileid fileid) ∧
        recordInfo S E (description S card s dirFileid fileid).mem = .ok record
    · obtain ⟨record, hd, hread, hinfo⟩ := hex
      obtain ⟨b, hval⟩ := @val_readLinearfixed S E debug σ card s dirFileid fileid len buf record hd hread hinfo
      dsimp only
      rw [hval]
      exact (records_respected_iff hsize hfail hstored hok hlong).mpr (h record hd hread hinfo)
    · rw [respected_iff hsize]
      intro d hd'
      obtain ⟨out, hval, rfl⟩ := Option.map_eq_some_iff.mp hd'
      obtain ⟨hneg, h0⟩ := failed_of_not_record
        (fun record hd hread hinfo => hex ⟨record, hd, hread, hinfo⟩) hval
      have hneg' := hfail out hneg
      rw [hstored, h0]
      exact ⟨by exact_mod_cast hsize, fun hret => absurd hret hneg'.ne⟩

end Linear

theorem respected_allocated_iff {m : Card (Decoded α)} :
    Respected size (run card (if ¬ Allocated E size then pure ⟨-1, 0, none⟩ else m) s).val ↔
      (Allocated E size → Respected size (run card m s).val) := by
  by_cases h : Allocated E size
  · rw [if_neg (not_not.mpr h)]
    exact ⟨fun hr _ => hr, fun hr => hr h⟩
  · rw [if_pos h]
    refine iff_of_true ?_ fun h' => absurd h' h
    rintro d ⟨⟩
    exact ⟨Nat.zero_le _, fun _ => by simp⟩

section Decoding

variable {out : Read}

theorem decodeAll_of_neg (h : out.ret < 0) : (decodeAll decode out).ret < 0 := by
  rw [decodeAll, if_pos h]
  exact h

theorem decodeAll_stored : (decodeAll decode out).stored = out.stored := by
  rw [decodeAll]
  split <;> rfl

theorem decodeAll_of_zero (h : out.ret = 0) : decodeAll decode out = ⟨0, out.stored, some (decode out.delivered)⟩ :=
  if_neg (by omega)

variable {tooLong : ℤ}

theorem decodeChecked_of_neg (h : out.ret < 0) : (decodeChecked size tooLong decode out).ret < 0 := by
  rw [decodeChecked, if_pos h]
  exact h

theorem decodeChecked_stored : (decodeChecked size tooLong decode out).stored = out.stored := by
  rw [decodeChecked]
  split_ifs <;> rfl

theorem decodeChecked_of_zero (h : out.ret = 0) (hle : out.len ≤ size) :
    decodeChecked size tooLong decode out = ⟨0, out.stored, some (decode out.delivered)⟩ := by
  rw [decodeChecked, if_neg (by omega), if_neg (by omega)]

theorem decodeChecked_of_long (h : out.ret = 0) (hlt : size < out.len) :
    (decodeChecked size tooLong decode out).data = none := by
  rw [decodeChecked, if_neg (by omega), if_pos hlt]

end Decoding

/-- A transparent file, into a buffer of the function's frame. -/
theorem fixed_transparent_iff (size : ℤ) (decode : ℤ → Arr → Option α) (hsize : 0 ≤ size)
    (hinside : ∀ a : Arr, decode a.size a ≠ none ↔ inside a) :
    Respected size (run card (do
      let out ← readTransparent S E debug fileid len buf dirFileid
      pure (decodeAll (decode out.len) out)) s).val ↔ FileFits S E debug card s dirFileid fileid size inside := by
  refine transparent_respected_iff hsize (fun out h => decodeAll_of_neg h) (fun out => decodeAll_stored) fun n buf hn => ?_
  have hzero : (⟨0, n, buf, n⟩ : Read).ret = 0 := rfl
  have hdel : (Arr.ofBytes (bytes buf 0 n)).size = n := length_bytes buf 0 n
  rw [decodeAll_of_zero hzero, ← hinside, hdel]
  exact ⟨rfl, not_congr Option.some_inj⟩

/-- And into memory that was allocated for it. -/
theorem allocated_transparent_iff {tooLong : Read → ℤ} (hinside : ∀ a, decode a ≠ none ↔ inside a) :
    Respected size (run card (if ¬ Allocated E size then pure ⟨-1, 0, none⟩
      else do
        let out ← readTransparent S E debug fileid len buf dirFileid
        pure (decodeChecked size (tooLong out) decode out)) s).val ↔
      (Allocated E size → FileFits S E debug card s dirFileid fileid size inside) := by
  refine respected_allocated_iff.trans (forall_congr' fun hsize => ?_)
  refine transparent_respected_iff hsize.1 (fun out h => decodeChecked_of_neg h) (fun out => decodeChecked_stored)
    fun n buf hn => ?_
  have hzero : (⟨0, n, buf, n⟩ : Read).ret = 0 := rfl
  rw [decodeChecked_of_zero hzero hn, ← hinside]
  exact ⟨rfl, not_congr Option.some_inj⟩

/-- A linear fixed file, into a buffer of the function's frame. -/
theorem fixed_linear_iff (size len : ℤ) (hsize : 0 ≤ size) (hlen : len ≤ size) (hinside : ∀ a, decode a ≠ none ↔ inside a) :
    Respected size (run card (do
      let out ← readLinearfixed S E debug fileid len buf dirFileid
      pure (decodeAll decode out)) s).val ↔ RecordsFit S E debug card s dirFileid fileid size len inside := by
  refine linear_respected_iff hsize (fun out h => decodeAll_of_neg h) (fun out => decodeAll_stored) (fun out h0 _ => ?_)
    (.inl hlen)
  rw [decodeAll_of_zero h0, ← hinside]
  exact ⟨rfl, not_congr Option.some_inj⟩

/-- And into memory that was allocated for it. -/
theorem allocated_linear_iff {tooLong : ℤ} (hinside : ∀ a, decode a ≠ none ↔ inside a) :
    Respected size (run card (if ¬ Allocated E size then pure ⟨-1, 0, none⟩
      else do
        let out ← readLinearfixed S E debug fileid len buf dirFileid
        pure (decodeChecked size tooLong decode out)) s).val ↔
      (Allocated E size → RecordsFit S E debug card s dirFileid fileid size len inside) := by
  refine respected_allocated_iff.trans (forall_congr' fun hsize => ?_)
  refine linear_respected_iff hsize.1 (fun out h => decodeChecked_of_neg h) (fun out => decodeChecked_stored)
    (fun out h0 hle => ?_) (.inr fun out h0 hlt => decodeChecked_of_long h0 hlt)
  rw [decodeChecked_of_zero h0 hle, ← hinside]
  exact ⟨rfl, not_congr Option.some_inj⟩

end Respects

/-! ### All functions -/

/-- The functions, and their arguments. -/
inductive ReadCall where
  | nasconfig (c : Nasconfig) (nasLen : ℤ)
  | suciCalcInfo (suciCalcInfoLen : ℤ)
  | rid
  | imsi
  | plmnList (list : PlmnList)
  | opPlmn
  | plmnNn (c : PlmnNn) (plmnNnLen : ℤ)
  | uac
  | acc
  | locInfo
  | nasSecCtx (ctx : NasSecurityCtx) (nasSecCtxLen : ℤ)
  | adminData
  | nasAuthKeys (keys : NasAuthKeys) (authKeyLen : ℤ)
  | acl (list : Acl) (aclMaxLen : ℤ)
  | ust

namespace ReadCall

variable (S : Sim) (E : Env) (debug : BitVec 32) {σ : Type} (card : σ → Apdu → σ × Resp) (s : σ)

/-- The function does not overrun its buffer, and does not return `0` for what was not
delivered. -/
def Respects : ReadCall → Prop
  | nasconfig c nasLen => Respected nasLen (run card (readNasconfig S E debug c nasLen) s).val
  | suciCalcInfo len => Respected len (run card (readSuciCalcInfo S E debug len) s).val
  | rid => Respected 2 (run card (readRid S E debug) s).val
  | imsi => Respected 9 (run card (readImsi S E debug) s).val
  | plmnList list => Respected plmnMaxLength (run card (readPlmnList S E debug list) s).val
  | opPlmn => Respected 10 (run card (readOpPlmn S E debug) s).val
  | plmnNn c len => Respected len (run card (readPlmnNn S E debug c len) s).val
  | uac => Respected 4 (run card (readUac S E debug) s).val
  | acc => Respected 2 (run card (readAcc S E debug) s).val
  | locInfo => Respected 20 (run card (read5gsLocInfo S E debug) s).val
  | nasSecCtx ctx len => Respected len (run card (readNasSecCtx S E debug ctx len) s).val
  | adminData => Respected 4 (run card (readAdminData S E debug) s).val
  | nasAuthKeys keys len => Respected len (run card (readNasAuthKeys S E debug keys len) s).val
  | acl list len => Respected len (run card (readAcl S E debug list len) s).val
  | ust => Respected 20 (run card (readUst S E debug) s).val

/-- What is read of the file fits into the buffer, and what is decoded is in the file. -/
def Fits : ReadCall → Prop
  | nasconfig _ len =>
    Allocated E len → FileFits S E debug card s 0 nasconfigFileid len (ElementsInside · nasTags 0)
  | suciCalcInfo len => Allocated E len → FileFits S E debug card s dir5gs suciCalcInfoFileid len SuciInside
  | rid => FileFits S E debug card s dir5gs ridFileid 2 fun a => 2 ≤ a.size
  | imsi => FileFits S E debug card s 0 imsiFileid 9 fun a => 1 ≤ a.size ∧ 1 + (a.mem 0).toNat ≤ a.size
  | plmnList list => FileFits S E debug card s 0 list.fileid plmnMaxLength fun _ => True
  | opPlmn => RecordsFit S E debug card s dir5gs opPlmnFileid 10 10 fun a => 10 ≤ a.size
  | plmnNn _ len =>
    Allocated E len → RecordsFit S E debug card s 0 plmnNnFileid len 0 (ElementsInside · [0x43, 0x45] 0)
  | uac => FileFits S E debug card s dir5gs uacFileid 4 fun a => 4 ≤ a.size
  | acc => FileFits S E debug card s 0 accFileid 2 fun a => 2 ≤ a.size
  | locInfo => FileFits S E debug card s dir5gs locationInfoFileid 20 fun a => 20 ≤ a.size
  | nasSecCtx _ len => Allocated E len → RecordsFit S E debug card s dir5gs nasSecCtxFileid len 0 SecCtxInside
  | adminData => FileFits S E debug card s 0 adminFileid 4 fun a => 4 ≤ a.size
  | nasAuthKeys _ len => Allocated E len → FileFits S E debug card s dir5gs nasAuthKeysFileid len KeysInside
  | acl _ len => Allocated E len → FileFits S E debug card s 0 aclFileid len AclInside
  | ust => FileFits S E debug card s 0 ustFileid 20 fun _ => True

end ReadCall

theorem ne_none_iff_of_eq_some_iff {α : Type} {o : Option α} {p : Prop} {x : α} (h : ∀ y, o = some y ↔ p ∧ y = x) :
    o ≠ none ↔ p := by
  rw [Option.ne_none_iff_exists']
  simp only [h, exists_and_left, exists_eq, and_true]

theorem slice_len_ne_none (a : Arr) : a.slice 0 (a.size : ℤ).toNat ≠ none := (slice_ne_none_iff _).mpr (by omega)

/-- A function respects its buffer exactly when the file fits. -/
theorem caller_buffers_iff (S : Sim) (E : Env) (debug : BitVec 32) {σ : Type} (card : σ → Apdu → σ × Resp) (s : σ)
    (c : ReadCall) : c.Respects S E debug card s ↔ c.Fits S E debug card s := by
  cases c with
  | nasconfig c len =>
    exact allocated_transparent_iff fun a => ne_none_iff_of_eq_some_iff (decodeNasconfig_eq_some_iff c)
  | suciCalcInfo len => exact allocated_transparent_iff fun a => decodeSuciCalcInfo_ne_none_iff
  | rid => exact fixed_transparent_iff 2 (fun _ => decodeRid) (by decide) fun a => decodeRid_ne_none_iff
  | imsi => exact fixed_transparent_iff 9 (fun _ => decodeImsi) (by decide) fun a => decodeImsi_ne_none_iff
  | plmnList list =>
    exact fixed_transparent_iff plmnMaxLength (decodePlmnList list.withAct) (by decide) fun a =>
      iff_of_true (decodePlmnList_ne_none list.withAct) trivial
  | opPlmn => exact fixed_linear_iff 10 10 (by decide) le_rfl fun a => decodeOpPlmn_ne_none_iff
  | plmnNn c len => exact allocated_linear_iff fun a => decodePlmnNn_ne_none_iff c
  | uac => exact fixed_transparent_iff 4 (fun _ a => a.slice 0 4) (by decide) fun a => slice_ne_none_iff 4
  | acc => exact fixed_transparent_iff 2 (fun _ a => a.slice 0 2) (by decide) fun a => slice_ne_none_iff 2
  | locInfo => exact fixed_transparent_iff 20 (fun _ => decode5gsLocInfo) (by decide) fun a => decode5gsLocInfo_ne_none_iff
  | nasSecCtx ctx len => exact allocated_linear_iff fun a => ne_none_iff_of_eq_some_iff (decodeNasSecCtx_eq_some_iff ctx)
  | adminData => exact fixed_transparent_iff 4 (fun _ => decodeAdminData) (by decide) fun a => decodeAdminData_ne_none_iff
  | nasAuthKeys keys len =>
    exact allocated_transparent_iff fun a => ne_none_iff_of_eq_some_iff (decodeNasAuthKeys_eq_some_iff keys)
  | acl list len => exact allocated_transparent_iff fun a => ne_none_iff_of_eq_some_iff (decodeAcl_eq_some_iff list)
  | ust =>
    exact fixed_transparent_iff 20 (fun len a => a.slice 0 len.toNat) (by decide) fun a =>
      iff_of_true (slice_len_ne_none a) trivial

/-- A USIM with an EF of five bytes where four are expected. -/
theorem fifth_byte_behind_buffer :
    ¬ ReadCall.adminData.Respects fiveByteAid plainEnv 0 (keptCard [0x00, 0x00, 0x00, 0x02, 0xff]) () := by
  intro h
  have hstored := (h _ rfl).1
  exact absurd hstored (by decide)

end Bounds
end Usim
end La12xx
