/-
# The arrays of the functions on files

The functions of `usim_apdu.c` that work on a file, with the arrays they own: the
description, a record and the content are in arrays with a size, every index is
checked, and a variable that is not assigned is not read. The driver behind
`SendReceiveAPDU` refuses an answer of more than 256 bytes before it asks the card.

`no_fault_iff` says for every call and every card when no access is a fault.
-/
import La12xx.Usim.Directory
import La12xx.Usim.FcpBounds
import La12xx.Usim.OnChip
import La12xx.Usim.WriteSuccess

namespace La12xx
namespace Usim

open ByteMem Dialogue

namespace Bounds

/-! ### The functions -/

/-- `SendReceiveAPDU` with the driver: an answer of more than `SIM_XMT_BUFFER_SIZE`
bytes is refused with `SIM_E_INVALIDRCVLENGTH`. -/
def xfer (cmd : Apdu) (resp : Arr) (rcvLength : ℤ) : Card (ℤ × Arr) :=
  if 256 < rcvLength then pure (-6, resp)
  else do
    let r ← sendReceiveAPDU cmd
    let resp ← resp.fill r.data rcvLength
    pure (r.ret, resp)

/-- What a reading function leaves, with the number of bytes it has stored into the
caller's buffer. -/
structure Read where
  ret : ℤ
  len : ℤ
  buf : Mem
  stored : ℕ

section Functions

variable (S : Sim) (E : Env) (debug : BitVec 32) {α : Type}

/-- The description of the file is fetched into `buffer[256]`. -/
def withDescription (resp : Resp) (selectBack : Bool) (out : ℤ → α) (body : Arr → Card α) : Card α := do
  let blen : ℤ := (resp.data 2).toNat
  let r ← xfer (getResponseCmd S blen) (Arr.zeros 256) (blen + 3)
  if r.1 < 0 then leave S selectBack (out (-1))
  else
    let sw1 ← r.2.get (blen + 1)
    let sw2 ← r.2.get (blen + 2)
    if ¬ (sw1 = 0x90 ∧ sw2 = 0x00) then leave S selectBack (out (-1))
    else body r.2

/-- The use of a variable; `none` is one that is not assigned. -/
def assigned (x : Option α) : Card α := x.elim .fault pure

/-- The length of a transparent file. -/
def fileSize (buffer : Arr) : Card (Option ℤ) :=
  match S.type with
  | .usim => do
    let info ← parseFcpTmpl debug true false buffer
    match info with
    | none => pure none
    | some info => do
      let n ← assigned info.fileLen
      pure (some n)
  | .gsm => do
    let a ← buffer.get 3
    let b ← buffer.get 4
    pure (some (a.toNat * 256 + b.toNat))

/-- The reading of the content of a length, through `pData`. -/
def readContent (len : ℤ) (buf : Mem) (selectBack : Bool) : Card Read :=
  if ¬ E.malloc (len + 3) then leave S selectBack ⟨-1, len, buf, 0⟩
  else do
    let r ← xfer (readBinaryCmd S len) ⟨(len + 3).toNat, E.heap⟩ (len + 3)
    if r.1 < 0 then leave S selectBack ⟨-1, len, buf, 0⟩
    else
      let sw1 ← r.2.get (len + 1)
      let sw2 ← r.2.get (len + 2)
      if ¬ (sw1 = 0x90 ∧ sw2 = 0x00) then leave S selectBack ⟨-1, len, buf, 0⟩
      else
        let buf ← r.2.copyOut 1 len buf
        leave S selectBack ⟨0, len, buf, len.toNat⟩

/-- The reading of a transparent file that is described. -/
def readFile (len : ℤ) (buf : Mem) (selectBack : Bool) (buffer : Arr) : Card Read := do
  let size ← fileSize S debug buffer
  match size with
  | none => leave S selectBack ⟨-1, len, buf, 0⟩
  | some len => readContent S E len buf selectBack

/-- `usim_read_transparent` -/
def readTransparent (fileid : Word) (len : ℤ) (buf : Mem) (dirFileid : ℤ) : Card Read :=
  withDir S dirFileid (fun ret => ⟨ret, len, buf, 0⟩) fun selectBack =>
    withFile S fileid selectBack (fun ret => ⟨ret, len, buf, 0⟩) fun resp =>
      withDescription S resp selectBack (fun ret => ⟨ret, len, buf, 0⟩) (readFile S E debug len buf selectBack)

/-- The records of a linear fixed file; the division by a record size of `0` is a
fault. -/
def usimRecord (buffer : Arr) : Card (Option UsimRec) :=
  match S.type with
  | .gsm => do
    let size ← buffer.get 14
    let a ← buffer.get 2
    let b ← buffer.get 3
    if size = 0 then .fault
    else pure (some ⟨size.toNat, ((a.toNat * 256 + b.toNat) / size.toNat) % 256⟩)
  | .usim => do
    let info ← parseFcpTmpl debug false true buffer
    match info with
    | none => pure none
    | some info => do
      let record ← assigned info.record
      pure (some record)

/-- `usim_dbg(LOG_ERROR, .., buffer_rec[*len + 1], buffer_rec[*len + 2])` -/
def printRecord (bufferRec : Arr) (len : ℤ) : Card Unit :=
  if Logs debug logError then do
    let _ ← bufferRec.get (len + 1)
    let _ ← bufferRec.get (len + 2)
    pure ()
  else pure ()

/-- The loop of `usim_read_linearfixed` over the records from `i` on, through
`buffer_rec[256]`. -/
def readRecords (recLen : ℕ) (selectBack : Bool) : ℕ → ℕ → Arr → Read → Card Read
  | 0, _, _, out => leave S selectBack { out with ret := 0 }
  | left + 1, i, bufferRec, out => do
    let r ← xfer (readRecordCmd S i recLen) bufferRec (recLen + 3)
    if r.1 < 0 then leave S selectBack { out with ret := -1 }
    else
      let sw1 ← r.2.get (recLen + 1)
      let sw2 ← r.2.get (recLen + 2)
      if ¬ (sw1 = 0x90 ∧ sw2 = 0x00) then do
        let _ ← printRecord debug r.2 out.len
        leave S selectBack { out with ret := -1 }
      else
        let buf ← r.2.copyOut 1 recLen out.buf
        readRecords recLen selectBack left (i + 1) r.2 ⟨0, recLen, buf, recLen⟩

/-- The reading of the records of a linear fixed file that is described. -/
def fetchRecords (len : ℤ) (buf : Mem) (selectBack : Bool) (buffer : Arr) : Card Read := do
  let record ← usimRecord S debug buffer
  match record with
  | none => leave S selectBack ⟨-1, len, buf, 0⟩
  | some record => readRecords S debug record.len selectBack record.count 1 ⟨256, E.heap⟩ ⟨-1, len, buf, 0⟩

/-- `usim_read_linearfixed` -/
def readLinearfixed (fileid : Word) (len : ℤ) (buf : Mem) (dirFileid : ℤ) : Card Read :=
  withDir S dirFileid (fun ret => ⟨ret, len, buf, 0⟩) fun selectBack =>
    withFile S fileid selectBack (fun ret => ⟨ret, len, buf, 0⟩) fun resp =>
      withDescription S resp selectBack (fun ret => ⟨ret, len, buf, 0⟩) (fetchRecords S E debug len buf selectBack)

/-- The update of all records of a linear fixed file that is described. -/
def updateRecords (len : ℤ) (buf : Mem) (selectBack : Bool) (buffer : Arr) : Card ℤ := do
  let record ← usimRecord S debug buffer
  match record with
  | none => leave S selectBack (-1)
  | some record => writeRecords S len buf selectBack record.count 1

/-- `usim_write_linearfixed` -/
def writeLinearfixed (fileid : Word) (len : ℤ) (buf : Mem) (dirFileid : ℤ) : Card ℤ :=
  withDir S dirFileid id fun selectBack =>
    withFile S fileid selectBack id fun resp =>
      withDescription S resp selectBack id (updateRecords S debug len buf selectBack)

end Functions

/-! ### Calls -/

/-- The functions with an array of their own, and their arguments. -/
inductive Call where
  | readTransparent (fileid : Word) (len : ℤ) (buf : Mem) (dirFileid : ℤ)
  | writeTransparent (fileid : Word) (len : ℤ) (buffer : Mem) (offLow offHigh : Byte) (dirFileid : ℤ)
  | readLinearfixed (fileid : Word) (len : ℤ) (buf : Mem) (dirFileid : ℤ)
  | writeLinearfixed (fileid : Word) (len : ℤ) (buf : Mem) (dirFileid : ℤ)
  | updateRecord (id : ℕ) (len : ℤ) (buf : Mem)
  | updateBinary (len : ℤ) (buf : Mem) (offHigh offLow : Byte)
  | authenticate (len : ℕ) (buf : List Byte)

def Call.program (S : Sim) (E : Env) (debug : BitVec 32) : Call → Card Unit
  | .readTransparent fileid len buf dirFileid => do
    let _ ← Bounds.readTransparent S E debug fileid len buf dirFileid
    pure ()
  | .writeTransparent fileid len buffer offLow offHigh dirFileid => do
    let _ ← Usim.writeTransparent S E fileid len buffer offLow offHigh dirFileid
    pure ()
  | .readLinearfixed fileid len buf dirFileid => do
    let _ ← Bounds.readLinearfixed S E debug fileid len buf dirFileid
    pure ()
  | .writeLinearfixed fileid len buf dirFileid => do
    let _ ← Bounds.writeLinearfixed S debug fileid len buf dirFileid
    pure ()
  | .updateRecord id len buf => do
    let _ ← Usim.updateRecord S id len buf
    pure ()
  | .updateBinary len buf offHigh offLow => do
    let _ ← Usim.updateBinary S len buf offHigh offLow
    pure ()
  | .authenticate len buf => do
    let _ ← OnChip.authenticate S len buf
    pure ()

/-! ### What the card answers -/

section Answers

variable (S : Sim) {σ : Type} (card : σ → Apdu → σ × Resp) (s : σ) (dirFileid : ℤ) (fileid : Word)

/-- The card after the SELECT of the file, and its answer. -/
def selectAnswer : σ × Resp :=
  card (if dirFileid = 0 then s else (dirAnswer S card s dirFileid).1) (selectByIdCmd S fileid)

/-- The directory, if one is given, and the file are selected. -/
def FileSelected : Prop :=
  (dirFileid ≠ 0 → (dirAnswer S card s dirFileid).2.Selected) ∧ (selectAnswer S card s dirFileid fileid).2.Selected

/-- The length of the description. -/
def blen : ℕ := ((selectAnswer S card s dirFileid fileid).2.data 2).toNat

/-- The card after the GET RESPONSE, and its answer. -/
def descriptionAnswer : σ × Resp :=
  card (selectAnswer S card s dirFileid fileid).1 (getResponseCmd S (blen S card s dirFileid fileid))

/-- The file is selected and described. -/
def Described : Prop :=
  FileSelected S card s dirFileid fileid ∧ blen S card s dirFileid fileid ≤ 253 ∧
    0 ≤ (descriptionAnswer S card s dirFileid fileid).2.ret ∧
      (descriptionAnswer S card s dirFileid fileid).2.sw (blen S card s dirFileid fileid + 1) 0x90 0x00

/-- `buffer[256]` with the description. -/
def description : Arr :=
  (Arr.zeros 256).filled (descriptionAnswer S card s dirFileid fileid).2.data (blen S card s dirFileid fileid + 3)

end Answers

/-! ### When no access is a fault -/

section Safe

variable (S : Sim) (E : Env) (debug : BitVec 32) {σ : Type} (card : σ → Apdu → σ × Resp) (s : σ)

/-- A template of TLVs has one that gives the length. -/
def HasSize (m : Mem) : Prop :=
  m 1 = 0x62 → ∀ ts, ts ≠ [] → Fcp.Body m ts → ∃ t ∈ ts, t.tag = 0x80 ∧ (t.value.length = 1 ∨ t.value.length = 2)

/-- A template of TLVs has one that gives the records. -/
def HasRecord (m : Mem) : Prop := m 1 = 0x62 → ∀ ts, ts ≠ [] → Fcp.Body m ts → ∃ t ∈ ts, t.tag = 0x82

/-- The length of a file can be taken from the description. -/
def SizeReadable (buffer : Arr) : Prop := S.type = .usim → Readable debug true false buffer ∧ HasSize buffer.mem

/-- The records can be taken from the description. -/
def RecordReadable (buffer : Arr) : Prop :=
  match S.type with
  | .gsm => buffer.mem 14 ≠ 0
  | .usim => Readable debug false true buffer ∧ HasRecord buffer.mem

/-- The command has room for the data. -/
def DataFits (len : ℤ) : Prop := 0 ≤ len ∧ len ≤ 251

/-- When the errors are printed and the first record is answered with another
status word, the caller's length is one of a record. -/
def PrintFits (dirFileid : ℤ) (fileid : Word) (len : ℤ) (record : UsimRec) : Prop :=
  let r := (card (descriptionAnswer S card s dirFileid fileid).1 (readRecordCmd S 1 record.len)).2
  Logs debug logError → 1 ≤ record.count → record.len ≤ 253 → 0 ≤ r.ret → ¬ r.sw (record.len + 1) 0x90 0x00 →
    -1 ≤ len ∧ len ≤ 253

/-- When a call makes no access outside of its arrays. -/
def Call.Safe : Call → Prop
  | .readTransparent fileid _ _ dirFileid =>
    Described S card s dirFileid fileid → SizeReadable S debug (description S card s dirFileid fileid)
  | .writeTransparent fileid len _ _ _ dirFileid => FileSelected S card s dirFileid fileid → DataFits len
  | .readLinearfixed fileid len _ dirFileid =>
    Described S card s dirFileid fileid → RecordReadable S debug (description S card s dirFileid fileid) ∧
      ∀ record, recordInfo S E (description S card s dirFileid fileid).mem = .ok record →
        PrintFits S debug card s dirFileid fileid len record
  | .writeLinearfixed fileid len _ dirFileid =>
    Described S card s dirFileid fileid → RecordReadable S debug (description S card s dirFileid fileid) ∧
      ∀ record, recordInfo S E (description S card s dirFileid fileid).mem = .ok record → 1 ≤ record.count →
        DataFits len
  | .updateRecord _ len _ => DataFits len
  | .updateBinary len _ _ _ => DataFits len
  | .authenticate len buf => OnChip.strlen buf ≤ 34 → len ≤ 34

end Safe

/-! ### Around the work on a file -/

section Around

variable {S : Sim} {E : Env} {debug : BitVec 32} {α σ : Type} {card : σ → Apdu → σ × Resp} {s : σ}

theorem val_xfer_bind {cmd : Apdu} {a : Arr} {n : ℤ} (h0 : 0 ≤ n) (hn : n ≤ 256 → n ≤ a.size) (f : ℤ × Arr → Card α) :
    (run card (xfer cmd a n >>= f) s).val =
      if 256 < n then (run card (f (-6, a)) s).val
      else (run card (f ((card s cmd).2.ret, a.filled (card s cmd).2.data n.toNat)) (card s cmd).1).val := by
  rw [xfer]
  split
  · rfl
  · next hle =>
    have hfill : ∀ r : Resp, (do
        let resp ← a.fill r.data n
        pure (r.ret, resp) : Card (ℤ × Arr)) = pure (r.ret, a.filled r.data n.toNat) := fun r =>
      Arr.fill_bind h0 (hn (not_lt.mp hle)) _
    simp only [hfill]
    rfl

/-- A program whose file is selected goes on with the answer. -/
theorem val_of_selected {dirFileid : ℤ} {fileid : Word} (h : FileSelected S card s dirFileid fileid) (out : ℤ → α)
    (body : Bool → Resp → Card α) :
    ∃ b, (run card (withDir S dirFileid out fun b => withFile S fileid b out (body b)) s).val =
      (run card (body b (selectAnswer S card s dirFileid fileid).2) (selectAnswer S card s dirFileid fileid).1).val := by
  obtain ⟨hdir, hfile⟩ := h
  unfold selectAnswer at *
  by_cases h0 : dirFileid = 0
  · rw [if_pos h0] at *
    refine ⟨false, ?_⟩
    rw [withDir, if_neg (not_not.mpr h0), run_withFile hfile]
  · rw [if_neg h0] at *
    refine ⟨true, ?_⟩
    rw [run_withDir h0 (hdir h0), run_withFile hfile]

theorem val_withFile_of_not_selected {fileid : Word} (h : ¬ (card s (selectByIdCmd S fileid)).2.Selected) (b : Bool)
    (out : ℤ → α) (body : Resp → Card α) :
    ∃ r < 0, (run card (withFile S fileid b out body) s).val = some (out r) := by
  simp only [withFile, sendReceiveAPDU, run_query_bind]
  split
  · exact ⟨-1, by decide, val_leave b _⟩
  split
  · exact ⟨fileNotSupported, by decide, rfl⟩
  split
  · exact ⟨-1, by decide, val_leave b _⟩
  · next hret _ hacc => exact absurd ⟨not_lt.mp hret, not_not.mp hacc⟩ h

/-- A program whose file is not selected ends with an error. -/
theorem val_of_not_selected {dirFileid : ℤ} {fileid : Word} (h : ¬ FileSelected S card s dirFileid fileid)
    (out : ℤ → α) (body : Bool → Resp → Card α) :
    ∃ r < 0, (run card (withDir S dirFileid out fun b => withFile S fileid b out (body b)) s).val = some (out r) := by
  unfold FileSelected selectAnswer at h
  by_cases h0 : dirFileid = 0
  · rw [if_pos h0] at h
    rw [withDir, if_neg (not_not.mpr h0)]
    exact val_withFile_of_not_selected (fun hsel => h ⟨fun hne => absurd h0 hne, hsel⟩) false out _
  rw [if_neg h0] at h
  by_cases hdir : (dirAnswer S card s dirFileid).2.Selected
  · rw [run_withDir h0 hdir]
    exact val_withFile_of_not_selected (fun hsel => h ⟨fun _ => hdir, hsel⟩) true out _
  unfold dirAnswer Resp.Selected at hdir
  simp only [withDir, h0, ne_eq, not_false_eq_true, if_true, sendReceiveAPDU, run_query_bind]
  split
  · next hret => exact ⟨_, hret, rfl⟩
  split
  · exact ⟨fileNotSupported, by decide, rfl⟩
  split
  · exact ⟨-1, by decide, rfl⟩
  · next hret _ hacc => exact absurd ⟨not_lt.mp hret, not_not.mp hacc⟩ hdir

/-- What follows a description, which is in the buffer then. -/
theorem val_withDescription (resp : Resp) (b : Bool) (out : ℤ → α) (body : Arr → Card α) :
    (run card (withDescription S resp b out body) s).val =
      let n := (resp.data 2).toNat
      let d := card s (getResponseCmd S n)
      if n ≤ 253 ∧ 0 ≤ d.2.ret ∧ d.2.sw (n + 1) 0x90 0x00 then
        (run card (body ((Arr.zeros 256).filled d.2.data (n + 3))) d.1).val
      else some (out (-1)) := by
  dsimp only
  rw [withDescription, val_xfer_bind (by omega) (fun h => h)]
  generalize (resp.data 2).toNat = n
  by_cases hlen : n ≤ 253
  swap
  · have hneg : (-6 : ℤ) < 0 := by decide
    have hlong : (256 : ℤ) < n + 3 := by omega
    simp only [hlong, hlen, hneg, false_and, if_true, if_false, val_leave]
  have hshort : ¬ (256 : ℤ) < n + 3 := by omega
  have hsize : ((n : ℤ) + 3).toNat = n + 3 := by omega
  generalize card s (getResponseCmd S n) = d
  have h1 : ((Arr.zeros 256).filled d.2.data (n + 3)).Inside (n + 1) :=
    ⟨by omega, by rw [Arr.size_filled, Arr.size_zeros]; omega⟩
  have h2 : ((Arr.zeros 256).filled d.2.data (n + 3)).Inside (n + 2) :=
    ⟨by omega, by rw [Arr.size_filled, Arr.size_zeros]; omega⟩
  have hmem1 : ((Arr.zeros 256).filled d.2.data (n + 3)).mem (n + 1) = d.2.data (n + 1) :=
    Arr.mem_filled (by omega) (by push_cast; omega)
  have hmem2 : ((Arr.zeros 256).filled d.2.data (n + 3)).mem (n + 2) = d.2.data (n + 1 + 1) := by
    rw [add_assoc]
    exact Arr.mem_filled (by omega) (by push_cast; omega)
  simp only [hshort, if_false, hsize, hlen, true_and]
  by_cases hret : d.2.ret < 0
  · simp only [hret, not_le.mpr hret, false_and, if_true, if_false, val_leave]
  · rw [if_neg hret, Arr.get_bind h1, Arr.get_bind h2, hmem1, hmem2]
    unfold Resp.sw
    by_cases hsw : d.2.data (n + 1) = 0x90 ∧ d.2.data (n + 1 + 1) = 0x00
    · rw [if_neg (not_not.mpr hsw), if_pos ⟨not_lt.mp hret, hsw⟩]
    · rw [if_pos hsw, if_neg fun h => hsw h.2, val_leave]

/-- A program whose file is described goes on with the description. -/
theorem val_of_described {dirFileid : ℤ} {fileid : Word} (h : Described S card s dirFileid fileid) (out : ℤ → α)
    (body : Bool → Arr → Card α) :
    ∃ b, (run card (withDir S dirFileid out fun b => withFile S fileid b out fun resp =>
        withDescription S resp b out (body b)) s).val =
      (run card (body b (description S card s dirFileid fileid)) (descriptionAnswer S card s dirFileid fileid).1).val := by
  obtain ⟨hsel, hdesc⟩ := h
  obtain ⟨b, hval⟩ := val_of_selected hsel out fun b resp => withDescription S resp b out (body b)
  refine ⟨b, hval.trans ?_⟩
  rw [val_withDescription]
  exact if_pos hdesc

/-- A program whose file is not described ends with an error. -/
theorem val_of_not_described {dirFileid : ℤ} {fileid : Word} (h : ¬ Described S card s dirFileid fileid)
    (out : ℤ → α) (body : Bool → Arr → Card α) :
    ∃ r < 0, (run card (withDir S dirFileid out fun b => withFile S fileid b out fun resp =>
      withDescription S resp b out (body b)) s).val = some (out r) := by
  by_cases hsel : FileSelected S card s dirFileid fileid
  · obtain ⟨b, hval⟩ := val_of_selected hsel out fun b resp => withDescription S resp b out (body b)
    refine ⟨-1, by decide, hval.trans ?_⟩
    rw [val_withDescription]
    exact if_neg fun hdesc => h ⟨hsel, hdesc⟩
  · exact val_of_not_selected hsel out _

/-- A program over a file returns if it does with the description that it gets, if any. -/
theorem described_returns_iff {dirFileid : ℤ} {fileid : Word} (out : ℤ → α) (body : Bool → Arr → Card α) {P : Prop}
    (hbody : ∀ b, (run card (body b (description S card s dirFileid fileid))
      (descriptionAnswer S card s dirFileid fileid).1).val ≠ none ↔ P) :
    (run card (withDir S dirFileid out fun b => withFile S fileid b out fun resp =>
        withDescription S resp b out (body b)) s).val ≠ none ↔ (Described S card s dirFileid fileid → P) := by
  by_cases hd : Described S card s dirFileid fileid
  · obtain ⟨b, hval⟩ := val_of_described hd out body
    rw [hval, hbody b]
    exact (imp_iff_right hd).symm
  · obtain ⟨r, -, hval⟩ := val_of_not_described hd out body
    rw [hval]
    exact iff_of_true (by simp) fun h => absurd h hd

/-- A description is long enough for the fields at fixed places. -/
theorem description_size (dirFileid : ℤ) (fileid : Word) : 15 ≤ (description S card s dirFileid fileid).size :=
  Nat.le_of_ble_eq_true rfl

end Around

/-! ### What the description gives -/

section Description

variable {S : Sim} {debug : BitVec 32} {buffer : Arr}

theorem fileSize?_ne_none_iff {t : La12xx.Tlv} :
    Fcp.fileSize? t ≠ none ↔ t.tag = 0x80 ∧ (t.value.length = 1 ∨ t.value.length = 2) := by
  constructor
  · intro h
    by_cases htag : t.tag = 0x80
    · refine ⟨htag, ?_⟩
      by_contra hlen
      rw [not_or] at hlen
      exact h (Fcp.fileSize?_eq_none hlen.1 hlen.2)
    · exact absurd (if_neg htag) h
  · rintro ⟨htag, hlen⟩
    obtain ⟨tag, value, hlt⟩ := t
    rw [Fcp.fileSize?, if_pos htag]
    rcases hlen with hlen | hlen
    · obtain ⟨a, rfl⟩ := List.length_eq_one_iff.mp hlen
      simp
    · obtain ⟨a, b, rfl⟩ := List.length_eq_two.mp hlen
      simp

theorem fileSize?_nonneg {t : La12xx.Tlv} {n : ℤ} (h : Fcp.fileSize? t = some n) : 0 ≤ n := by
  rw [Fcp.fileSize?] at h
  split at h
  · split at h
    · obtain rfl := Option.some.inj h
      omega
    · obtain rfl := Option.some.inj h
      omega
    · simp at h
  · simp at h

theorem lastOf_eq_none_iff {β : Type} {f : La12xx.Tlv → Option β} {ts : List La12xx.Tlv} :
    Fcp.lastOf f ts = none ↔ ∀ t ∈ ts, f t = none := by
  rw [Fcp.lastOf, List.findSome?_eq_none_iff]
  simp only [List.mem_reverse]

/-- The length is taken from the description without a fault. -/
theorem fileSize_of_readable (hsize : 15 ≤ buffer.size) (h : SizeReadable S debug buffer) :
    ∃ r, fileSize S debug buffer = pure r ∧ (∀ n, r = some n → 0 ≤ n) ∧ ∀ E, r = transparentLen S E buffer.mem := by
  unfold fileSize transparentLen
  cases hS : S.type with
  | gsm =>
    have h3 : buffer.Inside 3 := ⟨by decide, by omega⟩
    have h4 : buffer.Inside 4 := ⟨by decide, by omega⟩
    refine ⟨_, (Arr.get_bind h3 _).trans (Arr.get_bind h4 _), fun n hn => ?_, fun E => rfl⟩
    obtain rfl := Option.some.inj hn
    omega
  | usim =>
    obtain ⟨hread, hhas⟩ := h hS
    obtain ⟨r, hr, hq⟩ := parseFcpTmpl_of_readable (by omega) hread
    cases r with
    | none =>
      refine ⟨none, by rw [hr]; rfl, by simp, fun E => ?_⟩
      rw [parseFcpTmpl_of_not_body]
      · rfl
      · rintro ⟨htag, ts, hne, hbody⟩
        exact absurd ((hq _).mpr ⟨htag, ts, hne, hbody, rfl⟩) (by simp)
    | some q =>
      obtain ⟨htag, ts, hne, hbody, rfl⟩ := (hq q).mp rfl
      have hlen := @fileLen_assignAll_eq false _ _ hbody
      have hsome : Fcp.lastOf Fcp.fileSize? ts ≠ none := by
        obtain ⟨t, ht, hgives⟩ := hhas htag ts hne hbody
        intro hnone
        exact fileSize?_ne_none_iff.mpr hgives (lastOf_eq_none_iff.mp hnone t ht)
      obtain ⟨n, hn⟩ := Option.ne_none_iff_exists'.mp hsome
      rw [hn] at hlen
      refine ⟨some n, ?_, ?_, fun E => ?_⟩
      · rw [hr]
        show (assigned (assignAll true false buffer.mem 3 ts ⟨none, none⟩).fileLen >>= _) = _
        rw [hlen]
        rfl
      · rintro _ ⟨⟩
        obtain ⟨t, -, ht⟩ := List.exists_of_findSome?_eq_some hn
        exact fileSize?_nonneg ht
      · obtain ⟨info, hinfo, hfile, -⟩ :=
          @parseFcpTmpl_of_body true false _ _ htag hne hbody E.uninit
        rw [hlen] at hfile
        rw [hinfo, Option.map_some, hfile, Option.getD_some]

/-- Otherwise there is one. -/
theorem fileSize_of_not_readable (hsize : 15 ≤ buffer.size) (h : ¬ SizeReadable S debug buffer) :
    fileSize S debug buffer = .fault := by
  obtain ⟨hS, h⟩ := Classical.not_imp.mp h
  rw [fileSize, hS]
  by_cases hread : Readable debug true false buffer
  · obtain ⟨r, hr, hq⟩ := parseFcpTmpl_of_readable (by omega) hread
    have hhas : ¬ HasSize buffer.mem := fun hhas => h ⟨hread, hhas⟩
    unfold HasSize at hhas
    push Not at hhas
    obtain ⟨htag, ts, hne, hbody, hnone⟩ := hhas
    have hlen := @fileLen_assignAll_eq false _ _ hbody
    have hlast : Fcp.lastOf Fcp.fileSize? ts = none := lastOf_eq_none_iff.mpr fun t ht => by
      by_contra hgives
      obtain ⟨htag', hlen'⟩ := fileSize?_ne_none_iff.mp hgives
      have := hnone t ht htag'
      omega
    rw [hlast] at hlen
    rw [hr, (hq _).mpr ⟨htag, ts, hne, hbody, rfl⟩]
    show (assigned (assignAll true false buffer.mem 3 ts ⟨none, none⟩).fileLen >>= _) = _
    rw [hlen]
    rfl
  · rw [parseFcpTmpl_of_not_readable (by omega) hread]
    rfl

/-- The records are taken from the description without a fault. -/
theorem usimRecord_of_readable (hsize : 15 ≤ buffer.size) (h : RecordReadable S debug buffer) :
    ∃ r, usimRecord S debug buffer = pure r ∧ ∀ E, recordInfo S E buffer.mem = r.elim .bad .ok := by
  unfold usimRecord recordInfo
  unfold RecordReadable at h
  cases hS : S.type with
  | gsm =>
    simp only [hS] at h
    have h14 : buffer.Inside 14 := ⟨by decide, by omega⟩
    have h2 : buffer.Inside 2 := ⟨by decide, by omega⟩
    have h3 : buffer.Inside 3 := ⟨by decide, by omega⟩
    refine ⟨some ⟨(buffer.mem 14).toNat,
      (((buffer.mem 2).toNat * 256 + (buffer.mem 3).toNat) / (buffer.mem 14).toNat) % 256⟩, ?_, fun E => if_neg h⟩
    show (buffer.get 14 >>= fun size => buffer.get 2 >>= fun a => buffer.get 3 >>= fun b => _) = _
    rw [Arr.get_bind h14, Arr.get_bind h2, Arr.get_bind h3, if_neg h]
  | usim =>
    simp only [hS] at h
    obtain ⟨hread, hhas⟩ := h
    obtain ⟨r, hr, hq⟩ := parseFcpTmpl_of_readable (by omega) hread
    cases r with
    | none =>
      refine ⟨none, by rw [hr]; rfl, fun E => ?_⟩
      rw [parseFcpTmpl_of_not_body]
      · rfl
      · rintro ⟨htag, ts, hne, hbody⟩
        exact absurd ((hq _).mpr ⟨htag, ts, hne, hbody, rfl⟩) (by simp)
    | some q =>
      obtain ⟨htag, ts, hne, hbody, rfl⟩ := (hq q).mp rfl
      have hsome : (assignAll false true buffer.mem 3 ts ⟨none, none⟩).record ≠ none := by
        obtain ⟨t, ht, hdesc⟩ := hhas htag ts hne hbody
        intro hnone
        exact ((record_assignAll_eq_none_iff ts _ (fill_iff_body.mpr hbody)).mp hnone).2 t ht hdesc
      obtain ⟨record, hrec⟩ := Option.ne_none_iff_exists'.mp hsome
      refine ⟨some record, ?_, fun E => ?_⟩
      · rw [hr]
        show (assigned (assignAll false true buffer.mem 3 ts ⟨none, none⟩).record >>= _) = _
        rw [hrec]
        rfl
      · obtain ⟨info, hinfo, -, hfile⟩ :=
          @parseFcpTmpl_of_body false true _ _ htag hne hbody E.uninit
        rw [hrec] at hfile
        simp only [hinfo, hfile]
        rfl

/-- Otherwise there is one. -/
theorem usimRecord_of_not_readable (hsize : 15 ≤ buffer.size) (h : ¬ RecordReadable S debug buffer) :
    usimRecord S debug buffer = .fault := by
  unfold RecordReadable at h
  unfold usimRecord
  cases hS : S.type with
  | gsm =>
    simp only [hS] at h
    have h14 : buffer.Inside 14 := ⟨by decide, by omega⟩
    have h2 : buffer.Inside 2 := ⟨by decide, by omega⟩
    have h3 : buffer.Inside 3 := ⟨by decide, by omega⟩
    show (buffer.get 14 >>= fun size => buffer.get 2 >>= fun a => buffer.get 3 >>= fun b => _) = _
    rw [Arr.get_bind h14, Arr.get_bind h2, Arr.get_bind h3, if_pos (not_not.mp h)]
  | usim =>
    simp only [hS] at h
    by_cases hread : Readable debug false true buffer
    · obtain ⟨r, hr, hq⟩ := parseFcpTmpl_of_readable (by omega) hread
      have hhas : ¬ HasRecord buffer.mem := fun hhas => h ⟨hread, hhas⟩
      unfold HasRecord at hhas
      push Not at hhas
      obtain ⟨htag, ts, hne, hbody, hnone⟩ := hhas
      have hrec : (assignAll false true buffer.mem 3 ts ⟨none, none⟩).record = none :=
        (record_assignAll_eq_none_iff ts _ (fill_iff_body.mpr hbody)).mpr ⟨rfl, hnone⟩
      rw [hr, (hq _).mpr ⟨htag, ts, hne, hbody, rfl⟩]
      show (assigned (assignAll false true buffer.mem 3 ts ⟨none, none⟩).record >>= _) = _
      rw [hrec]
      rfl
    · rw [parseFcpTmpl_of_not_readable (by omega) hread]
      rfl

/-- A program that takes the records from the description returns if they can be taken and
it does with them. -/
theorem usimRecord_bind_returns_iff {E : Env} {α σ : Type} {card : σ → Apdu → σ × Resp} {s : σ}
    (hsize : 15 ≤ buffer.size) {f : Option UsimRec → Card α} {P : UsimRec → Prop}
    (hnone : (run card (f none) s).val ≠ none) (hsome : ∀ record, (run card (f (some record)) s).val ≠ none ↔ P record) :
    (run card (usimRecord S debug buffer >>= f) s).val ≠ none ↔
      RecordReadable S debug buffer ∧ ∀ record, recordInfo S E buffer.mem = .ok record → P record := by
  by_cases hread : RecordReadable S debug buffer
  · obtain ⟨r, hr, hinfo⟩ := usimRecord_of_readable hsize hread
    rw [hr, Dialogue.pure_bind, hinfo E, and_iff_right hread]
    cases r with
    | none => exact iff_of_true hnone fun record h => RecordInfo.noConfusion h
    | some record => simp only [hsome, Option.elim_some, RecordInfo.ok.injEq, forall_eq']
  · rw [usimRecord_of_not_readable hsize hread, fault_bind]
    exact iff_of_false (fun h => h rfl) fun h => hread h.1

end Description

/-! ### The content and the records -/

section Content

variable {S : Sim} {E : Env} {debug : BitVec 32} {σ : Type} {card : σ → Apdu → σ × Resp} {s : σ}

theorem copy_filled (buf : Mem) (a : Arr) (src : Mem) (n : ℕ) :
    copy buf 0 (a.filled src (n + 3)).mem 1 n = copy buf 0 src 1 n := by
  funext p
  unfold copy
  split
  · exact Arr.mem_filled (by omega) (by push_cast; omega)
  · rfl

/-- An answer to a command that reads `n` bytes, in the array. -/
theorem status_filled {a : Arr} {n : ℕ} (hn : n + 3 ≤ a.size) (src : Mem) :
    (a.filled src (n + 3)).Inside (n + 1) ∧ (a.filled src (n + 3)).Inside (n + 2) ∧
      (a.filled src (n + 3)).mem (n + 1) = src (n + 1) ∧ (a.filled src (n + 3)).mem (n + 2) = src (n + 1 + 1) := by
  have hsize : (a.filled src (n + 3)).size = a.size := Arr.size_filled a src (n + 3)
  refine ⟨⟨by omega, by omega⟩, ⟨by omega, by omega⟩, Arr.mem_filled (by omega) (by push_cast; omega), ?_⟩
  rw [add_assoc]
  exact Arr.mem_filled (by omega) (by push_cast; omega)

/-- The content is read, or an error is returned. -/
theorem val_readContent (n : ℕ) (buf : Mem) (b : Bool) :
    (run card (readContent S E n buf b) s).val =
      let r := (card s (readBinaryCmd S n)).2
      if E.malloc (n + 3) ∧ n ≤ 253 ∧ 0 ≤ r.ret ∧ r.sw (n + 1) 0x90 0x00 then some ⟨0, n, copy buf 0 r.data 1 n, n⟩
      else some ⟨-1, n, buf, 0⟩ := by
  have hneg : (-6 : ℤ) < 0 := by decide
  have hsize : ((n : ℤ) + 3).toNat = n + 3 := by omega
  dsimp only
  rw [readContent]
  by_cases hm : E.malloc (n + 3) = true
  swap
  · rw [if_pos hm, if_neg fun h => hm h.1, val_leave]
  rw [if_neg (not_not.mpr hm), val_xfer_bind (by omega) fun _ => by dsimp only; omega]
  by_cases hlen : n ≤ 253
  swap
  · have hlong : (256 : ℤ) < n + 3 := by omega
    simp only [hlong, hlen, hneg, false_and, and_false, if_true, if_false, val_leave]
  have hshort : ¬ (256 : ℤ) < n + 3 := by omega
  obtain ⟨h1, h2, hmem1, hmem2⟩ := status_filled (a := ⟨n + 3, E.heap⟩) (n := n) le_rfl (card s (readBinaryCmd S n)).2.data
  generalize card s (readBinaryCmd S n) = d at *
  simp only [hshort, if_false, hsize, hlen, hm, true_and]
  by_cases hret : d.2.ret < 0
  · simp only [hret, not_le.mpr hret, false_and, if_true, if_false, val_leave]
  rw [if_neg hret, Arr.get_bind h1, Arr.get_bind h2, hmem1, hmem2]
  unfold Resp.sw
  by_cases hsw : d.2.data (n + 1) = 0x90 ∧ d.2.data (n + 1 + 1) = 0x00
  · rw [if_neg (not_not.mpr hsw), if_pos ⟨not_lt.mp hret, hsw⟩,
      Arr.copyOut_bind (by omega) (by decide) (by rw [Arr.size_filled]; push_cast; omega), val_leave, Int.toNat_natCast,
      copy_filled]
  · rw [if_pos hsw, if_neg fun h => hsw h.2, val_leave]

/-- The print is a fault when the caller's length is past the array. -/
theorem printRecord_bind {a : Arr} (ha : a.size = 256) (len : ℤ) {α : Type} (f : Unit → Card α) :
    (printRecord debug a len >>= f) = if Logs debug logError → -1 ≤ len ∧ len ≤ 253 then f () else .fault := by
  have hpure : ((pure () : Card Unit) >>= f) = f () := Dialogue.pure_bind () f
  rw [printRecord]
  by_cases hlog : Logs debug logError
  · rw [if_pos hlog]
    by_cases hlen : -1 ≤ len ∧ len ≤ 253
    · have h1 : a.Inside (len + 1) := ⟨by omega, by omega⟩
      have h2 : a.Inside (len + 2) := ⟨by omega, by omega⟩
      rw [Arr.get_bind h1, Arr.get_bind h2, hpure, if_pos fun _ => hlen]
    · rw [if_neg fun h => hlen (h hlog)]
      by_cases h1 : a.Inside (len + 1)
      · have h2 : ¬ a.Inside (len + 2) := fun h2 => hlen ⟨by have := h1.1; omega, by have := h2.2; omega⟩
        rw [Arr.get_bind h1, Arr.get_bind_of_not h2, fault_bind]
      · rw [Arr.get_bind_of_not h1, fault_bind]
  · rw [if_neg hlog, hpure, if_pos fun h => absurd h hlog]

/-- One record is read, or an error is returned, after the print. -/
theorem val_readRecords_succ {recLen : ℕ} {a : Arr} (ha : a.size = 256) (b : Bool) (left i : ℕ) (out : Read) :
    (run card (readRecords S debug recLen b (left + 1) i a out) s).val =
      let d := card s (readRecordCmd S i recLen)
      if recLen ≤ 253 ∧ 0 ≤ d.2.ret then
        if d.2.sw (recLen + 1) 0x90 0x00 then
          (run card (readRecords S debug recLen b left (i + 1) (a.filled d.2.data (recLen + 3))
            ⟨0, recLen, copy out.buf 0 d.2.data 1 recLen, recLen⟩) d.1).val
        else if Logs debug logError → -1 ≤ out.len ∧ out.len ≤ 253 then some { out with ret := -1 }
        else none
      else some { out with ret := -1 } := by
  have hneg : (-6 : ℤ) < 0 := by decide
  have hsize : ((recLen : ℤ) + 3).toNat = recLen + 3 := by omega
  dsimp only
  rw [readRecords, val_xfer_bind (by omega) fun h => by rw [ha]; exact h]
  by_cases hlen : recLen ≤ 253
  swap
  · have hlong : (256 : ℤ) < recLen + 3 := by omega
    simp only [hlong, hlen, hneg, false_and, if_true, if_false, val_leave]
  have hshort : ¬ (256 : ℤ) < recLen + 3 := by omega
  obtain ⟨h1, h2, hmem1, hmem2⟩ :=
    status_filled (a := a) (n := recLen) (by omega) (card s (readRecordCmd S i recLen)).2.data
  generalize card s (readRecordCmd S i recLen) = d at *
  simp only [hshort, if_false, hsize, hlen, true_and]
  by_cases hret : d.2.ret < 0
  · simp only [hret, not_le.mpr hret, if_true, if_false, val_leave]
  rw [if_neg hret, if_pos (not_lt.mp hret), Arr.get_bind h1, Arr.get_bind h2, hmem1, hmem2]
  have hiff : d.2.sw (recLen + 1) 0x90 0x00 ↔ d.2.data (recLen + 1) = 0x90 ∧ d.2.data (recLen + 1 + 1) = 0x00 := Iff.rfl
  by_cases hsw : d.2.sw (recLen + 1) 0x90 0x00
  · rw [if_pos hsw, if_neg (not_not.mpr (hiff.mp hsw)),
      Arr.copyOut_bind (by omega) (by decide) (by rw [Arr.size_filled]; omega), Int.toNat_natCast, copy_filled]
  · rw [if_neg hsw, if_pos (hiff.not.mp hsw), printRecord_bind (by rw [Arr.size_filled]; exact ha)]
    split
    · exact val_leave b _
    · rfl

end Content

/-! ### Which calls return -/

section Returns

variable {S : Sim} {E : Env} {debug : BitVec 32} {σ : Type} {card : σ → Apdu → σ × Resp} {s : σ}

/-- A program whose value is dropped. -/
theorem val_drop_iff {α : Type} {m : Card α} :
    (run card (do let _ ← m; pure () : Card Unit) s).val ≠ none ↔ (run card m s).val ≠ none := by
  rw [run_bind_pure, ne_eq, Option.map_eq_none_iff]

theorem readTransparent_returns_iff (fileid : Word) (len : ℤ) (buf : Mem) (dirFileid : ℤ) :
    (run card (readTransparent S E debug fileid len buf dirFileid) s).val ≠ none ↔
      (Described S card s dirFileid fileid → SizeReadable S debug (description S card s dirFileid fileid)) := by
  rw [readTransparent]
  apply described_returns_iff
  intro b
  rw [readFile]
  by_cases hread : SizeReadable S debug (description S card s dirFileid fileid)
  · obtain ⟨r, hr, h0, -⟩ := fileSize_of_readable (description_size dirFileid fileid) hread
    refine iff_of_true ?_ hread
    rw [hr, Dialogue.pure_bind]
    cases r with
    | none => simp
    | some n =>
      obtain ⟨n, rfl⟩ := Int.eq_ofNat_of_zero_le (h0 n rfl)
      show (run card (readContent S E n buf b) _).val ≠ none
      rw [val_readContent]
      dsimp only
      split <;> simp
  · rw [fileSize_of_not_readable (description_size dirFileid fileid) hread, fault_bind]
    exact iff_of_false (fun h => h rfl) hread

/-- The rounds of the loop whose length is one of a record return. -/
theorem readRecords_returns {recLen : ℕ} (b : Bool) (left : ℕ) : ∀ (i : ℕ) (a : Arr) (out : Read) (s : σ), a.size = 256 →
    -1 ≤ out.len → out.len ≤ 253 → (run card (readRecords S debug recLen b left i a out) s).val ≠ none := by
  induction left with
  | zero =>
    intro i a out s _ _ _
    rw [readRecords, val_leave]
    simp
  | succ left ih =>
    intro i a out s ha h1 h253
    rw [val_readRecords_succ ha]
    dsimp only
    split
    · next h =>
      split
      · exact ih _ _ _ _ (by rw [Arr.size_filled]; exact ha) (by dsimp only; omega) (by dsimp only; omega)
      · rw [if_pos fun _ => ⟨h1, h253⟩]
        simp
    · simp

/-- The first round returns unless it prints past the array, and then they all do. -/
theorem fetch_returns_iff {dirFileid : ℤ} {fileid : Word} (b : Bool) (len : ℤ) (buf : Mem) (record : UsimRec) :
    (run card (readRecords S debug record.len b record.count 1 ⟨256, E.heap⟩ ⟨-1, len, buf, 0⟩)
      (descriptionAnswer S card s dirFileid fileid).1).val ≠ none ↔
      PrintFits S debug card s dirFileid fileid len record := by
  have hstart : (⟨256, E.heap⟩ : Arr).size = 256 := rfl
  unfold PrintFits
  dsimp only
  cases hcount : record.count with
  | zero =>
    rw [readRecords, val_leave]
    exact iff_of_true (by simp) fun _ h => absurd h (by decide)
  | succ left =>
    rw [val_readRecords_succ hstart]
    dsimp only
    split
    · next h =>
      split
      · next hsw =>
        refine iff_of_true ?_ fun _ _ _ _ h => absurd hsw h
        exact readRecords_returns b left _ _ _ _ (by rw [Arr.size_filled]) (by dsimp only; omega) (by dsimp only; omega)
      · next hsw =>
        split
        · next hlen => exact iff_of_true (by simp) fun hlog _ _ _ _ => hlen hlog
        · next hlen =>
          have hcount : 1 ≤ left + 1 := Nat.le_add_left 1 left
          exact iff_of_false (fun hval => hval rfl) fun hp => hlen fun hlog => hp hlog hcount h.1 h.2 hsw
    · next h => exact iff_of_true (by simp) fun _ _ h253 h0 => absurd ⟨h253, h0⟩ h

theorem readLinearfixed_returns_iff (fileid : Word) (len : ℤ) (buf : Mem) (dirFileid : ℤ) :
    (run card (readLinearfixed S E debug fileid len buf dirFileid) s).val ≠ none ↔
      (Described S card s dirFileid fileid → RecordReadable S debug (description S card s dirFileid fileid) ∧
        ∀ record, recordInfo S E (description S card s dirFileid fileid).mem = .ok record →
          PrintFits S debug card s dirFileid fileid len record) := by
  rw [readLinearfixed]
  apply described_returns_iff
  intro b
  rw [fetchRecords]
  apply usimRecord_bind_returns_iff (description_size dirFileid fileid)
  · simp
  · exact fetch_returns_iff b len buf

theorem commandData_of_fits {buf : Mem} {len : ℤ} (hlen : DataFits len) :
    commandData buf len = pure (bytes buf 0 len.toNat) := if_pos hlen

theorem commandData_of_not_fits {buf : Mem} {len : ℤ} (hlen : ¬ DataFits len) : commandData buf len = .fault :=
  if_neg hlen

/-- An update that fits goes on with the answer. -/
theorem val_updateRecord_bind {id : ℕ} {len : ℤ} {buf : Mem} {α : Type} (hlen : DataFits len) (f : Resp → Card α) :
    (run card (updateRecord S id len buf >>= f) s).val =
      let d := card s (updateRecordCmd S id (bytes buf 0 len.toNat))
      (run card (f d.2) d.1).val := by
  have hcmd : updateRecord S id len buf = sendReceiveAPDU (updateRecordCmd S id (bytes buf 0 len.toNat)) := by
    rw [updateRecord, commandData_of_fits hlen, Dialogue.pure_bind]
  rw [hcmd, sendReceiveAPDU, run_query_bind]

theorem updateRecord_of_not_fits {id : ℕ} {len : ℤ} {buf : Mem} (hlen : ¬ DataFits len) :
    updateRecord S id len buf = .fault := by
  rw [updateRecord, commandData_of_not_fits hlen, fault_bind]

theorem val_updateBinary_bind {len : ℤ} {buf : Mem} {offHigh offLow : Byte} {α : Type} (hlen : DataFits len)
    (f : Resp → Card α) :
    (run card (updateBinary S len buf offHigh offLow >>= f) s).val =
      let d := card s (updateBinaryCmd S offHigh offLow (bytes buf 0 len.toNat))
      (run card (f d.2) d.1).val := by
  have hcmd : updateBinary S len buf offHigh offLow =
      sendReceiveAPDU (updateBinaryCmd S offHigh offLow (bytes buf 0 len.toNat)) := by
    rw [updateBinary, commandData_of_fits hlen, Dialogue.pure_bind]
  rw [hcmd, sendReceiveAPDU, run_query_bind]

theorem updateBinary_of_not_fits {len : ℤ} {buf : Mem} {offHigh offLow : Byte} (hlen : ¬ DataFits len) :
    updateBinary S len buf offHigh offLow = .fault := by
  rw [updateBinary, commandData_of_not_fits hlen, fault_bind]

theorem updateRecord_returns_iff (id : ℕ) (len : ℤ) (buf : Mem) :
    (run card (updateRecord S id len buf) s).val ≠ none ↔ DataFits len := by
  by_cases hlen : DataFits len
  · rw [updateRecord, commandData_of_fits hlen, Dialogue.pure_bind]
    exact iff_of_true (by simp [sendReceiveAPDU]) hlen
  · rw [updateRecord_of_not_fits hlen]
    exact iff_of_false (fun h => h rfl) hlen

theorem updateBinary_returns_iff (len : ℤ) (buf : Mem) (offHigh offLow : Byte) :
    (run card (updateBinary S len buf offHigh offLow) s).val ≠ none ↔ DataFits len := by
  by_cases hlen : DataFits len
  · rw [updateBinary, commandData_of_fits hlen, Dialogue.pure_bind]
    exact iff_of_true (by simp [sendReceiveAPDU]) hlen
  · rw [updateBinary_of_not_fits hlen]
    exact iff_of_false (fun h => h rfl) hlen

theorem authenticate_returns_iff (len : ℕ) (buf : List Byte) :
    (run card (OnChip.authenticate S len buf) s).val ≠ none ↔ (OnChip.strlen buf ≤ 34 → len ≤ 34) := by
  rw [OnChip.authenticate]
  by_cases hstr : OnChip.strlen buf > 34
  · rw [if_pos hstr]
    exact iff_of_true (by simp) fun h => absurd h (by omega)
  rw [if_neg hstr]
  by_cases hlen : len ≤ 34
  · rw [if_pos hlen]
    exact iff_of_true (by simp [sendReceiveAPDU]) fun _ => hlen
  · rw [if_neg hlen]
    exact iff_of_false (fun h => h rfl) fun h => hlen (h (by omega))

/-- Whether the first update fits decides about all of them. -/
theorem writeRecords_returns_iff {len : ℤ} {buf : Mem} (b : Bool) (left : ℕ) : ∀ (i : ℕ) (s : σ),
    (run card (writeRecords S len buf b left i) s).val ≠ none ↔ (1 ≤ left → DataFits len) := by
  induction left with
  | zero =>
    intro i s
    rw [writeRecords, val_leave]
    exact iff_of_true (by simp) fun h => absurd h (by decide)
  | succ left ih =>
    intro i s
    have hone : 1 ≤ left + 1 := Nat.le_add_left 1 left
    rw [writeRecords]
    by_cases hlen : DataFits len
    swap
    · rw [updateRecord_of_not_fits hlen, fault_bind]
      exact iff_of_false (fun h => h rfl) fun h => hlen (h hone)
    rw [val_updateRecord_bind hlen]
    refine iff_of_true ?_ fun _ => hlen
    dsimp only
    split
    · simp
    split
    · simp
    · exact (ih _ _).mpr fun _ => hlen

theorem writeLinearfixed_returns_iff (fileid : Word) (len : ℤ) (buf : Mem) (dirFileid : ℤ) :
    (run card (writeLinearfixed S debug fileid len buf dirFileid) s).val ≠ none ↔
      (Described S card s dirFileid fileid → RecordReadable S debug (description S card s dirFileid fileid) ∧
        ∀ record, recordInfo S E (description S card s dirFileid fileid).mem = .ok record → 1 ≤ record.count →
          DataFits len) := by
  rw [writeLinearfixed]
  apply described_returns_iff
  intro b
  rw [updateRecords]
  apply usimRecord_bind_returns_iff (description_size dirFileid fileid)
  · simp
  · exact fun record => writeRecords_returns_iff b record.count 1 _

/-- The update of a transparent file returns when the data fits. -/
theorem updateFile_returns_iff (len : ℤ) (buffer : Mem) (offLow offHigh : Byte) (b : Bool) :
    (run card (updateFile S E len buffer offLow offHigh b) s).val ≠ none ↔ DataFits len := by
  rw [updateFile]
  by_cases hlen : DataFits len
  swap
  · rw [updateBinary_of_not_fits hlen, fault_bind]
    exact iff_of_false (fun h => h rfl) hlen
  refine iff_of_true ?_ hlen
  rw [val_updateBinary_bind hlen]
  dsimp only
  split
  · simp
  split
  · cases E.adminPin with
    | none => simp
    | some pin =>
      dsimp only
      rw [sendReceiveAPDU, run_query_bind]
      dsimp only
      split
      · simp
      rw [val_updateBinary_bind hlen]
      dsimp only
      split
      · simp
      split <;> simp
  · split <;> simp

theorem writeTransparent_returns_iff (fileid : Word) (len : ℤ) (buffer : Mem) (offLow offHigh : Byte) (dirFileid : ℤ) :
    (run card (writeTransparent S E fileid len buffer offLow offHigh dirFileid) s).val ≠ none ↔
      (FileSelected S card s dirFileid fileid → DataFits len) := by
  rw [writeTransparent]
  by_cases hsel : FileSelected S card s dirFileid fileid
  · obtain ⟨b, hval⟩ := val_of_selected hsel id fun b _ => updateFile S E len buffer offLow offHigh b
    rw [hval, updateFile_returns_iff]
    simp only [hsel, forall_const]
  · obtain ⟨r, -, hval⟩ := val_of_not_selected hsel id fun b _ => updateFile S E len buffer offLow offHigh b
    rw [hval]
    exact iff_of_true (by simp) fun h => absurd h hsel

end Returns

/-! ### All calls -/

/-- A call returns, with every access inside, exactly when it is safe. -/
theorem no_fault_iff (S : Sim) (E : Env) (debug : BitVec 32) {σ : Type} (card : σ → Apdu → σ × Resp) (s : σ) (c : Call) :
    (run card (c.program S E debug) s).val ≠ none ↔ c.Safe S E debug card s := by
  cases c with
  | readTransparent fileid len buf dirFileid =>
    exact val_drop_iff.trans (readTransparent_returns_iff fileid len buf dirFileid)
  | writeTransparent fileid len buffer offLow offHigh dirFileid =>
    exact val_drop_iff.trans (writeTransparent_returns_iff fileid len buffer offLow offHigh dirFileid)
  | readLinearfixed fileid len buf dirFileid =>
    exact val_drop_iff.trans (readLinearfixed_returns_iff fileid len buf dirFileid)
  | writeLinearfixed fileid len buf dirFileid =>
    exact val_drop_iff.trans (writeLinearfixed_returns_iff fileid len buf dirFileid)
  | updateRecord id len buf => exact val_drop_iff.trans (updateRecord_returns_iff id len buf)
  | updateBinary len buf offHigh offLow => exact val_drop_iff.trans (updateBinary_returns_iff len buf offHigh offLow)
  | authenticate len buf => exact val_drop_iff.trans (authenticate_returns_iff len buf)

/-- A card whose template announces 255 bytes, of which the first TLV takes 252. -/
def longTemplateCard (s : Unit) (q : Apdu) : Unit × Resp :=
  (s, ⟨0, ofList (if q.getD 1 0 = 0xa4 then [0x00, 0x61, 0x04] else [0xc0, 0x62, 0xff, 0x8a, 0xfa, 0x90, 0x00])⟩)

/-- The next TLV begins at `buffer[255]`; its length is read behind the buffer. -/
theorem length_read_behind_buffer :
    (run longTemplateCard (Call.program fiveByteAid plainEnv 0 (.readTransparent 0x6f07 0 (fun _ => 0) 0)) ()).val =
      none := by
  decide +kernel

end Bounds
end Usim
end La12xx
