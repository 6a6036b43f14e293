/-
# The selected directory

Every function of the library that works on a file outside the application
first selects the directory of the file, and selects the application again when
it is done; later calls without a directory rely on it. The module follows the
directory a card has selected through any sequence of calls, for any card.

One exit of the four functions does not select back: a file that is not found
(`withFile`). The main theorem says that this is the only one, and that runs
that do not take it leave the application selected.
-/
import La12xx.Lib.Machine
import La12xx.Usim.Apdu

namespace La12xx
namespace Usim

open ByteMem Dialogue

/-! ### Calls -/

/-- A call of one of the four functions. -/
inductive Call where
  | writeTransparent (fileid : Word) (len : ℤ) (buffer : Mem) (offLow offHigh : Byte) (dirFileid : ℤ)
  | readTransparent (fileid : Word) (len : ℤ) (buf : Mem) (dirFileid : ℤ)
  | writeLinearfixed (fileid : Word) (len : ℤ) (buf : Mem) (dirFileid : ℤ)
  | readLinearfixed (fileid : Word) (len : ℤ) (buf : Mem) (dirFileid : ℤ)

/-- The file of the call. -/
def Call.fileid : Call → Word
  | .writeTransparent fileid .. => fileid
  | .readTransparent fileid .. => fileid
  | .writeLinearfixed fileid .. => fileid
  | .readLinearfixed fileid .. => fileid

/-- The directory of the file, `0` for none. -/
def Call.dirFileid : Call → ℤ
  | .writeTransparent _ _ _ _ _ dirFileid => dirFileid
  | .readTransparent _ _ _ dirFileid => dirFileid
  | .writeLinearfixed _ _ _ dirFileid => dirFileid
  | .readLinearfixed _ _ _ dirFileid => dirFileid

/-- The call as a program; its value is the return value. -/
def Call.program (S : Sim) (E : Env) : Call → Card ℤ
  | .writeTransparent fileid len buffer offLow offHigh dirFileid =>
    Usim.writeTransparent S E fileid len buffer offLow offHigh dirFileid
  | .readTransparent fileid len buf dirFileid => do
    let out ← Usim.readTransparent S E fileid len buf dirFileid
    pure out.ret
  | .writeLinearfixed fileid len buf dirFileid => Usim.writeLinearfixed S E fileid len buf dirFileid
  | .readLinearfixed fileid len buf dirFileid => do
    let out ← Usim.readLinearfixed S E fileid len buf dirFileid
    pure out.ret

/-! ### Every way out of the work on a file selects back -/

section EndsWith

variable (S : Sim) (E : Env)

theorem leave_endsWith {α : Type} (a : α) : EndsWith (reselectCmd S) (leave S true a) :=
  endsWith_last (reselectCmd S) a

theorem updateBinary_endsWith {α : Type} {q : Apdu} {f : Resp → Card α} (len : ℤ) (buf : Mem)
    (offHigh offLow : Byte) (hf : ∀ r, EndsWith q (f r)) :
    EndsWith q (updateBinary S len buf offHigh offLow >>= f) := by
  unfold updateBinary commandData
  split
  · exact endsWith_query_bind _ hf
  · exact trivial

theorem updateRecord_endsWith {α : Type} {q : Apdu} {f : Resp → Card α} (i : ℕ) (len : ℤ) (buf : Mem)
    (hf : ∀ r, EndsWith q (f r)) : EndsWith q (updateRecord S i len buf >>= f) := by
  unfold updateRecord commandData
  split
  · exact endsWith_query_bind _ hf
  · exact trivial

theorem withDescription_endsWith {α : Type} {out : ℤ → α} {body : Mem → Card α} (resp : Resp)
    (hbody : ∀ buffer, EndsWith (reselectCmd S) (body buffer)) :
    EndsWith (reselectCmd S) (withDescription S resp true out body) := by
  apply endsWith_query_bind
  intro r
  split
  · exact leave_endsWith S _
  · split
    · exact leave_endsWith S _
    · exact hbody _

theorem updateFile_endsWith (len : ℤ) (buffer : Mem) (offLow offHigh : Byte) :
    EndsWith (reselectCmd S) (updateFile S E len buffer offLow offHigh true) := by
  apply updateBinary_endsWith
  intro resp
  split
  · exact leave_endsWith S _
  split
  · cases E.adminPin with
    | none => exact leave_endsWith S _
    | some pin =>
      apply endsWith_query_bind
      intro resp
      split
      · exact leave_endsWith S _
      apply updateBinary_endsWith
      intro resp
      split
      · exact leave_endsWith S _
      split <;> exact leave_endsWith S _
  · split <;> exact leave_endsWith S _

theorem readFile_endsWith (resp : Resp) (len : ℤ) (buf : Mem) :
    EndsWith (reselectCmd S) (readFile S E resp len buf true) := by
  apply withDescription_endsWith
  intro buffer
  cases transparentLen S E buffer with
  | none => exact leave_endsWith S _
  | some len =>
    show EndsWith _ (if ¬ E.malloc (len + 3) then _ else _)
    split
    · exact leave_endsWith S _
    apply endsWith_query_bind
    intro r
    split
    · exact leave_endsWith S _
    split
    · exact leave_endsWith S _
    unfold copyOut
    split
    · exact leave_endsWith S _
    · exact trivial

theorem writeRecords_endsWith (len : ℤ) (buf : Mem) :
    ∀ left i, EndsWith (reselectCmd S) (writeRecords S len buf true left i)
  | 0, _ => leave_endsWith S _
  | left + 1, i => by
    apply updateRecord_endsWith
    intro resp
    split
    · exact leave_endsWith S _
    split
    · exact leave_endsWith S _
    · exact writeRecords_endsWith len buf left (i + 1)

theorem updateRecords_endsWith (resp : Resp) (len : ℤ) (buf : Mem) :
    EndsWith (reselectCmd S) (updateRecords S E resp len buf true) := by
  apply withDescription_endsWith
  intro buffer
  cases recordInfo S E buffer with
  | ok record => exact writeRecords_endsWith S len buf record.count 1
  | bad => exact leave_endsWith S _
  | divZero => exact trivial

theorem readRecords_endsWith (recLen : ℕ) :
    ∀ left i len buf, EndsWith (reselectCmd S) (readRecords S recLen true left i len buf)
  | 0, _, _, _ => leave_endsWith S _
  | left + 1, i, len, buf => by
    apply endsWith_query_bind
    intro r
    split
    · exact leave_endsWith S _
    split
    · exact leave_endsWith S _
    · exact readRecords_endsWith recLen left (i + 1) _ _

theorem fetchRecords_endsWith (resp : Resp) (len : ℤ) (buf : Mem) :
    EndsWith (reselectCmd S) (fetchRecords S E resp len buf true) := by
  apply withDescription_endsWith
  intro buffer
  cases recordInfo S E buffer with
  | ok record => exact readRecords_endsWith S record.len record.count 1 len buf
  | bad => exact leave_endsWith S _
  | divZero => exact trivial

end EndsWith

/-! ### The last command of a call -/

/-- The answer to a SELECT that was sent and accepted. -/
def Resp.Selected (r : Resp) : Prop := 0 ≤ r.ret ∧ r.Accepted

instance (r : Resp) : Decidable r.Selected := inferInstanceAs (Decidable (_ ∧ _))

theorem not_notFound_of_accepted {r : Resp} (h : r.Accepted) : ¬ r.NotFound := by
  intro hnf
  have h6a : r.data 1 = 0x6a := hnf.1
  rcases h with ⟨h90, -⟩ | h61 | h9f
  · exact absurd (h90.symm.trans h6a) (by decide)
  · exact absurd (h61.symm.trans h6a) (by decide)
  · exact absurd (h9f.symm.trans h6a) (by decide)

/-- A word is its two bytes. -/
theorem word_split (w : Word) : w.extractLsb' 8 8 ++ w.extractLsb' 0 8 = w := by
  apply BitVec.eq_of_getLsbD_eq
  intro i hi
  rw [BitVec.getLsbD_append, BitVec.getLsbD_extractLsb', BitVec.getLsbD_extractLsb']
  by_cases h : i < 8
  · simp [h]
  · have h8 : i - 8 < 8 := by omega
    have h16 : 8 + (i - 8) = i := by omega
    simp [h, h8, h16]

theorem selectByIdCmd_eq_reselectCmd_iff (S : Sim) (fileid : Word) :
    selectByIdCmd S fileid = reselectCmd S ↔ S.type = .gsm ∧ fileid = S.dirFileid := by
  unfold reselectCmd
  cases hS : S.type with
  | usim => simp [selectByIdCmd, selectByAidCmd]
  | gsm =>
    simp only [true_and]
    constructor
    · intro h
      simp only [selectByIdCmd, List.cons.injEq, and_true, true_and] at h
      rw [← word_split fileid, ← word_split S.dirFileid, h.1, h.2]
    · intro h
      rw [h]

section Last

variable (S : Sim) {α σ : Type} (card : σ → Apdu → σ × Resp) (s : σ)

/-- The card after the SELECT of the directory, and its answer. -/
def dirAnswer (dirFileid : ℤ) : σ × Resp := card s (selectByIdCmd S (BitVec.ofInt 16 dirFileid))

/-- The card after the SELECT of the file that follows, and its answer. -/
def fileAnswer (dirFileid : ℤ) (fileid : Word) : σ × Resp :=
  card (dirAnswer S card s dirFileid).1 (selectByIdCmd S fileid)

/-- When the last command selects the application again: the file was found,
or its SELECT is the same command. -/
def SelectsBack (dirFileid : ℤ) (fileid : Word) : Prop :=
  ¬ (0 ≤ (fileAnswer S card s dirFileid fileid).2.ret ∧ (fileAnswer S card s dirFileid fileid).2.NotFound) ∨
    (S.type = .gsm ∧ fileid = S.dirFileid)

variable {S card s}

/-- The run of a program whose directory was accepted. -/
theorem run_withDir {dirFileid : ℤ} (hdir : dirFileid ≠ 0) (hsel : (dirAnswer S card s dirFileid).2.Selected)
    (out : ℤ → α) (body : Bool → Card α) :
    run card (withDir S dirFileid out body) s =
      let o := run card (body true) (dirAnswer S card s dirFileid).1
      ⟨o.state, (selectByIdCmd S (BitVec.ofInt 16 dirFileid), (dirAnswer S card s dirFileid).2) :: o.log,
        o.val⟩ := by
  obtain ⟨hret, hacc⟩ := hsel
  have hnf := not_notFound_of_accepted hacc
  unfold dirAnswer at *
  simp only [withDir, hdir, ne_eq, not_false_eq_true, if_true, sendReceiveAPDU, run_query_bind]
  simp only [not_lt.mpr hret, hnf, hacc, if_false, not_true]

/-- The last command of a program that ends its work by selecting back. -/
theorem last_reselects_iff {dirFileid : ℤ} (hdir : dirFileid ≠ 0)
    (hsel : (dirAnswer S card s dirFileid).2.Selected) (fileid : Word) (out : ℤ → α)
    (body : Bool → Resp → Card α) (hbody : ∀ resp, EndsWith (reselectCmd S) (body true resp))
    (hval : (run card (withDir S dirFileid out fun b => withFile S fileid b out (body b)) s).val ≠ none) :
    (run card (withDir S dirFileid out fun b => withFile S fileid b out (body b)) s).log.getLast?.map Prod.fst =
        some (reselectCmd S) ↔
      SelectsBack S card s dirFileid fileid := by
  rw [run_withDir hdir hsel] at hval ⊢
  simp only [withFile, sendReceiveAPDU, run_query_bind] at hval ⊢
  unfold SelectsBack
  rw [← selectByIdCmd_eq_reselectCmd_iff]
  simp only [fileAnswer]
  set answer := card (dirAnswer S card s dirFileid).1 (selectByIdCmd S fileid)
  -- the two SELECTs come first; what follows decides the last command
  have hlast : ∀ m : Card α, EndsWith (reselectCmd S) m → (run card m answer.1).val ≠ none → ∀ e e',
      (e :: e' :: (run card m answer.1).log).getLast?.map Prod.fst = some (reselectCmd S) := by
    intro m hm hv e e'
    have h := getLast_of_endsWith card hm answer.1 hv
    have hne : (run card m answer.1).log ≠ [] := by
      intro hnil
      simp [hnil] at h
    rwa [List.getLast?_cons_of_ne_nil (List.cons_ne_nil _ _), List.getLast?_cons_of_ne_nil hne]
  by_cases hret : answer.2.ret < 0
  · simp only [hret, if_true] at hval ⊢
    exact iff_of_true (hlast _ (leave_endsWith S _) hval _ _) (.inl fun h => by omega)
  · by_cases hnf : answer.2.NotFound
    · -- nothing is sent any more
      have h0 : 0 ≤ answer.2.ret := by omega
      simp [hret, hnf, h0]
    · by_cases hacc : answer.2.Accepted
      · simp only [hret, hnf, hacc, if_false, not_true] at hval ⊢
        exact iff_of_true (hlast _ (hbody _) hval _ _) (.inl fun h => h.2)
      · simp only [hret, hnf, hacc, if_false, not_false_eq_true, if_true] at hval ⊢
        exact iff_of_true (hlast _ (leave_endsWith S _) hval _ _) (.inl fun h => h.2)

/-- The last command of a call. -/
theorem Call.last_reselects_iff (c : Call) (E : Env) (hdir : c.dirFileid ≠ 0)
    (hsel : (dirAnswer S card s c.dirFileid).2.Selected) (hval : (run card (c.program S E) s).val ≠ none) :
    (run card (c.program S E) s).log.getLast?.map Prod.fst = some (reselectCmd S) ↔
      SelectsBack S card s c.dirFileid c.fileid := by
  cases c with
  | writeTransparent fileid len buffer offLow offHigh dirFileid =>
    simp only [Call.program, Call.dirFileid, Call.fileid, Usim.writeTransparent] at *
    exact Usim.last_reselects_iff hdir hsel fileid id (fun b _ => updateFile S E len buffer offLow offHigh b)
      (fun _ => updateFile_endsWith S E _ _ _ _) hval
  | readTransparent fileid len buf dirFileid =>
    simp only [Call.program, Call.dirFileid, Call.fileid, Usim.readTransparent, run_bind_pure, ne_eq,
      Option.map_eq_none_iff] at *
    exact Usim.last_reselects_iff hdir hsel fileid _ (fun b resp => readFile S E resp len buf b)
      (fun resp => readFile_endsWith S E resp _ _) hval
  | writeLinearfixed fileid len buf dirFileid =>
    simp only [Call.program, Call.dirFileid, Call.fileid, Usim.writeLinearfixed] at *
    exact Usim.last_reselects_iff hdir hsel fileid id (fun b resp => updateRecords S E resp len buf b)
      (fun resp => updateRecords_endsWith S E resp _ _) hval
  | readLinearfixed fileid len buf dirFileid =>
    simp only [Call.program, Call.dirFileid, Call.fileid, Usim.readLinearfixed, run_bind_pure, ne_eq,
      Option.map_eq_none_iff] at *
    exact Usim.last_reselects_iff hdir hsel fileid _ (fun b resp => fetchRecords S E resp len buf b)
      (fun resp => fetchRecords_endsWith S E resp _ _) hval

end Last

/-! ### The directory a card has selected -/

/-- A directory of the card: by its file id, or an application by its AID. -/
inductive Dir where
  | file (id : Word)
  | app (aid : List Byte)
deriving DecidableEq, Repr

/-- The directory of the application. -/
def appDir (S : Sim) : Dir :=
  match S.type with
  | .gsm => .file S.dirFileid
  | .usim => .app S.aid

/-- What an exchange does to the selected directory: an accepted SELECT of an
AID or of the id of a directory changes it. `isDir` tells the ids of
directories from those of files. -/
def afterExchange (isDir : Word → Bool) (d : Dir) (e : Apdu × Resp) : Dir :=
  if e.1.getD 1 0 = 0xa4 ∧ e.2.Selected then
    if e.1.getD 2 0 = 0x04 then .app (e.1.drop 5)
    else if isDir (e.1.getD 5 0 ++ e.1.getD 6 0) then .file (e.1.getD 5 0 ++ e.1.getD 6 0)
    else d
  else d

/-- The directory that is selected after the exchanges. -/
def dirAfter (isDir : Word → Bool) (d : Dir) (log : List (Apdu × Resp)) : Dir :=
  log.foldl (afterExchange isDir) d

/-- The command leaves the directory as it is. -/
def KeepsDir (isDir : Word → Bool) (q : Apdu) : Prop := ∀ d r, afterExchange isDir d (q, r) = d

section Directory

variable {isDir : Word → Bool}

theorem keepsDir_of_ins {q : Apdu} (h : q.getD 1 0 ≠ 0xa4) : KeepsDir isDir q := by
  intro d r
  rw [afterExchange, if_neg]
  exact fun hc => h hc.1

theorem keepsDir_selectById (S : Sim) {fileid : Word} (h : ¬ isDir fileid) :
    KeepsDir isDir (selectByIdCmd S fileid) := by
  intro d r
  have hid : (selectByIdCmd S fileid).getD 5 0 ++ (selectByIdCmd S fileid).getD 6 0 = fileid :=
    word_split fileid
  have h04 : (selectByIdCmd S fileid).getD 2 0 ≠ 0x04 := by simp [selectByIdCmd]
  unfold afterExchange
  rw [hid, if_neg h04, if_neg h, ite_self]

/-- Selecting the application, when it succeeds. -/
theorem afterExchange_reselect (S : Sim) (hgsm : S.type = .gsm → isDir S.dirFileid) (d : Dir) {r : Resp}
    (h : r.Selected) : afterExchange isDir d (reselectCmd S, r) = appDir S := by
  unfold reselectCmd appDir
  cases hS : S.type with
  | gsm =>
    have hid : (selectByIdCmd S S.dirFileid).getD 5 0 ++ (selectByIdCmd S S.dirFileid).getD 6 0 = S.dirFileid :=
      word_split S.dirFileid
    have h04 : (selectByIdCmd S S.dirFileid).getD 2 0 ≠ 0x04 := by simp [selectByIdCmd]
    simp only [afterExchange]
    rw [hid, if_pos ⟨rfl, h⟩, if_neg h04, if_pos (hgsm hS)]
  | usim =>
    have h04 : (selectByAidCmd S).getD 2 0 = 0x04 := rfl
    simp only [afterExchange]
    rw [if_pos ⟨rfl, h⟩, if_pos h04]
    rfl

theorem dirAfter_of_keeps : ∀ {log : List (Apdu × Resp)}, (∀ e ∈ log, KeepsDir isDir e.1) →
    ∀ d, dirAfter isDir d log = d
  | [], _, _ => rfl
  | e :: log, h, d => by
    have he : afterExchange isDir d e = d := h e List.mem_cons_self d e.2
    show dirAfter isDir (afterExchange isDir d e) log = d
    rw [he]
    exact dirAfter_of_keeps (fun e' he' => h e' (List.mem_cons_of_mem _ he')) d

/-- After a last exchange that selects the application, it is selected. -/
theorem dirAfter_of_getLast (S : Sim) (hgsm : S.type = .gsm → isDir S.dirFileid) {log : List (Apdu × Resp)}
    {r : Resp} (hlast : log.getLast? = some (reselectCmd S, r)) (hr : r.Selected) (d : Dir) :
    dirAfter isDir d log = appDir S := by
  obtain ⟨init, rfl⟩ := List.getLast?_eq_some_iff.mp hlast
  rw [dirAfter, List.foldl_append]
  exact afterExchange_reselect S hgsm _ hr

end Directory

/-! ### A call inside the application -/

section Inside

variable (S : Sim) (E : Env) {P : Apdu → Prop} (hP : ∀ q : Apdu, q.getD 1 0 ≠ 0xa4 → P q)
include hP

theorem updateBinary_asks (len : ℤ) (buf : Mem) (offHigh offLow : Byte) :
    Asks P (updateBinary S len buf offHigh offLow) := by
  unfold updateBinary commandData
  split
  · exact asks_query (hP _ (by simp [updateBinaryCmd]))
  · exact trivial

theorem updateRecord_asks (i : ℕ) (len : ℤ) (buf : Mem) : Asks P (updateRecord S i len buf) := by
  unfold updateRecord commandData
  split
  · exact asks_query (hP _ (by simp [updateRecordCmd]))
  · exact trivial

theorem withDescription_asks {α : Type} {out : ℤ → α} {body : Mem → Card α} (resp : Resp)
    (hbody : ∀ buffer, Asks P (body buffer)) : Asks P (withDescription S resp false out body) := by
  apply asks_bind (asks_query (hP _ (by simp [getResponseCmd])))
  intro r
  split
  · exact trivial
  · split
    · exact trivial
    · exact hbody _

theorem updateFile_asks (len : ℤ) (buffer : Mem) (offLow offHigh : Byte) :
    Asks P (updateFile S E len buffer offLow offHigh false) := by
  apply asks_bind (updateBinary_asks S hP ..)
  intro resp
  split
  · exact trivial
  split
  · cases E.adminPin with
    | none => exact trivial
    | some pin =>
      apply asks_bind (asks_query (hP _ (by simp [adminVerifyCmd])))
      intro resp
      split
      · exact trivial
      apply asks_bind (updateBinary_asks S hP ..)
      intro resp
      split
      · exact trivial
      split <;> exact trivial
  · split <;> exact trivial

theorem readFile_asks (resp : Resp) (len : ℤ) (buf : Mem) : Asks P (readFile S E resp len buf false) := by
  apply withDescription_asks S hP
  intro buffer
  cases transparentLen S E buffer with
  | none => exact trivial
  | some len =>
    show Asks P (if ¬ E.malloc (len + 3) then _ else _)
    split
    · exact trivial
    apply asks_bind (asks_query (hP _ (by simp [readBinaryCmd])))
    intro r
    split
    · exact trivial
    split
    · exact trivial
    unfold copyOut
    split <;> exact trivial

theorem writeRecords_asks (len : ℤ) (buf : Mem) : ∀ left i, Asks P (writeRecords S len buf false left i)
  | 0, _ => trivial
  | left + 1, i => by
    apply asks_bind (updateRecord_asks S hP ..)
    intro resp
    split
    · exact trivial
    split
    · exact trivial
    · exact writeRecords_asks len buf left (i + 1)

theorem updateRecords_asks (resp : Resp) (len : ℤ) (buf : Mem) :
    Asks P (updateRecords S E resp len buf false) := by
  apply withDescription_asks S hP
  intro buffer
  cases recordInfo S E buffer with
  | ok record => exact writeRecords_asks S hP len buf record.count 1
  | bad => exact trivial
  | divZero => exact trivial

theorem readRecords_asks (recLen : ℕ) :
    ∀ left i len buf, Asks P (readRecords S recLen false left i len buf)
  | 0, _, _, _ => trivial
  | left + 1, i, len, buf => by
    apply asks_bind (asks_query (hP _ (by simp [readRecordCmd])))
    intro r
    split
    · exact trivial
    split
    · exact trivial
    · exact readRecords_asks recLen left (i + 1) _ _

theorem fetchRecords_asks (resp : Resp) (len : ℤ) (buf : Mem) :
    Asks P (fetchRecords S E resp len buf false) := by
  apply withDescription_asks S hP
  intro buffer
  cases recordInfo S E buffer with
  | ok record => exact readRecords_asks S hP record.len record.count 1 len buf
  | bad => exact trivial
  | divZero => exact trivial

omit hP in
theorem withFile_asks {α : Type} {out : ℤ → α} {body : Resp → Card α} {fileid : Word}
    (hfile : P (selectByIdCmd S fileid)) (hbody : ∀ resp, Asks P (body resp)) :
    Asks P (withFile S fileid false out body) := by
  apply asks_bind (asks_query hfile)
  intro resp
  split
  · exact trivial
  split
  · exact trivial
  split
  · exact trivial
  · exact hbody _

/-- A call without a directory selects its file and nothing else. -/
theorem Call.program_asks (c : Call) (h0 : c.dirFileid = 0) (hfile : P (selectByIdCmd S c.fileid)) :
    Asks P (c.program S E) := by
  cases c with
  | writeTransparent fileid len buffer offLow offHigh dirFileid =>
    simp only [Call.dirFileid] at h0
    simp only [Call.program, Usim.writeTransparent, withDir, h0, ne_eq, not_true, if_false]
    exact withFile_asks S hfile fun _ => updateFile_asks S E hP ..
  | readTransparent fileid len buf dirFileid =>
    simp only [Call.dirFileid] at h0
    simp only [Call.program, Usim.readTransparent, withDir, h0, ne_eq, not_true, if_false]
    exact asks_bind (withFile_asks S hfile fun _ => readFile_asks S E hP ..) fun _ => trivial
  | writeLinearfixed fileid len buf dirFileid =>
    simp only [Call.dirFileid] at h0
    simp only [Call.program, Usim.writeLinearfixed, withDir, h0, ne_eq, not_true, if_false]
    exact withFile_asks S hfile fun _ => updateRecords_asks S E hP ..
  | readLinearfixed fileid len buf dirFileid =>
    simp only [Call.dirFileid] at h0
    simp only [Call.program, Usim.readLinearfixed, withDir, h0, ne_eq, not_true, if_false]
    exact asks_bind (withFile_asks S hfile fun _ => fetchRecords_asks S E hP ..) fun _ => trivial

end Inside

/-! ### Sessions -/

section Session

variable (S : Sim) (isDir : Word → Bool) {σ : Type} (card : σ → Apdu → σ × Resp)

/-- A call, as a step of the card and of the directory it has selected. -/
def session (x : σ × Dir) (ce : Call × Env) : (σ × Dir) × Option ℤ :=
  let o := run card (ce.1.program S ce.2) x.1
  ((o.state, dirAfter isDir x.2 o.log), o.val)

/-- What a call must meet: it returns; without a directory its file is no
directory; with one that is accepted the file is found, and selecting the
application again succeeds. -/
structure Restoring (x : σ × Dir) (ce : Call × Env) : Prop where
  returns : (run card (ce.1.program S ce.2) x.1).val ≠ none
  file : ce.1.dirFileid = 0 → ¬ isDir ce.1.fileid
  found : ce.1.dirFileid ≠ 0 → (dirAnswer S card x.1 ce.1.dirFileid).2.Selected →
    SelectsBack S card x.1 ce.1.dirFileid ce.1.fileid
  reselected : ce.1.dirFileid ≠ 0 → (dirAnswer S card x.1 ce.1.dirFileid).2.Selected →
    ∀ e ∈ (run card (ce.1.program S ce.2) x.1).log.getLast?, e.1 = reselectCmd S → e.2.Selected

variable {S isDir card}

/-- A program whose directory is refused ends there. -/
theorem log_withDir_of_refused {α : Type} {dirFileid : ℤ} {s : σ} (hdir : dirFileid ≠ 0)
    (hsel : ¬ (dirAnswer S card s dirFileid).2.Selected) (out : ℤ → α) (body : Bool → Card α) :
    (run card (withDir S dirFileid out body) s).log =
      [(selectByIdCmd S (BitVec.ofInt 16 dirFileid), (dirAnswer S card s dirFileid).2)] := by
  unfold dirAnswer Resp.Selected at *
  simp only [withDir, hdir, ne_eq, not_false_eq_true, if_true, sendReceiveAPDU, run_query_bind]
  split
  · rfl
  split
  · rfl
  split
  · rfl
  · next hret _ hacc => exact absurd ⟨not_lt.mp hret, not_not.mp hacc⟩ hsel

theorem Call.log_of_refused (c : Call) (E : Env) {s : σ} (hdir : c.dirFileid ≠ 0)
    (hsel : ¬ (dirAnswer S card s c.dirFileid).2.Selected) :
    (run card (c.program S E) s).log =
      [(selectByIdCmd S (BitVec.ofInt 16 c.dirFileid), (dirAnswer S card s c.dirFileid).2)] := by
  cases c with
  | writeTransparent =>
    simp only [Call.program, Usim.writeTransparent]
    exact log_withDir_of_refused hdir hsel _ _
  | readTransparent =>
    simp only [Call.program, run_bind_pure]
    exact log_withDir_of_refused hdir hsel _ _
  | writeLinearfixed =>
    simp only [Call.program, Usim.writeLinearfixed]
    exact log_withDir_of_refused hdir hsel _ _
  | readLinearfixed =>
    simp only [Call.program, run_bind_pure]
    exact log_withDir_of_refused hdir hsel _ _

/-- One call keeps the application selected. -/
theorem session_keeps (hgsm : S.type = .gsm → isDir S.dirFileid) (x : σ × Dir) (ce : Call × Env)
    (hx : x.2 = appDir S) (h : Restoring S isDir card x ce) :
    (session S isDir card x ce).1.2 = appDir S := by
  obtain ⟨c, E⟩ := ce
  show dirAfter isDir x.2 (run card (c.program S E) x.1).log = appDir S
  rw [hx]
  by_cases h0 : c.dirFileid = 0
  · have hasks : Asks (KeepsDir isDir) (c.program S E) :=
      c.program_asks S E (fun q hq => keepsDir_of_ins hq) h0 (keepsDir_selectById S (h.file h0))
    exact dirAfter_of_keeps (log_of_asks card hasks x.1) _
  · by_cases hsel : (dirAnswer S card x.1 c.dirFileid).2.Selected
    · have hlast := (c.last_reselects_iff E h0 hsel h.returns).mpr (h.found h0 hsel)
      obtain ⟨⟨q, r⟩, hr, rfl⟩ := Option.map_eq_some_iff.mp hlast
      exact dirAfter_of_getLast S hgsm hr (h.reselected h0 hsel _ hr rfl) _
    · rw [c.log_of_refused E h0 hsel]
      show afterExchange isDir _ _ = _
      rw [afterExchange, if_neg fun hc => hsel hc.2]

end Session

/-- **The application is selected after every call.** For any card, a call
whose directory is accepted ends with the command that selects the application
exactly when its file is found (or is the application's own directory); and a
sequence of calls that do so, and whose commands succeed, leaves the
application selected. -/
theorem application_selected (S : Sim) (isDir : Word → Bool) (hgsm : S.type = .gsm → isDir S.dirFileid)
    {σ : Type} (card : σ → Apdu → σ × Resp) :
    (∀ (c : Call) (E : Env) (s : σ), c.dirFileid ≠ 0 → (dirAnswer S card s c.dirFileid).2.Selected →
      (run card (c.program S E) s).val ≠ none →
      ((run card (c.program S E) s).log.getLast?.map Prod.fst = some (reselectCmd S) ↔
        SelectsBack S card s c.dirFileid c.fileid)) ∧
    ∀ (s : σ) (cs : List (Call × Env)),
      Machine.Guarded (session S isDir card) (Restoring S isDir card) (s, appDir S) cs →
      (Machine.exec (session S isDir card) (s, appDir S) cs).2 = appDir S := by
  refine ⟨fun c E s => c.last_reselects_iff E, fun s cs hg => ?_⟩
  exact Machine.exec_inv_of_guarded (I := fun x : σ × Dir => x.2 = appDir S) (session_keeps hgsm) cs rfl hg

/-- A USIM with an application of five bytes. -/
def fiveByteAid : Sim := ⟨.usim, 0, [0xa0, 0x00, 0x00, 0x00, 0x87], Nat.le_of_ble_eq_true rfl⟩

/-- Memory for every call, and no PIN. -/
def plainEnv : Env := ⟨fun _ => true, fun _ => 0, ⟨0, ⟨0, 0⟩⟩, none⟩

/-- A transfer that leaves a status word. -/
def statusResp (sw1 sw2 : Byte) : Resp := ⟨0, ofList [0x00, sw1, sw2]⟩

/-- The ids of directories: `3FXX`, `5FXX` and `7FXX`. -/
def isDirId (id : Word) : Bool := id.extractLsb' 8 8 ∈ [0x3f#8, 0x5f#8, 0x7f#8]

/-- A write that the card accepts, command by command. -/
theorem application_selected_written :
    let card : Unit → Apdu → Unit × Resp := fun _ _ => ((), statusResp 0x90 0x00)
    let c : Call := .writeTransparent 0x4f06 2 (ofList [1, 2]) 0 0 0x5fc0
    (run card (c.program fiveByteAid plainEnv) ()).log.getLast?.map Prod.fst = some (reselectCmd fiveByteAid) ∧
      (Machine.exec (session fiveByteAid isDirId card) ((), appDir fiveByteAid) [(c, plainEnv), (c, plainEnv)]).2 =
        appDir fiveByteAid := by
  intro card c
  have hback : SelectsBack fiveByteAid card () c.dirFileid c.fileid := .inl (by decide)
  have hval : (run card (c.program fiveByteAid plainEnv) ()).val ≠ none := by decide
  have hall : ∀ e ∈ (run card (c.program fiveByteAid plainEnv) ()).log, e.2.Selected := by decide
  have hr : ∀ d, Restoring fiveByteAid isDirId card ((), d) (c, plainEnv) := fun d =>
    ⟨hval, fun h0 => absurd h0 (by decide), fun _ _ => hback,
      fun _ _ e he _ => hall e (List.mem_of_getLast? he)⟩
  obtain ⟨hone, hmany⟩ := application_selected fiveByteAid isDirId (by decide) card
  exact ⟨(hone c plainEnv () (by decide) (by decide) hval).mpr hback,
    hmany () _ ⟨hr _, hr _, trivial⟩⟩

/-- A card that accepts the directory and does not find the file is left in
the directory. -/
theorem directory_left_selected :
    let card : ℕ → Apdu → ℕ × Resp := fun n _ =>
      (n + 1, if n = 0 then statusResp 0x90 0x00 else statusResp 0x6a 0x82)
    let c : Call := .readTransparent 0x4f05 0 (ofList []) 0x5fc0
    let o := run card (c.program fiveByteAid plainEnv) 0
    (dirAnswer fiveByteAid card 0 c.dirFileid).2.Selected ∧ o.val = some (-2) ∧
      o.log.getLast?.map Prod.fst ≠ some (reselectCmd fiveByteAid) ∧
      dirAfter isDirId (appDir fiveByteAid) o.log = .file 0x5fc0 := by
  refine ⟨?_, ?_, ?_, ?_⟩ <;> decide

end Usim
end La12xx
