/-
# A write that succeeds

Which of the writing functions report `0` only when the card has taken the
data. A card may answer anything, and any transfer may fail. Where the function
goes through `usim_write_transparent` or `usim_write_linearfixed` and returns
what these return, its `0` can be trusted. `vtq_usim_write_nas_auth_keys`
returns `0` always, and the two functions for the forbidden PLMNs take one
status byte that is right for a status that is right.
-/
import La12xx.Usim.AuthKeys
import La12xx.Usim.Fplmn
import La12xx.Usim.SecCtx

namespace La12xx
namespace Usim

open ByteMem Dialogue

/-! ### The updates of a log -/

/-- UPDATE BINARY and UPDATE RECORD. -/
def isUpdate (q : Apdu) : Bool := q.getD 1 0 = 0xd6 ∨ q.getD 1 0 = 0xdc

def updates (log : List (Apdu × Resp)) : List (Apdu × Resp) := log.filter fun e => isUpdate e.1

/-- The update was transmitted and taken. -/
def Resp.Done (r : Resp) : Prop := 0 ≤ r.ret ∧ r.Updated

instance (r : Resp) : Decidable r.Done := inferInstanceAs (Decidable (_ ∧ _))

/-- The one update of the log was done; before that it may have been denied
until the PIN was verified. -/
def Written (cmd : Apdu) (log : List (Apdu × Resp)) : Prop :=
  ∃ r, r.Done ∧ (updates log = [(cmd, r)] ∨ ∃ r₀, r₀.Denied ∧ updates log = [(cmd, r₀), (cmd, r)])

/-- The updates of the log are those of all records of the file as the card
describes it, and all were done. -/
def RecordsWritten (S : Sim) (E : Env) (data : List Byte) (log : List (Apdu × Resp)) : Prop :=
  ∃ record, (∃ e ∈ log, e.1.getD 1 0 = 0xc0 ∧ recordInfo S E e.2.data = .ok record) ∧
    (updates log).map Prod.fst = (List.range' 1 record.count).map (fun i => updateRecordCmd S i data) ∧
    ∀ e ∈ updates log, e.2.Done

section Updates

variable {S : Sim} {log log' : List (Apdu × Resp)} {q : Apdu} {r : Resp}

@[simp] theorem updates_nil : updates [] = [] := rfl

theorem updates_append : updates (log ++ log') = updates log ++ updates log' := List.filter_append log log'

@[simp] theorem updates_cons_of_update (h : isUpdate q) : updates ((q, r) :: log) = (q, r) :: updates log :=
  List.filter_cons_of_pos h

@[simp] theorem updates_cons_of_other (h : isUpdate q = false) : updates ((q, r) :: log) = updates log :=
  List.filter_cons_of_neg (by simp [h])

theorem updates_of_asks {σ α : Type} {card : σ → Apdu → σ × Resp} {m : Card α}
    (h : Asks (fun q => isUpdate q = false) m) (s : σ) : updates (run card m s).log = [] := by
  apply List.filter_eq_nil_iff.mpr
  intro e he
  simp [log_of_asks card h s e he]

@[simp] theorem isUpdate_updateRecordCmd (i : ℕ) (data : List Byte) : isUpdate (updateRecordCmd S i data) = true := rfl

@[simp] theorem isUpdate_selectByIdCmd (fileid : Word) : isUpdate (selectByIdCmd S fileid) = false := rfl

@[simp] theorem isUpdate_getResponseCmd (len : ℤ) : isUpdate (getResponseCmd S len) = false := rfl

@[simp] theorem isUpdate_readBinaryCmd (len : ℤ) : isUpdate (readBinaryCmd S len) = false := rfl

@[simp] theorem isUpdate_readRecordCmd (i : ℕ) (len : ℤ) : isUpdate (readRecordCmd S i len) = false := rfl

@[simp] theorem isUpdate_reselectCmd : isUpdate (reselectCmd S) = false := by
  unfold reselectCmd
  cases S.type <;> rfl

end Updates

/-! ### The way to the file -/

section Inversion

variable {S : Sim} {α σ : Type} {card : σ → Apdu → σ × Resp} {s : σ} {out : ℤ → α} {a : α}

@[simp] theorem val_leave (b : Bool) (a : α) : (run card (leave S b a) s).val = some a := by
  cases b <;> rfl

@[simp] theorem updates_leave (b : Bool) (a : α) : updates (run card (leave S b a) s).log = [] := by
  cases b
  · rfl
  · exact updates_cons_of_other isUpdate_reselectCmd

/-- A function that ends with another value than an error has found its
directory. -/
theorem selected_of_withDir {dirFileid : ℤ} {body : Bool → Card α} (hdir : dirFileid ≠ 0) (hout : ∀ ret < 0, out ret ≠ a)
    (h : (run card (withDir S dirFileid out body) s).val = some a) : (dirAnswer S card s dirFileid).2.Selected := by
  unfold dirAnswer
  simp only [withDir, hdir, ne_eq, not_false_eq_true, if_true, sendReceiveAPDU, run_query_bind] at h
  split at h
  · next hret => exact absurd (Option.some.inj h) (hout _ hret)
  split at h
  · exact absurd (Option.some.inj h) (hout _ (by decide))
  split at h
  · exact absurd (Option.some.inj h) (hout _ (by decide))
  · next hret _ hacc => exact ⟨not_lt.mp hret, not_not.mp hacc⟩

/-- The run of a program whose file was accepted. -/
theorem run_withFile {fileid : Word} (hsel : (card s (selectByIdCmd S fileid)).2.Selected) (b : Bool) (out : ℤ → α)
    (body : Resp → Card α) :
    run card (withFile S fileid b out body) s =
      let a := card s (selectByIdCmd S fileid)
      let o := run card (body a.2) a.1
      ⟨o.state, (selectByIdCmd S fileid, a.2) :: o.log, o.val⟩ := by
  have hnf := not_notFound_of_accepted hsel.2
  simp only [withFile, sendReceiveAPDU, run_query_bind, not_lt.mpr hsel.1, hnf, hsel.2, if_false, not_true]

/-- The same for its file. -/
theorem selected_of_withFile {fileid : Word} {b : Bool} {body : Resp → Card α} (hout : ∀ ret < 0, out ret ≠ a)
    (h : (run card (withFile S fileid b out body) s).val = some a) :
    (card s (selectByIdCmd S fileid)).2.Selected := by
  simp only [withFile, sendReceiveAPDU, run_query_bind] at h
  split at h
  · exact absurd (Option.some.inj ((val_leave _ _).symm.trans h)) (hout _ (by decide))
  split at h
  · exact absurd (Option.some.inj h) (hout _ (by decide))
  split at h
  · exact absurd (Option.some.inj ((val_leave _ _).symm.trans h)) (hout _ (by decide))
  · next hret _ hacc => exact ⟨not_lt.mp hret, not_not.mp hacc⟩

/-- And for its description. -/
theorem run_withDescription {resp : Resp} {b : Bool} {body : Mem → Card α} (hout : ∀ ret < 0, out ret ≠ a)
    (h : (run card (withDescription S resp b out body) s).val = some a) :
    let d := card s (getResponseCmd S (resp.data 2).toNat)
    let o := run card (body d.2.data) d.1
    run card (withDescription S resp b out body) s =
      ⟨o.state, (getResponseCmd S (resp.data 2).toNat, d.2) :: o.log, o.val⟩ := by
  simp only [withDescription, sendReceiveAPDU, run_query_bind] at h ⊢
  split at h
  · exact absurd (Option.some.inj ((val_leave _ _).symm.trans h)) (hout _ (by decide))
  split at h
  · exact absurd (Option.some.inj ((val_leave _ _).symm.trans h)) (hout _ (by decide))
  · next hret hsw => simp only [hret, hsw, if_false]

end Inversion

/-! ### Transparent files -/

section Binary

variable (S : Sim) (E : Env) {σ : Type} (card : σ → Apdu → σ × Resp) (s : σ)

/-- The card takes an update of the selected file, at once or after the PIN. -/
def TakesUpdate (cmd : Apdu) : Prop :=
  let u := card s cmd
  0 ≤ u.2.ret ∧ (u.2.Updated ∨ u.2.Denied ∧ ∃ pin ∈ E.adminPin,
    let v := card u.1 (adminVerifyCmd S pin)
    v.2.sw 1 0x90 0x00 ∧ (card v.1 cmd).2.Done)

/-- The card selects the file in the 5GS directory and takes the update, if
there is room for it in a command. -/
def TakesFile (fileid : Word) (data : List Byte) : Prop :=
  (dirAnswer S card s dir5gs).2.Selected ∧ (fileAnswer S card s dir5gs fileid).2.Selected ∧
    (data.length ≤ 251 → TakesUpdate S E card (fileAnswer S card s dir5gs fileid).1 (updateBinaryCmd S 0 0 data))

/-- What a function returns, and what it sent, tells whether `P`. -/
structure Reports (cmd : Apdu) (o : Outcome σ Apdu Resp ℤ) (P : Prop) : Prop where
  returns : o.val ≠ none
  zero_iff : o.val = some 0 ↔ P
  written_iff : Written cmd o.log ↔ P

variable {S E card s}

theorem not_updated_of_denied {r : Resp} (h : r.Denied) : ¬ r.Updated := by
  have h69 : r.data 1 = 0x69 := h.1
  rintro (⟨h90, -⟩ | ⟨h60, -⟩)
  · exact absurd (h90.symm.trans h69) (by decide)
  · exact absurd (h60.symm.trans h69) (by decide)

/-- A log with one update. -/
theorem done_of_written {cmd cmd' : Apdu} {r : Resp} {log : List (Apdu × Resp)} (h : updates log = [(cmd, r)])
    (hw : Written cmd' log) : r.Done := by
  obtain ⟨r', hdone, h' | ⟨r₀, -, h'⟩⟩ := hw
  · rw [h] at h'
    simp only [List.cons.injEq, Prod.mk.injEq, and_true] at h'
    rwa [h'.2]
  · rw [h] at h'
    simp at h'

theorem written_single_iff {cmd : Apdu} {r : Resp} {log : List (Apdu × Resp)} (h : updates log = [(cmd, r)]) :
    Written cmd log ↔ r.Done :=
  ⟨done_of_written h, fun hdone => ⟨r, hdone, .inl h⟩⟩

/-- A log with two updates, the first of them denied. -/
theorem written_pair_iff {cmd : Apdu} {r₀ r : Resp} {log : List (Apdu × Resp)} (h₀ : r₀.Denied)
    (h : updates log = [(cmd, r₀), (cmd, r)]) : Written cmd log ↔ r.Done := by
  constructor
  · rintro ⟨r', hdone, h' | ⟨r₀', -, h'⟩⟩
    · rw [h] at h'
      simp at h'
    · rw [h] at h'
      simp only [List.cons.injEq, Prod.mk.injEq, true_and, and_true] at h'
      rwa [h'.2]
  · exact fun hdone => ⟨r, hdone, .inr ⟨r₀, h₀, h⟩⟩

/-- The function leaves with `0`. -/
theorem Reports.taken {cmd : Apdu} {log : List (Apdu × Resp)} {t : σ} {b : Bool} {P : Prop} (hw : Written cmd log)
    (hP : P) : Reports cmd ⟨(run card (leave S b (0 : ℤ)) t).state, log, (run card (leave S b (0 : ℤ)) t).val⟩ P := by
  rw [val_leave]
  exact ⟨Option.some_ne_none 0, iff_of_true rfl hP, iff_of_true hw hP⟩

/-- The function leaves with `-1`. -/
theorem Reports.failed {cmd : Apdu} {log : List (Apdu × Resp)} {t : σ} {b : Bool} {P : Prop} (hw : ¬ Written cmd log)
    (hP : ¬ P) : Reports cmd ⟨(run card (leave S b (-1 : ℤ)) t).state, log, (run card (leave S b (-1 : ℤ)) t).val⟩ P := by
  rw [val_leave]
  exact ⟨Option.some_ne_none _, iff_of_false (fun h => absurd (Option.some.inj h) (by decide)) hP, iff_of_false hw hP⟩

/-- The update of a file. -/
theorem updateFile_reports {len : ℤ} {buffer : Mem} {data : List Byte} (hdata : commandData buffer len = pure data)
    (offLow offHigh : Byte) (b : Bool) :
    let cmd := updateBinaryCmd S offHigh offLow data
    Reports cmd (run card (updateFile S E len buffer offLow offHigh b) s) (TakesUpdate S E card s cmd) := by
  intro cmd
  have hcmd : updateBinary S len buffer offHigh offLow = sendReceiveAPDU cmd := by
    rw [updateBinary, hdata]
    rfl
  have hup : isUpdate cmd = true := rfl
  have hone : ∀ (r : Resp) (t : σ) (v : ℤ), updates ((cmd, r) :: (run card (leave S b v) t).log) = [(cmd, r)] := by
    intro r t v
    rw [updates_cons_of_update hup, updates_leave]
  simp only [updateFile, hcmd, sendReceiveAPDU, run_query_bind]
  unfold TakesUpdate
  simp only
  by_cases hret : (card s cmd).2.ret < 0
  · simp only [hret, if_true]
    apply Reports.failed
    · exact fun hw => not_le.mpr hret ((written_single_iff (hone _ _ _)).mp hw).1
    · exact fun h => not_le.mpr hret h.1
  have h0 : 0 ≤ (card s cmd).2.ret := not_lt.mp hret
  simp only [hret, if_false, h0, true_and]
  by_cases hden : (card s cmd).2.Denied
  · -- the PIN is verified and the command sent again
    have hnot := not_updated_of_denied hden
    simp only [hden, if_true, hnot, false_or, true_and]
    cases E.adminPin with
    | none =>
      apply Reports.failed
      · exact fun hw => hnot ((written_single_iff (hone _ _ _)).mp hw).2
      · simp
    | some pin =>
      simp only [Option.mem_def, Option.some.injEq, exists_eq_left', run_query_bind]
      set v := card (card s cmd).1 (adminVerifyCmd S pin)
      by_cases hver : v.2.sw 1 0x90 0x00
      · simp only [hver, not_true, if_false, run_query_bind, true_and]
        set u := card v.1 cmd
        have hpair : ∀ x : ℤ, updates ((cmd, (card s cmd).2) :: (adminVerifyCmd S pin, v.2) :: (cmd, u.2) ::
            (run card (leave S b x) u.1).log) = [(cmd, (card s cmd).2), (cmd, u.2)] := by
          intro x
          rw [updates_cons_of_update hup, updates_cons_of_other rfl, hone]
        by_cases hret' : u.2.ret < 0
        · have hno : ¬ u.2.Done := fun h => not_le.mpr hret' h.1
          simp only [hret', if_true]
          exact Reports.failed (fun hw => hno ((written_pair_iff hden (hpair _)).mp hw)) hno
        by_cases hupd : u.2.Updated
        · have hdone : u.2.Done := ⟨not_lt.mp hret', hupd⟩
          simp only [hret', hupd, if_false, not_true]
          exact Reports.taken ((written_pair_iff hden (hpair _)).mpr hdone) hdone
        · have hno : ¬ u.2.Done := fun h => hupd h.2
          simp only [hret', hupd, if_false, not_false_eq_true, if_true]
          exact Reports.failed (fun hw => hno ((written_pair_iff hden (hpair _)).mp hw)) hno
      · simp only [hver, not_false_eq_true, if_true, false_and]
        apply Reports.failed _ not_false
        intro hw
        exact hnot ((written_single_iff (by rw [updates_cons_of_update hup, updates_cons_of_other rfl,
          updates_leave])).mp hw).2
  · simp only [hden, if_false, false_and, or_false]
    by_cases hupd : (card s cmd).2.Updated
    · simp only [hupd, not_true, if_false]
      exact Reports.taken ((written_single_iff (hone _ _ _)).mpr ⟨h0, hupd⟩) trivial
    · simp only [hupd, not_false_eq_true, if_true]
      exact Reports.failed (fun hw => hupd ((written_single_iff (hone _ _ _)).mp hw).2) not_false

/-- A log without an update. -/
theorem not_written {cmd : Apdu} {log : List (Apdu × Resp)} (h : updates log = []) : ¬ Written cmd log := by
  rintro ⟨r, -, h' | ⟨r₀, -, h'⟩⟩
  · rw [h] at h'
    simp at h'
  · rw [h] at h'
    simp at h'

/-- A program that selects two files sends an update only after that. -/
theorem refused_of_not_selected {fileid : Word} {body : Bool → Resp → Card ℤ}
    (h : ¬ ((dirAnswer S card s dir5gs).2.Selected ∧ (fileAnswer S card s dir5gs fileid).2.Selected)) :
    let o := run card (withDir S dir5gs id fun b => withFile S fileid b id (body b)) s
    (∃ ret, o.val = some ret ∧ ret ≠ 0) ∧ updates o.log = [] := by
  have hdir : dir5gs ≠ 0 := by decide
  by_cases hd : (dirAnswer S card s dir5gs).2.Selected
  · have hf : ¬ (fileAnswer S card s dir5gs fileid).2.Selected := fun hf => h ⟨hd, hf⟩
    rw [run_withDir hdir hd]
    unfold fileAnswer at hf
    simp only [updates_cons_of_other (isUpdate_selectByIdCmd (S := S) _), withFile, sendReceiveAPDU, run_query_bind]
    split
    · exact ⟨⟨_, val_leave _ _, by decide⟩, updates_leave _ _⟩
    split
    · exact ⟨⟨_, rfl, by decide⟩, rfl⟩
    split
    · exact ⟨⟨_, val_leave _ _, by decide⟩, updates_leave _ _⟩
    · next hret _ hacc => exact absurd ⟨not_lt.mp hret, not_not.mp hacc⟩ hf
  · unfold dirAnswer at hd
    simp only [withDir, hdir, ne_eq, not_false_eq_true, if_true, sendReceiveAPDU, run_query_bind,
      updates_cons_of_other (isUpdate_selectByIdCmd (S := S) _)]
    split
    · next hret => exact ⟨⟨_, rfl, hret.ne⟩, rfl⟩
    split
    · exact ⟨⟨_, rfl, by decide⟩, rfl⟩
    split
    · exact ⟨⟨_, rfl, by decide⟩, rfl⟩
    · next hret _ hacc => exact absurd ⟨not_lt.mp hret, not_not.mp hacc⟩ hd

theorem commandData_of_holds {buf : Mem} {len : ℤ} {data : List Byte} (hbuf : Holds buf 0 data)
    (hlen : len = data.length) : commandData buf len = if data.length ≤ 251 then pure data else .fault := by
  subst hlen
  rw [commandData]
  by_cases h : data.length ≤ 251
  · rw [if_pos (by omega), if_pos h, hbuf.bytes_eq (Int.toNat_natCast _)]
  · rw [if_neg (by omega), if_neg h]

/-- `usim_write_transparent` when a SELECT fails. -/
theorem writeTransparent_refused {fileid : Word} (len : ℤ) (buffer : Mem)
    (h : ¬ ((dirAnswer S card s dir5gs).2.Selected ∧ (fileAnswer S card s dir5gs fileid).2.Selected)) :
    let o := run card (writeTransparent S E fileid len buffer 0 0 dir5gs) s
    (∃ ret, o.val = some ret ∧ ret ≠ 0) ∧ updates o.log = [] := by
  unfold writeTransparent
  exact refused_of_not_selected h

/-- `usim_write_transparent` of data that fits in a command. -/
theorem writeTransparent_reports {len : ℤ} {buffer : Mem} {data : List Byte} (hbuf : Holds buffer 0 data)
    (hlen : len = data.length) (h251 : data.length ≤ 251) (fileid : Word) :
    Reports (updateBinaryCmd S 0 0 data) (run card (writeTransparent S E fileid len buffer 0 0 dir5gs) s)
      (TakesFile S E card s fileid data) := by
  have hdata := commandData_of_holds hbuf hlen
  rw [if_pos h251] at hdata
  by_cases hsel : (dirAnswer S card s dir5gs).2.Selected ∧ (fileAnswer S card s dir5gs fileid).2.Selected
  · have hrep : Reports (updateBinaryCmd S 0 0 data)
        (run card (updateFile S E len buffer 0 0 true) (fileAnswer S card s dir5gs fileid).1)
        (TakesUpdate S E card (fileAnswer S card s dir5gs fileid).1 (updateBinaryCmd S 0 0 data)) :=
      updateFile_reports hdata 0 0 true
    obtain ⟨hret, hzero, hw⟩ := hrep
    have hP : TakesFile S E card s fileid data ↔ TakesUpdate S E card (fileAnswer S card s dir5gs fileid).1
        (updateBinaryCmd S 0 0 data) :=
      ⟨fun h => h.2.2 h251, fun h => ⟨hsel.1, hsel.2, fun _ => h⟩⟩
    rw [writeTransparent, run_withDir (by decide) hsel.1, run_withFile hsel.2]
    refine ⟨hret, hzero.trans hP.symm, ?_⟩
    rw [hP, ← hw]
    unfold Written
    rw [updates_cons_of_other rfl, updates_cons_of_other rfl]
    rfl
  · obtain ⟨⟨ret, hval, hret⟩, hupd⟩ := writeTransparent_refused (E := E) len buffer hsel
    have hno : ¬ TakesFile S E card s fileid data := fun h => hsel ⟨h.1, h.2.1⟩
    refine ⟨?_, iff_of_false ?_ hno, iff_of_false (not_written hupd) hno⟩
    · rw [hval]
      exact Option.some_ne_none ret
    · rw [hval]
      exact fun h => hret (Option.some.inj h)

/-- `usim_write_transparent` of data that does not fit. -/
theorem val_writeTransparent_of_long {len : ℤ} {buffer : Mem} {data : List Byte} (hbuf : Holds buffer 0 data)
    (hlen : len = data.length) (h251 : 251 < data.length) {fileid : Word}
    (hsel : (dirAnswer S card s dir5gs).2.Selected ∧ (fileAnswer S card s dir5gs fileid).2.Selected) :
    (run card (writeTransparent S E fileid len buffer 0 0 dir5gs) s).val = none := by
  have hdata := commandData_of_holds hbuf hlen
  rw [if_neg (by omega)] at hdata
  rw [writeTransparent, run_withDir (by decide) hsel.1, run_withFile hsel.2, updateFile, updateBinary, hdata]
  rfl

end Binary

/-! ### Linear fixed files -/

section Records

variable {S : Sim} {E : Env} {σ : Type} {card : σ → Apdu → σ × Resp}

/-- The loop over the records returns `0` when every update was done. -/
theorem writeRecords_done {len : ℤ} {buf : Mem} {b : Bool} : ∀ (left i : ℕ) (s : σ),
    (run card (writeRecords S len buf b left i) s).val = some 0 →
    (updates (run card (writeRecords S len buf b left i) s).log).map Prod.fst =
        (List.range' i left).map (fun i => updateRecordCmd S i (bytes buf 0 len.toNat)) ∧
      ∀ e ∈ updates (run card (writeRecords S len buf b left i) s).log, e.2.Done
  | 0, i, s, _ => by
    rw [writeRecords, updates_leave]
    exact ⟨rfl, fun e he => absurd he List.not_mem_nil⟩
  | left + 1, i, s, h => by
    by_cases hlen : 0 ≤ len ∧ len ≤ 251
    · have hdata : commandData buf len = pure (bytes buf 0 len.toNat) := if_pos hlen
      rw [writeRecords, updateRecord, hdata] at h ⊢
      simp only [Dialogue.pure_bind, sendReceiveAPDU, run_query_bind] at h ⊢
      set u := card s (updateRecordCmd S i (bytes buf 0 len.toNat))
      by_cases hret : u.2.ret < 0
      · simp [hret] at h
      by_cases hupd : u.2.Updated
      · simp only [hret, hupd, if_false, not_true] at h ⊢
        obtain ⟨hcmds, hall⟩ := writeRecords_done left (i + 1) u.1 h
        rw [updates_cons_of_update (isUpdate_updateRecordCmd _ _)]
        refine ⟨?_, fun e he => ?_⟩
        · rw [List.map_cons, hcmds]
          rfl
        · rcases List.mem_cons.mp he with rfl | he
          · exact ⟨not_lt.mp hret, hupd⟩
          · exact hall e he
      · simp [hret, hupd] at h
    · have hdata : commandData buf len = .fault := if_neg hlen
      rw [writeRecords, updateRecord, hdata] at h
      simp at h

/-- `usim_write_linearfixed` returns `0` when every record was written. -/
theorem writeLinearfixed_done {fileid : Word} {len : ℤ} {buf : Mem} {s : σ}
    (h : (run card (writeLinearfixed S E fileid len buf dir5gs) s).val = some 0) :
    RecordsWritten S E (bytes buf 0 len.toNat) (run card (writeLinearfixed S E fileid len buf dir5gs) s).log := by
  have hout : ∀ ret < (0 : ℤ), id ret ≠ 0 := fun ret hret => hret.ne
  have hd := selected_of_withDir (by decide) hout h
  rw [writeLinearfixed, run_withDir (by decide) hd] at h ⊢
  have hf := selected_of_withFile hout h
  rw [run_withFile hf] at h ⊢
  simp only [updateRecords] at h ⊢
  have hdesc := run_withDescription hout h
  rw [hdesc] at h ⊢
  set d := card _ (getResponseCmd S _)
  simp only at h ⊢
  cases hinfo : recordInfo S E d.2.data with
  | divZero => simp [hinfo] at h
  | bad => simp [hinfo] at h
  | ok record =>
    simp only [hinfo] at h ⊢
    obtain ⟨hcmds, hall⟩ := writeRecords_done record.count 1 d.1 h
    refine ⟨record, ⟨_, List.mem_cons_of_mem _ (List.mem_cons_of_mem _ List.mem_cons_self), rfl, hinfo⟩, ?_⟩
    rw [updates_cons_of_other rfl, updates_cons_of_other rfl, updates_cons_of_other rfl]
    exact ⟨hcmds, hall⟩

end Records

/-! ### Reading before writing -/

section Quiet

variable (S : Sim) (E : Env) {α : Type}

/-- The program sends no update. -/
def Quiet (m : Card α) : Prop := Asks (fun q => isUpdate q = false) m

variable {S E}

theorem quiet_send {cmd : Apdu} (hcmd : isUpdate cmd = false) {f : Resp → Card α} (hf : ∀ resp, Quiet (f resp)) :
    Quiet (sendReceiveAPDU cmd >>= f) :=
  ⟨hcmd, hf⟩

theorem leave_quiet (b : Bool) (a : α) : Quiet (leave S b a) := by
  cases b
  · exact trivial
  · exact quiet_send isUpdate_reselectCmd fun _ => trivial

theorem withDir_quiet {dirFileid : ℤ} {out : ℤ → α} {body : Bool → Card α} (hbody : ∀ b, Quiet (body b)) :
    Quiet (withDir S dirFileid out body) := by
  unfold withDir
  split
  · apply quiet_send (isUpdate_selectByIdCmd _)
    intro resp
    split
    · exact trivial
    split
    · exact trivial
    split
    · exact trivial
    · exact hbody true
  · exact hbody false

theorem withFile_quiet {fileid : Word} {b : Bool} {out : ℤ → α} {body : Resp → Card α}
    (hbody : ∀ resp, Quiet (body resp)) : Quiet (withFile S fileid b out body) := by
  apply quiet_send (isUpdate_selectByIdCmd _)
  intro resp
  split
  · exact leave_quiet _ _
  split
  · exact trivial
  split
  · exact leave_quiet _ _
  · exact hbody resp

theorem withDescription_quiet {resp : Resp} {b : Bool} {out : ℤ → α} {body : Mem → Card α}
    (hbody : ∀ buffer, Quiet (body buffer)) : Quiet (withDescription S resp b out body) := by
  apply quiet_send (isUpdate_getResponseCmd _)
  intro r
  split
  · exact leave_quiet _ _
  split
  · exact leave_quiet _ _
  · exact hbody _

theorem readTransparent_quiet (fileid : Word) (len : ℤ) (buf : Mem) (dirFileid : ℤ) :
    Quiet (readTransparent S E fileid len buf dirFileid) := by
  apply withDir_quiet
  intro b
  apply withFile_quiet
  intro resp
  apply withDescription_quiet
  intro buffer
  cases transparentLen S E buffer with
  | none => exact leave_quiet _ _
  | some len =>
    show Quiet (if ¬ E.malloc (len + 3) then _ else _)
    split
    · exact leave_quiet _ _
    apply quiet_send (isUpdate_readBinaryCmd _)
    intro r
    split
    · exact leave_quiet _ _
    split
    · exact leave_quiet _ _
    unfold copyOut
    split
    · exact leave_quiet _ _
    · exact trivial

theorem readRecords_quiet (recLen : ℕ) (b : Bool) : ∀ left i len buf, Quiet (readRecords S recLen b left i len buf)
  | 0, _, _, _ => leave_quiet _ _
  | left + 1, i, len, buf => by
    apply quiet_send (isUpdate_readRecordCmd _ _)
    intro r
    split
    · exact leave_quiet _ _
    split
    · exact leave_quiet _ _
    · exact readRecords_quiet recLen b left (i + 1) _ _

theorem readLinearfixed_quiet (fileid : Word) (len : ℤ) (buf : Mem) (dirFileid : ℤ) :
    Quiet (readLinearfixed S E fileid len buf dirFileid) := by
  apply withDir_quiet
  intro b
  apply withFile_quiet
  intro resp
  apply withDescription_quiet
  intro buffer
  cases recordInfo S E buffer with
  | ok record => exact readRecords_quiet record.len b record.count 1 len buf
  | bad => exact leave_quiet _ _
  | divZero => exact trivial

end Quiet

/-! ### The calls -/

/-- A call of one of the writing functions. -/
inductive WriteCall where
  | writeUac (uac : Field 4)
  | write5gsLocInfo (locInfo : Field 20)
  | writeNasSecCtx (ctx : NasSecurityCtx) (nasSecCtxLen : ℤ)
  | writeNasAuthKeys (keys : NasAuthKeys)
  | writeRid (rid : Word)
  | appendForbiddenPlmns (fplmn : List Plmn)
  | deleteForbiddenPlmns (fplmn : List Plmn)
  | invalidateNasSecCtx

section Calls

variable (S : Sim) (E : Env) {σ : Type} (card : σ → Apdu → σ × Resp) (s : σ)

def WriteCall.program : WriteCall → Card ℤ
  | .writeUac uac => Usim.writeUac S E uac
  | .write5gsLocInfo locInfo => Usim.write5gsLocInfo S E locInfo
  | .writeNasSecCtx ctx nasSecCtxLen => Usim.writeNasSecCtx S E ctx nasSecCtxLen
  | .writeNasAuthKeys keys => Usim.writeNasAuthKeys S E keys
  | .writeRid rid => Usim.writeRid S E rid
  | .appendForbiddenPlmns fplmn => Usim.appendForbiddenPlmns S E fplmn
  | .deleteForbiddenPlmns fplmn => Usim.deleteForbiddenPlmns S E fplmn
  | .invalidateNasSecCtx => Usim.invalidateNasSecCtx S E

/-- The forbidden PLMNs are read. -/
def fplmnRead : Outcome σ Apdu Resp ReadOut := run card (readTransparent S E fplmnFileid 0 E.heap 0) s

/-- The security context is read. -/
def secCtxRead : Outcome σ Apdu Resp ReadOut := run card (readLinearfixed S E nasSecCtxFileid 0 E.heap dir5gs) s

/-- The update that appends to the file that was read. -/
def appendCmd (fplmn : List Plmn) (out : ReadOut) : Apdu :=
  updateBinaryCmd S 0 (BitVec.ofInt 8 (out.len - 3 * fplmn.length)) (tableBytes fplmn)

/-- The file that was read without the listed entries. -/
def deletedBytes (fplmn : List Plmn) (out : ReadOut) : List Byte :=
  bytes (fplmn.foldl (fun buffer p => deleteEntry p out.len out.len.toNat 0 buffer) out.buf) 0 out.len.toNat

/-- The card has taken what the call writes: the encoding of its argument. The
functions that read before they write change what they have read; a table they
have read is a table without the listed entries then. -/
def WriteCall.Done (log : List (Apdu × Resp)) : WriteCall → Prop
  | .writeUac uac => Written (updateBinaryCmd S 0 0 uac.1) log
  | .write5gsLocInfo locInfo => Written (updateBinaryCmd S 0 0 locInfo.1) log
  | .writeNasSecCtx ctx _ => RecordsWritten S E ctx.bytes log
  | .writeNasAuthKeys keys => Written (updateBinaryCmd S 0 0 keys.bytes) log
  | .writeRid rid => Written (updateBinaryCmd S 0 0 (le16 rid)) log
  | .appendForbiddenPlmns fplmn => ∃ out ∈ (fplmnRead S E card s).val, Written (appendCmd S fplmn out) log
  | .deleteForbiddenPlmns fplmn => ∃ out ∈ (fplmnRead S E card s).val, ∃ data,
    (∀ entries : List Plmn, bytes out.buf 0 out.len.toNat = tableBytes entries →
      data = tableBytes (cleared entries fplmn)) ∧ Written (updateBinaryCmd S 0 0 data) log
  | .invalidateNasSecCtx => ∃ out ∈ (secCtxRead S E card s).val,
    RecordsWritten S E ((bytes out.buf 0 out.len.toNat).set 4 0x07) log

/-- An answer to an update that is a success, or has neither of the two bytes of
`90 00` in its place. -/
def Resp.Told (r : Resp) : Prop := r.Done ∨ (r.data 1 ≠ 0x90 ∧ r.data 2 ≠ 0x00)

/-- What the card must answer for the return value to be right. -/
def WriteCall.Told : WriteCall → Prop
  | .writeNasAuthKeys keys => 256 < keys.bytes.length ∨ TakesFile S E card s nasAuthKeysFileid keys.bytes
  | .appendForbiddenPlmns fplmn => ∀ out ∈ (fplmnRead S E card s).val, 0 ≤ out.ret → 3 * fplmn.length ≤ 251 →
    (card (fplmnRead S E card s).state (appendCmd S fplmn out)).2.Told
  | .deleteForbiddenPlmns fplmn => ∀ out ∈ (fplmnRead S E card s).val, 0 ≤ out.ret → 0 ≤ out.len ∧ out.len ≤ 251 →
    (card (fplmnRead S E card s).state (updateBinaryCmd S 0 0 (deletedBytes fplmn out))).2.Told
  | _ => True

variable {S E card s}

/-- A fixed field that is written. -/
theorem written_of_field {fileid : Word} {data : List Byte} {len : ℤ} (hlen : len = data.length) (h251 : data.length ≤ 251)
    (h : (run card (writeTransparent S E fileid len (ofList data) 0 0 dir5gs) s).val = some 0) :
    Written (updateBinaryCmd S 0 0 data) (run card (writeTransparent S E fileid len (ofList data) 0 0 dir5gs) s).log := by
  have hrep : Reports _ (run card (writeTransparent S E fileid len (ofList data) 0 0 dir5gs) s) _ :=
    writeTransparent_reports (holds_ofList data) hlen h251 fileid
  exact hrep.written_iff.mpr (hrep.zero_iff.mp h)

theorem writeNasSecCtx_done {ctx : NasSecurityCtx} {nasSecCtxLen : ℤ}
    (h : (run card (writeNasSecCtx S E ctx nasSecCtxLen) s).val = some 0) :
    RecordsWritten S E ctx.bytes (run card (writeNasSecCtx S E ctx nasSecCtxLen) s).log := by
  unfold writeNasSecCtx at h ⊢
  split at h
  · simp at h
  · next hm =>
    simp only [hm, if_false] at h ⊢
    split at h
    · simp at h
    · next hfit =>
      simp only [hfit, if_false] at h ⊢
      obtain ⟨hholds, hlen⟩ := encodeNasSecCtx_holds E.heap ctx
      have hdone := writeLinearfixed_done h
      rwa [hholds.bytes_eq (by omega)] at hdone

/-- `vtq_usim_write_nas_auth_keys` returns `0` unless it faults. -/
theorem writeNasAuthKeys_iff (keys : NasAuthKeys) :
    let o := run card (writeNasAuthKeys S E keys) s
    (o.val = some 0 → Written (updateBinaryCmd S 0 0 keys.bytes) o.log) ↔
      256 < keys.bytes.length ∨ TakesFile S E card s nasAuthKeysFileid keys.bytes := by
  obtain ⟨hholds, hlen⟩ := encodeNasAuthKeys_holds E.heap keys
  unfold writeNasAuthKeys
  by_cases h256 : 256 < keys.bytes.length
  · rw [if_pos (by omega)]
    simp [h256]
  rw [if_neg (by omega)]
  simp only [run_bind_pure, h256, false_or]
  by_cases h251 : keys.bytes.length ≤ 251
  · have hrep : Reports (updateBinaryCmd S 0 0 keys.bytes) (run card (writeTransparent S E nasAuthKeysFileid _ _ 0 0 dir5gs) s)
        (TakesFile S E card s nasAuthKeysFileid keys.bytes) :=
      writeTransparent_reports hholds hlen h251 nasAuthKeysFileid
    rw [← hrep.written_iff]
    obtain ⟨ret, hret⟩ := Option.ne_none_iff_exists'.mp hrep.returns
    rw [hret]
    simp only [Option.map_some, forall_const]
  · -- too long for a command: unless a SELECT fails, the copy is beyond the command
    by_cases hsel : (dirAnswer S card s dir5gs).2.Selected ∧ (fileAnswer S card s dir5gs nasAuthKeysFileid).2.Selected
    · have hnone := val_writeTransparent_of_long (E := E) hholds hlen (by omega) hsel
      have htakes : TakesFile S E card s nasAuthKeysFileid keys.bytes := ⟨hsel.1, hsel.2, fun h => absurd h h251⟩
      rw [hnone]
      exact iff_of_true (fun h => absurd h.symm (Option.some_ne_none 0)) htakes
    · obtain ⟨⟨ret, hval, -⟩, hupd⟩ := writeTransparent_refused (E := E) (encodeNasAuthKeys E.heap keys).2
        (encodeNasAuthKeys E.heap keys).1 hsel
      have hno : ¬ TakesFile S E card s nasAuthKeysFileid keys.bytes := fun h => hsel ⟨h.1, h.2.1⟩
      rw [hval]
      simp only [Option.map_some, forall_const]
      exact iff_of_false (not_written hupd) hno

/-- The command that both functions for the forbidden PLMNs send last. -/
theorem run_update_bind {len : ℤ} {buf : Mem} {data : List Byte} (hdata : commandData buf len = pure data) (offLow : Byte) :
    let cmd := updateBinaryCmd S 0 offLow data
    run card (do let resp ← updateBinary S len buf 0 offLow; pure (updateResult resp)) s =
      ⟨(card s cmd).1, [(cmd, (card s cmd).2)], some (updateResult (card s cmd).2)⟩ := by
  rw [updateBinary, hdata]
  rfl

/-- Their status test. -/
theorem told_iff {cmd : Apdu} {r : Resp} {log : List (Apdu × Resp)} (h : updates log = [(cmd, r)]) :
    (some (updateResult r) = some 0 → Written cmd log) ↔ r.Told := by
  rw [written_single_iff h, updateResult, Resp.Told]
  by_cases hsw : r.data 1 ≠ 0x90 ∧ r.data 2 ≠ 0x00
  · rw [if_pos hsw]
    exact iff_of_true (fun h => absurd (Option.some.inj h) (by decide)) (.inr hsw)
  · rw [if_neg hsw]
    simp only [forall_const, hsw, or_false]

/-- Reading the file and then updating it logs one update. -/
theorem updates_fplmnRead_append (cmd : Apdu) (r : Resp) : updates ((fplmnRead S E card s).log ++ [(cmd, r)]) =
    updates [(cmd, r)] := by
  rw [updates_append, fplmnRead, updates_of_asks (readTransparent_quiet _ _ _ _), List.nil_append]

/-- A function that reads the file and goes on with what it has read. -/
theorem after_fplmnRead_iff {body : ReadOut → Card ℤ} {P : ReadOut → List (Apdu × Resp) → Prop} {Q : ReadOut → Prop}
    (h : ∀ out, 0 ≤ out.ret →
      (((run card (body out) (fplmnRead S E card s).state).val = some 0 →
        P out ((fplmnRead S E card s).log ++ (run card (body out) (fplmnRead S E card s).state).log)) ↔ Q out)) :
    let o := run card (readTransparent S E fplmnFileid 0 E.heap 0 >>= fun out =>
      if out.ret < 0 then pure out.ret else body out) s
    (o.val = some 0 → ∃ out ∈ (fplmnRead S E card s).val, P out o.log) ↔
      ∀ out ∈ (fplmnRead S E card s).val, 0 ≤ out.ret → Q out := by
  have hfold : run card (readTransparent S E fplmnFileid 0 E.heap 0) s = fplmnRead S E card s := rfl
  rw [run_bind, hfold]
  cases (fplmnRead S E card s).val with
  | none => simp
  | some out =>
    simp only [Option.mem_def, Option.some.injEq, exists_eq_left', forall_eq']
    by_cases hret : out.ret < 0
    · simp only [hret, if_true, run_pure]
      exact iff_of_true (fun h => absurd (Option.some.inj h) hret.ne) fun h => absurd h (not_le.mpr hret)
    · simp only [hret, if_false, not_lt.mp hret, forall_const]
      exact h out (not_lt.mp hret)

theorem appendForbiddenPlmns_iff (fplmn : List Plmn) :
    let o := run card (appendForbiddenPlmns S E fplmn) s
    (o.val = some 0 → ∃ out ∈ (fplmnRead S E card s).val, Written (appendCmd S fplmn out) o.log) ↔
      ∀ out ∈ (fplmnRead S E card s).val, 0 ≤ out.ret → 3 * fplmn.length ≤ 251 →
        (card (fplmnRead S E card s).state (appendCmd S fplmn out)).2.Told := by
  have hlen : (fplmn.flatMap Plmn.bytes).length = 3 * fplmn.length := length_tableBytes fplmn
  apply after_fplmnRead_iff
  intro out _
  by_cases h251 : 3 * fplmn.length ≤ 251
  · have hdata := commandData_of_holds (holds_ofList (fplmn.flatMap Plmn.bytes)) rfl
    rw [if_pos (by omega)] at hdata
    have hbig : ¬ (fplmn.flatMap Plmn.bytes).length > 256 := by omega
    simp only [hbig, if_false, h251, forall_const]
    rw [run_update_bind hdata]
    apply told_iff
    exact (updates_fplmnRead_append _ _).trans (updates_cons_of_update rfl)
  · refine iff_of_true (fun h => ?_) fun h => absurd h h251
    have hdata := commandData_of_holds (holds_ofList (fplmn.flatMap Plmn.bytes)) rfl
    rw [if_neg (by omega)] at hdata
    dsimp only at h
    split at h
    · simp at h
    · rw [updateBinary, hdata] at h
      simp at h

/-- A table that was read becomes the table without the listed entries. -/
theorem deletedBytes_eq {fplmn entries : List Plmn} {out : ReadOut} (hlen : 0 ≤ out.len)
    (h : bytes out.buf 0 out.len.toNat = tableBytes entries) :
    deletedBytes fplmn out = tableBytes (cleared entries fplmn) := by
  have hn : out.len.toNat = 3 * entries.length := by
    rw [← length_tableBytes, ← h, length_bytes]
  have hold : Holds out.buf 0 (tableBytes entries) := by
    rw [Holds, length_tableBytes, ← hn]
    exact h
  have hnew := delete_holds out.len fplmn entries out.buf (by omega) hold
  exact hnew.bytes_eq (by rw [length_tableBytes, length_cleared, hn])

theorem deleteForbiddenPlmns_iff (fplmn : List Plmn) :
    let o := run card (deleteForbiddenPlmns S E fplmn) s
    (o.val = some 0 → ∃ out ∈ (fplmnRead S E card s).val, ∃ data,
      (∀ entries : List Plmn, bytes out.buf 0 out.len.toNat = tableBytes entries →
        data = tableBytes (cleared entries fplmn)) ∧ Written (updateBinaryCmd S 0 0 data) o.log) ↔
      ∀ out ∈ (fplmnRead S E card s).val, 0 ≤ out.ret → 0 ≤ out.len ∧ out.len ≤ 251 →
        (card (fplmnRead S E card s).state (updateBinaryCmd S 0 0 (deletedBytes fplmn out))).2.Told := by
  refine after_fplmnRead_iff (P := fun out log => ∃ data, (∀ entries : List Plmn,
    bytes out.buf 0 out.len.toNat = tableBytes entries → data = tableBytes (cleared entries fplmn)) ∧
      Written (updateBinaryCmd S 0 0 data) log) ?_
  intro out _
  by_cases h251 : 0 ≤ out.len ∧ out.len ≤ 251
  · have hdata : commandData (fplmn.foldl (fun buffer p => deleteEntry p out.len out.len.toNat 0 buffer) out.buf)
        out.len = pure (deletedBytes fplmn out) := if_pos h251
    simp only [h251, and_self, forall_const]
    rw [run_update_bind hdata]
    have hupd : updates ((fplmnRead S E card s).log ++ [(updateBinaryCmd S 0 0 (deletedBytes fplmn out),
        (card (fplmnRead S E card s).state (updateBinaryCmd S 0 0 (deletedBytes fplmn out))).2)]) = [_] :=
      (updates_fplmnRead_append _ _).trans (updates_cons_of_update rfl)
    rw [← told_iff hupd]
    refine forall_congr' fun h => ⟨?_, fun hw => ⟨_, fun entries he => deletedBytes_eq h251.1 he, hw⟩⟩
    rintro ⟨data, -, hw⟩
    exact (written_single_iff hupd).mpr (done_of_written hupd hw)
  · refine iff_of_true (fun h => ?_) fun h => absurd h h251
    have hdata : commandData (fplmn.foldl (fun buffer p => deleteEntry p out.len out.len.toNat 0 buffer) out.buf)
        out.len = .fault := if_neg h251
    dsimp only at h
    rw [updateBinary, hdata] at h
    simp at h

/-- One byte of a memory is changed. -/
theorem bytes_put_single (m : Mem) (n i : ℕ) (x : Byte) : bytes (put m i [x]) 0 n = (bytes m 0 n).set i x := by
  have hold : Holds m 0 (bytes m 0 n) := by
    rw [Holds, length_bytes]
  by_cases hi : i < n
  · have hnew := hold.put_set (by rw [length_bytes]; exact hi) x
    rw [zero_add] at hnew
    exact hnew.bytes_eq (by rw [List.length_set, length_bytes])
  · rw [List.set_eq_of_length_le (by rw [length_bytes]; omega)]
    apply bytes_eq_iff.mpr
    intro p _ hp
    exact put_of_lt (by omega)

theorem invalidateNasSecCtx_done (h : (run card (invalidateNasSecCtx S E) s).val = some 0) :
    ∃ out ∈ (secCtxRead S E card s).val, RecordsWritten S E ((bytes out.buf 0 out.len.toNat).set 4 0x07)
      (run card (invalidateNasSecCtx S E) s).log := by
  have hfold : run card (readLinearfixed S E nasSecCtxFileid 0 E.heap dir5gs) s = secCtxRead S E card s := rfl
  rw [invalidateNasSecCtx, run_bind, hfold] at h ⊢
  cases hread : (secCtxRead S E card s).val with
  | none => simp [hread] at h
  | some out =>
    simp only [hread] at h ⊢
    by_cases hret : out.ret < 0
    · simp only [hret, if_true, run_pure] at h
      exact absurd (Option.some.inj h) hret.ne
    simp only [hret, if_false] at h ⊢
    obtain ⟨record, ⟨e, he, hinfo⟩, hcmds, hall⟩ := writeLinearfixed_done h
    have hput : bytes (put out.buf 4 [0x07]) 0 out.len.toNat = (bytes out.buf 0 out.len.toNat).set 4 0x07 :=
      bytes_put_single out.buf out.len.toNat 4 0x07
    have hquiet : updates (secCtxRead S E card s).log = [] := updates_of_asks (readLinearfixed_quiet _ _ _ _) s
    refine ⟨out, rfl, record, ⟨e, List.mem_append_right _ he, hinfo⟩, ?_⟩
    rw [updates_append, hquiet, List.nil_append, ← hput]
    exact ⟨hcmds, hall⟩

/-- **What a return value of `0` means.** For every card, whatever it answers
and whichever transfer fails, and for every call of a writing function: that
`0` is returned only when the card has taken every update the call had to send,
with the encoding of the argument in it, holds exactly when the card's answers
are told rightly. That is no condition for the functions that return what
`usim_write_transparent` and `usim_write_linearfixed` return. -/
theorem writeCall_done_iff (S : Sim) (E : Env) (card : σ → Apdu → σ × Resp) (s : σ) (c : WriteCall) :
    let o := run card (c.program S E) s
    (o.val = some 0 → c.Done S E card s o.log) ↔ c.Told S E card s := by
  cases c with
  | writeUac uac =>
    exact iff_of_true (written_of_field (by rw [uac.2]; rfl) (by rw [uac.2]; decide)) trivial
  | write5gsLocInfo locInfo =>
    exact iff_of_true (written_of_field (by rw [locInfo.2]; rfl) (by rw [locInfo.2]; decide)) trivial
  | writeNasSecCtx ctx nasSecCtxLen => exact iff_of_true writeNasSecCtx_done trivial
  | writeNasAuthKeys keys => exact writeNasAuthKeys_iff keys
  | writeRid rid =>
    have hlen : (le16 rid).length = 2 := rfl
    exact iff_of_true (written_of_field rfl (by omega)) trivial
  | appendForbiddenPlmns fplmn => exact appendForbiddenPlmns_iff fplmn
  | deleteForbiddenPlmns fplmn => exact deleteForbiddenPlmns_iff fplmn
  | invalidateNasSecCtx => exact iff_of_true invalidateNasSecCtx_done trivial

end Calls

/-- A card that lets a file be read and refuses every update as one at a wrong
offset (`6B 00`). -/
def readOnlyCard (s : List Byte) (q : Apdu) : List Byte × Resp :=
  if isUpdate q then (s, statusResp 0x6b 0x00) else binaryCard s q

/-- On a card without the files the keys are not even sent, and on a card that
refuses the update nothing is appended; both calls return `0`. -/
theorem refused_write_returns_zero :
    let keys : WriteCall := .writeNasAuthKeys ⟨⟨0x80, [0x01]⟩, ⟨0x81, [0x02]⟩⟩
    let absent : Unit → Apdu → Unit × Resp := fun _ _ => ((), statusResp 0x6a 0x82)
    let o := run absent (keys.program fiveByteAid plainEnv) ()
    let append : WriteCall := .appendForbiddenPlmns [newPlmn]
    let o' := run readOnlyCard (append.program fiveByteAid plainEnv) (tableBytes [Plmn.free])
    (o.val = some 0 ∧ ¬ keys.Done fiveByteAid plainEnv absent () o.log) ∧
      (o'.val = some 0 ∧ ¬ append.Done fiveByteAid plainEnv readOnlyCard (tableBytes [Plmn.free]) o'.log) := by
  intro keys absent o append o'
  constructor
  · refine ⟨by decide +kernel, ?_⟩
    apply not_written
    decide +kernel
  · have hnone : ∀ e ∈ updates o'.log, ¬ e.2.Done := by decide +kernel
    refine ⟨by decide +kernel, ?_⟩
    rintro ⟨out, -, r, hdone, hlog | ⟨r₀, -, hlog⟩⟩
    · exact hnone _ (hlog ▸ List.mem_singleton_self _) hdone
    · exact hnone _ (hlog ▸ List.mem_cons_of_mem _ List.mem_cons_self) hdone

end Usim
end La12xx
