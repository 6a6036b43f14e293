/-
# Cards that keep their files

What the library relies on of a card that stores a file: `TransparentFile` and
`LinearFile` say how such a card answers the commands for one file, with the
content as a function of its state. Any machine that has this structure is such
a card; what a record is padded with, and everything the card does besides, is
left open.

For every such card the functions of `usim_apdu.c` do what they are for: they
return `0`, leave the content as it was or as it was written, and deliver it.
-/
import La12xx.Usim.Directory

namespace La12xx
namespace Usim

open ByteMem Dialogue

/-! ### Linear fixed files -/

/-- A card with a file of records in a directory. A record that is written may
be shorter than the records are; the card fills it up. -/
structure LinearFile (S : Sim) (dirFileid : ℤ) (fileid : Word) {σ : Type} (card : σ → Apdu → σ × Resp) where
  recLen : ℕ
  count : ℕ
  recLen_le : recLen ≤ 253
  /-- the content of the records, which count from 1 -/
  records : σ → ℕ → List Byte
  length_records : ∀ s i, (records s i).length = recLen
  /-- the directory is selected -/
  inDir : σ → Prop
  /-- the file is selected -/
  atFile : σ → Prop
  select_dir : ∀ s, (dirAnswer S card s dirFileid).2.Selected ∧ inDir (dirAnswer S card s dirFileid).1 ∧
    records (dirAnswer S card s dirFileid).1 = records s
  select_file : ∀ s, inDir s →
    let a := card s (selectByIdCmd S fileid)
    let d := card a.1 (getResponseCmd S (a.2.data 2).toNat)
    a.2.Selected ∧ 0 ≤ d.2.ret ∧ d.2.sw ((a.2.data 2).toNat + 1) 0x90 0x00 ∧
      (∀ E, recordInfo S E d.2.data = .ok ⟨recLen, count⟩) ∧ atFile d.1 ∧ records d.1 = records s
  read : ∀ s i, atFile s → 1 ≤ i → i ≤ count →
    let a := card s (readRecordCmd S i recLen)
    0 ≤ a.2.ret ∧ a.2.sw (recLen + 1) 0x90 0x00 ∧ Holds a.2.data 1 (records s i) ∧ atFile a.1 ∧
      records a.1 = records s
  update : ∀ s i data, atFile s → 1 ≤ i → i ≤ count → data.length ≤ recLen →
    let a := card s (updateRecordCmd S i data)
    0 ≤ a.2.ret ∧ a.2.Updated ∧ atFile a.1 ∧ data <+: records a.1 i ∧ ∀ j, j ≠ i → records a.1 j = records s j
  reselect : ∀ s, records (card s (reselectCmd S)).1 = records s

section Linear

variable {S : Sim} {E : Env} {dirFileid : ℤ} {fileid : Word} {σ : Type} {card : σ → Apdu → σ × Resp}
  (F : LinearFile S dirFileid fileid card)

/-- The end of a function that selects back. -/
theorem run_leave {α : Type} (a : α) (s : σ) :
    (run card (leave S true a) s).val = some a ∧ F.records (run card (leave S true a) s).state = F.records s :=
  ⟨rfl, F.reselect s⟩

/-- A function that works on the file gets to its description. -/
theorem run_toRecords (hdir : dirFileid ≠ 0) (s : σ) {α : Type} {out : ℤ → α} {body : Bool → Mem → Card α}
    {p : Card α} (hp : p = withDir S dirFileid out fun b => withFile S fileid b out fun resp =>
      withDescription S resp b out (body b)) :
    ∃ t buffer, F.atFile t ∧ F.records t = F.records s ∧
      (∀ E, recordInfo S E buffer = .ok ⟨F.recLen, F.count⟩) ∧
      (run card p s).val = (run card (body true buffer) t).val ∧
      (run card p s).state = (run card (body true buffer) t).state := by
  subst hp
  obtain ⟨hsel, hin, hrec⟩ := F.select_dir s
  obtain ⟨hfile, hret, hsw, hinfo, hat, hrec'⟩ := F.select_file _ hin
  have hnf := not_notFound_of_accepted hfile.2
  refine ⟨_, _, hat, hrec'.trans hrec, hinfo, ?_⟩
  rw [run_withDir hdir hsel]
  simp only [withFile, withDescription, sendReceiveAPDU, run_query_bind, not_lt.mpr hfile.1, hnf, hfile.2,
    not_lt.mpr hret, hsw, if_false, not_true, and_self]

/-- The loop over the records writes the data to each of them. -/
theorem run_writeRecords {len : ℤ} {buf : Mem} {l : List Byte} (hbuf : Holds buf 0 l) (hlen : len = l.length)
    (h251 : l.length ≤ 251) (hrec : l.length ≤ F.recLen) : ∀ (left i : ℕ) (s : σ), F.atFile s → 1 ≤ i →
    left + i = F.count + 1 →
    let o := run card (writeRecords S len buf true left i) s
    o.val = some 0 ∧ (∀ j, i ≤ j → j ≤ F.count → l <+: F.records o.state j) ∧
      ∀ j, j < i → F.records o.state j = F.records s j
  | 0, i, s, _, _, hi => by
    obtain ⟨hval, hsame⟩ := run_leave F (0 : ℤ) s
    refine ⟨hval, fun j h1 h2 => by omega, fun j _ => ?_⟩
    rw [writeRecords, hsame]
  | left + 1, i, s, hat, h1, hi => by
    have hdata : commandData buf len = pure l := by
      rw [commandData, if_pos (by omega), hbuf.bytes_eq (by omega)]
    obtain ⟨hret, hupd, hat', hpre, hother⟩ := F.update s i l hat h1 (by omega) hrec
    have hstep : run card (writeRecords S len buf true (left + 1) i) s =
        ⟨(run card (writeRecords S len buf true left (i + 1)) (card s (updateRecordCmd S i l)).1).state,
          (updateRecordCmd S i l, (card s (updateRecordCmd S i l)).2) ::
            (run card (writeRecords S len buf true left (i + 1)) (card s (updateRecordCmd S i l)).1).log,
          (run card (writeRecords S len buf true left (i + 1)) (card s (updateRecordCmd S i l)).1).val⟩ := by
      rw [writeRecords, updateRecord, hdata]
      simp only [Dialogue.pure_bind, sendReceiveAPDU, run_query_bind, not_lt.mpr hret, hupd, if_false, not_true]
    obtain ⟨hval, hnew, hold⟩ := run_writeRecords hbuf hlen h251 hrec left (i + 1) _ hat' (by omega) (by omega)
    rw [hstep]
    refine ⟨hval, fun j hj hj' => ?_, fun j hj => ?_⟩
    · rcases Nat.eq_or_lt_of_le hj with rfl | hlt
      · rw [hold i (by omega)]
        exact hpre
      · exact hnew j hlt hj'
    · rw [hold j (by omega), hother j (by omega)]

/-- `usim_write_linearfixed` writes the data to every record. -/
theorem run_writeLinearfixed (hdir : dirFileid ≠ 0) {len : ℤ} {buf : Mem} {l : List Byte} (hbuf : Holds buf 0 l)
    (hlen : len = l.length) (h251 : l.length ≤ 251) (hrec : l.length ≤ F.recLen) (s : σ) :
    let o := run card (writeLinearfixed S E fileid len buf dirFileid) s
    o.val = some 0 ∧ ∀ j, 1 ≤ j → j ≤ F.count → l <+: F.records o.state j := by
  obtain ⟨t, buffer, hat, -, hinfo, hval, hstate⟩ :=
    run_toRecords F hdir s (rfl : writeLinearfixed S E fileid len buf dirFileid = _)
  simp only [hinfo] at hval hstate
  obtain ⟨hv, hnew, -⟩ := run_writeRecords F hbuf hlen h251 hrec F.count 1 t hat le_rfl rfl
  refine ⟨hval.trans hv, fun j hj hj' => ?_⟩
  rw [hstate]
  exact hnew j hj hj'

/-- Data that does not fit into the command of `usim_update_record` is copied past its end. -/
theorem run_writeLinearfixed_overrun (hdir : dirFileid ≠ 0) (hcount : 1 ≤ F.count) {len : ℤ} (h251 : 251 < len)
    (buf : Mem) (s : σ) : (run card (writeLinearfixed S E fileid len buf dirFileid) s).val = none := by
  obtain ⟨t, buffer, -, -, hinfo, hval, -⟩ :=
    run_toRecords F hdir s (rfl : writeLinearfixed S E fileid len buf dirFileid = _)
  simp only [hinfo] at hval
  obtain ⟨n, hn⟩ := Nat.exists_eq_add_of_le' hcount
  rw [hval, hn, writeRecords, updateRecord, commandData, if_neg (by omega)]
  rfl

/-- The loop over the records ends with the last one in the buffer. -/
theorem run_readRecords : ∀ (left i : ℕ) (len : ℤ) (buf : Mem) (s : σ), F.atFile s → 1 ≤ i →
    left + i = F.count + 1 → (left = 0 → len = F.recLen ∧ Holds buf 0 (F.records s F.count)) →
    let o := run card (readRecords S F.recLen true left i len buf) s
    ∃ buf', o.val = some ⟨0, F.recLen, buf'⟩ ∧ Holds buf' 0 (F.records s F.count) ∧
      F.records o.state = F.records s
  | 0, i, len, buf, s, _, _, _, h0 => by
    obtain ⟨rfl, hbuf⟩ := h0 rfl
    obtain ⟨hval, hsame⟩ := run_leave F (⟨0, F.recLen, buf⟩ : ReadOut) s
    exact ⟨buf, hval, hbuf, hsame⟩
  | left + 1, i, len, buf, s, hat, h1, hi, _ => by
    obtain ⟨hret, hsw, hdata, hat', hsame⟩ := F.read s i hat h1 (by omega)
    have hstep : run card (readRecords S F.recLen true (left + 1) i len buf) s =
        let a := card s (readRecordCmd S i F.recLen)
        let o := run card (readRecords S F.recLen true left (i + 1) F.recLen (copy buf 0 a.2.data 1 F.recLen)) a.1
        ⟨o.state, (readRecordCmd S i F.recLen, a.2) :: o.log, o.val⟩ := by
      rw [readRecords]
      simp only [sendReceiveAPDU, run_query_bind, not_lt.mpr hret, hsw, if_false, not_true]
    have hcopy : Holds (copy buf 0 (card s (readRecordCmd S i F.recLen)).2.data 1 F.recLen) 0 (F.records s i) := by
      have h := hdata.copy buf 0
      rwa [F.length_records] at h
    obtain ⟨buf', hval, hbuf', hst⟩ := run_readRecords left (i + 1) F.recLen
      (copy buf 0 (card s (readRecordCmd S i F.recLen)).2.data 1 F.recLen) _ hat' (by omega) (by omega) (by
        rintro rfl
        refine ⟨rfl, ?_⟩
        rw [hsame]
        have : i = F.count := by omega
        rw [← this]
        exact hcopy)
    rw [hstep]
    rw [hsame] at hbuf' hst
    exact ⟨buf', hval, hbuf', hst⟩

/-- `usim_read_linearfixed` delivers the last record. -/
theorem run_readLinearfixed (hdir : dirFileid ≠ 0) (hcount : 1 ≤ F.count) (len : ℤ) (buf : Mem) (s : σ) :
    let o := run card (readLinearfixed S E fileid len buf dirFileid) s
    ∃ buf', o.val = some ⟨0, F.recLen, buf'⟩ ∧ Holds buf' 0 (F.records s F.count) ∧
      F.records o.state = F.records s := by
  obtain ⟨t, buffer, hat, hsame, hinfo, hval, hstate⟩ :=
    run_toRecords F hdir s (rfl : readLinearfixed S E fileid len buf dirFileid = _)
  simp only [hinfo] at hval hstate
  obtain ⟨buf', hv, hbuf', hst⟩ := run_readRecords F F.count 1 len buf t hat le_rfl rfl (by omega)
  refine ⟨buf', hval.trans hv, hsame ▸ hbuf', ?_⟩
  rw [hstate, hst, hsame]

end Linear

/-! ### A card with records -/

/-- A record filled up with `FF`, or cut off. -/
def fitRecord (n : ℕ) (l : List Byte) : List Byte := (l ++ List.replicate n 0xff).take n

theorem length_fitRecord (n : ℕ) (l : List Byte) : (fitRecord n l).length = n := by
  simp [fitRecord]

theorem prefix_fitRecord {n : ℕ} {l : List Byte} (h : l.length ≤ n) : l <+: fitRecord n l := by
  rw [fitRecord, List.take_append, List.take_of_length_le h]
  exact List.prefix_append _ _

/-- A USIM that keeps `count` records of `recLen` bytes and describes them in a
template with one TLV. -/
def recordCard (recLen count : ℕ) (s : ℕ → List Byte) (q : Apdu) : (ℕ → List Byte) × Resp :=
  if q.getD 1 0 = 0xa4 then (s, statusResp 0x61 0x09)
  else if q.getD 1 0 = 0xc0 then
    (s, ⟨0, ofList [0xc0, 0x62, 0x07, 0x82, 0x05, 0x42, 0x21, BitVec.ofNat 8 (recLen / 256), BitVec.ofNat 8 recLen,
      BitVec.ofNat 8 count, 0x90, 0x00]⟩)
  else if q.getD 1 0 = 0xb2 then
    (s, ⟨0, ofList ([0xb2] ++ fitRecord recLen (s (q.getD 2 0).toNat) ++ [0x90, 0x00])⟩)
  else if q.getD 1 0 = 0xdc then
    (Function.update s (q.getD 2 0).toNat (q.drop 5), statusResp 0x90 0x00)
  else (s, statusResp 0x6d 0x00)

theorem selected_of_61 (sw2 : Byte) : (statusResp 0x61 sw2).Selected := ⟨le_rfl, .inr (.inl rfl)⟩

theorem recordInfo_recordCard {S : Sim} (hS : S.type = .usim) (E : Env) {recLen count : ℕ} (hr : recLen < 65536)
    (hc : count < 256) (rest : List Byte) :
    recordInfo S E (ofList ([0xc0, 0x62, 0x07, 0x82, 0x05, 0x42, 0x21, BitVec.ofNat 8 (recLen / 256),
      BitVec.ofNat 8 recLen, BitVec.ofNat 8 count] ++ rest)) = .ok ⟨recLen, count⟩ := by
  have hparse : ∀ hi lo cnt : Byte, recordInfo S E (ofList ([0xc0, 0x62, 0x07, 0x82, 0x05, 0x42, 0x21, hi, lo, cnt] ++
      rest)) = .ok ⟨hi.toNat * 256 + lo.toNat, cnt.toNat⟩ := by
    intro hi lo cnt
    rw [recordInfo, hS]
    rfl
  rw [hparse, BitVec.toNat_ofNat, BitVec.toNat_ofNat, BitVec.toNat_ofNat]
  congr 2
  · omega
  · omega

/-- The card keeps its records. -/
def recordFile {S : Sim} (hS : S.type = .usim) (dirFileid : ℤ) (fileid : Word) (recLen count : ℕ)
    (hr : recLen ≤ 253) (hc : count < 256) : LinearFile S dirFileid fileid (recordCard recLen count) where
  recLen := recLen
  count := count
  recLen_le := hr
  records s i := fitRecord recLen (s i)
  length_records s i := length_fitRecord recLen (s i)
  inDir _ := True
  atFile _ := True
  select_dir s := ⟨selected_of_61 _, trivial, rfl⟩
  select_file s _ := ⟨selected_of_61 _, le_rfl, ⟨rfl, rfl⟩,
    fun E => recordInfo_recordCard hS E (by omega) hc [0x90, 0x00], trivial, rfl⟩
  read s i _ _ h2 := by
    have hread : recordCard recLen count s (readRecordCmd S i recLen) =
        (s, ⟨0, ofList ([0xb2] ++ fitRecord recLen (s i) ++ [0x90, 0x00])⟩) := by
      have hi : (BitVec.ofNat 8 i).toNat = i := by
        rw [BitVec.toNat_ofNat]
        exact Nat.mod_eq_of_lt (by omega)
      show (s, (⟨0, ofList ([0xb2] ++ fitRecord recLen (s (BitVec.ofNat 8 i).toNat) ++ [0x90, 0x00])⟩ : Resp)) = _
      rw [hi]
    have hheld := holds_ofList ([0xb2] ++ fitRecord recLen (s i) ++ [0x90, 0x00])
    simp only [holds_append, holds_cons, List.length_append, length_fitRecord, List.length_singleton] at hheld
    obtain ⟨⟨-, hdata⟩, h90, h00, -⟩ := hheld
    push_cast at h90 h00
    rw [hread]
    refine ⟨le_rfl, ⟨?_, ?_⟩, hdata, trivial, rfl⟩
    · rwa [zero_add, add_comm] at h90
    · rwa [zero_add, add_comm (1 : ℤ)] at h00
  update s i data _ _ h2 hlen := by
    have hupdate : recordCard recLen count s (updateRecordCmd S i data) =
        (Function.update s i data, statusResp 0x90 0x00) := by
      have hi : (BitVec.ofNat 8 i).toNat = i := by
        rw [BitVec.toNat_ofNat]
        exact Nat.mod_eq_of_lt (by omega)
      show (Function.update s (BitVec.ofNat 8 i).toNat data, statusResp 0x90 0x00) = _
      rw [hi]
    rw [hupdate]
    refine ⟨le_rfl, .inl ⟨rfl, rfl⟩, trivial, ?_, fun j hj => ?_⟩
    · simp only [Function.update_self]
      exact prefix_fitRecord hlen
    · simp only [Function.update_of_ne hj]
  reselect s := by
    have hsel : recordCard recLen count s (reselectCmd S) = (s, statusResp 0x61 0x09) := by
      rw [reselectCmd, hS]
      rfl
    rw [hsel]

/-! ### Transparent files -/

/-- The list with `data` over it from `off` on. -/
def overwrite (l : List Byte) (off : ℕ) (data : List Byte) : List Byte :=
  l.take off ++ data ++ l.drop (off + data.length)

/-- A card with a transparent file in the application. -/
structure TransparentFile (S : Sim) (fileid : Word) {σ : Type} (card : σ → Apdu → σ × Resp) where
  content : σ → List Byte
  /-- the application is selected -/
  inApp : σ → Prop
  /-- the file is selected, in the application -/
  atFile : σ → Prop
  inApp_of_atFile : ∀ s, atFile s → inApp s
  select : ∀ s, inApp s →
    let a := card s (selectByIdCmd S fileid)
    let d := card a.1 (getResponseCmd S (a.2.data 2).toNat)
    a.2.Selected ∧ 0 ≤ d.2.ret ∧ d.2.sw ((a.2.data 2).toNat + 1) 0x90 0x00 ∧
      (∀ E, transparentLen S E d.2.data = some ((content s).length : ℤ)) ∧ atFile d.1 ∧ content d.1 = content s
  read : ∀ s, atFile s →
    let a := card s (readBinaryCmd S (content s).length)
    0 ≤ a.2.ret ∧ a.2.sw ((content s).length + 1) 0x90 0x00 ∧ Holds a.2.data 1 (content s) ∧ atFile a.1 ∧
      content a.1 = content s
  update : ∀ s (offHigh offLow : Byte) data, atFile s →
    offHigh.toNat * 256 + offLow.toNat + data.length ≤ (content s).length →
    let a := card s (updateBinaryCmd S offHigh offLow data)
    0 ≤ a.2.ret ∧ a.2.Updated ∧ atFile a.1 ∧
      content a.1 = overwrite (content s) (offHigh.toNat * 256 + offLow.toNat) data

section Transparent

variable {S : Sim} {E : Env} {fileid : Word} {σ : Type} {card : σ → Apdu → σ × Resp}
  (F : TransparentFile S fileid card)

/-- `usim_read_transparent` delivers the content, if there is memory for it. -/
theorem run_readTransparent {s : σ} (hs : F.inApp s) (len : ℤ) (buf : Mem) :
    let o := run card (readTransparent S E fileid len buf 0) s
    F.atFile o.state ∧ F.content o.state = F.content s ∧
      ∃ out, o.val = some out ∧
        if E.malloc ((F.content s).length + 3) then
          out.ret = 0 ∧ out.len = (F.content s).length ∧ Holds out.buf 0 (F.content s)
        else out.ret = -1 := by
  obtain ⟨hsel, hret, hsw, hlen, hat, hsame⟩ := F.select s hs
  have hnf := not_notFound_of_accepted hsel.2
  have hlenE := hlen E
  obtain ⟨hret', hsw', hdata, hat', hsame'⟩ := F.read _ hat
  rw [hsame] at hret' hsw' hdata hat' hsame'
  -- the file is selected and described, and then read if there is memory
  simp only [readTransparent, withDir, withFile, readFile, withDescription, sendReceiveAPDU, run_query_bind,
    ne_eq, not_true, if_false, not_lt.mpr hsel.1, hnf, hsel.2, not_lt.mpr hret, hsw, hlenE]
  by_cases hm : E.malloc ((F.content s).length + 3)
  · simp only [hm, not_true, if_false, run_query_bind, not_lt.mpr hret', hsw', if_true]
    have hcopy : ∀ src : Mem, copyOut buf src (F.content s).length =
        pure (copy buf 0 src 1 (F.content s).length) := fun src => if_pos (by omega)
    rw [hcopy]
    exact ⟨hat', hsame', _, rfl, rfl, rfl, hdata.copy buf 0⟩
  · simp only [hm]
    exact ⟨hat, hsame, _, rfl, rfl⟩

end Transparent

/-! ### A card with a transparent file -/

/-- Writing inside a list keeps its length. -/
theorem length_overwrite {l data : List Byte} {off : ℕ} (h : off + data.length ≤ l.length) :
    (overwrite l off data).length = l.length := by
  simp only [overwrite, List.length_append, List.length_take, List.length_drop]
  omega

/-- A USIM that keeps one transparent file and gives its length in a template
with one TLV. -/
def binaryCard (s : List Byte) (q : Apdu) : List Byte × Resp :=
  if q.getD 1 0 = 0xa4 then (s, statusResp 0x61 0x06)
  else if q.getD 1 0 = 0xc0 then
    (s, ⟨0, ofList [0xc0, 0x62, 0x04, 0x80, 0x02, BitVec.ofNat 8 (s.length / 256), BitVec.ofNat 8 s.length, 0x90, 0x00]⟩)
  else if q.getD 1 0 = 0xb0 then (s, ⟨0, ofList ([0xb0] ++ s ++ [0x90, 0x00])⟩)
  else if q.getD 1 0 = 0xd6 then
    (overwrite s ((q.getD 2 0).toNat * 256 + (q.getD 3 0).toNat) (q.drop 5), statusResp 0x90 0x00)
  else (s, statusResp 0x6d 0x00)

theorem transparentLen_binaryCard {S : Sim} (hS : S.type = .usim) (E : Env) {n : ℕ} (hn : n ≤ 253) :
    transparentLen S E (ofList [0xc0, 0x62, 0x04, 0x80, 0x02, BitVec.ofNat 8 (n / 256), BitVec.ofNat 8 n, 0x90, 0x00]) =
      some (n : ℤ) := by
  have hparse : ∀ hi lo : Byte, transparentLen S E (ofList [0xc0, 0x62, 0x04, 0x80, 0x02, hi, lo, 0x90, 0x00]) =
      some (hi.toNat * 256 + lo.toNat) := by
    intro hi lo
    rw [transparentLen, hS]
    rfl
  have hsum : n / 256 % 2 ^ 8 * 256 + n % 2 ^ 8 = n := by omega
  rw [hparse, BitVec.toNat_ofNat, BitVec.toNat_ofNat]
  exact congrArg some (by exact_mod_cast hsum)

/-- The card keeps its file. -/
def binaryFile {S : Sim} (hS : S.type = .usim) (fileid : Word) : TransparentFile S fileid binaryCard where
  content s := s
  inApp s := s.length ≤ 253
  atFile s := s.length ≤ 253
  inApp_of_atFile _ h := h
  select s hs := ⟨selected_of_61 _, le_rfl, ⟨rfl, rfl⟩,
    fun E => transparentLen_binaryCard hS E hs, hs, rfl⟩
  read s hs := by
    have hheld := holds_ofList ([0xb0] ++ s ++ [0x90, 0x00])
    simp only [holds_append, holds_cons, List.length_append, List.length_singleton] at hheld
    obtain ⟨⟨-, hdata⟩, h90, h00, -⟩ := hheld
    push_cast at h90 h00
    refine ⟨le_rfl, ⟨?_, ?_⟩, hdata, hs, rfl⟩
    · rwa [zero_add, add_comm] at h90
    · rwa [zero_add, add_comm (1 : ℤ)] at h00
  update s offHigh offLow data hs hfits := by
    have hlen := length_overwrite hfits
    exact ⟨le_rfl, .inl ⟨rfl, rfl⟩, hlen.trans_le hs, rfl⟩

end Usim
end La12xx
