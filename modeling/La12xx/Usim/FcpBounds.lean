/-
# The bytes the template parser reads

`usim_parse_fcp_tmpl` once more, on the array of 256 bytes it is called with: every
index is checked, and what the caller's variables hold before is not known. The
parser reads only the array exactly when `Readable` holds of the template
(`parseFcpTmpl_eq`), and gives then what `parseFcpTmpl` of `Apdu` gives.
-/
import La12xx.Lib.Arr
import La12xx.Usim.Fcp

namespace La12xx
namespace Usim

open ByteMem Dialogue

namespace Bounds

/-! ### The function -/

def logError : BitVec 32 := 1

def logInfo : BitVec 32 := 2

/-- `usim_dbg` prints at the level, and looks at what it prints. -/
def Logs (debug level : BitVec 32) : Prop := debug &&& level ≠ 0

instance (debug level : BitVec 32) : Decidable (Logs debug level) := inferInstanceAs (Decidable (_ ≠ _))

/-- What the parser has assigned. -/
structure Parsed where
  fileLen : Option ℤ
  record : Option UsimRec

/-- The tags of which the parser only prints something, and that with the first
byte of the value. -/
def printedTags : List Byte := [0x83, 0xa5, 0x8a, 0xc6, 0x88, 0x8b, 0x8c, 0xab]

section Parser

variable (debug : BitVec 32) (wantLen wantRec : Bool)

/-- `usim_dbg(LOG_INFO, .., pos[2], pos[1])` -/
def printTlv (buffer : Arr) (pos : ℤ) : Card Unit :=
  if Logs debug logInfo then do
    let _ ← buffer.get (pos + 2)
    let _ ← buffer.get (pos + 1)
    pure ()
  else pure ()

/-- The case `USIM_TLV_FILE_DESC`. -/
def descCase (buffer : Arr) (pos : ℤ) (p : Parsed) : Card Parsed := do
  let _ ← printTlv debug buffer pos
  if wantRec then
    let a ← buffer.get (pos + 4)
    let b ← buffer.get (pos + 5)
    let c ← buffer.get (pos + 6)
    pure { p with record := some ⟨a.toNat * 256 + b.toNat, c.toNat⟩ }
  else pure p

/-- The case `USIM_TLV_FILE_SIZE`. -/
def sizeCase (buffer : Arr) (pos : ℤ) (p : Parsed) : Card Parsed := do
  let _ ← printTlv debug buffer pos
  if wantLen then
    let n ← buffer.get (pos + 1)
    if n = 1 then
      let a ← buffer.get (pos + 2)
      pure { p with fileLen := some a.toNat }
    else if n = 2 then
      let a ← buffer.get (pos + 2)
      let b ← buffer.get (pos + 3)
      pure { p with fileLen := some (a.toNat * 256 + b.toNat) }
    else pure p
  else pure p

/-- The `switch` on the TLV at `pos`, for the pointers that are given. The default
case prints the two bytes that are read in any case. -/
def tlvCase (buffer : Arr) (pos : ℤ) (p : Parsed) : Card Parsed := do
  let tag ← buffer.get pos
  if tag = 0x82 then descCase debug wantRec buffer pos p
  else if tag = 0x80 then sizeCase debug wantLen buffer pos p
  else if tag ∈ printedTags then do
    let _ ← printTlv debug buffer pos
    pure p
  else pure p

/-- The loop of `usim_parse_fcp_tmpl`; `none` is the return value `-1`. -/
def parseFcpLoop (buffer : Arr) (last : ℤ) : ℕ → ℤ → Parsed → Card (Option Parsed)
  | 0, _, _ => pure none
  | fuel + 1, pos, p =>
    if pos + 1 < last then do
      let p ← tlvCase debug wantLen wantRec buffer pos p
      let n ← buffer.get (pos + 1)
      let pos := pos + (2 + n.toNat)
      if pos = last then pure (some p) else parseFcpLoop buffer last fuel pos p
    else pure none

/-- `usim_parse_fcp_tmpl` -/
def parseFcpTmpl (buffer : Arr) : Card (Option Parsed) := do
  let tag ← buffer.get 1
  if tag ≠ 0x62 then pure none
  else
    let n ← buffer.get 2
    parseFcpLoop debug wantLen wantRec buffer (3 + n.toNat) n.toNat 3 ⟨none, none⟩

/-! ### What is read of a TLV -/

/-- The last byte that the `switch` reads of a TLV, counted from its tag. -/
def caseRead (tag n : Byte) : ℤ :=
  if tag = 0x82 ∧ wantRec then 6
  else if tag = 0x80 ∧ wantLen then if n = 2 then 3 else if n = 1 ∨ Logs debug logInfo then 2 else 1
  else if tag ∈ 0x82 :: 0x80 :: printedTags ∧ Logs debug logInfo then 2
  else 0

/-- The last byte that is read of a TLV; its length is read in any case. -/
def lastRead (tag n : Byte) : ℤ := max 1 (caseRead debug wantLen wantRec tag n)

/-- What a TLV assigns. -/
def assign (m : Mem) (pos : ℤ) (p : Parsed) : Parsed :=
  if m pos = 0x82 then
    if wantRec then { p with record := some ⟨(m (pos + 4)).toNat * 256 + (m (pos + 5)).toNat, (m (pos + 6)).toNat⟩ }
    else p
  else if m pos = 0x80 then
    if wantLen then
      if m (pos + 1) = 1 then { p with fileLen := some (m (pos + 2)).toNat }
      else if m (pos + 1) = 2 then
        { p with fileLen := some ((m (pos + 2)).toNat * 256 + (m (pos + 3)).toNat) }
      else p
    else p
  else p

variable {debug wantLen wantRec}

theorem printTlv_bind {buffer : Arr} {pos : ℤ} (hpos : 0 ≤ pos) {α : Type} (f : Unit → Card α) :
    (printTlv debug buffer pos >>= f) = if Logs debug logInfo ∧ buffer.size ≤ pos + 2 then .fault else f () := by
  have hpure : ((pure () : Card Unit) >>= f) = f () := Dialogue.pure_bind () f
  rw [printTlv]
  by_cases hlog : Logs debug logInfo
  · by_cases h2 : pos + 2 < buffer.size
    · have h2' : buffer.Inside (pos + 2) := ⟨by omega, h2⟩
      have h1' : buffer.Inside (pos + 1) := ⟨by omega, by omega⟩
      rw [if_pos hlog, Arr.get_bind h2', Arr.get_bind h1', hpure, if_neg fun h => by omega]
    · rw [if_pos hlog, Arr.get_bind_of_not fun h => h2 h.2, fault_bind, if_pos ⟨hlog, by omega⟩]
  · rw [if_neg hlog, hpure, if_neg fun h => hlog h.1]

/-- A case that only prints reads up to the first byte of the value, if it prints. -/
theorem printed_eq {buffer : Arr} {pos : ℤ} (hlt : pos < buffer.size) (p : Parsed) :
    (if Logs debug logInfo ∧ buffer.size ≤ pos + 2 then .fault else pure p : Card Parsed) =
      if pos + (if Logs debug logInfo then 2 else 0) < buffer.size then pure p else .fault := by
  by_cases hlog : Logs debug logInfo
  · simp only [hlog, true_and, if_true]
    split_ifs <;> first | rfl | omega
  · simp only [hlog, false_and, if_false, add_zero, hlt, if_true]

/-- The case of a descriptor reads up to its last byte. -/
theorem descCase_eq {buffer : Arr} {pos : ℤ} (hpos : 0 ≤ pos) (hlt : pos < buffer.size) (p : Parsed)
    (htag : buffer.mem pos = 0x82) (n : Byte) :
    descCase debug wantRec buffer pos p =
      if pos + caseRead debug wantLen wantRec 0x82 n < buffer.size then pure (assign wantLen wantRec buffer.mem pos p)
      else .fault := by
  rw [descCase, printTlv_bind hpos, assign, if_pos htag, caseRead]
  cases wantRec with
  | true =>
    simp only [if_true, and_self, Arr.get_bind_eq]
    split_ifs <;> first | rfl | omega
  | false =>
    have hmem : (0x82 : Byte) ∈ 0x82 :: 0x80 :: printedTags := List.mem_cons_self
    have hne : (0x82 : Byte) ≠ 0x80 := by decide
    simp only [if_false, and_false, hne, false_and, hmem, true_and, Bool.false_eq_true]
    exact printed_eq hlt p

/-- The case of a size reads up to its last byte. -/
theorem sizeCase_eq {buffer : Arr} {pos : ℤ} (hpos : 0 ≤ pos) (hlt : pos < buffer.size) (p : Parsed)
    (htag : buffer.mem pos = 0x80) :
    sizeCase debug wantLen buffer pos p =
      if pos + caseRead debug wantLen wantRec 0x80 (buffer.mem (pos + 1)) < buffer.size then
        pure (assign wantLen wantRec buffer.mem pos p)
      else .fault := by
  have hne : (0x80 : Byte) ≠ 0x82 := by decide
  have hdesc : buffer.mem pos ≠ 0x82 := htag ▸ hne
  rw [sizeCase, printTlv_bind hpos, assign, if_neg hdesc, if_pos htag, caseRead]
  cases wantLen with
  | true =>
    have h12 : (1 : Byte) ≠ 2 := by decide
    simp only [if_true, and_true, hne, false_and, if_false, Arr.get_bind_eq]
    by_cases h1 : buffer.mem (pos + 1) = 1
    · simp only [h1, h12, if_true, if_false, true_or]
      split_ifs <;> first | rfl | omega
    · by_cases h2 : buffer.mem (pos + 1) = 2
      · simp only [h2, h12.symm, if_true, if_false]
        split_ifs <;> first | rfl | omega
      · simp only [h1, h2, if_false, false_or]
        by_cases hlog : Logs debug logInfo
        · simp only [hlog, true_and, if_true]
          split_ifs <;> first | rfl | omega
        · simp only [hlog, false_and, if_false]
          split_ifs <;> first | rfl | omega
  | false =>
    have hmem : (0x80 : Byte) ∈ 0x82 :: 0x80 :: printedTags := List.mem_cons_of_mem _ List.mem_cons_self
    simp only [if_false, and_false, hne, false_and, hmem, true_and, Bool.false_eq_true]
    exact printed_eq hlt p

theorem tlvCase_eq {buffer : Arr} {pos : ℤ} (hpos : 0 ≤ pos) (hlt : pos < buffer.size) (p : Parsed) :
    tlvCase debug wantLen wantRec buffer pos p =
      if pos + caseRead debug wantLen wantRec (buffer.mem pos) (buffer.mem (pos + 1)) < buffer.size then
        pure (assign wantLen wantRec buffer.mem pos p)
      else .fault := by
  rw [tlvCase, Arr.get_bind ⟨hpos, hlt⟩]
  by_cases hdesc : buffer.mem pos = 0x82
  · rw [if_pos hdesc, descCase_eq hpos hlt p hdesc, hdesc]
  by_cases hsize : buffer.mem pos = 0x80
  · rw [if_neg hdesc, if_pos hsize, sizeCase_eq hpos hlt p hsize, hsize]
  have hassign : assign wantLen wantRec buffer.mem pos p = p := by rw [assign, if_neg hdesc, if_neg hsize]
  have hread : caseRead debug wantLen wantRec (buffer.mem pos) (buffer.mem (pos + 1)) =
      if buffer.mem pos ∈ printedTags ∧ Logs debug logInfo then 2 else 0 := by
    simp only [caseRead, hdesc, hsize, List.mem_cons, false_and, false_or, if_false]
  rw [if_neg hdesc, if_neg hsize, hassign, hread]
  by_cases hprint : buffer.mem pos ∈ printedTags
  · rw [if_pos hprint, printTlv_bind hpos]
    simp only [hprint, true_and]
    exact printed_eq hlt p
  · simp only [hprint, false_and, if_false, add_zero, hlt, if_true]

/-- One TLV is read without a fault when the last byte that is read is inside. -/
theorem tlvCase_bind {buffer : Arr} {pos : ℤ} (hpos : 0 ≤ pos) (p : Parsed) {α : Type} (f : Parsed → Byte → Card α) :
    (do
      let p ← tlvCase debug wantLen wantRec buffer pos p
      let n ← buffer.get (pos + 1)
      f p n) =
      if pos + lastRead debug wantLen wantRec (buffer.mem pos) (buffer.mem (pos + 1)) < buffer.size then
        f (assign wantLen wantRec buffer.mem pos p) (buffer.mem (pos + 1))
      else .fault := by
  have hmax : ∀ c : ℤ, pos + max 1 c < buffer.size ↔ pos + 1 < buffer.size ∧ pos + c < buffer.size := by omega
  simp only [lastRead, hmax]
  by_cases hlt : pos < buffer.size
  · rw [tlvCase_eq hpos hlt]
    by_cases hcase : pos + caseRead debug wantLen wantRec (buffer.mem pos) (buffer.mem (pos + 1)) < buffer.size
    · rw [if_pos hcase, Dialogue.pure_bind, Arr.get_bind_eq]
      simp only [hcase, and_true, show 0 ≤ pos + 1 by omega, true_and]
    · rw [if_neg hcase, fault_bind, if_neg fun h => hcase h.2]
  · rw [tlvCase, Arr.get_bind_of_not fun h => hlt h.2, fault_bind, if_neg fun h => by omega]

/-! ### The loop -/

/-- Every TLV that begins behind whole TLVs and before the end is read inside the
array. -/
def ReadableFrom (debug : BitVec 32) (wantLen wantRec : Bool) (buffer : Arr) (last pos : ℤ) : Prop :=
  ∀ (p : ℤ) (ts : List La12xx.Tlv), La12xx.Tlv.Fill buffer.mem pos p ts → p + 1 < last →
    p + lastRead debug wantLen wantRec (buffer.mem p) (buffer.mem (p + 1)) < buffer.size

/-- The effect of the TLVs from `pos` on. -/
def assignAll (wantLen wantRec : Bool) (m : Mem) : ℤ → List La12xx.Tlv → Parsed → Parsed
  | _, [], p => p
  | pos, t :: ts, p => assignAll wantLen wantRec m (pos + (2 + t.value.length)) ts (assign wantLen wantRec m pos p)

theorem readableFrom_step {buffer : Arr} {last pos : ℤ} (h : pos + 1 < last) :
    ReadableFrom debug wantLen wantRec buffer last pos ↔
      pos + lastRead debug wantLen wantRec (buffer.mem pos) (buffer.mem (pos + 1)) < buffer.size ∧
        ReadableFrom debug wantLen wantRec buffer last (pos + (2 + (buffer.mem (pos + 1)).toNat)) := by
  constructor
  · intro hr
    refine ⟨hr pos [] (La12xx.Tlv.fill_nil.mpr rfl) h, fun p ts hts => ?_⟩
    exact hr p (La12xx.Tlv.stored buffer.mem pos :: ts) (La12xx.Tlv.fill_cons.mpr ⟨rfl, hts⟩)
  · rintro ⟨hhere, hrest⟩ p ts hts hp
    cases ts with
    | nil =>
      obtain rfl := La12xx.Tlv.fill_nil.mp hts
      exact hhere
    | cons t ts => exact hrest p ts (La12xx.Tlv.fill_cons.mp hts).2 hp

/-- The TLVs that fill a range that is not empty, by the first. -/
theorem exists_assignAll {m : Mem} {pos last : ℤ} {p q : Parsed} :
    (∃ ts, ts ≠ [] ∧ La12xx.Tlv.Fill m pos last ts ∧ q = assignAll wantLen wantRec m pos ts p) ↔
      ∃ ts, La12xx.Tlv.Fill m (pos + (2 + (m (pos + 1)).toNat)) last ts ∧
        q = assignAll wantLen wantRec m (pos + (2 + (m (pos + 1)).toNat)) ts (assign wantLen wantRec m pos p) := by
  constructor
  · rintro ⟨_ | ⟨t, ts⟩, hne, hts, hq⟩
    · exact absurd rfl hne
    · obtain ⟨rfl, hrest⟩ := La12xx.Tlv.fill_cons.mp hts
      rw [assignAll, La12xx.Tlv.length_stored] at hq
      exact ⟨ts, hrest, hq⟩
  · rintro ⟨ts, hts, hq⟩
    refine ⟨La12xx.Tlv.stored m pos :: ts, by simp, La12xx.Tlv.fill_cons.mpr ⟨rfl, hts⟩, ?_⟩
    rw [assignAll, La12xx.Tlv.length_stored]
    exact hq

theorem fill_eq_nil {m : Mem} {pos last : ℤ} {ts : List La12xx.Tlv} (hle : last ≤ pos + 1)
    (hts : La12xx.Tlv.Fill m pos last ts) : ts = [] := by
  cases ts with
  | nil => rfl
  | cons t ts =>
    have := (La12xx.Tlv.fill_cons.mp hts).2.le
    omega

/-- The loop on a template that is read inside the array. -/
theorem parseFcpLoop_of_readable {buffer : Arr} {last : ℤ} (fuel : ℕ) : ∀ {pos : ℤ} (p : Parsed), 0 ≤ pos →
    last ≤ pos + fuel → ReadableFrom debug wantLen wantRec buffer last pos →
    ∃ r, parseFcpLoop debug wantLen wantRec buffer last fuel pos p = pure r ∧
      ∀ q, r = some q ↔ ∃ ts, ts ≠ [] ∧ La12xx.Tlv.Fill buffer.mem pos last ts ∧
        q = assignAll wantLen wantRec buffer.mem pos ts p := by
  induction fuel with
  | zero =>
    intro pos p hpos hle _
    refine ⟨none, rfl, fun q => iff_of_false (by simp) ?_⟩
    rintro ⟨ts, hne, hts, -⟩
    exact hne (fill_eq_nil (by push_cast at hle; omega) hts)
  | succ fuel ih =>
    intro pos p hpos hle hread
    by_cases hlt : pos + 1 < last
    · obtain ⟨hhere, hrest⟩ := (readableFrom_step hlt).mp hread
      rw [parseFcpLoop, if_pos hlt, tlvCase_bind hpos, if_pos hhere]
      simp only [exists_assignAll]
      by_cases hlast : pos + (2 + ((buffer.mem (pos + 1)).toNat : ℤ)) = last
      · refine ⟨some (assign wantLen wantRec buffer.mem pos p), if_pos hlast, fun q => ?_⟩
        rw [Option.some.injEq]
        constructor
        · rintro rfl
          exact ⟨[], La12xx.Tlv.fill_nil.mpr hlast.symm, rfl⟩
        · rintro ⟨ts, hts, hq⟩
          obtain rfl := fill_eq_nil (by omega) hts
          exact hq.symm
      · obtain ⟨r, hr, hq⟩ := ih (assign wantLen wantRec buffer.mem pos p) (by omega) (by push_cast at hle; omega) hrest
        refine ⟨r, (if_neg hlast).trans hr, fun q => (hq q).trans ⟨?_, ?_⟩⟩
        · rintro ⟨ts, -, h⟩
          exact ⟨ts, h⟩
        · rintro ⟨ts, hts, h⟩
          refine ⟨ts, ?_, hts, h⟩
          rintro rfl
          exact hlast (La12xx.Tlv.fill_nil.mp hts).symm
    · refine ⟨none, by rw [parseFcpLoop, if_neg hlt], fun q => iff_of_false (by simp) ?_⟩
      rintro ⟨ts, hne, hts, -⟩
      exact hne (fill_eq_nil (by omega) hts)

theorem parseFcpLoop_of_not_readable {buffer : Arr} {last : ℤ} (fuel : ℕ) : ∀ {pos : ℤ} (p : Parsed), 0 ≤ pos →
    last ≤ pos + fuel → ¬ ReadableFrom debug wantLen wantRec buffer last pos →
    parseFcpLoop debug wantLen wantRec buffer last fuel pos p = .fault := by
  have hbehind : ∀ {pos : ℤ}, last ≤ pos + 1 → ReadableFrom debug wantLen wantRec buffer last pos := by
    intro pos hle p ts hts hp
    have := hts.le
    omega
  induction fuel with
  | zero => exact fun p _ hle h => absurd (hbehind (by push_cast at hle; omega)) h
  | succ fuel ih =>
    intro pos p hpos hle h
    by_cases hlt : pos + 1 < last
    · rw [readableFrom_step hlt, not_and_or] at h
      rw [parseFcpLoop, if_pos hlt, tlvCase_bind hpos]
      by_cases hhere :
          pos + lastRead debug wantLen wantRec (buffer.mem pos) (buffer.mem (pos + 1)) < buffer.size
      · have hrest := h.resolve_left (not_not.mpr hhere)
        have hne : pos + (2 + ((buffer.mem (pos + 1)).toNat : ℤ)) ≠ last := fun heq => hrest (hbehind (by omega))
        rw [if_pos hhere]
        exact (if_neg hne).trans (ih _ (by omega) (by push_cast at hle; omega) hrest)
      · rw [if_neg hhere]
    · exact absurd (hbehind (by omega)) h

end Parser

/-! ### The whole function -/

/-- The template is read inside the array. -/
def Readable (debug : BitVec 32) (wantLen wantRec : Bool) (buffer : Arr) : Prop :=
  buffer.mem 1 = 0x62 → ReadableFrom debug wantLen wantRec buffer (Fcp.last buffer.mem) 3

section Template

variable {debug : BitVec 32} {wantLen wantRec : Bool} {buffer : Arr}

theorem fill_iff_body {m : Mem} {ts : List La12xx.Tlv} : La12xx.Tlv.Fill m 3 (Fcp.last m) ts ↔ Fcp.Body m ts := by
  have hlast : Fcp.last m = 3 + ((La12xx.Tlv.encodeAll ts).length : ℤ) ↔
      (m 2).toNat = (La12xx.Tlv.encodeAll ts).length := by
    rw [Fcp.last]
    omega
  rw [La12xx.Tlv.Fill, hlast, Fcp.Body]
  constructor
  · rintro ⟨hheld, hn⟩
    exact hheld.bytes_eq hn
  · intro h
    have hn := congrArg List.length h
    rw [length_bytes] at hn
    rw [hn] at h
    exact ⟨h, hn⟩

/-- A template that is read inside the array is accepted when its body consists of
TLVs, which are assigned one after the other. -/
theorem parseFcpTmpl_of_readable (hsize : 2 < buffer.size) (h : Readable debug wantLen wantRec buffer) :
    ∃ r, parseFcpTmpl debug wantLen wantRec buffer = pure r ∧
      ∀ q, r = some q ↔ buffer.mem 1 = 0x62 ∧ ∃ ts, ts ≠ [] ∧ Fcp.Body buffer.mem ts ∧
        q = assignAll wantLen wantRec buffer.mem 3 ts ⟨none, none⟩ := by
  have h1 : buffer.Inside 1 := ⟨by decide, by omega⟩
  have h2 : buffer.Inside 2 := ⟨by decide, by omega⟩
  rw [parseFcpTmpl, Arr.get_bind h1]
  by_cases htag : buffer.mem 1 = 0x62
  · obtain ⟨r, hr, hq⟩ := @parseFcpLoop_of_readable debug wantLen wantRec buffer (Fcp.last buffer.mem)
      (buffer.mem 2).toNat 3 ⟨none, none⟩ (by decide) le_rfl (h htag)
    simp only [fill_iff_body] at hq
    refine ⟨r, ?_, fun q => (hq q).trans (and_iff_right htag).symm⟩
    rw [if_neg (not_not.mpr htag), Arr.get_bind h2]
    exact hr
  · exact ⟨none, if_pos htag, fun q => iff_of_false (by simp) fun h => htag h.1⟩

/-- Any other template is a fault. -/
theorem parseFcpTmpl_of_not_readable (hsize : 2 < buffer.size) (h : ¬ Readable debug wantLen wantRec buffer) :
    parseFcpTmpl debug wantLen wantRec buffer = .fault := by
  have h1 : buffer.Inside 1 := ⟨by decide, by omega⟩
  have h2 : buffer.Inside 2 := ⟨by decide, by omega⟩
  obtain ⟨htag, hread⟩ := Classical.not_imp.mp h
  rw [parseFcpTmpl, Arr.get_bind h1, if_neg (not_not.mpr htag), Arr.get_bind h2]
  exact parseFcpLoop_of_not_readable (buffer.mem 2).toNat ⟨none, none⟩ (by decide) le_rfl hread

/-! ### What is assigned -/

theorem fileLen_assignAll (m : Mem) (ts : List La12xx.Tlv) : ∀ (pos : ℤ) (p : Parsed) (out : Fcp.Out) (x : ℤ),
    out.fileLen = some (p.fileLen.getD x) →
    (Fcp.tlvCases m pos ts out).fileLen = some ((assignAll true wantRec m pos ts p).fileLen.getD x) := by
  induction ts with
  | nil => exact fun pos p out x h => h
  | cons t ts ih =>
    intro pos p out x h
    refine ih _ _ _ x ?_
    rw [Fcp.tlvCase, assign]
    by_cases hdesc : m pos = 0x82
    · rw [if_pos hdesc, if_pos hdesc]
      split <;> exact h
    by_cases hsize : m pos = 0x80
    · rw [if_neg hdesc, if_neg hdesc, if_pos hsize, if_pos hsize, if_pos rfl]
      split_ifs
      · rw [h]
        rfl
      · rw [h]
        rfl
      · exact h
    · rw [if_neg hdesc, if_neg hdesc, if_neg hsize, if_neg hsize]
      exact h

theorem record_assignAll (m : Mem) (ts : List La12xx.Tlv) : ∀ (pos : ℤ) (p : Parsed) (out : Fcp.Out) (x : UsimRec),
    out.record = some (p.record.getD x) →
    (Fcp.tlvCases m pos ts out).record = some ((assignAll wantLen true m pos ts p).record.getD x) := by
  induction ts with
  | nil => exact fun pos p out x h => h
  | cons t ts ih =>
    intro pos p out x h
    refine ih _ _ _ x ?_
    rw [Fcp.tlvCase, assign]
    by_cases hdesc : m pos = 0x82
    · rw [if_pos hdesc, if_pos hdesc, if_pos rfl, h]
      rfl
    · rw [if_neg hdesc, if_neg hdesc]
      split_ifs <;> exact h

/-- The length that the parser of `Apdu` gives, for a template of TLVs. -/
theorem parseFcpTmpl_of_body {m : Mem} {ts : List La12xx.Tlv} (htag : m 1 = 0x62) (hne : ts ≠ []) (hbody : Fcp.Body m ts)
    (info : FcpInfo) : ∃ info', Usim.parseFcpTmpl m info = some info' ∧
      info'.fileLen = (assignAll true wantRec m 3 ts ⟨none, none⟩).fileLen.getD info.fileLen ∧
      info'.record = (assignAll wantLen true m 3 ts ⟨none, none⟩).record.getD info.record := by
  have hlen := @fileLen_assignAll wantRec m ts 3 ⟨none, none⟩ (Fcp.ofInfo info) info.fileLen rfl
  have hrec := @record_assignAll wantLen m ts 3 ⟨none, none⟩ (Fcp.ofInfo info) info.record rfl
  have hout : Fcp.tlvCases m 3 ts (Fcp.ofInfo info) =
      Fcp.ofInfo ⟨(assignAll true wantRec m 3 ts ⟨none, none⟩).fileLen.getD info.fileLen,
        (assignAll wantLen true m 3 ts ⟨none, none⟩).record.getD info.record⟩ :=
    calc Fcp.tlvCases m 3 ts (Fcp.ofInfo info)
        = ⟨(Fcp.tlvCases m 3 ts (Fcp.ofInfo info)).fileLen, (Fcp.tlvCases m 3 ts (Fcp.ofInfo info)).record⟩ := rfl
      _ = _ := by rw [hlen, hrec]; rfl
  refine ⟨⟨(assignAll true wantRec m 3 ts ⟨none, none⟩).fileLen.getD info.fileLen,
    (assignAll wantLen true m 3 ts ⟨none, none⟩).record.getD info.record⟩,
    (Fcp.parseFcpTmpl_eq_some_iff m info _).mpr ?_, rfl, rfl⟩
  have hends := Fcp.ends_of_decode m ts (Fcp.ofInfo info) hne (La12xx.Tlv.decode_eq_some_iff.mpr hbody)
  rw [hout] at hends
  rw [Fcp.Returns, Fcp.start, if_neg (not_not.mpr htag)]
  exact hends

/-- Where the body does not consist of TLVs, there is no length. -/
theorem parseFcpTmpl_of_not_body {m : Mem} (h : ¬ (m 1 = 0x62 ∧ ∃ ts, ts ≠ [] ∧ Fcp.Body m ts)) (info : FcpInfo) :
    Usim.parseFcpTmpl m info = none := by
  rw [Option.eq_none_iff_forall_ne_some]
  intro info' hinfo
  obtain ⟨ret, out, hreturns, hspec⟩ := Fcp.parseFcpTmpl_spec m (Fcp.ofInfo info)
  obtain ⟨hret, -⟩ := (hreturns 0 _).mp ((Fcp.parseFcpTmpl_eq_some_iff m info info').mp hinfo)
  exact h (hspec.ret_zero_iff.mp hret.symm)

theorem eq_of_getD_eq {a b : Option ℤ} (h : ∀ x, a.getD x = b.getD x) : a = b := by
  cases a with
  | none =>
    cases b with
    | none => rfl
    | some y =>
      have hy : y + 1 = y := h (y + 1)
      omega
  | some x =>
    cases b with
    | none =>
      have hx : x = x + 1 := h (x + 1)
      omega
    | some y => exact congrArg some (h 0)

/-- The length that is assigned is what the last TLV with a file size says. -/
theorem fileLen_assignAll_eq {m : Mem} {ts : List La12xx.Tlv} (hbody : Fcp.Body m ts) :
    (assignAll true wantRec m 3 ts ⟨none, none⟩).fileLen = Fcp.lastOf Fcp.fileSize? ts := by
  refine eq_of_getD_eq fun x => ?_
  have h := @fileLen_assignAll wantRec m ts 3 ⟨none, none⟩ ⟨some x, none⟩ x rfl
  rw [Fcp.fileLen_tlvCases m ts ⟨some x, none⟩ (La12xx.Tlv.decode_eq_some_iff.mpr hbody)] at h
  exact (Option.some.inj h).symm

/-- A record is assigned by a TLV with a file descriptor. -/
theorem record_assignAll_eq_none_iff {m : Mem} (ts : List La12xx.Tlv) : ∀ {pos last : ℤ} (p : Parsed),
    La12xx.Tlv.Fill m pos last ts →
    ((assignAll wantLen true m pos ts p).record = none ↔ p.record = none ∧ ∀ t ∈ ts, t.tag ≠ 0x82) := by
  induction ts with
  | nil => exact fun p _ => (and_iff_left fun t ht => absurd ht List.not_mem_nil).symm
  | cons t ts ih =>
    intro pos last p hts
    obtain ⟨rfl, hrest⟩ := La12xx.Tlv.fill_cons.mp hts
    have htag : (La12xx.Tlv.stored m pos).tag = m pos := rfl
    rw [assignAll, La12xx.Tlv.length_stored, ih _ hrest, List.forall_mem_cons, htag, ← and_assoc]
    refine and_congr_left fun _ => ?_
    rw [assign]
    by_cases hdesc : m pos = 0x82
    · rw [if_pos hdesc, if_pos rfl]
      exact iff_of_false (by simp) fun h => h.2 hdesc
    · rw [if_neg hdesc]
      refine Iff.trans ?_ (and_iff_left hdesc).symm
      split_ifs <;> exact Iff.rfl

end Template

end Bounds
end Usim
end La12xx
