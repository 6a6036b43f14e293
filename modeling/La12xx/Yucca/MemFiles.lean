/-
# The memory files of the RF chip

`yuc_prog_rfic_fw` and `yuc_prog_rfic_def` of `gul_fr1_rfic.c` write the lines of a text
file to registers. They take the file apart in the buffer it was loaded to, with `strsep`,
and only the branch for a line with data looks whether the file has ended: after a comment
the next line is fetched in any case. The digits of a line are copied to `twobyte`, which
has room for four and no NUL, so the number goes on with what is behind it on the stack.

`ReadAsMeant` says for which files nothing of this matters, `programmed_iff` that these
are the files that are programmed as they say, for any format of the lines whose data the
loop takes apart (`Takes`).
-/
import La12xx.Lib.CStr

namespace La12xx
namespace Yucca
namespace MemFiles

open ByteMem CStr

/-! ### The code -/

/-- `\n` -/
def newline : Byte := 0x0a

/-- The space between the two words of a line. -/
def space : Byte := 0x20

/-- `//` -/
def slashes : List Byte := [0x2f, 0x2f]

/-- A call of `yuc_llcp_reg_write`. -/
structure RegWrite where
  addr : BitVec 16
  val : BitVec 16
deriving DecidableEq, Repr

/-- `YUC_RFIC_FW_WRITE_REG` -/
def yucRficFwWriteReg : BitVec 16 := 0x6002

/-- The bytes behind `twobyte` while the word from an offset of the buffer is parsed. -/
abbrev Stack := ℕ → List Byte

/-- The buffer, the pointer into it, and the registers written. Pointers are offsets from
`vaddr_in`. -/
structure St where
  buf : Buf
  vaddr : Option ℕ
  writes : List RegWrite
deriving DecidableEq, Repr

/-- `line = strsep(&vaddr, "\n")` -/
def nextLine (s : St) : Option (Option ℕ × St) :=
  (s.buf.strsep newline s.vaddr).map fun r => (r.1, { s with buf := r.2.2, vaddr := r.2.1 })

/-- `memcpy(twobyte, p, sizeof(twobyte))` and `simple_strtoul(twobyte, NULL, 16)` -/
def parseWord (stack : Stack) (s : St) (p : ℕ) : Option (BitVec 16 × St) :=
  (s.buf.memcpy p 4).map fun r => (BitVec.ofNat 16 (simpleStrtoul (r.1 ++ stack p)), { s with buf := r.2 })

def yucLlcpRegWrite (s : St) (addr val : BitVec 16) : St := { s with writes := s.writes ++ [⟨addr, val⟩] }

/-- What `yuc_prog_rfic_fw` does with a line of data. -/
def fwLine (stack : Stack) (s : St) (line : ℕ) : Option St := do
  let (val, s) ← parseWord stack s line
  some (yucLlcpRegWrite s yucRficFwWriteReg val)

/-- What `yuc_prog_rfic_def` does with a line of data. Without a space `line` is NULL
after `strsep`, and the second `memcpy` faults. -/
def defLine (stack : Stack) (s : St) (line : ℕ) : Option St := do
  let (regOffsetString, line, buf) ← s.buf.strsep space (some line)
  let (regOffset, s) ← parseWord stack { s with buf := buf } (← regOffsetString)
  let (val, s) ← parseWord stack s (← line)
  some (yucLlcpRegWrite s regOffset val)

/-- The loop of both functions, in at most `n` rounds. A `continue` goes to the test of
`line`; a NULL `vaddr` is not past the end. -/
def lineLoop (data : St → ℕ → Option St) (fwSize : ℕ) : ℕ → St → Option ℕ → Option St
  | _, s, none => some s
  | 0, _, some _ => none
  | n + 1, s, some line => do
    let (ignore, buf) ← s.buf.strstr slashes line
    let s := { s with buf := buf }
    match ignore with
    | some i =>
      let (line, s) ← nextLine { s with buf := s.buf.store i 0 }
      lineLoop data fwSize n s line
    | none =>
      let s ← data s line
      if ∃ v ∈ s.vaddr, fwSize ≤ v then some s
      else
        let (line, s) ← nextLine s
        lineLoop data fwSize n s line

/-- The first line and the loop. -/
def progLines (data : St → ℕ → Option St) (n : ℕ) (vaddr : List Byte) (fwSize : ℕ) : Option St := do
  let (line, s) ← nextLine ⟨⟨vaddr, 0⟩, some 0, []⟩
  lineLoop data fwSize n s line

/-- `yuc_prog_rfic_fw`, which returns 0: as `vaddr` is not NULL, neither is the first line.
`none` is a fault, or more than `n` rounds. -/
def yucProgRficFw (stack : Stack) (n : ℕ) (vaddr : List Byte) (fwSize : ℕ) : Option St :=
  progLines (fwLine stack) n vaddr fwSize

/-- `yuc_prog_rfic_def` -/
def yucProgRficDef (stack : Stack) (n : ℕ) (vaddr : List Byte) (fwSize : ℕ) : Option St :=
  progLines (defLine stack) n vaddr fwSize

/-! ### The files -/

/-- A word: four digits. -/
def IsWord (w : List Byte) : Prop := w.length = 4 ∧ IsHex w

/-- Its value. -/
def wordValue (w : List Byte) : BitVec 16 := BitVec.ofNat 16 (hexValue w)

/-- A word is read as it stands: with the digits behind it on the stack, the last four
make the same number. -/
def WordKept (stack : List Byte) (w : List Byte) : Prop :=
  hexValue ((w ++ hexRun stack).drop (hexRun stack).length) = hexValue w

/-- What is read at the start of a text: its digits, of which four at most are copied. -/
def wordRead (stack : List Byte) (u : List Byte) : BitVec 16 :=
  BitVec.ofNat 16 (simpleStrtoul (if u.length < 4 then u else u.take 4 ++ stack))

/-- How the data of a line is written down, and what the code takes it for. -/
structure Format where
  IsData : List Byte → Prop
  /-- what the line says -/
  value : List Byte → RegWrite
  /-- what is written for a text at an offset; `none` is a fault -/
  taken : Stack → ℕ → List Byte → Option RegWrite
  /-- when the two are the same -/
  Kept : Stack → ℕ → List Byte → Prop

/-- The lines of the program file. -/
def fwFormat : Format where
  IsData := IsWord
  value t := ⟨yucRficFwWriteReg, wordValue t⟩
  taken stack p u := some ⟨yucRficFwWriteReg, wordRead (stack p) u⟩
  Kept stack p t := WordKept (stack p) t

/-- The words before and after the first space. -/
def beforeSpace (t : List Byte) : List Byte := t.takeWhile (· ≠ space)

def afterSpace (t : List Byte) : List Byte := (t.dropWhile (· ≠ space)).tail

/-- The lines of the file of default registers. -/
def defFormat : Format where
  IsData t := ∃ a b, IsWord a ∧ IsWord b ∧ t = a ++ space :: b
  value t := ⟨wordValue (beforeSpace t), wordValue (afterSpace t)⟩
  taken stack p u :=
    if u.contains space then
      some ⟨wordRead (stack p) (beforeSpace u),
        wordRead (stack (p + (beforeSpace u).length + 1)) (afterSpace u)⟩
    else none
  Kept stack p t := WordKept (stack p) (beforeSpace t) ∧
    WordKept (stack (p + (beforeSpace t).length + 1)) (afterSpace t)

/-- A line with a comment in it. -/
def IsComment (t : List Byte) : Prop := slashes <:+: t

instance (t : List Byte) : Decidable (IsComment t) := inferInstanceAs (Decidable (slashes <:+: t))

/-- A file of lines, each of them a comment or data. -/
structure MemFile (F : Format) where
  lines : List (List Byte)
  noNewline : ∀ t ∈ lines, newline ∉ t
  format : ∀ t ∈ lines, IsComment t ∨ F.IsData t

/-- The text of some lines. -/
def textOf (ts : List (List Byte)) : List Byte := ts.flatMap fun t => t ++ [newline]

/-- What the lines say is to be written. -/
def Format.writes (F : Format) (ts : List (List Byte)) : List RegWrite :=
  (ts.filter fun t => ¬ IsComment t).map F.value

/-- The file, loaded to a buffer with `rest` behind it, is programmed as it says, and not
a byte behind it is read. -/
def Programmed (prog : ℕ → List Byte → ℕ → Option St) (F : Format) (file : MemFile F) (rest : List Byte) : Prop :=
  ∃ n s, prog n (textOf file.lines ++ rest) (textOf file.lines).length = some s ∧
    s.writes = F.writes file.lines ∧ s.buf.reach ≤ (textOf file.lines).length

/-- The lines from offset `p` on are read as they are meant: the last is one of data, and
each word is read as it stands. A NUL in a comment ends the file: no data may follow,
unless it is what is made of the text before the NUL. -/
def ReadAsMeant (F : Format) (stack : Stack) : ℕ → List (List Byte) → Prop
  | _, [] => False
  | p, t :: ts =>
    if t.contains 0 then
      if IsComment (t.takeWhile (· ≠ 0)) then F.writes ts = []
      else ∃ r, F.taken stack p (t.takeWhile (· ≠ 0)) = some r ∧ F.writes ts = [r]
    else if IsComment t then ReadAsMeant F stack (p + t.length + 1) ts
    else F.Kept stack p t ∧ (ts = [] ∨ ReadAsMeant F stack (p + t.length + 1) ts)

/-! ### What the loop leaves behind -/

/-- Registers are written and bytes are read, nothing is taken back. -/
structure Extends (s s' : St) : Prop where
  writes : s.writes <+: s'.writes
  reach : s.buf.reach ≤ s'.buf.reach

theorem Extends.trans {s s' s'' : St} (h : Extends s s') (h' : Extends s' s'') : Extends s s'' :=
  ⟨h.writes.trans h'.writes, h.reach.trans h'.reach⟩

/-- The text `r` is written for was taken, and no byte from `n` on was read for it. -/
structure Took (s s' : St) (r : RegWrite) (n : ℕ) : Prop where
  vaddr : s'.vaddr = s.vaddr
  writes : s'.writes = s.writes ++ [r]
  reach : s'.buf.reach ≤ max s.buf.reach n

/-- What the code does with the data of a line is what the format says it takes. -/
structure Takes (F : Format) (stack : Stack) (data : St → ℕ → Option St) : Prop where
  extends_ : ∀ {s p s'}, data s p = some s' → Extends s s'
  text : ∀ {t}, F.IsData t → 0 ∉ t ∧ ¬ IsComment t
  kept : ∀ {t p}, F.IsData t → (F.taken stack p t = some (F.value t) ↔ F.Kept stack p t)
  /-- a line of data, up to its end -/
  line : ∀ {s p t w}, F.IsData t → s.buf.bytes.drop p = t ++ 0 :: w → ∃ r s', F.taken stack p t = some r ∧
    data s p = some s' ∧ Took s s' r (p + t.length) ∧ s'.buf.bytes.drop (p + t.length + 1) = w
  /-- any text, up to a NUL with at least three bytes behind it -/
  stray : ∀ {s p u w}, 0 ∉ u → s.buf.bytes.drop p = u ++ 0 :: w → 3 ≤ w.length →
    (F.taken stack p u = none ∧ data s p = none) ∨
      ∃ r s', F.taken stack p u = some r ∧ data s p = some s' ∧ Took s s' r (p + u.length + 4)

theorem nextLine_extends {s : St} {r : Option ℕ × St} (h : nextLine s = some r) : Extends s r.2 := by
  obtain ⟨x, hx, rfl⟩ := Option.map_eq_some_iff.mp h
  exact ⟨List.prefix_refl _, Buf.le_reach_strsep hx⟩

theorem parseWord_extends {stack : Stack} {s : St} {p : ℕ} {r : BitVec 16 × St} (h : parseWord stack s p = some r) :
    Extends s r.2 := by
  obtain ⟨x, hx, rfl⟩ := Option.map_eq_some_iff.mp h
  exact ⟨List.prefix_refl _, Buf.le_reach_memcpy hx⟩

theorem yucLlcpRegWrite_extends (s : St) (addr val : BitVec 16) : Extends s (yucLlcpRegWrite s addr val) :=
  ⟨List.prefix_append _ _, le_rfl⟩

/-- The next line is fetched and the loop goes on with it. -/
def fetchLoop (data : St → ℕ → Option St) (fwSize n : ℕ) (s : St) : Option St := do
  let (line, s) ← nextLine s
  lineLoop data fwSize n s line

section Loop

variable {F : Format} {stack : Stack} {data : St → ℕ → Option St} {fwSize : ℕ}

theorem fetchLoop_eq_some {n : ℕ} {s s' : St} : fetchLoop data fwSize n s = some s' ↔
    ∃ r, nextLine s = some r ∧ lineLoop data fwSize n r.2 r.1 = some s' := Option.bind_eq_some_iff

/-- A round of the loop, once the text of the line is known. -/
theorem lineLoop_comment (data : St → ℕ → Option St) (fwSize : ℕ) {s : St} {p : ℕ} {u w : List Byte}
    (h : s.buf.bytes.drop p = u ++ 0 :: w) (hu : 0 ∉ u) (hc : IsComment u) :
    ∃ s', (∀ n, lineLoop data fwSize (n + 1) s (some p) = fetchLoop data fwSize n s') ∧
      s'.vaddr = s.vaddr ∧ s'.writes = s.writes ∧ s'.buf.bytes.drop (p + u.length + 1) = w ∧
      s'.buf.reach = max s.buf.reach (p + u.length + 1) := by
  obtain ⟨r, hr, hnone, hle⟩ := Buf.strstr_eq h hu slashes
  cases r with
  | none => exact absurd hc (hnone.mp rfl)
  | some i =>
    refine ⟨{ s with buf := (s.buf.reads (p + u.length + 1)).store i 0 }, ?_, rfl, rfl, ?_, rfl⟩
    · intro n
      rw [lineLoop, hr]
      rfl
    · have hi := hle i rfl
      rw [Buf.drop_store_of_lt _ _ (by omega)]
      exact Buf.drop_add h

theorem lineLoop_data (data : St → ℕ → Option St) (fwSize : ℕ) {s : St} {p : ℕ} {u w : List Byte}
    (h : s.buf.bytes.drop p = u ++ 0 :: w) (hu : 0 ∉ u) (hc : ¬ IsComment u) (n : ℕ) :
    lineLoop data fwSize (n + 1) s (some p) =
      (data { s with buf := s.buf.reads (p + u.length + 1) } p).bind fun s' =>
        if ∃ v ∈ s'.vaddr, fwSize ≤ v then some s' else fetchLoop data fwSize n s' := by
  obtain ⟨r, hr, hnone, -⟩ := Buf.strstr_eq h hu slashes
  obtain rfl := hnone.mpr hc
  rw [lineLoop, hr]
  rfl

/-- The loop takes nothing back. -/
theorem lineLoop_extends (hT : Takes F stack data) : ∀ (n : ℕ) {s s' : St} {line : Option ℕ},
    lineLoop data fwSize n s line = some s' → Extends s s' := by
  intro n
  induction n with
  | zero =>
    intro s s' line h
    cases line with
    | none =>
      obtain rfl := Option.some.inj h
      exact ⟨List.prefix_refl _, le_rfl⟩
    | some p => exact absurd h (by simp [lineLoop])
  | succ n ih =>
    have hfetch : ∀ {s s' : St}, fetchLoop data fwSize n s = some s' → Extends s s' := by
      intro s s' h
      obtain ⟨r, hr, h⟩ := fetchLoop_eq_some.mp h
      exact (nextLine_extends hr).trans (ih h)
    intro s s' line h
    cases line with
    | none =>
      obtain rfl := Option.some.inj h
      exact ⟨List.prefix_refl _, le_rfl⟩
    | some p =>
      obtain ⟨⟨ignore, buf⟩, hstr, h⟩ := Option.bind_eq_some_iff.mp h
      have hbuf := Buf.le_reach_strstr hstr
      cases ignore with
      | some i =>
        have hs := hfetch (s := { s with buf := buf.store i 0 }) h
        exact ⟨hs.writes, hbuf.trans hs.reach⟩
      | none =>
        obtain ⟨s₁, hdata, h⟩ := Option.bind_eq_some_iff.mp h
        have hs₁ := hT.extends_ hdata
        have hs : Extends s s₁ := ⟨hs₁.writes, hbuf.trans hs₁.reach⟩
        split at h
        · obtain rfl := Option.some.inj h
          exact hs
        · exact hs.trans (hfetch h)

theorem fetchLoop_extends (hT : Takes F stack data) {n : ℕ} {s s' : St} (h : fetchLoop data fwSize n s = some s') :
    Extends s s' := by
  obtain ⟨r, hr, h⟩ := fetchLoop_eq_some.mp h
  exact (nextLine_extends hr).trans (lineLoop_extends hT n h)

/-- Whoever fetches a line reads where it starts. -/
theorem lt_reach_fetchLoop (hT : Takes F stack data) {n p : ℕ} {s s' : St} (hp : s.vaddr = some p)
    (h : fetchLoop data fwSize n s = some s') : p < s'.buf.reach := by
  obtain ⟨r, hr, h⟩ := fetchLoop_eq_some.mp h
  obtain ⟨x, hx, rfl⟩ := Option.map_eq_some_iff.mp hr
  rw [hp] at hx
  exact (Buf.lt_reach_strsep hx).trans_le (lineLoop_extends hT n h).reach

/-- A line up to its newline. -/
theorem fetchLoop_line (data : St → ℕ → Option St) (fwSize : ℕ) {s : St} {p : ℕ} {t w : List Byte}
    (hp : s.vaddr = some p) (h : s.buf.bytes.drop p = t ++ newline :: w) (h0 : 0 ∉ t) (hnl : newline ∉ t) :
    ∃ s', (∀ n, fetchLoop data fwSize n s = lineLoop data fwSize n s' (some p)) ∧
      s'.vaddr = some (p + t.length + 1) ∧ s'.writes = s.writes ∧ s'.buf.bytes.drop p = t ++ 0 :: w ∧
      s'.buf.reach = max s.buf.reach (p + t.length + 1) := by
  have hsep := Buf.strsep_delim h h0 hnl (by decide)
  refine ⟨⟨(s.buf.reads (p + t.length + 1)).store (p + t.length) 0, some (p + t.length + 1), s.writes⟩, ?_, rfl, rfl,
    Buf.drop_store h 0, rfl⟩
  intro n
  unfold fetchLoop nextLine
  rw [hp, hsep]
  rfl

/-- A line that a NUL ends is the last one. -/
theorem fetchLoop_nul (data : St → ℕ → Option St) (fwSize : ℕ) {s : St} {p : ℕ} {u w : List Byte}
    (hp : s.vaddr = some p) (h : s.buf.bytes.drop p = u ++ 0 :: w) (h0 : 0 ∉ u) (hnl : newline ∉ u) :
    ∃ s', (∀ n, fetchLoop data fwSize n s = lineLoop data fwSize n s' (some p)) ∧
      s'.vaddr = none ∧ s'.writes = s.writes ∧ s'.buf.bytes.drop p = u ++ 0 :: w ∧
      s'.buf.reach = max s.buf.reach (p + u.length + 1) := by
  have hsep := Buf.strsep_nul h h0 hnl
  refine ⟨⟨s.buf.reads (p + u.length + 1), none, s.writes⟩, ?_, rfl, rfl, h, rfl⟩
  intro n
  unfold fetchLoop nextLine
  rw [hp, hsep]
  rfl

/-- After it there is nothing left. -/
theorem fetchLoop_null {s : St} (hv : s.vaddr = none) (n : ℕ) : fetchLoop data fwSize n s = some s := by
  have hnext : nextLine s = some (none, s) := by
    unfold nextLine
    rw [hv]
    cases s
    subst hv
    rfl
  refine fetchLoop_eq_some.mpr ⟨(none, s), hnext, ?_⟩
  cases n with
  | zero => rfl
  | succ n => rfl

/-- The loop ends with these writes and has read no byte from `fwSize` on. -/
def Ends (data : St → ℕ → Option St) (fwSize : ℕ) (s : St) (ws : List RegWrite) : Prop :=
  ∃ n s', fetchLoop data fwSize n s = some s' ∧ s'.writes = s.writes ++ ws ∧ s'.buf.reach ≤ fwSize

/-- A fetched line takes a round. -/
theorem exists_round {s s₁ : St} {p : ℕ}
    (hfetch : ∀ n, fetchLoop data fwSize n s = lineLoop data fwSize n s₁ (some p)) {Q : St → Prop} :
    (∃ n s', fetchLoop data fwSize n s = some s' ∧ Q s') ↔
      ∃ n s', lineLoop data fwSize (n + 1) s₁ (some p) = some s' ∧ Q s' := by
  constructor
  · rintro ⟨n, s', hs', hQ⟩
    rw [hfetch] at hs'
    cases n with
    | zero => exact absurd hs' (by simp [lineLoop])
    | succ n => exact ⟨n, s', hs', hQ⟩
  · rintro ⟨n, s', hs', hQ⟩
    exact ⟨n + 1, s', (hfetch _).trans hs', hQ⟩

/-- If the round is the last one, whatever is allowed, it ends with what the round writes. -/
theorem ends_of_last {s s₁ s₂ : St} {p : ℕ} {ws₀ : List RegWrite}
    (hfetch : ∀ n, fetchLoop data fwSize n s = lineLoop data fwSize n s₁ (some p))
    (hlast : ∀ n, lineLoop data fwSize (n + 1) s₁ (some p) = some s₂) (hws : s₂.writes = s.writes ++ ws₀)
    (hreach : s₂.buf.reach ≤ fwSize) (ws : List RegWrite) : Ends data fwSize s ws ↔ ws = ws₀ := by
  unfold Ends
  rw [exists_round hfetch]
  simp only [hlast]
  constructor
  · rintro ⟨-, s', hs', hws', -⟩
    obtain rfl := Option.some.inj hs'
    rw [hws] at hws'
    exact (List.append_cancel_left hws').symm
  · rintro rfl
    exact ⟨0, s₂, rfl, hws, hreach⟩

/-- Behind the last line it does not end so. -/
theorem not_ends (hT : Takes F stack data) {s : St} (hp : s.vaddr = some fwSize) (ws : List RegWrite) :
    ¬ Ends data fwSize s ws := by
  rintro ⟨n, s', h, -, hle⟩
  have hlt := lt_reach_fetchLoop hT hp h
  omega

theorem ends_comment (data : St → ℕ → Option St) (fwSize : ℕ) {s : St} {p : ℕ} {t w : List Byte} (hp : s.vaddr = some p)
    (h : s.buf.bytes.drop p = t ++ newline :: w) (h0 : 0 ∉ t) (hnl : newline ∉ t) (hc : IsComment t)
    (hreach : s.buf.reach ≤ p) : ∃ s', (∀ ws, Ends data fwSize s ws ↔ Ends data fwSize s' ws) ∧
      s'.vaddr = some (p + t.length + 1) ∧ s'.buf.bytes.drop (p + t.length + 1) = w ∧
      s'.buf.reach ≤ p + t.length + 1 := by
  obtain ⟨s₁, hfetch, hv₁, hw₁, hb₁, hr₁⟩ := fetchLoop_line data fwSize hp h h0 hnl
  obtain ⟨s₂, hround, hv₂, hw₂, hb₂, hr₂⟩ := lineLoop_comment data fwSize hb₁ h0 hc
  refine ⟨s₂, ?_, hv₂.trans hv₁, hb₂, by omega⟩
  intro ws
  unfold Ends
  rw [exists_round hfetch, hw₂, hw₁]
  simp only [hround]

/-- Data at the end of the file, or before it. -/
theorem ends_data (hT : Takes F stack data) (fwSize : ℕ) {s : St} {p : ℕ} {t w : List Byte} (hp : s.vaddr = some p)
    (h : s.buf.bytes.drop p = t ++ newline :: w) (hnl : newline ∉ t) (hd : F.IsData t) (hreach : s.buf.reach ≤ p)
    (hfit : p + t.length + 1 ≤ fwSize) : ∃ r s', F.taken stack p t = some r ∧
      (∀ ws, Ends data fwSize s ws ↔
        if fwSize ≤ p + t.length + 1 then ws = [r] else ∃ ws', ws = r :: ws' ∧ Ends data fwSize s' ws') ∧
      s'.vaddr = some (p + t.length + 1) ∧ s'.buf.bytes.drop (p + t.length + 1) = w ∧
      s'.buf.reach ≤ p + t.length + 1 := by
  obtain ⟨h0, hc⟩ := hT.text hd
  obtain ⟨s₁, hfetch, hv₁, hw₁, hb₁, hr₁⟩ := fetchLoop_line data fwSize hp h h0 hnl
  obtain ⟨r, s₂, htaken, hdata, htook, hb₂⟩ :=
    hT.line hd (s := { s₁ with buf := s₁.buf.reads (p + t.length + 1) }) hb₁
  have hv₂ : s₂.vaddr = some (p + t.length + 1) := htook.vaddr.trans hv₁
  have hw₂ : s₂.writes = s.writes ++ [r] := by
    rw [htook.writes, ← hw₁]
  have hr₂ : s₂.buf.reach ≤ p + t.length + 1 := by
    have := htook.reach
    rw [Buf.reach_reads] at this
    omega
  have hround : ∀ n, lineLoop data fwSize (n + 1) s₁ (some p) =
      if fwSize ≤ p + t.length + 1 then some s₂ else fetchLoop data fwSize n s₂ := by
    intro n
    rw [lineLoop_data data fwSize hb₁ h0 hc, hdata, Option.bind_some, hv₂]
    simp only [Option.mem_def, Option.some.injEq, exists_eq_left']
  refine ⟨r, s₂, htaken, ?_, hv₂, hb₂, hr₂⟩
  intro ws
  by_cases hend : fwSize ≤ p + t.length + 1
  · rw [if_pos hend]
    exact ends_of_last hfetch (fun n => (hround n).trans (if_pos hend)) hw₂ (by omega) ws
  · simp only [if_neg hend] at hround
    rw [if_neg hend]
    unfold Ends
    rw [exists_round hfetch]
    simp only [hround]
    constructor
    · rintro ⟨n, s', hs', hws, hle⟩
      -- what is written later comes after this
      obtain ⟨ws', hws'⟩ := (fetchLoop_extends hT hs').writes
      refine ⟨ws', ?_, n, s', hs', hws'.symm, hle⟩
      rw [hw₂, hws, List.append_assoc] at hws'
      exact (List.append_cancel_left hws').symm
    · rintro ⟨ws', rfl, n, s', hs', hws, hle⟩
      refine ⟨n, s', hs', ?_, hle⟩
      rw [hws, hw₂, List.append_assoc]
      rfl

/-- A NUL ends the file. -/
theorem ends_nul (hT : Takes F stack data) {s : St} {p : ℕ} {u w : List Byte} (hp : s.vaddr = some p)
    (h : s.buf.bytes.drop p = u ++ 0 :: w) (h0 : 0 ∉ u) (hnl : newline ∉ u) (hreach : s.buf.reach ≤ p)
    (hfit : p + u.length + 1 ≤ fwSize) (hw : ¬ IsComment u → 3 ≤ w.length ∧ p + u.length + 4 ≤ fwSize)
    (ws : List RegWrite) :
    Ends data fwSize s ws ↔
      if IsComment u then ws = [] else ∃ r, F.taken stack p u = some r ∧ ws = [r] := by
  obtain ⟨s₁, hfetch, hv₁, hw₁, hb₁, hr₁⟩ := fetchLoop_nul data fwSize hp h h0 hnl
  by_cases hc : IsComment u
  · obtain ⟨s₂, hround, hv₂, hw₂, -, hr₂⟩ := lineLoop_comment data fwSize hb₁ h0 hc
    have hlast : ∀ n, lineLoop data fwSize (n + 1) s₁ (some p) = some s₂ := fun n =>
      (hround n).trans (fetchLoop_null (hv₂.trans hv₁) n)
    rw [if_pos hc]
    exact ends_of_last hfetch hlast (by rw [hw₂, hw₁, List.append_nil]) (by omega) ws
  · rw [if_neg hc]
    obtain ⟨hw3, hfit4⟩ := hw hc
    have hround := lineLoop_data data fwSize hb₁ h0 hc
    rcases hT.stray (s := { s₁ with buf := s₁.buf.reads (p + u.length + 1) }) h0 hb₁ hw3 with
      ⟨hnone, hfault⟩ | ⟨r, s₂, htaken, hdata, htook⟩
    · unfold Ends
      rw [exists_round hfetch]
      simp only [hround, hfault, hnone, Option.bind_none, reduceCtorEq, false_and, exists_false]
    · have hv₂ : s₂.vaddr = none := htook.vaddr.trans hv₁
      have hr₂ : s₂.buf.reach ≤ fwSize := by
        have := htook.reach
        rw [Buf.reach_reads] at this
        omega
      have hlast : ∀ n, lineLoop data fwSize (n + 1) s₁ (some p) = some s₂ := by
        intro n
        rw [hround, hdata, Option.bind_some, hv₂, if_neg (by simp)]
        exact fetchLoop_null hv₂ n
      rw [ends_of_last hfetch hlast (by rw [htook.writes, ← hw₁]) hr₂, htaken]
      simp only [Option.some.injEq, exists_eq_left']

/-! ### All lines -/

theorem textOf_cons (t : List Byte) (ts : List (List Byte)) (rest : List Byte) :
    textOf (t :: ts) ++ rest = t ++ newline :: (textOf ts ++ rest) := by
  unfold textOf
  rw [List.flatMap_cons, List.append_assoc, List.append_assoc]
  rfl

theorem length_textOf_cons (t : List Byte) (ts : List (List Byte)) :
    (textOf (t :: ts)).length = t.length + 1 + (textOf ts).length := by
  unfold textOf
  rw [List.flatMap_cons, List.length_append, List.length_append]
  rfl

theorem textOf_eq_nil {ts : List (List Byte)} (h : (textOf ts).length = 0) : ts = [] := by
  cases ts with
  | nil => rfl
  | cons t ts =>
    rw [length_textOf_cons] at h
    omega

theorem Format.writes_of_comment (F : Format) {t : List Byte} (h : IsComment t) (ts : List (List Byte)) :
    F.writes (t :: ts) = F.writes ts := by
  unfold Format.writes
  rw [List.filter_cons_of_neg (by simpa using h)]

theorem Format.writes_of_data (F : Format) {t : List Byte} (h : ¬ IsComment t) (ts : List (List Byte)) :
    F.writes (t :: ts) = F.value t :: F.writes ts := by
  unfold Format.writes
  rw [List.filter_cons_of_pos (by simpa using h), List.map_cons]

/-- A NUL before which there is no comment has the slashes behind it. -/
theorem two_le_of_comment {u v : List Byte} (h : IsComment (u ++ 0 :: v)) (hu : ¬ IsComment u) : 2 ≤ v.length := by
  induction u with
  | nil =>
    rcases List.infix_cons_iff.mp h with hpre | hin
    · exact absurd (List.cons_prefix_cons.mp hpre).1 (by decide)
    · exact hin.length_le
  | cons c u ih =>
    rcases List.infix_cons_iff.mp h with hpre | hin
    · obtain ⟨hc, htail⟩ := List.cons_prefix_cons.mp hpre
      cases u with
      | nil => exact absurd (List.cons_prefix_cons.mp htail).1 (by decide)
      | cons d u =>
        obtain ⟨hd, -⟩ := List.cons_prefix_cons.mp htail
        subst hc hd
        exact absurd (⟨[], u, rfl⟩ : IsComment _) hu
    · exact ih hin fun hno => hu (List.infix_cons_iff.mpr (Or.inr hno))

/-- **The loop programs what the lines say exactly if they are read as they are meant.** -/
theorem ends_iff (hT : Takes F stack data) (rest : List Byte) : ∀ (ts : List (List Byte)) {s : St} {p : ℕ},
    (∀ t ∈ ts, newline ∉ t) → (∀ t ∈ ts, IsComment t ∨ F.IsData t) → s.vaddr = some p →
    s.buf.bytes.drop p = textOf ts ++ rest → s.buf.reach ≤ p → fwSize = p + (textOf ts).length →
    (Ends data fwSize s (F.writes ts) ↔ ReadAsMeant F stack p ts) := by
  intro ts
  induction ts with
  | nil =>
    intro s p _ _ hp _ _ hsize
    have hend : s.vaddr = some fwSize := hp.trans (congrArg some hsize.symm)
    exact iff_of_false (not_ends hT hend _) id
  | cons t ts ih =>
    intro s p hnl hform hp hdrop hreach hsize
    rw [List.forall_mem_cons] at hnl hform
    rw [textOf_cons] at hdrop
    rw [length_textOf_cons] at hsize
    unfold ReadAsMeant
    by_cases h0 : 0 ∈ t
    · -- the text up to the NUL is all that is looked at
      have ht := eq_before_after h0
      have hu := not_mem_before 0 t
      generalize t.takeWhile (· ≠ 0) = u at *
      generalize (t.dropWhile (· ≠ 0)).tail = v at *
      subst ht
      have hc : IsComment (u ++ 0 :: v) := hform.1.resolve_right fun hd => (hT.text hd).1 h0
      rw [List.append_assoc, List.cons_append] at hdrop
      rw [List.length_append, List.length_cons] at hsize
      rw [if_pos (List.contains_iff_mem.mpr h0), F.writes_of_comment hc]
      refine ends_nul hT hp hdrop hu (fun hmem => hnl.1 (List.mem_append_left _ hmem)) hreach (by omega) ?_ _
      intro hno
      have hv := two_le_of_comment hc hno
      rw [List.length_append, List.length_cons]
      omega
    · rw [if_neg fun h => h0 (List.contains_iff_mem.mp h)]
      by_cases hc : IsComment t
      · obtain ⟨s', hends, hv, hb, hr⟩ := ends_comment data fwSize hp hdrop h0 hnl.1 hc hreach
        rw [if_pos hc, F.writes_of_comment hc, hends]
        exact ih hnl.2 hform.2 hv hb hr (by omega)
      · have hd : F.IsData t := hform.1.resolve_left hc
        obtain ⟨r, s', htaken, hends, hv, hb, hr⟩ :=
          ends_data hT fwSize hp hdrop hnl.1 hd hreach (by omega)
        have hkept : F.value t = r ↔ F.Kept stack p t := by
          rw [← hT.kept hd, htaken, Option.some.injEq, eq_comm]
        rw [if_neg hc, F.writes_of_data hc, hends, ← hkept]
        by_cases hlast : fwSize ≤ p + t.length + 1
        · have hnil : (textOf ts).length = 0 := by omega
          obtain rfl := textOf_eq_nil hnil
          rw [if_pos hlast]
          simp only [Format.writes, List.filter_nil, List.map_nil, List.cons.injEq, and_true, true_or]
        · have hne : ts ≠ [] := by
            rintro rfl
            have hnil : (textOf []).length = 0 := rfl
            omega
          rw [if_neg hlast, ← ih hnl.2 hform.2 hv hb hr (by omega)]
          simp only [List.cons.injEq, hne, false_or]
          constructor
          · rintro ⟨ws', ⟨rfl, rfl⟩, hws⟩
            exact ⟨rfl, hws⟩
          · rintro ⟨rfl, hws⟩
            exact ⟨_, ⟨rfl, rfl⟩, hws⟩

theorem programmed_iff (hT : Takes F stack data) (file : MemFile F) (rest : List Byte) :
    Programmed (progLines data) F file rest ↔ ReadAsMeant F stack 0 file.lines :=
  ends_iff hT rest file.lines (s := ⟨⟨textOf file.lines ++ rest, 0⟩, some 0, []⟩) file.noNewline file.format rfl rfl
    le_rfl (Nat.zero_add _).symm

end Loop

/-! ### The two formats -/

theorem isWord_facts {w : List Byte} (h : IsWord w) : 0 ∉ w ∧ space ∉ w ∧ 0x2f ∉ w :=
  ⟨h.2.not_mem (by decide), h.2.not_mem (by decide), h.2.not_mem (by decide)⟩

/-- A word is read with the digits behind it. -/
theorem wordRead_eq {w : List Byte} (h : IsWord w) (stack : List Byte) :
    wordRead stack w = BitVec.ofNat 16 (hexValue ((w ++ hexRun stack).drop (hexRun stack).length)) := by
  have hlen : 4 ≤ (w ++ hexRun stack).length := by
    rw [List.length_append, h.1]
    omega
  have hdrop : (w ++ hexRun stack).length - 4 = (hexRun stack).length := by
    rw [List.length_append, h.1]
    omega
  have hmod : hexValue (w ++ hexRun stack) % 2 ^ 16 = hexValue ((w ++ hexRun stack).drop (hexRun stack).length) := by
    rw [← hdrop]
    exact hexValue_mod hlen
  unfold wordRead
  rw [if_neg (by rw [h.1]; decide), List.take_of_length_le h.1.le, simpleStrtoul_hex h.2 (by rw [h.1]; decide), ← hmod]
  apply BitVec.eq_of_toNat_eq
  rw [BitVec.toNat_ofNat, BitVec.toNat_ofNat, Nat.mod_mod, Nat.mod_mod_of_dvd _ (by norm_num)]

theorem wordRead_iff {w : List Byte} (h : IsWord w) (stack : List Byte) :
    wordRead stack w = wordValue w ↔ WordKept stack w := by
  have hlt : hexValue w < 2 ^ 16 := by
    have := hexValue_lt w
    rwa [h.1] at this
  have hlt' : hexValue ((w ++ hexRun stack).drop (hexRun stack).length) < 2 ^ 16 := by
    have := hexValue_lt ((w ++ hexRun stack).drop (hexRun stack).length)
    rwa [List.length_drop, List.length_append, h.1, Nat.add_sub_cancel] at this
  rw [wordRead_eq h, wordValue, WordKept, ← BitVec.toNat_inj, BitVec.toNat_ofNat, BitVec.toNat_ofNat,
    Nat.mod_eq_of_lt hlt, Nat.mod_eq_of_lt hlt']

/-- Of four bytes only those before a NUL count. -/
theorem parseWord_eq (stack : Stack) {s : St} {p : ℕ} {u w : List Byte} (h : s.buf.bytes.drop p = u ++ 0 :: w)
    (hn : 4 ≤ u.length + 1 + w.length) :
    parseWord stack s p = some (wordRead (stack p) u, { s with buf := s.buf.reads (p + 4) }) := by
  have hread : BitVec.ofNat 16 (simpleStrtoul ((u ++ 0 :: w).take 4 ++ stack p)) = wordRead (stack p) u := by
    unfold wordRead
    by_cases hu : u.length < 4
    · obtain ⟨k, hk⟩ : ∃ k, 4 - u.length = k + 1 := ⟨3 - u.length, by omega⟩
      rw [if_pos hu, List.take_append, List.take_of_length_le hu.le, hk, List.take_succ_cons, List.append_assoc,
        List.cons_append, simpleStrtoul_nul]
    · rw [if_neg hu, List.take_append_of_le_length (by omega)]
  unfold parseWord
  rw [Buf.memcpy_eq h hn, Option.map_some, hread]

theorem fwLine_eq {stack : Stack} {s : St} {p : ℕ} {u w : List Byte} (h : s.buf.bytes.drop p = u ++ 0 :: w)
    (hn : 4 ≤ u.length + 1 + w.length) : fwLine stack s p =
      some (yucLlcpRegWrite { s with buf := s.buf.reads (p + 4) } yucRficFwWriteReg (wordRead (stack p) u)) := by
  unfold fwLine
  rw [parseWord_eq stack h hn]
  rfl

theorem fwTakes (stack : Stack) : Takes fwFormat stack (fwLine stack) where
  extends_ := by
    intro s p s' h
    obtain ⟨r, hr, h⟩ := Option.bind_eq_some_iff.mp h
    obtain rfl := Option.some.inj h
    exact (parseWord_extends hr).trans (yucLlcpRegWrite_extends _ _ _)
  text := by
    intro t h
    obtain ⟨h0, -, hslash⟩ := isWord_facts h
    exact ⟨h0, fun hc => hslash (hc.subset List.mem_cons_self)⟩
  kept := by
    intro t p h
    show some _ = some _ ↔ WordKept (stack p) t
    rw [← wordRead_iff h]
    simp only [fwFormat, Option.some.injEq, RegWrite.mk.injEq, true_and]
  line := by
    intro s p t w h hdrop
    have hlen : t.length = 4 := h.1
    refine ⟨_, _, rfl, fwLine_eq hdrop (by omega), ⟨rfl, rfl, ?_⟩, Buf.drop_add hdrop⟩
    rw [hlen]
    exact le_rfl
  stray := by
    intro s p u w _ hdrop hw
    refine Or.inr ⟨_, _, rfl, fwLine_eq hdrop (by omega), ⟨rfl, rfl, ?_⟩⟩
    show max s.buf.reach (p + 4) ≤ _
    omega

theorem isData_def {t : List Byte} (h : defFormat.IsData t) : IsWord (beforeSpace t) ∧ IsWord (afterSpace t) := by
  obtain ⟨a, b, ha, hb, rfl⟩ := h
  obtain ⟨hbefore, hafter⟩ := before_after_append (isWord_facts ha).2.1 b
  unfold beforeSpace afterSpace
  rw [hbefore, hafter]
  exact ⟨ha, hb⟩

/-- Both words are without the bytes that end a line or make a comment. -/
theorem isData_def_text {t : List Byte} (h : defFormat.IsData t) : 0 ∉ t ∧ ¬ IsComment t := by
  obtain ⟨a, b, ha, hb, rfl⟩ := h
  obtain ⟨ha0, -, ha2⟩ := isWord_facts ha
  obtain ⟨hb0, -, hb2⟩ := isWord_facts hb
  have hnot : ∀ {c : Byte}, c ∉ a → c ∉ b → c ≠ space → c ∉ a ++ space :: b := by
    intro c h1 h2 h3 hmem
    rcases List.mem_append.mp hmem with h | h
    · exact h1 h
    · exact (List.mem_cons.mp h).elim h3 h2
  exact ⟨hnot ha0 hb0 (by decide), fun hc => hnot ha2 hb2 (by decide) (hc.subset List.mem_cons_self)⟩

theorem space_mem_of_isData {t : List Byte} (h : defFormat.IsData t) : space ∈ t := by
  obtain ⟨a, b, -, -, rfl⟩ := h
  exact List.mem_append_right _ List.mem_cons_self

/-- A text with a space, taken apart in the buffer. -/
theorem drop_space {b : Buf} {p : ℕ} {u w : List Byte} (hmem : space ∈ u) (h : b.bytes.drop p = u ++ 0 :: w) :
    b.bytes.drop p = beforeSpace u ++ space :: (afterSpace u ++ 0 :: w) ∧
      u.length = (beforeSpace u).length + 1 + (afterSpace u).length := by
  have hu : u = beforeSpace u ++ space :: afterSpace u := eq_before_after hmem
  constructor
  · rw [h]
    nth_rewrite 1 [hu]
    rw [List.append_assoc, List.cons_append]
  · have hlen := congrArg List.length hu
    rw [List.length_append, List.length_cons] at hlen
    omega

/-- A line with a space: the words before and after it. -/
theorem defLine_eq (stack : Stack) {s : St} {p : ℕ} {a b w : List Byte} (ha : space ∉ a) (h0 : 0 ∉ a)
    (h : s.buf.bytes.drop p = a ++ space :: (b ++ 0 :: w)) (hn : 4 ≤ b.length + 1 + w.length) :
    ∃ s', defLine stack s p = some s' ∧
      Took s s' ⟨wordRead (stack p) a, wordRead (stack (p + a.length + 1)) b⟩ (p + a.length + 1 + 4) ∧
      s'.buf.bytes.drop (p + a.length + 1 + b.length + 1) = w := by
  have hsep := Buf.strsep_delim h h0 ha (by decide)
  have hafter : ((s.buf.reads (p + a.length + 1)).store (p + a.length) 0).bytes.drop (p + a.length + 1) =
      b ++ 0 :: w := by
    rw [Buf.drop_store_of_lt _ _ (by omega)]
    exact Buf.drop_add h
  set buf := (s.buf.reads (p + a.length + 1)).store (p + a.length) 0 with hbuf
  have hfirst : buf.bytes.drop p = a ++ 0 :: (b ++ 0 :: w) := Buf.drop_store (b := s.buf.reads _) h 0
  have hword := parseWord_eq stack (s := { s with buf := buf }) hfirst
    (by rw [List.length_append, List.length_cons]; omega)
  have hword' := parseWord_eq stack (s := { s with buf := buf.reads (p + 4) }) hafter hn
  refine ⟨yucLlcpRegWrite { s with buf := (buf.reads (p + 4)).reads (p + a.length + 1 + 4) } (wordRead (stack p) a)
    (wordRead (stack (p + a.length + 1)) b), ?_, ⟨rfl, rfl, ?_⟩, Buf.drop_add hafter⟩
  · unfold defLine
    rw [hsep]
    show ((parseWord stack { s with buf := buf } p).bind fun x =>
      (parseWord stack x.2 (p + a.length + 1)).bind fun y => some (yucLlcpRegWrite y.2 x.1 y.1)) = _
    rw [hword, Option.bind_some, hword']
    rfl
  · show max (max (max s.buf.reach (p + a.length + 1)) (p + 4)) (p + a.length + 1 + 4) ≤ _
    omega

/-- Without a space there is no second word. -/
theorem defLine_fault {stack : Stack} {s : St} {p : ℕ} {u w : List Byte} (hu : space ∉ u) (h0 : 0 ∉ u)
    (h : s.buf.bytes.drop p = u ++ 0 :: w) : defLine stack s p = none := by
  have hsep := Buf.strsep_nul h h0 hu
  unfold defLine
  rw [hsep]
  show ((parseWord stack { s with buf := s.buf.reads (p + u.length + 1) } p).bind fun _ => none) = none
  exact Option.bind_fun_none _

theorem defLine_extends {stack : Stack} {s s' : St} {p : ℕ} (h : defLine stack s p = some s') : Extends s s' := by
  obtain ⟨⟨v, line, buf⟩, hsep, h⟩ := Option.bind_eq_some_iff.mp h
  obtain ⟨v, -, h⟩ := Option.bind_eq_some_iff.mp h
  obtain ⟨r, hr, h⟩ := Option.bind_eq_some_iff.mp h
  obtain ⟨line, -, h⟩ := Option.bind_eq_some_iff.mp h
  obtain ⟨r', hr', h⟩ := Option.bind_eq_some_iff.mp h
  obtain rfl := Option.some.inj h
  have hbuf : Extends s { s with buf := buf } := ⟨List.prefix_refl _, Buf.le_reach_strsep hsep⟩
  exact hbuf.trans ((parseWord_extends hr).trans ((parseWord_extends hr').trans (yucLlcpRegWrite_extends _ _ _)))

theorem defTakes (stack : Stack) : Takes defFormat stack (defLine stack) where
  extends_ := defLine_extends
  text := isData_def_text
  kept := by
    intro t p h
    obtain ⟨ha, hb⟩ := isData_def h
    show (if t.contains space then _ else none) = some _ ↔ WordKept _ _ ∧ WordKept _ _
    rw [if_pos (List.contains_iff_mem.mpr (space_mem_of_isData h)), ← wordRead_iff ha, ← wordRead_iff hb]
    simp only [defFormat, Option.some.injEq, RegWrite.mk.injEq]
  line := by
    intro s p t w h hdrop
    obtain ⟨ha, hb⟩ := isData_def h
    have hmem := space_mem_of_isData h
    obtain ⟨hdrop', hlen⟩ := drop_space hmem hdrop
    obtain ⟨s', hs', htook, hrest⟩ := defLine_eq stack (isWord_facts ha).2.1 (isWord_facts ha).1 hdrop'
      (by rw [hb.1]; omega)
    rw [hb.1] at hlen hrest
    refine ⟨_, s', if_pos (List.contains_iff_mem.mpr hmem), hs', ⟨htook.vaddr, htook.writes, ?_⟩, ?_⟩
    · have := htook.reach
      omega
    · rw [← hrest]
      congr 1
      omega
  stray := by
    intro s p u w h0 hdrop hw
    by_cases hmem : space ∈ u
    · right
      obtain ⟨hdrop', hlen⟩ := drop_space hmem hdrop
      have h0' : 0 ∉ beforeSpace u := fun h => h0 (List.takeWhile_subset _ h)
      have hspace : space ∉ beforeSpace u := not_mem_before space u
      obtain ⟨s', hs', htook, -⟩ := defLine_eq stack hspace h0' hdrop' (by omega)
      refine ⟨_, s', if_pos (List.contains_iff_mem.mpr hmem), hs', ⟨htook.vaddr, htook.writes, ?_⟩⟩
      have := htook.reach
      omega
    · exact Or.inl ⟨if_neg fun h => hmem (List.contains_iff_mem.mp h), defLine_fault hmem h0 hdrop⟩

/-- **The files of the chip are programmed as they say, without a look behind them, exactly
if they are read as they are meant.** -/
theorem memFiles_iff (stack : Stack) (rest : List Byte) :
    (∀ file : MemFile fwFormat,
      Programmed (yucProgRficFw stack) fwFormat file rest ↔ ReadAsMeant fwFormat stack 0 file.lines) ∧
    (∀ file : MemFile defFormat,
      Programmed (yucProgRficDef stack) defFormat file rest ↔ ReadAsMeant defFormat stack 0 file.lines) :=
  ⟨fun file => programmed_iff (fwTakes stack) file rest, fun file => programmed_iff (defTakes stack) file rest⟩

/-- `1234`, and a comment as the last line. -/
def commentLast : MemFile fwFormat where
  lines := [[0x31, 0x32, 0x33, 0x34], [0x2f, 0x2f]]
  noNewline := by decide
  format := by
    intro t ht
    rcases List.mem_pair.mp ht with rfl | rfl
    · exact Or.inr ⟨rfl, by decide⟩
    · exact Or.inl (by decide)

/-- `1234` -/
def oneWord : MemFile fwFormat where
  lines := [[0x31, 0x32, 0x33, 0x34]]
  noNewline := by decide
  format := by
    intro t ht
    rw [List.mem_singleton.mp ht]
    exact Or.inr ⟨rfl, by decide⟩

/-- After the comment the loop goes on with what is in the buffer behind the file, here
`5678`. A `5` behind `twobyte` makes `12345` of `1234`, of which 16 bits are written. -/
theorem commentLast_overrun :
    ¬ Programmed (yucProgRficFw fun _ => []) fwFormat commentLast [0x35, 0x36, 0x37, 0x38, 0x0a] ∧
    (yucProgRficFw (fun _ => []) 3 (textOf commentLast.lines ++ [0x35, 0x36, 0x37, 0x38, 0x0a]) 8).map St.writes =
      some [⟨0x6002, 0x1234⟩, ⟨0x6002, 0x5678⟩] ∧
    ¬ Programmed (yucProgRficFw fun _ => [0x35]) fwFormat oneWord [] ∧
    (yucProgRficFw (fun _ => [0x35]) 1 (textOf oneWord.lines) 5).map St.writes = some [⟨0x6002, 0x2345⟩] := by
  refine ⟨?_, by decide +kernel, ?_, by decide +kernel⟩
  · intro h
    have hmeant := (programmed_iff (fwTakes _) commentLast _).mp h
    rcases hmeant.2 with hnil | hcomment
    · exact absurd hnil (by decide)
    · exact hcomment
  · intro h
    have hmeant := (programmed_iff (fwTakes _) oneWord _).mp h
    have hkept : WordKept [0x35] [0x31, 0x32, 0x33, 0x34] := hmeant.1
    exact absurd hkept (by unfold WordKept; decide +kernel)

end MemFiles
end Yucca
end La12xx
