/-
# The log of a core on the terminal

`print_string` of `gul_cli.c` writes a string to the terminal of the process
that asked for it. A terminal's driver takes as many bytes of a write as it has
room for, so the function goes on where the last write ended, but it offers the
length of the whole string each time. So the writes stay within the string, and
print it once, only if the driver takes it whole, or takes one byte first and
then all the rest but no more (`printsOnce_iff`).
-/
import La12xx.Lib.ByteMem
import La12xx.Lib.CInt

namespace La12xx
namespace Cli

open ByteMem

/-! ### The kernel around it -/

/-- A NUL-terminated string in memory; `buf` is address 0. -/
structure CString where
  mem : Mem
  text : List Byte
  holds : Holds mem 0 (text ++ [0])
  nonzero : 0 ∉ text

/-- `strlen(buf)` -/
def CString.strlen (s : CString) : ℕ := s.text.length

/-- The kernel's log: how many characters the `k`-th call prints of `n`. -/
structure Printk where
  emit : ℕ → ℕ → ℤ
  emit_zero : ∀ k, emit k 0 = 0
  emit_pos : ∀ k n, 0 < n → 1 ≤ emit k n ∧ emit k n ≤ n

/-- The driver of a terminal: how many bytes the `k`-th call of `write` accepts of `n`.
It accepts some of what it is offered. -/
structure TtyDriver where
  write : ℕ → ℤ → ℤ
  write_nonpos : ∀ k n, n ≤ 0 → write k n = 0
  write_pos : ∀ k n, 0 < n → 1 ≤ write k n ∧ write k n ≤ n

/-- A write to the terminal: bytes of the string from an index on, offered and accepted,
or the two of the line end. -/
inductive TtyWrite where
  | text (start count accepted : ℤ)
  | crlf (accepted : ℤ)
deriving DecidableEq, Repr

/-! ### `print_string` -/

/-- The loop over the kernel's log, in at most `n` rounds from the `k`-th call on: the
number of calls. -/
def dmesgLoop (K : Printk) (s : CString) (len : ℤ) : ℕ → ℤ → ℕ → Option ℕ
  | 0, printed, k => if printed < len then none else some k
  | n + 1, printed, k =>
    if printed < len then
      dmesgLoop K s len n (toS32 (printed + K.emit k (s.strlen - printed).toNat)) (k + 1)
    else some k

/-- The loop over the terminal, in at most `n` rounds: its writes. The `i`-th text is
call `2 * i`, the line end after it the next. -/
def ttyLoop (D : TtyDriver) (len : ℤ) : ℕ → ℤ → ℕ → Option (List TtyWrite)
  | 0, printed, _ => if printed < len then none else some []
  | n + 1, printed, i =>
    if printed < len then
      let accepted := D.write (2 * i) len
      (ttyLoop D len n (toS32 (printed + accepted)) (i + 1)).map fun ws =>
        .text printed len accepted :: .crlf (D.write (2 * i + 1) 2) :: ws
    else some []

/-- `print_string` with loops of at most `n` rounds: the writes to the terminal and the
value returned. -/
def printString (n : ℕ) (cliDmesgOn : ℤ) (K : Printk) (tty : Option TtyDriver) (s : CString) :
    Option (List TtyWrite × ℤ) :=
  let len := toS32 s.strlen
  let calls := if cliDmesgOn ≠ 0 then dmesgLoop K s len n (K.emit 0 s.strlen) 1 else some 0
  calls.bind fun k =>
    match tty with
    | none => some ([], K.emit k s.strlen)
    | some D =>
      let printed := D.write 0 len
      (ttyLoop D len n printed 1).map fun ws =>
        (.text 0 len printed :: .crlf (D.write 1 2) :: ws, len)

/-! ### What it is for -/

/-- No byte that is offered comes after the NUL. -/
def TtyWrite.Within (s : CString) : TtyWrite → Prop
  | .text start count _ => 0 ≤ start ∧ start + count ≤ s.strlen + 1
  | .crlf _ => True

/-- The bytes of the string that are accepted. -/
def TtyWrite.bytes (s : CString) : TtyWrite → List Byte
  | .text start _ accepted => ByteMem.bytes s.mem start accepted.toNat
  | .crlf _ => []

/-- `print_string` ends, offers no bytes beyond the NUL, and the terminal accepts the
string once. -/
def PrintsOnce (cliDmesgOn : ℤ) (K : Printk) (D : TtyDriver) (s : CString) : Prop :=
  ∃ n r, printString n cliDmesgOn K (some D) s = some r ∧ (∀ w ∈ r.1, w.Within s) ∧
    r.1.flatMap (TtyWrite.bytes s) = s.text

theorem toS32_strlen {s : CString} (h : s.strlen < 2 ^ 31) : toS32 s.strlen = s.strlen :=
  toS32_of_lt (by omega) (by omega)

/-- The bytes of the string are its text. -/
theorem CString.bytes_eq (s : CString) : ByteMem.bytes s.mem 0 s.strlen = s.text := by
  have h := s.holds
  rw [holds_append] at h
  exact h.1

/-! ### The loops end -/

/-- The kernel's log takes something of what is left, so it takes all in the end. -/
theorem dmesgLoop_ends (K : Printk) (s : CString) (hlen : s.strlen < 2 ^ 31) : ∀ (n : ℕ) (p : ℤ) (k : ℕ),
    0 ≤ p → p ≤ s.strlen → (s.strlen - p).toNat ≤ n → ∃ k', dmesgLoop K s s.strlen n p k = some k' := by
  intro n
  induction n with
  | zero =>
    intro p k h0 hle hn
    exact ⟨k, if_neg (by omega)⟩
  | succ n ih =>
    intro p k h0 hle hn
    unfold dmesgLoop
    by_cases hp : p < s.strlen
    · rw [if_pos hp]
      obtain ⟨h1, h2⟩ := K.emit_pos k (s.strlen - p).toNat (by omega)
      rw [toS32_of_lt (by omega) (by omega)]
      exact ih _ _ (by omega) (by omega) (by omega)
    · exact ⟨k, if_neg hp⟩

/-- So does the terminal, as long as the count of what it took cannot overflow. -/
theorem ttyLoop_ends (D : TtyDriver) {len : ℤ} (hlen : len ≤ 2 ^ 30) : ∀ (n : ℕ) (p : ℤ) (i : ℕ),
    0 ≤ p → (len - p).toNat ≤ n → ∃ ws, ttyLoop D len n p i = some ws := by
  intro n
  induction n with
  | zero =>
    intro p i h0 hn
    exact ⟨[], if_neg (by omega)⟩
  | succ n ih =>
    intro p i h0 hn
    unfold ttyLoop
    by_cases hp : p < len
    · obtain ⟨h1, h2⟩ := D.write_pos (2 * i) len (by omega)
      have hint : toS32 (p + D.write (2 * i) len) = p + D.write (2 * i) len :=
        toS32_of_lt (by omega) (by omega)
      obtain ⟨ws, hws⟩ := ih (p + D.write (2 * i) len) (i + 1) (by omega) (by omega)
      simp only [if_pos hp, hint, hws]
      exact ⟨_, rfl⟩
    · exact ⟨[], if_neg hp⟩

/-- The kernel's log is no obstacle. -/
theorem dmesg_ends (on : ℤ) (K : Printk) {s : CString} (hlt : s.strlen < 2 ^ 31) {n : ℕ} (hn : s.strlen ≤ n) :
    ∃ k, (if on ≠ 0 then dmesgLoop K s s.strlen n (K.emit 0 s.strlen) 1 else some 0) = some k := by
  by_cases hon : on ≠ 0
  · have hfirst : 0 ≤ K.emit 0 s.strlen ∧ K.emit 0 s.strlen ≤ s.strlen := by
      rcases Nat.eq_zero_or_pos s.strlen with h0 | h0
      · rw [h0, K.emit_zero]
        omega
      · have := K.emit_pos 0 _ h0
        omega
    obtain ⟨k, hk⟩ := dmesgLoop_ends K s hlt n (K.emit 0 s.strlen) 1 hfirst.1 hfirst.2 (by omega)
    exact ⟨k, (if_pos hon).trans hk⟩
  · exact ⟨0, if_neg hon⟩

/-- Whatever the terminal takes, a string of up to a gigabyte is done with. -/
theorem printString_ends (on : ℤ) (K : Printk) (D : TtyDriver) {s : CString} (hlen : s.strlen ≤ 2 ^ 30) :
    ∃ r, printString s.strlen on K (some D) s = some r := by
  have hlt : s.strlen < 2 ^ 31 := by omega
  have hfirst : 0 ≤ D.write 0 s.strlen := by
    rcases Nat.eq_zero_or_pos s.strlen with h0 | h0
    · exact (D.write_nonpos 0 _ (by omega)).ge
    · have := D.write_pos 0 s.strlen (by omega)
      omega
  obtain ⟨k, hk⟩ := dmesg_ends on K hlt (le_refl s.strlen)
  have hlen30 : (s.strlen : ℤ) ≤ 2 ^ 30 := by omega
  obtain ⟨ws, hws⟩ := ttyLoop_ends D hlen30 s.strlen (D.write 0 s.strlen) 1 hfirst (by omega)
  unfold printString
  simp only [toS32_strlen hlt, hk, hws, Option.bind_some, Option.map_some]
  exact ⟨_, rfl⟩

/-! ### The writes of the loop -/

section Loop

variable {D : TtyDriver} {len : ℤ}

/-- While something is left the loop offers the whole length again. -/
theorem ttyLoop_of_lt {n : ℕ} {p : ℤ} {i : ℕ} {ws : List TtyWrite} (h : ttyLoop D len n p i = some ws)
    (hp : p < len) : ∃ n' ws', ws = .text p len (D.write (2 * i) len) :: .crlf (D.write (2 * i + 1) 2) :: ws' ∧
      ttyLoop D len n' (toS32 (p + D.write (2 * i) len)) (i + 1) = some ws' := by
  cases n with
  | zero => exact absurd h (by rw [ttyLoop, if_pos hp]; exact fun h => by cases h)
  | succ n =>
    rw [ttyLoop, if_pos hp] at h
    simp only [Option.map_eq_some_iff] at h
    obtain ⟨ws', hrest, rfl⟩ := h
    exact ⟨n, ws', rfl, hrest⟩

theorem ttyLoop_of_le (D : TtyDriver) {len p : ℤ} (h : len ≤ p) (n i : ℕ) : ttyLoop D len n p i = some [] := by
  cases n with
  | zero => exact if_neg (by omega)
  | succ n => exact if_neg (by omega)

/-- If no write starts before the string the count has not overflowed, so fewer bytes
are accepted than an `int` can count. -/
theorem accepted_lt (s : CString) (hlen : len < 2 ^ 31) : ∀ (n : ℕ) {p : ℤ} {i : ℕ} {ws : List TtyWrite},
    0 ≤ p → p < 2 ^ 31 → ttyLoop D len n p i = some ws → (∀ w ∈ ws, w.Within s) →
    p + (ws.flatMap (TtyWrite.bytes s)).length < 2 ^ 31 := by
  intro n
  induction n with
  | zero =>
    intro p i ws h0 h1 h hw
    rcases lt_or_ge p len with hp | hp
    · obtain ⟨n', ws', rfl, hrest⟩ := ttyLoop_of_lt h hp
      rw [ttyLoop, if_pos hp] at h
      cases h
    · rw [ttyLoop_of_le D hp] at h
      cases h
      simpa using h1
  | succ n ih =>
    intro p i ws h0 h1 h hw
    rcases lt_or_ge p len with hp | hp
    · rw [ttyLoop, if_pos hp] at h
      simp only [Option.map_eq_some_iff] at h
      obtain ⟨ws', hrest, rfl⟩ := h
      obtain ⟨ha, hb⟩ := D.write_pos (2 * i) len (by omega)
      simp only [List.forall_mem_cons] at hw
      rcases lt_or_ge (p + D.write (2 * i) len) (2 ^ 31) with hint | hover
      · rw [toS32_of_lt (by omega) hint] at hrest
        have hsum := ih (by omega) hint hrest hw.2.2
        simp only [List.flatMap_cons, TtyWrite.bytes, List.length_append, length_bytes, List.length_nil]
        omega
      · -- the count has overflowed: the next write starts before the string
        have hneg : toS32 (p + D.write (2 * i) len) < 0 := by
          unfold toS32
          omega
        obtain ⟨n', ws'', rfl, -⟩ := ttyLoop_of_lt hrest (by omega)
        simp only [List.forall_mem_cons] at hw
        have hstart : 0 ≤ toS32 (p + D.write (2 * i) len) := hw.2.2.1.1
        omega
    · rw [ttyLoop_of_le D hp] at h
      cases h
      simpa using h1

end Loop

/-- What `print_string` writes once the kernel's log is done with. -/
theorem printString_eq_some {n : ℕ} {on : ℤ} {K : Printk} {D : TtyDriver} {s : CString} {r : List TtyWrite × ℤ}
    (h : printString n on K (some D) s = some r) : ∃ ws,
      ttyLoop D (toS32 s.strlen) n (D.write 0 (toS32 s.strlen)) 1 = some ws ∧
      r.1 = .text 0 (toS32 s.strlen) (D.write 0 (toS32 s.strlen)) :: .crlf (D.write 1 2) :: ws := by
  unfold printString at h
  simp only [Option.bind_eq_some_iff, Option.map_eq_some_iff] at h
  obtain ⟨k, -, ws, hws, rfl⟩ := h
  exact ⟨ws, hws, rfl⟩

/-- A string that is too long for an `int` is not printed. -/
theorem strlen_lt_of_printsOnce {on : ℤ} {K : Printk} {D : TtyDriver} {s : CString} (h : PrintsOnce on K D s) :
    s.strlen < 2 ^ 31 := by
  obtain ⟨n, r, hrun, hwithin, haccepted⟩ := h
  obtain ⟨ws, hws, hr⟩ := printString_eq_some hrun
  by_contra hge
  have hlen : toS32 s.strlen < 2 ^ 31 := by
    unfold toS32
    omega
  rw [hr] at hwithin haccepted
  simp only [List.forall_mem_cons] at hwithin
  have htotal := congrArg List.length haccepted
  simp only [List.flatMap_cons, TtyWrite.bytes, List.length_append, length_bytes, List.length_nil] at htotal
  have hfirst : 0 ≤ D.write 0 (toS32 s.strlen) ∧ D.write 0 (toS32 s.strlen) < 2 ^ 31 := by
    rcases le_or_gt (toS32 s.strlen) 0 with h0 | h0
    · rw [D.write_nonpos 0 _ h0]
      omega
    · have := D.write_pos 0 _ h0
      omega
  have hlt := accepted_lt s hlen n hfirst.1 hfirst.2 hws hwithin.2.2
  have hstr : s.text.length = s.strlen := rfl
  omega

/-- A string is printed once only if the terminal takes it whole, or one byte and then
the rest: a second write that starts later offers bytes beyond the NUL, and so does a
third one. -/
theorem whole_or_one_of_printsOnce {on : ℤ} {K : Printk} {D : TtyDriver} {s : CString}
    (h : PrintsOnce on K D s) : D.write 0 s.strlen = s.strlen ∨
      D.write 0 s.strlen = 1 ∧ D.write 2 s.strlen + 1 = s.strlen := by
  have hlen := toS32_strlen (strlen_lt_of_printsOnce h)
  have hlt := strlen_lt_of_printsOnce h
  obtain ⟨n, r, hrun, hwithin, haccepted⟩ := h
  obtain ⟨ws, hws, hr⟩ := printString_eq_some hrun
  rw [hlen] at hws hr
  rcases lt_or_ge (D.write 0 s.strlen) s.strlen with hp | hp
  · right
    have hpos : (0 : ℤ) < s.strlen := by
      by_contra h0
      rw [D.write_nonpos 0 _ (by omega)] at hp
      omega
    obtain ⟨ha, hb⟩ := D.write_pos 0 s.strlen hpos
    obtain ⟨ha', hb'⟩ := D.write_pos 2 s.strlen hpos
    obtain ⟨n', ws', rfl, hrest⟩ := ttyLoop_of_lt hws hp
    rw [hr] at hwithin haccepted
    simp only [List.forall_mem_cons] at hwithin
    -- the second write starts at the second byte
    have hsecond : D.write 0 s.strlen + s.strlen ≤ s.strlen + 1 := hwithin.2.2.1.2
    have hone : D.write 0 s.strlen = 1 := by omega
    have htotal := congrArg List.length haccepted
    simp only [List.flatMap_cons, TtyWrite.bytes, List.length_append, length_bytes, List.length_nil] at htotal
    have hstr : s.text.length = s.strlen := rfl
    refine ⟨hone, ?_⟩
    change D.write (2 * 1) s.strlen + 1 = s.strlen
    rw [hone] at hrest htotal
    change 1 ≤ D.write (2 * 1) s.strlen at ha'
    rw [toS32_of_lt (by omega) (by omega)] at hrest
    by_contra hne
    -- and there is no third one
    obtain ⟨n'', ws'', rfl, -⟩ := ttyLoop_of_lt hrest (by omega)
    simp only [List.forall_mem_cons] at hwithin
    have hthird : 1 + D.write (2 * 1) s.strlen + s.strlen ≤ s.strlen + 1 := hwithin.2.2.2.2.1.2
    omega
  · left
    apply le_antisymm _ hp
    rcases Nat.eq_zero_or_pos s.strlen with h0 | h0
    · rw [h0]
      exact (D.write_nonpos 0 _ le_rfl).le
    · exact (D.write_pos 0 _ (by omega)).2

/-- A string the terminal takes so is printed once. -/
theorem printsOnce_of_whole_or_one (on : ℤ) (K : Printk) {D : TtyDriver} {s : CString} (hlt : s.strlen < 2 ^ 31)
    (h : D.write 0 s.strlen = s.strlen ∨ D.write 0 s.strlen = 1 ∧ D.write 2 s.strlen + 1 = s.strlen) :
    PrintsOnce on K D s := by
  obtain ⟨n, hn⟩ : ∃ n, s.strlen ≤ n + 1 := ⟨s.strlen, Nat.le_succ _⟩
  obtain ⟨k, hcalls⟩ := dmesg_ends on K hlt hn
  have hrun : ∀ ws, ttyLoop D s.strlen (n + 1) (D.write 0 s.strlen) 1 = some ws →
      printString (n + 1) on K (some D) s =
        some (.text 0 s.strlen (D.write 0 s.strlen) :: .crlf (D.write 1 2) :: ws, (s.strlen : ℤ)) := by
    intro ws hws
    unfold printString
    simp only [toS32_strlen hlt, hcalls, hws, Option.bind_some, Option.map_some]
  have htext := s.bytes_eq
  rcases h with hwhole | ⟨hone, hrest⟩
  · refine ⟨n + 1, _, hrun [] (ttyLoop_of_le D hwhole.ge _ _), ?_, ?_⟩
    · simp only [List.forall_mem_cons, TtyWrite.Within, List.not_mem_nil, false_implies, implies_true, and_true]
      omega
    · rw [hwhole]
      simp only [List.flatMap_cons, List.flatMap_nil, TtyWrite.bytes, Int.toNat_natCast, htext, List.append_nil]
  · rcases lt_or_ge (1 : ℤ) s.strlen with hlong | hshort
    · have hint : toS32 (1 + D.write (2 * 1) s.strlen) = s.strlen := by
        change toS32 (1 + D.write 2 s.strlen) = s.strlen
        rw [show 1 + D.write 2 s.strlen = s.strlen by omega]
        exact toS32_strlen hlt
      have hws : ttyLoop D s.strlen (n + 1) (D.write 0 s.strlen) 1 =
          some [.text 1 s.strlen (D.write 2 s.strlen), .crlf (D.write 3 2)] := by
        rw [hone, ttyLoop, if_pos hlong]
        simp only [hint, ttyLoop_of_le D le_rfl]
        rfl
      refine ⟨n + 1, _, hrun _ hws, ?_, ?_⟩
      · simp only [List.forall_mem_cons, TtyWrite.Within, List.not_mem_nil, false_implies, implies_true, and_true,
          true_and]
        omega
      · rw [hone]
        have hsplit : s.strlen = 1 + (D.write 2 s.strlen).toNat := by omega
        simp only [List.flatMap_cons, List.flatMap_nil, TtyWrite.bytes, List.append_nil, List.nil_append]
        calc ByteMem.bytes s.mem 0 (1 : ℤ).toNat ++ ByteMem.bytes s.mem 1 (D.write 2 s.strlen).toNat
            = ByteMem.bytes s.mem 0 (1 + (D.write 2 s.strlen).toNat) := (bytes_add s.mem 0 1 _).symm
          _ = s.text := by rw [← hsplit, htext]
    · -- a string of one byte is taken whole
      exfalso
      rcases Nat.eq_zero_or_pos s.strlen with h0 | h0
      · have := D.write_nonpos 0 s.strlen (by omega)
        omega
      · have := D.write_pos 2 s.strlen (by omega)
        omega

/-- **A string is printed once exactly when the terminal takes it whole, or one byte and
then the rest.** -/
theorem printsOnce_iff (on : ℤ) (K : Printk) (D : TtyDriver) (s : CString) : PrintsOnce on K D s ↔
    s.strlen < 2 ^ 31 ∧ (D.write 0 s.strlen = s.strlen ∨
      D.write 0 s.strlen = 1 ∧ D.write 2 s.strlen + 1 = s.strlen) := by
  constructor
  · intro h
    exact ⟨strlen_lt_of_printsOnce h, whole_or_one_of_printsOnce h⟩
  · rintro ⟨hlt, h⟩
    exact printsOnce_of_whole_or_one on K hlt h

/-- A terminal that takes two bytes at a time. -/
def twoAtATime : TtyDriver where
  write _ n := max 0 (min n 2)
  write_nonpos _ n h := by omega
  write_pos _ n h := by omega

/-- A kernel's log that takes all. -/
def allAtOnce : Printk where
  emit _ n := n
  emit_zero _ := rfl
  emit_pos _ n h := by omega

/-- "abc" with other bytes behind it. -/
def abc : CString where
  mem := ofList [0x61, 0x62, 0x63, 0, 0x78, 0x79]
  text := [0x61, 0x62, 0x63]
  holds := rfl
  nonzero := by decide

/-- The second write starts at `c` and offers three bytes, the last of them behind the
NUL; the NUL is printed. -/
theorem abc_overrun : printString 1 0 allAtOnce (some twoAtATime) abc =
      some ([.text 0 3 2, .crlf 2, .text 2 3 2, .crlf 2], 3) ∧ ¬ PrintsOnce 0 allAtOnce twoAtATime abc := by
  constructor
  · decide
  · intro h
    rcases whole_or_one_of_printsOnce h with h | h
    · exact absurd h (by decide)
    · exact absurd h.1 (by decide)

end Cli
end La12xx
