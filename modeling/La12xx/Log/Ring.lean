/-
# The log of a core

`gul_sysfs.c`: the ring the modem writes the log of one core to, and the
function that reads it. The host has no write pointer of the modem. It reads
from `offset` up to the first zero byte, goes on at the start of the ring when
it has reached the end, and sets to zero what it has read; when there is nothing
at `offset` it looks for the first byte that is not zero.

`Ring` says how bytes that were not read yet lie in the ring: in one piece, or in
two around its end. For each, a read collects them in order when `offset`
is where they start; in one piece it finds them from offset 0, too. A run of
bytes around the ring, told by its indices (`CyclicRun`), is of one of the two kinds.

The modem may write to the ring while `show_ep_log` looks through it, so the loop
is also there round by round (`showEpLogRound`). `gul_collect_ep_log` is one step.
-/
import La12xx.Lib.ByteMem
import Mathlib.Data.List.Rotate

namespace La12xx
namespace Log

open ByteMem

/-! ### Reading the ring -/

/-- `struct gul_ep_log`; `len` is the length of `buf`. -/
structure EpLog where
  buf : List Byte
  offset : ℕ
deriving DecidableEq, Repr

/-- The string at the start of a buffer, at most the whole: what `strnlen`
counts and `memcpy_fromio` copies. -/
def str (l : List Byte) : List Byte := l.takeWhile (· ≠ 0)

/-- `memset_io` of `n` bytes at `i` to zero -/
def clear (buf : List Byte) (i n : ℕ) : List Byte := buf.take i ++ List.replicate n 0 ++ buf.drop (i + n)

/-- `gul_collect_ep_log`: the log after it, and what it put into the buffer. -/
def collectEpLog (log : EpLog) : EpLog × List Byte :=
  let len := log.buf.length
  let epLogStr := str (log.buf.drop log.offset)
  if epLogStr = [] then (log, [])
  else
    let buf := clear log.buf log.offset epLogStr.length
    let offset := if log.offset + epLogStr.length ≥ len then 0 else log.offset + epLogStr.length
    if len - log.offset = epLogStr.length then
      let rest := str buf
      (⟨clear buf 0 rest.length, if rest.length ≥ len then 0 else rest.length⟩, epLogStr ++ rest)
    else (⟨buf, offset⟩, epLogStr)

/-- The loop of `show_ep_log` from `i` on, `left` bytes before the end. Every
byte that is found collects into the same buffer. -/
def scanLoop : ℕ → ℕ → EpLog → List Byte → EpLog × List Byte
  | 0, _, log, out => (log, out)
  | left + 1, i, log, out =>
    if log.buf.getD i 0 ≠ 0 then
      let c := collectEpLog { log with offset := i }
      scanLoop left (i + 1) c.1 c.2
    else scanLoop left (i + 1) log out

/-- One round of that loop. -/
def scanRound (i : ℕ) (log : EpLog) (out : List Byte) : EpLog × List Byte :=
  if log.buf.getD i 0 ≠ 0 then collectEpLog { log with offset := i } else (log, out)

theorem scanLoop_succ (left i : ℕ) (log : EpLog) (out : List Byte) :
    scanLoop (left + 1) i log out = scanLoop left (i + 1) (scanRound i log out).1 (scanRound i log out).2 := by
  rw [scanLoop, scanRound]
  split <;> rfl

/-- A read in the loop: the index it has come to, and what is in the buffer. -/
structure Scan where
  i : ℕ
  out : List Byte
deriving DecidableEq, Repr

/-- Where a read stands. -/
inductive Show where
  | scanning (scan : Scan)
  | returns (out : List Byte)
deriving DecidableEq, Repr

/-- "Returning PAGE_SIZE length will gives bad count" -/
def showEnd (pageSize : ℕ) (out : List Byte) : Show :=
  .returns (if out.length ≥ pageSize then out.take (out.length - 1) else out)

/-- `show_ep_log` up to its loop, with pages of `pageSize` bytes -/
def showEpLog (pageSize : ℕ) (log : EpLog) : EpLog × Show :=
  let c := collectEpLog log
  (c.1, if c.2 = [] then .scanning ⟨0, []⟩ else showEnd pageSize c.2)

/-- One round of its loop, or what comes after it. -/
def showEpLogRound (pageSize : ℕ) (scan : Scan) (log : EpLog) : EpLog × Show :=
  if scan.i < log.buf.length then
    let c := scanRound scan.i log scan.out
    (c.1, .scanning ⟨scan.i + 1, c.2⟩)
  else (log, showEnd pageSize scan.out)

/-! ### What lies in a ring -/

abbrev zeros (n : ℕ) : List Byte := List.replicate n 0

/-- The bytes `q` lie in the ring up to the write position, and else it is
zero. The ring has a byte. -/
inductive Ring : List Byte → ℕ → List Byte → Prop
  | inside (m b : ℕ) (q : List Byte) (h : 0 < q.length + b) :
      Ring (zeros m ++ (q ++ zeros b)) ((m + q.length) % (m + (q.length + b))) q
  | wrapped (m : ℕ) (q₁ q₂ : List Byte) (h₁ : q₁ ≠ []) (h₂ : q₂ ≠ []) :
      Ring (q₂ ++ (zeros m ++ q₁)) q₂.length (q₁ ++ q₂)

/-- An empty ring, wherever the write position is. -/
theorem ring_zeros {n pos : ℕ} (h : pos < n) : Ring (zeros n) pos [] := by
  have hr := Ring.inside pos (n - pos) [] (by simp; omega)
  simp only [List.length_nil, Nat.add_zero, Nat.zero_add, List.nil_append, List.replicate_append_replicate] at hr
  rwa [Nat.add_sub_cancel' h.le, Nat.mod_eq_of_lt h] at hr

section Str

variable {q : List Byte}

theorem str_zeros (n : ℕ) : str (zeros n) = [] := by
  cases n <;> rfl

theorem str_zeros_append {n : ℕ} (h : 0 < n) (l : List Byte) : str (zeros n ++ l) = [] := by
  cases n with
  | zero => exact absurd h (lt_irrefl 0)
  | succ n => rfl

/-- A string ends at the first zero byte. -/
theorem str_append (hq : ∀ x ∈ q, x ≠ 0) (l : List Byte) : str (q ++ l) = q ++ str l :=
  List.takeWhile_append_of_pos (by simpa using hq)

theorem str_append_zeros (hq : ∀ x ∈ q, x ≠ 0) (n : ℕ) : str (q ++ zeros n) = q := by
  rw [str_append hq, str_zeros, List.append_nil]

theorem clear_append (l₁ l₂ l₃ : List Byte) :
    clear (l₁ ++ (l₂ ++ l₃)) l₁.length l₂.length = l₁ ++ (zeros l₂.length ++ l₃) := by
  rw [clear, List.take_left, ← List.append_assoc l₁ l₂, ← List.length_append, List.drop_left, List.append_assoc]

end Str

/-! ### Collecting -/

section Collect

variable {q q₁ q₂ : List Byte}

theorem collectEpLog_nothing {log : EpLog} (h : str (log.buf.drop log.offset) = []) : collectEpLog log = (log, []) :=
  if_pos h

/-- A collection that finds nothing leaves the log alone. -/
theorem collectEpLog_of_nil {log : EpLog} (h : (collectEpLog log).2 = []) : collectEpLog log = (log, []) := by
  by_cases hstr : str (log.buf.drop log.offset) = []
  · exact collectEpLog_nothing hstr
  · exfalso
    revert h
    simp only [collectEpLog, hstr, if_false]
    split <;> simp [hstr]

theorem clear_length {buf : List Byte} {i n : ℕ} (h : i + n ≤ buf.length) : (clear buf i n).length = buf.length := by
  simp only [clear, List.length_append, List.length_take, List.length_replicate, List.length_drop]
  omega

theorem str_length_le (l : List Byte) : (str l).length ≤ l.length := (List.takeWhile_prefix _).length_le

/-- A collection keeps the ring's length. -/
theorem collectEpLog_length (log : EpLog) : (collectEpLog log).1.buf.length = log.buf.length := by
  by_cases hstr : str (log.buf.drop log.offset) = []
  · rw [collectEpLog_nothing hstr]
  · have hle : (str (log.buf.drop log.offset)).length ≤ log.buf.length - log.offset :=
      (str_length_le _).trans_eq List.length_drop
    have hpos : 0 < (str (log.buf.drop log.offset)).length := List.length_pos_iff.mpr hstr
    have hfirst : (clear log.buf log.offset (str (log.buf.drop log.offset)).length).length = log.buf.length :=
      clear_length (by omega)
    simp only [collectEpLog, hstr, if_false]
    split
    · refine (clear_length ?_).trans hfirst
      rw [Nat.zero_add]
      exact str_length_le _
    · exact hfirst

theorem scanRound_length (i : ℕ) (log : EpLog) (out : List Byte) :
    (scanRound i log out).1.buf.length = log.buf.length := by
  unfold scanRound
  split
  · exact collectEpLog_length _
  · rfl

theorem str_drop_zeros (n o : ℕ) : str ((zeros n).drop o) = [] := by
  rw [List.drop_replicate]
  exact str_zeros (n - o)

/-- Bytes in one piece are collected from their start. -/
theorem collectEpLog_inside (m b : ℕ) (h0 : q ≠ []) (hq : ∀ x ∈ q, x ≠ 0) :
    collectEpLog ⟨zeros m ++ (q ++ zeros b), m⟩ =
      (⟨zeros (m + (q.length + b)), (m + q.length) % (m + (q.length + b))⟩, q) := by
  have hdrop : (zeros m ++ (q ++ zeros b)).drop m = q ++ zeros b := List.drop_left' (List.length_replicate)
  have hstr : str (q ++ zeros b) = q := str_append_zeros hq b
  have hclear : clear (zeros m ++ (q ++ zeros b)) m q.length = zeros (m + (q.length + b)) := by
    have h := clear_append (zeros m) q (zeros b)
    rw [List.length_replicate] at h
    rw [h, List.replicate_append_replicate, List.replicate_append_replicate]
  have hpos : 0 < q.length := List.length_pos_iff.mpr h0
  simp only [collectEpLog, hdrop, hstr, h0, if_false, hclear, List.length_append, List.length_replicate]
  by_cases hb : b = 0
  · -- up to the end of the ring: nothing is left at its start
    subst hb
    have hrest : str (zeros (m + (q.length + 0))) = [] := str_zeros _
    have hend : m + (q.length + 0) - m = q.length := by omega
    simp only [hend, if_true, hrest, List.length_nil, List.append_nil]
    rw [if_neg (by omega), Nat.add_zero, Nat.mod_self]
    simp [clear]
  · have hend : ¬ m + (q.length + b) - m = q.length := by omega
    simp only [hend, if_false]
    rw [if_neg (by omega), Nat.mod_eq_of_lt (by omega)]

/-- Bytes in two pieces are collected from the start of the first. -/
theorem collectEpLog_wrapped (m : ℕ) (h₁ : q₁ ≠ []) (hq₁ : ∀ x ∈ q₁, x ≠ 0) (hq₂ : ∀ x ∈ q₂, x ≠ 0) :
    collectEpLog ⟨q₂ ++ (zeros m ++ q₁), q₂.length + m⟩ =
      (⟨zeros (q₂.length + (m + q₁.length)), q₂.length⟩, q₁ ++ q₂) := by
  have hpos : 0 < q₁.length := List.length_pos_iff.mpr h₁
  have hdrop : (q₂ ++ (zeros m ++ q₁)).drop (q₂.length + m) = q₁ := by
    rw [← List.append_assoc]
    exact List.drop_left' (by simp)
  have hstr : str q₁ = q₁ := by
    have h : str (q₁ ++ []) = q₁ := str_append_zeros hq₁ 0
    rwa [List.append_nil] at h
  have hclear : clear (q₂ ++ (zeros m ++ q₁)) (q₂.length + m) q₁.length = q₂ ++ zeros (m + q₁.length) := by
    have h := clear_append (q₂ ++ zeros m) q₁ []
    rw [List.length_append, List.length_replicate, List.append_nil, List.append_nil, List.append_assoc] at h
    rw [h, List.append_assoc, List.replicate_append_replicate]
  have hrest : str (q₂ ++ zeros (m + q₁.length)) = q₂ := str_append_zeros hq₂ _
  have hclear' : clear (q₂ ++ zeros (m + q₁.length)) 0 q₂.length = zeros (q₂.length + (m + q₁.length)) := by
    have h := clear_append [] q₂ (zeros (m + q₁.length))
    rw [List.nil_append, List.nil_append, List.length_nil] at h
    rw [h, List.replicate_append_replicate]
  have hend : q₂.length + (m + q₁.length) - (q₂.length + m) = q₁.length := by omega
  simp only [collectEpLog, hdrop, hstr, h₁, if_false, hclear, List.length_append, List.length_replicate, hend, if_true,
    hrest, hclear']
  rw [if_neg (by omega)]

end Collect

/-! ### Looking for the start -/

section Scan

variable {q : List Byte}

theorem scanLoop_zeros (n o : ℕ) (out : List Byte) : ∀ left i,
    scanLoop left i ⟨zeros n, o⟩ out = (⟨zeros n, o⟩, out)
  | 0, _ => rfl
  | left + 1, i => by
    have hz : (zeros n).getD i 0 = 0 := by
      rw [List.getD_eq_getElem?_getD, List.getElem?_replicate]
      split <;> rfl
    rw [scanLoop, if_neg (by simp only [hz]; exact fun h => h rfl)]
    exact scanLoop_zeros n o out left (i + 1)

/-- The loop comes to the first byte and collects from there. -/
theorem scanLoop_inside (m b o : ℕ) (h0 : q ≠ []) (hq : ∀ x ∈ q, x ≠ 0) (out : List Byte) : ∀ left i,
    i ≤ m → i + left = m + (q.length + b) →
    scanLoop left i ⟨zeros m ++ (q ++ zeros b), o⟩ out =
      (⟨zeros (m + (q.length + b)), (m + q.length) % (m + (q.length + b))⟩, q)
  | 0, i, hi, hleft => by
    have hpos : 0 < q.length := List.length_pos_iff.mpr h0
    omega
  | left + 1, i, hi, hleft => by
    rcases Nat.eq_or_lt_of_le hi with rfl | hlt
    · have hfirst : (zeros i ++ (q ++ zeros b)).getD i 0 ≠ 0 := by
        obtain ⟨x, q', rfl⟩ := List.exists_cons_of_ne_nil h0
        have hx : (zeros i ++ (x :: q' ++ zeros b)).getD i 0 = x := by
          simp [List.getD_eq_getElem?_getD]
        rw [hx]
        exact hq x List.mem_cons_self
      rw [scanLoop, if_pos hfirst]
      simp only [collectEpLog_inside i b h0 hq]
      exact scanLoop_zeros _ _ _ left (i + 1)
    · have hzero : (zeros m ++ (q ++ zeros b)).getD i 0 = 0 := by
        simp [List.getD_eq_getElem?_getD, List.getElem?_append_left, hlt]
      rw [scanLoop, if_neg (by simp only [hzero]; exact fun h => h rfl)]
      exact scanLoop_inside m b o h0 hq out left (i + 1) hlt (by omega)

end Scan

/-! ### One read, one byte -/

/-- The number of bytes in the ring that were not read. -/
def EpLog.unread (log : EpLog) : ℕ := (log.buf.filter (· ≠ 0)).length

/-- Where the unread bytes start, for a write position. -/
def EpLog.first (log : EpLog) (pos : ℕ) : ℕ := (pos + log.buf.length - log.unread) % log.buf.length

section Ring

variable {buf q : List Byte} {pos : ℕ}

theorem filter_zeros (n : ℕ) : (zeros n).filter (· ≠ 0) = [] := by
  rw [List.filter_eq_nil_iff]
  intro x hx
  simp [List.eq_of_mem_replicate hx]

/-- A ring with nothing unread is zero. -/
theorem buf_eq_of_unread {log : EpLog} (h : log.unread = 0) : log.buf = zeros log.buf.length := by
  refine List.eq_replicate_of_mem fun x hx => ?_
  by_contra hne
  have hmem : x ∈ log.buf.filter (· ≠ 0) := by simpa [hx] using hne
  rw [List.length_eq_zero_iff.mp h] at hmem
  exact absurd hmem List.not_mem_nil

theorem Ring.pos_lt (h : Ring buf pos q) : pos < buf.length := by
  cases h with
  | inside m b q h =>
    simp only [List.length_append, List.length_replicate]
    exact Nat.mod_lt _ (by omega)
  | wrapped m q₁ q₂ h₁ h₂ =>
    have hpos : 0 < q₁.length := List.length_pos_iff.mpr h₁
    simp only [List.length_append, List.length_replicate]
    omega

theorem Ring.length_le (h : Ring buf pos q) : q.length ≤ buf.length := by
  cases h with
  | inside m b q h =>
    simp only [List.length_append, List.length_replicate]
    omega
  | wrapped m q₁ q₂ h₁ h₂ =>
    simp only [List.length_append, List.length_replicate]
    omega

/-- The bytes that are not zero are the unread ones. -/
theorem Ring.unread_eq (h : Ring buf pos q) (hq : ∀ x ∈ q, x ≠ 0) (o : ℕ) : (⟨buf, o⟩ : EpLog).unread = q.length := by
  have hall : ∀ {l : List Byte}, (∀ x ∈ l, x ≠ 0) → l.filter (· ≠ 0) = l := by
    intro l hl
    exact List.filter_eq_self.mpr (by simpa using hl)
  unfold EpLog.unread
  cases h with
  | inside m b q h =>
    simp only [List.filter_append, filter_zeros, hall hq, List.append_nil, List.nil_append]
  | wrapped m q₁ q₂ h₁ h₂ =>
    have hq₁ : ∀ x ∈ q₁, x ≠ 0 := fun x hx => hq x (List.mem_append_left _ hx)
    have hq₂ : ∀ x ∈ q₂, x ≠ 0 := fun x hx => hq x (List.mem_append_right _ hx)
    simp only [List.filter_append, filter_zeros, hall hq₁, hall hq₂, List.nil_append, List.length_append]
    omega

/-- A byte that is written at the position comes after the unread ones. -/
theorem Ring.append (h : Ring buf pos q) (hq : ∀ x ∈ q, x ≠ 0) (hfree : buf.getD pos 0 = 0) (x : Byte) :
    Ring (buf.set pos x) ((pos + 1) % buf.length) (q ++ [x]) := by
  cases h with
  | inside m b q h =>
    by_cases hb : b = 0
    · -- the piece ends with the ring; the byte goes to its start
      subst hb
      have hmod : (m + q.length) % (m + (q.length + 0)) = 0 := Nat.mod_self _
      rw [hmod] at hfree ⊢
      have hm : m ≠ 0 := by
        rintro rfl
        obtain ⟨y, q', rfl⟩ := List.exists_cons_of_ne_nil (List.length_pos_iff.mp h)
        exact hq y List.mem_cons_self hfree
      obtain ⟨k, rfl⟩ := Nat.exists_eq_succ_of_ne_zero hm
      have hq0 : q ≠ [] := List.length_pos_iff.mp h
      have hr := Ring.wrapped k q [x] hq0 (List.cons_ne_nil _ _)
      have hset : (zeros (k + 1) ++ (q ++ zeros 0)).set 0 x = [x] ++ (zeros k ++ q) := by
        simp [List.replicate_succ]
      have hlen : (0 + 1) % (zeros (k + 1) ++ (q ++ zeros 0)).length = [x].length := by
        have hpos : 0 < q.length := List.length_pos_iff.mpr hq0
        rw [List.length_append, List.length_append, List.length_replicate, List.length_replicate]
        exact Nat.mod_eq_of_lt (by omega)
      rw [hset, hlen]
      exact hr
    · obtain ⟨k, rfl⟩ := Nat.exists_eq_succ_of_ne_zero hb
      have hmod : (m + q.length) % (m + (q.length + (k + 1))) = m + q.length := Nat.mod_eq_of_lt (by omega)
      have hset : (zeros m ++ (q ++ zeros (k + 1))).set (m + q.length) x = zeros m ++ (q ++ [x] ++ zeros k) := by
        rw [List.set_append_right _ _ (by simp), List.set_append_right _ _ (by simp)]
        simp [List.replicate_succ]
      have hlen : (zeros m ++ (q ++ zeros (k + 1))).length = m + ((q ++ [x]).length + k) := by
        simp only [List.length_append, List.length_replicate, List.length_singleton]
        omega
      have hr := Ring.inside m k (q ++ [x]) (by simp)
      rw [hmod, hset, hlen]
      rw [List.length_append, List.length_singleton] at hr ⊢
      exact hr
  | wrapped m q₁ q₂ h₁ h₂ =>
    have hm : m ≠ 0 := by
      rintro rfl
      obtain ⟨y, q', rfl⟩ := List.exists_cons_of_ne_nil h₁
      have hy : (q₂ ++ (zeros 0 ++ y :: q')).getD q₂.length 0 = y := by simp [List.getD_eq_getElem?_getD]
      rw [hy] at hfree
      exact hq y (List.mem_append_left _ List.mem_cons_self) hfree
    obtain ⟨k, rfl⟩ := Nat.exists_eq_succ_of_ne_zero hm
    have hset : (q₂ ++ (zeros (k + 1) ++ q₁)).set q₂.length x = q₂ ++ [x] ++ (zeros k ++ q₁) := by
      rw [List.set_append_right _ _ le_rfl, Nat.sub_self]
      simp [List.replicate_succ]
    have hlen : (q₂.length + 1) % (q₂ ++ (zeros (k + 1) ++ q₁)).length = (q₂ ++ [x]).length := by
      have hpos : 0 < q₁.length := List.length_pos_iff.mpr h₁
      simp only [List.length_append, List.length_replicate, List.length_singleton]
      exact Nat.mod_eq_of_lt (by omega)
    rw [hset, hlen, List.append_assoc q₁]
    exact Ring.wrapped k q₁ (q₂ ++ [x]) h₁ (by simp)

/-- Where the bytes of a piece start. -/
theorem first_inside (m b o : ℕ) (h : 0 < q.length + b) (hq : ∀ x ∈ q, x ≠ 0) :
    (⟨zeros m ++ (q ++ zeros b), o⟩ : EpLog).first ((m + q.length) % (m + (q.length + b))) = m := by
  have hr := Ring.inside m b q h
  rw [EpLog.first, hr.unread_eq hq]
  simp only [List.length_append, List.length_replicate]
  by_cases hb : b = 0
  · subst hb
    have hmod : (m + q.length) % (m + (q.length + 0)) = 0 := Nat.mod_self _
    have hsub : 0 + (m + (q.length + 0)) - q.length = m := by omega
    rw [hmod, hsub]
    exact Nat.mod_eq_of_lt (by omega)
  · have hmod : (m + q.length) % (m + (q.length + b)) = m + q.length := Nat.mod_eq_of_lt (by omega)
    have hsub : m + q.length + (m + (q.length + b)) - q.length = m + (m + (q.length + b)) := by omega
    rw [hmod, hsub, Nat.add_mod_right]
    exact Nat.mod_eq_of_lt (by omega)

theorem first_wrapped (m o : ℕ) {q₁ q₂ : List Byte} (h₁ : q₁ ≠ []) (h₂ : q₂ ≠ []) (hq : ∀ x ∈ q₁ ++ q₂, x ≠ 0) :
    (⟨q₂ ++ (zeros m ++ q₁), o⟩ : EpLog).first q₂.length = q₂.length + m := by
  have hpos : 0 < q₁.length := List.length_pos_iff.mpr h₁
  have hr := Ring.wrapped m q₁ q₂ h₁ h₂
  rw [EpLog.first, hr.unread_eq hq]
  simp only [List.length_append, List.length_replicate]
  have hsub : q₂.length + (q₂.length + (m + q₁.length)) - (q₁.length + q₂.length) = q₂.length + m := by omega
  rw [hsub]
  exact Nat.mod_eq_of_lt (by omega)

/-- What a read collects if nothing comes in between. -/
def readEpLog (log : EpLog) : EpLog × List Byte :=
  let c := collectEpLog log
  if c.2 = [] then scanLoop log.buf.length 0 c.1 [] else c

/-- An empty ring is read. -/
theorem readEpLog_zeros (n o : ℕ) : readEpLog ⟨zeros n, o⟩ = (⟨zeros n, o⟩, []) := by
  have hc : collectEpLog ⟨zeros n, o⟩ = (⟨zeros n, o⟩, []) := collectEpLog_nothing (str_drop_zeros n o)
  simp only [readEpLog, hc, if_true, scanLoop_zeros]

/-- A read collects the unread bytes in order, if the offset is where they
start, or is 0 and they lie in one piece. -/
theorem Ring.read {log : EpLog} (h : Ring log.buf pos q) (hq : ∀ x ∈ q, x ≠ 0)
    (hoff : log.offset = log.first pos ∨ log.offset = 0 ∧ log.first pos + log.unread ≤ log.buf.length) :
    readEpLog log = (⟨zeros log.buf.length, if q = [] then log.offset else pos⟩, q) := by
  obtain ⟨buf, offset⟩ := log
  change Ring buf pos q at h
  cases h with
  | inside m b q h =>
    simp only [first_inside m b offset h hq, (Ring.inside m b q h).unread_eq hq] at hoff
    by_cases h0 : q = []
    · subst h0
      have hz : zeros m ++ ([] ++ zeros b) = zeros (m + b) := by
        rw [List.nil_append, List.replicate_append_replicate]
      simp only [hz, if_true, List.length_replicate]
      exact readEpLog_zeros (m + b) offset
    · simp only [h0, if_false, List.length_append, List.length_replicate]
      by_cases hm : offset = m
      · simp only [readEpLog, hm, collectEpLog_inside m b h0 hq, h0, if_false]
      · -- nothing is found at offset 0; the bytes come later
        have ho : offset = 0 := (hoff.resolve_left hm).1
        subst ho
        have hc : collectEpLog ⟨zeros m ++ (q ++ zeros b), 0⟩ = (⟨zeros m ++ (q ++ zeros b), 0⟩, []) :=
          collectEpLog_nothing (str_zeros_append (by omega) _)
        have hscan := scanLoop_inside m b 0 h0 hq [] (m + (q.length + b)) 0 (Nat.zero_le _) (Nat.zero_add _)
        simp only [readEpLog, hc, if_true, List.length_append, List.length_replicate, hscan]
  | wrapped m q₁ q₂ h₁ h₂ =>
    have hq₁ : ∀ x ∈ q₁, x ≠ 0 := fun x hx => hq x (List.mem_append_left _ hx)
    have hq₂ : ∀ x ∈ q₂, x ≠ 0 := fun x hx => hq x (List.mem_append_right _ hx)
    have hpos : 0 < q₂.length := List.length_pos_iff.mpr h₂
    simp only [first_wrapped m offset h₁ h₂ hq, (Ring.wrapped m q₁ q₂ h₁ h₂).unread_eq hq, List.length_append,
      List.length_replicate] at hoff
    have ho : offset = q₂.length + m := by omega
    have hne : q₁ ++ q₂ ≠ [] := by simp [h₁]
    simp only [readEpLog, ho, collectEpLog_wrapped m h₁ hq₁ hq₂, hne, if_false, List.length_append,
      List.length_replicate]

end Ring

/-! ### A run around the ring -/

/-- The bytes of a ring that are not zero are one run: `k` bytes from `o` on, which
may go on at the start of the ring. -/
structure CyclicRun (buf : List Byte) (o k : ℕ) : Prop where
  start : o < buf.length
  length_le : k ≤ buf.length
  nonzero_iff : ∀ i < buf.length, buf.getD ((o + i) % buf.length) 0 ≠ 0 ↔ i < k

/-- The `k` bytes of a ring from `o` on, in cyclic order. -/
def cyclicBytes (buf : List Byte) (o k : ℕ) : List Byte :=
  (List.range k).map fun i => buf.getD ((o + i) % buf.length) 0

section CyclicRun

variable {buf : List Byte} {o k : ℕ}

theorem cyclicBytes_length (buf : List Byte) (o k : ℕ) : (cyclicBytes buf o k).length = k := by
  rw [cyclicBytes, List.length_map, List.length_range]

theorem CyclicRun.nonzero (h : CyclicRun buf o k) : ∀ x ∈ cyclicBytes buf o k, x ≠ 0 := by
  intro x hx
  obtain ⟨i, hi, rfl⟩ := List.mem_map.mp hx
  have hik : i < k := List.mem_range.mp hi
  exact (h.nonzero_iff i (lt_of_lt_of_le hik h.length_le)).mpr hik

/-- Turned so that it starts at the run, the ring is the run and zeros. -/
theorem CyclicRun.rotate_eq (h : CyclicRun buf o k) :
    buf.rotate o = cyclicBytes buf o k ++ zeros (buf.length - k) := by
  have hlen : (cyclicBytes buf o k ++ zeros (buf.length - k)).length = buf.length := by
    rw [List.length_append, cyclicBytes_length, List.length_replicate]
    exact Nat.add_sub_cancel' h.length_le
  apply List.ext_getElem
  · rw [List.length_rotate, hlen]
  · intro i hi hi'
    have hin : i < buf.length := by rwa [List.length_rotate] at hi
    have hmod : (o + i) % buf.length < buf.length := Nat.mod_lt _ (Nat.zero_lt_of_lt hin)
    have hget : (buf.rotate o)[i] = buf.getD ((o + i) % buf.length) 0 := by
      rw [List.getElem_rotate, List.getD_eq_getElem _ _ hmod]
      simp only [Nat.add_comm i o]
    rw [hget]
    rcases Nat.lt_or_ge i k with hik | hik
    · have hi'' : i < (cyclicBytes buf o k).length := by rwa [cyclicBytes_length]
      rw [List.getElem_append_left hi'']
      simp only [cyclicBytes, List.getElem_map, List.getElem_range]
    · have hi'' : (cyclicBytes buf o k).length ≤ i := by rwa [cyclicBytes_length]
      rw [List.getElem_append_right hi'', List.getElem_replicate]
      by_contra hne
      exact absurd ((h.nonzero_iff i hin).mp hne) (Nat.not_lt.mpr hik)

/-- The run lies in one piece, or in two around the end of the ring. -/
theorem CyclicRun.pieces (h : CyclicRun buf o k) :
    (∃ b, buf = zeros o ++ (cyclicBytes buf o k ++ zeros b)) ∨
      ∃ m q₁ q₂, q₁ ≠ [] ∧ cyclicBytes buf o k = q₁ ++ q₂ ∧ buf = q₂ ++ (zeros m ++ q₁) ∧ o = q₂.length + m := by
  have hbuf : buf = buf.take o ++ buf.drop o := (List.take_append_drop o buf).symm
  have htake : (buf.take o).length = o := by
    rw [List.length_take]
    exact Nat.min_eq_left h.start.le
  have hrot : buf.drop o ++ buf.take o = cyclicBytes buf o k ++ zeros (buf.length - k) := by
    rw [← List.rotate_eq_drop_append_take h.start.le]
    exact h.rotate_eq
  rcases List.append_eq_append_iff.mp hrot with ⟨q₂, hq, hzero⟩ | ⟨rest, hq, hzero⟩
  · -- the run goes past the end of the ring
    refine Or.inr ⟨buf.length - k, buf.drop o, q₂, ?_, hq, ?_, ?_⟩
    · intro hnil
      have hle : buf.length ≤ o := List.drop_eq_nil_iff.mp hnil
      exact absurd h.start (Nat.not_lt.mpr hle)
    · rw [← List.append_assoc, ← hzero]
      exact hbuf
    · have hlen := congrArg List.length hzero
      rwa [htake, List.length_append, List.length_replicate] at hlen
  · obtain ⟨-, hrest, htaken⟩ := List.replicate_eq_append_iff.mp hzero
    have hrest : rest = zeros rest.length := hrest
    have hstart : buf.take o = zeros o := by rwa [htake] at htaken
    refine Or.inl ⟨rest.length, ?_⟩
    calc buf = buf.take o ++ buf.drop o := hbuf
      _ = zeros o ++ (cyclicBytes buf o k ++ zeros rest.length) := by rw [hstart, hq, ← hrest]

/-- A run is collected whole and in order from its start, wherever it ends: the
ring is empty after that, and the offset is where the run ended. -/
theorem collectEpLog_cyclicRun (h : CyclicRun buf o k) :
    collectEpLog ⟨buf, o⟩ = (⟨zeros buf.length, (o + k) % buf.length⟩, cyclicBytes buf o k) ∧
      (collectEpLog ⟨buf, o⟩).2.length = k := by
  suffices hall : collectEpLog ⟨buf, o⟩ = (⟨zeros buf.length, (o + k) % buf.length⟩, cyclicBytes buf o k) by
    refine ⟨hall, ?_⟩
    rw [hall]
    exact cyclicBytes_length buf o k
  have hnonzero := h.nonzero
  have hklen : (cyclicBytes buf o k).length = k := cyclicBytes_length buf o k
  have hstart := h.start
  rcases h.pieces with ⟨b, hbuf⟩ | ⟨m, q₁, q₂, hq₁, hq, hbuf, ho⟩
  · have hlen : buf.length = o + (k + b) := by
      have := congrArg List.length hbuf
      rwa [List.length_append, List.length_append, List.length_replicate, List.length_replicate, hklen] at this
    generalize cyclicBytes buf o k = q at hbuf hnonzero hklen ⊢
    subst hbuf hklen
    by_cases h0 : q = []
    · -- nothing to read, and the ring is empty already
      subst h0
      have hz : zeros o ++ ([] ++ zeros b) = zeros (o + b) := by
        rw [List.nil_append, List.replicate_append_replicate]
      rw [hz, collectEpLog_nothing (str_drop_zeros (o + b) o)]
      rw [hz, List.length_replicate] at hstart
      rw [List.length_replicate, List.length_nil, Nat.add_zero, Nat.mod_eq_of_lt hstart]
    · rw [hlen]
      exact collectEpLog_inside o b h0 hnonzero
  · rw [hq] at hnonzero hklen ⊢
    rw [List.length_append] at hklen
    have hlen : buf.length = q₂.length + (m + q₁.length) := by
      rw [hbuf, List.length_append, List.length_append, List.length_replicate]
    have hpos : 0 < q₁.length := List.length_pos_iff.mpr hq₁
    have hend : (o + k) % buf.length = q₂.length := by
      have hsum : o + k = q₂.length + buf.length := by omega
      rw [hsum, Nat.add_mod_right]
      exact Nat.mod_eq_of_lt (by omega)
    have hq₁' : ∀ x ∈ q₁, x ≠ 0 := fun x hx => hnonzero x (List.mem_append_left _ hx)
    have hq₂' : ∀ x ∈ q₂, x ≠ 0 := fun x hx => hnonzero x (List.mem_append_right _ hx)
    rw [hend, hlen, hbuf, ho]
    exact collectEpLog_wrapped m hq₁ hq₁' hq₂'

/-- Three bytes from the third of four on: the last of them is the first of the ring. -/
theorem collectEpLog_around_end :
    collectEpLog ⟨[3, 0, 1, 2], 2⟩ = (⟨zeros 4, 1⟩, [1, 2, 3]) ∧ (collectEpLog ⟨[3, 0, 1, 2], 2⟩).2.length = 3 := by
  have hrun : CyclicRun [3, 0, 1, 2] 2 3 := ⟨by decide, by decide, by decide⟩
  exact collectEpLog_cyclicRun hrun

end CyclicRun

end Log
end La12xx
