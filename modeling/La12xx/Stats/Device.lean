/-
# The statistics device

`gul_stats.c` gives a modem a character device that shows the statistics of
the driver. `gul_stats_collect` lets the providers write one after the other
into a buffer of 32 KB, and `gul_stats_read` hands the buffer out in as many
pieces as the reader asks for. How far the reader is stands in the device, not
in the open file, and goes back to the start only with a read that transfers
nothing.

So a user sees one complete collection if the device is at the start when it is
opened, if no read of size 0 and no bad buffer come in between, and if what the
providers write stays within the buffer (`Undisturbed`).
-/
import La12xx.Lib.ByteMem
import La12xx.Lib.Machine

namespace La12xx
namespace Stats

open ByteMem Machine

/-! ### A collection -/

/-- `GUL_LOG_BUF_SIZE` -/
def gulLogBufSize : ℕ := 32 * 1024

/-- What `gul_show_stats` of a provider does: the bytes it returns the number of, and
those it writes after them, as `sprintf` does its NUL. -/
structure Shown where
  out : List Byte
  rest : List Byte
deriving DecidableEq, Repr

def Shown.written (p : Shown) : List Byte := p.out ++ p.rest

/-- The rounds of `gul_stats_collect` from a length on: the length and the buffer after
them. `buf` is `log_buf + stats_len` throughout. -/
def gulStatsCollect : List Shown → ℕ → Mem → ℕ × Mem
  | [], statsLen, logBuf => (statsLen, logBuf)
  | p :: ps, statsLen, logBuf =>
    if statsLen > gulLogBufSize then (statsLen, logBuf)
    else gulStatsCollect ps (statsLen + p.out.length) (put logBuf statsLen p.written)

/-- Where in the buffer the providers write that are called: offset and length. -/
def writes : List Shown → ℕ → List (ℕ × ℕ)
  | [], _ => []
  | p :: ps, statsLen =>
    if statsLen > gulLogBufSize then []
    else (statsLen, p.written.length) :: writes ps (statsLen + p.out.length)

/-- The outputs of the providers in order. -/
def collection (shown : List Shown) : List Byte := shown.flatMap Shown.out

/-- Each provider ends within the buffer if the outputs before it stand before it. -/
def Fits : List Shown → ℕ → Prop
  | [], _ => True
  | p :: ps, statsLen => statsLen + p.written.length ≤ gulLogBufSize ∧ Fits ps (statsLen + p.out.length)

instance decidableFits : ∀ ps n, Decidable (Fits ps n)
  | [], _ => inferInstanceAs (Decidable True)
  | p :: ps, n => @instDecidableAnd _ _ _ (decidableFits ps (n + p.out.length))

theorem Shown.out_le_written (p : Shown) : p.out.length ≤ p.written.length := by
  rw [Shown.written, List.length_append]
  exact Nat.le_add_right _ _

theorem collection_cons (p : Shown) (ps : List Shown) : collection (p :: ps) = p.out ++ collection ps :=
  List.flatMap_cons

/-- The check in the loop lets a provider start where the buffer ends, so it keeps the
writes within the buffer exactly when none would leave it anyway. -/
theorem writes_within_iff (ps : List Shown) : ∀ {n : ℕ}, n ≤ gulLogBufSize →
    ((∀ w ∈ writes ps n, w.1 + w.2 ≤ gulLogBufSize) ↔ Fits ps n) := by
  induction ps with
  | nil => exact fun _ => iff_of_true (fun w hw => absurd hw List.not_mem_nil) trivial
  | cons p ps ih =>
    intro n hn
    unfold writes Fits
    rw [if_neg (Nat.not_lt.mpr hn), List.forall_mem_cons]
    apply and_congr_right
    intro hle
    apply ih
    have := p.out_le_written
    omega

/-- So many providers of at most `P` bytes each as the buffer has room for fit. -/
theorem fits_of_le {P : ℕ} (ps : List Shown) (hP : ∀ p ∈ ps, p.written.length ≤ P) : ∀ {n : ℕ},
    n + ps.length * P ≤ gulLogBufSize → Fits ps n := by
  induction ps with
  | nil => exact fun _ => trivial
  | cons p ps ih =>
    intro n hn
    rw [List.length_cons, Nat.succ_mul] at hn
    have hp := hP p List.mem_cons_self
    have hout := p.out_le_written
    constructor
    · omega
    · exact ih (fun q hq => hP q (List.mem_cons_of_mem p hq)) (by omega)

/-- Providers that fit all come to their turn, and their outputs stand in the buffer. -/
theorem collect_of_fits (ps : List Shown) : ∀ {n : ℕ} {m : Mem} {l : List Byte}, n ≤ gulLogBufSize → Fits ps n →
    Holds m 0 l → l.length = n → ∃ m', gulStatsCollect ps n m = (n + (collection ps).length, m') ∧
      Holds m' 0 (l ++ collection ps) ∧ n + (collection ps).length ≤ gulLogBufSize := by
  induction ps with
  | nil =>
    intro n m l hn _ hm _
    refine ⟨m, rfl, ?_, hn⟩
    rwa [show collection [] = [] from rfl, List.append_nil]
  | cons p ps ih =>
    intro n m l hn hfits hm hlen
    obtain ⟨hle, hrest⟩ := hfits
    have hout := p.out_le_written
    have hput : Holds (put m n p.written) 0 (l ++ p.out) := by
      have hall : Holds (put m n p.written) 0 (l ++ p.written) := hm.append_put (by rw [hlen, zero_add])
      rw [Shown.written, ← List.append_assoc, holds_append] at hall
      exact hall.1
    obtain ⟨m', hrun, hm', hend⟩ := ih (by omega) hrest hput (by rw [List.length_append, hlen])
    refine ⟨m', ?_, ?_, ?_⟩
    · unfold gulStatsCollect
      rw [if_neg (Nat.not_lt.mpr hn), hrun, collection_cons, List.length_append, Nat.add_assoc]
    · rwa [collection_cons, ← List.append_assoc]
    · rwa [collection_cons, List.length_append, ← Nat.add_assoc]

/-! ### The device -/

/-- `struct gul_stats_desc` -/
structure StatsDesc where
  logBuf : Mem
  logLen : ℕ
  copiedLen : ℕ
  status : ℕ

/-- A call of `read`: its size, what the providers would show, and the first byte of the
user's buffer that cannot be written. -/
structure ReadCall where
  size : ℕ
  shown : List Shown
  fault : Option ℕ
deriving DecidableEq, Repr

/-- `EFAULT` -/
def efault : ℤ := 14

/-- The beginning of `gul_stats_read`: a new collection if none is under way. -/
def collect (sd : StatsDesc) (shown : List Shown) : StatsDesc :=
  if sd.status = 0 then
    let r := gulStatsCollect shown 0 sd.logBuf
    { logBuf := r.2, copiedLen := 0, logLen := r.1 % 2 ^ 32, status := 1 }
  else sd

/-- The loop of `gul_stats_read`, with `left` bytes not copied yet: the bytes it copies,
and whether `copy_to_user` ended it. -/
def copyLoop (sd : StatsDesc) (c : ReadCall) : ℕ → ℕ → List Byte × Bool
  | 0, _ => ([], false)
  | left + 1, bytes =>
    if c.size = bytes then ([], false)
    else if c.fault = some bytes then ([], true)
    else
      let data := sd.logBuf (sd.copiedLen + bytes : ℕ)
      let r := copyLoop sd c left (bytes + 1)
      (data :: r.1, r.2)

/-- `gul_stats_read` -/
def gulStatsRead (sd : StatsDesc) (c : ReadCall) : StatsDesc × Except ℤ (List Byte) :=
  let sd := collect sd c.shown
  let r := copyLoop sd c (sd.logLen - sd.copiedLen) 0
  let sd := { sd with copiedLen := sd.copiedLen + r.1.length }
  if r.2 then (sd, .error (-efault))
  else if r.1.length = 0 then ({ sd with status := 0 }, .ok r.1)
  else (sd, .ok r.1)

/-- The file operations. -/
inductive Op where
  | open
  | read (c : ReadCall)
  /-- `gul_stats_write`, which resets the counters of the providers -/
  | write
  | close
deriving DecidableEq, Repr

/-- One operation: `gul_stats_open`, `gul_stats_release` and `gul_stats_write` leave the
descriptor as it is. -/
def step (sd : StatsDesc) : Op → StatsDesc × Except ℤ (List Byte)
  | .read c => gulStatsRead sd c
  | .open => (sd, .ok [])
  | .write => (sd, .ok [])
  | .close => (sd, .ok [])

/-- `gul_stats_init`, with whatever is in the buffer and the length. -/
def gulStatsInit (logBuf : Mem) (logLen : ℕ) : StatsDesc := ⟨logBuf, logLen, 0, 0⟩

/-! ### One read -/

/-- A read that goes through has a buffer that can be written, or one that cannot be
written at all. -/
def ReadCall.Clean (c : ReadCall) (sd : StatsDesc) : Prop :=
  ∀ f ∈ c.fault, f = 0 ∨ min (sd.logLen - sd.copiedLen) c.size ≤ f

instance (c : ReadCall) (sd : StatsDesc) : Decidable (c.Clean sd) :=
  inferInstanceAs (Decidable (∀ f ∈ c.fault, _))

/-- The loop copies what is left, or what is asked for if that is less. -/
theorem copyLoop_eq (sd : StatsDesc) (c : ReadCall) : ∀ (left b : ℕ), b ≤ c.size →
    (∀ f ∈ c.fault, f < b ∨ b + min left (c.size - b) ≤ f) →
    copyLoop sd c left b = (bytes sd.logBuf (sd.copiedLen + b : ℕ) (min left (c.size - b)), false) := by
  intro left
  induction left with
  | zero =>
    intro b _ _
    rw [Nat.zero_min]
    rfl
  | succ left ih =>
    intro b hb hf
    unfold copyLoop
    by_cases hsize : c.size = b
    · rw [if_pos hsize, hsize, Nat.sub_self, Nat.min_zero]
      rfl
    · have hmin : min (left + 1) (c.size - b) = min left (c.size - (b + 1)) + 1 := by omega
      have hno : ¬ c.fault = some b := by
        intro h
        have := hf b h
        omega
      have hrest : ∀ f ∈ c.fault, f < b + 1 ∨ b + 1 + min left (c.size - (b + 1)) ≤ f := by
        intro f hmem
        have := hf f hmem
        omega
      rw [if_neg hsize, if_neg hno]
      simp only [ih (b + 1) (by omega) hrest, hmin]
      rfl

theorem collect_collect (sd : StatsDesc) (ps : List Shown) : collect (collect sd ps) ps = collect sd ps := by
  by_cases h : sd.status = 0
  · have h1 : (collect sd ps).status ≠ 0 := by
      unfold collect
      rw [if_pos h]
      exact one_ne_zero
    rw [collect, if_neg h1]
  · rw [show collect sd ps = sd from if_neg h]
    exact if_neg h

/-- A read goes on from the collection it finds or makes. -/
theorem gulStatsRead_collect (sd : StatsDesc) (c : ReadCall) :
    gulStatsRead sd c = gulStatsRead (collect sd c.shown) c := by
  simp only [gulStatsRead, collect_collect]

/-- A collection is under way: it stands in the buffer, and `got` of it is copied. -/
structure UnderWay (sd : StatsDesc) (got C : List Byte) : Prop where
  status : sd.status ≠ 0
  holds : Holds sd.logBuf 0 C
  logLen : sd.logLen = C.length
  copiedLen : sd.copiedLen = got.length
  copied : got <+: C

theorem underWay_collect {sd : StatsDesc} {ps : List Shown} (h : sd.status = 0) (hfits : Fits ps 0) :
    UnderWay (collect sd ps) [] (collection ps) := by
  obtain ⟨m', hrun, hm', hend⟩ :=
    collect_of_fits ps (Nat.zero_le _) hfits (holds_nil sd.logBuf 0) rfl
  rw [Nat.zero_add] at hrun hend
  rw [List.nil_append] at hm'
  have hlt : (collection ps).length < 2 ^ 32 := hend.trans_lt (by decide)
  unfold collect
  rw [if_pos h, hrun]
  exact ⟨one_ne_zero, hm', Nat.mod_eq_of_lt hlt, rfl, List.nil_prefix⟩

section Read

variable {sd : StatsDesc} {got C : List Byte} (h : UnderWay sd got C)
include h

/-- The bytes copied next are those that follow. -/
theorem UnderWay.bytes_eq {k : ℕ} (hk : got.length + k ≤ C.length) :
    ∃ l, bytes sd.logBuf (got.length : ℕ) k = l ∧ l.length = k ∧ got ++ l <+: C := by
  obtain ⟨rest, hC⟩ := h.copied
  have hrest : k ≤ rest.length := by
    have := congrArg List.length hC
    rw [List.length_append] at this
    omega
  have hsplit : C = got ++ (rest.take k ++ rest.drop k) := by rw [List.take_append_drop, hC]
  have hholds := h.holds
  rw [hsplit, holds_append, holds_append, zero_add] at hholds
  have hlen : (rest.take k).length = k := List.length_take_of_le hrest
  refine ⟨rest.take k, hholds.2.1.bytes_eq hlen.symm, hlen, rest.drop k, ?_⟩
  rw [List.append_assoc]
  exact hsplit.symm

/-- What a read does: it hands out the next bytes, fails before the first, or has
nothing to hand out and ends the collection. -/
theorem UnderWay.read (c : ReadCall) (hc : c.Clean sd) :
    (∃ e, (gulStatsRead sd c).2 = .error e ∧ UnderWay (gulStatsRead sd c).1 got C) ∨
    (∃ l, (gulStatsRead sd c).2 = .ok l ∧ l ≠ [] ∧ UnderWay (gulStatsRead sd c).1 (got ++ l) C) ∨
    ((gulStatsRead sd c).2 = .ok [] ∧ (gulStatsRead sd c).1.status = 0 ∧ (0 < c.size → got = C)) := by
  have hsame : collect sd c.shown = sd := if_neg h.status
  have hleft : sd.logLen - sd.copiedLen = C.length - got.length := by rw [h.logLen, h.copiedLen]
  have hle := h.copied.length_le
  unfold gulStatsRead
  simp only [hsame]
  by_cases hfault : c.fault = some 0 ∧ 0 < min (sd.logLen - sd.copiedLen) c.size
  · -- the first byte cannot be written
    obtain ⟨left, hsucc⟩ : ∃ left, sd.logLen - sd.copiedLen = left + 1 :=
      Nat.exists_eq_succ_of_ne_zero (by omega)
    have hloop : copyLoop sd c (sd.logLen - sd.copiedLen) 0 = ([], true) := by
      rw [hsucc]
      unfold copyLoop
      rw [if_neg (by omega), if_pos hfault.1]
    rw [hloop]
    exact Or.inl ⟨-efault, rfl, h.status, h.holds, h.logLen, h.copiedLen, h.copied⟩
  · have hloop := copyLoop_eq sd c (sd.logLen - sd.copiedLen) 0 (Nat.zero_le _) (by
      intro f hf
      have := hc f hf
      rw [Nat.sub_zero, Nat.zero_add]
      rcases this with rfl | hge
      · right
        have : ¬ 0 < min (sd.logLen - sd.copiedLen) c.size := fun h' => hfault ⟨hf, h'⟩
        omega
      · exact Or.inr hge)
    rw [Nat.sub_zero, Nat.add_zero, h.copiedLen] at hloop
    obtain ⟨l, hl, hlen, hpre⟩ := h.bytes_eq (k := min (sd.logLen - got.length) c.size)
      (by rw [h.logLen]; omega)
    rw [hl] at hloop
    rw [h.copiedLen, hloop]
    simp only [Bool.false_eq_true, if_false]
    by_cases hnil : l.length = 0
    · right; right
      rw [if_pos hnil]
      rw [List.length_eq_zero_iff] at hnil
      subst hnil
      refine ⟨rfl, rfl, ?_⟩
      intro hsize
      rw [List.length_nil, h.logLen] at hlen
      exact h.copied.eq_of_length (by omega)
    · right; left
      rw [if_neg hnil]
      refine ⟨l, rfl, fun he => hnil (by rw [he]; rfl), h.status, h.holds, h.logLen, ?_, hpre⟩
      rw [List.length_append]

end Read

/-! ### A user -/

/-- The device after the reads of a user. -/
def afterReads (sd : StatsDesc) (cs : List ReadCall) : StatsDesc := exec step sd (cs.map .read)

/-- What a call of `read` brings the user. -/
def bytesOf : Except ℤ (List Byte) → List Byte
  | .ok l => l
  | .error _ => []

/-- What the reads of a user bring, one after the other. -/
def obtained (sd : StatsDesc) (cs : List ReadCall) : List Byte :=
  (outs step sd (cs.map .read)).flatMap fun o => bytesOf o.2

/-- The last of the reads, and only that, asks for something and gets nothing. -/
structure ReadsToEnd (sd : StatsDesc) (cs : List ReadCall) (c : ReadCall) : Prop where
  size : 0 < c.size
  last : (gulStatsRead (afterReads sd cs) c).2 = .ok []
  before : ∀ cs₁ c' cs₂, cs = cs₁ ++ c' :: cs₂ → 0 < c'.size →
    (gulStatsRead (afterReads sd cs₁) c').2 ≠ .ok []

/-- One of the reads made a collection, and it is `C`. -/
def Made (sd : StatsDesc) (cs : List ReadCall) (C : List Byte) : Prop :=
  ∃ cs₁ c cs₂, cs = cs₁ ++ c :: cs₂ ∧ (afterReads sd cs₁).status = 0 ∧ C = collection c.shown

/-- What is asked of an operation in the state it finds. A user opens the device when no
collection is under way. A read of size 0 comes when nothing of one is copied, the
buffers can be written, and the providers write within the buffer they are given. -/
def Undisturbed (sd : StatsDesc) : Op → Prop
  | .open => sd.status = 0
  | .read c => (c.size = 0 → sd.status = 0 ∨ sd.copiedLen = 0) ∧ (sd.status = 0 → Fits c.shown 0) ∧
      c.Clean (collect sd c.shown)
  | .write => True
  | .close => True

instance (sd : StatsDesc) : ∀ op, Decidable (Undisturbed sd op)
  | .open => inferInstanceAs (Decidable (_ = _))
  | .read _ => inferInstanceAs (Decidable (_ ∧ _))
  | .write => inferInstanceAs (Decidable True)
  | .close => inferInstanceAs (Decidable True)

theorem afterReads_concat (sd : StatsDesc) (cs : List ReadCall) (c : ReadCall) :
    afterReads sd (cs ++ [c]) = (gulStatsRead (afterReads sd cs) c).1 := by
  unfold afterReads
  rw [List.map_append, exec_append]
  rfl

theorem obtained_cons (sd : StatsDesc) (c : ReadCall) (cs : List ReadCall) :
    obtained sd (c :: cs) = bytesOf (gulStatsRead sd c).2 ++ obtained (gulStatsRead sd c).1 cs := rfl

theorem obtained_concat (cs : List ReadCall) (c : ReadCall) : ∀ sd : StatsDesc,
    obtained sd (cs ++ [c]) = obtained sd cs ++ bytesOf (gulStatsRead (afterReads sd cs) c).2 := by
  induction cs with
  | nil =>
    intro sd
    rw [List.nil_append, obtained_cons]
    exact List.append_nil _
  | cons c' cs ih =>
    intro sd
    rw [List.cons_append, obtained_cons, obtained_cons, ih, List.append_assoc]
    rfl

theorem Made.concat {sd : StatsDesc} {cs : List ReadCall} {C : List Byte} (h : Made sd cs C) (c : ReadCall) :
    Made sd (cs ++ [c]) C := by
  obtain ⟨cs₁, c', cs₂, rfl, hstatus, hC⟩ := h
  exact ⟨cs₁, c', cs₂ ++ [c], by rw [List.append_assoc, List.cons_append], hstatus, hC⟩

section Session

variable {sd : StatsDesc}

/-- Where a user is: at the start of a collection with nothing, or on the way
through one of its own. -/
def OnTheWay (sd : StatsDesc) (cs : List ReadCall) : Prop :=
  ((afterReads sd cs).status = 0 ∧ obtained sd cs = []) ∨
    ∃ C, Made sd cs C ∧ UnderWay (afterReads sd cs) (obtained sd cs) C

/-- With its next read, a user has a collection under way that one of its reads made. -/
theorem OnTheWay.collects {cs : List ReadCall} (h : OnTheWay sd cs) (c : ReadCall)
    (hfits : (afterReads sd cs).status = 0 → Fits c.shown 0) :
    ∃ C, Made sd (cs ++ [c]) C ∧ UnderWay (collect (afterReads sd cs) c.shown) (obtained sd cs) C := by
  rcases h with ⟨hstatus, hgot⟩ | ⟨C, hmade, hway⟩
  · refine ⟨collection c.shown, ⟨cs, c, [], rfl, hstatus, rfl⟩, ?_⟩
    rw [hgot]
    exact underWay_collect hstatus (hfits hstatus)
  · refine ⟨C, hmade.concat c, ?_⟩
    rwa [show collect (afterReads sd cs) c.shown = afterReads sd cs from if_neg hway.status]

/-- One read: the user goes on, or has all of a collection of its own. -/
theorem OnTheWay.read {cs : List ReadCall} (h : OnTheWay sd cs) {c : ReadCall}
    (hg : Undisturbed (afterReads sd cs) (.read c)) :
    (0 < c.size ∧ (gulStatsRead (afterReads sd cs) c).2 = .ok [] → Made sd (cs ++ [c]) (obtained sd (cs ++ [c]))) ∧
      (¬ (0 < c.size ∧ (gulStatsRead (afterReads sd cs) c).2 = .ok []) → OnTheWay sd (cs ++ [c])) := by
  obtain ⟨hzero, hfits, hclean⟩ := hg
  obtain ⟨C, hmade, hway⟩ := h.collects c hfits
  have hread := hway.read c hclean
  rw [← gulStatsRead_collect] at hread
  unfold OnTheWay
  rw [afterReads_concat, obtained_concat]
  rcases hread with ⟨e, he, hrest⟩ | ⟨l, hl, hne, hrest⟩ | ⟨hnil, hstatus, hall⟩
  · rw [he]
    refine ⟨fun h => absurd h.2 (by simp), fun _ => Or.inr ⟨C, hmade, ?_⟩⟩
    rwa [bytesOf, List.append_nil]
  · rw [hl]
    exact ⟨fun h => absurd (Except.ok.inj h.2) hne, fun _ => Or.inr ⟨C, hmade, hrest⟩⟩
  · rw [hnil, bytesOf, List.append_nil]
    refine ⟨fun h => ?_, fun hno => Or.inl ⟨hstatus, ?_⟩⟩
    · rwa [hall h.1]
    · -- a read of size 0 ends a collection of which nothing is copied
      have hsize : c.size = 0 := by
        by_contra hpos
        exact hno ⟨Nat.pos_of_ne_zero hpos, rfl⟩
      rcases h with ⟨-, hgot⟩ | ⟨C', -, hway'⟩
      · exact hgot
      · rcases hzero hsize with h0 | h0
        · exact absurd h0 hway'.status
        · rw [hway'.copiedLen] at h0
          exact List.eq_nil_of_length_eq_zero h0

/-- A user who finds the device at the start is on the way until a read ends it. -/
theorem onTheWay_of_reads (h0 : sd.status = 0) (cs : List ReadCall)
    (hg : ∀ cs₁ c cs₂, cs = cs₁ ++ c :: cs₂ → Undisturbed (afterReads sd cs₁) (.read c))
    (hbefore : ∀ cs₁ c cs₂, cs = cs₁ ++ c :: cs₂ → 0 < c.size →
      (gulStatsRead (afterReads sd cs₁) c).2 ≠ .ok []) : OnTheWay sd cs := by
  induction cs using List.reverseRecOn with
  | nil => exact Or.inl ⟨h0, rfl⟩
  | append_singleton cs c ih =>
    have hcs : OnTheWay sd cs := by
      apply ih
      · rintro cs₁ c' cs₂ rfl
        exact hg cs₁ c' (cs₂ ++ [c]) (by rw [List.append_assoc, List.cons_append])
      · rintro cs₁ c' cs₂ rfl
        exact hbefore cs₁ c' (cs₂ ++ [c]) (by rw [List.append_assoc, List.cons_append])
    exact (hcs.read (hg cs c [] rfl)).2 fun h => hbefore cs c [] rfl h.1 h.2

end Session

/-! ### Successive users -/

/-- What the device is for: who opens it and reads to the end has one collection that its
own reads made, and no provider writes beyond the buffer. -/
structure OneCollection (sd : StatsDesc) (ops : List Op) : Prop where
  complete : ∀ pre cs c post, ops = pre ++ .open :: ((cs ++ [c]).map .read ++ post) →
    ReadsToEnd (exec step sd pre) cs c →
      Made (exec step sd pre) (cs ++ [c]) (obtained (exec step sd pre) (cs ++ [c]))
  within : ∀ pre c post, ops = pre ++ .read c :: post → (exec step sd pre).status = 0 →
    ∀ w ∈ writes c.shown 0, w.1 + w.2 ≤ gulLogBufSize

/-- An operation of a guarded run meets the condition where it arrives. -/
theorem undisturbed_at {sd : StatsDesc} {ops : List Op} (h : Guarded step Undisturbed sd ops) (pre : List Op)
    (op : Op) (post : List Op) (hops : ops = pre ++ op :: post) : Undisturbed (exec step sd pre) op := by
  have hpre : pre ++ [op] <+: ops := by
    rw [hops]
    exact (List.prefix_append_right_inj pre).mpr ⟨post, rfl⟩
  exact (h.initial hpre).last

/-- Users whom nothing disturbs see one complete collection each. -/
theorem oneCollection_of_guarded {sd : StatsDesc} {ops : List Op} (h : Guarded step Undisturbed sd ops) :
    OneCollection sd ops := by
  constructor
  · intro pre cs c post hops hend
    have h0 : (exec step sd pre).status = 0 := undisturbed_at h pre .open _ hops
    have hreads : ∀ cs₁ c' cs₂, cs ++ [c] = cs₁ ++ c' :: cs₂ →
        Undisturbed (afterReads (exec step sd pre) cs₁) (.read c') := by
      intro cs₁ c' cs₂ hcs
      have hsplit : ops = (pre ++ .open :: cs₁.map .read) ++ .read c' :: (cs₂.map .read ++ post) := by
        rw [hops, hcs]
        simp only [List.map_append, List.map_cons, List.append_assoc, List.cons_append]
      have hat := undisturbed_at h _ _ _ hsplit
      rw [exec_append] at hat
      exact hat
    have hway : OnTheWay (exec step sd pre) cs := by
      apply onTheWay_of_reads h0 cs _ hend.before
      rintro cs₁ c' cs₂ rfl
      exact hreads cs₁ c' (cs₂ ++ [c]) (by rw [List.append_assoc, List.cons_append])
    exact (hway.read (hreads cs c [] rfl)).1 ⟨hend.size, hend.last⟩
  · intro pre c post hops h0
    have hc : Undisturbed (exec step sd pre) (.read c) := undisturbed_at h pre _ post hops
    exact (writes_within_iff c.shown (Nat.zero_le _)).mpr (hc.2.1 h0)

/-- **A user whom nothing disturbs sees one complete collection.** The providers that are
called stay within the buffer exactly when the outputs of all of them fit. -/
theorem one_collection (logBuf : Mem) (logLen : ℕ) :
    (∀ ops, Guarded step Undisturbed (gulStatsInit logBuf logLen) ops →
      OneCollection (gulStatsInit logBuf logLen) ops) ∧
    ∀ shown, (∀ w ∈ writes shown 0, w.1 + w.2 ≤ gulLogBufSize) ↔ Fits shown 0 :=
  ⟨fun _ h => oneCollection_of_guarded h, fun shown => writes_within_iff shown (Nat.zero_le _)⟩

/-- A provider that shows two bytes, and a read of some of them. -/
def readTwo (size : ℕ) : ReadCall := ⟨size, [⟨[0x61, 0x62], [0]⟩], none⟩

/-- One user reads byte by byte, the next all at once. -/
theorem one_collection_in_turn : OneCollection (gulStatsInit (fun _ => 0) 0)
    [.open, .read (readTwo 1), .read (readTwo 1), .read (readTwo 1), .close,
      .open, .read (readTwo 0), .read (readTwo 8), .read (readTwo 8), .close] :=
  (one_collection (fun _ => 0) 0).1 _ (by decide +kernel)

/-- A user who stops after the first byte leaves the second to the next one, who gets
only that. And of two providers that write at most 32 KB each the second is called
where the buffer ends. -/
theorem leftover_read : ¬ OneCollection (gulStatsInit (fun _ => 0) 0)
      [.open, .read (readTwo 1), .close, .open, .read (readTwo 8), .read (readTwo 8), .close] ∧
    (gulLogBufSize, 1) ∈ writes [⟨List.replicate gulLogBufSize 0, []⟩, ⟨[0], []⟩] 0 := by
  constructor
  · intro h
    have hend : ReadsToEnd (exec step (gulStatsInit (fun _ => 0) 0) [.open, .read (readTwo 1), .close])
        [readTwo 8] (readTwo 8) := by
      refine ⟨by decide, rfl, ?_⟩
      intro cs₁ c' cs₂ hcs _
      rcases List.cons_eq_append_iff.mp hcs with ⟨rfl, hc⟩ | ⟨cs₁', -, hnil⟩
      · rw [(List.cons.inj hc).1]
        exact fun he => absurd (Except.ok.inj he) (by decide)
      · exact absurd hnil.symm (by simp)
    -- neither of the second user's reads finds the device at the start
    obtain ⟨cs₁, c, cs₂, hcs, hstatus, -⟩ :=
      h.complete [.open, .read (readTwo 1), .close] [readTwo 8] (readTwo 8) [.close] rfl hend
    rcases List.cons_eq_append_iff.mp hcs with ⟨rfl, -⟩ | ⟨cs₁', rfl, hrest⟩
    · exact absurd hstatus (by decide)
    · rcases List.cons_eq_append_iff.mp hrest with ⟨rfl, -⟩ | ⟨cs₁'', -, hnil⟩
      · exact absurd hstatus (by decide)
      · exact absurd hnil.symm (by simp)
  · unfold writes writes
    simp [Shown.written]

end Stats
end La12xx
