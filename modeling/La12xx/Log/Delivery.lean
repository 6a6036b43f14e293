/-
# The logs are delivered

The modem appends bytes to the rings of six cores while the files
`target_log_core_*` of the host are read and written. A read that finds nothing
at the offset looks through the ring, and the modem, other readers and resets
may come between the rounds of its loop: every byte the loop finds goes to the
start of the buffer. `reset_ep_log` resets the ring of core 0 whatever core it is
called for, and after a reset the host looks for the log from the start of the
ring.

For each core an `Account` is kept of what was appended to it, without what its own
resets discarded, and of what its reads returned. Runs that avoid what is said
above (`Sound`) deliver every byte (`log_delivered`).
-/
import La12xx.Lib.Machine
import La12xx.Log.Ring

namespace La12xx
namespace Log

open ByteMem Machine

/-! ### The system -/

/-- A core whose log the driver has a file for. -/
abbrev Core := Fin 6

/-- The logs of the host, where the modem writes next in each ring, and the reads
of each core that are in their loop, by reader. -/
structure Sys (n : ℕ) where
  logs : Core → EpLog
  pos : Core → ℕ
  scans : Core → Fin n → Option Scan

inductive Event (n : ℕ) where
  /-- the modem appends a byte -/
  | append (c : Core) (x : Byte)
  /-- a reader starts to read the file of the core -/
  | read (c : Core) (r : Fin n)
  /-- a reader in the loop goes on -/
  | scan (c : Core) (r : Fin n)
  /-- a number is written to the file; `none` is a text that is no number -/
  | reset (c : Core) (val : Option ℕ)
deriving DecidableEq, Repr

section System

variable {n : ℕ}

/-- `gul_init_ep_logger`, with rings of `len` bytes -/
def initEpLogger (n len : ℕ) : Sys n := ⟨fun _ => ⟨zeros len, 0⟩, fun _ => 0, fun _ _ => none⟩

/-- `reset_ep_log`, which takes `ep_log[0]` -/
def resetEpLog (logs : Core → EpLog) (_coreId : Core) (val : Option ℕ) : Core → EpLog :=
  if val = some 0 then Function.update logs 0 ⟨zeros (logs 0).buf.length, 0⟩ else logs

/-- The log and the place of a read change. -/
def Sys.setRead (s : Sys n) (c : Core) (r : Fin n) (log : EpLog) (scan : Option Scan) : Sys n :=
  ⟨Function.update s.logs c log, s.pos, Function.update s.scans c (Function.update (s.scans c) r scan)⟩

/-- A part of `show_ep_log` is done; a read that returns gives its bytes. -/
def Sys.goOn (s : Sys n) (c : Core) (r : Fin n) (k : EpLog × Show) : Sys n × Option (List Byte) :=
  match k.2 with
  | .scanning scan => (s.setRead c r k.1 (some scan), none)
  | .returns out => (s.setRead c r k.1 none, some out)

/-- One event; what a read returns is the output. -/
def step (pageSize : ℕ) (s : Sys n) : Event n → Sys n × Option (List Byte)
  | .append c x =>
    let log := s.logs c
    (⟨Function.update s.logs c { log with buf := log.buf.set (s.pos c) x },
      Function.update s.pos c ((s.pos c + 1) % log.buf.length), s.scans⟩, none)
  | .read c r =>
    match s.scans c r with
    | none => s.goOn c r (showEpLog pageSize (s.logs c))
    | some _ => (s, none)
  | .scan c r =>
    match s.scans c r with
    | none => (s, none)
    | some scan => s.goOn c r (showEpLogRound pageSize scan (s.logs c))
  | .reset c val => (⟨resetEpLog s.logs c val, s.pos, s.scans⟩, none)

/-! ### What should be delivered -/

/-- The bytes appended to a core without those its own resets discarded, and those its
reads returned. -/
structure Account where
  kept : List Byte
  returned : List Byte
deriving DecidableEq, Repr

/-- An event of the core. Its reset discards what is not returned yet. -/
def Account.step (c : Core) (a : Account) : Event n × Option (List Byte) → Account
  | (.append c' x, _) => if c' = c then { a with kept := a.kept ++ [x] } else a
  | (.read c' _, some out) => if c' = c then { a with returned := a.returned ++ out } else a
  | (.scan c' _, some out) => if c' = c then { a with returned := a.returned ++ out } else a
  | (.reset c' val, _) => if c' = c ∧ val = some 0 then { a with kept := a.kept.take a.returned.length } else a
  | _ => a

/-- The account of a core after a run. -/
def account (c : Core) (os : List (Event n × Option (List Byte))) : Account := os.foldl (Account.step c) ⟨[], []⟩

/-- No read of the core is in its loop. -/
def Quiet (s : Sys n) (c : Core) : Prop := ∀ r, s.scans c r = none

instance (s : Sys n) (c : Core) : Decidable (Quiet s c) := inferInstanceAs (Decidable (∀ _, _ = _))

/-- What the modem keeps to, and when a file does what it is for. The modem
writes no zero byte and not over a byte that is not zero. No append, other read
or reset of the core comes while a read of it is in its loop. A read is sound when
less than a page is unread and the bytes start at the offset or do not wrap
around the end of the ring. A reset is one of core 0, or one that finds nothing
to throw away on its own core and core 0 as it leaves it. -/
def Sound (pageSize : ℕ) (s : Sys n) : Event n → Prop
  | .append c x => Quiet s c ∧ x ≠ 0 ∧ (s.logs c).buf.getD (s.pos c) 0 = 0
  | .read c _ => Quiet s c ∧ (s.logs c).unread < pageSize ∧ ((s.logs c).offset = (s.logs c).first (s.pos c) ∨
    (s.logs c).first (s.pos c) + (s.logs c).unread ≤ (s.logs c).buf.length)
  | .scan _ _ => True
  | .reset c val => val = some 0 → Quiet s c ∧ (c = 0 ∨
    ((s.logs c).unread = 0 ∧ (s.logs 0).unread = 0 ∧ (s.logs 0).offset = 0))

instance (pageSize : ℕ) (s : Sys n) : ∀ e, Decidable (Sound pageSize s e)
  | .append _ _ => inferInstanceAs (Decidable (_ ∧ _))
  | .read _ _ => inferInstanceAs (Decidable (_ ∧ _))
  | .scan _ _ => isTrue trivial
  | .reset _ _ => inferInstanceAs (Decidable (_ → _))

end System

/-! ### One ring -/

/-- A log holds a queue. The offset is where it starts, or still 0 after a
reset. -/
structure Holding (log : EpLog) (pos : ℕ) (q : List Byte) : Prop where
  ring : Ring log.buf pos q
  nonzero : ∀ x ∈ q, x ≠ 0
  offset : log.offset = log.first pos ∨ log.offset = 0

theorem holding_zeros {n pos : ℕ} (h : pos < n) : Holding ⟨zeros n, 0⟩ pos [] :=
  ⟨ring_zeros h, fun _ hx => absurd hx List.not_mem_nil, .inr rfl⟩

section Holding

variable {log : EpLog} {pos : ℕ} {q : List Byte}

theorem Holding.unread_eq (h : Holding log pos q) : log.unread = q.length := h.ring.unread_eq h.nonzero log.offset

theorem Holding.append (h : Holding log pos q) {x : Byte} (hx : x ≠ 0) (hfree : log.buf.getD pos 0 = 0) :
    Holding { log with buf := log.buf.set pos x } ((pos + 1) % log.buf.length) (q ++ [x]) := by
  have hring := h.ring.append h.nonzero hfree x
  have hnz : ∀ y ∈ q ++ [x], y ≠ 0 := by
    intro y hy
    rcases List.mem_append.mp hy with hy | hy
    · exact h.nonzero y hy
    · rwa [List.mem_singleton.mp hy]
  refine ⟨hring, hnz, ?_⟩
  have hlt := h.ring.pos_lt
  have hle := hring.length_le
  have hun : ({ log with buf := log.buf.set pos x } : EpLog).unread = q.length + 1 := by
    rw [hring.unread_eq hnz, List.length_append, List.length_singleton]
  -- the unread bytes start where they did
  have hfirst : ({ log with buf := log.buf.set pos x } : EpLog).first ((pos + 1) % log.buf.length) = log.first pos := by
    rw [EpLog.first, EpLog.first, hun, h.unread_eq, List.length_set]
    rw [List.length_append, List.length_singleton, List.length_set] at hle
    rcases Nat.lt_or_ge (pos + 1) log.buf.length with hin | hout
    · rw [Nat.mod_eq_of_lt hin]
      congr 1
      omega
    · have hend : pos + 1 = log.buf.length := by omega
      have hsum : pos + log.buf.length - q.length = 0 + log.buf.length - (q.length + 1) + log.buf.length := by omega
      rw [hsum, Nat.add_mod_right, hend, Nat.mod_self]
  rw [hfirst]
  exact h.offset

/-- Where a read of a log that holds `q` stands: it has emptied the ring, or will if nothing comes
in between, and returns `q`. -/
def Delivers (log : EpLog) (pos : ℕ) (q : List Byte) : Show → Prop
  | .scanning scan =>
    Holding (scanLoop (log.buf.length - scan.i) scan.i log scan.out).1 pos [] ∧
      (scanLoop (log.buf.length - scan.i) scan.i log scan.out).2 = q
  | .returns out => Holding log pos [] ∧ out = q

/-- Less than a page is returned as it is. -/
theorem delivers_showEnd {pageSize : ℕ} (h : Holding log pos []) (hq : q.length < pageSize) :
    Delivers log pos q (showEnd pageSize q) := by
  rw [showEnd, if_neg (not_le.mpr hq)]
  exact ⟨h, rfl⟩

/-- A sound read, whole. -/
theorem Holding.read (h : Holding log pos q)
    (hplace : log.offset = log.first pos ∨ log.first pos + log.unread ≤ log.buf.length) :
    Holding (readEpLog log).1 pos [] ∧ (readEpLog log).2 = q := by
  have hoff : log.offset = log.first pos ∨ log.offset = 0 ∧ log.first pos + log.unread ≤ log.buf.length := by
    rcases h.offset with ho | ho
    · exact .inl ho
    · rcases hplace with hp | hp
      · exact .inl hp
      · exact .inr ⟨ho, hp⟩
  rw [h.ring.read h.nonzero hoff]
  have hlt := h.ring.pos_lt
  refine ⟨⟨ring_zeros hlt, fun _ hx => absurd hx List.not_mem_nil, ?_⟩, rfl⟩
  have hfirst : ∀ o, (⟨zeros log.buf.length, o⟩ : EpLog).first pos = pos := by
    intro o
    rw [EpLog.first, EpLog.unread, filter_zeros, List.length_replicate, List.length_nil, Nat.sub_zero,
      Nat.add_mod_right, Nat.mod_eq_of_lt hlt]
  simp only [hfirst]
  split
  · next hq =>
    subst hq
    rcases h.offset with ho | ho
    · left
      rw [ho, EpLog.first, h.unread_eq, List.length_nil, Nat.sub_zero, Nat.add_mod_right, Nat.mod_eq_of_lt hlt]
    · exact .inr ho
  · exact .inl rfl

/-- It starts with a collection, and goes on in the loop if that finds nothing. -/
theorem Holding.showEpLog {pageSize : ℕ} (h : Holding log pos q) (hpage : log.unread < pageSize)
    (hplace : log.offset = log.first pos ∨ log.first pos + log.unread ≤ log.buf.length) :
    Delivers (showEpLog pageSize log).1 pos q (showEpLog pageSize log).2 := by
  obtain ⟨hend, hout⟩ := h.read hplace
  rw [h.unread_eq] at hpage
  by_cases hc : (collectEpLog log).2 = []
  · have hsame := collectEpLog_of_nil hc
    simp only [readEpLog, hsame, if_true] at hend hout
    simp only [Log.showEpLog, hsame, if_true]
    exact ⟨hend, hout⟩
  · simp only [readEpLog, hc, if_false] at hend hout
    simp only [Log.showEpLog, hc, if_false]
    rw [hout]
    exact delivers_showEnd hend hpage

/-- A round of the loop is the first of those left. -/
theorem Delivers.round {pageSize : ℕ} {scan : Scan} (h : Delivers log pos q (.scanning scan)) (hpage : q.length < pageSize) :
    Delivers (showEpLogRound pageSize scan log).1 pos q (showEpLogRound pageSize scan log).2 := by
  obtain ⟨hend, hout⟩ := h
  by_cases hi : scan.i < log.buf.length
  · have hleft : log.buf.length - scan.i = (log.buf.length - (scan.i + 1)) + 1 := by omega
    rw [hleft, scanLoop_succ] at hend hout
    simp only [showEpLogRound, hi, if_true, Delivers, scanRound_length]
    exact ⟨hend, hout⟩
  · rw [Nat.sub_eq_zero_of_le (not_lt.mp hi), scanLoop] at hend hout
    simp only [showEpLogRound, hi, if_false]
    have hq : scan.out = q := hout
    rw [hq]
    exact delivers_showEnd hend hpage

end Holding

/-! ### Every run -/

section Runs

variable {n pageSize : ℕ} {s : Sys n} {c : Core} {a : Account}

/-- The log of a core and its account: what is kept and not returned lies in the ring, or a read
in the loop will return it. -/
inductive Follows (pageSize : ℕ) (s : Sys n) (c : Core) (a : Account) : Prop
  | quiet {q : List Byte} (hquiet : Quiet s c) (hq : Holding (s.logs c) (s.pos c) q) (hkept : a.returned ++ q = a.kept)
  | reading {r : Fin n} {scan : Scan} {q : List Byte} (hscan : s.scans c r = some scan)
      (honly : ∀ r', r' ≠ r → s.scans c r' = none) (hpage : q.length < pageSize)
      (hq : Delivers (s.logs c) (s.pos c) q (.scanning scan)) (hkept : a.returned ++ q = a.kept)

/-- No log is lost on a core that no read is at. -/
theorem Follows.holding (h : Follows pageSize s c a) (hquiet : Quiet s c) :
    ∃ q, Holding (s.logs c) (s.pos c) q ∧ a.returned ++ q = a.kept := by
  cases h with
  | quiet _ hq hkept => exact ⟨_, hq, hkept⟩
  | reading hscan _ _ _ _ => exact absurd ((hquiet _).symm.trans hscan) nofun

/-- What an event of another core leaves as it is. -/
theorem Follows.frame {t : Sys n} (h : Follows pageSize s c a) (hlog : t.logs c = s.logs c) (hpos : t.pos c = s.pos c)
    (hscans : t.scans c = s.scans c) : Follows pageSize t c a := by
  cases h with
  | quiet hquiet hq hkept =>
    refine .quiet (fun r => ?_) (q := _) ?_ hkept
    · rw [hscans]
      exact hquiet r
    · rw [hlog, hpos]
      exact hq
  | reading hscan honly hpage hq hkept =>
    refine .reading (by rw [hscans]; exact hscan) (fun r' hr' => ?_) hpage ?_ hkept
    · rw [hscans]
      exact honly r' hr'
    · rw [hlog, hpos]
      exact hq

/-- A read that goes on as it should is in the loop, or has returned everything. -/
theorem follows_goOn {r : Fin n} {q : List Byte} {k : EpLog × Show} (honly : ∀ r', r' ≠ r → s.scans c r' = none)
    (hpage : q.length < pageSize) (hk : Delivers k.1 (s.pos c) q k.2) (hkept : a.returned ++ q = a.kept) :
    (∀ out, (s.goOn c r k).2 = some out → a.returned ++ out = a.kept) ∧
      Follows pageSize (s.goOn c r k).1 c
        (match (s.goOn c r k).2 with
          | some out => { a with returned := a.returned ++ out }
          | none => a) := by
  obtain ⟨log, what⟩ := k
  cases what with
  | scanning scan =>
    refine ⟨nofun, @Follows.reading _ _ _ _ _ r scan q ?_ (fun r' hr' => ?_) hpage ?_ hkept⟩
    · simp [Sys.goOn, Sys.setRead]
    · simp only [Sys.goOn, Sys.setRead, Function.update_self, Function.update_of_ne hr']
      exact honly r' hr'
    · simp only [Sys.goOn, Sys.setRead, Function.update_self]
      exact hk
  | returns out =>
    obtain ⟨hend, rfl⟩ := hk
    refine ⟨fun out' hout => by rw [← Option.some.inj hout]; exact hkept, .quiet (q := []) (fun r' => ?_) ?_ ?_⟩
    · by_cases hr' : r' = r
      · simp [Sys.goOn, Sys.setRead, hr']
      · simp only [Sys.goOn, Sys.setRead, Function.update_self, Function.update_of_ne hr']
        exact honly r' hr'
    · simp only [Sys.goOn, Sys.setRead, Function.update_self]
      exact hend
    · simpa [Sys.goOn] using hkept

/-- A read of another core is not of this one. -/
theorem goOn_other {c' : Core} (hc : c' ≠ c) (r : Fin n) (k : EpLog × Show) :
    (s.goOn c' r k).1.logs c = s.logs c ∧ (s.goOn c' r k).1.pos c = s.pos c ∧
      (s.goOn c' r k).1.scans c = s.scans c := by
  unfold Sys.goOn
  split <;> simp [Sys.setRead, Function.update_of_ne (Ne.symm hc)]

/-- A sound reset touches no other core. -/
theorem resetEpLog_other {c' : Core} {val : Option ℕ} (hs : Sound pageSize s (.reset c' val)) (hc : c ≠ c') :
    resetEpLog s.logs c' val c = s.logs c := by
  unfold resetEpLog
  split
  · next hv =>
    by_cases h0 : c = 0
    · subst h0
      obtain ⟨-, hun, hoff⟩ := (hs hv).2.resolve_left (Ne.symm hc)
      rw [Function.update_self, ← buf_eq_of_unread hun, ← hoff]
    · rw [Function.update_of_ne h0]
  · rfl

/-- Nothing is left of a log without unread bytes. -/
theorem Holding.eq_nil {log : EpLog} {pos : ℕ} {q : List Byte} (h : Holding log pos q) (hun : log.unread = 0) : q = [] :=
  List.length_eq_zero_iff.mp (h.unread_eq.symm.trans hun)

/-- A sound reset of the core itself leaves an empty ring, and discards what was in it. -/
theorem follows_reset {val : Option ℕ} (h : Follows pageSize s c a) (hs : Sound pageSize s (.reset c val)) :
    Follows pageSize (step pageSize s (.reset c val)).1 c (a.step c ((.reset c val : Event n), none)) := by
  by_cases hv : val = some 0
  · subst hv
    obtain ⟨hquiet, hor⟩ := hs rfl
    obtain ⟨q, hq, hkept⟩ := h.holding hquiet
    have htake : a.returned ++ [] = a.kept.take a.returned.length := by
      rw [← hkept, List.take_left, List.append_nil]
    simp only [step, Account.step, and_self, if_true]
    refine .quiet (q := []) hquiet ?_ htake
    by_cases h0 : c = 0
    · subst h0
      show Holding (resetEpLog s.logs 0 (some 0) 0) (s.pos 0) []
      rw [resetEpLog, if_pos rfl, Function.update_self]
      exact holding_zeros hq.ring.pos_lt
    · obtain ⟨hun, -, -⟩ := hor.resolve_left h0
      show Holding (resetEpLog s.logs c (some 0) c) (s.pos c) []
      rw [resetEpLog, if_pos rfl, Function.update_of_ne h0]
      exact hq.eq_nil hun ▸ hq
  · have hsame : (step pageSize s (.reset c val)).1 = s := by simp [step, resetEpLog, hv]
    rw [hsame]
    simpa [Account.step, hv] using h

/-- The core whose ring or file an event is at. -/
def Event.core : Event n → Core
  | .append c _ | .read c _ | .scan c _ | .reset c _ => c

theorem Account.step_other {e : Event n} (hc : e.core ≠ c) (out : Option (List Byte)) : a.step c (e, out) = a := by
  cases e <;> cases out <;> simp_all [Account.step, Event.core]

/-- A sound event of another core. -/
theorem follows_other (h : Follows pageSize s c a) {e : Event n} (hs : Sound pageSize s e) (hc : e.core ≠ c) :
    Follows pageSize (step pageSize s e).1 c a := by
  cases e with
  | append c' x =>
    have hne : c ≠ c' := Ne.symm hc
    refine h.frame ?_ ?_ rfl <;> simp [step, Function.update_of_ne hne]
  | read c' r =>
    simp only [step]
    split
    · obtain ⟨hlog, hpos, hscans⟩ := goOn_other (s := s) hc r (showEpLog pageSize (s.logs c'))
      exact h.frame hlog hpos hscans
    · exact h
  | scan c' r =>
    simp only [step]
    split
    · exact h
    · next scan _ =>
      obtain ⟨hlog, hpos, hscans⟩ := goOn_other (s := s) hc r (showEpLogRound pageSize scan (s.logs c'))
      exact h.frame hlog hpos hscans
  | reset c' val => exact h.frame (resetEpLog_other hs (Ne.symm hc)) rfl rfl

/-- An event of a read of the core, as far as its account is concerned. -/
theorem account_read (r : Fin n) (out : Option (List Byte)) :
    a.step c (Event.read c r, out) = (match out with
      | some out => { a with returned := a.returned ++ out }
      | none => a) ∧
    a.step c (Event.scan c r, out) = (match out with
      | some out => { a with returned := a.returned ++ out }
      | none => a) := by
  cases out <;> simp [Account.step]

/-- One sound event: the account is followed, and a read of the core that returns has returned
everything. -/
theorem follows_step (h : Follows pageSize s c a) {e : Event n} (hs : Sound pageSize s e) :
    Follows pageSize (step pageSize s e).1 c (a.step c (e, (step pageSize s e).2)) ∧
      ∀ r out, e = .read c r ∨ e = .scan c r → (step pageSize s e).2 = some out → a.returned ++ out = a.kept := by
  by_cases hc : e.core = c
  · cases e with
    | append c' x =>
      obtain rfl : c' = c := hc
      obtain ⟨hquiet, hx, hfree⟩ := hs
      obtain ⟨q, hq, hkept⟩ := h.holding hquiet
      refine ⟨.quiet (q := q ++ [x]) hquiet ?_ ?_, fun r out he => he.elim nofun nofun⟩
      · simp only [step, Function.update_self]
        exact hq.append hx hfree
      · simp [Account.step, ← hkept]
    | read c' r =>
      obtain rfl : c' = c := hc
      obtain ⟨hquiet, hpage, hplace⟩ := hs
      obtain ⟨q, hq, hkept⟩ := h.holding hquiet
      have hpage' : q.length < pageSize := by rwa [hq.unread_eq] at hpage
      obtain ⟨hall, hnext⟩ := follows_goOn (r := r) (fun r' _ => hquiet r') hpage' (hq.showEpLog hpage hplace) hkept
      have hstep : step pageSize s (.read c' r) = s.goOn c' r (showEpLog pageSize (s.logs c')) := by
        simp only [step, hquiet r]
      rw [hstep, (account_read r _).1]
      exact ⟨hnext, fun _ out _ => hall out⟩
    | scan c' r =>
      obtain rfl : c' = c := hc
      cases hscan : s.scans c' r with
      | none =>
        have hstep : step pageSize s (.scan c' r) = (s, none) := by simp only [step, hscan]
        rw [hstep]
        exact ⟨h, fun _ _ _ => nofun⟩
      | some scan =>
        cases h with
        | quiet hquiet _ _ => exact absurd ((hquiet r).symm.trans hscan) nofun
        | @reading r₀ scan₀ q hscan₀ honly hpage hq hkept =>
          -- the reader is the one that is in the loop
          obtain rfl : r = r₀ := by
            by_contra hne
            exact absurd ((honly r hne).symm.trans hscan) nofun
          obtain rfl : scan₀ = scan := Option.some.inj (hscan₀.symm.trans hscan)
          obtain ⟨hall, hnext⟩ := follows_goOn (r := r) honly hpage (hq.round hpage) hkept
          have hstep : step pageSize s (.scan c' r) = s.goOn c' r (showEpLogRound pageSize scan₀ (s.logs c')) := by
            simp only [step, hscan]
          rw [hstep, (account_read r _).2]
          exact ⟨hnext, fun _ out _ => hall out⟩
    | reset c' val =>
      obtain rfl : c' = c := hc
      exact ⟨follows_reset h hs, fun r out he => he.elim nofun nofun⟩
  · rw [Account.step_other hc]
    refine ⟨follows_other h hs hc, fun r out he => absurd ?_ hc⟩
    rcases he with rfl | rfl <;> rfl

theorem follows_run (es : List (Event n)) : ∀ {s : Sys n} {a : Account}, Follows pageSize s c a →
    Guarded (step pageSize) (Sound pageSize) s es →
    Follows pageSize (exec (step pageSize) s es) c ((outs (step pageSize) s es).foldl (Account.step c) a) := by
  induction es with
  | nil => exact fun h _ => h
  | cons e es ih => exact fun h hes => ih (follows_step h hes.1).1 hes.2

/-- **The logs are delivered.** In every run of appends, reads and resets of all
cores whose events are sound: what the reads of a core returned, followed by
what its ring still holds when no read is at it, is what was appended to it
without what its own resets discarded, in order; a read that returns leaves
nothing out; and a sound reset leaves every other core as it is. -/
theorem log_delivered {len : ℕ} (hlen : 0 < len) (es : List (Event n))
    (hes : Guarded (step pageSize) (Sound pageSize) (initEpLogger n len) es) (c : Core) :
    let s := exec (step pageSize) (initEpLogger n len) es
    let a := account c (outs (step pageSize) (initEpLogger n len) es)
    (∃ unread, a.returned ++ unread = a.kept ∧ (Quiet s c → Ring (s.logs c).buf (s.pos c) unread)) ∧
    (∀ e r out, e = .read c r ∨ e = .scan c r → Sound pageSize s e → (step pageSize s e).2 = some out →
      a.returned ++ out = a.kept) ∧
    ∀ val, Sound pageSize s (.reset c val) → ∀ d, d ≠ c → (step pageSize s (.reset c val)).1.logs d = s.logs d := by
  intro s a
  have hinit : Follows pageSize (initEpLogger n len) c ⟨[], []⟩ := .quiet (q := []) (fun _ => rfl) (holding_zeros hlen) rfl
  have hend : Follows pageSize s c a := follows_run es hinit hes
  refine ⟨?_, fun e r out he hs => (follows_step hend hs).2 r out he, fun val hs d hd => resetEpLog_other hs hd⟩
  cases hend with
  | quiet hquiet hq hkept => exact ⟨_, hkept, fun _ => hq.ring⟩
  | reading hscan _ _ _ hkept => exact ⟨_, hkept, fun hquiet => absurd ((hquiet _).symm.trans hscan) nofun⟩

end Runs

/-- Two cores log in rings of four bytes; core 0 is read around the end of its
ring, reset, and logs again, and its last read looks through the ring. -/
theorem log_delivered_twoCores :
    let es : List (Event 1) := [.append 0 0x41, .append 0 0x42, .append 1 0x43, .read 0 0, .append 0 0x44, .append 0 0x45,
      .append 0 0x46, .read 0 0, .append 0 0x47, .reset 0 (some 0), .append 0 0x48, .read 0 0, .scan 0 0, .append 1 0x49,
      .scan 0 0, .scan 0 0, .scan 0 0]
    let s := exec (step 4096) (initEpLogger 1 4) es
    (account 0 (outs (step 4096) (initEpLogger 1 4) es)).returned ++ [0x48] = [0x41, 0x42, 0x44, 0x45, 0x46, 0x48] ∧
    ∃ unread, (account 1 (outs (step 4096) (initEpLogger 1 4) es)).returned ++ unread = [0x43, 0x49] ∧
      (Quiet s 1 → Ring (s.logs 1).buf (s.pos 1) unread) := by
  intro es
  have hes : Guarded (step 4096) (Sound 4096) (initEpLogger 1 4) es := by decide +kernel
  have hkept : (account 0 (outs (step 4096) (initEpLogger 1 4) es)).kept = [0x41, 0x42, 0x44, 0x45, 0x46, 0x48] := by
    decide +kernel
  have hlast := (log_delivered (by decide) es hes 0).2.1 (.scan 0 0) 0 [0x48] (.inr rfl) trivial (by decide +kernel)
  exact ⟨hlast.trans hkept, (log_delivered (by decide) es hes 1).1⟩

/-- `GUL_CORE_LOG_BUF_SIZE` -/
def coreLogBufSize : ℕ := 4 * 1024

/-- A reset of core 1 loses what core 0 has logged, in the rings the driver
has. In a ring of four bytes, two bytes that lie around its end after a
reset are read in the wrong order; and a byte is lost that a read has collected
when another one is appended before its next round. -/
theorem reset_loses_log :
    let es : List (Event 1) := [.append 0 0x41, .reset 1 (some 0)]
    let s := exec (step 4096) (initEpLogger 1 coreLogBufSize) es
    let es' : List (Event 1) := [.append 0 0x41, .append 0 0x42, .append 0 0x43, .read 0 0, .reset 0 (some 0),
      .append 0 0x44, .append 0 0x45, .read 0 0, .read 0 0] ++ List.replicate 5 (.scan 0 0)
    let es'' : List (Event 1) := [.read 0 0, .append 0 0x41, .scan 0 0, .append 0 0x42, .scan 0 0, .scan 0 0, .scan 0 0,
      .scan 0 0]
    (account 0 (outs (step 4096) (initEpLogger 1 coreLogBufSize) es) = ⟨[0x41], []⟩ ∧
      (s.logs 0).buf = zeros coreLogBufSize ∧ Quiet s 0) ∧
    account 0 (outs (step 4096) (initEpLogger 1 4) es') =
      ⟨[0x41, 0x42, 0x43, 0x44, 0x45], [0x41, 0x42, 0x43, 0x45, 0x44]⟩ ∧
    account 0 (outs (step 4096) (initEpLogger 1 4) es'') = ⟨[0x41, 0x42], [0x42]⟩ := by
  intro es s es' es''
  refine ⟨⟨rfl, ?_, fun _ => rfl⟩, by decide +kernel, by decide +kernel⟩
  simp [s, es, exec, step, initEpLogger, resetEpLog]

end Log
end La12xx
