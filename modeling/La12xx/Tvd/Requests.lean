/-
# Requests to the modem and their answers

Three calls ask the modem for a value (`mtd_get_temp`, `rtd_get_temp`,
`mtd_get_power_info`). Each has a word in the shared memory that says whether its value
is asked for, and an interrupt of its own at the modem; the answers share one interrupt
and one queue at the host, which wakes every call that waits. The first word also serves
`mtd_update_hysteresis`, which writes over it whatever is there;
`mtd_update_threshold` only raises the first interrupt.

Each look at a word, each write and each interrupt is a step of its own. Requests are
numbered as they are posted in a word, and the modem's answer carries the number of its
request: a call that succeeds should return the answer to a request that was pending
when it looked, or posted later, and no request should be written over before the modem
has taken it. That is so in the runs in which calls of another kind, and hysteresis
updates, keep apart and no wait is ended by a signal (`answers_agree`).
-/
import La12xx.Tvd.Driver

namespace La12xx
namespace Tvd

open Machine

/-- What is asked for: the temperature of the modem, that of the RF card, the power. -/
inductive Kind where
  | mtd
  | rtd
  | power
deriving DecidableEq, Repr

instance : Fintype Kind := ⟨{.mtd, .rtd, .power}, fun k => by cases k <;> simp⟩

/-- What the modem is doing with request `n` of a word. -/
inductive Job where
  | idle
  | taken (r : Word) (n : ℕ)
  | written (r : Word) (n : ℕ)
  | cleared (r : Word) (n : ℕ)
deriving DecidableEq, Repr

/-- A word of the shared memory: whether the request in it is still to be taken, the
interrupts at the modem that it has not served, what the modem does, how many requests
were posted, and the number of the request its last answer was written for. -/
structure Lane where
  word : Word
  untaken : Bool
  bells : ℕ
  job : Job
  posted : ℕ
  wrote : ℕ
deriving DecidableEq, Repr

namespace Lane

def post (w : Word) (l : Lane) : Lane := { l with word := w, untaken := true, posted := l.posted + 1 }

/-- `raise_modem_msi` -/
def ring (l : Lane) : Lane := { l with bells := l.bells + 1 }

/-- The modem serves an interrupt: it takes the request it finds. -/
def take (l : Lane) : Lane :=
  if 0 < l.bells ∧ l.job = .idle then
    if l.word = .clear then { l with bells := l.bells - 1 }
    else { l with bells := l.bells - 1, job := .taken l.word l.posted, untaken := false }
  else l

/-- It writes its answer; a new hysteresis has none. -/
def write (l : Lane) : Lane :=
  match l.job with
  | .taken .requested n => { l with job := .written .requested n, wrote := n }
  | .taken r n => { l with job := .written r n }
  | _ => l

/-- It clears the word. -/
def clear (l : Lane) : Lane :=
  match l.job with
  | .written r n => { l with job := .cleared r n, word := .clear, untaken := false }
  | _ => l

/-- It has raised the interrupt of the host. -/
def done (l : Lane) : Lane := { l with job := .idle }

end Lane

/-- Where a call is: what asks for a value looks at its word, posts a request if there
is none, and waits. -/
inductive Pc where
  | idle
  | post (k : Kind)
  | ring (k : Kind)
  | enter (k : Kind)
  | queued (k : Kind)
  | asleep (k : Kind)
  | woken (k : Kind)
  | postHysteresis
  | ringUpdate
deriving DecidableEq, Repr

/-- A caller, and the first request that counts as pending during its call. -/
structure Caller where
  pc : Pc
  since : ℕ
deriving DecidableEq, Repr

def Pc.wake : Pc → Pc
  | .queued k => .woken k
  | .asleep k => .woken k
  | pc => pc

def Caller.wake (c : Caller) : Caller := { c with pc := c.pc.wake }

/-- The words, and the callers. -/
structure Thermal (K : Type) where
  lane : Kind → Lane
  calls : K → Caller

/-- What a step shows: a request is posted, and one that was not taken is lost or not; a call
returns the answer to request `value`; a call times out. -/
inductive Shown where
  | nothing
  | posted (lost : Bool)
  | got (value since : ℕ)
  | timedOut
deriving DecidableEq, Repr

/-- A call begins or takes its next step; its wait ends by a signal or a time-out; the
modem takes a request, writes the answer, clears the word, raises the interrupt. A call
that is woken too late reports a time-out. -/
inductive Turn (K : Type) where
  | get (c : K) (k : Kind)
  | hysteresis (c : K)
  | threshold (c : K)
  | run (c : K) (late : Bool)
  | signal (c : K)
  | timeout (c : K)
  | take (k : Kind)
  | write (k : Kind)
  | clear (k : Kind)
  | raise (k : Kind)

namespace Thermal

section Machine

variable {K : Type} [DecidableEq K]

def setLane (s : Thermal K) (k : Kind) (l : Lane) : Thermal K := { s with lane := Function.update s.lane k l }

def setPc (s : Thermal K) (c : K) (pc : Pc) : Thermal K :=
  { s with calls := Function.update s.calls c { s.calls c with pc := pc } }

/-- A call looks at its word. -/
def look (s : Thermal K) (c : K) (k : Kind) : Thermal K :=
  { s with
    calls := Function.update s.calls c
      (if (s.lane k).word = .requested then ⟨.enter k, (s.lane k).posted⟩ else ⟨.post k, (s.lane k).posted + 1⟩) }

/-- A request that is not taken is written over. -/
def loses (s : Thermal K) (k : Kind) : Bool := (s.lane k).untaken

/-- The next step of a call. -/
def run (s : Thermal K) (c : K) (late : Bool) : Thermal K × Shown :=
  match (s.calls c).pc with
  | .idle => (s, .nothing)
  | .post k => ((s.setLane k ((s.lane k).post .requested)).setPc c (.ring k), .posted (s.loses k))
  | .ring k => ((s.setLane k (s.lane k).ring).setPc c (.enter k), .nothing)
  | .enter k => (s.setPc c (.queued k), .nothing)
  | .queued k => (s.setPc c (.asleep k), .nothing)
  | .asleep _ => (s, .nothing)
  | .woken k => (s.setPc c .idle, if late then .timedOut else .got (s.lane k).wrote (s.calls c).since)
  | .postHysteresis =>
    ((s.setLane .mtd ((s.lane .mtd).post .hysteresis)).setPc c .ringUpdate, .posted (s.loses .mtd))
  | .ringUpdate => ((s.setLane .mtd (s.lane .mtd).ring).setPc c .idle, .nothing)

/-- A call ends its wait without an answer. -/
def wakeOne (s : Thermal K) (c : K) : Thermal K := s.setPc c (s.calls c).pc.wake

def step (s : Thermal K) : Turn K → Thermal K × Shown
  | .get c k => (if (s.calls c).pc = .idle then s.look c k else s, .nothing)
  | .hysteresis c => (if (s.calls c).pc = .idle then s.setPc c .postHysteresis else s, .nothing)
  | .threshold c => (if (s.calls c).pc = .idle then s.setPc c .ringUpdate else s, .nothing)
  | .run c late => s.run c late
  | .signal c => (s.wakeOne c, .nothing)
  | .timeout c =>
    match (s.calls c).pc with
    | .asleep _ => (s.setPc c .idle, .timedOut)
    | _ => (s, .nothing)
  | .take k => (s.setLane k (s.lane k).take, .nothing)
  | .write k => (s.setLane k (s.lane k).write, .nothing)
  | .clear k => (s.setLane k (s.lane k).clear, .nothing)
  | .raise k =>
    match (s.lane k).job with
    | .cleared _ _ => ({ s.setLane k (s.lane k).done with calls := fun c => (s.calls c).wake }, .nothing)
    | _ => (s, .nothing)

end Machine

end Thermal

/-! ### Orderly runs -/

/-- The kind of value a call is about to be woken for. -/
def Pc.waits : Pc → Option Kind
  | .post k => some k
  | .ring k => some k
  | .enter k => some k
  | .queued k => some k
  | .asleep k => some k
  | _ => none

/-- Nothing is asked for. -/
def Lane.Free (l : Lane) : Prop := l.word = .clear ∧ l.job = .idle

instance (l : Lane) : Decidable l.Free := inferInstanceAs (Decidable (_ ∧ _))

/-- What the modem is at work on. -/
def Job.request : Job → Word
  | .idle => .clear
  | .taken r _ => r
  | .written r _ => r
  | .cleared r _ => r

/-- Nothing but a value is asked for. -/
def Lane.Value (l : Lane) : Prop := l.word ≠ .hysteresis ∧ l.job.request ≠ .hysteresis

instance (l : Lane) : Decidable l.Value := inferInstanceAs (Decidable (_ ∧ _))

/-- The modem is between clearing the word and its interrupt. -/
def Job.isCleared : Job → Bool
  | .cleared _ _ => true
  | _ => false

/-- A call is about to write a request. -/
def Pc.posts : Pc → Bool
  | .post _ => true
  | .postHysteresis => true
  | _ => false

namespace Thermal

variable {K : Type}

/-- Calls for a value begin when no call of another kind waits or has left a request
with the modem, no call is about to write a request, and the modem is not between
clearing the word and its interrupt; hysteresis updates begin when nobody waits and
nothing is asked for; no wait is ended by a signal. -/
def Orderly (s : Thermal K) : Turn K → Prop
  | .get _ k =>
    (∀ d, (s.calls d).pc.posts = false ∧ ∀ k' ∈ (s.calls d).pc.waits, k' = k) ∧
      (∀ k', k' ≠ k → (s.lane k').Free) ∧ (s.lane k).Value ∧ (s.lane k).job.isCleared = false
  | .hysteresis _ => (∀ d, (s.calls d).pc.posts = false ∧ (s.calls d).pc.waits = none) ∧ ∀ k, (s.lane k).Free
  | .signal c => (s.calls c).pc.wake = (s.calls c).pc
  | _ => True

end Thermal

/-! ### A word -/

/-- The numbers and flags of a word. -/
structure Lane.Inv (l : Lane) : Prop where
  taken : ∀ r n, l.job = .taken r n → l.word = r ∧ r ≠ .clear ∧ n = l.posted ∧ l.untaken = false
  written : ∀ r n, l.job = .written r n →
    l.word = r ∧ r ≠ .clear ∧ n = l.posted ∧ l.untaken = false ∧ (r = .requested → l.wrote = n)
  cleared : ∀ r n, l.job = .cleared r n → l.word = .clear ∧ r ≠ .clear ∧ n = l.posted ∧ (r = .requested → l.wrote = n)
  untaken : l.word = .clear → l.untaken = false
  le : l.wrote ≤ l.posted

/-- What a step that posts nothing does to a word. -/
structure Lane.Calm (l l' : Lane) : Prop where
  inv : l'.Inv
  free : l.Free → l'.Free
  value : l.Value → l'.Value
  posted : l'.posted = l.posted
  wrote : l.wrote ≤ l'.wrote

namespace Lane.Inv

variable {l : Lane}

theorem calm (h : l.Inv) : l.Calm l := ⟨h, id, id, rfl, le_rfl⟩

theorem ring (h : l.Inv) : l.Calm l.ring := ⟨⟨h.taken, h.written, h.cleared, h.untaken, h.le⟩, id, id, rfl, le_rfl⟩

theorem take (h : l.Inv) : l.Calm l.take := by
  unfold Lane.take
  split
  · next hb =>
    split
    · exact ⟨⟨h.taken, h.written, h.cleared, h.untaken, h.le⟩, id, id, rfl, le_rfl⟩
    · next hw =>
      refine ⟨⟨?_, (fun _ _ hj => by cases hj), (fun _ _ hj => by cases hj), fun hc => absurd hc hw, h.le⟩,
        fun hf => absurd hf.1 hw, fun hv => ⟨hv.1, hv.1⟩, rfl, le_rfl⟩
      intro r n hj
      obtain ⟨rfl, rfl⟩ := Job.taken.inj hj
      exact ⟨rfl, hw, rfl, rfl⟩
  · exact h.calm

theorem write (h : l.Inv) : l.Calm l.write := by
  unfold Lane.write
  split
  · next n hj =>
    obtain ⟨hword, hne, hn, hunt⟩ := h.taken _ _ hj
    have hset : l.word ≠ .clear := fun hc => hne (hword.symm.trans hc)
    refine ⟨⟨(fun _ _ hj' => by cases hj'), ?_, (fun _ _ hj' => by cases hj'), fun hc => absurd hc hset, hn.le⟩,
      fun hf => absurd hf.1 hset, fun hv => ⟨hv.1, Word.noConfusion⟩, rfl, hn ▸ h.le⟩
    intro r m hj'
    obtain ⟨rfl, rfl⟩ := Job.written.inj hj'
    exact ⟨hword, hne, hn, hunt, fun _ => rfl⟩
  · next r n hr hj =>
    obtain ⟨hword, hne, hn, hunt⟩ := h.taken _ _ hj
    refine ⟨⟨(fun _ _ hj' => by cases hj'), ?_, (fun _ _ hj' => by cases hj'), h.untaken, h.le⟩,
      fun hf => absurd (hword.symm.trans hf.1) hne, fun hv => ⟨hv.1, ?_⟩, rfl, le_rfl⟩
    · intro r' m hj'
      obtain ⟨rfl, rfl⟩ := Job.written.inj hj'
      exact ⟨hword, hne, hn, hunt, fun hreq => absurd hreq hr⟩
    · exact hword ▸ hv.1
  · exact h.calm

theorem clear (h : l.Inv) : l.Calm l.clear := by
  unfold Lane.clear
  split
  · next r n hj =>
    obtain ⟨hword, hne, hn, hunt, hwrote⟩ := h.written _ _ hj
    refine ⟨⟨(fun _ _ hj' => by cases hj'), (fun _ _ hj' => by cases hj'), ?_, fun _ => rfl, h.le⟩,
      fun hf => absurd (hword.symm.trans hf.1) hne, fun hv => ⟨Word.noConfusion, ?_⟩, rfl, le_rfl⟩
    · intro r' m hj'
      obtain ⟨rfl, rfl⟩ := Job.cleared.inj hj'
      exact ⟨rfl, hne, hn, hwrote⟩
    · exact hword ▸ hv.1
  · exact h.calm

theorem done (h : l.Inv) : l.Calm l.done :=
  ⟨⟨(fun _ _ hj => by cases hj), (fun _ _ hj => by cases hj), (fun _ _ hj => by cases hj), h.untaken, h.le⟩,
    fun hf => ⟨hf.1, rfl⟩, fun hv => ⟨hv.1, Word.noConfusion⟩, rfl, le_rfl⟩

/-- A request is posted where nothing is asked for. -/
theorem post (h : l.Inv) (hf : l.Free) {w : Word} (hw : w ≠ .clear) : (l.post w).Inv where
  taken r n hj := absurd (hf.2.symm.trans hj) (by simp)
  written r n hj := absurd (hf.2.symm.trans hj) (by simp)
  cleared r n hj := absurd (hf.2.symm.trans hj) (by simp)
  untaken hc := absurd hc hw
  le := h.le.trans (Nat.le_succ _)

end Lane.Inv

/-! ### The calls -/

/-- What holds of a call: a word it is about to write is free, a request counts as
pending only once it is posted, and once the call is woken an answer to such a request
is written; and while it waits nothing else is asked for. -/
structure Caller.Inv (lane : Kind → Lane) (c : Caller) : Prop where
  post : ∀ k, c.pc = .post k → (lane k).Free ∧ c.since = (lane k).posted + 1
  pending : ∀ k ∈ c.pc.waits, c.pc ≠ .post k → c.since ≤ (lane k).posted
  woken : ∀ k, c.pc = .woken k → c.since ≤ (lane k).wrote
  alone : ∀ k ∈ c.pc.waits, (lane k).Value ∧ ∀ k', k' ≠ k → (lane k').Free
  hysteresis : c.pc = .postHysteresis → ∀ k, (lane k).Free

/-- What holds of two calls: they wait for the same kind, and no other waits or writes
while one is about to write. -/
structure Apartness {K : Type} (calls : K → Caller) : Prop where
  kind : ∀ c d, ∀ k ∈ (calls c).pc.waits, ∀ k' ∈ (calls d).pc.waits, k' = k
  writer : ∀ c d, (calls c).pc.posts = true → (calls d).pc.posts = true → c = d
  hysteresis : ∀ c d, (calls c).pc = .postHysteresis → ∀ k, k ∉ (calls d).pc.waits

/-- What holds in an orderly run. -/
structure Thermal.Inv {K : Type} (s : Thermal K) : Prop where
  lane : ∀ k, (s.lane k).Inv
  call : ∀ c, (s.calls c).Inv s.lane
  apart : Apartness s.calls

/-- Steps that post nothing keep what holds of a call. -/
theorem Caller.Inv.calm {lane lane' : Kind → Lane} {c : Caller} (h : c.Inv lane)
    (hcalm : ∀ k, (lane k).Calm (lane' k)) : c.Inv lane' where
  post k hk := ⟨(hcalm k).free (h.post k hk).1, by rw [(hcalm k).posted]; exact (h.post k hk).2⟩
  pending k hk hpost := by
    rw [(hcalm k).posted]
    exact h.pending k hk hpost
  woken k hk := (h.woken k hk).trans (hcalm k).wrote
  alone k hk := ⟨(hcalm k).value (h.alone k hk).1, fun k' hne => (hcalm k').free ((h.alone k hk).2 k' hne)⟩
  hysteresis hk k := (hcalm k).free (h.hysteresis hk k)

section

variable {lane : Kind → Lane} {c : Caller} {k : Kind}

/-- A call that waits for no value. -/
theorem Caller.Inv.of_waits_none (hwaits : c.pc.waits = none) (hwoken : ∀ k, c.pc = .woken k → c.since ≤ (lane k).wrote)
    (hhyst : c.pc = .postHysteresis → ∀ k, (lane k).Free) : c.Inv lane where
  post k hk := by
    rw [hk] at hwaits
    cases hwaits
  pending k hk _ := by cases hwaits.symm.trans hk
  woken := hwoken
  alone k hk := by cases hwaits.symm.trans hk
  hysteresis := hhyst

/-- A call that waits for a value, past its request. -/
theorem Caller.Inv.of_waits (hwaits : c.pc.waits = some k) (hposts : c.pc.posts = false)
    (hpending : c.since ≤ (lane k).posted) (halone : (lane k).Value ∧ ∀ k', k' ≠ k → (lane k').Free) :
    c.Inv lane where
  post k' hk' := by
    rw [hk'] at hposts
    cases hposts
  pending k' hk' _ := by
    obtain rfl := Option.some.inj (hwaits.symm.trans hk')
    exact hpending
  woken k' hk' := by
    rw [hk'] at hwaits
    cases hwaits
  alone k' hk' := by
    obtain rfl := Option.some.inj (hwaits.symm.trans hk')
    exact halone
  hysteresis hk' := by
    rw [hk'] at hwaits
    cases hwaits

theorem Caller.Inv.of_idle (hpc : c.pc = .idle ∨ c.pc = .ringUpdate) : c.Inv lane := by
  refine .of_waits_none ?_ (fun k hk => ?_) fun hk => ?_
  · rcases hpc with hpc | hpc <;> rw [hpc] <;> rfl
  · rcases hpc with hpc | hpc <;> cases hpc.symm.trans hk
  · rcases hpc with hpc | hpc <;> cases hpc.symm.trans hk

/-- A call that has posted its request goes on. -/
theorem Caller.Inv.next {pc : Pc} (h : c.Inv lane) (hk : k ∈ c.pc.waits) (hpost : c.pc ≠ .post k)
    (hpc : pc.waits = some k) (hposts : pc.posts = false) : Caller.Inv lane { c with pc := pc } :=
  .of_waits hpc hposts (h.pending k hk hpost) (h.alone k hk)

end

/-- A free word in which a value is asked for holds nothing else. -/
theorem Lane.Free.value_post {l : Lane} (h : l.Free) : (l.post .requested).Value := by
  refine ⟨Word.noConfusion, ?_⟩
  show l.job.request ≠ .hysteresis
  rw [h.2]
  exact Word.noConfusion

/-- A call has posted its request. -/
theorem Caller.Inv.posted {lane : Kind → Lane} {c : Caller} {k : Kind} (h : c.Inv lane) (hpc : c.pc = .post k) :
    Caller.Inv (Function.update lane k ((lane k).post .requested)) { c with pc := .ring k } := by
  obtain ⟨hfree, hsince⟩ := h.post k hpc
  have halone := (h.alone k (by rw [hpc]; rfl)).2
  refine .of_waits (k := k) rfl rfl ?_ ⟨?_, fun k' hne => ?_⟩
  · rw [Function.update_self]
    exact hsince.le
  · rw [Function.update_self]
    exact hfree.value_post
  · rw [Function.update_of_ne hne]
    exact halone k' hne

/-- A place where a call waits for and writes no more than in another. -/
structure Pc.Less (a b : Pc) : Prop where
  waits : ∀ k ∈ a.waits, k ∈ b.waits
  posts : a.posts = true → b.posts = true
  hysteresis : a = .postHysteresis → b = .postHysteresis

theorem Pc.Less.refl (a : Pc) : a.Less a := ⟨fun _ h => h, id, id⟩

/-- At a place where it writes nothing a call has only what it waits for. -/
theorem Pc.Less.of_waits {a b : Pc} (hposts : a.posts = false) (hwaits : ∀ k ∈ a.waits, k ∈ b.waits) : a.Less b where
  waits := hwaits
  posts h := absurd (hposts.symm.trans h) Bool.false_ne_true
  hysteresis h := by
    rw [h] at hposts
    cases hposts

theorem Pc.Less.idle (pc : Pc) : Pc.Less .idle pc := .of_waits rfl fun k hk => (by cases hk)

theorem Pc.Less.wake (a : Pc) : a.wake.Less a := by
  cases a with
  | queued k | asleep k => exact .of_waits rfl fun k hk => (by cases hk)
  | idle | post k | ring k | enter k | woken k | postHysteresis | ringUpdate => exact .refl _

section Apart

variable {K : Type} {calls calls' : K → Caller}

/-- Calls that go no further keep apart. -/
theorem Apartness.mono (h : Apartness calls) (hle : ∀ c, (calls' c).pc.Less (calls c).pc) : Apartness calls' where
  kind c d k hk k' hk' := h.kind c d k ((hle c).waits k hk) k' ((hle d).waits k' hk')
  writer c d hc hd := h.writer c d ((hle c).posts hc) ((hle d).posts hd)
  hysteresis c d hc k hk := h.hysteresis c d ((hle c).hysteresis hc) k ((hle d).waits k hk)

variable [DecidableEq K]

theorem less_update {c : K} {x : Caller} (hx : x.pc.Less (calls c).pc) (d : K) :
    (Function.update calls c x d).pc.Less (calls d).pc :=
  (Function.forall_update_iff calls fun d y => y.pc.Less (calls d).pc).mpr ⟨hx, fun _ _ => .refl _⟩ d

/-- A call that is to wait or to write begins where no other writes, and those that wait
are of its kind. -/
theorem Apartness.begin {c : K} {x : Caller} (h : Apartness calls) (hposts : ∀ d, (calls d).pc.posts = false)
    (hkind : ∀ d, ∀ k ∈ (calls d).pc.waits, ∀ k' ∈ x.pc.waits, k = k')
    (hhyst : x.pc = .postHysteresis → ∀ d k, k ∉ (calls d).pc.waits) : Apartness (Function.update calls c x) := by
  have hself : (Function.update calls c x) c = x := Function.update_self ..
  have hother : ∀ d, d ≠ c → (Function.update calls c x) d = calls d := fun d hd => Function.update_of_ne hd ..
  refine ⟨fun d e k hk k' hk' => ?_, fun d e hd he => ?_, fun d e hd k hk => ?_⟩
  · by_cases hd : d = c
    · rw [hd, hself] at hk
      by_cases he : e = c
      · rw [he, hself] at hk'
        exact Option.some.inj (hk'.symm.trans hk)
      · rw [hother e he] at hk'
        exact hkind e k' hk' k hk
    · rw [hother d hd] at hk
      by_cases he : e = c
      · rw [he, hself] at hk'
        exact (hkind d k hk k' hk').symm
      · rw [hother e he] at hk'
        exact h.kind d e k hk k' hk'
  · have hnew : ∀ d, (Function.update calls c x d).pc.posts = true → d = c := by
      intro d hd
      by_contra hne
      rw [hother d hne, hposts d] at hd
      exact Bool.false_ne_true hd
    rw [hnew d hd, hnew e he]
  · by_cases hdc : d = c
    · rw [hdc, hself] at hd
      by_cases he : e = c
      · rw [he, hself, hd] at hk
        cases hk
      · rw [hother e he] at hk
        exact hhyst hd e k hk
    · rw [hother d hdc] at hd
      have hp := hposts d
      rw [hd] at hp
      cases hp

end Apart

section Step

variable {K : Type} {s : Thermal K}

namespace Thermal

theorem setLane_calm {k : Kind} {l : Lane} (h : s.Inv) (hl : (s.lane k).Calm l) (k' : Kind) :
    (s.lane k').Calm ((s.setLane k l).lane k') :=
  (Function.forall_update_iff s.lane fun k l => (s.lane k).Calm l).mpr ⟨hl, fun k' _ => (h.lane k').calm⟩ k'

/-- A word changes without a request, and the calls stay where they are. -/
theorem Inv.setLane {k : Kind} {l : Lane} (h : s.Inv) (hl : (s.lane k).Calm l) : (s.setLane k l).Inv where
  lane k' := (setLane_calm h hl k').inv
  call c := (h.call c).calm (setLane_calm h hl)
  apart := h.apart

/-- The interrupt of the host wakes the calls that wait for what the modem has
answered. -/
theorem Inv.raise {k : Kind} {r : Word} {n : ℕ} (h : s.Inv) (hjob : (s.lane k).job = .cleared r n) :
    Thermal.Inv { s.setLane k (s.lane k).done with calls := fun c => (s.calls c).wake } := by
  have hlane := h.setLane (h.lane k).done
  refine ⟨hlane.lane, fun d => ?_, hlane.apart.mono fun d => .wake _⟩
  have hcall := hlane.call d
  show Caller.Inv (s.setLane k (s.lane k).done).lane (s.calls d).wake
  -- whom the interrupt wakes waits for this kind, and its answer is written
  have hwoken : ∀ k', k' ∈ (s.calls d).pc.waits → (s.calls d).pc ≠ .post k' →
      (s.calls d).since ≤ ((s.setLane k (s.lane k).done).lane k').wrote := by
    intro k' hk' hne
    obtain ⟨hvalue, hfree⟩ := (h.call d).alone k' hk'
    have hk : k = k' := by
      by_contra hkk
      exact absurd ((hfree k hkk).2.symm.trans hjob) Job.noConfusion
    subst hk
    obtain ⟨-, hclear, hn, hwrote⟩ := (h.lane k).cleared r n hjob
    have hreq : r = .requested := by
      have hhyst : r ≠ .hysteresis := by
        have hv := hvalue.2
        rw [hjob] at hv
        exact hv
      cases r with
      | clear => exact absurd rfl hclear
      | requested => rfl
      | hysteresis => exact absurd rfl hhyst
    show _ ≤ (Function.update s.lane k (s.lane k).done k).wrote
    rw [Function.update_self]
    show _ ≤ (s.lane k).wrote
    rw [hwrote hreq, hn]
    exact (h.call d).pending k hk' hne
  unfold Caller.wake
  cases hpc : (s.calls d).pc with
  | queued k' | asleep k' =>
    refine .of_waits_none rfl (fun k'' hk'' => ?_) fun hk'' => (by cases hk'')
    obtain rfl := Pc.woken.inj hk''
    exact hwoken k' (by rw [hpc]; rfl) (by rw [hpc]; exact Pc.noConfusion)
  | idle | post k' | ring k' | enter k' | woken k' | postHysteresis | ringUpdate =>
    have hsame : (⟨(s.calls d).pc, (s.calls d).since⟩ : Caller).Inv (s.setLane k (s.lane k).done).lane := hcall
    rw [hpc] at hsame
    exact hsame

variable [DecidableEq K]

/-- A call goes on, and waits for and writes no more than before. -/
theorem Inv.setPc {c : K} {pc : Pc} (h : s.Inv) (hle : pc.Less (s.calls c).pc)
    (hcall : Caller.Inv s.lane { s.calls c with pc := pc }) : (s.setPc c pc).Inv where
  lane := h.lane
  call := (Function.forall_update_iff s.calls fun _ y => y.Inv s.lane).mpr ⟨hcall, fun d _ => h.call d⟩
  apart := h.apart.mono (less_update hle)

/-- A call begins where no other does the like. -/
theorem Inv.begin {c : K} {x : Caller} (h : s.Inv) (hposts : ∀ d, (s.calls d).pc.posts = false)
    (hkind : ∀ d, ∀ k ∈ (s.calls d).pc.waits, ∀ k' ∈ x.pc.waits, k = k')
    (hhyst : x.pc = .postHysteresis → ∀ d k, k ∉ (s.calls d).pc.waits) (hcall : x.Inv s.lane) :
    Thermal.Inv { s with calls := Function.update s.calls c x } where
  lane := h.lane
  call := (Function.forall_update_iff s.calls fun _ y => y.Inv s.lane).mpr ⟨hcall, fun d _ => h.call d⟩
  apart := h.apart.begin hposts hkind hhyst

/-- A call looks at its word where it is orderly. -/
theorem Inv.look {c : K} {k : Kind} (h : s.Inv) (ho : s.Orderly (.get c k)) : (s.look c k).Inv := by
  obtain ⟨hothers, hfree, hvalue, hjob⟩ := ho
  unfold Thermal.look
  split
  · refine h.begin (fun d => (hothers d).1) ?_ (fun hx => by cases hx) ?_
    · intro d k' hk' k'' hk''
      rw [(hothers d).2 k' hk']
      exact Option.some.inj hk''
    · exact .of_waits (k := k) rfl rfl le_rfl ⟨hvalue, hfree⟩
  · next hword =>
    -- the word is clear, so the modem has nothing of it
    have hclear : (s.lane k).word = .clear := by
      cases hw : (s.lane k).word with
      | clear => rfl
      | requested => exact absurd hw hword
      | hysteresis => exact absurd hw hvalue.1
    have hidle : (s.lane k).job = .idle := by
      cases hj : (s.lane k).job with
      | idle => rfl
      | taken r n =>
        obtain ⟨hr, hne, -⟩ := (h.lane k).taken r n hj
        exact absurd (hr.symm.trans hclear) hne
      | written r n =>
        obtain ⟨hr, hne, -⟩ := (h.lane k).written r n hj
        exact absurd (hr.symm.trans hclear) hne
      | cleared r n =>
        rw [hj] at hjob
        cases hjob
    refine h.begin (fun d => (hothers d).1) ?_ (fun hx => by cases hx) ?_
    · intro d k' hk' k'' hk''
      rw [(hothers d).2 k' hk']
      exact Option.some.inj hk''
    · refine ⟨fun k' hk' => ?_, fun k' hk' hne => ?_, fun k' hk' => (by cases hk'), fun k' hk' => ?_,
        fun hk' => (by cases hk')⟩
      · obtain rfl := Pc.post.inj hk'
        exact ⟨⟨hclear, hidle⟩, rfl⟩
      · obtain rfl := Option.some.inj hk'
        exact absurd rfl hne
      · obtain rfl := Option.some.inj hk'
        exact ⟨hvalue, hfree⟩

/-- A call writes a request: afterwards it waits for no more than before. -/
theorem Inv.post {c : K} {k : Kind} {w : Word} {pc : Pc} (h : s.Inv) (hw : w ≠ .clear) (hfree : (s.lane k).Free)
    (hposts : (s.calls c).pc.posts = true) (hle : pc.Less (s.calls c).pc)
    (hwaits : ∀ d, d ≠ c → ∀ k' ∈ (s.calls d).pc.waits, k' = k ∧ w = .requested)
    (hcall : Caller.Inv (Function.update s.lane k ((s.lane k).post w)) { s.calls c with pc := pc }) :
    ((s.setLane k ((s.lane k).post w)).setPc c pc).Inv := by
  have hself : Function.update s.lane k ((s.lane k).post w) k = (s.lane k).post w := Function.update_self ..
  have hother : ∀ k', k' ≠ k → Function.update s.lane k ((s.lane k).post w) k' = s.lane k' :=
    fun k' hk' => Function.update_of_ne hk' ..
  refine ⟨fun k' => ?_, fun d => ?_, h.apart.mono (less_update hle)⟩
  · show (Function.update s.lane k _ k').Inv
    by_cases hk : k' = k
    · subst hk
      rw [hself]
      exact (h.lane k').post hfree hw
    · rw [hother k' hk]
      exact h.lane k'
  · show Caller.Inv (Function.update s.lane k _) (Function.update s.calls c _ d)
    by_cases hd : d = c
    · subst hd
      rwa [Function.update_self]
    · rw [Function.update_of_ne hd]
      have hnot : (s.calls d).pc.posts ≠ true := fun hp => hd (h.apart.writer d c hp hposts)
      refine ⟨fun k' hk' => absurd (by rw [hk']; rfl) hnot, fun k' hk' hne => ?_, fun k' hk' => ?_, fun k' hk' => ?_,
        fun hk' => absurd (by rw [hk']; rfl) hnot⟩
      · obtain ⟨rfl, -⟩ := hwaits d hd k' hk'
        rw [hself]
        exact ((h.call d).pending k' hk' hne).trans (Nat.le_succ _)
      · have hwoken := (h.call d).woken k' hk'
        by_cases hk : k' = k
        · subst hk
          rwa [hself]
        · rwa [hother k' hk]
      · obtain ⟨rfl, rfl⟩ := hwaits d hd k' hk'
        rw [hself]
        refine ⟨hfree.value_post, fun k'' hk'' => ?_⟩
        rw [hother k'' hk'']
        exact ((h.call d).alone k' hk').2 k'' hk''

theorem Inv.run (h : s.Inv) (c : K) (late : Bool) : (s.run c late).1.Inv := by
  unfold Thermal.run
  cases hpc : (s.calls c).pc with
  | idle | asleep k => exact h
  | post k =>
    have hfree : (s.lane k).Free := ((h.call c).post k hpc).1
    have hk : k ∈ (s.calls c).pc.waits := by rw [hpc]; rfl
    refine h.post Word.noConfusion hfree (by rw [hpc]; rfl) ?_ ?_ ((h.call c).posted hpc)
    · rw [hpc]
      exact .of_waits rfl fun k' hk' => hk'
    · exact fun d _ k' hk' => ⟨h.apart.kind c d k hk k' hk', rfl⟩
  | ring k =>
    have hlane := h.setLane (h.lane k).ring
    refine hlane.setPc ?_ ((hlane.call c).next (k := k) ?_ ?_ rfl rfl)
    · show Pc.Less _ (s.calls c).pc
      rw [hpc]
      exact .of_waits rfl fun _ hk => hk
    · show k ∈ (s.calls c).pc.waits
      rw [hpc]
      rfl
    · show (s.calls c).pc ≠ _
      rw [hpc]
      exact Pc.noConfusion
  | enter k =>
    refine h.setPc ?_ ((h.call c).next (k := k) (by rw [hpc]; rfl) (by rw [hpc]; exact Pc.noConfusion) rfl rfl)
    rw [hpc]
    exact .of_waits rfl fun _ hk => hk
  | queued k =>
    refine h.setPc ?_ ((h.call c).next (k := k) (by rw [hpc]; rfl) (by rw [hpc]; exact Pc.noConfusion) rfl rfl)
    rw [hpc]
    exact .of_waits rfl fun _ hk => hk
  | woken k => exact h.setPc (.idle _) (.of_idle (.inl rfl))
  | postHysteresis =>
    refine h.post Word.noConfusion ((h.call c).hysteresis hpc .mtd) (by rw [hpc]; rfl) ?_ ?_ (.of_idle (.inr rfl))
    · exact .of_waits rfl fun k hk => (by cases hk)
    · exact fun d _ k hk => absurd hk (h.apart.hysteresis c d hpc k)
  | ringUpdate => exact (h.setLane (h.lane .mtd).ring).setPc (.idle _) (.of_idle (.inl rfl))

/-- An orderly step keeps what holds. -/
theorem inv_step (h : s.Inv) (t : Turn K) (ho : s.Orderly t) : (s.step t).1.Inv := by
  cases t with
  | get c k =>
    simp only [Thermal.step]
    split
    · exact h.look ho
    · exact h
  | hysteresis c =>
    simp only [Thermal.step]
    split
    · refine h.begin (fun d => (ho.1 d).1) (fun d k hk => ?_) (fun _ d k hk => ?_) ?_
      · rw [(ho.1 d).2] at hk
        cases hk
      · rw [(ho.1 d).2] at hk
        cases hk
      · exact .of_waits_none rfl (fun k hk => (by cases hk)) fun _ => ho.2
    · exact h
  | threshold c =>
    simp only [Thermal.step]
    split
    · exact h.setPc (.of_waits rfl fun k hk => (by cases hk)) (.of_idle (.inr rfl))
    · exact h
  | run c late => exact h.run c late
  | signal c =>
    simp only [Thermal.step, wakeOne]
    refine h.setPc (.wake _) ?_
    have hsame : (s.calls c).pc.wake = (s.calls c).pc := ho
    rw [hsame]
    exact h.call c
  | timeout c =>
    simp only [Thermal.step]
    split
    · exact h.setPc (.idle _) (.of_idle (.inl rfl))
    · exact h
  | take k => exact h.setLane (h.lane k).take
  | write k => exact h.setLane (h.lane k).write
  | clear k => exact h.setLane (h.lane k).clear
  | raise k =>
    simp only [Thermal.step]
    split
    · next r n hjob => exact h.raise hjob
    · exact h

end Thermal

/-- No request is lost, and a call returns the answer to a request that was pending
during it. -/
def Shown.Right : Shown → Prop
  | .nothing => True
  | .posted lost => lost = false
  | .got value since => since ≤ value
  | .timedOut => True

instance : ∀ o, Decidable (Shown.Right o)
  | .nothing => inferInstanceAs (Decidable True)
  | .posted lost => inferInstanceAs (Decidable (lost = false))
  | .got value since => inferInstanceAs (Decidable (since ≤ value))
  | .timedOut => inferInstanceAs (Decidable True)

namespace Thermal

variable [DecidableEq K]

theorem right_run (h : s.Inv) (c : K) (late : Bool) : (s.run c late).2.Right := by
  unfold Thermal.run
  cases hpc : (s.calls c).pc with
  | post k => exact (h.lane k).untaken ((h.call c).post k hpc).1.1
  | postHysteresis => exact (h.lane .mtd).untaken ((h.call c).hysteresis hpc .mtd).1
  | woken k =>
    cases late with
    | true => trivial
    | false => exact (h.call c).woken k hpc
  | idle | ring k | enter k | queued k | asleep k | ringUpdate => trivial

theorem right_step (h : s.Inv) (t : Turn K) : (s.step t).2.Right := by
  cases t with
  | run c late => exact right_run h c late
  | timeout c =>
    simp only [Thermal.step]
    split <;> trivial
  | raise k =>
    simp only [Thermal.step]
    split <;> trivial
  | get c k | hysteresis c | threshold c | signal c | take k | write k | clear k => trivial

end Thermal

end Step

/-! ### Runs -/

/-- A word that `tvd_probe` has cleared. -/
def Lane.fresh : Lane := ⟨.clear, false, 0, .idle, 0, 0⟩

/-- The state in which `tvd_probe` leaves a modem: it has set thresholds and a
hysteresis, which the modem is still to take. -/
def Thermal.probed (K : Type) : Thermal K where
  lane
    | .mtd => (Lane.fresh.ring.post .hysteresis).ring
    | .rtd => .fresh
    | .power => .fresh
  calls _ := ⟨.idle, 0⟩

theorem Lane.fresh_inv : Lane.fresh.Inv :=
  ⟨fun _ _ hj => (by cases hj), fun _ _ hj => (by cases hj), fun _ _ hj => (by cases hj), fun _ => rfl, le_rfl⟩

theorem Thermal.probed_inv (K : Type) : (Thermal.probed K).Inv where
  lane k := by
    cases k with
    | mtd => exact (Lane.fresh_inv.ring.inv.post ⟨rfl, rfl⟩ Word.noConfusion).ring.inv
    | rtd | power => exact Lane.fresh_inv
  call _ := .of_idle (.inl rfl)
  apart := ⟨fun _ _ _ hk => (by cases hk), fun _ _ hp => (by cases hp), fun _ _ hp => (by cases hp)⟩

/-- **In an orderly run no request is written over before the modem has taken it, and a
call that succeeds returns what the modem wrote for a request of its kind that was pending
when the call looked at its word, or posted later.** -/
theorem answers_agree (K : Type) [DecidableEq K] (ts : List (Turn K))
    (ho : Guarded Thermal.step Thermal.Orderly (.probed K) ts) :
    ∀ p ∈ outs Thermal.step (.probed K) ts, p.2.Right :=
  outs_of_guarded (I := Thermal.Inv) (Q := fun _ o => o.Right) (fun _ t h ho => Thermal.inv_step h t ho)
    (fun _ t h _ => Thermal.right_step h t) ts (Thermal.probed_inv K) ho

instance decidableOrderly (s : Thermal Bool) : ∀ t, Decidable (s.Orderly t)
  | .get _ _ => inferInstanceAs (Decidable (_ ∧ _ ∧ _ ∧ _))
  | .hysteresis _ => inferInstanceAs (Decidable (_ ∧ _))
  | .signal _ => inferInstanceAs (Decidable (_ = _))
  | .threshold _ | .run _ _ | .timeout _ | .take _ | .write _ | .clear _ | .raise _ =>
    inferInstanceAs (Decidable True)

/-- The modem answers the request in a word. -/
def answer (k : Kind) : List (Turn Bool) := [.take k, .write k, .clear k, .raise k]

/-- Two calls wait for the same temperature, after the modem has taken its hysteresis. -/
def together : List (Turn Bool) :=
  answer .mtd ++ [.get true .mtd, .run true false, .get false .mtd, .run true false, .run true false, .run false false,
    .run true false, .run false false] ++ answer .mtd ++ [.run true false, .run false false]

theorem answers_agree_together : Guarded Thermal.step Thermal.Orderly (.probed Bool) together ∧
    ∀ p ∈ outs Thermal.step (.probed Bool) together, p.2.Right := by
  have horderly : Guarded Thermal.step Thermal.Orderly (.probed Bool) together := by
    decide +kernel
  exact ⟨horderly, answers_agree Bool together horderly⟩

/-- While one call waits for the temperature of the modem, another asks for that of the RF
card, and is woken by the answer to the first. -/
def crossed : List (Turn Bool) :=
  answer .mtd ++ [.get true .mtd, .run true false, .run true false, .run true false, .run true false, .get false .rtd,
    .run false false, .run false false, .run false false, .run false false] ++ answer .mtd ++ [.run false false]

/-- A hysteresis is set before the modem has taken the request for its temperature. -/
def overwritten : List (Turn Bool) :=
  answer .mtd ++ [.get true .mtd, .run true false, .hysteresis false, .run false false]

/-- The one call returns what is no answer at all, and the other update loses the
request. -/
theorem answers_crossed :
    (¬ ∀ p ∈ outs Thermal.step (.probed Bool) crossed, p.2.Right) ∧
      ¬ ∀ p ∈ outs Thermal.step (.probed Bool) overwritten, p.2.Right := by
  constructor
  · intro hall
    have hgot : (.run false false, .got 0 1) ∈ outs Thermal.step (.probed Bool) crossed := by
      rw [List.mem_iff_getElem?]
      exact ⟨18, rfl⟩
    exact absurd (hall _ hgot) (by decide)
  · intro hall
    have hposted : (.run false false, .posted true) ∈ outs Thermal.step (.probed Bool) overwritten := by
      rw [List.mem_iff_getElem?]
      exact ⟨7, rfl⟩
    exact absurd (hall _ hposted) (by decide)

/-! ### The words of the driver -/

/-- The request word of a kind. -/
def Hif.word (h : Hif) : Kind → Word
  | .mtd => h.tvdMtdEvent
  | .rtd => h.tvdRtdEvent
  | .power => h.tvdMtdPowerEvent

/-- Asking for a value. -/
def postRequest : Kind → Hif → Hif × List Bell
  | .mtd => postMtd
  | .rtd => postRtd
  | .power => postPower

theorem postRequest_word (k k' : Kind) (h : Hif) :
    (postRequest k h).1.word k' = if k' = k then .requested else h.word k' := by
  cases k <;> cases k' <;>
    simp only [postRequest, postMtd, postRtd, postPower, Hif.word] <;> split <;> simp_all

theorem postRequest_bells (k : Kind) (h : Hif) :
    (postRequest k h).2.length = if h.word k = .requested then 0 else 1 := by
  cases k <;> simp only [postRequest, postMtd, postRtd, postPower, Hif.word] <;> split <;> simp_all

/-- The first three steps of a call, uninterrupted, are those of the driver. -/
theorem get_uninterrupted {K : Type} [DecidableEq K] (s : Thermal K) (c : K) (k : Kind) (h : Hif)
    (hpc : (s.calls c).pc = .idle) (hword : ∀ k', (s.lane k').word = h.word k') :
    (∀ k', ((exec Thermal.step s [.get c k, .run c false, .run c false]).lane k').word = (postRequest k h).1.word k') ∧
      ((exec Thermal.step s [.get c k, .run c false, .run c false]).lane k).bells =
        (s.lane k).bells + (postRequest k h).2.length := by
  rw [postRequest_bells]
  simp only [postRequest_word, ← hword, exec, Thermal.step, if_pos hpc]
  by_cases hreq : (s.lane k).word = .requested
  · have hlook : s.look c k = { s with calls := Function.update s.calls c ⟨.enter k, (s.lane k).posted⟩ } := by
      rw [Thermal.look, if_pos hreq]
    rw [hlook]
    simp only [Thermal.run, Thermal.setPc, Function.update_self, hreq, if_true, Nat.add_zero, and_true]
    intro k'
    split
    · next hk => rw [hk, hreq]
    · rfl
  · have hlook : s.look c k = { s with calls := Function.update s.calls c ⟨.post k, (s.lane k).posted + 1⟩ } := by
      rw [Thermal.look, if_neg hreq]
    rw [hlook]
    simp only [Thermal.run, Thermal.setPc, Thermal.setLane, Function.update_self, Function.update_idem, if_neg hreq]
    refine ⟨fun k' => ?_, rfl⟩
    by_cases hk : k' = k
    · rw [hk, Function.update_self, if_pos rfl]
      rfl
    · rw [Function.update_of_ne hk, if_neg hk]

/-- So are those of an update of the hysteresis in its range. -/
theorem hysteresis_uninterrupted {K : Type} [DecidableEq K] (s : Thermal K) (c : K) {val : ℤ}
    (hval : 1 ≤ val ∧ val ≤ 10) (h : Hif) (hpc : (s.calls c).pc = .idle) (hword : ∀ k', (s.lane k').word = h.word k') :
    (∀ k', ((exec Thermal.step s [.hysteresis c, .run c false, .run c false]).lane k').word =
        (mtdUpdateHysteresis val h).1.word k') ∧
      ((exec Thermal.step s [.hysteresis c, .run c false, .run c false]).lane .mtd).bells =
        (s.lane .mtd).bells + (mtdUpdateHysteresis val h).2.bells.length := by
  unfold mtdUpdateHysteresis
  rw [if_pos hval]
  simp only [exec, Thermal.step, if_pos hpc, Thermal.run, Thermal.setPc, Thermal.setLane, Function.update_self,
    Function.update_idem]
  refine ⟨fun k' => ?_, rfl⟩
  cases k' with
  | mtd => rfl
  | rtd => exact hword .rtd
  | power => exact hword .power

end Tvd
end La12xx
