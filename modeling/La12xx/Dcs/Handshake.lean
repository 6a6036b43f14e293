/-
# The handshake of a recalibration

`hsdcs_raise_modem_cal_req` and the modem share one word. The host writes a request
into it and polls it; the modem replaces a request, after any delay, by its
acknowledgement or by a denial; the host answers an acknowledgement with a
calibration and writes the next request or the result.

The host and the modem move in any order. What happens, write by write, is a history
of the protocol (`Next`), whatever the word held before and however the
calibrations end (`callHistory_follows`); that a calibration needs its own
acknowledgement, and what each result stands for, is read off the protocol.
-/
import La12xx.Dcs.Monitor
import La12xx.Lib.History

namespace La12xx
namespace Dcs
namespace Handshake

open Machine History

/-! ### Calibrations and their words -/

/-- A calibration: `hsdcs_adc_fast_recal` of one of the ADCs, or `hsdcs_adc_full_recal`. -/
inductive Cal where
  | adc0
  | adc1
  | both
deriving DecidableEq, Repr

def Cal.request : Cal → Event
  | .adc0 => .requestedAnt0
  | .adc1 => .requestedAnt1
  | .both => .requestedAnt01

def Cal.ack : Cal → Event
  | .adc0 => .reqAckAnt0
  | .adc1 => .reqAckAnt1
  | .both => .reqAckAnt01

/-- The word after a calibration that failed, -/
def Cal.failed : Cal → Event
  | .adc0 => .failedAnt0
  | .adc1 => .failedAnt1
  | .both => .failedAnt01

/-- and after one that succeeded. -/
def Cal.succeeded : Cal → Event
  | .adc0 => .requestedAnt1
  | .adc1 => .completed
  | .both => .completed2

def Cal.result (c : Cal) (ok : Bool) : Event := if ok then c.succeeded else c.failed

/-- The calibration whose acknowledgement a word is. -/
def ackOf : Event → Option Cal
  | .reqAckAnt0 => some .adc0
  | .reqAckAnt1 => some .adc1
  | .reqAckAnt01 => some .both
  | _ => none

/-- The calibration a word asks for. -/
def requestOf : Event → Option Cal
  | .requestedAnt0 => some .adc0
  | .requestedAnt1 => some .adc1
  | .requestedAnt01 => some .both
  | _ => none

/-! ### The host and the modem -/

/-- Where `hsdcs_raise_modem_cal_req` is; `i` counts the rounds, and `word` is
`eventid_rcv`. -/
inductive Pc where
  /-- before the request is written -/
  | ask
  /-- `raise_modem_msi`, after a word was written -/
  | raise (i : ℕ)
  /-- the head of the loop -/
  | poll (i : ℕ)
  | serve (i : ℕ) (word : Event)
  /-- in a calibration -/
  | busy (i : ℕ) (c : Cal)
  /-- after a calibration -/
  | ran (i : ℕ) (c : Cal) (ok : Bool)
  | returned
deriving DecidableEq, Repr

/-- What happens: the host or the modem writes the word, or a calibration starts or ends. -/
inductive Entry where
  | wrote (e : Event)
  | acked (c : Cal)
  | denied
  | started (c : Cal)
  | finished (c : Cal) (ok : Bool)
deriving DecidableEq, Repr

/-- The call, and `hif->dcshif.eventid`. -/
structure State where
  pc : Pc
  word : Event
deriving DecidableEq, Repr

/-- `HSDCS_DO_INC_RECAL` -/
def doIncRecal : ℤ := 1

/-- `HSDCS_DO_FULL_RECAL` -/
def doFullRecal : ℤ := 2

/-- The request that is written first; another type is reported and nothing written. -/
def firstRequest (caltype : ℤ) : Option Event :=
  if caltype = doIncRecal then some .requestedAnt0
  else if caltype = doFullRecal then some .requestedAnt01
  else none

/-- A step of the host; `ok` is how a calibration ends. A round of the loop advances `i`
twice. -/
def host (caltype : ℤ) (ok : Bool) (s : State) : State × List Entry :=
  match s.pc with
  | .ask =>
    match firstRequest caltype with
    | some e => (⟨.raise 0, e⟩, [.wrote e])
    | none => (⟨.raise 0, s.word⟩, [])
  | .raise i => (⟨.poll i, s.word⟩, [])
  | .poll i => if i ≤ retryCount then (⟨.serve i s.word, s.word⟩, []) else (⟨.returned, s.word⟩, [])
  | .serve i word =>
    match ackOf word with
    | some c => (⟨.busy i c, s.word⟩, [.started c])
    | none =>
      if word = .completed ∨ word = .completed2 then (⟨.returned, s.word⟩, [])
      else (⟨.poll (i + 2), s.word⟩, [])
  | .busy i c => (⟨.ran i c ok, s.word⟩, [.finished c ok])
  | .ran i c ok => (⟨.raise (i + 2), c.result ok⟩, [.wrote (c.result ok)])
  | .returned => (s, [])

/-- A step of the modem: a pending request is acknowledged or denied. -/
def modem (ack : Bool) (s : State) : State × List Entry :=
  match requestOf s.word with
  | some c => if ack then (⟨s.pc, c.ack⟩, [.acked c]) else (⟨s.pc, .reqDenied⟩, [.denied])
  | none => (s, [])

/-- Who moves. -/
inductive Move where
  | host (ok : Bool)
  | modem (ack : Bool)
deriving DecidableEq, Repr

def step (caltype : ℤ) (s : State) : Move → State × List Entry
  | .host ok => host caltype ok s
  | .modem ack => modem ack s

/-- What happens in a call of `hsdcs_raise_modem_cal_req`, from whatever word was left. -/
def callHistory (caltype : ℤ) (word : Event) (ms : List Move) : List Entry := history (step caltype) ⟨.ask, word⟩ ms

/-! ### The protocol -/

/-- How far the handshake is. -/
inductive Stage where
  | idle
  | asked (c : Cal)
  | acked (c : Cal)
  | running (c : Cal)
  | ran (c : Cal) (ok : Bool)
  | closed
deriving DecidableEq, Repr

/-- What may happen, and where it leads. What the modem does about an old request does not
count. -/
inductive Next : Stage → Entry → Stage → Prop
  | ackedOld (c : Cal) : Next .idle (.acked c) .idle
  | deniedOld : Next .idle .denied .idle
  | askInc : Next .idle (.wrote Cal.adc0.request) (.asked .adc0)
  | askFull : Next .idle (.wrote Cal.both.request) (.asked .both)
  | ack (c : Cal) : Next (.asked c) (.acked c) (.acked c)
  | deny (c : Cal) : Next (.asked c) .denied .closed
  | start (c : Cal) : Next (.acked c) (.started c) (.running c)
  | finish (c : Cal) (ok : Bool) : Next (.running c) (.finished c ok) (.ran c ok)
  | goOn : Next (.ran .adc0 true) (.wrote Cal.adc1.request) (.asked .adc1)
  | completed : Next (.ran .adc1 true) (.wrote .completed) .closed
  | completed2 : Next (.ran .both true) (.wrote .completed2) .closed
  | fail (c : Cal) : Next (.ran c false) (.wrote c.failed) .closed

/-- The request of this stage is out. -/
def Stage.Waits (t : Stage) : Prop := (∃ c, t = .asked c ∨ t = .acked c) ∨ t = .closed

/-- The stage that fits to where the host is. What it has read may be older than the
word: only an acknowledgement stays. -/
def Pc.Fits (t : Stage) : Pc → Prop
  | .ask => t = .idle
  | .busy _ c => t = .running c
  | .ran _ c ok => t = .ran c ok
  | .serve _ word => t.Waits ∧ ∀ c, ackOf word = some c → t = .acked c
  | _ => t.Waits

/-- The word at a stage. -/
def Stage.Word (w : Event) : Stage → Prop
  | .idle => True
  | .asked c => w = c.request
  | .acked c => w = c.ack
  | .running c => w = c.ack
  | .ran c _ => w = c.ack
  | .closed => requestOf w = none ∧ ackOf w = none

structure Agrees (s : State) (t : Stage) : Prop where
  pc : s.pc.Fits t
  word : t.Word s.word

@[simp] theorem requestOf_request (c : Cal) : requestOf c.request = some c := by cases c <;> rfl

@[simp] theorem requestOf_ack (c : Cal) : requestOf c.ack = none := by cases c <;> rfl

@[simp] theorem ackOf_ack (c : Cal) : ackOf c.ack = some c := by cases c <;> rfl

@[simp] theorem ackOf_request (c : Cal) : ackOf c.request = none := by cases c <;> rfl

/-- After the request is out, the modem keeps the host where it is. -/
theorem Pc.Fits.of_waits {pc : Pc} {t t' : Stage} (h : pc.Fits t) (hc : ∃ c, t = .asked c) (ht : t'.Waits) :
    pc.Fits t' := by
  obtain ⟨c, rfl⟩ := hc
  cases pc with
  | ask => cases h
  | busy i c' => cases h
  | ran i c' ok => cases h
  | serve i word =>
    refine ⟨ht, fun c' hc' => ?_⟩
    cases h.2 c' hc'
  | raise i => exact ht
  | poll i => exact ht
  | returned => exact ht

/-- Only the request of this stage is pending. -/
theorem Stage.Word.asked_of_requestOf {w : Event} {t : Stage} {c : Cal} (h : t.Word w) (hc : requestOf w = some c) :
    t = .idle ∨ t = .asked c := by
  have hack : ∀ c' : Cal, w ≠ c'.ack := by
    rintro c' rfl
    rw [requestOf_ack] at hc
    cases hc
  cases t with
  | idle => exact .inl rfl
  | asked c' =>
    have hw : w = c'.request := h
    rw [hw, requestOf_request] at hc
    exact .inr (congrArg _ (Option.some.inj hc))
  | acked c' => exact absurd h (hack c')
  | running c' => exact absurd h (hack c')
  | ran c' ok => exact absurd h (hack c')
  | closed =>
    rw [h.1] at hc
    cases hc

theorem agrees_modem {s : State} {t : Stage} (ack : Bool) (h : Agrees s t) :
    ∃ t', Path Next t (modem ack s).2 t' ∧ Agrees (modem ack s).1 t' := by
  obtain ⟨pc, w⟩ := s
  obtain ⟨hpc, hword⟩ := h
  unfold modem
  cases hp : requestOf w with
  | none => exact ⟨t, .nil t, hpc, hword⟩
  | some c =>
    rcases hword.asked_of_requestOf hp with rfl | rfl
    · cases ack with
      | false => exact ⟨.idle, .single .deniedOld, hpc, trivial⟩
      | true => exact ⟨.idle, .single (.ackedOld c), hpc, trivial⟩
    · cases ack with
      | false => exact ⟨.closed, .single (.deny c), hpc.of_waits ⟨c, rfl⟩ (.inr rfl), rfl, rfl⟩
      | true => exact ⟨.acked c, .single (.ack c), hpc.of_waits ⟨c, rfl⟩ (.inl ⟨c, .inr rfl⟩), rfl⟩

/-- What the host reads is an acknowledgement only at the stage it is for. -/
theorem Stage.Word.acked_of_ackOf {w : Event} {t : Stage} {c : Cal} (h : t.Word w) (ht : t.Waits)
    (hc : ackOf w = some c) : t = .acked c := by
  rcases ht with ⟨c', rfl | rfl⟩ | rfl
  · have hw : w = c'.request := h
    rw [hw, ackOf_request] at hc
    cases hc
  · have hw : w = c'.ack := h
    rw [hw, ackOf_ack] at hc
    exact congrArg _ (Option.some.inj hc)
  · rw [h.2] at hc
    cases hc

/-- The types the monitor calls with. -/
def Called (caltype : ℤ) : Prop := caltype = doIncRecal ∨ caltype = doFullRecal

/-- The result of a calibration is the next request, or closes the handshake. -/
theorem next_result (c : Cal) (ok : Bool) :
    ∃ t, Next (.ran c ok) (.wrote (c.result ok)) t ∧ t.Waits ∧ t.Word (c.result ok) := by
  cases ok with
  | false =>
    refine ⟨.closed, .fail c, .inr rfl, ?_⟩
    cases c <;> exact ⟨rfl, rfl⟩
  | true =>
    cases c with
    | adc0 => exact ⟨.asked .adc1, .goOn, .inl ⟨_, .inl rfl⟩, rfl⟩
    | adc1 => exact ⟨.closed, .completed, .inr rfl, rfl, rfl⟩
    | both => exact ⟨.closed, .completed2, .inr rfl, rfl, rfl⟩

theorem agrees_host {caltype : ℤ} (hcall : Called caltype) {s : State} {t : Stage} (ok : Bool) (h : Agrees s t) :
    ∃ t', Path Next t (host caltype ok s).2 t' ∧ Agrees (host caltype ok s).1 t' := by
  obtain ⟨pc, w⟩ := s
  obtain ⟨hpc, hword⟩ := h
  cases pc with
  | ask =>
    have ht : t = .idle := hpc
    subst ht
    rcases hcall with rfl | rfl
    · exact ⟨.asked .adc0, .single .askInc, .inl ⟨_, .inl rfl⟩, rfl⟩
    · exact ⟨.asked .both, .single .askFull, .inl ⟨_, .inl rfl⟩, rfl⟩
  | raise i => exact ⟨t, .nil t, hpc, hword⟩
  | poll i =>
    unfold host
    dsimp only
    by_cases hi : i ≤ retryCount
    · rw [if_pos hi]
      exact ⟨t, .nil t, ⟨hpc, fun c hc => hword.acked_of_ackOf hpc hc⟩, hword⟩
    · rw [if_neg hi]
      exact ⟨t, .nil t, hpc, hword⟩
  | serve i word =>
    unfold host
    dsimp only
    cases hc : ackOf word with
    | some c =>
      have ht := hpc.2 c hc
      subst ht
      exact ⟨.running c, .single (.start c), rfl, hword⟩
    | none =>
      dsimp only
      split_ifs
      · exact ⟨t, .nil t, hpc.1, hword⟩
      · exact ⟨t, .nil t, hpc.1, hword⟩
  | busy i c =>
    have ht : t = .running c := hpc
    subst ht
    exact ⟨.ran c ok, .single (.finish c ok), rfl, hword⟩
  | ran i c ok' =>
    have ht : t = .ran c ok' := hpc
    subst ht
    obtain ⟨t', hnext, hwaits, hword'⟩ := next_result c ok'
    exact ⟨t', .single hnext, hwaits, hword'⟩
  | returned => exact ⟨t, .nil t, hpc, hword⟩

/-- Every call keeps to the protocol. -/
theorem callHistory_follows {caltype : ℤ} (hcall : Called caltype) (word : Event) (ms : List Move) :
    ∃ t, Path Next .idle (callHistory caltype word ms) t := by
  obtain ⟨t, ht, -⟩ := @path_of_exec _ _ _ _ (step caltype) _ Agrees
    (fun s t m h => by
      cases m with
      | host ok => exact agrees_host hcall ok h
      | modem ack => exact agrees_modem ack h)
    ms (t := ⟨.ask, word⟩) (s := .idle) ⟨rfl, trivial⟩
  exact ⟨t, ht⟩

/-! ### What the protocol says -/

section Protocol

variable {h h₁ h₂ : List Entry} {t : Stage}

theorem not_next_closed (e : Entry) (t : Stage) : ¬ Next .closed e t := by
  rintro ⟨⟩

/-- A calibration that was acknowledged was asked for just before. -/
theorem path_acked {c : Cal} (hp : Path Next .idle h (.acked c)) :
    ∃ h' u, h = h' ++ [.wrote c.request, .acked c] ∧ Path Next .idle h' u ∧ Next u (.wrote c.request) (.asked c) := by
  obtain ⟨h₁, e₁, u₁, rfl, hp₁, hn₁⟩ := hp.last nofun
  cases hn₁ with
  | ack =>
    obtain ⟨h₂, e₂, u₂, rfl, hp₂, hn₂⟩ := hp₁.last nofun
    have he : e₂ = .wrote c.request := by
      cases hn₂ with
      | askInc => rfl
      | askFull => rfl
      | goOn => rfl
    subst he
    exact ⟨h₂, u₂, List.append_assoc _ _ _, hp₂, hn₂⟩

/-- A calibration that ended was asked for, acknowledged and started. -/
theorem path_ran {c : Cal} {ok : Bool} (hp : Path Next .idle h (.ran c ok)) :
    ∃ (h' : List Entry) (u : Stage), h = h' ++ ([.wrote c.request, .acked c, .started c, .finished c ok] : List Entry) ∧
      Path Next .idle h' u ∧ Next u (.wrote c.request) (.asked c) := by
  obtain ⟨h₁, e₁, u₁, rfl, hp₁, hn₁⟩ := hp.last nofun
  cases hn₁ with
  | finish =>
    obtain ⟨h₂, e₂, u₂, rfl, hp₂, hn₂⟩ := hp₁.last nofun
    cases hn₂ with
    | start =>
      obtain ⟨h₃, u₃, rfl, hp₃, hn₃⟩ := path_acked hp₂
      refine ⟨h₃, u₃, ?_, hp₃, hn₃⟩
      simp

/-- Once a request is out, the stage before it does not come back. -/
theorem ne_idle_of_path {u : Stage} (hp : Path Next u h t) (hu : u ≠ .idle) : t ≠ .idle := by
  refine hp.inv (I := (· ≠ .idle)) ?_ hu
  intro s e t hn hs ht
  subst ht
  cases hn with
  | ackedOld => exact hs rfl
  | deniedOld => exact hs rfl

theorem ne_idle_of_wrote {u : Stage} {e : Event} (hn : Next u (.wrote e) t) : t ≠ .idle := by
  rintro rfl
  cases hn

/-- The second ADC is asked for after the first has succeeded. -/
theorem of_asked_adc1 {u : Stage} {e : Entry} (hn : Next u e (.asked .adc1)) : u = .ran .adc0 true := by
  cases hn
  rfl

theorem of_wrote_completed {u : Stage} (hn : Next u (.wrote .completed) t) : u = .ran .adc1 true := by
  generalize he : Entry.wrote .completed = e at hn
  cases hn with
  | completed => rfl
  | fail c => cases c <;> cases he
  | _ => cases he

theorem of_wrote_completed2 {u : Stage} (hn : Next u (.wrote .completed2) t) : u = .ran .both true := by
  generalize he : Entry.wrote .completed2 = e at hn
  cases hn with
  | completed2 => rfl
  | fail c => cases c <;> cases he
  | _ => cases he

theorem of_wrote_failed {u : Stage} {c : Cal} (hn : Next u (.wrote c.failed) t) : t = .closed := by
  generalize he : Entry.wrote c.failed = e at hn
  cases hn with
  | fail => rfl
  | completed => rfl
  | completed2 => rfl
  | _ => cases c <;> cases he

end Protocol

/-- What is asked of a call: that a calibration has its acknowledgement, a completion its
calibrations, and that a failure or a denial is the end of it. -/
structure Safe (h : List Entry) : Prop where
  started : ∀ h₁ (c : Cal) h₂, h = h₁ ++ .started c :: h₂ → [.wrote c.request, .acked c] <:+ h₁
  completed : ∀ h₁ h₂, h = h₁ ++ .wrote .completed :: h₂ →
    [.finished .adc0 true, .finished .adc1 true].Sublist h₁
  completed2 : ∀ h₁ h₂, h = h₁ ++ .wrote .completed2 :: h₂ → .finished .both true ∈ h₁
  failed : ∀ h₁ (c : Cal) h₂, h = h₁ ++ .wrote c.failed :: h₂ → ∀ c', .started c' ∉ h₂
  denied : ∀ h₁ e h₂ h₃, h = h₁ ++ .wrote e :: (h₂ ++ .denied :: h₃) → ∀ c, .started c ∉ h₃

theorem safe_of_path {h : List Entry} {t : Stage} (hp : Path Next .idle h t) : Safe h := by
  refine ⟨?_, ?_, ?_, ?_, ?_⟩
  · rintro h₁ c h₂ rfl
    obtain ⟨u, t', hp₁, hn, -⟩ := hp.event
    cases hn with
    | start =>
      obtain ⟨h', -, rfl, -, -⟩ := path_acked hp₁
      exact ⟨h', rfl⟩
  · rintro h₁ h₂ rfl
    obtain ⟨u, t', hp₁, hn, -⟩ := hp.event
    rw [of_wrote_completed hn] at hp₁
    obtain ⟨h', u, rfl, hp', hn'⟩ := path_ran hp₁
    rw [of_asked_adc1 hn'] at hp'
    obtain ⟨h'', -, rfl, -, -⟩ := path_ran hp'
    have hends : List.Sublist [Entry.finished .adc0 true, .finished .adc1 true]
        (([.wrote Cal.adc0.request, .acked .adc0, .started .adc0, .finished .adc0 true] : List Entry) ++
          ([.wrote Cal.adc1.request, .acked .adc1, .started .adc1, .finished .adc1 true] : List Entry)) := by
      decide
    rw [List.append_assoc]
    exact hends.trans (List.sublist_append_right _ _)
  · rintro h₁ h₂ rfl
    obtain ⟨u, t', hp₁, hn, -⟩ := hp.event
    rw [of_wrote_completed2 hn] at hp₁
    obtain ⟨h', -, rfl, -, -⟩ := path_ran hp₁
    simp
  · rintro h₁ c h₂ rfl c'
    obtain ⟨u, t', hp₁, hn, hp₂⟩ := hp.event
    rw [of_wrote_failed hn] at hp₂
    rw [hp₂.nil_of_dead not_next_closed]
    exact List.not_mem_nil
  · rintro h₁ e h₂ h₃ rfl c
    obtain ⟨u, t', -, hn, hp₂⟩ := hp.event
    obtain ⟨v, v', hp₃, hn', hp₄⟩ := hp₂.event
    have hv := ne_idle_of_path hp₃ (ne_idle_of_wrote hn)
    cases hn' with
    | deniedOld => exact absurd rfl hv
    | deny =>
      rw [hp₄.nil_of_dead not_next_closed]
      exact List.not_mem_nil

/-- In every call, however the modem and the host take turns, the handshake is safe. -/
theorem recal_handshake {caltype : ℤ} (hcall : Called caltype) (word : Event) (ms : List Move) :
    Safe (callHistory caltype word ms) := by
  obtain ⟨t, ht⟩ := callHistory_follows hcall word ms
  exact safe_of_path ht

theorem recal_handshake_full :
    Called doFullRecal ∧ Safe (callHistory doFullRecal .requestedAnt0 [.modem false, .host true, .modem true]) :=
  ⟨.inr rfl, recal_handshake (.inr rfl) _ _⟩

/-- An incremental recalibration to its end. -/
example :
    callHistory doIncRecal .other
        (.host true :: .modem true :: (List.replicate 6 (Move.host true) ++
          .modem true :: List.replicate 6 (Move.host true))) =
      [.wrote .requestedAnt0, .acked .adc0, .started .adc0, .finished .adc0 true, .wrote .requestedAnt1, .acked .adc1,
        .started .adc1, .finished .adc1 true, .wrote .completed] := by
  decide

/-! ### The rounds of the monitor -/

theorem host_poll (caltype : ℤ) {i : ℕ} (hi : i ≤ retryCount) (word : Event) (ok : Bool) :
    (step caltype ⟨.poll i, word⟩ (.host ok)).1 = ⟨.serve i word, word⟩ := by
  show (host caltype ok ⟨.poll i, word⟩).1 = _
  unfold host
  dsimp only
  rw [if_pos hi]

/-- A round of the loop, without a move of the modem, is the round of `poll` in `Monitor`. -/
theorem exec_round (caltype : ℤ) {i : ℕ} (hi : i ≤ retryCount) {word : Event} (hends : word.ends = none) (ok : Bool) :
    Reaches (step caltype) ⟨.poll i, word⟩ ⟨.poll (i + 2), word.reply ok⟩ := by
  apply Reaches.head (.host ok)
  rw [host_poll caltype hi]
  cases word with
  | completed => cases hends
  | completed2 => cases hends
  | reqAckAnt0 => exact ⟨List.replicate 4 (.host ok), by cases ok <;> rfl⟩
  | reqAckAnt1 => exact ⟨List.replicate 4 (.host ok), by cases ok <;> rfl⟩
  | reqAckAnt01 => exact ⟨List.replicate 4 (.host ok), by cases ok <;> rfl⟩
  | _ => exact ⟨[.host ok], rfl⟩

/-- A round that reads a completion is the last. -/
theorem exec_last_round (caltype : ℤ) {i : ℕ} (hi : i ≤ retryCount) {word : Event} {k : Kind}
    (hends : word.ends = some k) : Reaches (step caltype) ⟨.poll i, word⟩ ⟨.returned, word⟩ := by
  apply Reaches.head (.host true)
  rw [host_poll caltype hi]
  cases word with
  | completed => exact ⟨[.host true], rfl⟩
  | completed2 => exact ⟨[.host true], rfl⟩
  | _ => cases hends

end Handshake
end Dcs
end La12xx
