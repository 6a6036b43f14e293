/-
# The exchange of a command

`usim_xfer` of `gul_usim.c`, access by access: the registers, the receiver, the
command and the buffer for the answer are at the other end of a dialogue. The
receiver is a FIFO; a byte of the card is visible in it after some number of reads
of the status register, or never.

What passes the interface, what the buffer holds and what is returned depends on the
bytes that come in time only (`Card.inTime`); `xfer_conforms_iff` says for which the
exchange is as the protocol wants it.
-/
import La12xx.Lib.Dialogue
import La12xx.Sim.Ioctl

namespace La12xx
namespace Sim
namespace Transfer

open ByteMem Dialogue

/-! ### The function -/

/-- What the driver accesses. -/
inductive Query where
  | writel (r : Reg) (v : Word32)
  | readl (r : Reg)
  /-- `readl` of `usim_rcv_status` -/
  | status
  /-- `readl` of `usim_rcv_buff` -/
  | recv
  /-- `writel` to `usim_xmt_buff`, and `wait_for_tc` -/
  | send (v : Word32)
  /-- `cmd_buff[i]` -/
  | cmd (i : ℕ)
  /-- `rcv[i] = b` -/
  | store (i : ℕ) (b : Byte)
  /-- `rcv[i]` -/
  | load (i : ℕ)
  /-- `atr[j] = v` in `sim_init` -/
  | atr (j : ℕ) (v : Word32)
  /-- `sim->atr.t[k] = b` in `sim_atr_add` -/
  | simAtr (k : ℕ) (b : Byte)
deriving DecidableEq, Repr

abbrev Driver := Dialogue Query Word32

/-- The bit of `usim_rcv_status` that says that a byte is there. -/
def Received (value : Word32) : Prop := value &&& 0x10 = 0x10

instance (value : Word32) : Decidable (Received value) := inferInstanceAs (Decidable (_ = _))

/-- The loop of `bit_set_polling`, with `left` rounds before the last. -/
def pollLoop : ℕ → Word32 → Driver Unit
  | 0, value =>
    if Received value then pure ()
    else do
      let _ ← query .status
      pure ()
  | left + 1, value =>
    if Received value then pure ()
    else do
      let value ← query .status
      pollLoop left value

/-- `bit_set_polling(&regs->usim_rcv_status, 0x10, 0)` -/
def bitSetPolling : Driver Unit := do
  let value ← query .status
  pollLoop 20000000 value

/-- The inner loop: `budget` reads are left until `j` is 1000000. -/
def waitLoop : ℕ → Word32 → Driver (ℕ × Word32)
  | 0, value => pure (0, value)
  | budget + 1, value =>
    if Received value then pure (budget + 1, value)
    else do
      let value ← query .status
      waitLoop budget value

/-- `n` bytes of the command are sent, from byte `k` on. -/
def sendCmd : ℕ → ℕ → Driver Unit
  | _, 0 => pure ()
  | k, n + 1 => do
    let v ← query (.cmd k)
    let _ ← query (.send v)
    sendCmd (k + 1) n

/-- After a byte `0xA4` the command is sent from byte 5 on. -/
def resend (cmdLen : ℕ) (b : Byte) : Driver Unit := if b = 0xa4 then sendCmd 5 (cmdLen - 5) else pure ()

/-- The receiving loop, from byte `i` on; `left` bytes are missing before
`i == rcv_len - 1`. The value is `i` at its end. -/
def receive (cmdLen : ℕ) : ℕ → ℕ → ℕ → Word32 → Driver ℕ
  | left, i, budget, value =>
    if Received value then do
      let v ← query .recv
      let _ ← query (.store i (v.setWidth 8))
      resend cmdLen (v.setWidth 8)
      match left with
      | 0 => pure i
      | left + 1 => do
        let value ← query .status
        let r ← waitLoop budget value
        if r.1 = 0 then pure (i + 1) else receive cmdLen left (i + 1) r.1 r.2
    else pure i

/-- `i - n`, as the index of an array. -/
def before (i n : ℕ) : ℕ := (BitVec.ofNat 32 i - BitVec.ofNat 32 n).toNat

/-- The end of the function; `last` is `rcv_len - 1`. -/
def verdict (last i : ℕ) : Driver ℤ :=
  if i = 0 then pure noCard
  else if i < last then pure noCard
  else do
    let sw1 ← query (.load (before i 2))
    if sw1 = 0x90 then do
      let sw2 ← query (.load (before i 1))
      if sw2 = 0x00 then pure 0 else pure (-1)
    else if sw1 = 0x9f ∨ sw1 = 0x61 then pure 0
    else pure (-1)

/-- The registers before the command is sent. -/
def prepare (rcvLen : Word32) : Driver Unit := do
  let _ ← query (.writel .enable 0x3)
  let _ ← query (.writel .resetCntl 0x3)
  let _ ← query (.writel .resetCntl 0x0)
  let _ ← query (.writel .xmtStatus 0x1b9)
  let threshold ← query (.readl .rcvThreshold)
  let _ ← query (.writel .rcvThreshold (threshold ||| (rcvLen &&& 0x1ff)))
  pure ()

/-- `usim_xfer` up to the end of the receiving loop -/
def exchangeLoop (cmdLen : ℕ) (rcvLen : Word32) : Driver ℕ := do
  prepare rcvLen
  let ins ← query (.cmd 1)
  sendCmd 0 (if ins = 0xa4 then 5 else cmdLen)
  let _ ← query (.writel .rcvStatus 0xf23)
  bitSetPolling
  let value ← query .status
  receive cmdLen (rcvLen - 1).toNat 0 1000000 value

/-- `usim_xfer` -/
def usimXfer (cmdLen : ℕ) (rcvLen : Word32) : Driver ℤ := do
  let i ← exchangeLoop cmdLen rcvLen
  verdict (rcvLen - 1).toNat i

/-! ### The card -/

/-- The bytes of the card, and after how many reads of the status register each of them
is visible once the one before is taken; `none` is never. -/
structure Card where
  byte : ℕ → Byte
  delay : ℕ → Option ℕ

/-- The other end: the registers, the number of bytes taken from the receiver and of
reads of its status since then, and the buffer for the answer. -/
structure Port where
  regs : Regs
  next : ℕ
  polled : ℕ
  rsp : ℕ → Byte

section Card

variable (C : Card) (cmd : ℕ → Byte)

/-- The next byte is visible. -/
def Card.ready (p : Port) : Bool := (C.delay p.next).any fun d => d ≤ p.polled

def portStep (p : Port) : Query → Port × Word32
  | .writel r v => ({ p with regs := writel v r p.regs }, 0)
  | .readl r => (p, p.regs r)
  | .status => ({ p with polled := p.polled + 1 }, if C.ready p then 0x10 else 0)
  | .recv => ({ p with next := p.next + 1, polled := 0 }, (C.byte p.next).setWidth 32)
  | .send v => ({ p with regs := writel 0x38 .xmtStatus (writel v .xmtBuff p.regs) }, 0)
  | .cmd k => (p, (cmd k).setWidth 32)
  | .store i b => ({ p with rsp := Function.update p.rsp i b }, 0)
  | .load i => (p, (p.rsp i).setWidth 32)
  | .atr _ _ => (p, 0)
  | .simAtr _ _ => (p, 0)

end Card

/-! ### The bytes that come in time -/

section Card

variable (C : Card)

/-- The reads of the status register after the first byte, up to byte `k`. -/
def Card.waits : ℕ → Option ℕ
  | 0 => some 0
  | k + 1 => do
    let w ← waits k
    let d ← C.delay (k + 1)
    some (w + d)

/-- Byte `k` comes before the driver gives up: the first byte within the rounds of
`bit_set_polling`, and those after it within those of the inner loop, all together. -/
def Card.comes (k : ℕ) : Bool := (C.delay 0).any (fun d => d ≤ 20000002) && (C.waits k).any fun w => w < 1000000

/-- At most `n` bytes, from byte `i` on, as far as they come. -/
def Card.bytesFrom : ℕ → ℕ → List Byte
  | 0, _ => []
  | n + 1, i => if C.comes i then C.byte i :: bytesFrom n (i + 1) else []

/-- What the driver takes of an answer of `n` bytes. -/
def Card.inTime (n : ℕ) : List Byte := C.bytesFrom n 0

/-- What passes the interface. -/
inductive Event where
  | tx (b : Byte)
  | rx (b : Byte)
deriving DecidableEq, Repr

/-- What is seen of an access there. -/
def seen : Query × Word32 → Option Event
  | (.send v, _) => some (.tx (v.setWidth 8))
  | (.recv, r) => some (.rx (r.setWidth 8))
  | _ => none

end Card

/-! ### What the parts of the function do -/

section Runs

variable {C : Card} {cmd : ℕ → Byte}

/-- What has been sent is in the registers. -/
def Port.sent (p : Port) (l : List Byte) : Port := { p with regs := l.foldl sendByte p.regs }

/-- `n` bytes of the command, from byte `k` on. -/
def cmdBytes (cmd : ℕ → Byte) (k n : ℕ) : List Byte := (List.range' k n).map cmd

theorem setWidth_byte (b : Byte) : ((b.setWidth 32 : Word32).setWidth 8 : Byte) = b := by
  rw [BitVec.setWidth_setWidth_of_le _ (by decide), BitVec.setWidth_eq]

theorem sendCmd_observes : ∀ (n k : ℕ) (p : Port),
    Observes (portStep C cmd) seen (sendCmd k n) p (p.sent (cmdBytes cmd k n)) ((cmdBytes cmd k n).map .tx) ()
  | 0, _, _ => observes_pure
  | n + 1, k, p => by
    rw [cmdBytes, List.range'_succ, List.map_cons, List.map_cons]
    apply Observes.query_bind rfl
    have hsend : seen (.send ((cmd k).setWidth 32), 0) = some (.tx (cmd k)) := by
      rw [seen, setWidth_byte]
    exact Observes.seen_bind hsend (sendCmd_observes n (k + 1) _)

theorem resend_observes (cmdLen : ℕ) (b : Byte) (p : Port) :
    let l := if b = 0xa4 then cmdBytes cmd 5 (cmdLen - 5) else []
    Observes (portStep C cmd) seen (resend cmdLen b) p (p.sent l) (l.map .tx) () := by
  intro l
  unfold resend
  by_cases hb : b = 0xa4
  · simp only [l, if_pos hb]
    exact sendCmd_observes _ _ _
  · simp only [l, if_neg hb]
    exact observes_pure

/-- The status says whether the byte is visible. -/
theorem received_status (C : Card) (p : Port) : Received (if C.ready p then 0x10 else 0) ↔ C.ready p = true := by
  by_cases h : C.ready p = true
  · rw [if_pos h]
    exact iff_of_true (by decide) h
  · rw [if_neg h]
    exact iff_of_false (by decide) h

theorem ready_iff {p : Port} : C.ready p = true ↔ ∃ d, C.delay p.next = some d ∧ d ≤ p.polled := by
  unfold Card.ready
  cases C.delay p.next with
  | none => simp
  | some d => simp

theorem ready_mono {p : Port} {m n : ℕ} (h : C.ready { p with polled := m } = true) (hle : m ≤ n) :
    C.ready { p with polled := n } = true := by
  obtain ⟨d, hd, hdm⟩ := ready_iff.mp h
  exact ready_iff.mpr ⟨d, hd, hdm.trans hle⟩

section Polling

variable {ε : Type} {obs : Query × Word32 → Option ε} (hobs : ∀ r, obs (.status, r) = none)
include hobs

/-- The rounds before the first byte; `value` was read after `q` reads. -/
theorem pollLoop_observes : ∀ (left : ℕ) (p : Port) (value : Word32) (q : ℕ), p.polled = q + 1 →
    (Received value ↔ C.ready { p with polled := q } = true) →
    ∃ n, Observes (portStep C cmd) obs (pollLoop left value) p { p with polled := n } [] () ∧
      (C.ready { p with polled := n } = true ↔ C.ready { p with polled := q + left + 2 } = true) := by
  intro left
  induction left with
  | zero =>
    intro p value q hq hv
    by_cases hr : Received value
    · refine ⟨q + 1, ?_, iff_of_true (ready_mono (hv.mp hr) (by omega)) (ready_mono (hv.mp hr) (by omega))⟩
      rw [pollLoop, if_pos hr, ← hq]
      exact observes_pure
    · refine ⟨q + 2, ?_, Iff.rfl⟩
      rw [pollLoop, if_neg hr]
      apply Observes.query_bind (hobs _)
      have hp : (portStep C cmd p .status).1 = { p with polled := q + 2 } := by rw [portStep, hq]
      rw [hp]
      exact observes_pure
  | succ left ih =>
    intro p value q hq hv
    by_cases hr : Received value
    · refine ⟨q + 1, ?_, iff_of_true (ready_mono (hv.mp hr) (by omega)) (ready_mono (hv.mp hr) (by omega))⟩
      rw [pollLoop, if_pos hr, ← hq]
      exact observes_pure
    · have hp : (portStep C cmd p .status).1 = { p with polled := q + 2 } := by rw [portStep, hq]
      have hp' : p = { p with polled := q + 1 } := by rw [← hq]
      obtain ⟨n, hrun, hn⟩ := ih { p with polled := q + 2 } (portStep C cmd p .status).2 (q + 1) rfl
        (by rw [portStep, received_status, hp'])
      refine ⟨n, ?_, ?_⟩
      · rw [pollLoop, if_neg hr]
        apply Observes.query_bind (hobs _)
        rw [hp]
        exact hrun
      · rw [hn, show q + 1 + left + 2 = q + (left + 1) + 2 by omega]

/-- After `bit_set_polling` the status says whether the first byte came within its rounds. -/
theorem bitSetPolling_observes {p : Port} (hpolled : p.polled = 0) :
    ∃ n, Observes (portStep C cmd) obs bitSetPolling p { p with polled := n } [] () ∧
      (C.ready { p with polled := n } = true ↔ ∃ d, C.delay p.next = some d ∧ d ≤ 20000002) := by
  obtain ⟨n, hpoll, hready⟩ := pollLoop_observes (C := C) hobs 20000000 { p with polled := 1 }
    (portStep C cmd p .status).2 0 rfl (by rw [portStep, received_status, ← hpolled])
  refine ⟨n, ?_, hready.trans ready_iff⟩
  exact Observes.query_bind (hobs _) (by rw [portStep, hpolled]; exact hpoll)

/-- What is left of the rounds when the next byte is visible. -/
def Card.rest (C : Card) (k budget : ℕ) : ℕ := (C.delay k).elim 0 fun d => budget - d

/-- The rounds before a later byte; `value` was read after `q` reads. -/
theorem waitLoop_observes : ∀ (budget : ℕ) (p : Port) (value : Word32) (q : ℕ), p.polled = q + 1 →
    (Received value ↔ C.ready { p with polled := q } = true) → (∀ d, C.delay p.next = some d → q ≤ d) →
    ∃ n r, Observes (portStep C cmd) obs (waitLoop budget value) p { p with polled := n } [] r ∧
      r.1 = C.rest p.next (q + budget) ∧ (r.1 ≠ 0 → Received r.2) := by
  intro budget
  induction budget with
  | zero =>
    intro p value q hq hv hle
    refine ⟨q + 1, (0, value), ?_, ?_, fun h => absurd rfl h⟩
    · rw [waitLoop, ← hq]
      exact observes_pure
    · unfold Card.rest
      cases hd : C.delay p.next with
      | none => rfl
      | some d =>
        have hqd := hle d hd
        show 0 = q + 0 - d
        omega
  | succ budget ih =>
    intro p value q hq hv hle
    by_cases hr : Received value
    · refine ⟨q + 1, (budget + 1, value), ?_, ?_, fun _ => hr⟩
      · rw [waitLoop, if_pos hr, ← hq]
        exact observes_pure
      · obtain ⟨d, hd, hdq⟩ := ready_iff.mp (hv.mp hr)
        have hqd := hle d hd
        dsimp only at hd hdq
        rw [Card.rest, hd]
        show budget + 1 = q + (budget + 1) - d
        omega
    · have hp : (portStep C cmd p .status).1 = { p with polled := q + 2 } := by rw [portStep, hq]
      have hp' : p = { p with polled := q + 1 } := by rw [← hq]
      have hlater : ∀ d, C.delay p.next = some d → q + 1 ≤ d := by
        intro d hd
        by_contra hlt
        exact hr (hv.mpr (ready_iff.mpr ⟨d, hd, by dsimp only; omega⟩))
      obtain ⟨n, r, hrun, hrest, hset⟩ := ih { p with polled := q + 2 } (portStep C cmd p .status).2 (q + 1) rfl
        (by rw [portStep, received_status, hp']) hlater
      refine ⟨n, r, ?_, ?_, hset⟩
      · rw [waitLoop, if_neg hr]
        apply Observes.query_bind (hobs _)
        rw [hp]
        exact hrun
      · rw [hrest, show q + 1 + budget = q + (budget + 1) by omega]

end Polling

/-! ### What is received -/

theorem comes_zero_iff : C.comes 0 = true ↔ ∃ d, C.delay 0 = some d ∧ d ≤ 20000002 := by
  unfold Card.comes Card.waits
  cases C.delay 0 with
  | none => simp
  | some d => simp

/-- The byte after one that comes: the rounds are used up, or it comes too. -/
theorem comes_succ {k w : ℕ} (hk : C.comes k = true) (hw : C.waits k = some w) :
    (C.rest (k + 1) (1000000 - w) = 0 ∧ ¬ C.comes (k + 1) = true) ∨
      ∃ w', C.waits (k + 1) = some w' ∧ C.comes (k + 1) = true ∧ C.rest (k + 1) (1000000 - w) = 1000000 - w' ∧
        1000000 - w' ≠ 0 := by
  have hfirst : (C.delay 0).any (fun d => d ≤ 20000002) = true := by
    unfold Card.comes at hk
    exact (Bool.and_eq_true_iff.mp hk).1
  unfold Card.rest Card.comes
  rw [hfirst, Bool.true_and, Card.waits, hw]
  cases hd : C.delay (k + 1) with
  | none => exact .inl ⟨rfl, by simp⟩
  | some d =>
    by_cases hlt : w + d < 1000000
    · refine .inr ⟨w + d, rfl, by simpa using hlt, ?_, by omega⟩
      show 1000000 - w - d = 1000000 - (w + d)
      omega
    · refine .inl ⟨?_, by simpa using hlt⟩
      show 1000000 - w - d = 0
      omega

/-- What the driver sends again after the bytes of an answer. -/
def resent (cmd : ℕ → Byte) (cmdLen : ℕ) (b : Byte) : List Byte :=
  if b = 0xa4 then cmdBytes cmd 5 (cmdLen - 5) else []

/-- What passes the interface from the first byte of an answer on. -/
def exchange (cmd : ℕ → Byte) (cmdLen : ℕ) (l : List Byte) : List Event :=
  l.flatMap fun b => .rx b :: (resent cmd cmdLen b).map .tx

/-- The bytes are stored from index `i` on. -/
def overlay (rsp : ℕ → Byte) : ℕ → List Byte → ℕ → Byte
  | _, [] => rsp
  | i, b :: l => overlay (Function.update rsp i b) (i + 1) l

/-- The other end after the next byte is taken. -/
def Port.took (C : Card) (cmd : ℕ → Byte) (cmdLen : ℕ) (p : Port) : Port where
  regs := (resent cmd cmdLen (C.byte p.next)).foldl sendByte p.regs
  next := p.next + 1
  polled := 0
  rsp := Function.update p.rsp p.next (C.byte p.next)

/-- What the driver does with a byte. -/
theorem byte_observes (cmdLen : ℕ) (p : Port) {f : Unit → Driver ℕ} {p' : Port} {es : List Event} {n : ℕ}
    (h : Observes (portStep C cmd) seen (f ()) (p.took C cmd cmdLen) p' es n) :
    Observes (portStep C cmd) seen
      (do
        let v ← query .recv
        let _ ← query (.store p.next (v.setWidth 8))
        resend cmdLen (v.setWidth 8) >>= f)
      p p' (.rx (C.byte p.next) :: (resent cmd cmdLen (C.byte p.next)).map .tx ++ es) n := by
  have hrecv : seen (.recv, (portStep C cmd p .recv).2) = some (.rx (C.byte p.next)) := by
    rw [portStep, seen, setWidth_byte]
  apply Observes.seen_bind hrecv
  apply Observes.query_bind rfl
  have hbyte : (portStep C cmd p .recv).2.setWidth 8 = C.byte p.next := setWidth_byte _
  rw [hbyte]
  exact (resend_observes cmdLen (C.byte p.next) _).bind h

/-- What the loop leaves. -/
structure Taken (cmd : ℕ → Byte) (cmdLen : ℕ) (l : List Byte) (p p' : Port) : Prop where
  rsp : p'.rsp = overlay p.rsp p.next l
  regs : p'.regs = (l.flatMap (resent cmd cmdLen)).foldl sendByte p.regs

theorem Taken.cons {cmdLen : ℕ} {l : List Byte} {p p' : Port} {n : ℕ}
    (h : Taken cmd cmdLen l { p.took C cmd cmdLen with polled := n } p') :
    Taken cmd cmdLen (C.byte p.next :: l) p p' := by
  refine ⟨h.rsp, ?_⟩
  rw [h.regs, List.flatMap_cons, List.foldl_append]
  rfl

theorem Taken.single {cmdLen : ℕ} {p : Port} (n : ℕ) :
    Taken cmd cmdLen [C.byte p.next] p { p.took C cmd cmdLen with polled := n } :=
  Taken.cons (n := n) ⟨rfl, rfl⟩

theorem receive_observes (cmdLen : ℕ) : ∀ (left : ℕ) (p : Port) (w : ℕ) (value : Word32),
    C.comes p.next = true → C.waits p.next = some w → Received value →
    let l := C.bytesFrom (left + 1) p.next
    ∃ p', Observes (portStep C cmd) seen (receive cmdLen left p.next (1000000 - w) value) p p' (exchange cmd cmdLen l)
        (if l.length = left + 1 then p.next + left else p.next + l.length) ∧ Taken cmd cmdLen l p p' := by
  intro left
  induction left with
  | zero =>
    intro p w value hc hw hv l
    have hl : l = [C.byte p.next] := by simp [l, Card.bytesFrom, hc]
    rw [hl]
    refine ⟨_, ?_, Taken.single 0⟩
    rw [receive, if_pos hv, exchange, List.flatMap_singleton]
    have h := @byte_observes C cmd cmdLen p (fun _ => pure p.next) _ _ _ observes_pure
    rw [List.append_nil] at h
    exact h
  | succ left ih =>
    intro p w value hc hw hv l
    have hl : l = C.byte p.next :: C.bytesFrom (left + 1) (p.next + 1) := by
      simp only [l]
      rw [Card.bytesFrom, if_pos hc]
    rw [receive, if_pos hv]
    -- the wait for the byte after this one
    obtain ⟨n, r, hwait, hrest, hset⟩ := @waitLoop_observes C cmd _ seen (fun _ => rfl) (1000000 - w)
      { p.took C cmd cmdLen with polled := 1 } (portStep C cmd (p.took C cmd cmdLen) .status).2 0 rfl
      (received_status C _) (fun d _ => Nat.zero_le d)
    rw [zero_add] at hrest
    rcases comes_succ hc hw with ⟨hzero, hnot⟩ | ⟨w', hw', hc', hrest', hne⟩
    · have hl' : l = [C.byte p.next] := by rw [hl, Card.bytesFrom, if_neg hnot]
      rw [hl']
      refine ⟨_, ?_, Taken.single n⟩
      rw [exchange, List.flatMap_singleton]
      have hend : r.1 = 0 := hrest.trans hzero
      have h := byte_observes (C := C) cmdLen p
        (f := fun _ => do
          let value ← query .status
          let r ← waitLoop (1000000 - w) value
          if r.1 = 0 then pure (p.next + 1) else receive cmdLen left (p.next + 1) r.1 r.2)
        (Observes.query_bind rfl (hwait.bind (by rw [if_pos hend]; exact observes_pure)))
      rw [List.append_nil, List.append_nil] at h
      exact h
    · obtain ⟨p', hrun, htaken⟩ := ih { p.took C cmd cmdLen with polled := n } w' r.2 hc' hw'
        (hset (by rw [hrest]; exact hrest'.trans_ne hne))
      have hne' : r.1 ≠ 0 := by
        rw [hrest]
        exact hrest'.trans_ne hne
      have hbudget : r.1 = 1000000 - w' := hrest.trans hrest'
      rw [hl]
      refine ⟨p', ?_, htaken.cons⟩
      have h := byte_observes (C := C) cmdLen p
        (f := fun _ => do
          let value ← query .status
          let r ← waitLoop (1000000 - w) value
          if r.1 = 0 then pure (p.next + 1) else receive cmdLen left (p.next + 1) r.1 r.2)
        (Observes.query_bind rfl (hwait.bind (by rw [if_neg hne', hbudget]; exact hrun)))
      have hval : (if (C.byte p.next :: C.bytesFrom (left + 1) (p.next + 1)).length = left + 1 + 1
            then p.next + (left + 1) else p.next + (C.byte p.next :: C.bytesFrom (left + 1) (p.next + 1)).length) =
          if (C.bytesFrom (left + 1) (p.next + 1)).length = left + 1 then p.next + 1 + left
            else p.next + 1 + (C.bytesFrom (left + 1) (p.next + 1)).length := by
        rw [List.length_cons]
        split_ifs <;> omega
      rw [exchange, List.flatMap_cons, hval]
      exact h

/-! ### The whole exchange -/

/-- The status words of a command that is done: `90 00`, `61 xx`, `9F xx`. -/
def StatusOk (sw1 sw2 : Byte) : Prop := sw1 = 0x90 ∧ sw2 = 0x00 ∨ sw1 = 0x9f ∨ sw1 = 0x61

instance (sw1 sw2 : Byte) : Decidable (StatusOk sw1 sw2) := inferInstanceAs (Decidable (_ ∨ _))

theorem setWidth_eq_iff {b c : Byte} : (b.setWidth 32 : Word32) = c.setWidth 32 ↔ b = c := by
  refine ⟨fun h => ?_, fun h => h ▸ rfl⟩
  rw [← setWidth_byte b, h, setWidth_byte]

theorem before_eq {i n : ℕ} (hn : n ≤ i) (hi : i < 2 ^ 32) : before i n = i - n := by
  unfold before
  rw [BitVec.toNat_sub, BitVec.toNat_ofNat, BitVec.toNat_ofNat]
  omega

/-- The end of the function, when it looks at the status words. -/
theorem verdict_observes {last i : ℕ} (h2 : 2 ≤ i) (hlast : last ≤ i) (hi : i < 2 ^ 32) (p : Port) :
    Observes (portStep C cmd) seen (verdict last i) p p []
      (if StatusOk (p.rsp (i - 2)) (p.rsp (i - 1)) then 0 else -1) := by
  rw [verdict, if_neg (by omega), if_neg (by omega), before_eq h2 hi, before_eq (by omega) hi]
  apply Observes.query_bind rfl
  have h90 : (portStep C cmd p (.load (i - 2))).2 = 0x90 ↔ p.rsp (i - 2) = 0x90 := @setWidth_eq_iff _ 0x90
  have h9f : (portStep C cmd p (.load (i - 2))).2 = 0x9f ↔ p.rsp (i - 2) = 0x9f := @setWidth_eq_iff _ 0x9f
  have h61 : (portStep C cmd p (.load (i - 2))).2 = 0x61 ↔ p.rsp (i - 2) = 0x61 := @setWidth_eq_iff _ 0x61
  have h00 : (portStep C cmd p (.load (i - 1))).2 = 0x00 ↔ p.rsp (i - 1) = 0x00 := @setWidth_eq_iff _ 0x00
  by_cases hsw : p.rsp (i - 2) = 0x90
  · rw [if_pos (h90.mpr hsw)]
    apply Observes.query_bind rfl
    have hsame : (portStep C cmd p (.load (i - 2))).1 = p := rfl
    rw [hsame]
    by_cases hsw2 : p.rsp (i - 1) = 0x00
    · rw [if_pos (h00.mpr hsw2), if_pos (.inl ⟨hsw, hsw2⟩)]
      exact observes_pure
    · have hnot : ¬ StatusOk (p.rsp (i - 2)) (p.rsp (i - 1)) := by
        rintro (⟨-, h⟩ | h | h)
        · exact hsw2 h
        · rw [hsw] at h
          exact absurd h (by decide)
        · rw [hsw] at h
          exact absurd h (by decide)
      rw [if_neg (mt h00.mp hsw2), if_neg hnot]
      exact observes_pure
  · rw [if_neg (mt h90.mp hsw)]
    by_cases hmore : p.rsp (i - 2) = 0x9f ∨ p.rsp (i - 2) = 0x61
    · rw [if_pos (hmore.imp h9f.mpr h61.mpr), if_pos (.inr hmore)]
      exact observes_pure
    · have hnot : ¬ StatusOk (p.rsp (i - 2)) (p.rsp (i - 1)) := not_or.mpr ⟨fun h => hsw h.1, hmore⟩
      rw [if_neg fun h => hmore (h.imp h9f.mp h61.mp), if_neg hnot]
      exact observes_pure

theorem verdict_noCard {last i : ℕ} (h : i = 0 ∨ i < last) (p : Port) :
    Observes (portStep C cmd) seen (verdict last i) p p [] noCard := by
  unfold verdict
  by_cases h0 : i = 0
  · rw [if_pos h0]
    exact observes_pure
  · rw [if_neg h0, if_pos (h.resolve_left h0)]
    exact observes_pure

/-- Whether a command is a SELECT is seen from its second byte. -/
def headerLen (cmd : ℕ → Byte) (cmdLen : ℕ) : ℕ := if cmd 1 = 0xa4 then 5 else cmdLen

/-- The registers before the command is sent. -/
def prepared (rcvLen : Word32) (regs : Regs) : Regs :=
  let regs := writel 0x0 .resetCntl (writel 0x3 .resetCntl (writel 0x3 .enable regs))
  setBits (rcvLen &&& 0x1ff) .rcvThreshold (writel 0x1b9 .xmtStatus regs)

/-- The registers when the driver waits for the answer. -/
def sentRegs (cmd : ℕ → Byte) (cmdLen : ℕ) (rcvLen : Word32) (regs : Regs) : Regs :=
  writel 0xf23 .rcvStatus ((cmdBytes cmd 0 (headerLen cmd cmdLen)).foldl sendByte (prepared rcvLen regs))

/-- What passes the interface when the card answers with `l`. -/
def traffic (cmd : ℕ → Byte) (cmdLen : ℕ) (l : List Byte) : List Event :=
  (cmdBytes cmd 0 (headerLen cmd cmdLen)).map .tx ++ exchange cmd cmdLen l

/-- What is returned when `l` came of an answer of `n` bytes. -/
def result (n : ℕ) (l : List Byte) : ℤ :=
  if l.length < n - 1 then noCard
  else if StatusOk (l.getD (n - 3) 0) (l.getD (n - 2) 0) then 0
  else -1

theorem prepare_observes (rcvLen : Word32) (p : Port) :
    Observes (portStep C cmd) seen (prepare rcvLen) p { p with regs := prepared rcvLen p.regs } [] () := by
  unfold prepare
  iterate 6 apply Observes.query_bind rfl
  exact observes_pure

theorem length_bytesFrom_le : ∀ (n i : ℕ), (C.bytesFrom n i).length ≤ n
  | 0, _ => Nat.le_refl 0
  | n + 1, i => by
    unfold Card.bytesFrom
    by_cases hc : C.comes i = true
    · rw [if_pos hc, List.length_cons]
      exact Nat.succ_le_succ (length_bytesFrom_le n (i + 1))
    · rw [if_neg hc]
      exact Nat.zero_le _

theorem length_inTime_le (n : ℕ) : (C.inTime n).length ≤ n := length_bytesFrom_le n 0

theorem overlay_apply (rsp : ℕ → Byte) : ∀ (l : List Byte) (k j : ℕ),
    overlay rsp k l j = if j < k then rsp j else l.getD (j - k) (rsp j) := by
  intro l
  induction l generalizing rsp with
  | nil =>
    intro k j
    simp [overlay]
  | cons b l ih =>
    intro k j
    rw [overlay, ih]
    rcases Nat.lt_trichotomy j k with hlt | rfl | hgt
    · rw [if_pos (by omega), if_pos hlt, Function.update_of_ne hlt.ne]
    · rw [if_pos (by omega), if_neg (by omega), Function.update_self, Nat.sub_self]
      rfl
    · rw [if_neg (by omega), if_neg (by omega), Function.update_of_ne hgt.ne', show j - k = j - (k + 1) + 1 by omega]
      rfl

theorem overlay_zero (rsp : ℕ → Byte) {l : List Byte} {j : ℕ} (hj : j < l.length) :
    overlay rsp 0 l j = l.getD j 0 := by
  rw [overlay_apply, if_neg (Nat.not_lt_zero j), Nat.sub_zero, List.getD_eq_getElem _ _ hj, List.getD_eq_getElem _ _ hj]

theorem receive_of_not {value : Word32} (h : ¬ Received value) (cmdLen left i budget : ℕ) :
    receive cmdLen left i budget value = pure i := by
  cases left <;> rw [receive, if_neg h]

/-- Where the index stands at the end of the loop. -/
def stop (last : ℕ) (l : List Byte) : ℕ := if l.length = last + 1 then last else l.length

theorem exchangeLoop_observes (cmdLen : ℕ) (rcvLen : Word32) {p : Port} (hnext : p.next = 0) (hpolled : p.polled = 0) :
    let last := (rcvLen - 1).toNat
    let l := C.inTime (last + 1)
    ∃ p', Observes (portStep C cmd) seen (exchangeLoop cmdLen rcvLen) p p' (traffic cmd cmdLen l) (stop last l) ∧
      p'.rsp = overlay p.rsp 0 l ∧
      p'.regs = (l.flatMap (resent cmd cmdLen)).foldl sendByte (sentRegs cmd cmdLen rcvLen p.regs) := by
  intro last l
  let p₁ : Port := { p with regs := sentRegs cmd cmdLen rcvLen p.regs }
  -- the rounds of `bit_set_polling`, and the read after them
  obtain ⟨n, hpolling, hready⟩ := @bitSetPolling_observes C cmd _ seen (fun _ => rfl) p₁ hpolled
  let p₂ : Port := { p₁ with polled := n + 1 }
  let value := (portStep C cmd { p₁ with polled := n } .status).2
  have hnext₂ : p₂.next = 0 := hnext
  have hvalue : Received value ↔ C.comes 0 = true := by
    refine (received_status C _).trans ?_
    rw [hready, comes_zero_iff, show p₁.next = 0 from hnext]
  have hloop : ∀ {p' : Port} {es : List Event} {i : ℕ},
      Observes (portStep C cmd) seen (receive cmdLen last 0 1000000 value) p₂ p' es i →
        Observes (portStep C cmd) seen (exchangeLoop cmdLen rcvLen) p p'
          ((cmdBytes cmd 0 (headerLen cmd cmdLen)).map .tx ++ es) i := by
    intro p' es i h
    unfold exchangeLoop
    apply (prepare_observes rcvLen p).bind
    apply Observes.query_bind rfl
    have hins : (if (portStep C cmd { p with regs := prepared rcvLen p.regs } (.cmd 1)).2 = 0xa4 then 5 else cmdLen) =
        headerLen cmd cmdLen := if_congr (@setWidth_eq_iff _ 0xa4) rfl rfl
    rw [hins]
    apply (sendCmd_observes (headerLen cmd cmdLen) 0 _).bind
    apply Observes.query_bind rfl
    apply hpolling.bind
    exact Observes.query_bind rfl h
  by_cases hc : C.comes 0 = true
  · obtain ⟨p', hrun, htaken⟩ := @receive_observes C cmd cmdLen last p₂ 0 value
      (by rw [hnext₂]; exact hc) (by rw [hnext₂]; rfl) (hvalue.mpr hc)
    rw [hnext₂, Nat.zero_add, Nat.zero_add] at hrun
    have hrsp := htaken.rsp
    have hregs := htaken.regs
    rw [hnext₂] at hrsp hregs
    exact ⟨p', hloop hrun, hrsp, hregs⟩
  · have hl : l = [] := if_neg hc
    have hstop : stop last [] = 0 := if_neg (Nat.succ_ne_zero last).symm
    rw [hl, hstop]
    refine ⟨p₂, hloop ?_, rfl, rfl⟩
    rw [receive_of_not (mt hvalue.mp hc)]
    exact observes_pure

/-- `rcv_len - 1`, when that is no underflow. -/
theorem toNat_sub_one {rcvLen : Word32} (h : 1 ≤ rcvLen.toNat) : (rcvLen - 1).toNat = rcvLen.toNat - 1 := by
  have h1 : (1 : Word32).toNat = 1 := rfl
  have hlt := rcvLen.isLt
  rw [BitVec.toNat_sub, h1]
  omega

/-- A whole exchange, for an answer of three bytes or more. -/
theorem usimXfer_observes (cmdLen : ℕ) {rcvLen : Word32} (h3 : 3 ≤ rcvLen.toNat) {p : Port} (hnext : p.next = 0)
    (hpolled : p.polled = 0) :
    let l := C.inTime rcvLen.toNat
    ∃ p', Observes (portStep C cmd) seen (usimXfer cmdLen rcvLen) p p' (traffic cmd cmdLen l)
        (result rcvLen.toNat l) ∧
      p'.rsp = overlay p.rsp 0 l ∧
      p'.regs = (l.flatMap (resent cmd cmdLen)).foldl sendByte (sentRegs cmd cmdLen rcvLen p.regs) := by
  intro l
  have hlt := rcvLen.isLt
  have hle : l.length ≤ rcvLen.toNat := length_inTime_le _
  obtain ⟨p', hloop, hrsp, hregs⟩ := exchangeLoop_observes (C := C) cmdLen rcvLen hnext hpolled
  rw [toNat_sub_one (by omega), Nat.sub_add_cancel (by omega)] at hloop hrsp hregs
  change p'.rsp = overlay p.rsp 0 l at hrsp
  refine ⟨p', ?_, hrsp, hregs⟩
  rw [← List.append_nil (traffic cmd cmdLen l), usimXfer, toNat_sub_one (by omega)]
  apply hloop.bind
  change Observes _ _ (verdict (rcvLen.toNat - 1) (stop (rcvLen.toNat - 1) l)) _ _ _ (result rcvLen.toNat l)
  unfold result stop
  by_cases hshort : l.length < rcvLen.toNat - 1
  · rw [if_neg (by omega), if_pos hshort]
    exact verdict_noCard (.inr hshort) p'
  · have hi : (if l.length = rcvLen.toNat - 1 + 1 then rcvLen.toNat - 1 else l.length) = rcvLen.toNat - 1 := by
      split_ifs <;> omega
    have hsw1 : p'.rsp (rcvLen.toNat - 1 - 2) = l.getD (rcvLen.toNat - 3) 0 := by
      rw [hrsp, overlay_zero _ (by omega), Nat.sub_sub]
    have hsw2 : p'.rsp (rcvLen.toNat - 1 - 1) = l.getD (rcvLen.toNat - 2) 0 := by
      rw [hrsp, overlay_zero _ (by omega), Nat.sub_sub]
    rw [hi, if_neg hshort, ← hsw1, ← hsw2]
    exact verdict_observes (by omega) (Nat.le_refl _) (by omega) p'

/-! ### The exchange that the protocol wants -/

/-- What the driver sends, -/
def txBytes (es : List Event) : List Byte :=
  es.filterMap fun
    | .tx b => some b
    | .rx _ => none

/-- and what it receives. -/
def rxBytes (es : List Event) : List Byte :=
  es.filterMap fun
    | .tx _ => none
    | .rx b => some b

/-- The exchange of a command for an answer of `n` bytes, by what passed the
interface, what was returned and what the buffer holds. -/
structure Conforms (cmd : ℕ → Byte) (cmdLen n : ℕ) (es : List Event) (ret : ℤ) (rsp : ℕ → Byte) : Prop where
  /-- every byte of the command is sent once, in order; -/
  once : txBytes es = cmdBytes cmd 0 cmdLen
  /-- those behind the header of a SELECT after the procedure byte; -/
  select : cmd 1 = 0xa4 → ∀ es₁ b es₂, es = es₁ ++ .tx b :: es₂ → 5 ≤ (txBytes es₁).length → .rx 0xa4 ∈ es₁
  /-- what is not "no card" is for the whole answer, and that is in the buffer; -/
  whole : ret ≠ noCard → (rxBytes es).length = n ∧ ∀ i < n, (rxBytes es)[i]? = some (rsp i)
  /-- and it is success for the right status words. -/
  status : ∀ l sw1 sw2, l.length + 2 = n → rxBytes es = l ++ [sw1, sw2] → (ret = 0 ↔ StatusOk sw1 sw2)

/-- The answers for which the driver conforms: the procedure byte comes once for a
SELECT and is no byte of another answer, unless there is nothing behind the header; not
just the last byte is missing; and the last byte does not change what the two
before it say. -/
structure Regular (cmd : ℕ → Byte) (cmdLen n : ℕ) (l : List Byte) : Prop where
  procedure : cmdLen = 5 ∨ l.count 0xa4 = if cmd 1 = 0xa4 then 1 else 0
  last : l.length ≠ n - 1
  words : l.length = n →
    (StatusOk (l.getD (n - 3) 0) (l.getD (n - 2) 0) ↔ StatusOk (l.getD (n - 2) 0) (l.getD (n - 1) 0))

theorem txBytes_append (es es' : List Event) : txBytes (es ++ es') = txBytes es ++ txBytes es' := List.filterMap_append

theorem rxBytes_append (es es' : List Event) : rxBytes (es ++ es') = rxBytes es ++ rxBytes es' := List.filterMap_append

theorem txBytes_map_tx (l : List Byte) : txBytes (l.map .tx) = l := by
  rw [txBytes, List.filterMap_map]
  exact List.filterMap_some

theorem rxBytes_map_tx (l : List Byte) : rxBytes (l.map .tx) = [] := by
  rw [rxBytes, List.filterMap_map]
  exact List.filterMap_none l

theorem exchange_cons (cmdLen : ℕ) (b : Byte) (l : List Byte) :
    exchange cmd cmdLen (b :: l) = [.rx b] ++ ((resent cmd cmdLen b).map .tx ++ exchange cmd cmdLen l) := rfl

theorem txBytes_exchange (cmdLen : ℕ) (l : List Byte) :
    txBytes (exchange cmd cmdLen l) = l.flatMap (resent cmd cmdLen) := by
  induction l with
  | nil => rfl
  | cons b l ih =>
    rw [exchange_cons, txBytes_append, txBytes_append, txBytes_map_tx, ih]
    rfl

theorem rxBytes_exchange (cmdLen : ℕ) (l : List Byte) : rxBytes (exchange cmd cmdLen l) = l := by
  induction l with
  | nil => rfl
  | cons b l ih =>
    rw [exchange_cons, rxBytes_append, rxBytes_append, rxBytes_map_tx, ih]
    rfl

theorem rxBytes_traffic (cmdLen : ℕ) (l : List Byte) : rxBytes (traffic cmd cmdLen l) = l := by
  rw [traffic, rxBytes_append, rxBytes_map_tx, rxBytes_exchange]
  rfl

theorem cmdBytes_append (k m n : ℕ) : cmdBytes cmd k m ++ cmdBytes cmd (k + m) n = cmdBytes cmd k (m + n) := by
  rw [cmdBytes, cmdBytes, cmdBytes, ← List.map_append, List.range'_append_1]

theorem length_cmdBytes (k n : ℕ) : (cmdBytes cmd k n).length = n := by
  rw [cmdBytes, List.length_map, List.length_range']

/-- Once more for every procedure byte. -/
theorem length_flatMap_resent (cmdLen : ℕ) (l : List Byte) :
    (l.flatMap (resent cmd cmdLen)).length = l.count 0xa4 * (cmdLen - 5) := by
  induction l with
  | nil => simp
  | cons b l ih =>
    rw [List.flatMap_cons, List.length_append, ih, List.count_cons, resent]
    by_cases hb : b = 0xa4
    · rw [if_pos hb, length_cmdBytes, if_pos (beq_iff_eq.mpr hb)]
      ring
    · rw [if_neg hb, if_neg (by simpa using hb)]
      simp

theorem flatMap_resent_of_count_one {cmdLen : ℕ} {l : List Byte} (h : l.count 0xa4 = 1) :
    l.flatMap (resent cmd cmdLen) = cmdBytes cmd 5 (cmdLen - 5) := by
  induction l with
  | nil => simp at h
  | cons b l ih =>
    rw [List.flatMap_cons, resent]
    by_cases hb : b = 0xa4
    · have hzero : l.count 0xa4 = 0 := by
        rw [List.count_cons, if_pos (beq_iff_eq.mpr hb)] at h
        omega
      have hrest : l.flatMap (resent cmd cmdLen) = [] := by
        apply List.length_eq_zero_iff.mp
        rw [length_flatMap_resent, hzero, Nat.zero_mul]
      rw [if_pos hb, hrest, List.append_nil]
    · rw [if_neg hb, List.nil_append]
      apply ih
      rwa [List.count_cons, if_neg (by simpa using hb), Nat.add_zero] at h

/-- The command is sent once. -/
theorem once_iff {cmdLen : ℕ} (h5 : 5 ≤ cmdLen) (l : List Byte) :
    txBytes (traffic cmd cmdLen l) = cmdBytes cmd 0 cmdLen ↔
      cmdLen = 5 ∨ l.count 0xa4 = if cmd 1 = 0xa4 then 1 else 0 := by
  rw [traffic, txBytes_append, txBytes_map_tx, txBytes_exchange, headerLen]
  have hlen := @length_flatMap_resent cmd cmdLen l
  by_cases hsel : cmd 1 = 0xa4
  · rw [if_pos hsel, if_pos hsel]
    have hsplit : cmdBytes cmd 0 cmdLen = cmdBytes cmd 0 5 ++ cmdBytes cmd 5 (cmdLen - 5) := by
      have h := @cmdBytes_append cmd 0 5 (cmdLen - 5)
      rw [Nat.zero_add, Nat.add_sub_cancel' h5] at h
      exact h.symm
    rw [hsplit, List.append_cancel_left_eq]
    constructor
    · intro h
      rw [h, length_cmdBytes] at hlen
      rcases Nat.eq_zero_or_pos (cmdLen - 5) with h0 | hpos
      · exact .inl (by omega)
      · refine .inr (Nat.eq_of_mul_eq_mul_right hpos ?_)
        rw [← hlen, Nat.one_mul]
    · rintro (rfl | h1)
      · have h0 : cmdBytes cmd 5 (5 - 5) = [] := rfl
        rw [h0]
        exact List.length_eq_zero_iff.mp hlen
      · exact flatMap_resent_of_count_one h1
  · rw [if_neg hsel, if_neg hsel, List.append_right_eq_self, ← List.length_eq_zero_iff, hlen, Nat.mul_eq_zero]
    omega

/-- Behind what is received, nothing is sent but after a procedure byte. -/
theorem procedure_of_exchange {cmdLen : ℕ} {b : Byte} {es₂ : List Event} : ∀ (l : List Byte) (es₁ : List Event),
    exchange cmd cmdLen l = es₁ ++ .tx b :: es₂ → .rx 0xa4 ∈ es₁ := by
  intro l
  induction l with
  | nil =>
    intro es₁ h
    simp [exchange] at h
  | cons c l ih =>
    intro es₁ h
    rw [exchange_cons, List.singleton_append] at h
    rcases List.cons_eq_append_iff.mp h with ⟨-, habs⟩ | ⟨es, rfl, htail⟩
    · cases habs
    · by_cases hc : c = 0xa4
      · rw [hc]
        exact List.mem_cons_self
      · rw [resent, if_neg hc, List.map_nil, List.nil_append] at htail
        exact List.mem_cons_of_mem _ (ih es htail)

theorem select_traffic {cmdLen : ℕ} (l : List Byte) (hsel : cmd 1 = 0xa4) {es₁ : List Event} {b : Byte}
    {es₂ : List Event} (h : traffic cmd cmdLen l = es₁ ++ .tx b :: es₂) (h5 : 5 ≤ (txBytes es₁).length) :
    .rx 0xa4 ∈ es₁ := by
  rw [traffic, headerLen, if_pos hsel] at h
  rcases List.append_eq_append_iff.mp h with ⟨es, rfl, hrest⟩ | ⟨es, hheader, hrest⟩
  · exact List.mem_append_right _ (procedure_of_exchange l es hrest)
  · -- the header has no more than five bytes
    have hlen : (es₁ ++ es).length = 5 := by
      rw [← hheader, List.length_map, length_cmdBytes]
    have hle : (txBytes es₁).length ≤ es₁.length := List.length_filterMap_le _ _
    have hes : es = [] := by
      apply List.length_eq_zero_iff.mp
      rw [List.length_append] at hlen
      omega
    rw [hes, List.nil_append] at hrest
    exact absurd (procedure_of_exchange l [] hrest.symm) List.not_mem_nil

theorem result_ne_noCard_iff (n : ℕ) (l : List Byte) : result n l ≠ noCard ↔ n - 1 ≤ l.length := by
  unfold result
  by_cases hshort : l.length < n - 1
  · rw [if_pos hshort]
    exact iff_of_false (fun h => h rfl) (by omega)
  · rw [if_neg hshort]
    refine iff_of_true ?_ (by omega)
    split_ifs <;> decide

/-- What is returned for a whole answer. -/
theorem result_eq_zero_iff {n : ℕ} {l : List Byte} (h : l.length = n) :
    result n l = 0 ↔ StatusOk (l.getD (n - 3) 0) (l.getD (n - 2) 0) := by
  unfold result
  rw [if_neg (by omega)]
  by_cases hok : StatusOk (l.getD (n - 3) 0) (l.getD (n - 2) 0)
  · rw [if_pos hok]
    exact iff_of_true rfl hok
  · rw [if_neg hok]
    exact iff_of_false (by decide) hok

/-- The last two bytes of an answer. -/
theorem eq_append_pair {n : ℕ} {l : List Byte} (h2 : 2 ≤ n) (h : l.length = n) :
    l = l.take (n - 2) ++ [l.getD (n - 2) 0, l.getD (n - 1) 0] := by
  have hdrop : l.drop (n - 2) = [l.getD (n - 2) 0, l.getD (n - 1) 0] := by
    rw [List.drop_eq_getElem_cons (by omega), List.drop_eq_getElem_cons (by omega), List.drop_of_length_le (by omega),
      List.getD_eq_getElem _ _ (by omega), List.getD_eq_getElem _ _ (by omega)]
    congr 3
    omega
  rw [← hdrop, List.take_append_drop]

theorem conforms_iff {cmdLen n : ℕ} {l : List Byte} (rsp : ℕ → Byte) (h5 : 5 ≤ cmdLen) (h3 : 3 ≤ n)
    (hle : l.length ≤ n) :
    Conforms cmd cmdLen n (traffic cmd cmdLen l) (result n l) (overlay rsp 0 l) ↔ Regular cmd cmdLen n l := by
  constructor
  · intro h
    have hlast : l.length ≠ n - 1 := by
      intro hlen
      have hwhole := (h.whole ((result_ne_noCard_iff n l).mpr hlen.ge)).1
      rw [rxBytes_traffic] at hwhole
      omega
    refine ⟨(once_iff h5 l).mp h.once, hlast, fun hlen => ?_⟩
    have hsplit := eq_append_pair (by omega) hlen
    rw [← result_eq_zero_iff hlen]
    apply h.status (l.take (n - 2))
    · rw [List.length_take]
      omega
    · rw [rxBytes_traffic]
      exact hsplit
  · intro h
    refine ⟨(once_iff h5 l).mpr h.procedure, fun hsel _ _ _ => select_traffic l hsel, fun hret => ?_, ?_⟩
    · have hlen : l.length = n := by
        have hge := (result_ne_noCard_iff n l).mp hret
        have hne := h.last
        omega
      rw [rxBytes_traffic]
      refine ⟨hlen, fun i hi => ?_⟩
      rw [overlay_zero rsp (by omega), List.getD_eq_getElem _ _ (by omega), List.getElem?_eq_getElem (by omega)]
    · intro init sw1 sw2 hinit hrx
      rw [rxBytes_traffic] at hrx
      have hlen : l.length = n := by rw [hrx, List.length_append, ← hinit]; rfl
      have hsw1 : l.getD (n - 2) 0 = sw1 := by
        rw [hrx, ← hinit, Nat.add_sub_cancel, List.getD_append_right _ _ _ _ (Nat.le_refl _), Nat.sub_self]
        rfl
      have hsw2 : l.getD (n - 1) 0 = sw2 := by
        rw [hrx, ← hinit, show init.length + 2 - 1 = init.length + 1 by omega,
          List.getD_append_right _ _ _ _ (Nat.le_add_right _ 1), Nat.add_sub_cancel_left]
        rfl
      rw [result_eq_zero_iff hlen, h.words hlen, hsw1, hsw2]

end Runs

/-- An exchange, from where the receiver has not been looked at yet. -/
def exchanged (C : Card) (cmd : ℕ → Byte) (cmdLen : ℕ) (rcvLen : Word32) (p : Port) :
    Outcome Port Query Word32 ℤ :=
  run (portStep C cmd) (usimXfer cmdLen rcvLen) { p with next := 0, polled := 0 }

section Exchanged

variable (C : Card) (cmd : ℕ → Byte) (cmdLen : ℕ) {rcvLen : Word32}

theorem exchanged_eq (h3 : 3 ≤ rcvLen.toNat) (p : Port) :
    (exchanged C cmd cmdLen rcvLen p).val = some (result rcvLen.toNat (C.inTime rcvLen.toNat)) ∧
      (exchanged C cmd cmdLen rcvLen p).log.filterMap seen = traffic cmd cmdLen (C.inTime rcvLen.toNat) ∧
      (exchanged C cmd cmdLen rcvLen p).state.rsp = overlay p.rsp 0 (C.inTime rcvLen.toNat) := by
  obtain ⟨p', hrun, hrsp, -⟩ := usimXfer_observes (C := C) cmdLen h3
    (p := { p with next := 0, polled := 0 }) rfl rfl
  obtain ⟨hstate, hlog, hval⟩ := hrun.run_eq
  exact ⟨hval, hlog, hstate ▸ hrsp⟩

/-- The bytes of a command that is a list. -/
theorem cmdBytes_getD (l : List Byte) {k n : ℕ} (h : k + n ≤ l.length) :
    cmdBytes (l.getD · 0) k n = (l.drop k).take n := by
  apply List.ext_getElem
  · rw [length_cmdBytes, List.length_take, List.length_drop]
    omega
  · intro i hi _
    rw [length_cmdBytes] at hi
    simp only [cmdBytes, List.getElem_map, List.getElem_range', List.getElem_take, List.getElem_drop, Nat.one_mul]
    exact List.getD_eq_getElem _ _ (by omega)

/-- The rest of the command, once for every procedure byte. -/
theorem foldl_flatMap_resent (l rcv : List Byte) (h5 : 5 ≤ l.length) (regs : Regs) :
    (rcv.flatMap (resent (l.getD · 0) l.length)).foldl sendByte regs =
      (rcv.filter (· = 0xa4)).foldl (fun regs _ => (l.drop 5).foldl sendByte regs) regs := by
  induction rcv generalizing regs with
  | nil => rfl
  | cons b rcv ih =>
    rw [List.flatMap_cons, List.foldl_append, ih, resent]
    by_cases hb : b = 0xa4
    · rw [if_pos hb, List.filter_cons_of_pos (by simpa using hb), List.foldl_cons, cmdBytes_getD l (by omega),
        List.take_of_length_le (by rw [List.length_drop])]
    · rw [if_neg hb, List.filter_cons_of_neg (by simpa using hb)]
      rfl

theorem usimXferRet_eq {n : ℕ} (h3 : 3 ≤ n) {l : List Byte} (hle : l.length ≤ n) (beyond : Byte) :
    usimXferRet (n - 1) l beyond = result n l := by
  have hi : (if l.length = n - 1 + 1 then n - 1 else l.length) = if l.length < n - 1 then l.length else n - 1 := by
    split_ifs <;> omega
  unfold usimXferRet result
  rw [hi]
  by_cases hshort : l.length < n - 1
  · rw [if_pos hshort, if_pos hshort]
    dsimp only
    rw [if_pos hshort, ite_self]
  · have h0 : n - 1 ≠ 0 := by omega
    have h1 : n - 1 ≠ 1 := by omega
    rw [if_neg hshort, if_neg hshort]
    dsimp only
    rw [if_neg h0, if_neg (Nat.lt_irrefl _), if_neg h1, Nat.sub_sub, Nat.sub_sub]
    by_cases h90 : l.getD (n - 3) 0 = 0x90 ∧ l.getD (n - 2) 0 = 0x00
    · have hok : StatusOk (l.getD (n - 3) 0) (l.getD (n - 2) 0) := .inl h90
      rw [if_pos h90, if_pos hok]
    · rw [if_neg h90]
      exact if_congr (or_iff_right h90).symm rfl rfl

/-- What the summary of the exchange in `Ioctl` says of the registers and of the value. -/
theorem exchanged_summary (d : Dev) (l : List Byte) (h5 : 5 ≤ l.length) {rcvLength : ℤ}
    (h3 : 3 ≤ (BitVec.ofInt 32 rcvLength).toNat) (beyond : Byte) (rsp : ℕ → Byte) :
    let out := exchanged C (l.getD · 0) l.length (BitVec.ofInt 32 rcvLength) ⟨d.regs, 0, 0, rsp⟩
    let sum := Sim.usimXfer d l rcvLength (C.inTime (BitVec.ofInt 32 rcvLength).toNat) beyond
    out.val = some sum.2 ∧ out.state.regs = sum.1.regs := by
  intro out sum
  obtain ⟨p', hrun, -, hregs⟩ := usimXfer_observes (C := C) l.length h3
    (p := ⟨d.regs, 0, 0, rsp⟩) rfl rfl
  obtain ⟨hstate, -, hval⟩ := hrun.run_eq
  have hlast := @toNat_sub_one (BitVec.ofInt 32 rcvLength) (by omega)
  have hle := length_inTime_le (C := C) (BitVec.ofInt 32 rcvLength).toNat
  have htake : (C.inTime (BitVec.ofInt 32 rcvLength).toNat).take ((BitVec.ofInt 32 rcvLength - 1).toNat + 1) =
      C.inTime (BitVec.ofInt 32 rcvLength).toNat := List.take_of_length_le (by omega)
  constructor
  · show (exchanged _ _ _ _ _).val = some (usimXferRet _ _ _)
    rw [htake, hlast, usimXferRet_eq h3 hle]
    exact hval
  · show (exchanged _ _ _ _ _).state.regs = _
    have hheader : cmdBytes (l.getD · 0) 0 (headerLen (l.getD · 0) l.length) =
        if l.getD 1 0 = 0xa4 then l.take 5 else l := by
      unfold headerLen
      split_ifs
      · exact cmdBytes_getD l (by omega)
      · rw [cmdBytes_getD l (by omega), List.drop_zero, List.take_length]
    rw [exchanged, hstate, hregs, foldl_flatMap_resent l _ h5, sentRegs, hheader]
    simp only [sum, Sim.usimXfer, htake]
    rfl

end Exchanged

/-- The driver conforms for the regular answers, and for no others. -/
theorem xfer_conforms_iff (C : Card) (cmd : ℕ → Byte) {cmdLen : ℕ} {rcvLen : Word32} (h5 : 5 ≤ cmdLen)
    (h3 : 3 ≤ rcvLen.toNat) (p : Port) :
    (∃ ret, (exchanged C cmd cmdLen rcvLen p).val = some ret ∧
      Conforms cmd cmdLen rcvLen.toNat ((exchanged C cmd cmdLen rcvLen p).log.filterMap seen) ret
        (exchanged C cmd cmdLen rcvLen p).state.rsp) ↔
      Regular cmd cmdLen rcvLen.toNat (C.inTime rcvLen.toNat) := by
  obtain ⟨hval, hlog, hrsp⟩ := exchanged_eq C cmd cmdLen h3 p
  rw [hval, hlog, hrsp]
  constructor
  · rintro ⟨ret, hret, hconf⟩
    rw [← Option.some.inj hret] at hconf
    exact (conforms_iff p.rsp h5 h3 (length_inTime_le _)).mp hconf
  · intro hreg
    exact ⟨_, rfl, (conforms_iff p.rsp h5 h3 (length_inTime_le _)).mpr hreg⟩

/-- A card that answers `l` at once. -/
def Card.prompt (l : List Byte) : Card where
  byte i := l.getD i 0
  delay i := if i < l.length then some 0 else none

/-- A SELECT, -/
def selectFile (i : ℕ) : Byte := [0xa0, 0xa4, 0x00, 0x00, 0x02, 0x6f, 0x07].getD i 0

/-- and the answer of a card without the file: the procedure byte and the status words. -/
def notFound : List Byte := [0xa4, 0x94, 0x04]

theorem xfer_conforms_iff_select :
    5 ≤ 7 ∧ 3 ≤ (3 : Word32).toNat ∧
      ∃ ret, (exchanged (.prompt notFound) selectFile 7 3 ⟨fun _ => 0, 0, 0, fun _ => 0⟩).val = some ret ∧
        Conforms selectFile 7 (3 : Word32).toNat
          ((exchanged (.prompt notFound) selectFile 7 3 ⟨fun _ => 0, 0, 0, fun _ => 0⟩).log.filterMap seen) ret
          (exchanged (.prompt notFound) selectFile 7 3 ⟨fun _ => 0, 0, 0, fun _ => 0⟩).state.rsp :=
  ⟨by decide, by decide,
    (xfer_conforms_iff _ _ (by decide) (by decide) _).mpr ⟨by decide, by decide, fun _ => by decide⟩⟩

/-- A READ BINARY of two bytes, -/
def readBinary (i : ℕ) : Byte := [0xa0, 0xb0, 0x00, 0x00, 0x02].getD i 0

/-- and the answer of the card. -/
def readAnswer : List Byte := [0xb0, 0x11, 0x22, 0x90, 0x00]

/-- The card reports success, and the driver an error. -/
theorem readBinary_error :
    let out := exchanged (.prompt readAnswer) readBinary 5 5 ⟨fun _ => 0, 0, 0, fun _ => 0⟩
    rxBytes (out.log.filterMap seen) = [0xb0, 0x11, 0x22, 0x90, 0x00] ∧ out.val = some (-1) ∧
      ¬ ∃ ret, out.val = some ret ∧ Conforms readBinary 5 5 (out.log.filterMap seen) ret out.state.rsp := by
  intro out
  obtain ⟨hval, hlog, hrsp⟩ := @exchanged_eq (.prompt readAnswer) readBinary 5 5 (by decide)
    ⟨fun _ => 0, 0, 0, fun _ => 0⟩
  have hin : (Card.prompt readAnswer).inTime 5 = readAnswer := by decide
  have hrx : rxBytes (out.log.filterMap seen) = readAnswer := by
    rw [hlog, rxBytes_traffic]
    exact hin
  have hret : out.val = some (-1) := by
    rw [hval]
    decide
  refine ⟨hrx, hret, ?_⟩
  rintro ⟨ret, h, hconf⟩
  have hok := hconf.status [0xb0, 0x11, 0x22] 0x90 0x00 rfl hrx
  rw [hret] at h
  rw [← Option.some.inj h] at hok
  exact absurd (hok.mpr (.inl ⟨rfl, rfl⟩)) (by decide)

end Transfer
end Sim
end La12xx
