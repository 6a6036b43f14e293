/-
# The buffers of the SIM driver

`SIM_IOCTL_XFER` and the reading of the answer to reset in `gul_usim.c`, as the accesses
they make: what is written of the state of the transfer, what `usim_xfer` reads of the
command and where it stores, what goes back to the user, and where the bytes of the
answer to reset are put.

The lengths are looked at after the copies, `usim_xfer` looks at the second byte of every
command, and `sim_init` counts no bytes: `respects_iff_fits` says for which requests and
which cards all stays inside.
-/
import La12xx.Sim.Transfer

namespace La12xx
namespace Sim
namespace XferBounds

open ByteMem Dialogue Transfer

/-! ### The ioctl -/

/-- How a copy between the user and the driver ends; one that fails may have copied
something. -/
inductive Copy where
  | done
  | failed (copied : ℕ)
deriving DecidableEq, Repr

/-- What an XFER request finds: the user's structure, `sim->xmt_buffer` after the copy, and
how the copies end. -/
structure Request where
  type : Word32
  xmtLength : Word32
  rcvLength : Word32
  xmt : ℕ → Byte
  copiedXfer : Bool
  copyXmt : Copy
  copyRcv : Copy
  copiedBack : Bool

/-- An access of the ioctl. -/
inductive Access where
  /-- `sim->xfer` is written; what cannot be copied of it is padded. -/
  | xfer
  /-- the first `n` bytes of `sim->xmt_buffer` -/
  | xmt (n : ℕ)
  /-- `sim->rcv_count`, `sim->xfer.sw1` and `sim->xfer.sw2` -/
  | counters
  /-- `sim->state` -/
  | state (v : SimState)
  /-- an access of `usim_xfer` -/
  | card (q : Query)
  /-- the first `n` bytes of `sim->rcv_buffer`, to the user -/
  | copyOut (n : ℕ)
deriving DecidableEq, Repr

/-- An `int32_t` as a `size_t`. -/
def size (v : Word32) : ℕ := (v.signExtend 64).toNat

section Ioctl

variable (req : Request) (C : Card) (p : Port)

/-- The exchange of the request. -/
def Request.exchanged : Outcome Port Query Word32 ℤ :=
  Transfer.exchanged C req.xmt req.xmtLength.toNat req.rcvLength p

/-- `SIM_IOCTL_XFER` from the call of `usim_xfer` on -/
def xferTransfer : List Access × ℤ :=
  let out := req.exchanged C p
  let as := out.log.map fun e => .card e.1
  let errval := if out.val = some noCard then -9 else 0
  match req.copyRcv with
  | .failed n => (as ++ [.copyOut n], -1)
  | .done => (as ++ [.copyOut (size req.rcvLength)], if req.copiedBack then errval else -1)

/-- `SIM_IOCTL_XFER` from the checks of the lengths on; `state` is what was set before. -/
def xferLengths (state : SimState) : List Access × ℤ :=
  if 256 < req.xmtLength.toInt then ([.state state], -5)
  else if 256 < req.rcvLength.toInt then ([.state state], -6)
  else (.state state :: (xferTransfer req C p).1, (xferTransfer req C p).2)

/-- `SIM_IOCTL_XFER` from the check of the type on -/
def xferType : List Access × ℤ :=
  if req.type = 0 then
    if req.xmtLength.toInt < 5 then ([], -2) else xferLengths req C p .operationalCommand
  else if req.type = 1 then
    if req.xmtLength = 0 then ([], -3) else xferLengths req C p .operationalPpss
  else ([], -4)

/-- `SIM_IOCTL_XFER`: the accesses, and what is returned. -/
def ioctlXfer (present : Present) : List Access × ℤ :=
  if present ≠ .operational ∧ present ≠ .detected then ([], -9)
  else if ¬ req.copiedXfer then ([.xfer], -1)
  else
    match req.copyXmt with
    | .failed n => ([.xfer, .xmt n], -1)
    | .done =>
      (.xfer :: .xmt (size req.xmtLength) :: .counters :: (xferType req C p).1, (xferType req C p).2)

end Ioctl

/-! ### The answer to reset -/

/-- `sim_atr_add`; the value is the size afterwards. -/
def simAtrAdd (size : ℕ) (b : Byte) : Driver ℕ :=
  if size < 32 then do
    let _ ← query (.simAtr size b)
    pure (size + 1)
  else pure size

/-- The loop of `sim_init` that reads the answer to reset, for `rounds` bytes at most. -/
def atrLoop : ℕ → ℕ → ℕ → Word32 → Driver Unit
  | 0, _, _, _ => pure ()
  | rounds + 1, j, size, value =>
    if Received value then do
      let v ← query .recv
      let _ ← query (.atr j v)
      let size ← simAtrAdd size (v.setWidth 8)
      let value ← query .status
      let r ← waitLoop 1000000 value
      if r.1 = 0 then pure () else atrLoop rounds (j + 1) size r.2
    else pure ()

/-- `sim_init` from the wait for the answer to reset on -/
def readAtr (rounds : ℕ) : Driver Unit := do
  bitSetPolling
  let value ← query .status
  atrLoop rounds 0 0 value

/-! ### What is asked -/

section Asks

variable {P : Query → Prop}

theorem asks_pollLoop (h : P .status) : ∀ (left : ℕ) (value : Word32), Asks P (pollLoop left value) := by
  intro left
  induction left with
  | zero =>
    intro value
    unfold pollLoop
    split_ifs
    · trivial
    · exact ⟨h, fun _ => trivial⟩
  | succ left ih =>
    intro value
    unfold pollLoop
    split_ifs
    · trivial
    · exact ⟨h, fun r => ih r⟩

theorem asks_bitSetPolling (h : P .status) : Asks P bitSetPolling := ⟨h, fun r => asks_pollLoop h _ r⟩

theorem asks_waitLoop (h : P .status) : ∀ (budget : ℕ) (value : Word32), Asks P (waitLoop budget value) := by
  intro budget
  induction budget with
  | zero => exact fun _ => trivial
  | succ budget ih =>
    intro value
    unfold waitLoop
    split_ifs
    · trivial
    · exact ⟨h, fun r => ih r⟩

/-- The command is read below `cmdLen`, and the buffer for the answer indexed below `rcvLen`. -/
def InRange (cmdLen rcvLen : ℕ) : Query → Prop
  | .cmd i => i < cmdLen
  | .store i _ => i < rcvLen
  | .load i => i < rcvLen
  | _ => True

variable {cmdLen rcvLen : ℕ}

theorem asks_sendCmd : ∀ {n k : ℕ}, k + n ≤ cmdLen → Asks (InRange cmdLen rcvLen) (sendCmd k n) := by
  intro n
  induction n with
  | zero => exact fun _ => trivial
  | succ n ih =>
    intro k h
    have hk : k < cmdLen := by omega
    exact ⟨hk, fun _ => ⟨trivial, fun _ => ih (by omega)⟩⟩

theorem asks_resend (b : Byte) : Asks (InRange cmdLen rcvLen) (resend cmdLen b) := by
  unfold resend
  split_ifs
  · by_cases h : 5 ≤ cmdLen
    · exact asks_sendCmd (by omega)
    · rw [Nat.sub_eq_zero_of_le (by omega)]
      trivial
  · trivial

theorem asks_receive : ∀ (left : ℕ) {i : ℕ} (budget : ℕ) (value : Word32), i + left < rcvLen →
    Asks (InRange cmdLen rcvLen) (receive cmdLen left i budget value) := by
  intro left
  induction left with
  | zero =>
    intro i budget value h
    unfold receive
    split_ifs
    · refine asks_query_bind trivial fun v => asks_query_bind h fun _ => asks_bind (asks_resend _) fun _ => ?_
      trivial
    · trivial
  | succ left ih =>
    intro i budget value h
    have hi : i < rcvLen := by omega
    unfold receive
    split_ifs
    · refine asks_query_bind trivial fun v => asks_query_bind hi fun _ => asks_bind (asks_resend _) fun _ => ?_
      refine asks_query_bind trivial fun value => asks_bind (asks_waitLoop trivial _ _) fun r => ?_
      split_ifs
      · trivial
      · exact ih _ _ (by omega)
    · trivial

theorem yields_trivial {α : Type} : ∀ m : Driver α, Yields (fun _ => True) m
  | .done _ => trivial
  | .ask _ k => fun r => yields_trivial (k r)
  | .fault => trivial

/-- The index is not past the last byte when the loop ends. -/
theorem yields_receive (cmdLen : ℕ) : ∀ (left i budget : ℕ) (value : Word32),
    Yields (· ≤ i + left) (receive cmdLen left i budget value) := by
  intro left
  induction left with
  | zero =>
    intro i budget value
    unfold receive
    split_ifs
    · refine yields_query_bind _ fun v => yields_query_bind _ fun _ => yields_bind (yields_trivial _) fun _ _ => ?_
      exact Nat.le_refl i
    · exact Nat.le_refl i
  | succ left ih =>
    intro i budget value
    unfold receive
    split_ifs
    · refine yields_query_bind _ fun v => yields_query_bind _ fun _ => yields_bind (yields_trivial _) fun _ _ => ?_
      refine yields_query_bind _ fun value => yields_bind (yields_trivial _) fun r _ => ?_
      split_ifs
      · show i + 1 ≤ i + (left + 1)
        omega
      · rw [← Nat.add_assoc, Nat.add_right_comm]
        exact ih _ _ _
    · exact Nat.le_add_right i _

theorem asks_verdict {i : ℕ} (h3 : 3 ≤ rcvLen) (hlt : rcvLen < 2 ^ 32) (hi : i ≤ rcvLen - 1) :
    Asks (InRange cmdLen rcvLen) (verdict (rcvLen - 1) i) := by
  unfold verdict
  split_ifs with h0 hshort
  · trivial
  · trivial
  · have h2 : before i 2 < rcvLen := by
      rw [before_eq (by omega) (by omega)]
      omega
    have h1 : before i 1 < rcvLen := by
      rw [before_eq (by omega) (by omega)]
      omega
    refine asks_query_bind h2 fun sw1 => ?_
    split_ifs
    · refine asks_query_bind h1 fun sw2 => ?_
      split_ifs
      · trivial
      · trivial
    · trivial
    · trivial

end Asks

/-! ### The bytes of the answer to reset -/

section Atr

variable {C : Card} {cmd : ℕ → Byte}

/-- Byte `k` of the answer to reset comes before the driver gives up; every byte after the
first has rounds of its own. -/
def atrComes (C : Card) : ℕ → Bool
  | 0 => (C.delay 0).any fun d => d ≤ 20000002
  | k + 1 => atrComes C k && (C.delay (k + 1)).any fun d => d < 1000000

theorem atrComes_of_le {j k : ℕ} (hk : atrComes C k = true) (hle : j ≤ k) : atrComes C j = true := by
  induction k, hle using Nat.le_induction with
  | base => exact hk
  | succ k _ ih => exact ih (Bool.and_eq_true_iff.mp hk).1

theorem atrComes_zero_iff : atrComes C 0 = true ↔ ∃ d, C.delay 0 = some d ∧ d ≤ 20000002 := by
  unfold atrComes
  cases C.delay 0 with
  | none => simp
  | some d => simp

/-- After a byte that came, the rounds are used up or the next one comes. -/
theorem rest_eq_zero_iff {k : ℕ} (hk : atrComes C k = true) :
    C.rest (k + 1) 1000000 = 0 ↔ ¬ atrComes C (k + 1) = true := by
  unfold Card.rest
  rw [atrComes, hk, Bool.true_and]
  cases C.delay (k + 1) with
  | none => simp
  | some d => simp [Nat.sub_eq_zero_iff_le]

/-- What is seen of the array on the stack. -/
def atrIndex : Query × Word32 → Option ℕ
  | (.atr j _, _) => some j
  | _ => none

theorem simAtrAdd_observes (size : ℕ) (b : Byte) (p : Port) :
    ∃ n, Observes (portStep C cmd) atrIndex (simAtrAdd size b) p p [] n := by
  unfold simAtrAdd
  by_cases hsize : size < 32
  · rw [if_pos hsize]
    exact ⟨_, Observes.query_bind rfl observes_pure⟩
  · rw [if_neg hsize]
    exact ⟨_, observes_pure⟩

/-- The entries that are written, and why the loop ends. -/
theorem atrLoop_observes : ∀ (rounds : ℕ) (p : Port) (size : ℕ) (value : Word32), atrComes C p.next = true →
    Received value →
    ∃ p' m, Observes (portStep C cmd) atrIndex (atrLoop rounds p.next size value) p p' (List.range' p.next m) () ∧
      (∀ i < m, atrComes C (p.next + i) = true) ∧ (m = rounds ∨ ¬ atrComes C (p.next + m) = true) := by
  intro rounds
  induction rounds with
  | zero =>
    intro p size value hc hv
    exact ⟨p, 0, observes_pure, fun i hi => absurd hi (Nat.not_lt_zero i), .inl rfl⟩
  | succ rounds ih =>
    intro p size value hc hv
    let p₁ : Port := { p with next := p.next + 1, polled := 0 }
    obtain ⟨size', hadd⟩ := simAtrAdd_observes (C := C) size ((portStep C cmd p .recv).2.setWidth 8) p₁
    obtain ⟨n, r, hwait, hrest, hset⟩ := @waitLoop_observes C cmd _ atrIndex (fun _ => rfl) 1000000
      { p₁ with polled := 1 } (portStep C cmd p₁ .status).2 0 rfl (received_status C _) (fun d _ => Nat.zero_le d)
    rw [zero_add] at hrest
    have hround : ∀ {p' : Port} {es : List ℕ},
        Observes (portStep C cmd) atrIndex (if r.1 = 0 then pure () else atrLoop rounds (p.next + 1) size' r.2)
            { p₁ with polled := n } p' es () →
          Observes (portStep C cmd) atrIndex (atrLoop (rounds + 1) p.next size value) p p' (p.next :: es) () := by
      intro p' es h
      rw [atrLoop, if_pos hv]
      apply Observes.query_bind rfl
      apply Observes.seen_bind (e := p.next) rfl
      apply hadd.bind
      exact Observes.query_bind rfl (hwait.bind h)
    by_cases hend : r.1 = 0
    · refine ⟨{ p₁ with polled := n }, 1, hround ?_, ?_, .inr ?_⟩
      · rw [if_pos hend]
        exact observes_pure
      · intro i hi
        rwa [Nat.lt_one_iff.mp hi, Nat.add_zero]
      · exact (rest_eq_zero_iff hc).mp (hrest.symm.trans hend)
    · have hc' : atrComes C (p.next + 1) = true := by
        by_contra hnot
        exact hend (hrest.trans ((rest_eq_zero_iff hc).mpr hnot))
      obtain ⟨p', m, hrun, hcame, hstop⟩ := ih { p₁ with polled := n } size' r.2 hc' (hset hend)
      refine ⟨p', m + 1, hround ?_, ?_, ?_⟩
      · rw [if_neg hend]
        exact hrun
      · intro i hi
        rcases i with _ | i
        · exact hc
        · rw [show p.next + (i + 1) = p.next + 1 + i by omega]
          exact hcame i (by omega)
      · rw [show p.next + (m + 1) = p.next + 1 + m by omega]
        exact hstop.imp (congrArg (· + 1)) id

theorem readAtr_observes (rounds : ℕ) (regs : Regs) (rsp : ℕ → Byte) :
    ∃ p' m, Observes (portStep C cmd) atrIndex (readAtr rounds) ⟨regs, 0, 0, rsp⟩ p' (List.range' 0 m) () ∧
      (∀ i < m, atrComes C i = true) ∧ (m = rounds ∨ ¬ atrComes C m = true) := by
  obtain ⟨n, hpolling, hready⟩ := @bitSetPolling_observes C _ _ atrIndex (fun _ => rfl)
    (p := ⟨regs, 0, 0, rsp⟩) rfl
  let value := (portStep C cmd ⟨regs, 0, n, rsp⟩ .status).2
  have hvalue : Received value ↔ atrComes C 0 = true := by
    refine (received_status C _).trans ?_
    rw [hready, atrComes_zero_iff]
  have hread : ∀ {p' : Port} {es : List ℕ},
      Observes (portStep C cmd) atrIndex (atrLoop rounds 0 0 value) ⟨regs, 0, n + 1, rsp⟩ p' es () →
        Observes (portStep C cmd) atrIndex (readAtr rounds) ⟨regs, 0, 0, rsp⟩ p' es () := fun h =>
    hpolling.bind (Observes.query_bind rfl h)
  by_cases hc : atrComes C 0 = true
  · obtain ⟨p', m, hrun, hcame, hstop⟩ := atrLoop_observes rounds ⟨regs, 0, n + 1, rsp⟩ 0 value hc
      (hvalue.mpr hc)
    simp only [Nat.zero_add] at hrun hcame hstop
    exact ⟨p', m, hread hrun, hcame, hstop⟩
  · refine ⟨_, 0, @hread ⟨regs, 0, n + 1, rsp⟩ _ ?_, fun i hi => absurd hi (Nat.not_lt_zero i), .inr hc⟩
    rcases rounds with _ | rounds
    · exact observes_pure
    · rw [atrLoop, if_neg (mt hvalue.mp hc)]
      exact observes_pure

/-- `sim->atr` is not left. -/
def SimAtrInside : Query → Prop
  | .simAtr k _ => k < 32
  | _ => True

theorem asks_simAtrAdd (size : ℕ) (b : Byte) : Asks SimAtrInside (simAtrAdd size b) := by
  unfold simAtrAdd
  split_ifs with hsize
  · exact asks_query_bind hsize fun _ => trivial
  · trivial

theorem asks_atrLoop : ∀ (rounds j size : ℕ) (value : Word32), Asks SimAtrInside (atrLoop rounds j size value) := by
  intro rounds
  induction rounds with
  | zero => exact fun _ _ _ => trivial
  | succ rounds ih =>
    intro j size value
    unfold atrLoop
    split_ifs
    · refine asks_query_bind trivial fun v => asks_query_bind trivial fun _ => ?_
      refine asks_bind (asks_simAtrAdd _ _) fun _ => ?_
      refine asks_query_bind trivial fun value => asks_bind (asks_waitLoop trivial _ _) fun r => ?_
      split_ifs
      · trivial
      · exact ih _ _ _
    · trivial

theorem asks_readAtr (rounds : ℕ) : Asks SimAtrInside (readAtr rounds) :=
  asks_bind (asks_bitSetPolling trivial) fun _ => asks_query_bind trivial fun _ => asks_atrLoop _ _ _ _

/-- Neither `atr[30]` nor `sim->atr` is left. -/
def AtrInside : Query → Prop
  | .atr j _ => j < 30
  | .simAtr k _ => k < 32
  | _ => True

/-- The reading of the answer to reset stays inside, however long it is watched. -/
def AtrStays (C : Card) : Prop :=
  ∀ cmd rounds regs rsp, ∀ e ∈ (run (portStep C cmd) (readAtr rounds) ⟨regs, 0, 0, rsp⟩).log, AtrInside e.1

theorem atrStays_iff : AtrStays C ↔ ¬ atrComes C 30 = true := by
  constructor
  · intro h hcomes
    obtain ⟨p', m, ⟨log, hlog, hes⟩, -, hstop⟩ := @readAtr_observes C (fun _ => 0) 31 (fun _ => 0)
      fun _ => 0
    have hm : 30 < m := by
      rcases hstop with rfl | hnot
      · decide
      · by_contra hle
        exact hnot (atrComes_of_le hcomes (by omega))
    have hmem : 30 ∈ log.filterMap atrIndex := by
      rw [hes, List.mem_range'_1]
      omega
    obtain ⟨⟨q, r⟩, he, hq⟩ := List.mem_filterMap.mp hmem
    have hin : AtrInside q := h _ 31 _ _ (q, r) (by rw [hlog]; exact he)
    cases q <;> simp only [atrIndex, Option.some.injEq, reduceCtorEq] at hq
    rw [hq] at hin
    exact Nat.lt_irrefl 30 hin
  · rintro h cmd rounds regs rsp ⟨q, r⟩ he
    have hsim : SimAtrInside q := log_of_asks _ (asks_readAtr rounds) _ _ he
    obtain ⟨p', m, ⟨log, hlog, hes⟩, hcame, -⟩ := readAtr_observes (C := C) rounds regs rsp
    rw [hlog] at he
    cases q with
    | simAtr k b => exact hsim
    | atr j v =>
      have hmem : j ∈ log.filterMap atrIndex := List.mem_filterMap.mpr ⟨_, he, rfl⟩
      rw [hes, List.mem_range'_1] at hmem
      by_contra hge
      exact h (atrComes_of_le (hcame j (by omega)) (Nat.le_of_not_lt hge))
    | _ => trivial

end Atr

/-! ### The accesses of an exchange -/

section Exchange

variable (C : Card) (cmd : ℕ → Byte) (cmdLen : ℕ) (rcvLen : Word32) (p : Port)

/-- `usim_xfer` after the look at the second byte, when `n` bytes are to be sent -/
def sendAndReceive (n : ℕ) : Driver ℤ := do
  let i ← (do
    sendCmd 0 n
    let _ ← query (.writel .rcvStatus 0xf23)
    bitSetPolling
    let value ← query .status
    receive cmdLen (rcvLen - 1).toNat 0 1000000 value)
  verdict (rcvLen - 1).toNat i

/-- What is asked before that. -/
def prelude : List Query :=
  [.writel .enable 0x3, .writel .resetCntl 0x3, .writel .resetCntl 0x0, .writel .xmtStatus 0x1b9, .readl .rcvThreshold,
    .writel .rcvThreshold (writel 0x1b9 .xmtStatus p.regs .rcvThreshold ||| (rcvLen &&& 0x1ff)), .cmd 1]

theorem exchanged_log :
    (exchanged C cmd cmdLen rcvLen p).log.map Prod.fst =
      prelude rcvLen p ++ (run (portStep C cmd) (sendAndReceive cmdLen rcvLen (headerLen cmd cmdLen))
        { p with regs := prepared rcvLen p.regs, next := 0, polled := 0 }).log.map Prod.fst := by
  have hins : headerLen cmd cmdLen = if (cmd 1).setWidth 32 = (0xa4 : Word32) then 5 else cmdLen :=
    (if_congr (@setWidth_eq_iff _ 0xa4) rfl rfl).symm
  rw [hins]
  rfl

variable {C cmd cmdLen rcvLen p}

theorem asks_sendAndReceive (h3 : 3 ≤ rcvLen.toNat) {n : ℕ} (hn : n ≤ cmdLen) :
    Asks (InRange cmdLen rcvLen.toNat) (sendAndReceive cmdLen rcvLen n) := by
  have hlt := rcvLen.isLt
  unfold sendAndReceive
  rw [toNat_sub_one (by omega)]
  refine asks_bind_of_yields (P := (· ≤ rcvLen.toNat - 1)) ?_ ?_ fun i hi => asks_verdict h3 hlt hi
  · refine asks_bind (asks_sendCmd (by omega)) fun _ => asks_query_bind trivial fun _ => ?_
    refine asks_bind (asks_bitSetPolling trivial) fun _ => asks_query_bind trivial fun value => ?_
    exact asks_receive _ _ _ (by omega)
  · refine yields_bind (yields_trivial _) fun _ _ => yields_query_bind _ fun _ => ?_
    refine yields_bind (yields_trivial _) fun _ _ => yields_query_bind _ fun value => ?_
    have hyields := yields_receive cmdLen (rcvLen.toNat - 1) 0 1000000 value
    rwa [Nat.zero_add] at hyields

theorem inRange_exchanged (h3 : 3 ≤ rcvLen.toNat) (h2 : 2 ≤ cmdLen) (h5 : cmd 1 = 0xa4 → 5 ≤ cmdLen) :
    ∀ q ∈ (exchanged C cmd cmdLen rcvLen p).log.map Prod.fst, InRange cmdLen rcvLen.toNat q := by
  intro q hq
  rw [exchanged_log] at hq
  rcases List.mem_append.mp hq with hq | hq
  · fin_cases hq <;> trivial
  · have hn : headerLen cmd cmdLen ≤ cmdLen := by
      unfold headerLen
      split_ifs with hsel
      · exact h5 hsel
      · exact Nat.le_refl _
    obtain ⟨e, he, rfl⟩ := List.mem_map.mp hq
    exact log_of_asks _ (asks_sendAndReceive h3 hn) _ e he

/-- The second byte of the command is read, and the header of a SELECT. -/
theorem le_cmdLen_of_inRange
    (h : ∀ q ∈ (exchanged C cmd cmdLen rcvLen p).log.map Prod.fst, InRange cmdLen rcvLen.toNat q) :
    2 ≤ cmdLen ∧ (cmd 1 = 0xa4 → 5 ≤ cmdLen) := by
  rw [exchanged_log] at h
  have hins : 1 < cmdLen := h (.cmd 1) (List.mem_append_left _ (by simp [prelude]))
  refine ⟨hins, fun hsel => ?_⟩
  have hlast : 4 < cmdLen := by
    refine h (.cmd 4) (List.mem_append_right _ ?_)
    rw [headerLen, if_pos hsel]
    iterate 8 apply List.mem_cons_of_mem
    exact List.mem_cons_self
  exact hlast

/-- Where the status words are looked for. -/
theorem load_of_verdict {last i : ℕ} (h : (run (portStep C cmd) (verdict last i) p).val ≠ some noCard) :
    i ≠ 0 ∧ last ≤ i ∧ .load (before i 2) ∈ (run (portStep C cmd) (verdict last i) p).log.map Prod.fst := by
  unfold verdict at h ⊢
  by_cases h0 : i = 0
  · rw [if_pos h0] at h
    exact absurd rfl h
  · rw [if_neg h0] at h ⊢
    by_cases hshort : i < last
    · rw [if_pos hshort] at h
      exact absurd rfl h
    · rw [if_neg hshort]
      exact ⟨h0, Nat.le_of_not_lt hshort, List.mem_cons_self⟩

/-- No answer shorter than three bytes is accepted without an access outside. -/
theorem three_le_of_inRange
    (h : ∀ q ∈ (exchanged C cmd cmdLen rcvLen p).log.map Prod.fst, InRange cmdLen rcvLen.toNat q)
    (hval : (exchanged C cmd cmdLen rcvLen p).val ≠ some noCard) : 3 ≤ rcvLen.toNat := by
  obtain ⟨p', ⟨log, hlog, -⟩, -, -⟩ := @exchangeLoop_observes C cmd cmdLen rcvLen
    (p := { p with next := 0, polled := 0 }) rfl rfl
  unfold exchanged Transfer.usimXfer at h hval
  rw [run_bind, hlog] at h hval
  dsimp only at h hval
  obtain ⟨h0, hle, hload⟩ := load_of_verdict hval
  rw [List.map_append] at h
  have hin := h _ (List.mem_append_right _ hload)
  change before _ 2 < rcvLen.toNat at hin
  have hstop : stop (rcvLen - 1).toNat (C.inTime ((rcvLen - 1).toNat + 1)) = (rcvLen - 1).toNat := by
    have hlen := length_inTime_le (C := C) ((rcvLen - 1).toNat + 1)
    unfold stop at hle ⊢
    split_ifs at hle ⊢ <;> omega
  rw [hstop] at h0 hin
  by_contra hlt
  rcases Nat.eq_zero_or_pos rcvLen.toNat with hzero | hpos
  · rw [hzero] at hin
    exact Nat.not_lt_zero _ hin
  · rw [toNat_sub_one hpos] at h0 hin
    -- two bytes: the index of the first status word is below zero
    have htwo : rcvLen.toNat = 2 := by omega
    rw [htwo] at hin
    exact absurd hin (by decide)

theorem rxBytes_cons_of_ne {q : Query} (hq : q ≠ .recv) (r : Word32) (log : List (Query × Word32)) :
    rxBytes (((q, r) :: log).filterMap seen) = rxBytes (log.filterMap seen) := by
  cases q with
  | recv => exact absurd rfl hq
  | _ => rfl

/-- The bytes that are received are seen. -/
theorem count_recv (log : List (Query × Word32)) :
    (log.map Prod.fst).count .recv = (rxBytes (log.filterMap seen)).length := by
  induction log with
  | nil => rfl
  | cons e log ih =>
    obtain ⟨q, r⟩ := e
    by_cases hq : q = .recv
    · have hlen : (rxBytes (((q, r) :: log).filterMap seen)).length = (rxBytes (log.filterMap seen)).length + 1 := by
        rw [hq]
        rfl
      rw [hlen, List.map_cons, hq, List.count_cons_self, ih]
    · rw [rxBytes_cons_of_ne hq, List.map_cons, List.count_cons_of_ne hq, ih]

end Exchange

/-! ### What is required -/

/-- The state of the transfer or a register is written. -/
def Access.Writes : Access → Prop
  | .card (.writel _ _) => True
  | .card (.send _) => True
  | .card _ => False
  | .copyOut _ => False
  | _ => True

/-- A request whose accesses and result are `r` respects the buffers. -/
structure XferRespects (req : Request) (r : List Access × ℤ) : Prop where
  /-- `SIM_XMT_BUFFER_SIZE` -/
  xmt : ∀ n, .xmt n ∈ r.1 → n ≤ 256
  card : ∀ q, .card q ∈ r.1 → InRange req.xmtLength.toNat req.rcvLength.toNat q
  /-- no more goes to the user than came from the card -/
  out : ∀ n, .copyOut n ∈ r.1 → n ≤ r.1.count (.card .recv)
  /-- after an error nothing was written -/
  rejected : r.2 < 0 → ∀ a ∈ r.1, ¬ a.Writes

/-- A request that goes through, with an answer of the length it asks for. -/
structure Complete (req : Request) (C : Card) : Prop where
  copied : req.copiedXfer = true ∧ req.copyXmt = .done ∧ req.copyRcv = .done ∧ req.copiedBack = true
  command : req.type = 0 ∧ 5 ≤ req.xmtLength.toNat ∨
    req.type = 1 ∧ 2 ≤ req.xmtLength.toNat ∧ (req.xmt 1 = 0xa4 → 5 ≤ req.xmtLength.toNat)
  xmt : req.xmtLength.toNat ≤ 256
  rcv : 3 ≤ req.rcvLength.toNat ∧ req.rcvLength.toNat ≤ 256
  answer : (C.inTime req.rcvLength.toNat).length = req.rcvLength.toNat

/-! ### Lengths -/

theorem size_of_lt {v : Word32} (h : v.toNat < 2 ^ 31) : size v = v.toNat := by
  have hlt := v.isLt
  have hmsb : v.msb = false := by
    rw [BitVec.msb_eq_decide]
    exact decide_eq_false (by omega)
  rw [size, BitVec.toNat_signExtend, hmsb, BitVec.toNat_setWidth]
  simp only [Bool.false_eq_true, if_false, Nat.add_zero]
  omega

/-- A negative length is a very large one. -/
theorem lt_size {v : Word32} (h : 2 ^ 31 ≤ v.toNat) : 2 ^ 32 < size v := by
  have hmsb : v.msb = true := by
    rw [BitVec.msb_eq_decide]
    exact decide_eq_true (by omega)
  rw [size, BitVec.toNat_signExtend, hmsb, if_pos rfl]
  omega

theorem toInt_of_lt {v : Word32} (h : v.toNat < 2 ^ 31) : v.toInt = v.toNat := by
  rw [BitVec.toInt_eq_toNat_cond]
  split_ifs
  · rfl
  · omega

/-- A length that is not too long: it is short, or negative. -/
theorem le_or_le_of_toInt_le {v : Word32} (h : v.toInt ≤ 256) : v.toNat ≤ 256 ∨ 2 ^ 31 ≤ v.toNat := by
  rw [BitVec.toInt_eq_toNat_cond] at h
  split_ifs at h <;> omega

section Ioctl

variable {req : Request} {C : Card} {p : Port} {present : Present}

/-- The accesses of a request that passes all checks. -/
def passedAccesses (req : Request) (C : Card) (p : Port) (state : SimState) : List Access :=
  .xfer :: .xmt (size req.xmtLength) :: .counters :: .state state ::
    ((req.exchanged C p).log.map (fun e => .card e.1) ++ [.copyOut (size req.rcvLength)])

theorem ioctlXfer_of_complete (hp : present = .operational ∨ present = .detected) (h : Complete req C) :
    ∃ state, ioctlXfer req C p present = (passedAccesses req C p state, 0) := by
  obtain ⟨hxfer, hxmt, hrcv, hback⟩ := h.copied
  have hlen := h.xmt
  have hrlen := h.rcv.2
  have hval : (req.exchanged C p).val ≠ some noCard := by
    rw [Request.exchanged, (exchanged_eq C req.xmt req.xmtLength.toNat h.rcv.1 p).1]
    intro hno
    refine (result_ne_noCard_iff _ _).mpr ?_ (Option.some.inj hno)
    rw [h.answer]
    exact Nat.sub_le _ _
  have htransfer : xferTransfer req C p =
      ((req.exchanged C p).log.map (fun e => .card e.1) ++ [.copyOut (size req.rcvLength)], 0) := by
    simp only [xferTransfer, hrcv, hback, if_neg hval, if_true]
  have hlengths : ∀ state, xferLengths req C p state = (.state state :: (xferTransfer req C p).1, 0) := by
    intro state
    rw [xferLengths, toInt_of_lt (by omega), toInt_of_lt (by omega), if_neg (by omega), if_neg (by omega), htransfer]
  have htype : ∃ state, xferType req C p = (.state state :: (xferTransfer req C p).1, 0) := by
    unfold xferType
    rcases h.command with ⟨htpdu, h5⟩ | ⟨hpts, h2, -⟩
    · rw [if_pos htpdu, toInt_of_lt (by omega), if_neg (by omega)]
      exact ⟨_, hlengths _⟩
    · have hne : req.xmtLength ≠ 0 := by
        intro hzero
        rw [hzero] at h2
        exact absurd h2 (by decide)
      rw [hpts, if_neg (by decide), if_pos rfl, if_neg hne]
      exact ⟨_, hlengths _⟩
  obtain ⟨state, htype⟩ := htype
  refine ⟨state, ?_⟩
  have hpresent : ¬ (present ≠ .operational ∧ present ≠ .detected) := by
    rintro ⟨h1, h2⟩
    exact hp.elim h1 h2
  rw [ioctlXfer, if_neg hpresent, if_neg (not_not_intro hxfer), hxmt, htype, htransfer]
  rfl

theorem not_nonneg_of_error {as : List Access} {e : ℤ} (he : e < 0) : ¬ 0 ≤ (as, e).2 := not_le.mpr he

/-- A transfer without an error. -/
theorem xferTransfer_of_nonneg (h : 0 ≤ (xferTransfer req C p).2) :
    (xferTransfer req C p).1 = (req.exchanged C p).log.map (fun e => .card e.1) ++ [.copyOut (size req.rcvLength)] ∧
      req.copyRcv = .done ∧ req.copiedBack = true ∧ (req.exchanged C p).val ≠ some noCard := by
  unfold xferTransfer at h ⊢
  cases hrcv : req.copyRcv with
  | failed n =>
    rw [hrcv] at h
    exact absurd h (not_nonneg_of_error (by decide))
  | done =>
    rw [hrcv] at h
    dsimp only at h ⊢
    split_ifs at h with hback hval
    · exact absurd h (by decide)
    · exact ⟨rfl, rfl, hback, hval⟩
    · exact absurd h (by decide)

theorem xferLengths_of_nonneg {state : SimState} (h : 0 ≤ (xferLengths req C p state).2) :
    xferLengths req C p state = (.state state :: (xferTransfer req C p).1, (xferTransfer req C p).2) ∧
      req.rcvLength.toInt ≤ 256 := by
  unfold xferLengths at h ⊢
  split_ifs at h ⊢ with hxmt hrcv
  · exact absurd h (not_nonneg_of_error (by decide))
  · exact absurd h (not_nonneg_of_error (by decide))
  · exact ⟨rfl, Int.not_lt.mp hrcv⟩

theorem xferType_of_nonneg (h : 0 ≤ (xferType req C p).2) :
    ∃ state, xferType req C p = xferLengths req C p state ∧
      (req.type = 0 ∧ 5 ≤ req.xmtLength.toInt ∨ req.type = 1) := by
  unfold xferType at h ⊢
  split_ifs at h ⊢ with htpdu hshort hpts hempty
  · exact absurd h (not_nonneg_of_error (by decide))
  · exact ⟨_, rfl, .inl ⟨htpdu, Int.not_lt.mp hshort⟩⟩
  · exact absurd h (not_nonneg_of_error (by decide))
  · exact ⟨_, rfl, .inr hpts⟩
  · exact absurd h (not_nonneg_of_error (by decide))

theorem passed_of_nonneg (hp : present = .operational ∨ present = .detected)
    (h : 0 ≤ (ioctlXfer req C p present).2) :
    ∃ state, (ioctlXfer req C p present).1 = passedAccesses req C p state ∧
      (req.copiedXfer = true ∧ req.copyXmt = .done ∧ req.copyRcv = .done ∧ req.copiedBack = true) ∧
      (req.type = 0 ∧ 5 ≤ req.xmtLength.toInt ∨ req.type = 1) ∧ req.rcvLength.toInt ≤ 256 ∧
      (req.exchanged C p).val ≠ some noCard := by
  have hpresent : ¬ (present ≠ .operational ∧ present ≠ .detected) := by
    rintro ⟨h1, h2⟩
    exact hp.elim h1 h2
  unfold ioctlXfer at h ⊢
  rw [if_neg hpresent] at h ⊢
  by_cases hxfer : req.copiedXfer = true
  · rw [if_neg (not_not_intro hxfer)] at h ⊢
    cases hxmt : req.copyXmt with
    | failed n =>
      rw [hxmt] at h
      exact absurd h (not_nonneg_of_error (by decide))
    | done =>
      rw [hxmt] at h
      dsimp only at h ⊢
      obtain ⟨state, htype, hcommand⟩ := xferType_of_nonneg h
      rw [htype] at h
      obtain ⟨hlengths, hrcvLen⟩ := xferLengths_of_nonneg h
      rw [hlengths] at h
      obtain ⟨htransfer, hrcv, hback, hval⟩ := xferTransfer_of_nonneg h
      refine ⟨state, ?_, ⟨hxfer, rfl, hrcv, hback⟩, hcommand, hrcvLen, hval⟩
      rw [htype, hlengths, htransfer]
      rfl
  · rw [if_pos hxfer] at h
    exact absurd h (not_nonneg_of_error (by decide))

theorem card_mem_passed {q : Query} {state : SimState} :
    .card q ∈ passedAccesses req C p state ↔ q ∈ (req.exchanged C p).log.map Prod.fst := by
  unfold passedAccesses
  simp

theorem count_recv_passed (state : SimState) :
    (passedAccesses req C p state).count (.card .recv) = (rxBytes ((req.exchanged C p).log.filterMap seen)).length := by
  have hinj : Function.Injective Access.card := fun q q' h => by injection h
  have hmap : (req.exchanged C p).log.map (fun e => Access.card e.1) =
      ((req.exchanged C p).log.map Prod.fst).map Access.card := by
    rw [List.map_map]
    rfl
  rw [← count_recv, ← List.count_map_of_injective _ _ hinj, passedAccesses, hmap]
  simp [List.count_append]

/-- The bytes that came, when the answer is of three or more. -/
theorem rxBytes_exchanged (h3 : 3 ≤ req.rcvLength.toNat) :
    rxBytes ((req.exchanged C p).log.filterMap seen) = C.inTime req.rcvLength.toNat := by
  rw [Request.exchanged, (exchanged_eq C req.xmt req.xmtLength.toNat h3 p).2.1, rxBytes_traffic]

/-- `sim->xfer` is written before anything is looked at. -/
theorem xfer_mem (hp : present = .operational ∨ present = .detected) : .xfer ∈ (ioctlXfer req C p present).1 := by
  have hpresent : ¬ (present ≠ .operational ∧ present ≠ .detected) := by
    rintro ⟨h1, h2⟩
    exact hp.elim h1 h2
  unfold ioctlXfer
  rw [if_neg hpresent]
  by_cases hxfer : req.copiedXfer = true
  · rw [if_neg (not_not_intro hxfer)]
    cases req.copyXmt with
    | failed n => exact List.mem_cons_self
    | done => exact List.mem_cons_self
  · rw [if_pos hxfer]
    exact List.mem_cons_self

theorem complete_of_respects (hp : present = .operational ∨ present = .detected)
    (h : XferRespects req (ioctlXfer req C p present)) : Complete req C := by
  have hnonneg : 0 ≤ (ioctlXfer req C p present).2 := by
    by_contra hneg
    exact h.rejected (not_le.mp hneg) .xfer (xfer_mem hp) trivial
  obtain ⟨state, has, hcopied, hcommand, hrcv, hval⟩ := passed_of_nonneg hp hnonneg
  have hxmt : size req.xmtLength ≤ 256 := h.xmt _ (by simp [has, passedAccesses])
  have hout : size req.rcvLength ≤ (rxBytes ((req.exchanged C p).log.filterMap seen)).length := by
    rw [← count_recv_passed state, ← has]
    exact h.out _ (by simp [has, passedAccesses])
  have hcard : ∀ q ∈ (req.exchanged C p).log.map Prod.fst, InRange req.xmtLength.toNat req.rcvLength.toNat q := by
    intro q hq
    apply h.card
    rw [has]
    exact card_mem_passed.mpr hq
  have hxmt31 : req.xmtLength.toNat < 2 ^ 31 := by
    by_contra hge
    have hlarge := lt_size (Nat.le_of_not_lt hge)
    omega
  rw [size_of_lt hxmt31] at hxmt
  obtain ⟨h2, h5⟩ := le_cmdLen_of_inRange hcard
  have h3 := three_le_of_inRange hcard hval
  rw [rxBytes_exchanged h3] at hout
  have hle : (C.inTime req.rcvLength.toNat).length ≤ req.rcvLength.toNat := length_inTime_le _
  have hrcv31 : req.rcvLength.toNat < 2 ^ 31 := by
    by_contra hge
    have hlarge := lt_size (Nat.le_of_not_lt hge)
    have hlt := req.rcvLength.isLt
    omega
  have hrcvLen : req.rcvLength.toNat ≤ 256 := (le_or_le_of_toInt_le hrcv).resolve_right (by omega)
  rw [size_of_lt hrcv31] at hout
  refine ⟨hcopied, ?_, hxmt, ⟨h3, hrcvLen⟩, Nat.le_antisymm hle hout⟩
  rcases hcommand with ⟨htpdu, hlen⟩ | hpts
  · rw [toInt_of_lt hxmt31] at hlen
    exact .inl ⟨htpdu, by omega⟩
  · exact .inr ⟨hpts, h2, h5⟩

theorem respects_of_complete (hp : present = .operational ∨ present = .detected) (h : Complete req C) :
    XferRespects req (ioctlXfer req C p present) := by
  obtain ⟨state, hrun⟩ := ioctlXfer_of_complete (p := p) hp h
  have hxmt := h.xmt
  have hrcv := h.rcv
  have h2 : 2 ≤ req.xmtLength.toNat ∧ (req.xmt 1 = 0xa4 → 5 ≤ req.xmtLength.toNat) := by
    rcases h.command with ⟨-, h5⟩ | ⟨-, hpts⟩
    · exact ⟨by omega, fun _ => h5⟩
    · exact hpts
  rw [hrun]
  refine ⟨?_, ?_, ?_, fun hneg => absurd hneg (Int.lt_irrefl 0)⟩
  · intro n hn
    have hsize : n = size req.xmtLength := by
      simpa [passedAccesses] using hn
    rw [hsize, size_of_lt (by omega)]
    exact hxmt
  · intro q hq
    exact inRange_exchanged hrcv.1 h2.1 h2.2 q (card_mem_passed.mp hq)
  · intro n hn
    have hsize : n = size req.rcvLength := by
      simpa [passedAccesses] using hn
    rw [hsize, size_of_lt (by omega), count_recv_passed, rxBytes_exchanged hrcv.1, h.answer]

/-- The request respects the buffers when there is no card, when it goes through, and at no
other time. -/
theorem xferRespects_iff (req : Request) (C : Card) (p : Port) (present : Present) :
    XferRespects req (ioctlXfer req C p present) ↔ present = .removed ∨ Complete req C := by
  by_cases hp : present = .operational ∨ present = .detected
  · constructor
    · exact fun h => .inr (complete_of_respects hp h)
    · rintro (rfl | h)
      · exact absurd hp (by decide)
      · exact respects_of_complete hp h
  · have hpresent : present ≠ .operational ∧ present ≠ .detected := not_or.mp hp
    refine iff_of_true ?_ (.inl ?_)
    · rw [ioctlXfer, if_pos hpresent]
      exact ⟨nofun, nofun, nofun, nofun⟩
    · cases present with
      | removed => rfl
      | detected => exact absurd rfl hpresent.2
      | operational => exact absurd rfl hpresent.1

theorem Copy.exists_failed {c : Copy} (h : c ≠ .done) : ∃ n, c = .failed n := by
  cases c with
  | done => exact absurd rfl h
  | failed n => exact ⟨n, rfl⟩

/-! ### The summary -/

/-- The request for the summary in `Ioctl`. -/
def Request.io (req : Request) (received : List Byte) (beyond : Byte) : XferIo where
  copiedXfer := req.copiedXfer
  xfer := ⟨req.xmtLength.toInt, req.rcvLength.toInt, req.type.toInt, 0, 0, 0⟩
  copiedXmt := req.copyXmt = .done
  xmt := (List.range 256).map req.xmt
  received := received
  beyond := beyond
  copiedRcv := req.copyRcv = .done
  copiedBack := req.copiedBack

theorem xferTransfer_summary (h3 : 3 ≤ req.rcvLength.toNat) (beyond : Byte) {d : Dev}
    (hrcv : d.sim.xfer.rcvLength = req.rcvLength.toInt) (hxmt : d.sim.xfer.xmtLength ≤ 256)
    (hle : req.rcvLength.toInt ≤ 256) :
    (xferTransfer req C p).2 = (xferChecked d (req.io (C.inTime req.rcvLength.toNat) beyond)).2 := by
  have hval := (exchanged_eq C req.xmt req.xmtLength.toNat h3 p).1
  have hlen := length_inTime_le (C := C) req.rcvLength.toNat
  have htake : (C.inTime req.rcvLength.toNat).take ((req.rcvLength - 1).toNat + 1) = C.inTime req.rcvLength.toNat := by
    rw [toNat_sub_one (by omega)]
    exact List.take_of_length_le (by omega)
  have hret : ∀ cmd : List Byte,
      (Sim.usimXfer d cmd d.sim.xfer.rcvLength (C.inTime req.rcvLength.toNat) beyond).2 =
        result req.rcvLength.toNat (C.inTime req.rcvLength.toNat) := by
    intro cmd
    unfold Sim.usimXfer
    dsimp only
    rw [hrcv, BitVec.ofInt_toInt, htake, toNat_sub_one (by omega), usimXferRet_eq h3 hlen]
  unfold xferTransfer xferChecked
  rw [if_neg (not_lt.mpr hxmt), if_neg (by rw [hrcv]; exact not_lt.mpr hle)]
  dsimp only [Request.io, Request.exchanged]
  rw [hval, hret]
  by_cases hcopy : req.copyRcv = .done
  · by_cases hback : req.copiedBack = true
    · simp [hcopy, hback]
    · simp [hcopy, hback]
  · obtain ⟨n, hfailed⟩ := Copy.exists_failed hcopy
    simp [hfailed]

/-- What is returned is what the summary in `Ioctl` returns. -/
theorem ioctlXfer_summary (h3 : 3 ≤ req.rcvLength.toNat) (beyond : Byte) (d : Dev) :
    (ioctlXfer req C p d.sim.present).2 =
      (Sim.ioctlXfer d (req.io (C.inTime req.rcvLength.toNat) beyond)).2 := by
  have hlengths : ∀ (state : SimState) (d' : Dev), d'.sim.xfer.rcvLength = req.rcvLength.toInt →
      d'.sim.xfer.xmtLength = req.xmtLength.toInt →
      (xferLengths req C p state).2 = (xferChecked d' (req.io (C.inTime req.rcvLength.toNat) beyond)).2 := by
    intro state d' hrcv hxmt
    unfold xferLengths
    by_cases hx : 256 < req.xmtLength.toInt
    · rw [if_pos hx, xferChecked, hxmt, if_pos hx]
    · rw [if_neg hx]
      by_cases hr : 256 < req.rcvLength.toInt
      · rw [if_pos hr, xferChecked, hxmt, if_neg hx, hrcv, if_pos hr]
      · rw [if_neg hr]
        exact xferTransfer_summary h3 beyond hrcv (hxmt ▸ Int.not_lt.mp hx) (Int.not_lt.mp hr)
  have htpdu : req.type = 0 ↔ req.type.toInt = 0 := @BitVec.toInt_inj _ req.type 0 |>.symm
  have hpts : req.type = 1 ↔ req.type.toInt = 1 := @BitVec.toInt_inj _ req.type 1 |>.symm
  have hempty : req.xmtLength = 0 ↔ req.xmtLength.toInt = 0 := @BitVec.toInt_inj _ req.xmtLength 0 |>.symm
  unfold ioctlXfer Sim.ioctlXfer
  by_cases hp : d.sim.present ≠ .operational ∧ d.sim.present ≠ .detected
  · rw [if_pos hp, if_pos hp]
  · rw [if_neg hp, if_neg hp]
    by_cases hxfer : req.copiedXfer = true
    · by_cases hxmt : req.copyXmt = .done
      · simp only [hxmt, hxfer, Request.io, not_true_eq_false, if_false, decide_true]
        unfold xferType
        by_cases h0 : req.type = 0
        · rw [if_pos h0, if_pos (htpdu.mp h0)]
          by_cases h5 : req.xmtLength.toInt < 5
          · rw [if_pos h5, if_pos h5]
          · rw [if_neg h5, if_neg h5]
            exact hlengths _ _ rfl rfl
        · rw [if_neg h0, if_neg (mt htpdu.mpr h0)]
          by_cases h1 : req.type = 1
          · rw [if_pos h1, if_pos (hpts.mp h1)]
            by_cases he : req.xmtLength = 0
            · rw [if_pos he, if_pos (hempty.mp he)]
            · rw [if_neg he, if_neg (mt hempty.mpr he)]
              exact hlengths _ _ rfl rfl
          · rw [if_neg h1, if_neg (mt hpts.mpr h1)]
      · obtain ⟨n, hfailed⟩ := Copy.exists_failed hxmt
        simp [hfailed, hxfer, Request.io]
    · simp [hxfer, Request.io]

end Ioctl

/-! ### Both paths -/

/-- A transfer asked for by the user, or the reading of an answer to reset. -/
inductive Call where
  | xfer (present : Present) (req : Request) (C : Card) (p : Port)
  | init (C : Card)

/-- The buffers are respected. -/
def Call.Respects : Call → Prop
  | .xfer present req C p => XferRespects req (ioctlXfer req C p present)
  | .init C => AtrStays C

/-- There is no card, or the request goes through; the answer to reset has no 31st byte. -/
def Call.Fits : Call → Prop
  | .xfer present req C _ => present = .removed ∨ Complete req C
  | .init C => ¬ atrComes C 30 = true

theorem respects_iff_fits (c : Call) : c.Respects ↔ c.Fits := by
  cases c with
  | xfer present req C p => exact xferRespects_iff req C p present
  | init C => exact atrStays_iff

/-- A request with 300 bytes. -/
def longRequest : Request where
  type := 0
  xmtLength := 300
  rcvLength := 2
  xmt := fun _ => 0
  copiedXfer := true
  copyXmt := .done
  copyRcv := .done
  copiedBack := true

/-- The bytes go past `sim->xmt_buffer` before the length is refused, and an answer to reset
of 33 bytes goes past `atr`. -/
theorem buffers_overrun :
    (ioctlXfer longRequest (.prompt []) ⟨fun _ => 0, 0, 0, fun _ => 0⟩ .operational).2 = -5 ∧
      ¬ (Call.xfer .operational longRequest (.prompt []) ⟨fun _ => 0, 0, 0, fun _ => 0⟩).Respects ∧
      ¬ (Call.init (.prompt (List.replicate 33 0x3b))).Respects := by
  refine ⟨rfl, fun h => ?_, fun h => atrStays_iff.mp h (by decide)⟩
  have hle : size 300 ≤ 256 := h.xmt _ (List.mem_cons_of_mem _ List.mem_cons_self)
  exact absurd hle (by decide)

end XferBounds
end Sim
end La12xx
