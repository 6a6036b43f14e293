/-
# Commands and sequences of commands

What the functions of `gul_rfic.c` send through the mailbox. Most send one command;
`__rf_set_rx_agc_gain_index` sends five and `__rf_set_auto_tune_pll` pairs in two nested
loops, and both stop at the first result that is not OK. `mdata_lock` is taken for a
command and not for a sequence, so other callers' commands come in between.

A function is a `Dialogue` that asks for commands to be sent; it is run over the mailbox of
`SwCmd`, with every access, the modem and the other callers in any order. As long as no call
gives up, every command that was accepted is taken by the modem once, in order and whole
(`commands_arrive`), and a sequence has sent exactly the commands its answers call for
(`sequences_run`).
-/
import La12xx.Lib.Straight
import La12xx.Rfic.SwCmd

namespace La12xx
namespace Rfic

open Machine

/-! ### The functions -/

/-- A command: the local descriptor, and the size of its data. -/
structure Cmd where
  words : Words
  dataSize : ℕ

/-- What the functions take from the host-interface headers beside `RfIf`: where a command's
code and core are and where its data begin, the codes, and how the structure for the gain
lies in the data. -/
structure CmdIf where
  cmdIdx : ℕ
  coreIdIdx : ℕ
  dataIdx : ℕ
  switchTx : BitVec 32
  switchRx : BitVec 32
  setRxGain : BitVec 32
  rxGain : BitVec 8 → BitVec 8 → List (BitVec 32)
  resultOk : BitVec 32

/-- `PLL_AUTO_TUNE_ITER_COUNT` -/
def pllAutoTuneIterCount : ℕ := 2

/-- `TX_RX_SWITCH_ITER_COUNT` -/
def txRxSwitchIterCount : ℕ := 20

section Functions

variable (C : CmdIf)

/-- `rf_get_swcmd`, the code and the data of a command. -/
def swCmd (cmd : BitVec 32) (data : List (BitVec 32)) : Words := fun i =>
  if i = C.cmdIdx then cmd
  else if i = C.coreIdIdx then 4
  else if C.dataIdx ≤ i then data.getD (i - C.dataIdx) 0
  else 0

/-- `__rf_switch_tx` -/
def rfSwitchTx : Dialogue Cmd RfRet RfRet := Dialogue.query ⟨swCmd C C.switchTx [], 0⟩

/-- `__rf_switch_rx` -/
def rfSwitchRx : Dialogue Cmd RfRet RfRet := Dialogue.query ⟨swCmd C C.switchRx [], 0⟩

/-- `__rf_set_rx_gain` -/
def rfSetRxGain (beamMask lutIndex : BitVec 8) : Dialogue Cmd RfRet RfRet :=
  Dialogue.query ⟨swCmd C C.setRxGain (C.rxGain beamMask lutIndex), 8⟩

/-- `__rf_set_rx_agc_gain_index` -/
def rfSetRxAgcGainIndex (beamMask lutIndex : BitVec 8) : Dialogue Cmd RfRet RfRet := do
  let ret ← rfSwitchTx C
  if ret ≠ .result C.resultOk then return ret
  let ret ← rfSwitchRx C
  if ret ≠ .result C.resultOk then return ret
  let ret ← rfSetRxGain C beamMask lutIndex
  if ret ≠ .result C.resultOk then return ret
  let ret ← rfSwitchTx C
  if ret ≠ .result C.resultOk then return ret
  rfSwitchRx C

/-- The inner loop of `__rf_set_auto_tune_pll` for the rounds that are left, with `ret`; what
it ends with is whether it jumped to `out`, and `ret`. -/
def switchLoop : ℕ → RfRet → Dialogue Cmd RfRet (Bool × RfRet)
  | 0, ret => return (false, ret)
  | j + 1, _ => do
    let ret ← rfSwitchRx C
    if ret ≠ .result C.resultOk then return (true, ret)
    let ret ← rfSwitchTx C
    if ret ≠ .result C.resultOk then return (true, ret)
    switchLoop j ret

/-- The outer loop. -/
def tuneLoop : ℕ → RfRet → Dialogue Cmd RfRet RfRet
  | 0, ret => return ret
  | i + 1, ret => do
    let (out, ret) ← switchLoop C txRxSwitchIterCount ret
    if out then return ret
    tuneLoop i ret

/-- `__rf_set_auto_tune_pll`; `ret` is 0 at first. -/
def rfSetAutoTunePll (iter : BitVec 8) : Dialogue Cmd RfRet RfRet :=
  tuneLoop C (iter.toNat * pllAutoTuneIterCount) (.errno 0)

end Functions

/-! ### The sequences -/

section Sequences

variable (C : CmdIf)

/-- The command of `__rf_switch_tx`. -/
def txCmd : Cmd := ⟨swCmd C C.switchTx [], 0⟩

/-- The command of `__rf_switch_rx`. -/
def rxCmd : Cmd := ⟨swCmd C C.switchRx [], 0⟩

/-- What `__rf_set_rx_agc_gain_index` sends. -/
def agcCmds (beamMask lutIndex : BitVec 8) : List Cmd :=
  [txCmd C, rxCmd C, ⟨swCmd C C.setRxGain (C.rxGain beamMask lutIndex), 8⟩, txCmd C, rxCmd C]

/-- What `__rf_set_auto_tune_pll` sends. -/
def tuneCmds (iter : BitVec 8) : List Cmd :=
  (List.replicate (iter.toNat * pllAutoTuneIterCount * txRxSwitchIterCount) [rxCmd C, txCmd C]).flatten

theorem rfSetRxAgcGainIndex_eq (beamMask lutIndex : BitVec 8) :
    rfSetRxAgcGainIndex C beamMask lutIndex = Dialogue.straight (.result C.resultOk) (agcCmds C beamMask lutIndex) (.errno 0) := by
  refine Dialogue.query_bind_eq_straight (fun r hr => if_pos hr) ((if_neg (not_not.mpr rfl)).trans ?_)
  refine Dialogue.query_bind_eq_straight (fun r hr => if_pos hr) ((if_neg (not_not.mpr rfl)).trans ?_)
  refine Dialogue.query_bind_eq_straight (fun r hr => if_pos hr) ((if_neg (not_not.mpr rfl)).trans ?_)
  refine Dialogue.query_bind_eq_straight (fun r hr => if_pos hr) ((if_neg (not_not.mpr rfl)).trans ?_)
  exact (Dialogue.straight_singleton _ _).symm

/-- What the outer loop does with what the inner one ends with. -/
def afterSwitch (qs : List Cmd) (x : Bool × RfRet) : Dialogue Cmd RfRet RfRet :=
  if x.1 = true then pure x.2 else Dialogue.straight (.result C.resultOk) qs x.2

/-- The inner loop, and a straight program after it. -/
theorem switchLoop_bind (qs : List Cmd) : ∀ (j : ℕ) (ret : RfRet),
    (switchLoop C j ret >>= afterSwitch C qs) =
      Dialogue.straight (.result C.resultOk) ((List.replicate j [rxCmd C, txCmd C]).flatten ++ qs) ret
  | 0, _ => rfl
  | j + 1, ret => by
    rw [List.replicate_succ, List.flatten_cons, List.append_assoc]
    have hrx : ∀ f : RfRet → Dialogue Cmd RfRet (Bool × RfRet), ((rfSwitchRx C >>= f) >>= afterSwitch C qs) =
        (rfSwitchRx C >>= fun r => f r >>= afterSwitch C qs) := fun _ => rfl
    have htx : ∀ f : RfRet → Dialogue Cmd RfRet (Bool × RfRet), ((rfSwitchTx C >>= f) >>= afterSwitch C qs) =
        (rfSwitchTx C >>= fun r => f r >>= afterSwitch C qs) := fun _ => rfl
    rw [switchLoop, hrx]
    refine Dialogue.query_bind_eq_straight (fun r hr => ?_) ?_
    · rw [if_pos hr]
      rfl
    · rw [if_neg (not_not.mpr rfl), htx]
      refine Dialogue.query_bind_eq_straight (fun r hr => ?_) ?_
      · rw [if_pos hr]
        rfl
      · rw [if_neg (not_not.mpr rfl)]
        exact switchLoop_bind qs j _

theorem tuneLoop_eq : ∀ (i : ℕ) (ret : RfRet),
    tuneLoop C i ret = Dialogue.straight (.result C.resultOk)
      ((List.replicate (i * txRxSwitchIterCount) [rxCmd C, txCmd C]).flatten) ret
  | 0, _ => by
    rw [Nat.zero_mul]
    rfl
  | i + 1, ret => by
    have hloop : tuneLoop C (i + 1) ret = (switchLoop C txRxSwitchIterCount ret >>=
        afterSwitch C ((List.replicate (i * txRxSwitchIterCount) [rxCmd C, txCmd C]).flatten)) := by
      rw [tuneLoop]
      congr 1
      funext x
      obtain ⟨out, ret⟩ := x
      unfold afterSwitch
      rw [← tuneLoop_eq i ret]
    rw [hloop, switchLoop_bind, Nat.succ_mul, Nat.add_comm, List.replicate_add, List.flatten_append]

theorem rfSetAutoTunePll_eq (iter : BitVec 8) :
    rfSetAutoTunePll C iter = Dialogue.straight (.result C.resultOk) (tuneCmds C iter) (.errno 0) :=
  tuneLoop_eq C _ _

end Sequences

/-! ### A function over the mailbox -/

section Run

variable (H : RfIf) {α : Type}

/-- The mailbox, what is left of a function, and whether the call in progress is its own;
then, for the record, the calls that were accepted (the number, whether it is the function's
own, the command), the commands the modem took (the number it was posted with, the
descriptor), and the function's calls that returned. -/
structure SeqState (α : Type) where
  rf : RfState
  prog : Dialogue Cmd RfRet α
  running : Bool
  accepted : List (ℕ × Bool × Cmd)
  taken : List (ℕ × Words)
  returned : List (ℕ × Cmd × RfRet)

/-- Who moves: the function, to its next command, or anybody else, as in `RfInput`. -/
inductive SeqInput where
  | next
  | rf (r : RfInput)

/-- One step. -/
def seqStep (s : SeqState α) : SeqInput → SeqState α × Unit
  | .next =>
    match s.prog with
    | .ask c _ =>
      if s.rf.pc = .idle then
        ({ s with rf := (rfStep H s.rf (.call c.words c.dataSize)).1, running := true,
                  accepted := s.accepted ++ [(s.rf.serial + 1, true, c)] }, ())
      else (s, ())
    | _ => (s, ())
  | .rf r =>
    let t := (rfStep H s.rf r).1
    match r with
    | .call words dataSize =>
      if s.rf.pc = .idle then
        ({ s with rf := t, accepted := s.accepted ++ [(s.rf.serial + 1, false, ⟨words, dataSize⟩)] }, ())
      else (s, ())
    | .host =>
      match (rfStep H s.rf r).2.ret, s.running, s.prog with
      | some ret, true, .ask c k =>
        ({ s with rf := t, prog := k ret, running := false, returned := s.returned ++ [(s.rf.serial, c, ret)] }, ())
      | _, _, _ => ({ s with rf := t }, ())
    | .modemIrq =>
      if s.rf.doorbell = true ∧ s.rf.status H = H.statusPosted then
        ({ s with rf := t, taken := s.taken ++ [(s.rf.tag, s.rf.hostSwcmd)] }, ())
      else ({ s with rf := t }, ())
    | .modemResult _ _ | .modemDone _ => ({ s with rf := t }, ())

/-- The function is called; the descriptor is FREE and nobody at work. -/
def seqInit (words : Words) (prog : Dialogue Cmd RfRet α) : SeqState α := ⟨rfInit H words, prog, false, [], [], []⟩

/-- No call gives up. -/
def SeqNoGiveUp (s : SeqState α) : SeqInput → Prop
  | .next => True
  | .rf r => NoGiveUp H s.rf r

instance (s : SeqState α) : ∀ i, Decidable (SeqNoGiveUp H s i)
  | .next => inferInstanceAs (Decidable True)
  | .rf r => inferInstanceAs (Decidable (NoGiveUp H s.rf r))

end Run

/-! ### Commands on their way -/

section Delivery

variable {H : RfIf} {α : Type} {s : SeqState α}

/-- The command as `rf_send_swcmd` sends it. -/
def prepared (H : RfIf) (words : Words) : Words :=
  Function.update (Function.update (Function.update words H.timeoutIdx H.rficRemoteCmdTimeout) H.statusIdx H.statusPosted)
    H.flagsIdx H.rfCmdFlagsRemote

/-- How many words `rf_send_swcmd` copies. -/
def cmdSize (H : RfIf) (dataSize : ℕ) : ℕ := (H.swcmdCommonSize + dataSize) / 4

/-- What the modem took is the whole of what a call sent. -/
def Arrived (H : RfIf) (t : ℕ × Words) (a : ℕ × Bool × Cmd) : Prop :=
  t.1 = a.1 ∧ ∀ i < cmdSize H a.2.2.dataSize, t.2 i = prepared H a.2.2.words i

/-- The call in progress is the last one that was accepted. -/
structure Current (s : SeqState α) (prev : List (ℕ × Bool × Cmd)) (c : Cmd) : Prop where
  accepted : s.accepted = prev ++ [(s.rf.serial, s.running, c)]
  dataSize : s.rf.dataSize = c.dataSize

/-- The command of the call in progress is whole in the descriptor. -/
def Whole (H : RfIf) (s : SeqState α) (c : Cmd) : Prop :=
  ∀ j < cmdSize H c.dataSize, s.rf.hostSwcmd j = prepared H c.words j

/-- Where the commands are, by where the host stands: all accepted ones have arrived but
that of the call in progress, until the modem has taken it. -/
def Delivery (H : RfIf) (s : SeqState α) : Prop :=
  match s.rf.pc with
  | .idle => s.running = false ∧ List.Forall₂ (Arrived H) s.taken s.accepted
  | .busyTest => ∃ prev c, Current s prev c ∧ s.rf.swCmd = c.words ∧ List.Forall₂ (Arrived H) s.taken prev
  | .doneTest => False
  | .copy i => ∃ prev c, Current s prev c ∧ s.rf.swCmd = prepared H c.words ∧
      (∀ j < i, s.rf.hostSwcmd j = prepared H c.words j) ∧ List.Forall₂ (Arrived H) s.taken prev
  | .raiseIrq => ∃ prev c, Current s prev c ∧ Whole H s c ∧ List.Forall₂ (Arrived H) s.taken prev
  | .poll _ | .timeoutTest _ => ∃ prev c, Current s prev c ∧
      if s.rf.doorbell = true then Whole H s c ∧ List.Forall₂ (Arrived H) s.taken prev
      else List.Forall₂ (Arrived H) s.taken s.accepted
  | .readResult => ∃ prev c, Current s prev c ∧ List.Forall₂ (Arrived H) s.taken s.accepted
  | .out ret => ∃ prev c, Current s prev c ∧ List.Forall₂ (Arrived H) s.taken s.accepted ∧ ∃ v, ret = .result v

/-- A call of anybody is accepted. -/
theorem Delivery.accept (h : Delivery H s) (hpc : s.rf.pc = .idle) (own : Bool) (c : Cmd) (prog : Dialogue Cmd RfRet α)
    (returned : List (ℕ × Cmd × RfRet)) :
    Delivery H { s with rf := (rfStep H s.rf (.call c.words c.dataSize)).1, prog := prog, running := own,
                        accepted := s.accepted ++ [(s.rf.serial + 1, own, c)], returned := returned } := by
  unfold Delivery at h
  rw [hpc] at h
  simp only [rfStep, if_pos hpc, Delivery]
  exact ⟨s.accepted, c, ⟨rfl, rfl⟩, rfl, h.2⟩

/-- A host access that ends no call keeps the commands where they are. -/
theorem Delivery.host (h : Delivery H s) (hI : RfInv H s.rf) (hg : NoGiveUp H s.rf .host) (hret : (hostStep H s.rf).2.ret = none) :
    Delivery H { s with rf := (hostStep H s.rf).1 } := by
  unfold Delivery at h
  unfold RfInv at hI
  unfold hostStep at hret ⊢
  cases hpc : s.rf.pc with
  | idle =>
    rw [hpc] at h
    simp only [Delivery, hpc]
    exact h
  | busyTest =>
    rw [hpc] at h hI
    obtain ⟨prev, c, hc, hcmd, hf⟩ := h
    simp only [Delivery, hI.2, ne_eq, not_true_eq_false, if_false, startCopy]
    exact ⟨prev, c, ⟨hc.accepted, hc.dataSize⟩, by rw [hcmd]; rfl, fun j hj => absurd hj (Nat.not_lt_zero j), hf⟩
  | doneTest =>
    rw [hpc] at h
    exact h.elim
  | copy i =>
    rw [hpc] at h
    obtain ⟨prev, c, hc, hcmd, hcopied, hf⟩ := h
    by_cases hi : i < (H.swcmdCommonSize + s.rf.dataSize) / 4
    · simp only [if_pos hi, Delivery]
      refine ⟨prev, c, ⟨hc.accepted, hc.dataSize⟩, hcmd, fun j hj => ?_, hf⟩
      by_cases hji : j = i
      · rw [hji, Function.update_self, hcmd]
      · rw [Function.update_of_ne hji]
        exact hcopied j (by omega)
    · simp only [if_neg hi, Delivery]
      refine ⟨prev, c, ⟨hc.accepted, hc.dataSize⟩, fun j hj => hcopied j ?_, hf⟩
      rw [cmdSize, ← hc.dataSize] at hj
      omega
  | raiseIrq =>
    rw [hpc] at h
    obtain ⟨prev, c, hc, hw, hf⟩ := h
    simp only [Delivery]
    exact ⟨prev, c, ⟨hc.accepted, hc.dataSize⟩, by rw [if_pos trivial]; exact ⟨hw, hf⟩⟩
  | poll retries =>
    rw [hpc] at h
    obtain ⟨prev, c, hc, hrest⟩ := h
    dsimp only
    split_ifs <;> exact ⟨prev, c, ⟨hc.accepted, hc.dataSize⟩, hrest⟩
  | timeoutTest retries =>
    rw [hpc] at h hI
    obtain ⟨prev, c, hc, hrest⟩ := h
    dsimp only
    split_ifs with hlate
    · obtain ⟨rfl, hlate⟩ := hlate
      exact absurd (hg hpc) hlate
    · have hdone : s.rf.status H = H.statusDone := by
        by_contra hn
        by_cases h0 : retries = 0
        · exact hlate ⟨h0, hn⟩
        · exact hn (hI.2 h0).status
      have hquiet := (hI.1.answered_of_done hdone).toQuiet.doorbell
      rw [if_neg (by rw [hquiet]; decide)] at hrest
      exact ⟨prev, c, ⟨hc.accepted, hc.dataSize⟩, hrest⟩
  | readResult =>
    rw [hpc] at h
    obtain ⟨prev, c, hc, hf⟩ := h
    exact ⟨prev, c, ⟨hc.accepted, hc.dataSize⟩, hf, _, rfl⟩
  | out ret => simp [hpc] at hret

/-- The access that ends a call. -/
theorem Delivery.ret (h : Delivery H s) {ret : RfRet} (hret : (hostStep H s.rf).2.ret = some ret) :
    s.rf.pc = .out ret ∧ (∃ prev c, Current s prev c) ∧ List.Forall₂ (Arrived H) s.taken s.accepted ∧ (∃ v, ret = .result v) := by
  unfold Delivery at h
  unfold hostStep at hret
  cases hpc : s.rf.pc with
  | out ret' =>
    rw [hpc] at h
    obtain ⟨prev, c, hc, hf, hv⟩ := h
    obtain rfl : ret' = ret := by simpa [hpc] using hret
    exact ⟨rfl, ⟨prev, c, hc⟩, hf, hv⟩
  | doneTest =>
    rw [hpc] at h
    exact h.elim
  | timeoutTest retries =>
    simp only [hpc] at hret
    split_ifs at hret
  | idle | raiseIrq | readResult => simp [hpc] at hret
  | busyTest | copy _ | poll _ =>
    simp only [hpc] at hret
    split_ifs at hret

/-- A modem at work on its commands changes what it writes only. -/
theorem modem_frame {t : RfState} {r : RfInput} (hr : r.isModem = true) (hne : r ≠ .modemIrq) :
    ((rfStep H t r).1.pc = t.pc ∧ (rfStep H t r).1.doorbell = t.doorbell ∧ (rfStep H t r).1.serial = t.serial ∧
      (rfStep H t r).1.dataSize = t.dataSize) ∧ (t.jobs = [] → (rfStep H t r).1 = t) := by
  cases r with
  | call | host => cases hr
  | modemIrq => exact absurd rfl hne
  | modemResult k v =>
    refine ⟨?_, fun hj => by simp [rfStep, modemResult, hj]⟩
    simp only [rfStep, modemResult]
    split <;> exact ⟨rfl, rfl, rfl, rfl⟩
  | modemDone k =>
    refine ⟨?_, fun hj => by simp [rfStep, modemDone, hj]⟩
    simp only [rfStep, modemDone]
    split <;> exact ⟨rfl, rfl, rfl, rfl⟩

/-- While the doorbell has not arrived the modem has no command. -/
theorem Waiting.of_doorbell {t : RfState} (h : Waiting H t) (hd : t.doorbell = true) :
    t.jobs = [] ∧ t.status H = H.statusPosted ∧ t.tag = t.serial := by
  cases h with
  | posted _ hj hs ht => exact ⟨hj, hs, ht⟩
  | taken hd' | executed hd' => cases hd'.symm.trans hd
  | answered ha => cases ha.toQuiet.doorbell.symm.trans hd

/-- The modem moves while a command may be on its way. -/
theorem Waiting.deliver (hw : Waiting H s.rf) {prev : List (ℕ × Bool × Cmd)} {c : Cmd} (hc : Current s prev c)
    (hrest : if s.rf.doorbell = true then Whole H s c ∧ List.Forall₂ (Arrived H) s.taken prev
      else List.Forall₂ (Arrived H) s.taken s.accepted) {r : RfInput} (hr : r.isModem = true) :
    let t := (seqStep H s (.rf r)).1
    t.rf.pc = s.rf.pc ∧ Current t prev c ∧
      if t.rf.doorbell = true then Whole H t c ∧ List.Forall₂ (Arrived H) t.taken prev
      else List.Forall₂ (Arrived H) t.taken t.accepted := by
  by_cases hirq : r = .modemIrq
  · subst hirq
    by_cases hd : s.rf.doorbell = true
    · obtain ⟨-, hs, ht⟩ := hw.of_doorbell hd
      rw [if_pos hd] at hrest
      have hlast : List.Forall₂ (Arrived H) [(s.rf.tag, s.rf.hostSwcmd)] [(s.rf.serial, s.running, c)] :=
        .cons ⟨ht, hrest.1⟩ .nil
      simp only [seqStep, rfStep, modemIrq, hd, hs, and_self, if_true]
      refine ⟨trivial, ⟨hc.accepted, hc.dataSize⟩, ?_⟩
      rw [if_neg (by simp), hc.accepted]
      exact List.rel_append hrest.2 hlast
    · have hd' : s.rf.doorbell = false := by simpa using hd
      simp only [seqStep, rfStep, modemIrq, hd', Bool.false_eq_true, false_and, if_false] at hrest ⊢
      exact ⟨trivial, hc, hrest⟩
  · have hstep : (seqStep H s (.rf r)).1 = { s with rf := (rfStep H s.rf r).1 } := by
      cases r with
      | call | host => cases hr
      | modemIrq => exact absurd rfl hirq
      | modemResult | modemDone => rfl
    obtain ⟨⟨hpc, hdoor, hserial, hsize⟩, hidle⟩ := modem_frame (H := H) (t := s.rf) hr hirq
    dsimp only
    rw [hstep]
    by_cases hd : s.rf.doorbell = true
    · rw [hidle (hw.of_doorbell hd).1]
      exact ⟨rfl, hc, hrest⟩
    · rw [if_neg hd] at hrest
      refine ⟨hpc, ⟨?_, hsize.trans hc.dataSize⟩, ?_⟩
      · dsimp only
        rw [hserial]
        exact hc.accepted
      · rw [hdoor, if_neg hd]
        exact hrest

/-- The modem moves. -/
theorem Delivery.modem (h : Delivery H s) (hI : RfInv H s.rf) {r : RfInput} (hr : r.isModem = true) :
    Delivery H (seqStep H s (.rf r)).1 := by
  -- outside the polling loop the modem is quiet
  have key : Quiet s.rf → Delivery H (seqStep H s (.rf r)).1 := fun hq => by
    have hsame := hq.modem_step (H := H) hr
    cases r with
    | call | host => cases hr
    | modemIrq =>
      simp only [seqStep, hq.doorbell, Bool.false_eq_true, false_and, if_false, hsame]
      exact h
    | modemResult | modemDone =>
      simp only [seqStep, hsame]
      exact h
  unfold RfInv at hI
  cases hpc : s.rf.pc with
  | idle | busyTest | copy i | raiseIrq =>
    rw [hpc] at hI
    exact key hI.1
  | doneTest =>
    rw [hpc] at hI
    exact hI.elim
  | poll retries =>
    rw [hpc] at hI
    unfold Delivery at h
    rw [hpc] at h
    obtain ⟨prev, c, hc, hrest⟩ := h
    obtain ⟨hpc', hc', hrest'⟩ := Waiting.deliver hI hc hrest hr
    unfold Delivery
    rw [hpc', hpc]
    exact ⟨prev, c, hc', hrest'⟩
  | timeoutTest retries =>
    rw [hpc] at hI
    unfold Delivery at h
    rw [hpc] at h
    obtain ⟨prev, c, hc, hrest⟩ := h
    obtain ⟨hpc', hc', hrest'⟩ := Waiting.deliver hI.1 hc hrest hr
    unfold Delivery
    rw [hpc', hpc]
    exact ⟨prev, c, hc', hrest'⟩
  | readResult =>
    rw [hpc] at hI
    exact key hI.toQuiet
  | out ret =>
    rw [hpc] at hI
    exact key hI.1.toQuiet

/-! ### Runs -/

/-- The function's own calls, with their numbers. -/
def SeqState.own (s : SeqState α) : List (ℕ × Cmd) := (s.accepted.filter fun a => a.2.1).map fun a => (a.1, a.2.2)

/-- How far the function has come: what is left of it, the call it waits for, and its answers. -/
structure Progress (p : Dialogue Cmd RfRet α) (s : SeqState α) : Prop where
  left : Dialogue.Left p (s.returned.map Prod.snd) s.prog
  waits : if s.running = true then
      ∃ c k, s.prog = .ask c k ∧ s.own = s.returned.map (fun e => (e.1, e.2.1)) ++ [(s.rf.serial, c)]
    else s.own = s.returned.map fun e => (e.1, e.2.1)
  answered : ∀ e ∈ s.returned, ∃ v, e.2.2 = .result v ∧ (e.1, v) ∈ s.rf.produced
  numbered : s.accepted.map Prod.fst = List.range' 1 s.rf.serial

/-- What a run without a give-up keeps. -/
structure SeqInv (H : RfIf) (p : Dialogue Cmd RfRet α) (s : SeqState α) : Prop where
  rf : RfInv H s.rf
  delivery : Delivery H s
  progress : Progress p s

/-- The numbers and the results of the mailbox only grow, and a call's number is new. -/
theorem rfStep_grows (t : RfState) (r : RfInput) : (∀ x ∈ t.produced, x ∈ (rfStep H t r).1.produced) ∧
    ((∀ w n, r ≠ .call w n) → (rfStep H t r).1.serial = t.serial) := by
  cases r with
  | call w n =>
    refine ⟨fun x hx => ?_, fun h => absurd rfl (h w n)⟩
    simp only [rfStep]
    split_ifs <;> exact hx
  | host =>
    simp only [rfStep, hostStep]
    cases t.pc with
    | busyTest | doneTest | copy _ | poll _ | timeoutTest _ =>
      dsimp only
      split_ifs <;> exact ⟨fun x hx => hx, fun _ => rfl⟩
    | idle | raiseIrq | readResult | out _ => exact ⟨fun x hx => hx, fun _ => rfl⟩
  | modemIrq =>
    simp only [rfStep, modemIrq]
    split_ifs <;> exact ⟨fun x hx => hx, fun _ => rfl⟩
  | modemResult k v =>
    simp only [rfStep, modemResult]
    split
    · exact ⟨fun x hx => List.mem_cons_of_mem _ hx, fun _ => rfl⟩
    · exact ⟨fun x hx => hx, fun _ => rfl⟩
  | modemDone k =>
    simp only [rfStep, modemDone]
    split <;> exact ⟨fun x hx => hx, fun _ => rfl⟩

/-- Nothing that a function sees has happened. -/
theorem Progress.quiet {p : Dialogue Cmd RfRet α} (h : Progress p s) {t : RfState} {taken : List (ℕ × Words)}
    (hserial : t.serial = s.rf.serial) (hp : ∀ x ∈ s.rf.produced, x ∈ t.produced) :
    Progress p { s with rf := t, taken := taken } :=
  ⟨h.left, by
    have := h.waits
    rw [← hserial] at this
    exact this, fun e he => (h.answered e he).imp fun v hv => ⟨hv.1, hp _ hv.2⟩, by rw [hserial]; exact h.numbered⟩

/-- A call is accepted while none is in progress. -/
theorem Progress.accept {p : Dialogue Cmd RfRet α} (h : Progress p s) (hrun : s.running = false) (hpc : s.rf.pc = .idle) (own : Bool)
    (c : Cmd) (hown : own = true → ∃ k, s.prog = .ask c k) :
    Progress p { s with rf := (rfStep H s.rf (.call c.words c.dataSize)).1, running := own,
                        accepted := s.accepted ++ [(s.rf.serial + 1, own, c)] } := by
  have hw := h.waits
  rw [if_neg (by rw [hrun]; decide)] at hw
  have hcall : (rfStep H s.rf (.call c.words c.dataSize)).1.serial = s.rf.serial + 1 ∧
      (rfStep H s.rf (.call c.words c.dataSize)).1.produced = s.rf.produced := by
    simp only [rfStep, if_pos hpc]
    exact ⟨trivial, trivial⟩
  refine ⟨h.left, ?_, fun e he => ?_, ?_⟩
  · cases own with
    | true =>
      obtain ⟨k, hk⟩ := hown rfl
      rw [if_pos rfl]
      refine ⟨c, k, hk, ?_⟩
      dsimp only
      rw [hcall.1, ← hw]
      simp [SeqState.own]
    | false =>
      rw [if_neg Bool.false_ne_true]
      dsimp only
      rw [← hw]
      simp [SeqState.own]
  · dsimp only
    rw [hcall.2]
    exact h.answered e he
  · dsimp only
    rw [hcall.1, List.map_append, h.numbered, List.range'_1_concat, List.map_singleton, Nat.add_comm 1]

theorem seqInv_step {p : Dialogue Cmd RfRet α} (h : SeqInv H p s) (i : SeqInput) (hg : SeqNoGiveUp H s i) :
    SeqInv H p (seqStep H s i).1 := by
  obtain ⟨hI, hD, hP⟩ := h
  have hidle : s.rf.pc = .idle → s.running = false := fun hpc => by
    unfold Delivery at hD
    rw [hpc] at hD
    exact hD.1
  cases i with
  | next =>
    by_cases hpc : s.rf.pc = .idle
    · cases hprog : s.prog with
      | done a =>
        have hstep : (seqStep H s .next).1 = s := by simp [seqStep, hprog]
        rw [hstep]
        exact ⟨hI, hD, hP⟩
      | fault =>
        have hstep : (seqStep H s .next).1 = s := by simp [seqStep, hprog]
        rw [hstep]
        exact ⟨hI, hD, hP⟩
      | ask c k =>
        have hstep : (seqStep H s .next).1 = { s with
            rf := (rfStep H s.rf (.call c.words c.dataSize)).1
            running := true
            accepted := s.accepted ++ [(s.rf.serial + 1, true, c)] } := by
          simp [seqStep, hprog, hpc]
        rw [hstep]
        exact ⟨hI.step (.call c.words c.dataSize) trivial, hD.accept hpc true c s.prog s.returned,
          hP.accept (hidle hpc) hpc true c fun _ => ⟨k, hprog⟩⟩
    · have hstep : (seqStep H s .next).1 = s := by
        cases hprog : s.prog <;> simp [seqStep, hprog, hpc]
      rw [hstep]
      exact ⟨hI, hD, hP⟩
  | rf r =>
    have hgrow := rfStep_grows (H := H) s.rf r
    cases r with
    | call w n =>
      by_cases hpc : s.rf.pc = .idle
      · have hrun := hidle hpc
        have hstep : (seqStep H s (.rf (.call w n))).1 = { s with
            rf := (rfStep H s.rf (.call w n)).1
            running := false
            accepted := s.accepted ++ [(s.rf.serial + 1, false, ⟨w, n⟩)] } := by
          simp [seqStep, hpc, hrun]
        rw [hstep]
        exact ⟨hI.step (.call w n) trivial, hD.accept hpc false ⟨w, n⟩ s.prog s.returned,
          hP.accept hrun hpc false ⟨w, n⟩ fun h => by cases h⟩
      · have hstep : (seqStep H s (.rf (.call w n))).1 = s := by simp [seqStep, hpc]
        rw [hstep]
        exact ⟨hI, hD, hP⟩
    | host =>
      have hI' := hI.step .host hg
      cases hret : (hostStep H s.rf).2.ret with
      | none =>
        have hstep : (seqStep H s (.rf .host)).1 = { s with rf := (hostStep H s.rf).1 } := by
          simp [seqStep, rfStep, hret]
        rw [hstep]
        exact ⟨hI', hD.host hI hg hret, hP.quiet (hgrow.2 fun _ _ h => by cases h) hgrow.1⟩
      | some ret =>
        obtain ⟨hpc, -, hf, v, rfl⟩ := hD.ret hret
        have hpc' : (hostStep H s.rf).1.pc = .idle := by simp [hostStep, hpc]
        have hprod : (s.rf.serial, v) ∈ s.rf.produced := by
          unfold RfInv at hI
          rw [hpc] at hI
          exact hI.2 v rfl
        have hserial : (hostStep H s.rf).1.serial = s.rf.serial := hgrow.2 fun _ _ h => by cases h
        have hw := hP.waits
        by_cases hrun : s.running = true
        · rw [if_pos hrun] at hw
          obtain ⟨c, k, hprog, hown⟩ := hw
          have hstep : (seqStep H s (.rf .host)).1 = { s with
              rf := (hostStep H s.rf).1
              prog := k (.result v)
              running := false
              returned := s.returned ++ [(s.rf.serial, c, .result v)] } := by
            simp [seqStep, rfStep, hret, hrun, hprog]
          rw [hstep]
          refine ⟨hI', ?_, ?_, ?_, fun e he => ?_, ?_⟩
          · unfold Delivery
            dsimp only
            rw [hpc']
            exact ⟨rfl, hf⟩
          · rw [List.map_append]
            exact .answer _ (hprog ▸ hP.left)
          · rw [if_neg Bool.false_ne_true]
            refine Eq.trans (b := s.own) rfl ?_
            rw [hown, List.map_append]
            rfl
          · rcases List.mem_append.mp he with he | he
            · exact (hP.answered e he).imp fun v hv => ⟨hv.1, hgrow.1 _ hv.2⟩
            · rw [List.mem_singleton.mp he]
              exact ⟨v, rfl, hgrow.1 _ hprod⟩
          · dsimp only
            rw [hserial]
            exact hP.numbered
        · have hrun' : s.running = false := by simpa using hrun
          have hstep : (seqStep H s (.rf .host)).1 = { s with rf := (hostStep H s.rf).1 } := by
            simp [seqStep, rfStep, hret, hrun']
          rw [hstep]
          refine ⟨hI', ?_, hP.quiet hserial hgrow.1⟩
          unfold Delivery
          dsimp only
          rw [hpc']
          exact ⟨hrun', hf⟩
    | modemIrq =>
      have hstep : (seqStep H s (.rf .modemIrq)).1.rf = (rfStep H s.rf .modemIrq).1 := by
        simp only [seqStep]
        split_ifs <;> rfl
      refine ⟨hstep ▸ hI.step .modemIrq trivial, hD.modem hI rfl, ?_⟩
      have hquiet : ∀ taken, Progress p { s with rf := (rfStep H s.rf .modemIrq).1, taken := taken } := fun taken =>
        hP.quiet (hgrow.2 fun _ _ h => by cases h) hgrow.1
      simp only [seqStep]
      split_ifs
      · exact hquiet _
      · exact hquiet s.taken
    | modemResult k v =>
      exact ⟨hI.step (.modemResult k v) trivial, hD.modem hI rfl, hP.quiet (hgrow.2 fun _ _ h => by cases h) hgrow.1⟩
    | modemDone k =>
      exact ⟨hI.step (.modemDone k) trivial, hD.modem hI rfl, hP.quiet (hgrow.2 fun _ _ h => by cases h) hgrow.1⟩

theorem seqInv_init (H : RfIf) (words : Words) (p : Dialogue Cmd RfRet α) : SeqInv H p (seqInit H words p) := by
  refine ⟨rfInit_inv H words, ⟨rfl, .nil⟩, ⟨.start, ?_, fun e he => absurd he List.not_mem_nil, rfl⟩⟩
  rw [if_neg (show ¬ (seqInit H words p).running = true from Bool.false_ne_true)]
  rfl

theorem seqInv_exec {words : Words} {p : Dialogue Cmd RfRet α} {run : List SeqInput}
    (h : Guarded (seqStep H) (SeqNoGiveUp H) (seqInit H words p) run) :
    SeqInv H p (exec (seqStep H) (seqInit H words p) run) :=
  exec_inv_of_guarded (I := SeqInv H p) (fun _ i hs hg => seqInv_step hs i hg) run (seqInv_init H words p) h

/-- The commands that have arrived, of those that were accepted. -/
theorem Delivery.arrived (h : Delivery H s) : ∃ prev, prev <+: s.accepted ∧ s.accepted.length ≤ prev.length + 1 ∧
    (s.rf.pc = .idle → prev = s.accepted) ∧ List.Forall₂ (Arrived H) s.taken prev := by
  have hlast : ∀ {prev c}, s.rf.pc ≠ .idle → Current s prev c → List.Forall₂ (Arrived H) s.taken prev →
      ∃ prev, prev <+: s.accepted ∧ s.accepted.length ≤ prev.length + 1 ∧ (s.rf.pc = .idle → prev = s.accepted) ∧
        List.Forall₂ (Arrived H) s.taken prev := fun {prev c} hpc hc hf =>
    ⟨prev, ⟨_, hc.accepted.symm⟩, by simp [hc.accepted], fun h => absurd h hpc, hf⟩
  have hall : List.Forall₂ (Arrived H) s.taken s.accepted → ∃ prev, prev <+: s.accepted ∧ s.accepted.length ≤ prev.length + 1 ∧
      (s.rf.pc = .idle → prev = s.accepted) ∧ List.Forall₂ (Arrived H) s.taken prev := fun hf =>
    ⟨s.accepted, List.prefix_rfl, Nat.le_succ _, fun _ => rfl, hf⟩
  unfold Delivery at h
  cases hpc : s.rf.pc with
  | idle =>
    rw [hpc] at h
    exact hpc ▸ hall h.2
  | busyTest =>
    rw [hpc] at h
    obtain ⟨prev, c, hc, -, hf⟩ := h
    exact hpc ▸ hlast (by rw [hpc]; simp) hc hf
  | doneTest =>
    rw [hpc] at h
    exact h.elim
  | copy i =>
    rw [hpc] at h
    obtain ⟨prev, c, hc, -, -, hf⟩ := h
    exact hpc ▸ hlast (by rw [hpc]; simp) hc hf
  | raiseIrq =>
    rw [hpc] at h
    obtain ⟨prev, c, hc, -, hf⟩ := h
    exact hpc ▸ hlast (by rw [hpc]; simp) hc hf
  | poll _ | timeoutTest _ =>
    rw [hpc] at h
    obtain ⟨prev, c, hc, hrest⟩ := h
    split_ifs at hrest
    · exact hpc ▸ hlast (by rw [hpc]; simp) hc hrest.2
    · exact hpc ▸ hall hrest
  | readResult =>
    rw [hpc] at h
    obtain ⟨prev, c, -, hf⟩ := h
    exact hpc ▸ hall hf
  | out ret =>
    rw [hpc] at h
    obtain ⟨prev, c, -, hf, -⟩ := h
    exact hpc ▸ hall hf

/-- **Commands arrive.** Whatever a function sends, with other callers' commands in between and
the modem's steps in any order, as long as no call gives up: the commands the modem has taken
are the accepted ones, each once, in order and with every word that is sent; only the command
of a call in progress may still be on its way. -/
theorem commands_arrive (H : RfIf) (words : Words) (p : Dialogue Cmd RfRet α) (run : List SeqInput)
    (h : Guarded (seqStep H) (SeqNoGiveUp H) (seqInit H words p) run) :
    let s := exec (seqStep H) (seqInit H words p) run
    s.accepted.map Prod.fst = List.range' 1 s.accepted.length ∧
      ∃ prev, prev <+: s.accepted ∧ s.accepted.length ≤ prev.length + 1 ∧ (s.rf.pc = .idle → prev = s.accepted) ∧
        List.Forall₂ (Arrived H) s.taken prev := by
  intro s
  have hinv : SeqInv H p s := seqInv_exec h
  refine ⟨?_, hinv.delivery.arrived⟩
  have hnum := hinv.progress.numbered
  have hlen := congrArg List.length hnum
  rw [List.length_map, List.length_range'] at hlen
  rw [hnum, hlen]

/-- Constants for a descriptor of five words before the data. -/
def cmdIfSmall : CmdIf where
  cmdIdx := 0
  coreIdIdx := 5
  dataIdx := 6
  switchTx := 21
  switchRx := 22
  setRxGain := 23
  rxGain := fun beamMask lutIndex => [lutIndex.setWidth 32, beamMask.setWidth 32]
  resultOk := 0

/-- The moves from a call's acceptance to its return, if the modem answers `v` at once. -/
def callMoves (v : BitVec 32) : List RfInput :=
  List.replicate 8 .host ++ [.modemIrq, .modemResult 0 v, .modemDone 0] ++ List.replicate 4 .host

/-- The same as inputs. -/
def callRun (v : BitVec 32) : List SeqInput := (callMoves v).map .rf

/-- A command of the sequence and one of another caller. -/
theorem commands_arrive_of_two :
    let run := .next :: callRun 0 ++ .rf (.call (fun _ => 7) 0) :: callRun 0
    let s := exec (seqStep rfIfSmall) (seqInit rfIfSmall (fun _ => 0) (rfSetAutoTunePll cmdIfSmall 1)) run
    s.accepted.map Prod.fst = List.range' 1 s.accepted.length := by
  intro run s
  exact (commands_arrive rfIfSmall (fun _ => 0) (rfSetAutoTunePll cmdIfSmall 1) run (by decide +kernel)).1

/-- What a function that sends `cmds` in turn and stops at the first result that is not OK has
done: its own calls, in order, are the first of `cmds`, each answered by a result the modem
produced for it; and if it has ended, it ended at the first bad result, or with all of them
sent and good, with 0 if there was none to send. -/
structure SentInTurn (ok : BitVec 32) (cmds : List Cmd) (s : SeqState RfRet) : Prop where
  sent : s.own.map Prod.snd <+: cmds
  answered : ∀ e ∈ s.returned, ∃ v, e.2.2 = .result v ∧ (e.1, v) ∈ s.rf.produced
  calls : s.returned.map (fun e => (e.1, e.2.1)) <+: s.own ∧ s.own.length ≤ s.returned.length + 1
  ended : ∀ ret, s.prog = .done ret → s.own.length = s.returned.length ∧
    ((s.own.map Prod.snd = cmds ∧ (∀ e ∈ s.returned, e.2.2 = .result ok) ∧ (cmds ≠ [] → ret = .result ok) ∧
        (cmds = [] → ret = .errno 0)) ∨
      ∃ pre n c, s.returned = pre ++ [(n, c, ret)] ∧ ret ≠ .result ok ∧ ∀ e ∈ pre, e.2.2 = .result ok)

theorem Progress.sentInTurn {ok : BitVec 32} {cmds : List Cmd} {s : SeqState RfRet}
    (h : Progress (Dialogue.straight (.result ok) cmds (.errno 0)) s) : SentInTurn ok cmds s := by
  obtain ⟨rest, hcmds, hleft⟩ := Dialogue.left_straight h.left
  have hw := h.waits
  have hfst : (s.returned.map Prod.snd).map Prod.fst = (s.returned.map fun e => (e.1, e.2.1)).map Prod.snd := by
    rw [List.map_map, List.map_map]
    rfl
  rw [hfst] at hcmds
  refine ⟨?_, h.answered, ?_, fun ret hret => ?_⟩
  · split_ifs at hw with hrun
    · obtain ⟨c, k, hprog, hown⟩ := hw
      rcases hleft with ⟨-, hp⟩ | ⟨_, _, _, _, _, _, hp⟩
      · cases rest with
        | nil => cases hprog.symm.trans hp
        | cons c' rest =>
          obtain ⟨rfl, -⟩ : c = c' ∧ _ := by simpa [Dialogue.straight] using hprog.symm.trans hp
          rw [hown, List.map_append, hcmds]
          exact ⟨rest, by simp⟩
      · cases hprog.symm.trans hp
    · rw [hw, hcmds]
      exact ⟨rest, rfl⟩
  · split_ifs at hw with hrun
    · obtain ⟨c, k, -, hown⟩ := hw
      rw [hown]
      exact ⟨⟨_, rfl⟩, by simp⟩
    · rw [hw]
      exact ⟨List.prefix_rfl, by simp⟩
  · rw [if_neg (fun hrun => by
      rw [if_pos hrun] at hw
      obtain ⟨c, k, hprog, -⟩ := hw
      cases hprog.symm.trans hret)] at hw
    refine ⟨by rw [hw, List.length_map], ?_⟩
    rcases hleft with ⟨hok, hp⟩ | ⟨pre, c, r, hlog, hr, hpre, hp⟩
    · left
      cases rest with
      | cons c' rest => cases hret.symm.trans hp
      | nil =>
        have hgood : ∀ e ∈ s.returned, e.2.2 = .result ok := fun e he => hok e.2 (List.mem_map_of_mem he)
        obtain rfl : ret = _ := Dialogue.done.inj (hret.symm.trans hp)
        refine ⟨by rw [hw, hcmds, List.append_nil], hgood, fun hne => ?_, fun hnil => ?_⟩
        · cases hl : (s.returned.map Prod.snd).getLast? with
          | none =>
            rw [List.getLast?_eq_none_iff, List.map_eq_nil_iff] at hl
            rw [hl] at hcmds
            exact absurd hcmds hne
          | some e => exact hok e (List.mem_of_getLast? hl)
        · have hlog : s.returned.map Prod.snd = [] := by
            rw [hnil] at hcmds
            simpa using hcmds.symm
          rw [hlog]
          rfl
    · right
      obtain rfl : ret = r := Dialogue.done.inj (hret.symm.trans hp)
      have hne : s.returned ≠ [] := by
        intro hnil
        simp [hnil] at hlog
      obtain ⟨init, last, hsplit⟩ := (List.eq_nil_or_concat' s.returned).resolve_left hne
      obtain ⟨n, e⟩ := last
      rw [hsplit, List.map_append] at hlog
      obtain ⟨hinit, hlast⟩ := List.append_inj' hlog rfl
      refine ⟨init, n, c, ?_, hr, fun e' he' => hpre e'.2 (hinit ▸ List.mem_map_of_mem he')⟩
      have : e = (c, ret) := by simpa using hlast
      rw [hsplit, this]

/-- **The sequences.** In every run in which no call gives up, `__rf_set_rx_agc_gain_index` has
sent its five commands and `__rf_set_auto_tune_pll` its pairs in turn, other callers' commands
aside, each answered by the modem's result for it, as far as the results were OK; and what they
return is the first result that was not, or OK when all were sent, or 0 when `iter` is 0. -/
theorem sequences_run (H : RfIf) (C : CmdIf) (words : Words) (run : List SeqInput) (beamMask lutIndex iter : BitVec 8) :
    (Guarded (seqStep H) (SeqNoGiveUp H) (seqInit H words (rfSetRxAgcGainIndex C beamMask lutIndex)) run →
      SentInTurn C.resultOk (agcCmds C beamMask lutIndex)
        (exec (seqStep H) (seqInit H words (rfSetRxAgcGainIndex C beamMask lutIndex)) run)) ∧
    (Guarded (seqStep H) (SeqNoGiveUp H) (seqInit H words (rfSetAutoTunePll C iter)) run →
      SentInTurn C.resultOk (tuneCmds C iter) (exec (seqStep H) (seqInit H words (rfSetAutoTunePll C iter)) run)) := by
  constructor
  · intro h
    rw [rfSetRxAgcGainIndex_eq] at h ⊢
    exact (seqInv_exec h).progress.sentInTurn
  · intro h
    rw [rfSetAutoTunePll_eq] at h ⊢
    exact (seqInv_exec h).progress.sentInTurn

/-- Two commands of each; the second result of the gain sequence is not OK. -/
theorem sequences_run_two :
    SentInTurn 0 (agcCmds cmdIfSmall 3 5) (exec (seqStep rfIfSmall)
        (seqInit rfIfSmall (fun _ => 0) (rfSetRxAgcGainIndex cmdIfSmall 3 5)) (.next :: callRun 0 ++ .next :: callRun 1)) ∧
      SentInTurn 0 (tuneCmds cmdIfSmall 1) (exec (seqStep rfIfSmall)
        (seqInit rfIfSmall (fun _ => 0) (rfSetAutoTunePll cmdIfSmall 1)) (.next :: callRun 0 ++ .next :: callRun 0)) := by
  constructor
  · exact (sequences_run rfIfSmall cmdIfSmall (fun _ => 0) _ 3 5 0).1 (by decide +kernel)
  · exact (sequences_run rfIfSmall cmdIfSmall (fun _ => 0) _ 0 0 1).2 (by decide +kernel)

end Delivery

end Rfic
end La12xx
