/-
# The software-command mailbox of the RFIC driver

`rf_send_swcmd` of `gul_rfic.c` copies a command into the one descriptor it
shares with the modem, rings, and polls the descriptor's status word until
the modem has written DONE or it has polled `RF_SWCMD_TIMEOUT_RETRIES` times.
It ends by marking the descriptor FREE, in both cases.

The host is a program with one access to the descriptor per step, and a run
interleaves its steps with the modem's in any way. Calls follow each other
(`mdata_lock`). The modem takes the POSTED command when a doorbell reaches
it, and finishes a command it has taken after any delay, first the result
and then the status. `rf_free_cmd`, which a caller runs afterwards, writes to
its own pointer variable and so does not reach the descriptor.
-/
import La12xx.Lib.Machine

namespace La12xx
namespace Rfic

open Machine

/-! ### Data -/

/-- `RF_SWCMD_TIMEOUT_RETRIES` -/
def rfSwcmdTimeoutRetries : ℕ := 5

/-- `EBUSY` -/
def ebusy : ℤ := 16

/-- What the driver takes from the host-interface headers: where the members
of `struct rf_sw_cmd_desc` stand, in words, and the values of its constants.
The status word is in the part before `data`, whose size `gul_rfic_init`
stores in `swcmd_common_size`. -/
structure RfIf where
  timeoutIdx : ℕ
  statusIdx : ℕ
  flagsIdx : ℕ
  resultIdx : ℕ
  swcmdCommonSize : ℕ
  statusFree : BitVec 32
  statusPosted : BitVec 32
  statusDone : BitVec 32
  rficRemoteCmdTimeout : BitVec 32
  rfCmdFlagsRemote : BitVec 32
  flags_ne_status : flagsIdx ≠ statusIdx
  result_ne_status : resultIdx ≠ statusIdx
  status_lt : statusIdx < swcmdCommonSize / 4
  posted_ne_free : statusPosted ≠ statusFree
  posted_ne_done : statusPosted ≠ statusDone
  done_ne_free : statusDone ≠ statusFree

/-- The words of a command descriptor. -/
abbrev Words := ℕ → BitVec 32

/-- What `rf_send_swcmd` returns: a value read from `remote_cmd->result`, or
an error of its own. -/
inductive RfRet where
  | result (v : BitVec 32)
  | errno (e : ℤ)
deriving DecidableEq, Repr

/-- Where `rf_send_swcmd` stands, by its next access to the descriptor. -/
inductive HostPc where
  | idle
  /-- the first status test -/
  | busyTest
  /-- the second one, for DONE -/
  | doneTest
  /-- word `i` of the copy is next -/
  | copy (i : ℕ)
  | raiseIrq
  /-- the head of the polling loop -/
  | poll (retries : ℕ)
  /-- the test after the loop -/
  | timeoutTest (retries : ℕ)
  | readResult
  /-- the label `out`, with `ret` -/
  | out (ret : RfRet)
deriving DecidableEq, Repr

/-- A command the modem has taken: whose it is, and the result once that has
been written. -/
structure Job where
  serial : ℕ
  result : Option (BitVec 32)
deriving DecidableEq, Repr

/-- `struct rf_host_stats`, as far as `rf_send_swcmd` counts. -/
structure RfHostStats where
  swCmdsDescBusy : ℕ
  swCmdsTimedOut : ℕ
  swCmdsTx : ℕ
deriving DecidableEq, Repr, Inhabited

/-- The descriptor, the doorbell, the modem, and the host with its local
command. `serial` numbers the calls; `tag` is the call that last wrote the
status POSTED; `produced` holds every result the modem has written, with the
call it was for. -/
structure RfState where
  hostSwcmd : Words
  doorbell : Bool
  jobs : List Job
  pc : HostPc
  swCmd : Words
  dataSize : ℕ
  stats : RfHostStats
  serial : ℕ
  tag : ℕ
  produced : List (ℕ × BitVec 32)

/-- Who moves. -/
inductive RfInput where
  /-- a caller, with its command, when no call is running -/
  | call (swCmd : Words) (dataSize : ℕ)
  /-- the host, by one access -/
  | host
  /-- the doorbell reaches the modem -/
  | modemIrq
  /-- the modem writes the result of the `k`-th command it has taken -/
  | modemResult (k : ℕ) (v : BitVec 32)
  /-- the modem writes DONE for the `k`-th command it has taken -/
  | modemDone (k : ℕ)

/-- What a step shows: whether the host wrote to the descriptor, and what a
call returned. -/
structure RfOut where
  wrote : Bool
  ret : Option RfRet
deriving DecidableEq, Repr

/-! ### The host -/

section Host

variable (H : RfIf)

/-- A status word. -/
def RfState.status (s : RfState) : BitVec 32 := s.hostSwcmd H.statusIdx

/-- The local command gets its timeout, status and flags, and the copy starts. -/
def startCopy (s : RfState) : RfState :=
  let swCmd := Function.update s.swCmd H.timeoutIdx H.rficRemoteCmdTimeout
  let swCmd := Function.update swCmd H.statusIdx H.statusPosted
  let swCmd := Function.update swCmd H.flagsIdx H.rfCmdFlagsRemote
  { s with pc := .copy 0, swCmd := swCmd }

/-- `rf_send_swcmd`, up to its next access. -/
def hostStep (s : RfState) : RfState × RfOut :=
  match s.pc with
  | .idle => (s, ⟨false, none⟩)
  | .busyTest =>
    if s.status H ≠ H.statusFree then ({ s with pc := .doneTest }, ⟨false, none⟩)
    else (startCopy H s, ⟨false, none⟩)
  | .doneTest =>
    if s.status H = H.statusDone then (startCopy H s, ⟨false, none⟩)
    else
      let stats := { s.stats with swCmdsDescBusy := s.stats.swCmdsDescBusy + 1 }
      ({ s with pc := .idle, stats := stats }, ⟨false, some (.errno (-ebusy))⟩)
  | .copy i =>
    if i < (H.swcmdCommonSize + s.dataSize) / 4 then
      let tag := if i = H.statusIdx then s.serial else s.tag
      ({ s with pc := .copy (i + 1), hostSwcmd := Function.update s.hostSwcmd i (s.swCmd i), tag := tag },
        ⟨true, none⟩)
    else ({ s with pc := .raiseIrq }, ⟨false, none⟩)
  | .raiseIrq => ({ s with pc := .poll rfSwcmdTimeoutRetries, doorbell := true }, ⟨false, none⟩)
  | .poll retries =>
    if retries ≠ 0 ∧ s.status H ≠ H.statusDone then ({ s with pc := .poll (retries - 1) }, ⟨false, none⟩)
    else ({ s with pc := .timeoutTest retries }, ⟨false, none⟩)
  | .timeoutTest retries =>
    if retries = 0 ∧ s.status H ≠ H.statusDone then
      let stats := { s.stats with swCmdsTimedOut := s.stats.swCmdsTimedOut + 1 }
      ({ s with pc := .out (.errno (-ebusy)), stats := stats }, ⟨false, none⟩)
    else
      let stats := { s.stats with swCmdsTx := s.stats.swCmdsTx + 1 }
      ({ s with pc := .readResult, stats := stats }, ⟨false, none⟩)
  | .readResult => ({ s with pc := .out (.result (s.hostSwcmd H.resultIdx)) }, ⟨false, none⟩)
  | .out ret =>
    ({ s with pc := .idle, hostSwcmd := Function.update s.hostSwcmd H.statusIdx H.statusFree },
      ⟨true, some ret⟩)

/-! ### The modem -/

/-- A doorbell reaches the modem: it takes the command if it is POSTED. -/
def modemIrq (s : RfState) : RfState :=
  if s.doorbell then
    if s.status H = H.statusPosted then { s with doorbell := false, jobs := s.jobs ++ [⟨s.tag, none⟩] }
    else { s with doorbell := false }
  else s

/-- The modem has executed the `k`-th command it has taken and writes its
result. -/
def modemResult (s : RfState) (k : ℕ) (v : BitVec 32) : RfState :=
  match s.jobs[k]? with
  | some ⟨serial, none⟩ =>
    { s with hostSwcmd := Function.update s.hostSwcmd H.resultIdx v,
             jobs := s.jobs.set k ⟨serial, some v⟩, produced := (serial, v) :: s.produced }
  | _ => s

/-- The modem writes DONE for the `k`-th command it has taken. -/
def modemDone (s : RfState) (k : ℕ) : RfState :=
  match s.jobs[k]? with
  | some ⟨_, some _⟩ =>
    { s with hostSwcmd := Function.update s.hostSwcmd H.statusIdx H.statusDone, jobs := s.jobs.eraseIdx k }
  | _ => s

/-- One step of the system. -/
def rfStep (s : RfState) : RfInput → RfState × RfOut
  | .call swCmd dataSize =>
    if s.pc = .idle then
      ({ s with pc := .busyTest, swCmd := swCmd, dataSize := dataSize, serial := s.serial + 1 }, ⟨false, none⟩)
    else (s, ⟨false, none⟩)
  | .host => hostStep H s
  | .modemIrq => (modemIrq H s, ⟨false, none⟩)
  | .modemResult k v => (modemResult H s k v, ⟨false, none⟩)
  | .modemDone k => (modemDone H s k, ⟨false, none⟩)

/-- A descriptor marked FREE, and nobody at work. -/
def rfInit (words : Words) : RfState where
  hostSwcmd := Function.update words H.statusIdx H.statusFree
  doorbell := false
  jobs := []
  pc := .idle
  swCmd := words
  dataSize := 0
  stats := default
  serial := 0
  tag := 0
  produced := []

/-- The modem still owns a command: a posted one that its doorbell is about to
bring, or one in progress. -/
def RfState.Owned (s : RfState) : Prop := (s.doorbell = true ∧ s.status H = H.statusPosted) ∨ s.jobs ≠ []

instance (s : RfState) : Decidable (s.Owned H) :=
  inferInstanceAs (Decidable ((s.doorbell = true ∧ s.status H = H.statusPosted) ∨ s.jobs ≠ []))

/-- The step does not give up on a command: when the host tests the status
for the last time, the modem has written DONE. -/
def NoGiveUp (s : RfState) : RfInput → Prop
  | .host => s.pc = .timeoutTest 0 → s.status H = H.statusDone
  | _ => True

instance (s : RfState) : ∀ r, Decidable (NoGiveUp H s r)
  | .host => inferInstanceAs (Decidable (s.pc = .timeoutTest 0 → s.status H = H.statusDone))
  | .call _ _ | .modemIrq | .modemResult _ _ | .modemDone _ => inferInstanceAs (Decidable True)

end Host

/-! ### Agreement -/

section Inv

variable {H : RfIf} {s : RfState}

/-- The modem has nothing to do. -/
structure Quiet (s : RfState) : Prop where
  doorbell : s.doorbell = false
  jobs : s.jobs = []

/-- The modem has answered the current call. -/
structure Answered (H : RfIf) (s : RfState) : Prop extends Quiet s where
  status : s.status H = H.statusDone
  produced : (s.serial, s.hostSwcmd H.resultIdx) ∈ s.produced

/-- The current call's command on its way through the modem. -/
inductive Waiting (H : RfIf) (s : RfState) : Prop where
  | posted (hd : s.doorbell = true) (hj : s.jobs = []) (hs : s.status H = H.statusPosted)
      (ht : s.tag = s.serial)
  | taken (hd : s.doorbell = false) (hj : s.jobs = [⟨s.serial, none⟩]) (hs : s.status H = H.statusPosted)
  | executed (hd : s.doorbell = false) (hj : s.jobs = [⟨s.serial, some (s.hostSwcmd H.resultIdx)⟩])
      (hs : s.status H = H.statusPosted) (hp : (s.serial, s.hostSwcmd H.resultIdx) ∈ s.produced)
  | answered (h : Answered H s)

/-- What holds where the host stands, in a run without a give-up: the modem
is at work only while the host polls. -/
def RfInv (H : RfIf) (s : RfState) : Prop :=
  match s.pc with
  | .idle | .busyTest => Quiet s ∧ s.status H = H.statusFree
  | .doneTest => False
  | .copy i => Quiet s ∧ s.swCmd H.statusIdx = H.statusPosted ∧
      (H.statusIdx < i → s.status H = H.statusPosted ∧ s.tag = s.serial)
  | .raiseIrq => Quiet s ∧ s.status H = H.statusPosted ∧ s.tag = s.serial
  | .poll _ => Waiting H s
  | .timeoutTest retries => Waiting H s ∧ (retries ≠ 0 → Answered H s)
  | .readResult => Answered H s
  | .out ret => Answered H s ∧ ∀ v, ret = .result v → (s.serial, v) ∈ s.produced

theorem Quiet.not_owned (h : Quiet s) : ¬ s.Owned H := by
  rintro (⟨hd, -⟩ | hj)
  · rw [h.doorbell] at hd
    cases hd
  · exact hj h.jobs

theorem Answered.move (h : Answered H s) (pc : HostPc) (stats : RfHostStats) :
    Answered H { s with pc := pc, stats := stats } :=
  ⟨⟨h.doorbell, h.jobs⟩, h.status, h.produced⟩

theorem Waiting.move (h : Waiting H s) (pc : HostPc) (stats : RfHostStats) :
    Waiting H { s with pc := pc, stats := stats } := by
  cases h with
  | posted hd hj hs ht => exact .posted hd hj hs ht
  | taken hd hj hs => exact .taken hd hj hs
  | executed hd hj hs hp => exact .executed hd hj hs hp
  | answered h => exact .answered (h.move pc stats)

theorem Waiting.answered_of_done (h : Waiting H s) (hs : s.status H = H.statusDone) : Answered H s := by
  cases h with
  | posted _ _ hp | taken _ _ hp | executed _ _ hp => exact absurd (hp.symm.trans hs) H.posted_ne_done
  | answered h => exact h

theorem Waiting.owned_of_not_done (h : Waiting H s) (hs : s.status H ≠ H.statusDone) : s.Owned H := by
  cases h with
  | posted hd _ hp => exact Or.inl ⟨hd, hp⟩
  | taken _ hj => exact Or.inr (by simp [hj])
  | executed _ hj => exact Or.inr (by simp [hj])
  | answered h => exact absurd h.status hs

/-- The modem moves. -/
def RfInput.isModem : RfInput → Bool
  | .modemIrq | .modemResult _ _ | .modemDone _ => true
  | _ => false

/-- A modem with nothing to do changes nothing. -/
theorem Quiet.modem_step (h : Quiet s) {r : RfInput} (hr : r.isModem = true) : (rfStep H s r).1 = s := by
  cases r with
  | call | host => cases hr
  | modemIrq => simp [rfStep, modemIrq, h.doorbell]
  | modemResult k v => simp [rfStep, modemResult, h.jobs]
  | modemDone k => simp [rfStep, modemDone, h.jobs]

/-- The modem's steps take the command from one stage to the next. -/
theorem Waiting.modem_step (h : Waiting H s) {r : RfInput} (hr : r.isModem = true) :
    Waiting H (rfStep H s r).1 := by
  cases h with
  | posted hd hj hs ht =>
    cases r with
    | call | host => cases hr
    | modemIrq =>
      simp only [rfStep, modemIrq, hd, hs, if_true]
      exact .taken rfl (by simp [hj, ht]) hs
    | modemResult k v =>
      simp only [rfStep, modemResult, hj, List.getElem?_nil]
      exact .posted hd hj hs ht
    | modemDone k =>
      simp only [rfStep, modemDone, hj, List.getElem?_nil]
      exact .posted hd hj hs ht
  | taken hd hj hs =>
    cases r with
    | call | host => cases hr
    | modemIrq =>
      simp only [rfStep, modemIrq, hd]
      exact .taken hd hj hs
    | modemResult k v =>
      rcases k with _ | k
      · simp only [rfStep, modemResult, hj, List.getElem?_cons_zero]
        refine .executed hd (by simp) ?_ (by simp)
        simpa [RfState.status, H.result_ne_status.symm] using hs
      · simp only [rfStep, modemResult, hj, List.getElem?_cons_succ, List.getElem?_nil]
        exact .taken hd hj hs
    | modemDone k =>
      rcases k with _ | k <;> simp only [rfStep, modemDone, hj, List.getElem?_cons_zero,
        List.getElem?_cons_succ, List.getElem?_nil] <;> exact .taken hd hj hs
  | executed hd hj hs hp =>
    cases r with
    | call | host => cases hr
    | modemIrq =>
      simp only [rfStep, modemIrq, hd]
      exact .executed hd hj hs hp
    | modemResult k v =>
      rcases k with _ | k <;> simp only [rfStep, modemResult, hj, List.getElem?_cons_zero,
        List.getElem?_cons_succ, List.getElem?_nil] <;> exact .executed hd hj hs hp
    | modemDone k =>
      rcases k with _ | k
      · simp only [rfStep, modemDone, hj, List.getElem?_cons_zero]
        refine .answered ⟨⟨hd, by simp⟩, by simp [RfState.status], ?_⟩
        simpa [H.result_ne_status] using hp
      · simp only [rfStep, modemDone, hj, List.getElem?_cons_succ, List.getElem?_nil]
        exact .executed hd hj hs hp
  | answered h =>
    rw [h.toQuiet.modem_step hr]
    exact .answered h

theorem modem_pc {r : RfInput} (hr : r.isModem = true) : (rfStep H s r).1.pc = s.pc := by
  cases r with
  | call | host => cases hr
  | modemIrq =>
    simp only [rfStep, modemIrq]
    split_ifs <;> rfl
  | modemResult k v =>
    simp only [rfStep, modemResult]
    split <;> rfl
  | modemDone k =>
    simp only [rfStep, modemDone]
    split <;> rfl

theorem RfInv.modem_step (h : RfInv H s) {r : RfInput} (hr : r.isModem = true) :
    RfInv H (rfStep H s r).1 := by
  -- outside the polling loop the modem is quiet
  have key : Quiet s → RfInv H (rfStep H s r).1 := fun hq => by rw [hq.modem_step hr]; exact h
  unfold RfInv at h
  cases hpc : s.pc with
  | idle | busyTest | copy i | raiseIrq =>
    rw [hpc] at h
    exact key h.1
  | doneTest =>
    rw [hpc] at h
    exact h.elim
  | poll retries =>
    rw [hpc] at h
    unfold RfInv
    rw [modem_pc hr, hpc]
    exact Waiting.modem_step h hr
  | timeoutTest retries =>
    rw [hpc] at h
    by_cases h0 : retries = 0
    · unfold RfInv
      rw [modem_pc hr, hpc]
      exact ⟨h.1.modem_step hr, fun hn => absurd h0 hn⟩
    · exact key (h.2 h0).toQuiet
  | readResult =>
    rw [hpc] at h
    exact key h.toQuiet
  | out ret =>
    rw [hpc] at h
    exact key h.1.toQuiet

theorem RfInv.host_step (h : RfInv H s) (hr : NoGiveUp H s .host) : RfInv H (hostStep H s).1 := by
  unfold hostStep
  unfold RfInv at h
  cases hpc : s.pc with
  | idle =>
    simp only
    unfold RfInv
    rw [hpc] at h ⊢
    exact h
  | busyTest =>
    rw [hpc] at h
    simp only [h.2, ne_eq, not_true_eq_false, if_false]
    refine ⟨⟨h.1.doorbell, h.1.jobs⟩, ?_, fun hi => absurd hi (Nat.not_lt_zero _)⟩
    simp [startCopy, H.flags_ne_status.symm]
  | doneTest =>
    rw [hpc] at h
    exact h.elim
  | copy i =>
    rw [hpc] at h
    obtain ⟨hq, hcmd, hpost⟩ := h
    by_cases hi : i < (H.swcmdCommonSize + s.dataSize) / 4
    · simp only [if_pos hi]
      refine ⟨⟨hq.doorbell, hq.jobs⟩, hcmd, fun hlt => ?_⟩
      rcases eq_or_ne i H.statusIdx with rfl | hne
      · simp [RfState.status, hcmd]
      · simpa [RfState.status, hne, hne.symm] using hpost (by omega)
    · simp only [if_neg hi]
      have hlt := H.status_lt
      refine ⟨⟨hq.doorbell, hq.jobs⟩, hpost ?_⟩
      have : H.swcmdCommonSize / 4 ≤ (H.swcmdCommonSize + s.dataSize) / 4 := Nat.div_le_div_right (by omega)
      omega
  | raiseIrq =>
    rw [hpc] at h
    exact .posted rfl h.1.jobs h.2.1 h.2.2
  | poll retries =>
    rw [hpc] at h
    simp only
    split_ifs with hpoll
    · exact Waiting.move h _ _
    · refine ⟨Waiting.move h _ _, fun h0 => ?_⟩
      have hdone : s.status H = H.statusDone := by
        by_contra hn
        exact hpoll ⟨h0, hn⟩
      exact (Waiting.answered_of_done h hdone).move _ _
  | timeoutTest retries =>
    rw [hpc] at h
    simp only
    split_ifs with hlate
    · obtain ⟨rfl, hlate⟩ := hlate
      exact absurd (hr hpc) hlate
    · have ha : Answered H s := by
        by_cases h0 : retries = 0
        · refine h.1.answered_of_done ?_
          by_contra hn
          exact hlate ⟨h0, hn⟩
        · exact h.2 h0
      exact ha.move _ _
  | readResult =>
    rw [hpc] at h
    exact ⟨Answered.move h _ _, fun v hv => by cases hv; exact h.produced⟩
  | out ret =>
    rw [hpc] at h
    exact ⟨⟨h.1.doorbell, h.1.jobs⟩, by simp [RfState.status]⟩

/-- Every step without a give-up keeps the invariant. -/
theorem RfInv.step (h : RfInv H s) (r : RfInput) (hr : NoGiveUp H s r) : RfInv H (rfStep H s r).1 := by
  by_cases hm : r.isModem = true
  · exact h.modem_step hm
  match r with
  | .call swCmd dataSize =>
    simp only [rfStep]
    by_cases hpc : s.pc = .idle
    · rw [if_pos hpc]
      unfold RfInv at h
      rw [hpc] at h
      exact ⟨⟨h.1.doorbell, h.1.jobs⟩, h.2⟩
    · rw [if_neg hpc]
      exact h
  | .host => exact h.host_step hr
  | .modemIrq | .modemResult _ _ | .modemDone _ => exact absurd rfl hm

theorem rfInit_inv (H : RfIf) (words : Words) : RfInv H (rfInit H words) :=
  ⟨⟨rfl, rfl⟩, by simp [RfState.status, rfInit]⟩

/-- The host writes in the copy and at `out`. -/
theorem hostStep_wrote (hw : (hostStep H s).2.wrote = true) :
    (∃ i, s.pc = .copy i) ∨ ∃ ret, s.pc = .out ret := by
  unfold hostStep at hw
  cases hpc : s.pc with
  | copy i => exact Or.inl ⟨i, rfl⟩
  | out ret => exact Or.inr ⟨ret, rfl⟩
  | idle | raiseIrq | readResult => simp [hpc] at hw
  | busyTest | doneTest | poll _ | timeoutTest _ =>
    simp only [hpc] at hw
    split_ifs at hw

/-- A result is returned at `out`. -/
theorem hostStep_result {v : BitVec 32} (hv : (hostStep H s).2.ret = some (.result v)) :
    s.pc = .out (.result v) := by
  unfold hostStep at hv
  cases hpc : s.pc with
  | out ret =>
    simp only [hpc, Option.some.injEq] at hv
    rw [hv]
  | idle | raiseIrq | readResult => simp [hpc] at hv
  | busyTest | doneTest | copy _ | poll _ | timeoutTest _ =>
    simp only [hpc] at hv
    split_ifs at hv <;> simp at hv

theorem rfStep_silent {r : RfInput} (hr : r ≠ .host) : (rfStep H s r).2 = ⟨false, none⟩ := by
  cases r with
  | host => exact absurd rfl hr
  | call _ _ =>
    simp only [rfStep]
    split_ifs <;> rfl
  | _ => rfl

/-- A host access writes only while the modem owns nothing, and a result that
is returned was produced for this call. -/
theorem RfInv.out (h : RfInv H s) (r : RfInput) :
    ((rfStep H s r).2.wrote = true → ¬ s.Owned H) ∧
    ∀ v, (rfStep H s r).2.ret = some (.result v) → (s.serial, v) ∈ s.produced := by
  by_cases hr : r = .host
  · subst hr
    unfold RfInv at h
    refine ⟨fun hw => ?_, fun v hv => ?_⟩
    · rcases hostStep_wrote hw with ⟨i, hpc⟩ | ⟨ret, hpc⟩ <;> rw [hpc] at h
      · exact h.1.not_owned
      · exact h.1.toQuiet.not_owned
    · rw [hostStep_result hv] at h
      exact h.2 v rfl
  · rw [rfStep_silent hr]
    simp

end Inv

/-- **Mailbox agreement.** In every run in which the modem has answered each
command when the host looks for the last time, the host writes to the
descriptor only while the modem owns no command, and a result it returns is
one the modem produced for this very call. The condition is exact: where it
fails first, the host's next access overwrites a command the modem owns. -/
theorem mailbox_agreement (H : RfIf) (words : Words) (rs : List RfInput)
    (hrs : Guarded (rfStep H) (NoGiveUp H) (rfInit H words) rs) :
    let s := exec (rfStep H) (rfInit H words) rs
    (∀ r, ((rfStep H s r).2.wrote = true → ¬ s.Owned H) ∧
      ∀ v, (rfStep H s r).2.ret = some (.result v) → (s.serial, v) ∈ s.produced) ∧
    (¬ NoGiveUp H s .host → let t := (rfStep H s .host).1
      (rfStep H t .host).2.wrote = true ∧ t.Owned H) := by
  intro s
  have hinv : RfInv H s := exec_inv_of_guarded (fun _ r h hr => h.step r hr) rs (rfInit_inv H words) hrs
  refine ⟨hinv.out, fun hgive => ?_⟩
  obtain ⟨hpc, hs⟩ : s.pc = .timeoutTest 0 ∧ s.status H ≠ H.statusDone := by
    simpa [NoGiveUp] using hgive
  unfold RfInv at hinv
  rw [hpc] at hinv
  have hown := hinv.1.owned_of_not_done hs
  simp only [rfStep, hostStep, hpc, hs, ne_eq, not_false_eq_true, and_self, if_true]
  exact ⟨trivial, hown⟩

section Small

theorem small_posted_ne_free : (1 : BitVec 32) ≠ 0 := by decide

theorem small_posted_ne_done : (1 : BitVec 32) ≠ 2 := by decide

theorem small_done_ne_free : (2 : BitVec 32) ≠ 0 := by decide

/-- A descriptor of five words before the data. -/
def rfIfSmall : RfIf where
  timeoutIdx := 1
  statusIdx := 2
  flagsIdx := 3
  resultIdx := 4
  swcmdCommonSize := 20
  statusFree := 0
  statusPosted := 1
  statusDone := 2
  rficRemoteCmdTimeout := 10
  rfCmdFlagsRemote := 1
  flags_ne_status := by decide
  result_ne_status := by decide
  status_lt := by decide
  posted_ne_free := small_posted_ne_free
  posted_ne_done := small_posted_ne_done
  done_ne_free := small_done_ne_free

end Small

/-- A call up to its doorbell, when the descriptor is FREE. -/
def rfPost (cmd : BitVec 32) : List RfInput := .call (fun _ => cmd) 0 :: List.replicate 8 .host

/-- The state after a run from an empty descriptor. -/
def rfRun (rs : List RfInput) : RfState := exec (rfStep rfIfSmall) (rfInit rfIfSmall fun _ => 0) rs

/-- A first call that gives up while the modem executes its command. -/
def rfGiveUp : List RfInput := rfPost 7 ++ [.modemIrq] ++ List.replicate 7 .host

/-- A second call, during which the modem finishes the first command. -/
def rfLateDone : List RfInput :=
  rfGiveUp ++ [.host] ++ rfPost 8 ++ [.modemResult 0 42, .modemDone 0] ++ List.replicate 3 .host

/-- The first call marks the descriptor FREE under the modem; the modem's
answer then reaches the second call, whose command it has not even taken. -/
theorem mailbox_late_answer :
    ((rfRun rfGiveUp).Owned rfIfSmall ∧ (rfStep rfIfSmall (rfRun rfGiveUp) .host).2.wrote = true) ∧
    (rfStep rfIfSmall (rfRun rfLateDone) .host).2.ret = some (.result 42) ∧
    (rfRun rfLateDone).serial = 2 ∧ (rfRun rfLateDone).produced = [(1, 42)] := by
  decide +kernel

/-- A call that is answered while it polls. -/
def rfInTime : List RfInput :=
  rfPost 7 ++ [.host, .modemIrq, .host, .modemResult 0 42, .modemDone 0] ++ List.replicate 3 .host

theorem mailbox_agreement_in_time :
    (rfStep rfIfSmall (rfRun rfInTime) .host).2.ret = some (.result 42) ∧
      ((rfRun rfInTime).serial, 42) ∈ (rfRun rfInTime).produced := by
  have hg : Guarded (rfStep rfIfSmall) (NoGiveUp rfIfSmall) (rfInit rfIfSmall fun _ => 0) rfInTime := by
    decide +kernel
  have hret : (rfStep rfIfSmall (rfRun rfInTime) .host).2.ret = some (.result 42) := by decide +kernel
  have hagree := ((mailbox_agreement rfIfSmall (fun _ => 0) rfInTime hg).1 .host).2 42
  exact ⟨hret, hagree hret⟩

end Rfic
end La12xx
