/-
# Commands to a Yucca RFIC

`yuc_rfic_cmd_proc` of `gul_fr1_rfic.c` writes a command to the registers of an
RFIC, the header at `YUC_RFIC_CMD_ADDR` and the parameter words behind it, and
then polls the response header at `YUC_RFIC_CMD_RESP_ADDR` at most
`YUC_RFIC_TS_RETRY` times.

The host is a program with one register access per step, and a run interleaves
its steps with the RFIC's in any way. The RFIC takes a command when its header
is written, which clears the response header. At any later moments it reads the
announced number of parameter words, executes the command and writes response
headers with the command's id, of which the last has the task-finished flag; a
header with `ew` follows its error word. Commands given up earlier may still
be answered. The response header is also the register of the tenth parameter
word.
-/
import La12xx.Lib.Machine

namespace La12xx
namespace Yucca

open Machine

/-! ### Data -/

/-- `YUC_RFIC_CMD_ADDR` -/
def yucRficCmdAddr : ℕ := 0

/-- `YUC_RFIC_CMD_RESP_ADDR` -/
def yucRficCmdRespAddr : ℕ := 0x0a

/-- `YUC_RFIC_TS_RETRY` -/
def yucRficTsRetry : ℕ := 16

/-- `EIO` -/
def eio : ℤ := 5

/-- `yuc_cmd_t` -/
structure YucCmd where
  len : BitVec 4
  id : BitVec 10
  sd : Bool
  rrq : Bool
deriving DecidableEq, Repr

/-- The bit fields as one register. -/
def YucCmd.word (c : YucCmd) : BitVec 16 := BitVec.ofBool c.rrq ++ BitVec.ofBool c.sd ++ c.id ++ c.len

/-- `yuc_cmd_resp_t` -/
structure YucCmdResp where
  len : BitVec 4
  id : BitVec 10
  tf : Bool
  ew : Bool
deriving DecidableEq, Repr

def YucCmdResp.word (r : YucCmdResp) : BitVec 16 := BitVec.ofBool r.ew ++ BitVec.ofBool r.tf ++ r.id ++ r.len

/-- A register, read as a response header. -/
def YucCmdResp.ofWord (w : BitVec 16) : YucCmdResp where
  len := w.extractLsb' 0 4
  id := w.extractLsb' 4 10
  tf := w.getLsbD 14
  ew := w.getLsbD 15

/-- What is read from a header is what was written. -/
@[simp] theorem YucCmdResp.ofWord_word (r : YucCmdResp) : ofWord r.word = r := by
  obtain ⟨len, id, tf, ew⟩ := r
  simp only [ofWord, word, YucCmdResp.mk.injEq]
  refine ⟨?_, ?_, ?_, ?_⟩
  · apply BitVec.eq_of_getLsbD_eq
    intro i hi
    simp only [BitVec.getLsbD_extractLsb', BitVec.getLsbD_append, hi]
    simp [hi]
  · apply BitVec.eq_of_getLsbD_eq
    intro i hi
    simp only [BitVec.getLsbD_extractLsb', BitVec.getLsbD_append, hi]
    simp [hi]
  · rw [BitVec.getLsbD_append, BitVec.getLsbD_append, BitVec.getLsbD_append]
    simp
  · rw [BitVec.getLsbD_append, BitVec.getLsbD_append, BitVec.getLsbD_append]
    simp

/-- `resp.tf && resp.id` -/
def YucCmdResp.finished (r : YucCmdResp) : Bool := r.tf && r.id != 0

/-- The arguments of a call at `YUC_RFIC_CMD_ADDR`. -/
structure Call where
  cmdData : BitVec 32
  words : List (BitVec 16)
  words_le : words.length ≤ 15
  id_ne : cmdData.setWidth 10 ≠ 0

/-- `cmd_data & 0x3ff` -/
def Call.id (c : Call) : BitVec 10 := c.cmdData.setWidth 10

/-- The command header. -/
def Call.cmd (c : Call) : YucCmd := ⟨BitVec.ofNat 4 c.words.length, c.id, false, true⟩

theorem Call.toNat_len (c : Call) : c.cmd.len.toNat = c.words.length := by
  have hle := c.words_le
  simp only [Call.cmd, BitVec.toNat_ofNat]
  omega

/-- A response, as the RFIC decides on it. -/
structure Response where
  len : BitVec 4
  tf : Bool
  ew : Bool
  err : BitVec 16
deriving DecidableEq, Repr

/-- Its header, for the command `id`. -/
def Response.header (r : Response) (id : BitVec 10) : YucCmdResp := ⟨r.len, id, r.tf, r.ew⟩

/-- Where `yuc_rfic_cmd_proc` stands, by its next register access. -/
inductive Pc where
  /-- the command header -/
  | header
  /-- parameter word `i` -/
  | param (i : ℕ)
  /-- a poll, with `num_read` -/
  | poll (numRead : ℕ)
  /-- the error word -/
  | readErr
  | returned (ret : ℤ)
deriving DecidableEq, Repr

/-- A command the RFIC has taken, with the parameter words it has read. -/
structure Job where
  len : ℕ
  id : BitVec 10
  got : List (BitVec 16)
  ran : Bool
deriving DecidableEq, Repr

/-- The registers, the host with its locals, and the RFIC: its current command
and the ids of those given up before. `executed` holds what it has executed
and `written` what it has answered since the call began. -/
structure State where
  regs : ℕ → BitVec 16
  pc : Pc
  resp : YucCmdResp
  uErrWd : BitVec 16
  job : Option Job
  earlier : List (BitVec 10)
  executed : List (BitVec 10 × List (BitVec 16))
  written : List Response

/-- Who moves. -/
inductive Move where
  | host
  /-- the RFIC reads its next parameter word -/
  | read
  | execute
  | respond (r : Response)
  /-- an answer to the `k`-th of the earlier commands -/
  | late (k : ℕ) (r : Response)

/-! ### The host -/

section Host

variable (ok : BitVec 16) (c : Call)

/-- The host's position once `i` parameter words are written. -/
def nextParam (i : ℕ) : Pc := if i < c.words.length then .param i else .poll yucRficTsRetry

/-- The RFIC takes the command whose header is written. -/
def takeCmd (cmd : YucCmd) (s : State) : State :=
  { s with regs := Function.update (Function.update s.regs yucRficCmdAddr cmd.word) yucRficCmdRespAddr 0
           job := some ⟨cmd.len.toNat, cmd.id, [], false⟩ }

/-- The test after the last poll. -/
def timedOut (resp : YucCmdResp) : ℤ := if resp.ew || resp.id == 0 then -eio else 0

/-- `yuc_rfic_cmd_proc`, up to its next register access; `ok` is `YUC_RTC_OK`. -/
def yucRficCmdProc (s : State) : State :=
  match s.pc with
  | .header => { takeCmd c.cmd s with pc := nextParam c 0 }
  | .param i =>
    { s with regs := Function.update s.regs (yucRficCmdAddr + (i + 1)) (c.words.getD i 0)
             pc := nextParam c (i + 1) }
  | .poll numRead =>
    let resp := YucCmdResp.ofWord (s.regs yucRficCmdRespAddr)
    let pc : Pc :=
      if resp.finished then if resp.ew then .readErr else .returned 0
      else if numRead - 1 = 0 then .returned (timedOut resp)
      else .poll (numRead - 1)
    { s with resp := resp, pc := pc }
  | .readErr =>
    let uErrWd := s.regs (yucRficCmdRespAddr + s.resp.len.toNat)
    { s with uErrWd := uErrWd, pc := .returned (if uErrWd ≠ ok then -eio else 0) }
  | .returned _ => s

/-! ### The RFIC -/

/-- The next parameter word of the command. -/
def rficRead (s : State) : State :=
  match s.job with
  | some j =>
    if j.got.length < j.len then
      { s with job := some { j with got := j.got ++ [s.regs (yucRficCmdAddr + (j.got.length + 1))] } }
    else s
  | none => s

/-- The command is executed once its words are read. -/
def rficExecute (s : State) : State :=
  match s.job with
  | some j =>
    if j.got.length = j.len ∧ j.ran = false then
      { s with job := some { j with ran := true }, executed := s.executed ++ [(j.id, j.got)] }
    else s
  | none => s

/-- A response to the command `id` goes into the registers. -/
def respRegs (id : BitVec 10) (r : Response) (regs : ℕ → BitVec 16) : ℕ → BitVec 16 :=
  let regs := if r.ew then Function.update regs (yucRficCmdRespAddr + r.len.toNat) r.err else regs
  Function.update regs yucRficCmdRespAddr (r.header id).word

/-- The RFIC answers; as finished, once it has executed the command. -/
def rficRespond (r : Response) (s : State) : State :=
  match s.job with
  | some j =>
    if r.tf = true → j.ran = true then
      { s with regs := respRegs j.id r s.regs, written := s.written ++ [r]
               job := if r.tf then none else some j }
    else s
  | none => s

def rficLate (k : ℕ) (r : Response) (s : State) : State :=
  match s.earlier[k]? with
  | some id => { s with regs := respRegs id r s.regs }
  | none => s

/-- One step of the system. -/
def cmdStep (s : State) : Move → State × Unit
  | .host => (yucRficCmdProc ok c s, ())
  | .read => (rficRead s, ())
  | .execute => (rficExecute s, ())
  | .respond r => (rficRespond r s, ())
  | .late k r => (rficLate k r s, ())

/-- A call starts, with anything in the registers and any earlier commands. -/
def cmdStart (regs : ℕ → BitVec 16) (earlier : List (BitVec 10)) : State where
  regs := regs
  pc := .header
  resp := ⟨0, 0, false, false⟩
  uErrWd := 0
  job := none
  earlier := earlier
  executed := []
  written := []

/-- The RFIC leaves the host where it is. -/
theorem cmdStep_pc {s : State} {m : Move} (hm : m ≠ .host) : (cmdStep ok c s m).1.pc = s.pc := by
  cases m with
  | host => exact absurd rfl hm
  | read =>
    rw [cmdStep, rficRead]
    repeat' split
    all_goals rfl
  | execute =>
    rw [cmdStep, rficExecute]
    repeat' split
    all_goals rfl
  | respond r =>
    rw [cmdStep, rficRespond]
    repeat' split
    all_goals rfl
  | late k r =>
    rw [cmdStep, rficLate]
    split
    all_goals rfl

/-! ### What is asked of a call -/

/-- The RFIC executes nothing but the command, with the words passed. -/
def Executes (s : State) : Prop := ∀ p ∈ s.executed, p = (c.id, c.words)

/-- Success is reported after a finished response to this command, whose error word,
if it has one, is `YUC_RTC_OK`. -/
def Answered (s : State) : Prop :=
  s.pc = .returned 0 →
    ∃ r ∈ s.written, r.tf = true ∧ s.resp = r.header c.id ∧ (r.ew = true → s.uErrWd = r.err ∧ r.err = ok)

instance (s : State) : Decidable (Executes c s) := inferInstanceAs (Decidable (∀ p ∈ s.executed, p = (c.id, c.words)))

instance (s : State) : Decidable (Answered ok c s) :=
  inferInstanceAs (Decidable (s.pc = .returned 0 →
    ∃ r ∈ s.written, r.tf = true ∧ s.resp = r.header c.id ∧ (r.ew = true → s.uErrWd = r.err ∧ r.err = ok)))

/-- The register that the RFIC reads next already holds the word passed. -/
def ReadsWord (s : State) : Prop :=
  ∀ j ∈ s.job, j.got.length < j.len →
    c.words[j.got.length]? = some (s.regs (yucRficCmdAddr + (j.got.length + 1)))

/-- A header that reads as finished is one the RFIC has written for this command, and
the last poll does not find one that is neither finished nor in error. -/
def PollsResponse (numRead : ℕ) (s : State) : Prop :=
  let resp := YucCmdResp.ofWord (s.regs yucRficCmdRespAddr)
  (resp.finished = true → ∃ r ∈ s.written, resp = r.header c.id) ∧
    (resp.finished = false → numRead ≤ 1 → timedOut resp ≠ 0)

/-- An error word that reads as `YUC_RTC_OK` is the one written with the header. -/
def ReadsError (s : State) : Prop :=
  s.regs (yucRficCmdRespAddr + s.resp.len.toNat) = ok → ∃ r ∈ s.written, s.resp = r.header c.id ∧ r.err = ok

/-- What is asked of the next register access of the host. -/
def HostInTime (s : State) : Pc → Prop
  | .poll numRead => PollsResponse c numRead s
  | .readErr => ReadsError ok c s
  | .header | .param _ | .returned _ => True

/-- The timing under which a call goes well. -/
def InTime (s : State) : Move → Prop
  | .host => HostInTime ok c s s.pc
  | .read => ReadsWord c s
  | .execute | .respond _ | .late _ _ => True

instance (s : State) : Decidable (ReadsWord c s) :=
  inferInstanceAs (Decidable (∀ j ∈ s.job, j.got.length < j.len →
    c.words[j.got.length]? = some (s.regs (yucRficCmdAddr + (j.got.length + 1)))))

instance (n : ℕ) (s : State) : Decidable (PollsResponse c n s) := inferInstanceAs (Decidable (_ ∧ _))

instance (s : State) : Decidable (ReadsError ok c s) := inferInstanceAs (Decidable (_ → _))

instance (s : State) : ∀ pc : Pc, Decidable (HostInTime ok c s pc)
  | .poll n => inferInstanceAs (Decidable (PollsResponse c n s))
  | .readErr => inferInstanceAs (Decidable (ReadsError ok c s))
  | .header | .param _ | .returned _ => inferInstanceAs (Decidable True)

instance (s : State) : ∀ m : Move, Decidable (InTime ok c s m)
  | .host => inferInstanceAs (Decidable (HostInTime ok c s s.pc))
  | .read => inferInstanceAs (Decidable (ReadsWord c s))
  | .execute | .respond _ | .late _ _ => inferInstanceAs (Decidable True)

end Host

/-! ### The invariant -/

section Invariant

variable {ok : BitVec 16} {c : Call} {s : State}

/-- The RFIC's command is the one passed, and the words it has read are its first ones. -/
structure JobOf (c : Call) (j : Job) : Prop where
  len : j.len = c.words.length
  id : j.id = c.id
  got : j.got <+: c.words

/-- A job that has read all its words has read those passed. -/
theorem JobOf.got_eq {j : Job} (h : JobOf c j) (hlen : j.got.length = j.len) : j.got = c.words :=
  h.got.eq_of_length (hlen.trans h.len)

theorem JobOf.read {j : Job} {w : BitVec 16} (h : JobOf c j) (hw : c.words[j.got.length]? = some w) :
    JobOf c { j with got := j.got ++ [w] } where
  len := h.len
  id := h.id
  got := by
    obtain ⟨rest, hrest⟩ := h.got
    rw [← hrest, List.getElem?_append_right le_rfl, Nat.sub_self, ← List.head?_eq_getElem?] at hw
    obtain ⟨rest', rfl⟩ := List.head?_eq_some_iff.mp hw
    exact ⟨rest', by rw [← hrest, List.append_assoc, List.singleton_append]⟩

/-- What holds throughout a call that goes well. -/
structure CmdInv (ok : BitVec 16) (c : Call) (s : State) : Prop where
  job : ∀ j ∈ s.job, JobOf c j
  executes : Executes c s
  answered : Answered ok c s
  reading : s.pc = .readErr → s.resp.tf = true

theorem nextParam_cases (c : Call) (i : ℕ) : nextParam c i = .param i ∨ nextParam c i = .poll yucRficTsRetry := by
  rw [nextParam]
  split
  · exact .inl rfl
  · exact .inr rfl

/-- While the host writes the command or polls, nothing is promised yet. -/
theorem answered_of_pc {s : State} (h : ∀ ret, s.pc ≠ .returned ret) : Answered ok c s :=
  fun hpc => absurd hpc (h 0)

theorem answered_nextParam {s : State} {i : ℕ} (h : s.pc = nextParam c i) : Answered ok c s :=
  answered_of_pc fun ret => by rcases nextParam_cases c i with hn | hn <;> simp [h, hn]

theorem nextParam_ne_readErr (c : Call) (i : ℕ) : nextParam c i ≠ .readErr := by
  rcases nextParam_cases c i with hn | hn <;> simp [hn]

/-- What the host has been told stands when the RFIC answers again. -/
theorem Answered.mono {t : State} (h : Answered ok c s) (hpc : t.pc = s.pc) (hresp : t.resp = s.resp)
    (herr : t.uErrWd = s.uErrWd) (hw : s.written ⊆ t.written) : Answered ok c t := by
  intro hret
  rw [hpc] at hret
  obtain ⟨r, hr, htf, hheader, hew⟩ := h hret
  exact ⟨r, hw hr, htf, hresp.trans hheader, by rwa [herr]⟩

/-- The invariant after a step of the RFIC: its command and what it executes are looked at,
the rest stands. -/
theorem CmdInv.move {t : State} (h : CmdInv ok c s) (hjob : ∀ j ∈ t.job, JobOf c j) (hexec : Executes c t)
    (hpc : t.pc = s.pc) (hresp : t.resp = s.resp) (herr : t.uErrWd = s.uErrWd) (hw : s.written ⊆ t.written) :
    CmdInv ok c t where
  job := hjob
  executes := hexec
  answered := h.answered.mono hpc hresp herr hw
  reading := by
    rw [hpc, hresp]
    exact h.reading

/-! ### One step -/

theorem CmdInv.read (h : CmdInv ok c s) (hg : ReadsWord c s) : CmdInv ok c (rficRead s) := by
  rw [rficRead]
  split
  case h_1 j hj =>
    split
    case isTrue hlt =>
      refine h.move (fun j' hj' => ?_) h.executes rfl rfl rfl (List.Subset.refl _)
      cases hj'
      exact (h.job j hj).read (hg j hj hlt)
    case isFalse => exact h
  case h_2 => exact h

/-- A command is executed with the words read, which are then all of those passed. -/
theorem CmdInv.execute (h : CmdInv ok c s) : CmdInv ok c (rficExecute s) := by
  rw [rficExecute]
  split
  case h_1 j hj =>
    split
    case isTrue hrun =>
      have hjob := h.job j hj
      refine h.move (fun j' hj' => ?_) (fun p hp => ?_) rfl rfl rfl (List.Subset.refl _)
      · cases hj'
        exact ⟨hjob.len, hjob.id, hjob.got⟩
      · rcases List.mem_append.mp hp with hp | hp
        · exact h.executes p hp
        · rw [List.mem_singleton.mp hp, hjob.id, hjob.got_eq hrun.1]
    case isFalse => exact h
  case h_2 => exact h

theorem CmdInv.respond (h : CmdInv ok c s) (r : Response) : CmdInv ok c (rficRespond r s) := by
  rw [rficRespond]
  split
  case h_1 j hj =>
    split
    case isTrue =>
      refine h.move (fun j' hj' => ?_) h.executes rfl rfl rfl (List.subset_append_left _ _)
      dsimp only at hj'
      split at hj'
      · cases hj'
      · cases hj'
        exact h.job _ hj
    case isFalse => exact h
  case h_2 => exact h

theorem CmdInv.late (h : CmdInv ok c s) (k : ℕ) (r : Response) : CmdInv ok c (rficLate k r s) := by
  rw [rficLate]
  split
  · exact h.move h.job h.executes rfl rfl rfl (List.Subset.refl _)
  · exact h

/-- A poll: a header taken for finished answers this command, and without an error word
that is success. -/
theorem CmdInv.poll {numRead : ℕ} (h : CmdInv ok c s) (hpc : s.pc = .poll numRead)
    (hg : PollsResponse c numRead s) : CmdInv ok c (yucRficCmdProc ok c s) := by
  obtain ⟨hfin, hlast⟩ := hg
  simp only [yucRficCmdProc, hpc]
  set resp := YucCmdResp.ofWord (s.regs yucRficCmdRespAddr)
  by_cases hf : resp.finished = true
  · have htf : resp.tf = true := (Bool.and_eq_true_iff.mp hf).1
    by_cases hew : resp.ew = true
    · rw [if_pos hf, if_pos hew]
      exact ⟨h.job, h.executes, answered_of_pc (by simp), fun _ => htf⟩
    · rw [if_pos hf, if_neg hew]
      refine ⟨h.job, h.executes, fun _ => ?_, by simp⟩
      obtain ⟨r, hr, hheader⟩ := hfin hf
      refine ⟨r, hr, ?_, hheader, fun hr' => ?_⟩
      · rw [hheader] at htf
        exact htf
      · rw [hheader] at hew
        exact absurd hr' hew
  · rw [if_neg hf]
    by_cases hn : numRead - 1 = 0
    · rw [if_pos hn]
      have hto := hlast (by simpa using hf) (by omega)
      exact ⟨h.job, h.executes, fun hret => absurd (Pc.returned.inj hret) hto, by simp⟩
    · rw [if_neg hn]
      exact ⟨h.job, h.executes, answered_of_pc (by simp), by simp⟩

/-- The error word: only `YUC_RTC_OK` ends in success. -/
theorem CmdInv.readErr (h : CmdInv ok c s) (hpc : s.pc = .readErr) (hg : ReadsError ok c s) :
    CmdInv ok c (yucRficCmdProc ok c s) := by
  simp only [yucRficCmdProc, hpc]
  refine ⟨h.job, h.executes, fun hret => ?_, by simp⟩
  have hok : s.regs (yucRficCmdRespAddr + s.resp.len.toNat) = ok := by
    by_contra hne
    rw [if_pos hne] at hret
    simp [eio] at hret
  obtain ⟨r, hr, hheader, herr⟩ := hg hok
  refine ⟨r, hr, ?_, hheader, fun _ => ⟨hok.trans herr.symm, herr⟩⟩
  have htf := h.reading hpc
  rw [hheader] at htf
  exact htf

theorem CmdInv.host (h : CmdInv ok c s) (hg : HostInTime ok c s s.pc) : CmdInv ok c (yucRficCmdProc ok c s) := by
  cases hpc : s.pc with
  | header =>
    simp only [yucRficCmdProc, hpc]
    refine ⟨fun j hj => ?_, h.executes, answered_nextParam rfl, fun hr => absurd hr (nextParam_ne_readErr c 0)⟩
    cases hj
    exact ⟨c.toNat_len, rfl, List.nil_prefix⟩
  | param i =>
    simp only [yucRficCmdProc, hpc]
    exact ⟨h.job, h.executes, answered_nextParam rfl, fun hr => absurd hr (nextParam_ne_readErr c (i + 1))⟩
  | poll numRead =>
    rw [hpc] at hg
    exact h.poll hpc hg
  | readErr =>
    rw [hpc] at hg
    exact h.readErr hpc hg
  | returned ret =>
    simpa only [yucRficCmdProc, hpc] using h

theorem CmdInv.step (h : CmdInv ok c s) (m : Move) (hg : InTime ok c s m) : CmdInv ok c (cmdStep ok c s m).1 := by
  cases m with
  | host => exact h.host hg
  | read => exact h.read hg
  | execute => exact h.execute
  | respond r => exact h.respond r
  | late k r => exact h.late k r

theorem cmdStart_inv (ok : BitVec 16) (c : Call) (regs : ℕ → BitVec 16) (earlier : List (BitVec 10)) :
    CmdInv ok c (cmdStart regs earlier) where
  job := by simp [cmdStart]
  executes := by simp [Executes, cmdStart]
  answered := answered_of_pc (by simp [cmdStart])
  reading := by simp [cmdStart]

/-! ### The chip that waits -/

/-- How many parameter words the host has written. -/
def Pc.wrote (c : Call) : Pc → ℕ
  | .header => 0
  | .param i => i
  | _ => c.words.length

/-- The words written stand in their registers, below the response header. -/
def Kept (c : Call) (s : State) : Prop :=
  ∀ i < s.pc.wrote c, i + 1 < yucRficCmdRespAddr → s.regs (yucRficCmdAddr + (i + 1)) = c.words.getD i 0

/-- A response leaves the registers below its header alone. -/
theorem respRegs_of_lt {id : BitVec 10} {r : Response} {regs : ℕ → BitVec 16} {a : ℕ} (ha : a < yucRficCmdRespAddr) :
    respRegs id r regs a = regs a := by
  rw [respRegs, Function.update_of_ne ha.ne]
  split
  · rw [Function.update_of_ne (by omega)]
  · rfl

/-- The next poll finds a response just written. -/
@[simp] theorem ofWord_respRegs (id : BitVec 10) (r : Response) (regs : ℕ → BitVec 16) :
    YucCmdResp.ofWord (respRegs id r regs yucRficCmdRespAddr) = r.header id := by
  rw [respRegs, Function.update_self, YucCmdResp.ofWord_word]

/-- A finished response is in time for the poll that follows it. -/
theorem pollsResponse_of_respond {j : Job} {r : Response} {numRead : ℕ} (hj : s.job = some j) (hid : j.id = c.id)
    (hran : j.ran = true) (htf : r.tf = true) : PollsResponse c numRead (rficRespond r s) := by
  have hresp : rficRespond r s =
      { s with regs := respRegs j.id r s.regs, written := s.written ++ [r], job := none } := by
    simp only [rficRespond, hj, hran, htf, implies_true, if_true]
  rw [hresp]
  simp only [PollsResponse, ofWord_respRegs, hid]
  refine ⟨fun _ => ⟨r, by simp, rfl⟩, fun hfin => ?_⟩
  simp only [YucCmdResp.finished, Response.header, htf, Bool.true_and, bne_eq_false_iff_eq] at hfin
  exact absurd hfin c.id_ne

theorem wrote_nextParam (c : Call) (i : ℕ) : (nextParam c i).wrote c ≤ i := by
  rw [nextParam]
  split
  case isTrue => exact le_rfl
  case isFalse hlt => exact not_lt.mp hlt

theorem Kept.mono {t : State} (h : Kept c s) (hregs : ∀ a < yucRficCmdRespAddr, t.regs a = s.regs a)
    (hw : t.pc.wrote c ≤ s.pc.wrote c) : Kept c t := by
  intro i hi hlt
  rw [hregs _ (by simpa [yucRficCmdAddr] using hlt)]
  exact h i (hi.trans_le hw) hlt

/-- After the last parameter word the host only polls. -/
theorem wrote_afterPoll (c : Call) (resp : YucCmdResp) (numRead : ℕ) :
    Pc.wrote c (if resp.finished then if resp.ew then .readErr else .returned 0
      else if numRead - 1 = 0 then .returned (timedOut resp) else .poll (numRead - 1)) = c.words.length := by
  repeat' split
  all_goals rfl

theorem Kept.host (h : Kept c s) : Kept c (yucRficCmdProc ok c s) := by
  rw [yucRficCmdProc]
  split
  case h_1 => exact fun i hi => absurd (hi.trans_le (wrote_nextParam c 0)) (Nat.not_lt_zero i)
  case h_2 k hpc =>
    intro i hi hlt
    have hle : i ≤ k := Nat.lt_succ_iff.mp (hi.trans_le (wrote_nextParam c (k + 1)))
    rcases hle.eq_or_lt with rfl | hik
    · exact Function.update_self _ _ _
    · dsimp only
      rw [Function.update_of_ne (by omega)]
      exact h i (by rwa [hpc]) hlt
  case h_3 numRead hpc => exact h.mono (fun _ _ => rfl) (by rw [hpc]; exact (wrote_afterPoll c _ numRead).le)
  case h_4 hpc => exact h.mono (fun _ _ => rfl) (by rw [hpc]; exact le_rfl)
  case h_5 => exact h

theorem Kept.step (h : Kept c s) (m : Move) : Kept c (cmdStep ok c s m).1 := by
  cases m with
  | host => exact h.host
  | read =>
    rw [cmdStep, rficRead]
    repeat' split
    all_goals exact h
  | execute =>
    rw [cmdStep, rficExecute]
    repeat' split
    all_goals exact h
  | respond r =>
    rw [cmdStep, rficRespond]
    split
    case h_1 j hj =>
      split
      · exact h.mono (fun _ ha => respRegs_of_lt ha) le_rfl
      · exact h
    case h_2 => exact h
  | late k r =>
    rw [cmdStep, rficLate]
    split
    · exact h.mono (fun _ ha => respRegs_of_lt ha) le_rfl
    · exact h

end Invariant

/-! ### Every run -/

section Claims

variable (ok : BitVec 16) (c : Call) (regs : ℕ → BitVec 16) (earlier : List (BitVec 10))

/-- A parameter word that the host has written, and that has no place among the
response registers, is read as it was passed: in any run, whatever is answered. -/
theorem reads_written (run : List Move) {i : ℕ} (hi : i < c.words.length)
    (hwrote : i < (exec (cmdStep ok c) (cmdStart regs earlier) run).pc.wrote c) (hlow : i + 1 < yucRficCmdRespAddr) :
    c.words[i]? = some ((exec (cmdStep ok c) (cmdStart regs earlier) run).regs (yucRficCmdAddr + (i + 1))) := by
  have hstart : Kept c (cmdStart regs earlier) := fun k hk => absurd hk (Nat.not_lt_zero k)
  have hkept : Kept c (exec (cmdStep ok c) (cmdStart regs earlier) run) :=
    exec_inv (fun s m h => h.step m) run hstart
  rw [hkept i hwrote hlow, List.getD_eq_getElem _ _ hi, List.getElem?_eq_getElem hi]

/-- In every run whose steps are in time, at every moment, the RFIC has executed nothing
but the command with the words passed, and success is reported after a finished response
to this command without an error. -/
theorem cmd_proc_in_time (run : List Move) (h : Guarded (cmdStep ok c) (InTime ok c) (cmdStart regs earlier) run)
    (js : List Move) (hjs : js <+: run) :
    Executes c (exec (cmdStep ok c) (cmdStart regs earlier) js) ∧
      Answered ok c (exec (cmdStep ok c) (cmdStart regs earlier) js) := by
  have hinv := exec_inv_of_guarded (I := CmdInv ok c) (fun s m hs hg => hs.step m hg) js
    (cmdStart_inv ok c regs earlier) (h.initial hjs)
  exact ⟨hinv.executes, hinv.answered⟩

end Claims

/-! ### The calibration of the resistor -/

/-- A command with the one parameter word `YUC_RFIC_CAL_RESISTOR_REFERENCE`, as
`yuc_rfic_APP_CalResistor` passes it. -/
def calResistor : Call where
  cmdData := 5
  words := [0xff]
  words_le := by decide
  id_ne := by decide

/-- The RFIC waits for the parameter word, and answers with `YUC_RTC_OK`. -/
def calRun : List Move :=
  [.host, .host, .read, .execute, .respond ⟨1, true, true, 0⟩, .host, .host]

theorem calResistor_in_time :
    Guarded (cmdStep 0 calResistor) (InTime 0 calResistor) (cmdStart (fun _ => 0x40) []) calRun ∧
      (exec (cmdStep 0 calResistor) (cmdStart (fun _ => 0x40) []) calRun).pc = .returned 0 ∧
      Executes calResistor (exec (cmdStep 0 calResistor) (cmdStart (fun _ => 0x40) []) calRun) ∧
      Answered 0 calResistor (exec (cmdStep 0 calResistor) (cmdStart (fun _ => 0x40) []) calRun) :=
  ⟨by decide, by decide,
    cmd_proc_in_time 0 calResistor (fun _ => 0x40) [] calRun (by decide) calRun (List.prefix_refl calRun)⟩

/-- Ten parameter words, of which the last lies in the response header and reads as
a finished response. -/
def tenWords : Call where
  cmdData := 5
  words := [0, 0, 0, 0, 0, 0, 0, 0, 0, 0x4050]
  words_le := by decide
  id_ne := by decide

/-- The RFIC reads the parameter word after the header is written and before the word is: it
executes the command with what the register held. And the host takes its own tenth
parameter word for the response. -/
theorem cmd_proc_races :
    (¬ ∀ (ok : BitVec 16) (c : Call) (regs : ℕ → BitVec 16) (earlier : List (BitVec 10)) (run : List Move),
        Executes c (exec (cmdStep ok c) (cmdStart regs earlier) run)) ∧
      ¬ ∀ (ok : BitVec 16) (c : Call) (regs : ℕ → BitVec 16) (earlier : List (BitVec 10)) (run : List Move),
        Answered ok c (exec (cmdStep ok c) (cmdStart regs earlier) run) :=
  ⟨fun h => absurd (h 0 calResistor (fun _ => 0x40) [] [.host, .read, .execute]) (by decide),
    fun h => absurd (h 0 tenWords (fun _ => 0) [] (List.replicate 12 .host)) (by decide)⟩

/-- With a response that is neither finished nor in error, the last poll ends in success. -/
theorem cmd_proc_times_out :
    ¬ Answered 0 calResistor (exec (cmdStep 0 calResistor) (cmdStart (fun _ => 0) [])
      ([.host, .host, .respond ⟨0, false, false, 0⟩] ++ List.replicate 16 .host)) := by
  decide

end Yucca
end La12xx
