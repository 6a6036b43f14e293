/-
# Bringing up the Yucca RFICs

`gul_yucca_rfic_probe` resets both chips over GPIO pins and starts one after
the other with `yuc_rfic_start_up`: the program image, the default registers,
and the commands get-version, resistor and regulator calibration. It announces
each chip that has started. The firmware files, the GPIO calls and what the
chips answer are arbitrary; of a chip's registers only what is read counts.

Success says less than it should: `yuc_do_rfic_resetn` returns 0 in every
case, `yuc_rfic_start_up` drops the result of `yuc_load_rfic_def_reg`, and a
command may end well without a finished response (`Quiet`).
-/
import La12xx.Vspa.Probe
import La12xx.Yucca.Command

namespace La12xx
namespace Yucca

open Machine Vspa

/-! ### A command, by its answers -/

/-- What a call finds: the response header at each poll, and the error word. -/
structure Answers where
  header : ℕ → BitVec 16
  err : BitVec 16

/-- The header at poll `k`. -/
def Answers.resp (A : Answers) (k : ℕ) : YucCmdResp := .ofWord (A.header k)

section Answers

variable (ok : BitVec 16) (A : Answers)

/-- The return of a call whose response is finished. -/
def finishedRet (resp : YucCmdResp) : ℤ := if resp.ew then if A.err ≠ ok then -eio else 0 else 0

/-- The polling loop of `yuc_rfic_cmd_proc`, from poll `k` on, and the test behind it. -/
def pollLoop : ℕ → ℕ → YucCmdResp → ℤ
  | 0, _, resp => timedOut resp
  | numRead + 1, k, _ =>
    if (A.resp k).finished then finishedRet ok A (A.resp k) else pollLoop numRead (k + 1) (A.resp k)

/-- The return of a call. -/
def cmdRet : ℤ := pollLoop ok A yucRficTsRetry 0 ⟨0, 0, false, false⟩

/-- The call receives a finished response without an error. -/
def Finished : Prop :=
  ∃ k < yucRficTsRetry, (A.resp k).finished = true ∧ (∀ j < k, (A.resp j).finished = false) ∧
    ((A.resp k).ew = true → A.err = ok)

/-- No poll finds a finished response, but the last finds one with an id and no error. -/
def Quiet : Prop :=
  (∀ k < yucRficTsRetry, (A.resp k).finished = false) ∧ (A.resp (yucRficTsRetry - 1)).id ≠ 0 ∧
    (A.resp (yucRficTsRetry - 1)).ew = false

end Answers

/-! ### One chip -/

/-- `YUC_RFIC_FW_SIZE` -/
def yucRficFwSize : ℕ := 500 * 1024

/-- `YUC_RFIC_CHIP_ID_RO_REG_VALUE` -/
def yucRficChipIdRoRegValue : BitVec 16 := 0x01a0

/-- `ENODATA` -/
def enodata : ℤ := 61

/-- One file: the buffer, and what the firmware loader has for it. -/
structure FwFile where
  vmalloc : Bool
  firmware : Except ℕ (ByteMem.Mem × ℕ)

/-- The file is there and fits. -/
def FwFile.Loaded (F : FwFile) : Prop :=
  F.vmalloc = true ∧ ∃ data size, F.firmware = .ok (data, size) ∧ size ≤ yucRficFwSize

/-- What `yuc_load_rfic_img` and `yuc_load_rfic_def_reg` share. -/
def loadFile (F : FwFile) : ℤ :=
  if !F.vmalloc then -enomem
  else
    match gulUdevLoadFirmware (fun _ => 0) yucRficFwSize F.firmware with
    | .error rc => rc
    | .ok _ => 0

/-- `yuc_load_rfic_img`; a file that is loaded has a first line, so `yuc_prog_rfic_fw`
returns 0. -/
def yucLoadRficImg (F : FwFile) : ℤ := loadFile F

/-- `yuc_load_rfic_def_reg` -/
def yucLoadRficDefReg (F : FwFile) : ℤ := loadFile F

/-- What a chip and its files do at a start. -/
structure Chip where
  chipid : BitVec 16
  img : FwFile
  defReg : FwFile
  version : Answers
  /-- `rfic_words[1]` of the answer to get-version -/
  hwVersion : BitVec 16
  resistor : Answers
  regulator : Answers

/-- The answers to the three commands. -/
def Chip.answers (C : Chip) : List Answers := [C.version, C.resistor, C.regulator]

/-- `enum yuc_reset_type` -/
inductive YucResetType where
  | poReset
  | coldReset
  | warmReset
deriving DecidableEq, Repr

section StartUp

variable (ok : BitVec 16) (rst : YucResetType) (C : Chip)

/-- `yuc_rfic_start_fw` -/
def yucRficStartFw : ℤ :=
  let ret := cmdRet ok C.version
  if ret = 0 then if C.hwVersion = 0 then -enodata else 0 else ret

/-- `yuc_rfic_APP_CalResistor` -/
def yucRficAppCalResistor : ℤ := cmdRet ok C.resistor

/-- `yuc_rfic_APP_CalRegulator` -/
def yucRficAppCalRegulator : ℤ := cmdRet ok C.regulator

/-- `yuc_rfic_start_up` -/
def yucRficStartUp : ℤ :=
  let rc := if rst = .poReset ∨ rst = .coldReset then yucLoadRficImg C.img else 0
  if rc ≠ 0 then rc else
  -- the result is dropped, and `rc` is tested again
  let _ := yucLoadRficDefReg C.defReg
  if rc ≠ 0 then rc else
  let rc := yucRficStartFw ok C
  if rc ≠ 0 then rc else
  let rc := yucRficAppCalResistor ok C
  if rc ≠ 0 then rc else
  yucRficAppCalRegulator ok C

/-- No step of `yuc_rfic_start_up` fails. -/
structure StepsOk : Prop where
  img : rst ≠ .warmReset → C.img.Loaded
  defReg : C.defReg.Loaded
  answers : ∀ A ∈ C.answers, Finished ok A
  hwVersion : C.hwVersion ≠ 0

/-- The steps whose result is looked at do not fail, as it is looked at. -/
structure Accepted : Prop where
  img : rst ≠ .warmReset → C.img.Loaded
  answers : ∀ A ∈ C.answers, Finished ok A ∨ Quiet A
  hwVersion : C.hwVersion ≠ 0

/-- Every failing step makes `yuc_rfic_start_up` return non-zero. -/
def StartUpHonest : Prop := ¬ StepsOk ok rst C → yucRficStartUp ok rst C ≠ 0

end StartUp

/-! ### The probe -/

/-- The GPIO pins of both chips, and the one they share on the LA1238 boards. -/
inductive Pin where
  | yucca1Reset
  | yucca2Reset
  | yucca1Trx
  | yucca2Trx
  | yuccaTrx
deriving DecidableEq, Repr

/-- A call to the GPIO driver. -/
inductive GpioCall where
  | getdata
  | setdata (pin : Pin) (val : Bool)
deriving DecidableEq, Repr

/-- The two chips. -/
inductive Rfic where
  | rfic1
  | rfic2
deriving DecidableEq, Repr

/-- What the probe meets. `gpio i` is the result of the `i`-th call of the reset sequence. -/
structure ProbeEnv where
  la1238 : Bool
  kmalloc : Bool
  node : Bool
  validPin : Pin → Bool
  gpioInit : Pin → ℤ
  gpio : ℕ → ℤ
  chip : Rfic → Chip

/-- The pins that are checked. -/
def ProbeEnv.pins (E : ProbeEnv) : List Pin :=
  [.yucca1Reset, .yucca2Reset, .yucca1Trx] ++ (if E.la1238 then [.yuccaTrx] else []) ++ [.yucca2Trx]

/-- The pins that are initialised. -/
def initPins : List Pin := [.yucca1Reset, .yucca2Reset, .yucca1Trx, .yucca2Trx, .yuccaTrx]

/-- The calls of the reset sequence. -/
def ProbeEnv.resetCalls (E : ProbeEnv) : List GpioCall :=
  [.getdata, .setdata .yucca1Reset false, .setdata .yucca2Reset false, .setdata .yucca1Trx true,
    .setdata .yucca2Trx true] ++ (if E.la1238 then [.setdata .yuccaTrx true] else []) ++
  [.setdata .yucca1Reset true, .setdata .yucca2Reset true, .getdata]

/-- The calls from the `i`-th on, up to the first that fails. -/
def performed (gpio : ℕ → ℤ) : List GpioCall → ℕ → List GpioCall
  | [], _ => []
  | call :: calls, i => call :: if gpio i ≠ 0 then [] else performed gpio calls (i + 1)

/-- `yuc_do_rfic_resetn`: the calls made, and the return. -/
def yucDoRficResetn (E : ProbeEnv) : List GpioCall × ℤ :=
  -- the label `fail` returns 0, not `ret`
  (performed E.gpio E.resetCalls 0, 0)

/-- What a probe leaves: its return, the GPIO calls of the reset sequence, and the
chips it has announced with `gul_set_host_ready`. -/
structure ProbeOut where
  ret : ℤ
  calls : List GpioCall
  ready : List Rfic
deriving DecidableEq, Repr

section Probe

variable (ok : BitVec 16) (E : ProbeEnv)

/-- One chip of the probe, with the return so far. -/
def startChip (r : Rfic) (out : ProbeOut) : ProbeOut :=
  if (E.chip r).chipid ≠ yucRficChipIdRoRegValue then out
  else
    let ret := yucRficStartUp ok .poReset (E.chip r)
    if ret ≠ 0 then { out with ret := ret } else { out with ret := ret, ready := out.ready ++ [r] }

/-- `gul_yucca_rfic_probe` -/
def gulYuccaRficProbe : ProbeOut :=
  if !E.kmalloc then ⟨-enomem, [], []⟩
  else if !E.node then ⟨0, [], []⟩
  else if E.pins.any fun pin => !E.validPin pin then ⟨0, [], []⟩
  else if initPins.any fun pin => E.gpioInit pin ≠ 0 then ⟨0, [], []⟩
  else
    let (calls, ret) := yucDoRficResetn E
    if ret ≠ 0 then ⟨ret, calls, []⟩ else startChip ok E .rfic2 (startChip ok E .rfic1 ⟨ret, calls, []⟩)

/-- The reset sequence succeeds. -/
def ResetOk : Prop := ∀ i < E.resetCalls.length, E.gpio i = 0

/-- The probe comes to the reset sequence. -/
structure Prepared : Prop where
  kmalloc : E.kmalloc = true
  node : E.node = true
  pins : ∀ pin ∈ E.pins, E.validPin pin = true
  init : ∀ pin ∈ initPins, E.gpioInit pin = 0

/-- A chip is announced only if it is there and all of its steps, and the reset, went well. -/
def ProbeHonest : Prop :=
  ∀ r ∈ (gulYuccaRficProbe ok E).ready,
    (E.chip r).chipid = yucRficChipIdRoRegValue ∧ ResetOk E ∧ StepsOk ok .poReset (E.chip r)

end Probe

/-! ### A command -/

section AnswersSpec

variable {ok : BitVec 16} {A : Answers}

theorem timedOut_eq_zero_iff {resp : YucCmdResp} : timedOut resp = 0 ↔ resp.id ≠ 0 ∧ resp.ew = false := by
  unfold timedOut
  split
  case isTrue h =>
    simp only [Bool.or_eq_true, beq_iff_eq] at h
    refine iff_of_false (by decide) fun hne => ?_
    rcases h with hew | hid
    · simp [hne.2] at hew
    · exact hne.1 hid
  case isFalse h =>
    simp only [Bool.or_eq_true, beq_iff_eq, not_or, Bool.not_eq_true] at h
    exact iff_of_true rfl ⟨h.2, h.1⟩

theorem finishedRet_eq_zero_iff {resp : YucCmdResp} :
    finishedRet ok A resp = 0 ↔ (resp.ew = true → A.err = ok) := by
  unfold finishedRet
  by_cases hew : resp.ew = true
  · rw [if_pos hew]
    by_cases herr : A.err = ok
    · rw [if_neg (not_not.mpr herr)]
      exact iff_of_true rfl fun _ => herr
    · rw [if_pos herr]
      exact iff_of_false (by decide) fun h => herr (h hew)
  · rw [if_neg hew]
    exact iff_of_true rfl fun h => absurd h hew

/-- An unfinished response leaves the loop to the next poll. -/
theorem pollLoop_succ {n k : ℕ} {resp : YucCmdResp} (hk : (A.resp k).finished = false) :
    pollLoop ok A (n + 1) k resp = pollLoop ok A n (k + 1) (A.resp k) := by
  rw [pollLoop, if_neg (by simp [hk])]

/-- The loop ends at the first finished response. -/
theorem pollLoop_of_first {n i k : ℕ} {resp : YucCmdResp} (hi : i < n) (hfin : (A.resp (k + i)).finished = true)
    (hbefore : ∀ j < i, (A.resp (k + j)).finished = false) :
    pollLoop ok A n k resp = finishedRet ok A (A.resp (k + i)) := by
  induction i generalizing n k resp with
  | zero =>
    obtain ⟨m, rfl⟩ := Nat.exists_eq_succ_of_ne_zero hi.ne'
    rw [Nat.add_zero] at hfin ⊢
    rw [pollLoop, if_pos hfin]
  | succ i ih =>
    obtain ⟨m, rfl⟩ := Nat.exists_eq_succ_of_ne_zero (Nat.zero_lt_of_lt hi).ne'
    have hshift : ∀ j, k + (j + 1) = k + 1 + j := fun j => by omega
    rw [hshift] at hfin ⊢
    have hk : (A.resp k).finished = false := hbefore 0 i.succ_pos
    rw [Nat.succ_eq_add_one, pollLoop_succ hk]
    refine ih (Nat.succ_lt_succ_iff.mp hi) hfin fun j hj => ?_
    rw [← hshift]
    exact hbefore (j + 1) (Nat.succ_lt_succ hj)

/-- Without one, it ends with the test of the last response read. -/
theorem pollLoop_of_none {n k : ℕ} {resp : YucCmdResp} (hnone : ∀ j ≤ n, (A.resp (k + j)).finished = false) :
    pollLoop ok A (n + 1) k resp = timedOut (A.resp (k + n)) := by
  induction n generalizing k resp with
  | zero =>
    have hk : (A.resp k).finished = false := hnone 0 le_rfl
    rw [pollLoop_succ hk, pollLoop, Nat.add_zero]
  | succ n ih =>
    have hk : (A.resp k).finished = false := hnone 0 (Nat.zero_le _)
    have hshift : ∀ j, k + (j + 1) = k + 1 + j := fun j => by omega
    rw [pollLoop_succ hk, hshift n]
    refine ih fun j hj => ?_
    rw [← hshift]
    exact hnone (j + 1) (Nat.succ_le_succ hj)

/-- A call ends in success after a finished response without an error, and quietly. -/
theorem cmdRet_eq_zero_iff : cmdRet ok A = 0 ↔ Finished ok A ∨ Quiet A := by
  by_cases h : ∃ k < yucRficTsRetry, (A.resp k).finished = true
  · have hfirst := Nat.find_spec h
    have hbefore : ∀ j < Nat.find h, (A.resp j).finished = false := fun j hj => by
      have hmin := Nat.find_min h hj
      rw [not_and, Bool.not_eq_true] at hmin
      exact hmin (hj.trans hfirst.1)
    have hret : cmdRet ok A = finishedRet ok A (A.resp (Nat.find h)) := by
      rw [cmdRet, pollLoop_of_first hfirst.1 (by simpa using hfirst.2) (by simpa using hbefore), Nat.zero_add]
    rw [hret, finishedRet_eq_zero_iff]
    constructor
    · exact fun herr => .inl ⟨Nat.find h, hfirst.1, hfirst.2, hbefore, herr⟩
    · rintro (⟨k, hk, hfin, hnone, herr⟩ | ⟨hnone, -⟩)
      · have hle : Nat.find h ≤ k := Nat.find_min' h ⟨hk, hfin⟩
        obtain heq | hlt := hle.eq_or_lt
        · rwa [heq]
        · exact absurd (hnone _ hlt) (by simp [hfirst.2])
      · exact absurd (hnone _ hfirst.1) (by simp [hfirst.2])
  · have hnone : ∀ k < yucRficTsRetry, (A.resp k).finished = false := fun k hk => by
      rw [← Bool.not_eq_true]
      exact fun hfin => h ⟨k, hk, hfin⟩
    have hret : cmdRet ok A = timedOut (A.resp (yucRficTsRetry - 1)) := by
      rw [cmdRet, show yucRficTsRetry = 15 + 1 from rfl,
        pollLoop_of_none fun j hj => by simpa using hnone j (Nat.lt_succ_of_le hj), Nat.zero_add]
    rw [hret, timedOut_eq_zero_iff]
    constructor
    · exact fun hlast => .inr ⟨hnone, hlast⟩
    · rintro (⟨k, hk, hfin, -⟩ | ⟨-, hlast⟩)
      · exact absurd ⟨k, hk, hfin⟩ h
      · exact hlast

/-- The answers begin with the headers seen. -/
def Answers.Begins (A : Answers) (seen : List (BitVec 16)) : Prop := ∀ k < seen.length, A.header k = seen.getD k 0

/-- Answers that begin with one more header. -/
theorem Answers.begins_append {seen : List (BitVec 16)} {w : BitVec 16} (h : A.Begins (seen ++ [w])) :
    A.Begins seen ∧ A.header seen.length = w := by
  constructor
  · intro k hk
    rw [h k (by simp; omega), List.getD_append _ _ _ _ hk]
  · rw [h seen.length (by simp), List.getD_append_right _ _ _ _ le_rfl]
    simp

/-- Where a call stands in its polls: the headers seen so far decide its return as far
as they can. -/
def Polled (ok : BitVec 16) : Pc → Prop
  | .header | .param _ => True
  | .poll n => n ≠ 0 ∧ ∃ seen, ∀ A : Answers, A.Begins seen → ∀ resp, cmdRet ok A = pollLoop ok A n seen.length resp
  | .readErr => ∃ seen, ∀ A : Answers, A.Begins seen → cmdRet ok A = if A.err ≠ ok then -eio else 0
  | .returned ret => ∃ A, cmdRet ok A = ret

theorem polled_nextParam (ok : BitVec 16) (c : Call) (i : ℕ) : Polled ok (nextParam c i) := by
  rcases nextParam_cases c i with h | h
  · rw [h]
    trivial
  · rw [h]
    exact ⟨by decide, [], fun A _ resp => rfl⟩

theorem Polled.host {c : Call} {s : State} (h : Polled ok s.pc) : Polled ok (yucRficCmdProc ok c s).pc := by
  cases hpc : s.pc with
  | header =>
    simp only [yucRficCmdProc, hpc]
    exact polled_nextParam ok c 0
  | param i =>
    simp only [yucRficCmdProc, hpc]
    exact polled_nextParam ok c (i + 1)
  | poll numRead =>
    rw [hpc] at h
    obtain ⟨hne, seen, hseen⟩ := h
    obtain ⟨n, rfl⟩ := Nat.exists_eq_succ_of_ne_zero hne
    simp only [yucRficCmdProc, hpc]
    set w := s.regs yucRficCmdRespAddr
    have hloop : ∀ A : Answers, A.Begins (seen ++ [w]) →
        cmdRet ok A = if (YucCmdResp.ofWord w).finished then finishedRet ok A (YucCmdResp.ofWord w)
          else pollLoop ok A n (seen.length + 1) (YucCmdResp.ofWord w) := by
      intro A hA
      obtain ⟨hbegins, hw⟩ := Answers.begins_append hA
      rw [hseen A hbegins ⟨0, 0, false, false⟩, Nat.succ_eq_add_one, pollLoop, Answers.resp, hw]
    have hsome : Answers.Begins ⟨fun k => (seen ++ [w]).getD k 0, 0⟩ (seen ++ [w]) := fun k _ => rfl
    by_cases hfin : (YucCmdResp.ofWord w).finished = true
    · simp only [hfin, if_true] at hloop ⊢
      by_cases hew : (YucCmdResp.ofWord w).ew = true
      · simp only [finishedRet, hew, if_true] at hloop ⊢
        exact ⟨_, hloop⟩
      · simp only [finishedRet, hew] at hloop ⊢
        exact ⟨_, hloop _ hsome⟩
    · simp only [hfin] at hloop ⊢
      cases n with
      | zero => exact ⟨_, hloop _ hsome⟩
      | succ n =>
        refine ⟨n.succ_ne_zero, seen ++ [w], fun A hA resp => ?_⟩
        rw [hloop A hA, List.length_append]
        rfl
  | readErr =>
    rw [hpc] at h
    obtain ⟨seen, hseen⟩ := h
    simp only [yucRficCmdProc, hpc]
    exact ⟨⟨fun k => seen.getD k 0, _⟩, hseen _ fun k _ => rfl⟩
  | returned ret =>
    simpa only [yucRficCmdProc, hpc] using h

/-- However the steps of host and RFIC interleave, a call returns what `cmdRet` says for the
answers it has met. -/
theorem returned_cmdRet (ok : BitVec 16) (c : Call) (regs : ℕ → BitVec 16) (earlier : List (BitVec 10))
    (run : List Move) {ret : ℤ} (h : (exec (cmdStep ok c) (cmdStart regs earlier) run).pc = .returned ret) :
    ∃ A, cmdRet ok A = ret := by
  have hstep : ∀ s m, Polled ok s.pc → Polled ok (cmdStep ok c s m).1.pc := by
    intro s m hs
    by_cases hm : m = .host
    · rw [hm]
      exact hs.host
    · rwa [cmdStep_pc ok c hm]
  have hstart : Polled ok (cmdStart regs earlier).pc := trivial
  have hpolled : Polled ok (exec (cmdStep ok c) (cmdStart regs earlier) run).pc :=
    exec_inv (I := fun s : State => Polled ok s.pc) hstep run hstart
  rwa [h] at hpolled

/-- What is quiet has no finished response. -/
theorem Quiet.not_finished (h : Quiet A) : ¬ Finished ok A := by
  rintro ⟨k, hk, hfin, -⟩
  rw [h.1 k hk] at hfin
  exact Bool.false_ne_true hfin

end AnswersSpec

/-! ### A start -/

section StartUpSpec

variable {ok : BitVec 16} {rst : YucResetType} {C : Chip}

theorem loadFile_eq_zero_iff {F : FwFile} : loadFile F = 0 ↔ F.Loaded := by
  obtain ⟨vmalloc, firmware⟩ := F
  unfold loadFile FwFile.Loaded
  cases vmalloc with
  | false => simp [enomem]
  | true =>
    cases firmware with
    | error e =>
      simp only [gulUdevLoadFirmware]
      simp
      omega
    | ok f =>
      obtain ⟨data, size⟩ := f
      by_cases hsize : yucRficFwSize < size
      · simp [gulUdevLoadFirmware, hsize, enobufs]
      · simp [gulUdevLoadFirmware, hsize, not_lt.mp hsize]

theorem yucRficStartFw_eq_zero_iff :
    yucRficStartFw ok C = 0 ↔ (Finished ok C.version ∨ Quiet C.version) ∧ C.hwVersion ≠ 0 := by
  rw [← cmdRet_eq_zero_iff, yucRficStartFw]
  by_cases hret : cmdRet ok C.version = 0
  · by_cases hw : C.hwVersion = 0
    · simp [hret, hw, enodata]
    · simp only [hret, if_true, if_neg hw, true_and]
      exact iff_of_true trivial hw
  · simp [hret]

/-- A step whose return is looked at: what follows comes to 0 only if the step did. -/
theorem ite_ne_zero_iff {rc rest : ℤ} : (if rc ≠ 0 then rc else rest) = 0 ↔ rc = 0 ∧ rest = 0 := by
  by_cases hrc : rc = 0
  · simp [hrc]
  · simp [hrc]

theorem answers_iff {P : Answers → Prop} : (∀ A ∈ C.answers, P A) ↔ P C.version ∧ P C.resistor ∧ P C.regulator := by
  simp [Chip.answers]

/-- The image is loaded unless the reset is a warm one. -/
theorem loadImg_eq_zero_iff :
    (if rst = .poReset ∨ rst = .coldReset then yucLoadRficImg C.img else 0) = 0 ↔
      (rst ≠ .warmReset → C.img.Loaded) := by
  cases rst <;> simp [yucLoadRficImg, loadFile_eq_zero_iff]

/-- `yuc_rfic_start_up` succeeds exactly if the steps it looks at are accepted. -/
theorem yucRficStartUp_eq_zero_iff : yucRficStartUp ok rst C = 0 ↔ Accepted ok rst C := by
  have haccepted : Accepted ok rst C ↔ (rst ≠ .warmReset → C.img.Loaded) ∧
      yucRficStartFw ok C = 0 ∧ yucRficAppCalResistor ok C = 0 ∧ yucRficAppCalRegulator ok C = 0 := by
    rw [yucRficStartFw_eq_zero_iff, yucRficAppCalResistor, yucRficAppCalRegulator, cmdRet_eq_zero_iff,
      cmdRet_eq_zero_iff]
    constructor
    · rintro ⟨himg, hans, hw⟩
      obtain ⟨hv, hr, hg⟩ := answers_iff.mp hans
      exact ⟨himg, ⟨hv, hw⟩, hr, hg⟩
    · rintro ⟨himg, ⟨hv, hw⟩, hr, hg⟩
      exact ⟨himg, answers_iff.mpr ⟨hv, hr, hg⟩, hw⟩
  rw [haccepted, ← loadImg_eq_zero_iff, yucRficStartUp]
  simp only [ite_ne_zero_iff, and_self_left]

/-- The steps of a start are in order exactly if they are accepted, the default registers
are loaded and no command ends quietly. -/
theorem stepsOk_iff : StepsOk ok rst C ↔ Accepted ok rst C ∧ C.defReg.Loaded ∧ ∀ A ∈ C.answers, ¬ Quiet A := by
  constructor
  · exact fun h => ⟨⟨h.img, fun A hA => .inl (h.answers A hA), h.hwVersion⟩, h.defReg,
      fun A hA hq => hq.not_finished (h.answers A hA)⟩
  · rintro ⟨hacc, hdef, hquiet⟩
    exact ⟨hacc.img, hdef, fun A hA => (hacc.answers A hA).resolve_right (hquiet A hA), hacc.hwVersion⟩

end StartUpSpec

/-! ### The probe -/

section ProbeSpec

variable {ok : BitVec 16} {E : ProbeEnv}

/-- A chip adds itself to those announced exactly if it is there and has started. -/
theorem mem_startChip_iff {r r' : Rfic} {out : ProbeOut} :
    r' ∈ (startChip ok E r out).ready ↔ r' ∈ out.ready ∨
      (r' = r ∧ (E.chip r).chipid = yucRficChipIdRoRegValue ∧ Accepted ok .poReset (E.chip r)) := by
  rw [← yucRficStartUp_eq_zero_iff, startChip]
  by_cases hid : (E.chip r).chipid = yucRficChipIdRoRegValue
  · rw [if_neg (not_not.mpr hid)]
    by_cases hret : yucRficStartUp ok .poReset (E.chip r) = 0
    · simp [hid, hret]
    · simp [hret]
  · rw [if_pos hid]
    simp [hid]

theorem gulYuccaRficProbe_of_prepared (h : Prepared E) :
    gulYuccaRficProbe ok E =
      startChip ok E .rfic2 (startChip ok E .rfic1 ⟨0, performed E.gpio E.resetCalls 0, []⟩) := by
  have hpins : (E.pins.any fun pin => !E.validPin pin) = false := by
    simpa using h.pins
  have hinit : (initPins.any fun pin => E.gpioInit pin ≠ 0) = false := by
    simpa using h.init
  simp only [gulYuccaRficProbe, h.kmalloc, h.node, hpins, hinit, yucDoRficResetn]
  simp

theorem ready_of_not_prepared (h : ¬ Prepared E) : (gulYuccaRficProbe ok E).ready = [] := by
  rw [gulYuccaRficProbe]
  split_ifs with hk hn hp hi
  · rfl
  · rfl
  · rfl
  · rfl
  · refine absurd ⟨by simpa using hk, by simpa using hn, by simpa using hp, by simpa using hi⟩ h

/-- The chips announced. -/
theorem mem_ready_iff {r : Rfic} :
    r ∈ (gulYuccaRficProbe ok E).ready ↔
      Prepared E ∧ (E.chip r).chipid = yucRficChipIdRoRegValue ∧ Accepted ok .poReset (E.chip r) := by
  by_cases h : Prepared E
  · rw [gulYuccaRficProbe_of_prepared h, mem_startChip_iff, mem_startChip_iff]
    cases r <;> simp [h]
  · rw [ready_of_not_prepared h]
    simp [h]

end ProbeSpec

/-! ### When readiness is honest -/

/-- Announcing is honest exactly if, for every chip that is there and whose other steps are
accepted, the reset succeeds, the default registers are loaded and no command ends
quietly; and a start returns non-zero at every failing step exactly if the last two hold
whenever its other steps are accepted. -/
theorem readiness_honest_iff (ok : BitVec 16) :
    (∀ E : ProbeEnv, ProbeHonest ok E ↔
      (Prepared E → ∀ r, (E.chip r).chipid = yucRficChipIdRoRegValue → Accepted ok .poReset (E.chip r) →
        ResetOk E ∧ (E.chip r).defReg.Loaded ∧ ∀ A ∈ (E.chip r).answers, ¬ Quiet A)) ∧
      ∀ (rst : YucResetType) (C : Chip), StartUpHonest ok rst C ↔
        (Accepted ok rst C → C.defReg.Loaded ∧ ∀ A ∈ C.answers, ¬ Quiet A) := by
  constructor
  · intro E
    simp only [ProbeHonest, mem_ready_iff, stepsOk_iff]
    constructor
    · intro h hprep r hid hacc
      obtain ⟨-, hreset, -, hrest⟩ := h r ⟨hprep, hid, hacc⟩
      exact ⟨hreset, hrest⟩
    · rintro h r ⟨hprep, hid, hacc⟩
      obtain ⟨hreset, hrest⟩ := h hprep r hid hacc
      exact ⟨hid, hreset, hacc, hrest⟩
  · intro rst C
    rw [StartUpHonest, not_imp_not, yucRficStartUp_eq_zero_iff, stepsOk_iff]
    exact ⟨fun h hacc => (h hacc).2, fun h hacc => ⟨hacc, h hacc⟩⟩

/-- A finished response to a command, without an error word, at the first poll. -/
def finishedAnswers : Answers := ⟨fun _ => (⟨1, 5, true, false⟩ : YucCmdResp).word, 0⟩

/-- A chip that is there and whose steps succeed, but for the default registers, of which
there is no file. -/
def chipWithoutDefaults : Chip where
  chipid := yucRficChipIdRoRegValue
  img := ⟨true, .ok (fun _ => 0, 4)⟩
  defReg := ⟨true, .error 1⟩
  version := finishedAnswers
  hwVersion := 0x10
  resistor := finishedAnswers
  regulator := finishedAnswers

/-- Both chips are of this kind, and no GPIO call of the reset sequence succeeds. -/
def envWithoutReset : ProbeEnv where
  la1238 := false
  kmalloc := true
  node := true
  validPin := fun _ => true
  gpioInit := fun _ => 0
  gpio := fun _ => -1
  chip := fun _ => chipWithoutDefaults

/-- Both chips are announced without a reset and without their default registers; the start
of a chip whose default registers are missing returns 0. -/
theorem readiness_dishonest :
    (¬ ∀ (ok : BitVec 16) (E : ProbeEnv), ProbeHonest ok E) ∧
      ¬ ∀ (ok : BitVec 16) (rst : YucResetType) (C : Chip), StartUpHonest ok rst C := by
  have hfin : Finished 0 finishedAnswers :=
    ⟨0, by decide, by decide, fun j hj => absurd hj (Nat.not_lt_zero j), by decide⟩
  have hacc : Accepted 0 .poReset chipWithoutDefaults :=
    ⟨fun _ => ⟨rfl, _, _, rfl, by decide⟩, answers_iff.mpr ⟨.inl hfin, .inl hfin, .inl hfin⟩, by decide⟩
  have hdef : ¬ StepsOk 0 .poReset chipWithoutDefaults := by
    rintro ⟨-, ⟨-, data, size, hfile, -⟩, -, -⟩
    cases hfile
  constructor
  · intro h
    have hprep : Prepared envWithoutReset := ⟨rfl, rfl, fun _ _ => rfl, fun _ _ => rfl⟩
    exact hdef (h 0 envWithoutReset .rfic1 (mem_ready_iff.mpr ⟨hprep, rfl, hacc⟩)).2.2
  · intro h
    exact h 0 .poReset chipWithoutDefaults hdef (yucRficStartUp_eq_zero_iff.mpr hacc)

end Yucca
end La12xx
