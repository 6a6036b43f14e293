/-
# Bringing up HSDCS

`hsdcs_macro_init` loads the firmware of the HSDCS core, waits until it tells its version,
and has `hsdcs_init_adc_dac` enable and calibrate the converters. All of it is a dialogue
with the hardware over its registers, and the hardware may answer as it likes. When the
host announces HSDCS, the image is loaded, the firmware is recent enough on revision B
(revision A goes on even if its version reads 0), and what was enabled is calibrated
(`announced`); some hardware gets there exactly if the masks can be served by its revision
(`announced_possible_iff`).
-/
import La12xx.Base.SubProbe
import La12xx.Dcs.Mailbox
import La12xx.Dcs.Monitor
import La12xx.Lib.Watch

namespace La12xx
namespace Dcs
namespace BringUp

open Base (SocRev enomem enodev)
open SubProbe (einval enoexec)
open Mailbox (Word32 retries ebusy respAck respInitDone calBit)
open Dialogue

/-! ### The hardware -/

/-- The registers of `hsdcs_regs_map` in use here, the clock register of the PLL, and the
two `LOW_PWR_TBGEN2_CTRL`. -/
inductive Reg where
  | clkCtrl
  | ipVerInfo
  | wrRwTestReg
  | fwVerInfo
  | dcsCtrl
  | dcsProgStrtAddr
  | dcsProgWrtData
  | dcsMailboxReg0
  | dcsMailboxReg1
  | dcsMailboxReg2
  | dcsMailboxReg0Resp
  | dcsMailboxReg2Resp
  | adcEnableCtrl
  | adcCalCompStat
  | lowPwrCfg
  | dacEnableCtrl
  | dacReadyStat
  | adcDacRegCtrl
  | adcDacRegGrStatus
  | calRef
  | dac1RstCtrl
  | dac2RstCtrl
  | pllcr0
  | tbgen2Ctrl1
  | tbgen2Ctrl2
deriving DecidableEq, Repr

inductive Query where
  | readl (reg : Reg)
  | writel (val : Word32) (reg : Reg)
  /-- `mtd_get_temp_nowait` of the VSPA site -/
  | mtdGetTempNowait
deriving DecidableEq, Repr

/-- What is answered: a word to a read, a temperature or an error to the sensor. -/
structure Answer where
  word : Word32
  temp : Option ℤ
deriving Inhabited

abbrev Program := Dialogue Query Answer

def readl (reg : Reg) : Program Word32 := do
  let r ← query (.readl reg)
  pure r.word

def writel (val : Word32) (reg : Reg) : Program Unit := do
  let _ ← query (.writel val reg)
  pure ()

/-- `hsdcs_get_curr_temperature` -/
def getCurrTemperature : Program (Option ℤ) := do
  let r ← query .mtdGetTempNowait
  pure (hsdcsGetCurrTemperature r.temp)

/-- A loop of at most so many reads, up to one that is what is waited for. -/
def pollReg (reg : Reg) (found : Word32 → Bool) : ℕ → Word32 → Program Word32
  | 0, val => pure val
  | left + 1, _ => do
    let val ← readl reg
    if found val then pure val else pollReg reg found left val

/-! ### What the host keeps -/

/-- The configuration: the module parameters, and what the modem is. -/
structure Config where
  socRev : SocRev
  hsadcMask : ℤ
  hsdacMask : ℤ
  tbgen2Disable : Bool
  hsdcsEnable : Bool
  /-- `warmup_flag` of the modem -/
  warmup : Bool
  /-- `gul_ep_get_hsdcs_type` is not `GEUL_SVR_HSDCS_NO`. -/
  hsdcsType : Bool

/-- The firmware in its buffer: its size in bytes, and the words of the buffer. -/
structure Image where
  size : ℕ
  word : ℕ → Word32

/-- The globals, the fields of `struct dcs_dev` and the bits of `host_ready` that are written. -/
structure Host where
  adcRxiRxqMask : Word32
  dacTxiTxqMask : Word32
  tddCtrl1State : Word32
  tddCtrl2State : Word32
  lastimeFullCalTemp : ℤ
  incRecalEnabled : Bool
  fullRecalEnabled : Bool
  tempCompCnt : Word32
  /-- `HIF_HOST_READY_HS_TBGEN2` -/
  hsTbgen2Ready : Bool
  /-- `HIF_HOST_READY_DCS_HS` -/
  dcsHsReady : Bool

/-- `HSDCS_INITIAL_CAL_RETRIES` -/
def initialCalRetries : ℕ := 5

/-- `ADC_ENABLE_1` and `DAC_ENABLE_1` -/
def enable1 : Word32 := 0x3

/-- `ADC_ENABLE_2` and `DAC_ENABLE_2` -/
def enable2 : Word32 := 0xC

/-- `ADC_ENABLE_BOTH` and `DAC_ENABLE_BOTH` -/
def enableBoth : Word32 := enable1 ||| enable2

/-- `ADC_16G_EN_MASK` -/
def adc16gEnMask : Word32 := 0x1f

/-! ### The calibration of the ADCs -/

/-- What `hsdcs_write_temp_compensation` makes of the register: the temperature, in Kelvin, in
the bits that `HSADC_TEMP_COMP_READ_MASK` clears. -/
def tempComp (val : Word32) (t : ℤ) : Word32 := (val &&& 0xFE00FFFF) ||| (BitVec.ofInt 32 (t + 273) <<< 16)

/-- `hsdcs_write_temp_compensation` -/
def hsdcsWriteTempCompensation (h : Host) : Program Host := do
  let val ← readl .dcsMailboxReg2
  match ← getCurrTemperature with
  | none => pure h
  | some t => do
    writel (tempComp val t) .dcsMailboxReg2
    pure { h with tempCompCnt := h.tempCompCnt + 1 }

/-- `hsdcs_adc_low_pow_conf` with `ENABLE_LOWPWR` and `TBGEN_STORE` -/
def enableLowPow (h : Host) : Program Host := do
  let tdd1 ← readl .tbgen2Ctrl1
  let tdd2 ← readl .tbgen2Ctrl2
  let h := { h with tddCtrl1State := tdd1, tddCtrl2State := tdd2 }
  if tdd1 &&& calBit 8 = 0 then writel (tdd1 ||| calBit 8) .tbgen2Ctrl1 else pure ()
  if tdd2 &&& calBit 8 = 0 then writel (tdd2 ||| calBit 8) .tbgen2Ctrl2 else pure ()
  pure h

/-- In `hsdcs_do_initial_cal`: revision B enables the LDO of both ADCs. -/
def enableLdo (C : Config) : Program Unit :=
  if C.socRev = .revB then do
    let lowPwrCfg ← readl .lowPwrCfg
    writel ((lowPwrCfg ||| 1) ||| calBit 7) .lowPwrCfg
  else pure ()

/-- `hsdcs_do_initial_cal`; `mask` is `adc_rxi_rxq_mask`. -/
def hsdcsDoInitialCal (C : Config) (mask : Word32) : Program ℤ := do
  let val2 ← readl .dcsMailboxReg1
  let val2 := val2 ||| calBit 0
  writel val2 .dcsMailboxReg1
  let val ← pollReg .dcsMailboxReg0Resp (fun val => val &&& respAck ≠ 0) retries 0
  if val &&& respAck = 0 then pure (-ebusy) else do
    writel (val2 &&& ~~~calBit 0) .dcsMailboxReg1
    let val ← pollReg .dcsMailboxReg0Resp (fun val => val &&& respInitDone ≠ 0) retries val
    if val &&& respInitDone = 0 then pure (-ebusy) else do
      enableLdo C
      let val ← pollReg .dcsMailboxReg2Resp (fun val => val &&& 0xff = 0) retries val
      let calStatus ← pollReg .adcCalCompStat (fun calStatus => calStatus &&& 0xf ≠ 0) retries 0
      if val &&& 0xff ≠ 0 ∨ ¬ calStatus &&& 0xf = mask then pure (-ebusy) else pure 0

/-- The loop of `hsdcs_init_adc` over calibrations -/
def initialCals (C : Config) (mask : Word32) : ℕ → ℤ → Program ℤ
  | 0, ret => pure ret
  | left + 1, _ => do
    let ret ← hsdcsDoInitialCal C mask
    if ret = 0 then pure ret else initialCals C mask left ret

/-- A switch of `hsdcs_init_adc`: what is written to `adc_enable_ctrl` and what becomes of
`adc_rxi_rxq_mask`. The three differ in what they note for the second ADC and in what both
are. -/
def adcSwitch (two both : Word32) (hsadcMask : ℤ) : Option (Word32 × Word32) :=
  if hsadcMask = 1 then some (enable1, enable1)
  else if hsadcMask = 2 then some (enable2, two)
  else if hsadcMask = 3 then some (both, both)
  else none

/-- `hsdcs_init_adc` of revision A up to the calibration: both ADCs come with that of the
16G test stream. -/
def enableAdcA (C : Config) (h : Host) : Program (ℤ × Host) :=
  match adcSwitch enable2 adc16gEnMask C.hsadcMask with
  | none => pure (-ebusy, h)
  | some (ctrl, mask) => do
    writel ctrl .adcEnableCtrl
    writel 1 .adcDacRegCtrl
    writel 3 .calRef
    writel 0 .adcDacRegCtrl
    writel 0x17f .dcsMailboxReg0
    pure (0, { h with adcRxiRxqMask := mask })

/-- `hsdcs_init_adc` of the other revisions up to the calibration -/
def enableAdcB (C : Config) (h : Host) : Program (ℤ × Host) :=
  match adcSwitch enable2 enableBoth C.hsadcMask with
  | none => pure (-ebusy, h)
  | some (ctrl, mask) => do
    let h := { h with adcRxiRxqMask := mask }
    writel ctrl .adcEnableCtrl
    writel 0x1ff .dcsMailboxReg0
    let val ← readl .dcsMailboxReg1
    writel (val ||| calBit 16) .dcsMailboxReg1
    let h ← hsdcsWriteTempCompensation h
    match ← getCurrTemperature with
    | some _ => pure (0, h)
    | none => do
      match ← getCurrTemperature with
      | some _ => pure (0, h)
      | none => pure (-einval, h)

/-- `hsdcs_init_adc` after the calibration -/
def finishAdc (C : Config) (h : Host) : Program (ℤ × Host) :=
  match C.socRev with
  | .revB => do
    match ← getCurrTemperature with
    | none => pure (-einval, h)
    | some t => do
      let h ← enableLowPow
        { h with lastimeFullCalTemp := t, incRecalEnabled := true, fullRecalEnabled := true }
      pure (0, h)
  | .revA =>
    match adcSwitch enable1 enableBoth C.hsadcMask with
    | none => pure (-ebusy, h)
    | some (ctrl, mask) => do
      writel ctrl .adcEnableCtrl
      let _ ← readl .adcEnableCtrl
      pure (0, { h with adcRxiRxqMask := mask })
  | .other => pure (0, h)

/-- `hsdcs_init_adc` -/
def hsdcsInitAdc (C : Config) (h : Host) : Program (ℤ × Host) := do
  let (ret, h) ← if C.socRev = .revA then enableAdcA C h else enableAdcB C h
  if ret ≠ 0 then pure (ret, h) else do
    let ret ← initialCals C h.adcRxiRxqMask initialCalRetries 0
    if ret ≠ 0 then pure (ret, h) else finishAdc C h

/-! ### The DACs -/

/-- The switch of `hsdcs_init_dac` -/
def dacSwitch (hsdacMask : ℤ) : Option Word32 :=
  if hsdacMask = 0 then some 0
  else if hsdacMask = 1 then some enable1
  else if hsdacMask = 2 then some enable2
  else if hsdacMask = 3 then some enableBoth
  else none

/-- `hsdcs_init_dac`, which disables both of them for any other mask -/
def hsdcsInitDac (C : Config) (h : Host) : Program (ℤ × Host) := do
  let mask := (dacSwitch C.hsdacMask).getD 0
  writel mask .dacEnableCtrl
  pure (if (dacSwitch C.hsdacMask).isSome then 0 else -einval, { h with dacTxiTxqMask := mask })

/-- In `hsdcs_dac1_dac2_rst`: revision A resets the digital cores. -/
def resetDacs (C : Config) : Program Unit :=
  if C.socRev = .revA then do
    writel 6 .dac1RstCtrl
    writel 7 .dac1RstCtrl
    writel 6 .dac2RstCtrl
    writel 7 .dac2RstCtrl
  else pure ()

/-- `hsdcs_dac1_dac2_rst` -/
def hsdcsDac1Dac2Rst (C : Config) : Program ℤ := do
  writel 1 .adcDacRegCtrl
  let granted ← readl .adcDacRegGrStatus
  if granted = 0 then pure (-ebusy) else do
    resetDacs C
    writel 0 .adcDacRegCtrl
    let granted ← readl .adcDacRegGrStatus
    if granted ≠ 0 then pure (-ebusy) else pure 0

/-- `hsdcs_init_adc_dac` -/
def hsdcsInitAdcDac (C : Config) (h : Host) : Program (ℤ × Host) := do
  writel 0xeb .clkCtrl
  let (ret, h) ← hsdcsInitDac C h
  if ret ≠ 0 then pure (ret, h) else do
    let (ret, h) ← hsdcsInitAdc C h
    if ret ≠ 0 then pure (ret, h) else do
      let mask := h.dacTxiTxqMask
      let val ← readl .dacReadyStat
      let val ← pollReg .dacReadyStat (fun val => val &&& mask = mask) retries val
      if val &&& mask ≠ mask then pure (-ebusy, h) else do
        let ret ← hsdcsDac1Dac2Rst C
        pure (ret, h)

/-! ### The firmware -/

/-- `DCSCORE_FREEZE | DCSCORE_PROGRAM_MODE`, in which the core takes its program -/
def programMode : Word32 := calBit 1 ||| calBit 2

/-- `hsdcs_pre_init_fw` -/
def hsdcsPreInitFw : Program Unit := do
  writel (programMode ||| calBit 3) .dcsCtrl
  writel programMode .dcsCtrl
  writel 0 .dcsProgStrtAddr

/-- `hsdcs_release_core` -/
def hsdcsReleaseCore : Program Unit := do
  writel (calBit 1 ||| calBit 0) .dcsCtrl
  writel (calBit 1) .dcsCtrl
  writel 0 .dcsCtrl

/-- `hsdcs_check_clk_983` -/
def hsdcsCheckClk983 : Program Bool := do
  let pllVal ← readl .pllcr0
  pure (pllVal &&& calBit 14 ≠ 0 && pllVal &&& calBit 15 ≠ 0)

/-- The loop of `hsdcs_load_firmware`: so many words, from that one on -/
def writeWords (word : ℕ → Word32) : ℕ → ℕ → Program Unit
  | 0, _ => pure ()
  | left + 1, n => do
    writel (word n) .dcsProgWrtData
    writeWords word left (n + 1)

/-- The words of the image: `ALIGN` of its size, which may take in bytes after its end. -/
def Image.words (I : Image) : ℕ := (I.size + 3) / 4

/-- `hsdcs_load_firmware`; the delay counter of the calibration follows the clock. -/
def hsdcsLoadFirmware (I : Image) : Program Unit := do
  let is983 ← hsdcsCheckClk983
  writel (if is983 then 0x03d8 else 0x07ae) .dcsMailboxReg2
  hsdcsPreInitFw
  writeWords I.word I.words 0
  hsdcsReleaseCore

/-- `DCS_HS_MAGIC` -/
def dcsHsMagic : Word32 := 0xcafebabe

/-- A version that the comparison of `hsdcs_macro_init` with `HSDCS_MIN_REQUIRED_MAJOR`,
`HSDCS_MIN_REQUIRED_MINOR` and `HSDCS_MIN_REQURED_SUBVER` refuses -/
def tooOld (fwmaj fwmin fwsub : Word32) : Prop :=
  fwmaj < 2 ∨ (fwmaj = 2 ∧ fwmin < 18) ∨ (fwmaj = 2 ∧ fwmin = 18 ∧ fwsub < 1)

instance (fwmaj fwmin fwsub : Word32) : Decidable (tooOld fwmaj fwmin fwsub) := inferInstanceAs (Decidable (_ ∨ _))

/-- `hsdcs_macro_init` once the firmware is loaded -/
def startFirmware (C : Config) (h : Host) : Program (ℤ × Host) := do
  let val ← readl .fwVerInfo
  let val ← if val = 0 then pollReg .fwVerInfo (fun val => val ≠ 0) retries val else pure val
  if val = 0 ∧ C.socRev ≠ .revA then pure (-enoexec, h)
  else if C.socRev = .revB ∧ tooOld ((val >>> 16) &&& 0xff) ((val >>> 8) &&& 0xff) (val &&& 0xff) then
    pure (-enoexec, h)
  else do
    let (rc, h) ← hsdcsInitAdcDac C h
    if rc = 0 then pure (0, { h with dcsHsReady := true }) else pure (rc, h)

/-- `hsdcs_macro_init` of a modem whose registers are mapped; `image` is the firmware that
`hsdcs_write_firmware` gets. -/
def hsdcsMacroInit (C : Config) (image : Option Image) (h : Host) : Program (ℤ × Host) := do
  writel 0xeb .clkCtrl
  let h := if C.tbgen2Disable then h else { h with hsTbgen2Ready := true }
  if ¬ C.hsdcsEnable then pure (1, h)
  else if C.warmup then pure (1, h)
  else if ¬ C.hsdcsType then pure (1, h)
  else do
    let _ ← readl .ipVerInfo
    let _ ← readl .wrRwTestReg
    writel dcsHsMagic .wrRwTestReg
    let rw ← readl .wrRwTestReg
    if rw ≠ dcsHsMagic then pure (-enodev, h) else do
      writel 0 .fwVerInfo
      match image with
      | none => pure (-enomem, h)
      | some I => do
        hsdcsLoadFirmware I
        startFirmware C h

/-! ### What has been seen of a dialogue -/

/-- What was read from each register and written to it, and what the sensor gave, each from
the last on. -/
structure Seen where
  reads : Reg → List Word32
  writes : Reg → List Word32
  temps : List (Option ℤ)

namespace Seen

def start : Seen := ⟨fun _ => [], fun _ => [], []⟩

def read (s : Seen) (reg : Reg) (val : Word32) : Seen :=
  { s with reads := Function.update s.reads reg (val :: s.reads reg) }

/-- Many reads of a register, the last of them first. -/
def readMany (s : Seen) (reg : Reg) (vals : List Word32) : Seen :=
  { s with reads := Function.update s.reads reg (vals ++ s.reads reg) }

def write (s : Seen) (reg : Reg) (val : Word32) : Seen :=
  { s with writes := Function.update s.writes reg (val :: s.writes reg) }

/-- Many writes to a register, the last of them first. -/
def writeMany (s : Seen) (reg : Reg) (vals : List Word32) : Seen :=
  { s with writes := Function.update s.writes reg (vals ++ s.writes reg) }

def lastRead (s : Seen) (reg : Reg) : Option Word32 := (s.reads reg).head?

def lastWritten (s : Seen) (reg : Reg) : Option Word32 := (s.writes reg).head?

def note (s : Seen) : Query × Answer → Seen
  | (.readl reg, r) => s.read reg r.word
  | (.writel val reg, _) => s.write reg val
  | (.mtdGetTempNowait, r) => { s with temps := r.temp :: s.temps }

/-- The registers behind the internal bus are written while it is requested, and the program
of the core while it takes it. -/
def Allows (s : Seen) : Query → Prop
  | .writel _ .calRef => s.lastWritten .adcDacRegCtrl = some 1
  | .writel _ .dac1RstCtrl => s.lastWritten .adcDacRegCtrl = some 1
  | .writel _ .dac2RstCtrl => s.lastWritten .adcDacRegCtrl = some 1
  | .writel _ .dcsProgWrtData => s.lastWritten .dcsCtrl = some programMode
  | _ => True

/-- Nothing but these registers and the sensor has been used in between. -/
structure Only (rs : List Reg) (s s' : Seen) : Prop where
  reads : ∀ reg ∉ rs, s'.reads reg = s.reads reg
  writes : ∀ reg ∉ rs, s'.writes reg = s.writes reg
  temps : s.temps <:+ s'.temps

theorem Only.refl (rs : List Reg) (s : Seen) : Only rs s s := ⟨fun _ _ => rfl, fun _ _ => rfl, List.suffix_rfl⟩

theorem Only.mono {rs rs' : List Reg} {s s' : Seen} (h : Only rs s s') (hrs : rs ⊆ rs') : Only rs' s s' where
  reads reg hreg := h.reads reg fun hmem => hreg (hrs hmem)
  writes reg hreg := h.writes reg fun hmem => hreg (hrs hmem)
  temps := h.temps

theorem Only.trans {rs : List Reg} {s₁ s₂ s₃ : Seen} (h : Only rs s₁ s₂) (h' : Only rs s₂ s₃) :
    Only rs s₁ s₃ where
  reads reg hreg := (h'.reads reg hreg).trans (h.reads reg hreg)
  writes reg hreg := (h'.writes reg hreg).trans (h.writes reg hreg)
  temps := h.temps.trans h'.temps

end Seen

def watch : Watch Seen Query Answer := ⟨Seen.note, Seen.Allows⟩

section Rules

variable {α : Type} {P : Seen → α → Prop} {s s' : Seen} {reg reg' : Reg} {val : Word32}

@[simp] theorem reads_read : (s.read reg val).reads = Function.update s.reads reg (val :: s.reads reg) := rfl

@[simp] theorem writes_read : (s.read reg val).writes = s.writes := rfl

@[simp] theorem reads_readMany (vals : List Word32) :
    (s.readMany reg vals).reads = Function.update s.reads reg (vals ++ s.reads reg) := rfl

@[simp] theorem writes_readMany (vals : List Word32) : (s.readMany reg vals).writes = s.writes := rfl

@[simp] theorem temps_readMany (vals : List Word32) : (s.readMany reg vals).temps = s.temps := rfl

@[simp] theorem reads_write : (s.write reg val).reads = s.reads := rfl

@[simp] theorem writes_write : (s.write reg val).writes = Function.update s.writes reg (val :: s.writes reg) := rfl

@[simp] theorem writes_writeMany (vals : List Word32) :
    (s.writeMany reg vals).writes = Function.update s.writes reg (vals ++ s.writes reg) := rfl

@[simp] theorem temps_read : (s.read reg val).temps = s.temps := rfl

@[simp] theorem temps_write : (s.write reg val).temps = s.temps := rfl

theorem keeps_readl {f : Word32 → Program α} (h : ∀ val, Keeps watch P (f val) (s.read reg val)) :
    Keeps watch P (readl reg >>= f) s :=
  keeps_query_bind (f := fun r => f r.word) trivial fun r => h r.word

theorem keeps_writel {f : Unit → Program α} (ha : s.Allows (.writel val reg))
    (h : Keeps watch P (f ()) (s.write reg val)) : Keeps watch P (writel val reg >>= f) s :=
  keeps_query_bind (f := fun _ => f ()) ha fun _ => h

theorem keeps_temperature {f : Option ℤ → Program α}
    (h : ∀ t, Keeps watch P (f (hsdcsGetCurrTemperature t)) { s with temps := t :: s.temps }) :
    Keeps watch P (getCurrTemperature >>= f) s :=
  keeps_query_bind (f := fun r => f (hsdcsGetCurrTemperature r.temp)) trivial fun r => h r.temp

/-- A poll leaves what it did not wait for, and on top of it the value it ends with. -/
theorem keeps_pollReg {found : Word32 → Bool} : ∀ (left : ℕ) (val : Word32) (s : Seen),
    Keeps watch (fun s' val => ∃ zs, (∀ z ∈ zs, found z = false) ∧ s' = s.readMany reg (val :: zs))
      (pollReg reg found (left + 1) val) s := by
  intro left
  induction left with
  | zero =>
    intro val s
    refine keeps_readl fun val => ?_
    split_ifs
    · exact ⟨[], by simp, rfl⟩
    · exact ⟨[], by simp, rfl⟩
  | succ left ih =>
    intro val s
    refine keeps_readl fun val => ?_
    split_ifs with hfound
    · exact ⟨[], by simp, rfl⟩
    · refine (ih val (s.read reg val)).mono ?_
      rintro s' val' ⟨zs, hzs, rfl⟩
      refine ⟨zs ++ [val], ?_, ?_⟩
      · intro z hz
        rcases List.mem_append.mp hz with hz | hz
        · exact hzs z hz
        · rw [List.mem_singleton.mp hz]
          exact Bool.eq_false_of_not_eq_true hfound
      · simp [Seen.read, Seen.readMany]

end Rules

/-! ### Which registers are used -/

/-- The query is to one of these registers, or to the sensor. -/
def Uses (rs : List Reg) : Query → Prop
  | .readl reg => reg ∈ rs
  | .writel _ reg => reg ∈ rs
  | .mtdGetTempNowait => True

section Uses

variable {α : Type} {P : Seen → α → Prop} {rs : List Reg} {m : Program α} {s : Seen} {reg : Reg} {val : Word32}

theorem Uses.mono {rs' : List Reg} (h : rs ⊆ rs') : ∀ q, Uses rs q → Uses rs' q
  | .readl _, hq => h hq
  | .writel _ _, hq => h hq
  | .mtdGetTempNowait, _ => trivial

theorem asks_readl {f : Word32 → Program α} (hreg : reg ∈ rs) (hf : ∀ val, Asks (Uses rs) (f val)) :
    Asks (Uses rs) (readl reg >>= f) :=
  ⟨hreg, fun r => hf r.word⟩

theorem asks_writel {f : Unit → Program α} (hreg : reg ∈ rs) (hf : Asks (Uses rs) (f ())) :
    Asks (Uses rs) (writel val reg >>= f) :=
  ⟨hreg, fun _ => hf⟩

theorem asks_temperature {f : Option ℤ → Program α} (hf : ∀ t, Asks (Uses rs) (f t)) :
    Asks (Uses rs) (getCurrTemperature >>= f) :=
  ⟨trivial, fun _ => hf _⟩

theorem asks_pollReg {found : Word32 → Bool} (hreg : reg ∈ rs) :
    ∀ (left : ℕ) (val : Word32), Asks (Uses rs) (pollReg reg found left val)
  | 0, _ => trivial
  | left + 1, _ => asks_readl hreg fun val => by
    split_ifs
    · exact trivial
    · exact asks_pollReg hreg left val

/-- What a program does not use it leaves. -/
theorem keeps_only (hm : Keeps watch P m s) (h : Asks (Uses rs) m) :
    Keeps watch (fun s' a => P s' a ∧ Seen.Only rs s s') m s := by
  refine hm.preserves (Seen.Only.refl rs) Seen.Only.trans (fun s q r hq => ?_) h
  cases q with
  | readl reg' =>
    refine ⟨fun reg hreg => ?_, fun _ _ => rfl, List.suffix_rfl⟩
    have hne : reg ≠ reg' := fun h => hreg (h ▸ hq)
    simp [watch, Seen.note, hne]
  | writel val reg' =>
    refine ⟨fun _ _ => rfl, fun reg hreg => ?_, List.suffix_rfl⟩
    have hne : reg ≠ reg' := fun h => hreg (h ▸ hq)
    simp [watch, Seen.note, hne]
  | mtdGetTempNowait => exact ⟨fun _ _ => rfl, fun _ _ => rfl, List.suffix_cons _ _⟩

end Uses

/-! ### The calibration succeeds -/

/-- What a calibration of the ADCs `m` leaves when it succeeds: it was done and its request
withdrawn, and the last status has just these ADCs. -/
structure Calibrated (m : Word32) (s : Seen) : Prop where
  initDone : ∃ val, s.lastRead .dcsMailboxReg0Resp = some val ∧ val &&& respInitDone ≠ 0
  withdrawn : ∃ val, s.lastWritten .dcsMailboxReg1 = some val ∧ val &&& calBit 0 = 0
  idle : ∃ val, s.lastRead .dcsMailboxReg2Resp = some val ∧ val &&& 0xff = 0
  complete : ∃ val, s.lastRead .adcCalCompStat = some val ∧ val &&& 0xf = m

/-- The registers of a calibration -/
def calRegs : List Reg :=
  [.dcsMailboxReg1, .dcsMailboxReg0Resp, .dcsMailboxReg2Resp, .adcCalCompStat, .lowPwrCfg]

section Cal

variable {C : Config} {mask : Word32} {s : Seen}

theorem asks_hsdcsDoInitialCal : Asks (Uses calRegs) (hsdcsDoInitialCal C mask) := by
  refine asks_readl (by decide) fun _ => asks_writel (by decide) (asks_bind (asks_pollReg (by decide) _ _) fun _ => ?_)
  split_ifs
  · exact trivial
  · refine asks_writel (by decide) (asks_bind (asks_pollReg (by decide) _ _) fun _ => ?_)
    split_ifs
    · exact trivial
    · refine asks_bind ?_ fun _ => asks_bind (asks_pollReg (by decide) _ _) fun _ =>
        asks_bind (asks_pollReg (by decide) _ _) fun _ => ?_
      · unfold enableLdo
        split_ifs
        · exact asks_readl (by decide) fun _ => asks_writel (by decide) trivial
        · exact trivial
      · split_ifs
        · exact trivial
        · exact trivial

theorem keeps_enableLdo : Keeps watch (fun s' _ => Seen.Only [.lowPwrCfg] s s') (enableLdo C) s := by
  have hasks : Asks (Uses [.lowPwrCfg]) (enableLdo C) := by
    unfold enableLdo
    split_ifs
    · exact asks_readl (by decide) fun _ => asks_writel (by decide) trivial
    · exact trivial
  have hkeeps : Keeps watch (fun _ _ => True) (enableLdo C) s := by
    unfold enableLdo
    split_ifs
    · exact keeps_readl fun _ => keeps_writel trivial trivial
    · exact trivial
  exact (keeps_only hkeeps hasks).mono fun _ _ h => h.2

/-- One calibration. It looks at the status until it shows an ADC at all, so that it fails
unless the first status with one has them all. -/
theorem keeps_hsdcsDoInitialCal : Keeps watch (fun s' ret => ret = 0 → Calibrated mask s' ∧
    ∃ val zs, s'.reads .adcCalCompStat = val :: zs ++ s.reads .adcCalCompStat ∧ val &&& 0xf = mask ∧
      ∀ z ∈ zs, z &&& 0xf = 0) (hsdcsDoInitialCal C mask) s := by
  refine keeps_readl fun val2 => keeps_writel trivial (keeps_bind (keeps_pollReg 19 0 _) ?_)
  rintro _ ack ⟨zs₁, -, rfl⟩
  split_ifs with hack
  · exact fun h => absurd h (by decide)
  refine keeps_writel trivial (keeps_bind (keeps_pollReg 19 ack _) ?_)
  rintro _ done ⟨zs₂, -, rfl⟩
  split_ifs with hdone
  · exact fun h => absurd h (by decide)
  refine keeps_bind keeps_enableLdo ?_
  intro s₁ _ hldo
  refine keeps_bind (keeps_pollReg 19 done _) ?_
  rintro _ busy ⟨zs₃, -, rfl⟩
  refine keeps_bind (keeps_pollReg 19 0 _) ?_
  rintro _ calStatus ⟨zs₄, hzs₄, rfl⟩
  split_ifs with hfailed
  · exact fun h => absurd h (by decide)
  · intro _
    obtain ⟨hbusy, hstatus⟩ := not_or.mp hfailed
    have hresp := hldo.reads .dcsMailboxReg0Resp (by decide)
    have hreg1 := hldo.writes .dcsMailboxReg1 (by decide)
    have hcal := hldo.reads .adcCalCompStat (by decide)
    refine ⟨⟨⟨done, ?_, hdone⟩, ⟨(val2 ||| calBit 0) &&& ~~~calBit 0, ?_, ?_⟩, ⟨busy, ?_, not_not.mp hbusy⟩,
      ⟨calStatus, ?_, not_not.mp hstatus⟩⟩,
      calStatus, zs₄, ?_, not_not.mp hstatus, ?_⟩
    · simp [Seen.lastRead, hresp]
    · simp [Seen.lastWritten, hreg1]
    · simp [BitVec.and_assoc]
    · simp [Seen.lastRead]
    · simp [Seen.lastRead]
    · simp [hcal]
    · simpa using hzs₄

theorem asks_initialCals : ∀ (left : ℕ) (ret : ℤ), Asks (Uses calRegs) (initialCals C mask left ret)
  | 0, _ => trivial
  | left + 1, _ => asks_bind asks_hsdcsDoInitialCal fun ret => by
    split_ifs
    · exact trivial
    · exact asks_initialCals left ret

theorem keeps_initialCals : ∀ (left : ℕ) (ret : ℤ) (s : Seen),
    Keeps watch (fun s' ret => ret = 0 → Calibrated mask s') (initialCals C mask (left + 1) ret) s := by
  intro left
  induction left with
  | zero =>
    intro ret s
    refine keeps_bind keeps_hsdcsDoInitialCal fun s' ret hcal => ?_
    split_ifs
    · exact fun h => (hcal h).1
    · exact fun h => (hcal h).1
  | succ left ih =>
    intro ret s
    refine keeps_bind keeps_hsdcsDoInitialCal fun s' ret hcal => ?_
    split_ifs
    · exact fun h => (hcal h).1
    · exact ih ret s'

/-- No status has the ADC of the test stream. -/
theorem Calibrated.ne_16g (h : Calibrated mask s) : mask ≠ adc16gEnMask := by
  rintro rfl
  obtain ⟨val, -, hval⟩ := h.complete
  have hbit : (val &&& 0xf).getLsbD 4 = adc16gEnMask.getLsbD 4 := by rw [hval]
  simp [adc16gEnMask] at hbit

end Cal

/-! ### The ADCs come up -/

/-- The ADCs that the mask of the module enables: both of their channels. -/
def adcsOf (hsadcMask : ℤ) : Option Word32 := (adcSwitch enable2 enableBoth hsadcMask).map Prod.fst

/-- The bus has been given back, and no grant has been looked at. -/
def BusFree (s : Seen) : Prop := s.lastWritten .adcDacRegCtrl ≠ some 1 ∧ s.reads .adcDacRegGrStatus = []

theorem BusFree.only {rs : List Reg} {s s' : Seen} (h : BusFree s) (hs : Seen.Only rs s s')
    (hctrl : Reg.adcDacRegCtrl ∉ rs) (hgr : Reg.adcDacRegGrStatus ∉ rs) : BusFree s' := by
  refine ⟨?_, (hs.reads _ hgr).trans h.2⟩
  rw [Seen.lastWritten, hs.writes _ hctrl]
  exact h.1

/-- What the steps up to the DACs leave alone in the host. -/
structure Host.Kept (h h' : Host) : Prop where
  dacTxiTxqMask : h'.dacTxiTxqMask = h.dacTxiTxqMask
  dcsHsReady : h'.dcsHsReady = h.dcsHsReady

section Adc

variable {C : Config} {h : Host} {s : Seen}

/-- The switches before the calibration note what is enabled. -/
theorem adcSwitch_same {both ctrl mask : Word32} {hsadcMask : ℤ}
    (hsw : adcSwitch enable2 both hsadcMask = some (ctrl, mask)) : ctrl = mask := by
  unfold adcSwitch at hsw
  split_ifs at hsw <;> simp only [Option.some.injEq, Prod.mk.injEq] at hsw <;> exact hsw.1.symm.trans hsw.2

/-- Revision A: what is enabled is what is noted. -/
theorem keeps_enableAdcA (hbus : BusFree s) : Keeps watch (fun s' p => BusFree s' ∧ h.Kept p.2 ∧
    (p.1 = 0 → ∃ m, adcSwitch enable2 adc16gEnMask C.hsadcMask = some (m, m) ∧ p.2.adcRxiRxqMask = m))
    (enableAdcA C h) s := by
  unfold enableAdcA
  cases hsw : adcSwitch enable2 adc16gEnMask C.hsadcMask with
  | none => exact ⟨hbus, ⟨rfl, rfl⟩, fun h => absurd (show -ebusy = 0 from h) (by decide)⟩
  | some p =>
    obtain ⟨ctrl, mask⟩ := p
    obtain rfl := adcSwitch_same hsw
    refine keeps_writel trivial (keeps_writel trivial (keeps_writel ?_ (keeps_writel trivial (keeps_writel trivial ?_))))
    · simp [Seen.Allows, Seen.lastWritten]
    · refine ⟨⟨?_, ?_⟩, ⟨rfl, rfl⟩, fun _ => ⟨ctrl, rfl, rfl⟩⟩
      · simp [Seen.lastWritten]
      · simpa using hbus.2

/-- The registers of `hsdcs_init_adc` before the calibration, where not of revision A -/
def compRegs : List Reg := [.adcEnableCtrl, .dcsMailboxReg0, .dcsMailboxReg1, .dcsMailboxReg2]

/-- The temperature that is read first since `s` is written for the compensation, if it can be
used. -/
def Compensated (s s' : Seen) : Prop :=
  ∃ t, t :: s.temps <:+ s'.temps ∧
    match hsdcsGetCurrTemperature t with
    | none => s'.writes .dcsMailboxReg2 = s.writes .dcsMailboxReg2
    | some T => ∃ val, s'.writes .dcsMailboxReg2 = tempComp val T :: s.writes .dcsMailboxReg2

theorem keeps_hsdcsWriteTempCompensation : Keeps watch (fun s' h' => h.Kept h' ∧ h'.adcRxiRxqMask = h.adcRxiRxqMask ∧
    s'.writes .adcEnableCtrl = s.writes .adcEnableCtrl ∧ Compensated s s') (hsdcsWriteTempCompensation h) s := by
  refine keeps_readl fun val => keeps_temperature fun t => ?_
  cases ht : hsdcsGetCurrTemperature t with
  | none => exact ⟨⟨rfl, rfl⟩, rfl, rfl, t, List.suffix_rfl, by simp [ht]⟩
  | some T =>
    refine keeps_writel trivial ⟨⟨rfl, rfl⟩, rfl, by simp, t, List.suffix_rfl, ?_⟩
    rw [ht]
    exact ⟨val, by simp⟩

theorem Compensated.later {s₁ : Seen} {temps : List (Option ℤ)} (h : Compensated s s₁) (ht : s₁.temps <:+ temps) :
    Compensated s { s₁ with temps := temps } := by
  obtain ⟨t, hsuffix, hwrites⟩ := h
  exact ⟨t, hsuffix.trans ht, hwrites⟩

theorem asks_enableAdcB : Asks (Uses compRegs) (enableAdcB C h) := by
  unfold enableAdcB
  cases adcSwitch enable2 enableBoth C.hsadcMask with
  | none => exact trivial
  | some p =>
    refine asks_writel (by decide) (asks_writel (by decide) (asks_readl (by decide) fun _ => asks_writel (by decide)
      (asks_bind (asks_readl (by decide) fun _ => asks_temperature fun t => ?_) fun _ => asks_temperature fun t => ?_)))
    · cases t with
      | none => exact trivial
      | some T => exact asks_writel (by decide) trivial
    · cases t with
      | some T => exact trivial
      | none =>
        refine asks_temperature fun t => ?_
        cases t with
        | some T => exact trivial
        | none => exact trivial

/-- The other revisions: the ADCs of the mask are enabled and noted. -/
theorem keeps_enableAdcB : Keeps watch (fun s' p => (h.Kept p.2 ∧
    (p.1 = 0 → ∃ m, adcSwitch enable2 enableBoth C.hsadcMask = some (m, m) ∧ p.2.adcRxiRxqMask = m ∧
      s'.lastWritten .adcEnableCtrl = some m ∧ Compensated s s')) ∧ Seen.Only compRegs s s')
    (enableAdcB C h) s := by
  refine keeps_only ?_ asks_enableAdcB
  unfold enableAdcB
  cases hsw : adcSwitch enable2 enableBoth C.hsadcMask with
  | none => exact ⟨⟨rfl, rfl⟩, fun h => absurd (show -ebusy = 0 from h) (by decide)⟩
  | some p =>
    obtain ⟨ctrl, mask⟩ := p
    obtain rfl := adcSwitch_same hsw
    refine keeps_writel trivial (keeps_writel trivial (keeps_readl fun val => keeps_writel trivial
      (keeps_bind keeps_hsdcsWriteTempCompensation ?_)))
    rintro s₁ h₁ ⟨hkept, hmask, henable, t, htemps, hcomp⟩
    have hcomp : Compensated s s₁ := ⟨t, by simpa using htemps, by simpa using hcomp⟩
    have hlast : s₁.lastWritten .adcEnableCtrl = some ctrl := by
      rw [Seen.lastWritten, henable]
      simp
    refine keeps_temperature fun t₂ => ?_
    cases hsdcsGetCurrTemperature t₂ with
    | some T =>
      exact ⟨⟨hkept.1, hkept.2⟩, fun _ => ⟨ctrl, rfl, hmask, hlast, hcomp.later (List.suffix_cons _ _)⟩⟩
    | none =>
      refine keeps_temperature fun t₃ => ?_
      cases hsdcsGetCurrTemperature t₃ with
      | some T =>
        exact ⟨⟨hkept.1, hkept.2⟩, fun _ => ⟨ctrl, rfl, hmask, hlast, hcomp.later ⟨[t₃, t₂], rfl⟩⟩⟩
      | none => exact ⟨⟨hkept.1, hkept.2⟩, fun h => absurd (show -einval = 0 from h) (by decide)⟩

/-- The registers of `hsdcs_init_adc` after the calibration -/
def finishRegs : List Reg := [.adcEnableCtrl, .tbgen2Ctrl1, .tbgen2Ctrl2]

theorem asks_enableLowPow : Asks (Uses finishRegs) (enableLowPow h) := by
  refine asks_readl (by decide) fun tdd1 => asks_readl (by decide) fun tdd2 => ?_
  split_ifs
  · exact asks_writel (by decide) (asks_writel (by decide) trivial)
  · exact asks_writel (by decide) trivial
  · exact asks_writel (by decide) trivial
  · exact trivial

theorem asks_finishAdc : Asks (Uses finishRegs) (finishAdc C h) := by
  unfold finishAdc
  split
  · refine asks_temperature fun t => ?_
    cases t with
    | none => exact trivial
    | some T => exact asks_bind asks_enableLowPow fun _ => trivial
  · cases adcSwitch enable1 enableBoth C.hsadcMask with
    | none => exact trivial
    | some p => exact asks_writel (by decide) (asks_readl (by decide) fun _ => trivial)
  · exact trivial

theorem keeps_enableLowPow : Keeps watch (fun s' h' => h.Kept h' ∧ h'.adcRxiRxqMask = h.adcRxiRxqMask ∧
    h'.lastimeFullCalTemp = h.lastimeFullCalTemp ∧ h'.incRecalEnabled = h.incRecalEnabled ∧
    h'.fullRecalEnabled = h.fullRecalEnabled ∧ s'.temps = s.temps ∧
    s'.writes .adcEnableCtrl = s.writes .adcEnableCtrl) (enableLowPow h) s := by
  refine keeps_readl fun tdd1 => keeps_readl fun tdd2 => ?_
  split_ifs
  · exact keeps_writel trivial (keeps_writel trivial ⟨⟨rfl, rfl⟩, rfl, rfl, rfl, rfl, rfl, by simp⟩)
  · exact keeps_writel trivial ⟨⟨rfl, rfl⟩, rfl, rfl, rfl, rfl, rfl, by simp⟩
  · exact keeps_writel trivial ⟨⟨rfl, rfl⟩, rfl, rfl, rfl, rfl, rfl, by simp⟩
  · exact ⟨⟨rfl, rfl⟩, rfl, rfl, rfl, rfl, rfl, by simp⟩

/-- The temperature of the calibration is recorded for the monitor, which may now recalibrate. -/
def Recorded (h' : Host) (s' : Seen) : Prop :=
  ∃ t, s'.temps.head? = some t ∧ hsdcsGetCurrTemperature t = some h'.lastimeFullCalTemp ∧
    h'.incRecalEnabled = true ∧ h'.fullRecalEnabled = true

/-- After the calibration, revision A enables and notes again, and revision B records the
temperature. -/
theorem keeps_finishAdc : Keeps watch (fun s' p => (h.Kept p.2 ∧
    (p.1 = 0 →
      (C.socRev = .revA → ∃ ctrl mask, adcSwitch enable1 enableBoth C.hsadcMask = some (ctrl, mask) ∧
        s'.lastWritten .adcEnableCtrl = some ctrl ∧ p.2.adcRxiRxqMask = mask) ∧
      (C.socRev ≠ .revA → s'.writes .adcEnableCtrl = s.writes .adcEnableCtrl ∧
        p.2.adcRxiRxqMask = h.adcRxiRxqMask) ∧
      (C.socRev = .revB → Recorded p.2 s'))) ∧ Seen.Only finishRegs s s') (finishAdc C h) s := by
  refine keeps_only ?_ asks_finishAdc
  unfold finishAdc
  split
  · rename_i hrev
    refine keeps_temperature fun t => ?_
    cases ht : hsdcsGetCurrTemperature t with
    | none => exact ⟨⟨rfl, rfl⟩, fun h => absurd (show -einval = 0 from h) (by decide)⟩
    | some T =>
      refine keeps_bind keeps_enableLowPow ?_
      rintro s₁ h₁ ⟨hkept, hmask, hlast, hinc, hfull, htemps, hwrites⟩
      refine ⟨⟨hkept.1, hkept.2⟩, fun _ => ⟨fun hA => ?_, fun _ => ⟨hwrites, hmask⟩, fun _ => ?_⟩⟩
      · rw [hrev] at hA
        cases hA
      · exact ⟨t, by simp [htemps], by rw [ht, hlast], hinc, hfull⟩
  · rename_i hrev
    cases hsw : adcSwitch enable1 enableBoth C.hsadcMask with
    | none => exact ⟨⟨rfl, rfl⟩, fun h => absurd (show -ebusy = 0 from h) (by decide)⟩
    | some p =>
      obtain ⟨ctrl, mask⟩ := p
      refine keeps_writel trivial (keeps_readl fun _ => ⟨⟨rfl, rfl⟩, fun _ => ⟨fun _ => ?_, fun hA => ?_, ?_⟩⟩)
      · exact ⟨ctrl, mask, rfl, by simp [Seen.lastWritten], rfl⟩
      · exact absurd hrev hA
      · intro hB
        rw [hrev] at hB
        cases hB
  · rename_i hrev
    refine ⟨⟨rfl, rfl⟩, fun _ => ⟨fun hA => ?_, fun _ => ⟨rfl, rfl⟩, fun hB => ?_⟩⟩
    · rw [hrev] at hA
      cases hA
    · rw [hrev] at hB
      cases hB

/-- What it takes for the ADCs `m` to be up, of what was seen since `s`. -/
structure AdcUp (C : Config) (m : Word32) (s s' : Seen) (h' : Host) : Prop where
  enabled : adcsOf C.hsadcMask = some m
  /-- Revision A cannot have both. -/
  servable : ¬ (C.socRev = .revA ∧ C.hsadcMask = 3)
  calibrated : Calibrated m s'
  written : s'.lastWritten .adcEnableCtrl = some m
  /-- The mask of the recalibrations is the one of the ADCs, but for one slip. -/
  noted : h'.adcRxiRxqMask = m ↔ ¬ (C.socRev = .revA ∧ C.hsadcMask = 2)
  recorded : C.socRev = .revB → Recorded h' s'
  compensated : C.socRev ≠ .revA → Compensated s s'

theorem Calibrated.only {m : Word32} {rs : List Reg} {s s' : Seen} (h : Calibrated m s) (hs : Seen.Only rs s s')
    (hrs : ∀ reg ∈ calRegs, reg ∉ rs) : Calibrated m s' := by
  obtain ⟨hdone, hwithdrawn, hidle, hcomplete⟩ := h
  constructor
  · simpa only [Seen.lastRead, hs.reads _ (hrs .dcsMailboxReg0Resp (by decide))] using hdone
  · simpa only [Seen.lastWritten, hs.writes _ (hrs .dcsMailboxReg1 (by decide))] using hwithdrawn
  · simpa only [Seen.lastRead, hs.reads _ (hrs .dcsMailboxReg2Resp (by decide))] using hidle
  · simpa only [Seen.lastRead, hs.reads _ (hrs .adcCalCompStat (by decide))] using hcomplete

/-- What revision A notes before the calibration, it notes after it but for the second ADC. -/
theorem adcUp_of_revA {m mask ctrl : Word32} {s s' : Seen} {h' : Host} (hA : C.socRev = .revA)
    (hsw : adcSwitch enable2 adc16gEnMask C.hsadcMask = some (m, m))
    (hsw' : adcSwitch enable1 enableBoth C.hsadcMask = some (ctrl, mask)) (hcal : Calibrated m s')
    (hctrl : s'.lastWritten .adcEnableCtrl = some ctrl) (hmask : h'.adcRxiRxqMask = mask) : AdcUp C m s s' h' := by
  have hne := hcal.ne_16g
  have hrevB : ¬ C.socRev = .revB := by rw [hA]; decide
  unfold adcSwitch at hsw hsw'
  split_ifs at hsw hsw' with h1 h2 h3
  · obtain ⟨rfl, -⟩ := Prod.mk.inj (Option.some.inj hsw)
    obtain ⟨rfl, rfl⟩ := Prod.mk.inj (Option.some.inj hsw')
    refine ⟨by simp [adcsOf, adcSwitch, h1], by omega, hcal, hctrl, ?_, fun h => absurd h hrevB, fun h => absurd hA h⟩
    exact iff_of_true hmask (by omega)
  · obtain ⟨rfl, -⟩ := Prod.mk.inj (Option.some.inj hsw)
    obtain ⟨rfl, rfl⟩ := Prod.mk.inj (Option.some.inj hsw')
    refine ⟨by simp [adcsOf, adcSwitch, h2], by omega, hcal, hctrl, ?_, fun h => absurd h hrevB, fun h => absurd hA h⟩
    refine iff_of_false ?_ (fun h => h ⟨hA, h2⟩)
    rw [hmask]
    decide
  · obtain ⟨rfl, -⟩ := Prod.mk.inj (Option.some.inj hsw)
    exact absurd rfl hne

/-- The registers of `hsdcs_init_adc` -/
def adcRegs : List Reg := [.adcDacRegCtrl, .calRef] ++ calRegs ++ compRegs ++ finishRegs

theorem asks_enableAdcA : Asks (Uses adcRegs) (enableAdcA C h) := by
  unfold enableAdcA
  cases adcSwitch enable2 adc16gEnMask C.hsadcMask with
  | none => exact trivial
  | some p =>
    exact asks_writel (by decide) (asks_writel (by decide) (asks_writel (by decide)
      (asks_writel (by decide) (asks_writel (by decide) trivial))))

theorem asks_hsdcsInitAdc : Asks (Uses adcRegs) (hsdcsInitAdc C h) := by
  have hrest : ∀ p : ℤ × Host, Asks (Uses adcRegs) (if p.1 ≠ 0 then pure (p.1, p.2) else do
      let ret ← initialCals C p.2.adcRxiRxqMask initialCalRetries 0
      if ret ≠ 0 then pure (ret, p.2) else finishAdc C p.2) := by
    intro p
    split_ifs
    · exact trivial
    · refine asks_bind ((asks_initialCals _ _).mono (Uses.mono (by decide))) fun ret => ?_
      split_ifs
      · exact trivial
      · exact asks_finishAdc.mono (Uses.mono (by decide))
  unfold hsdcsInitAdc
  split_ifs
  · exact asks_bind asks_enableAdcA hrest
  · exact asks_bind (asks_enableAdcB.mono (Uses.mono (by decide))) hrest

theorem Compensated.only {rs : List Reg} {s₁ s₂ : Seen} (h : Compensated s s₁) (hs : Seen.Only rs s₁ s₂)
    (hrs : Reg.dcsMailboxReg2 ∉ rs) : Compensated s s₂ := by
  obtain ⟨t, ht, hwrites⟩ := h
  exact ⟨t, ht.trans hs.temps, by rwa [hs.writes _ hrs]⟩

/-- The ADCs: when `hsdcs_init_adc` returns 0 they are up, and it always gives the bus back. -/
theorem keeps_hsdcsInitAdc (hbus : BusFree s) : Keeps watch (fun s' p => BusFree s' ∧ h.Kept p.2 ∧
    (p.1 = 0 → ∃ m, AdcUp C m s s' p.2)) (hsdcsInitAdc C h) s := by
  unfold hsdcsInitAdc
  by_cases hA : C.socRev = .revA
  · rw [if_pos hA]
    refine keeps_bind (keeps_enableAdcA hbus) ?_
    rintro s₁ ⟨ret, h₁⟩ ⟨hbus₁, hkept₁, hup⟩
    dsimp only at hkept₁ hup ⊢
    split_ifs with hret
    · exact ⟨hbus₁, hkept₁, fun h => absurd h hret⟩
    obtain ⟨m, hsw, rfl⟩ := hup (not_not.mp hret)
    refine keeps_bind (keeps_only (keeps_initialCals 4 0 s₁) (asks_initialCals 5 0)) ?_
    rintro s₂ ret₂ ⟨hcal, honly₂⟩
    have hbus₂ := hbus₁.only honly₂ (by decide) (by decide)
    split_ifs with hret₂
    · exact ⟨hbus₂, hkept₁, fun h => absurd h hret₂⟩
    refine keeps_finishAdc.mono ?_
    rintro s₃ ⟨ret₃, h₃⟩ ⟨⟨hkept₃, hfin⟩, honly₃⟩
    refine ⟨hbus₂.only honly₃ (by decide) (by decide), ⟨hkept₃.1.trans hkept₁.1, hkept₃.2.trans hkept₁.2⟩,
      fun hret₃ => ?_⟩
    obtain ⟨ctrl, mask, hsw', hctrl, hmask⟩ := (hfin hret₃).1 hA
    have hcal₃ := (hcal (not_not.mp hret₂)).only honly₃ (by decide)
    exact ⟨_, adcUp_of_revA hA hsw hsw' hcal₃ hctrl hmask⟩
  · rw [if_neg hA]
    refine keeps_bind keeps_enableAdcB ?_
    rintro s₁ ⟨ret, h₁⟩ ⟨⟨hkept₁, hup⟩, honly₁⟩
    have hbus₁ := hbus.only honly₁ (by decide) (by decide)
    dsimp only at hkept₁ hup ⊢
    split_ifs with hret
    · exact ⟨hbus₁, hkept₁, fun h => absurd h hret⟩
    obtain ⟨m, hsw, rfl, hwritten, hcomp⟩ := hup (not_not.mp hret)
    refine keeps_bind (keeps_only (keeps_initialCals 4 0 s₁) (asks_initialCals 5 0)) ?_
    rintro s₂ ret₂ ⟨hcal, honly₂⟩
    have hbus₂ := hbus₁.only honly₂ (by decide) (by decide)
    split_ifs with hret₂
    · exact ⟨hbus₂, hkept₁, fun h => absurd h hret₂⟩
    refine keeps_finishAdc.mono ?_
    rintro s₃ ⟨ret₃, h₃⟩ ⟨⟨hkept₃, hfin⟩, honly₃⟩
    refine ⟨hbus₂.only honly₃ (by decide) (by decide), ⟨hkept₃.1.trans hkept₁.1, hkept₃.2.trans hkept₁.2⟩,
      fun hret₃ => ?_⟩
    obtain ⟨-, hsame, hrec⟩ := hfin hret₃
    obtain ⟨hsame₁, hsame₂⟩ := hsame hA
    refine ⟨_, ?_, fun h => hA h.1, (hcal (not_not.mp hret₂)).only honly₃ (by decide), ?_, ?_, hrec, fun _ => ?_⟩
    · rw [adcsOf, hsw]
      rfl
    · rw [Seen.lastWritten, hsame₁, honly₂.writes _ (by decide)]
      exact hwritten
    · exact iff_of_true hsame₂ fun h => hA h.1
    · exact (hcomp.only honly₂ (by decide)).only honly₃ (by decide)

/-- What the ADCs being up says is not touched by the rest. -/
theorem AdcUp.only {m : Word32} {rs : List Reg} {s₁ s₂ : Seen} {h' : Host} (hup : AdcUp C m s s₁ h')
    (hs : Seen.Only rs s₁ s₂) (hrs : ∀ reg ∈ calRegs ++ compRegs, reg ∉ rs) (htemps : s₂.temps = s₁.temps) :
    AdcUp C m s s₂ h' where
  enabled := hup.enabled
  servable := hup.servable
  calibrated := hup.calibrated.only hs fun reg hreg => hrs reg (List.mem_append_left _ hreg)
  written := by
    rw [Seen.lastWritten, hs.writes _ (hrs .adcEnableCtrl (by decide))]
    exact hup.written
  noted := hup.noted
  recorded hB := by
    rw [Recorded, htemps]
    exact hup.recorded hB
  compensated hA := (hup.compensated hA).only hs (hrs .dcsMailboxReg2 (by decide))

end Adc

/-! ### The DACs come up -/

/-- The bus is still requested exactly if the request was not granted. -/
def BusLeft (s : Seen) : Prop := s.lastWritten .adcDacRegCtrl = some 1 ↔ s.reads .adcDacRegGrStatus = [0]

theorem BusFree.left {s : Seen} (h : BusFree s) : BusLeft s := iff_of_false h.1 (by simp [h.2])

/-- What it takes for the DACs `d` to be up. -/
structure DacUp (C : Config) (d : Word32) (s : Seen) : Prop where
  enabled : dacSwitch C.hsdacMask = some d
  written : s.lastWritten .dacEnableCtrl = some d
  ready : ∃ val, s.lastRead .dacReadyStat = some val ∧ val &&& d = d
  released : s.lastWritten .adcDacRegCtrl = some 0
  freed : s.lastRead .adcDacRegGrStatus = some 0

/-- The registers of `hsdcs_dac1_dac2_rst` -/
def resetRegs : List Reg := [.adcDacRegCtrl, .adcDacRegGrStatus, .dac1RstCtrl, .dac2RstCtrl]

section Dac

variable {C : Config} {h : Host} {s : Seen}

theorem asks_hsdcsDac1Dac2Rst : Asks (Uses resetRegs) (hsdcsDac1Dac2Rst C) := by
  refine asks_writel (by decide) (asks_readl (by decide) fun _ => ?_)
  split_ifs
  · exact trivial
  · refine asks_bind ?_ fun _ => asks_writel (by decide) (asks_readl (by decide) fun _ => ?_)
    · unfold resetDacs
      split_ifs
      · exact asks_writel (by decide) (asks_writel (by decide) (asks_writel (by decide)
          (asks_writel (by decide) trivial)))
      · exact trivial
    · split_ifs
      · exact trivial
      · exact trivial

/-- The cores are reset while the bus is requested. -/
theorem keeps_resetDacs (hs : s.lastWritten .adcDacRegCtrl = some 1) : Keeps watch (fun s' _ =>
    s'.reads = s.reads ∧ s'.temps = s.temps ∧ s'.writes .adcDacRegCtrl = s.writes .adcDacRegCtrl) (resetDacs C) s := by
  unfold resetDacs
  split_ifs
  · refine keeps_writel hs (keeps_writel ?_ (keeps_writel ?_ (keeps_writel ?_ ⟨rfl, rfl, ?_⟩)))
    · simpa [Seen.Allows, Seen.lastWritten] using hs
    · simpa [Seen.Allows, Seen.lastWritten] using hs
    · simpa [Seen.Allows, Seen.lastWritten] using hs
    · simp
  · exact ⟨rfl, rfl, rfl⟩

theorem keeps_hsdcsDac1Dac2Rst (hbus : BusFree s) : Keeps watch (fun s' ret => (BusLeft s' ∧ s'.temps = s.temps ∧
    (ret = 0 → s'.lastWritten .adcDacRegCtrl = some 0 ∧ s'.lastRead .adcDacRegGrStatus = some 0)) ∧
    Seen.Only resetRegs s s') (hsdcsDac1Dac2Rst C) s := by
  refine keeps_only ?_ asks_hsdcsDac1Dac2Rst
  refine keeps_writel trivial (keeps_readl fun granted => ?_)
  split_ifs with hgrant
  · refine ⟨?_, rfl, fun h => absurd h (by decide)⟩
    exact iff_of_true (by simp [Seen.lastWritten]) (by simp [hbus.2, hgrant])
  · refine keeps_bind (keeps_resetDacs (by simp [Seen.lastWritten])) ?_
    rintro s₁ _ ⟨hreads, htemps, hwrites⟩
    refine keeps_writel trivial (keeps_readl fun granted' => ?_)
    have hfree : BusLeft ((s₁.write .adcDacRegCtrl 0).read .adcDacRegGrStatus granted') :=
      iff_of_false (by simp [Seen.lastWritten]) (by simp [hreads])
    split_ifs with hgrant'
    · exact ⟨hfree, htemps, fun h => absurd h (by decide)⟩
    · refine ⟨hfree, htemps, fun _ => ⟨by simp [Seen.lastWritten], ?_⟩⟩
      simp [Seen.lastRead, not_not.mp hgrant']

/-- The registers of `hsdcs_init_adc_dac` after the ADCs -/
def dacRegs : List Reg := .dacReadyStat :: resetRegs

theorem keeps_hsdcsInitDac : Keeps watch (fun s' p => s' = s.write .dacEnableCtrl ((dacSwitch C.hsdacMask).getD 0) ∧
    p.2 = { h with dacTxiTxqMask := (dacSwitch C.hsdacMask).getD 0 } ∧ (p.1 = 0 → (dacSwitch C.hsdacMask).isSome))
    (hsdcsInitDac C h) s := by
  refine keeps_writel trivial ⟨rfl, rfl, fun hret => ?_⟩
  by_contra hnone
  simp only [hnone, if_false] at hret
  exact absurd hret (by decide)

/-- All of the converters -/
theorem keeps_hsdcsInitAdcDac (hbus : BusFree s) : Keeps watch (fun s' p => BusLeft s' ∧
    p.2.dcsHsReady = h.dcsHsReady ∧ (p.1 = 0 → (∃ m, AdcUp C m s s' p.2) ∧ ∃ d, DacUp C d s'))
    (hsdcsInitAdcDac C h) s := by
  refine keeps_writel trivial (keeps_bind keeps_hsdcsInitDac ?_)
  rintro _ ⟨ret₁, h₁⟩ ⟨rfl, hh₁, hsome⟩
  have hbus₁ : BusFree ((s.write .clkCtrl 0xeb).write .dacEnableCtrl ((dacSwitch C.hsdacMask).getD 0)) := by
    simpa [BusFree, Seen.lastWritten] using hbus
  dsimp only at hh₁ hsome ⊢
  have hready₁ : h₁.dcsHsReady = h.dcsHsReady := by rw [hh₁]
  split_ifs with hret₁
  · exact ⟨hbus₁.left, hready₁, fun h => absurd h hret₁⟩
  obtain ⟨d, hd⟩ := Option.isSome_iff_exists.mp (hsome (not_not.mp hret₁))
  have hmask₁ : h₁.dacTxiTxqMask = d := by simp [hh₁, hd]
  refine keeps_bind (keeps_only (keeps_hsdcsInitAdc hbus₁) asks_hsdcsInitAdc) ?_
  rintro s₂ ⟨ret₂, h₂⟩ ⟨⟨hbus₂, hkept, hadc⟩, honly₂⟩
  dsimp only at hkept hadc ⊢
  have hready₂ := hkept.2.trans hready₁
  split_ifs with hret₂
  · exact ⟨hbus₂.left, hready₂, fun h => absurd h hret₂⟩
  obtain ⟨m, hup⟩ := hadc (not_not.mp hret₂)
  have hup : AdcUp C m s s₂ h₂ := ⟨hup.1, hup.2, hup.3, hup.4, hup.5, hup.6, by simpa [Compensated] using hup.7⟩
  refine keeps_readl fun val₀ => keeps_bind (keeps_pollReg 19 val₀ _) ?_
  rintro _ val ⟨zs, -, rfl⟩
  rw [hkept.1.trans hmask₁]
  have hbus₃ : BusFree ((s₂.read .dacReadyStat val₀).readMany .dacReadyStat (val :: zs)) := by
    simpa [BusFree, Seen.lastWritten] using hbus₂
  split_ifs with hready
  · exact ⟨hbus₃.left, hready₂, fun h => absurd (show -ebusy = 0 from h) (by decide)⟩
  refine keeps_bind (keeps_hsdcsDac1Dac2Rst hbus₃) ?_
  rintro s₄ ret₄ ⟨⟨hleft, htemps, hfree⟩, honly₄⟩
  have honly₃ : Seen.Only [.dacReadyStat] s₂ ((s₂.read .dacReadyStat val₀).readMany .dacReadyStat (val :: zs)) := by
    refine ⟨fun reg hreg => ?_, fun _ _ => rfl, List.suffix_rfl⟩
    have hne : reg ≠ .dacReadyStat := by simpa using hreg
    simp [hne]
  have honly : Seen.Only dacRegs s₂ s₄ := (honly₃.mono (by decide)).trans (honly₄.mono (by decide))
  refine ⟨hleft, hready₂, fun hret₄ => ⟨⟨m, hup.only honly (by decide) htemps⟩, d, hd, ?_, ⟨val, ?_, not_not.mp hready⟩,
    (hfree hret₄).1, (hfree hret₄).2⟩⟩
  · rw [Seen.lastWritten, honly.writes _ (by decide), honly₂.writes _ (by decide)]
    simp [hd]
  · rw [Seen.lastRead, honly₄.reads _ (by decide)]
    simp

theorem asks_hsdcsInitAdcDac : Asks (Uses ([.clkCtrl, .dacEnableCtrl] ++ adcRegs ++ dacRegs))
    (hsdcsInitAdcDac C h) := by
  refine asks_writel (by decide) (asks_bind (asks_writel (by decide) trivial) ?_)
  rintro ⟨ret, h⟩
  dsimp only
  split_ifs
  · exact trivial
  · refine asks_bind (asks_hsdcsInitAdc.mono (Uses.mono (by decide))) ?_
    rintro ⟨ret, h⟩
    dsimp only
    split_ifs
    · exact trivial
    · refine asks_readl (by decide) fun _ => asks_bind (asks_pollReg (by decide) _ _) fun _ => ?_
      split_ifs
      · exact trivial
      · exact asks_bind (asks_hsdcsDac1Dac2Rst.mono (Uses.mono (by decide))) fun _ => trivial

end Dac

/-! ### The firmware is loaded -/

/-- The words of the image, as they were written -/
def Image.written (I : Image) : List Word32 := ((List.range I.words).map I.word).reverse

/-- The registers of `hsdcs_load_firmware` -/
def loadRegs : List Reg := [.pllcr0, .dcsMailboxReg2, .dcsCtrl, .dcsProgStrtAddr, .dcsProgWrtData]

section Load

variable {C : Config} {h : Host} {s : Seen} {I : Image} {word : ℕ → Word32}

theorem asks_writeWords : ∀ left n : ℕ, Asks (Uses loadRegs) (writeWords word left n)
  | 0, _ => trivial
  | left + 1, n => asks_writel (by decide) (asks_writeWords left (n + 1))

theorem asks_hsdcsLoadFirmware : Asks (Uses loadRegs) (hsdcsLoadFirmware I) := by
  refine asks_bind (asks_readl (by decide) fun _ => trivial) fun _ => asks_writel (by decide) (asks_bind ?_ fun _ =>
    asks_bind (asks_writeWords _ _) fun _ => ?_)
  · exact asks_writel (by decide) (asks_writel (by decide) (asks_writel (by decide) trivial))
  · exact asks_writel (by decide) (asks_writel (by decide) (asks_writel (by decide) trivial))

/-- The words go to the core in order, while it takes its program. -/
theorem keeps_writeWords : ∀ (left n : ℕ) (s : Seen), s.lastWritten .dcsCtrl = some programMode →
    Keeps watch (fun s' _ => s' = s.writeMany .dcsProgWrtData ((List.range' n left).map word).reverse)
      (writeWords word left n) s := by
  intro left
  induction left with
  | zero =>
    intro n s _
    show s = _
    simp [Seen.writeMany]
  | succ left ih =>
    intro n s hs
    refine keeps_writel hs ((ih (n + 1) _ (by simpa [Seen.lastWritten] using hs)).mono ?_)
    rintro _ _ rfl
    simp [Seen.write, Seen.writeMany, List.range'_succ]

theorem keeps_hsdcsPreInitFw : Keeps watch (fun s' _ => s'.lastWritten .dcsCtrl = some programMode ∧
    Seen.Only [.dcsCtrl, .dcsProgStrtAddr] s s' ∧ s'.temps = s.temps) hsdcsPreInitFw s := by
  have hasks : Asks (Uses [.dcsCtrl, .dcsProgStrtAddr]) hsdcsPreInitFw :=
    asks_writel (by decide) (asks_writel (by decide) (asks_writel (by decide) trivial))
  refine (keeps_only (P := fun s' _ => s'.lastWritten .dcsCtrl = some programMode ∧ s'.temps = s.temps) ?_ hasks).mono
    fun _ _ h => ⟨h.1.1, h.2, h.1.2⟩
  refine keeps_writel trivial (keeps_writel trivial (keeps_writel trivial ⟨?_, rfl⟩))
  simp [Seen.lastWritten]

theorem keeps_hsdcsReleaseCore : Keeps watch (fun s' _ => s'.lastWritten .dcsCtrl = some 0 ∧
    Seen.Only [.dcsCtrl] s s' ∧ s'.temps = s.temps) hsdcsReleaseCore s := by
  have hasks : Asks (Uses [.dcsCtrl]) hsdcsReleaseCore :=
    asks_writel (by decide) (asks_writel (by decide) (asks_writel (by decide) trivial))
  refine (keeps_only (P := fun s' _ => s'.lastWritten .dcsCtrl = some 0 ∧ s'.temps = s.temps) ?_ hasks).mono
    fun _ _ h => ⟨h.1.1, h.2, h.1.2⟩
  refine keeps_writel trivial (keeps_writel trivial (keeps_writel trivial ⟨?_, rfl⟩))
  simp [Seen.lastWritten]

/-- The image is in the core, and the core runs. -/
theorem keeps_hsdcsLoadFirmware (hs : s.writes .dcsProgWrtData = []) : Keeps watch (fun s' _ =>
    (s'.writes .dcsProgWrtData = I.written ∧ s'.lastWritten .dcsCtrl = some 0 ∧ s'.temps = s.temps ∧
      ∃ delay, s'.writes .dcsMailboxReg2 = delay :: s.writes .dcsMailboxReg2) ∧ Seen.Only loadRegs s s')
    (hsdcsLoadFirmware I) s := by
  refine keeps_only ?_ asks_hsdcsLoadFirmware
  refine keeps_bind (M := fun s' _ => s'.writes = s.writes ∧ s'.temps = s.temps) (keeps_readl fun _ => ⟨rfl, rfl⟩) ?_
  rintro s₁ is983 ⟨hwrites₁, htemps₁⟩
  refine keeps_writel trivial (keeps_bind keeps_hsdcsPreInitFw ?_)
  rintro s₂ _ ⟨hmode, honly₂, htemps₂⟩
  refine keeps_bind (keeps_writeWords _ _ _ hmode) ?_
  rintro _ _ rfl
  refine keeps_hsdcsReleaseCore.mono ?_
  rintro s₃ _ ⟨hrun, honly₃, htemps₃⟩
  refine ⟨?_, hrun, htemps₃.trans (htemps₂.trans htemps₁), if is983 then 0x03d8 else 0x07ae, ?_⟩
  · rw [honly₃.writes _ (by decide)]
    simp [honly₂.writes .dcsProgWrtData (by decide), hwrites₁, hs, Image.written, List.range_eq_range']
  · rw [honly₃.writes _ (by decide)]
    simp [honly₂.writes .dcsMailboxReg2 (by decide), hwrites₁]

end Load

/-! ### The host announces HSDCS -/

/-- What was seen of the exchanges -/
def seen (log : List (Query × Answer)) : Seen := watch.after Seen.start log

/-- A version that is recent enough -/
def Recent (val : Word32) : Prop := ¬ tooOld ((val >>> 16) &&& 0xff) ((val >>> 8) &&& 0xff) (val &&& 0xff)

/-- What it takes for HSDCS to be announced, of all that was seen. -/
structure Announced (C : Config) (image : Option Image) (s : Seen) (h' : Host) : Prop where
  wanted : C.hsdcsEnable = true ∧ C.warmup = false ∧ C.hsdcsType = true
  writable : s.lastRead .wrRwTestReg = some dcsHsMagic
  loaded : ∃ I, image = some I ∧ s.writes .dcsProgWrtData = I.written
  running : s.lastWritten .dcsCtrl = some 0
  version : C.socRev = .revB → ∃ val, s.lastRead .fwVerInfo = some val ∧ Recent val
  /-- of what was seen since the firmware runs -/
  adcs : ∃ m s₀, s₀.temps = [] ∧ (s₀.writes .dcsMailboxReg2).length = 1 ∧ AdcUp C m s₀ s h'
  dacs : ∃ d, DacUp C d s

section Macro

variable {C : Config} {h : Host} {s : Seen} {image : Option Image}

/-- The registers of `hsdcs_macro_init` once the firmware is loaded -/
def startRegs : List Reg := .fwVerInfo :: ([.clkCtrl, .dacEnableCtrl] ++ adcRegs ++ dacRegs)

/-- What `startFirmware` ends with: what was seen since `s`, what it returns, and the host. -/
def Started (C : Config) (h : Host) (s s' : Seen) (p : ℤ × Host) : Prop :=
  BusLeft s' ∧ p.2.dcsHsReady = (h.dcsHsReady || decide (p.1 = 0)) ∧
    (p.1 = 0 → (C.socRev = .revB → ∃ val, s'.lastRead .fwVerInfo = some val ∧ Recent val) ∧
      (∃ m, AdcUp C m s s' p.2) ∧ ∃ d, DacUp C d s')

/-- What it does with the version it has read -/
theorem keeps_afterVersion {val : Word32} {s₁ : Seen} (hval : s₁.lastRead .fwVerInfo = some val)
    (honly : Seen.Only [.fwVerInfo] s s₁) (htemps : s₁.temps = s.temps) (hbus : BusFree s₁) :
    Keeps watch (fun s' p => Started C h s s' p ∧ Seen.Only startRegs s s')
      (if val = 0 ∧ C.socRev ≠ .revA then pure (-enoexec, h)
        else if C.socRev = .revB ∧ tooOld ((val >>> 16) &&& 0xff) ((val >>> 8) &&& 0xff) (val &&& 0xff) then
          pure (-enoexec, h)
        else do
          let (rc, h) ← hsdcsInitAdcDac C h
          if rc = 0 then pure (0, { h with dcsHsReady := true }) else pure (rc, h) : Program (ℤ × Host)) s₁ := by
  have honly' : Seen.Only startRegs s s₁ := honly.mono (by decide)
  have hrefused : h.dcsHsReady = (h.dcsHsReady || decide (-enoexec = 0)) := by simp [enoexec]
  split_ifs with hread hold
  · exact ⟨⟨hbus.left, hrefused, fun h => absurd (show -enoexec = 0 from h) (by decide)⟩, honly'⟩
  · exact ⟨⟨hbus.left, hrefused, fun h => absurd (show -enoexec = 0 from h) (by decide)⟩, honly'⟩
  · refine keeps_bind (keeps_only (keeps_hsdcsInitAdcDac hbus) asks_hsdcsInitAdcDac) ?_
    rintro s₂ ⟨rc, h₂⟩ ⟨⟨hleft, hready, hup⟩, honly₂⟩
    have honly₂' : Seen.Only startRegs s s₂ := honly'.trans (honly₂.mono (by decide))
    dsimp only at hready hup ⊢
    split_ifs with hrc
    · obtain ⟨⟨m, hadc⟩, hdac⟩ := hup hrc
      refine ⟨⟨hleft, by simp, fun _ => ⟨fun hB => ⟨val, ?_, fun htoo => hold ⟨hB, htoo⟩⟩, ⟨m, ?_⟩, hdac⟩⟩, honly₂'⟩
      · rw [Seen.lastRead, honly₂.reads _ (by decide)]
        exact hval
      · refine ⟨hadc.1, hadc.2, hadc.3, hadc.4, hadc.5, hadc.6, fun hA => ?_⟩
        obtain ⟨t, ht, hwrites⟩ := hadc.7 hA
        rw [htemps] at ht
        rw [honly.writes _ (by decide)] at hwrites
        exact ⟨t, ht, hwrites⟩
    · exact ⟨⟨hleft, by simp [hrc, hready], fun h => absurd h hrc⟩, honly₂'⟩

theorem keeps_startFirmware (hbus : BusFree s) :
    Keeps watch (fun s' p => Started C h s s' p ∧ Seen.Only startRegs s s') (startFirmware C h) s := by
  have honly : ∀ vals : List Word32, Seen.Only [.fwVerInfo] s (s.readMany .fwVerInfo vals) := by
    refine fun vals => ⟨fun reg hreg => ?_, fun _ _ => rfl, List.suffix_rfl⟩
    have hne : reg ≠ .fwVerInfo := by simpa using hreg
    simp [hne]
  refine keeps_readl fun val₀ => ?_
  have honly₀ : Seen.Only [.fwVerInfo] s (s.read .fwVerInfo val₀) := honly [val₀]
  by_cases h0 : val₀ = 0
  · rw [if_pos h0]
    refine keeps_bind (keeps_pollReg 19 val₀ _) ?_
    rintro _ val ⟨zs, -, rfl⟩
    have honly₁ : Seen.Only [.fwVerInfo] s ((s.read .fwVerInfo val₀).readMany .fwVerInfo (val :: zs)) := by
      have hread := honly (val :: zs ++ [val₀])
      simpa [Seen.read, Seen.readMany] using hread
    exact keeps_afterVersion (by simp [Seen.lastRead]) honly₁ rfl (hbus.only honly₁ (by decide) (by decide))
  · rw [if_neg h0]
    exact keeps_afterVersion (by simp [Seen.lastRead]) honly₀ rfl (hbus.only honly₀ (by decide) (by decide))

theorem keeps_hsdcsMacroInit : Keeps watch (fun s' p => BusLeft s' ∧
    p.2.dcsHsReady = (h.dcsHsReady || decide (p.1 = 0)) ∧ (p.1 = 0 → Announced C image s' p.2))
    (hsdcsMacroInit C image h) Seen.start := by
  have hstart : BusFree Seen.start := ⟨by simp [Seen.start, Seen.lastWritten], rfl⟩
  refine keeps_writel trivial ?_
  have hready : (if C.tbgen2Disable then h else { h with hsTbgen2Ready := true }).dcsHsReady = h.dcsHsReady := by
    split_ifs <;> rfl
  generalize (if C.tbgen2Disable then h else { h with hsTbgen2Ready := true }) = h₁ at hready ⊢
  have hbus : BusFree (Seen.start.write .clkCtrl 0xeb) := by simpa [BusFree, Seen.lastWritten] using hstart
  have hskip : h₁.dcsHsReady = (h.dcsHsReady || decide ((1 : ℤ) = 0)) := by simp [hready]
  have hone : ¬ (1 : ℤ) = 0 := by decide
  by_cases henable : ¬ C.hsdcsEnable = true
  · rw [if_pos henable]
    exact ⟨hbus.left, hskip, fun h => absurd h hone⟩
  rw [if_neg henable]
  by_cases hwarm : C.warmup = true
  · rw [if_pos hwarm]
    exact ⟨hbus.left, hskip, fun h => absurd h hone⟩
  rw [if_neg hwarm]
  by_cases htype : ¬ C.hsdcsType = true
  · rw [if_pos htype]
    exact ⟨hbus.left, hskip, fun h => absurd h hone⟩
  rw [if_neg htype]
  refine keeps_readl fun id => keeps_readl fun rw₀ => keeps_writel trivial (keeps_readl fun rw₁ => ?_)
  split_ifs with hrw
  · refine ⟨BusFree.left (by simpa [BusFree, Seen.lastWritten] using hbus), by simp [hready, enodev], fun h => ?_⟩
    exact absurd (show -enodev = 0 from h) (by decide)
  refine keeps_writel trivial ?_
  cases image with
  | none =>
    refine ⟨BusFree.left (by simpa [BusFree, Seen.lastWritten] using hbus), by simp [hready, enomem], fun h => ?_⟩
    exact absurd (show -enomem = 0 from h) (by decide)
  | some I =>
    refine keeps_bind (keeps_hsdcsLoadFirmware (by simp [Seen.start])) ?_
    rintro s₁ _ ⟨⟨hdata, hrun, htemps, delay, hdelay⟩, honly₁⟩
    have hbus₁ : BusFree s₁ := by
      refine BusFree.only ?_ honly₁ (by decide) (by decide)
      simpa [BusFree, Seen.lastWritten] using hbus
    refine (keeps_startFirmware hbus₁).mono ?_
    rintro s₂ ⟨ret, h₂⟩ ⟨⟨hleft, hready₂, hup⟩, honly₂⟩
    refine ⟨hleft, by rw [hready₂, hready], fun hret => ?_⟩
    obtain ⟨hversion, ⟨m, hadc⟩, hdac⟩ := hup hret
    refine ⟨⟨not_not.mp henable, by simpa using hwarm, not_not.mp htype⟩, ?_, ⟨I, rfl, ?_⟩, ?_, hversion,
      ⟨m, s₁, ?_, ?_, hadc⟩, hdac⟩
    · rw [Seen.lastRead, honly₂.reads _ (by decide), honly₁.reads _ (by decide)]
      simp [not_not.mp hrw]
    · rw [honly₂.writes _ (by decide)]
      exact hdata
    · rw [Seen.lastWritten, honly₂.writes _ (by decide)]
      exact hrun
    · rw [htemps]
      rfl
    · rw [hdelay]
      simp [Seen.start]

/-- **HSDCS is announced for what it is.** Whatever the hardware answers: the registers behind
the internal bus are written only while it is requested, and the program of the core only
while it takes it; the bus stays requested exactly if the request was not granted; and the
host announces HSDCS exactly when `hsdcs_macro_init` returns 0, and then the image is loaded,
the firmware is recent on revision B, and the converters of the masks are enabled, calibrated
and ready. -/
theorem announced (C : Config) (image : Option Image) (h : Host) {σ : Type} (hw : σ → Query → σ × Answer) (c : σ) :
    (∀ pre e post, (run hw (hsdcsMacroInit C image h) c).log = pre ++ e :: post → (seen pre).Allows e.1) ∧
      ∀ ret h', (run hw (hsdcsMacroInit C image h) c).val = some (ret, h') →
        BusLeft (seen (run hw (hsdcsMacroInit C image h) c).log) ∧
          h'.dcsHsReady = (h.dcsHsReady || decide (ret = 0)) ∧
          (ret = 0 → Announced C image (seen (run hw (hsdcsMacroInit C image h) c).log) h') := by
  constructor
  · intro pre e post hlog
    exact keeps_hsdcsMacroInit.allowed hw hlog
  · intro ret h' hval
    exact keeps_hsdcsMacroInit.ends hw hval

end Macro

/-! ### What hardware can do -/

section Can

variable {α : Type} {P : α → Prop} {C : Config} {h : Host} {reg : Reg}

theorem can_readl {f : Word32 → Program α} (val : Word32) (hf : Can P (f val)) : Can P (readl reg >>= f) :=
  ⟨⟨val, none⟩, hf⟩

theorem can_writel {f : Unit → Program α} {val : Word32} (hf : Can P (f ())) : Can P (writel val reg >>= f) :=
  ⟨default, hf⟩

/-- A temperature in the range -/
theorem can_temperature {f : Option ℤ → Program α} (hf : Can P (f (some 25))) : Can P (getCurrTemperature >>= f) :=
  ⟨⟨0, some 25⟩, hf⟩

/-- The first read of a poll finds what it waits for. -/
theorem can_pollReg {found : Word32 → Bool} {f : Word32 → Program α} {left : ℕ} {val₀ : Word32} (val : Word32)
    (hfound : found val = true) (hf : Can P (f val)) : Can P (pollReg reg found (left + 1) val₀ >>= f) := by
  refine can_bind (M := fun val' => val' = val) (can_readl val ?_) ?_
  · rw [if_pos hfound]
    exact rfl
  · rintro _ rfl
    exact hf

theorem can_hsdcsDoInitialCal {mask : Word32} (hmask : mask &&& 0xf = mask) (hne : mask ≠ 0) :
    Can (fun ret => ret = 0) (hsdcsDoInitialCal C mask) := by
  have hldo : Can (fun _ => True) (enableLdo C) := by
    unfold enableLdo
    split_ifs
    · exact can_readl 0 (can_writel trivial)
    · exact trivial
  refine can_readl 0 (can_writel (can_pollReg 1 (by decide) ?_))
  rw [if_neg (by decide)]
  refine can_writel (can_pollReg (1 <<< 4) (by decide) ?_)
  rw [if_neg (by decide)]
  have hfound : decide (mask &&& 0xf ≠ 0) = true := by
    rw [hmask]
    exact decide_eq_true hne
  have hpassed : ¬ ((0 : Word32) &&& 0xff ≠ 0 ∨ ¬ mask &&& 0xf = mask) := by
    rintro (h | h)
    · exact h (by decide)
    · exact h hmask
  refine can_bind hldo fun _ _ => can_pollReg 0 (by decide) (can_pollReg mask hfound ?_)
  rw [if_neg hpassed]
  exact rfl

theorem can_initialCals {mask : Word32} (hmask : mask &&& 0xf = mask) (hne : mask ≠ 0) (left : ℕ) (ret : ℤ) :
    Can (fun ret => ret = 0) (initialCals C mask (left + 1) ret) := by
  refine can_bind (can_hsdcsDoInitialCal hmask hne) ?_
  rintro _ rfl
  rw [if_pos rfl]
  exact rfl

/-- The ADCs of a switch fit into the status, but for that of the test stream. -/
theorem adcSwitch_fits {both ctrl mask : Word32} {hsadcMask : ℤ}
    (hsw : adcSwitch enable2 both hsadcMask = some (ctrl, mask)) (hboth : hsadcMask = 3 → both = enableBoth) :
    mask &&& 0xf = mask ∧ mask ≠ 0 := by
  unfold adcSwitch at hsw
  split_ifs at hsw with h1 h2 h3
  · obtain ⟨-, rfl⟩ := Prod.mk.inj (Option.some.inj hsw)
    decide
  · obtain ⟨-, rfl⟩ := Prod.mk.inj (Option.some.inj hsw)
    decide
  · obtain ⟨-, rfl⟩ := Prod.mk.inj (Option.some.inj hsw)
    rw [hboth h3]
    decide

theorem can_enableAdcA {mask : Word32} (hsw : adcSwitch enable2 adc16gEnMask C.hsadcMask = some (mask, mask)) :
    Can (fun p => p.1 = 0 ∧ p.2.adcRxiRxqMask = mask) (enableAdcA C h) := by
  unfold enableAdcA
  rw [hsw]
  exact can_writel (can_writel (can_writel (can_writel (can_writel ⟨rfl, rfl⟩))))

theorem can_enableAdcB {mask : Word32} (hsw : adcSwitch enable2 enableBoth C.hsadcMask = some (mask, mask)) :
    Can (fun p => p.1 = 0 ∧ p.2.adcRxiRxqMask = mask) (enableAdcB C h) := by
  unfold enableAdcB
  rw [hsw]
  refine can_writel (can_writel (can_readl 0 (can_writel ?_)))
  refine can_bind (M := fun h' => h'.adcRxiRxqMask = mask) (can_readl 0 (can_temperature (can_writel ?_))) ?_
  · exact rfl
  · intro h' hh'
    exact can_temperature ⟨rfl, hh'⟩

theorem can_finishAdc (hsw : (adcSwitch enable1 enableBoth C.hsadcMask).isSome) :
    Can (fun p => p.1 = 0) (finishAdc C h) := by
  have hlow : ∀ h : Host, Can (fun _ => True) (enableLowPow h) := by
    refine fun h => can_readl (calBit 8) (can_readl (calBit 8) ?_)
    rw [if_neg (by decide), if_neg (by decide)]
    exact trivial
  unfold finishAdc
  split
  · exact can_temperature (can_bind (hlow _) fun _ _ => rfl)
  · obtain ⟨p, hp⟩ := Option.isSome_iff_exists.mp hsw
    rw [hp]
    exact can_writel (can_readl 0 rfl)
  · exact rfl

/-- A mask of the module enables ADCs in all of the switches or in none. -/
theorem adcsOf_isSome (two both : Word32) {hsadcMask : ℤ} (hm : (adcsOf hsadcMask).isSome = true) :
    (adcSwitch two both hsadcMask).isSome = true := by
  unfold adcsOf adcSwitch at hm
  unfold adcSwitch
  split_ifs at hm ⊢ <;> simp_all

/-- What the masks ask for can be had of the revision. -/
def Servable (C : Config) : Prop :=
  (dacSwitch C.hsdacMask).isSome = true ∧ (adcsOf C.hsadcMask).isSome = true ∧ ¬ (C.socRev = .revA ∧ C.hsadcMask = 3)

theorem can_hsdcsInitAdc (hC : Servable C) : Can (fun p => p.1 = 0) (hsdcsInitAdc C h) := by
  obtain ⟨-, hadc, hrev⟩ := hC
  have hrest : ∀ p : ℤ × Host, p.1 = 0 ∧ p.2.adcRxiRxqMask &&& 0xf = p.2.adcRxiRxqMask ∧ p.2.adcRxiRxqMask ≠ 0 →
      Can (fun p => p.1 = 0) (if p.1 ≠ 0 then pure (p.1, p.2) else do
        let ret ← initialCals C p.2.adcRxiRxqMask initialCalRetries 0
        if ret ≠ 0 then pure (ret, p.2) else finishAdc C p.2 : Program (ℤ × Host)) := by
    rintro p ⟨hp, hmask, hne⟩
    rw [if_neg (not_not.mpr hp)]
    refine can_bind (can_initialCals hmask hne 4 0) ?_
    rintro _ rfl
    rw [if_neg (not_not.mpr rfl)]
    exact can_finishAdc (adcsOf_isSome enable1 enableBoth hadc)
  unfold hsdcsInitAdc
  by_cases hA : C.socRev = .revA
  · rw [if_pos hA]
    obtain ⟨⟨ctrl, mask⟩, hsw⟩ := Option.isSome_iff_exists.mp (adcsOf_isSome enable2 adc16gEnMask hadc)
    obtain rfl := adcSwitch_same hsw
    refine can_bind (can_enableAdcA hsw) fun p hp => hrest p ⟨hp.1, ?_⟩
    rw [hp.2]
    exact adcSwitch_fits hsw fun h3 => absurd ⟨hA, h3⟩ hrev
  · rw [if_neg hA]
    obtain ⟨⟨ctrl, mask⟩, hsw⟩ := Option.isSome_iff_exists.mp (adcsOf_isSome enable2 enableBoth hadc)
    obtain rfl := adcSwitch_same hsw
    refine can_bind (can_enableAdcB hsw) fun p hp => hrest p ⟨hp.1, ?_⟩
    rw [hp.2]
    exact adcSwitch_fits hsw fun _ => rfl

theorem can_hsdcsInitAdcDac (hC : Servable C) : Can (fun p => p.1 = 0) (hsdcsInitAdcDac C h) := by
  obtain ⟨d, hd⟩ := Option.isSome_iff_exists.mp hC.1
  refine can_writel (can_bind (M := fun p => p.1 = 0) (can_writel ?_) ?_)
  · simp only [hd]
    exact rfl
  rintro ⟨_, h₁⟩ rfl
  dsimp only
  rw [if_neg (not_not.mpr rfl)]
  refine can_bind (can_hsdcsInitAdc hC) ?_
  rintro ⟨_, h₂⟩ rfl
  dsimp only
  rw [if_neg (not_not.mpr rfl)]
  refine can_readl 0 (can_pollReg h₂.dacTxiTxqMask (by simp) ?_)
  rw [if_neg (by simp)]
  refine can_bind (M := fun ret => ret = 0) (can_writel (can_readl 1 ?_)) ?_
  · rw [if_neg (by decide)]
    refine can_bind (M := fun _ => True) ?_ fun _ _ => can_writel (can_readl 0 ?_)
    · unfold resetDacs
      split_ifs
      · exact can_writel (can_writel (can_writel (can_writel trivial)))
      · exact trivial
    · rw [if_neg (by decide)]
      exact rfl
  · rintro _ rfl
    exact rfl

theorem can_writeWords {word : ℕ → Word32} : ∀ left n : ℕ, Can (fun _ => True) (writeWords word left n)
  | 0, _ => trivial
  | left + 1, n => can_writel (can_writeWords left (n + 1))

theorem can_hsdcsLoadFirmware {I : Image} : Can (fun _ => True) (hsdcsLoadFirmware I) := by
  refine can_bind (M := fun _ => True) (can_readl 0 trivial) fun _ _ => can_writel ?_
  refine can_bind (M := fun _ => True) (can_writel (can_writel (can_writel trivial))) fun _ _ => ?_
  refine can_bind (can_writeWords _ _) fun _ _ => ?_
  exact can_writel (can_writel (can_writel trivial))

/-- Version 2.18.1, the oldest that is accepted -/
def oldest : Word32 := 0x021201

theorem can_startFirmware (hC : Servable C) : Can (fun p => p.1 = 0) (startFirmware C h) := by
  have hread : ¬ oldest = 0 := by decide
  have hnew : ¬ (C.socRev = .revB ∧ tooOld ((oldest >>> 16) &&& 0xff) ((oldest >>> 8) &&& 0xff) (oldest &&& 0xff)) :=
    fun htoo => absurd htoo.2 (by decide)
  refine can_readl oldest ?_
  rw [if_neg hread, Dialogue.pure_bind]
  dsimp only
  rw [if_neg fun h => hread h.1, if_neg hnew]
  refine can_bind (can_hsdcsInitAdcDac hC) ?_
  rintro ⟨_, h₁⟩ rfl
  exact rfl

theorem can_hsdcsMacroInit {I : Image} (henable : C.hsdcsEnable = true) (hwarm : C.warmup = false)
    (htype : C.hsdcsType = true) (hC : Servable C) : Can (fun p => p.1 = 0) (hsdcsMacroInit C (some I) h) := by
  refine can_writel ?_
  rw [if_neg (by simp [henable]), if_neg (by simp [hwarm]), if_neg (by simp [htype])]
  refine can_readl 0 (can_readl 0 (can_writel (can_readl dcsHsMagic ?_)))
  rw [if_neg (not_not.mpr rfl)]
  exact can_writel (can_bind can_hsdcsLoadFirmware fun _ _ => can_startFirmware hC)

end Can

/-- **Some hardware gets there exactly if the masks can be served.** In particular no hardware
of revision A does with both ADCs, which `hsadc_mask` asks for unless told otherwise. -/
theorem announced_possible_iff (C : Config) (I : Image) (h : Host) :
    (∃ (σ : Type) (hw : σ → Query → σ × Answer) (c : σ) (h' : Host),
        (run hw (hsdcsMacroInit C (some I) h) c).val = some (0, h')) ↔
      C.hsdcsEnable = true ∧ C.warmup = false ∧ C.hsdcsType = true ∧ Servable C := by
  constructor
  · rintro ⟨σ, hw, c, h', hval⟩
    obtain ⟨-, -, hup⟩ := keeps_hsdcsMacroInit.ends hw hval
    obtain ⟨⟨henable, hwarm, htype⟩, -, -, -, -, ⟨m, s₀, -, -, hadc⟩, d, hdac⟩ := hup rfl
    refine ⟨henable, hwarm, htype, ?_, ?_, hadc.servable⟩
    · rw [hdac.enabled]
      rfl
    · rw [hadc.enabled]
      rfl
  · rintro ⟨henable, hwarm, htype, hC⟩
    obtain ⟨rs, ⟨ret, h'⟩, hval, hret⟩ := exists_run_of_can (can_hsdcsMacroInit henable hwarm htype hC)
    obtain rfl : ret = 0 := hret
    exact ⟨List Answer, oracle, rs, h', hval⟩

end BringUp
end Dcs
end La12xx
