/-
# The SIM interface

`gul_usim.c`: the routines that power the interface up and down and the ioctls
of its device. The driver keeps in `sim_t` whether a card is there and whether it
is powered; the port of the hardware has the supply bit `SVEN` in
`usim_port0_cntl` and the detection pin in `usim_port0_detect`.

The registers are what was written to them. What the card sends, whether a
copy from or to user space succeeds, and what the user's structures hold comes
with the request.
-/
import La12xx.Lib.ByteMem
import La12xx.Lib.Machine

namespace La12xx
namespace Sim

open ByteMem Machine

/-! ### Registers -/

/-- The registers of `struct usim_regs_map` that the driver uses. -/
inductive Reg where
  | setup
  | xmtBuff
  | port0Cntl
  | cntl
  | clkPrescaler
  | rcvThreshold
  | enable
  | xmtStatus
  | rcvStatus
  | intMask
  | port0Detect
  | xmtThreshold
  | guardCntl
  | odConfig
  | resetCntl
  | charWait
  | gpcnt
  | divisor
deriving DecidableEq, Repr

abbrev Word32 := BitVec 32

abbrev Regs := Reg → Word32

def writel (v : Word32) (r : Reg) (regs : Regs) : Regs := Function.update regs r v

/-- A register is read and written back with the bits set. -/
def setBits (bits : Word32) (r : Reg) (regs : Regs) : Regs := writel (regs r ||| bits) r regs

/-- A register is read and written back with the bits cleared. -/
def clearBits (bits : Word32) (r : Reg) (regs : Regs) : Regs := writel (regs r &&& ~~~bits) r regs

/-- `SIM_PORT_CNTL_SVEN` -/
def portCntlSven : Word32 := 0x02
/-- `SIM_PORT_CNTL_STEN` -/
def portCntlSten : Word32 := 0x04
/-- `SIM_PORT_CNTL_SRST` -/
def portCntlSrst : Word32 := 0x08
/-- `SIM_PORT_CNTL_SCEN` -/
def portCntlScen : Word32 := 0x10
/-- `SIM_PORT_CNTL_3VOLT` -/
def portCntl3Volt : Word32 := 0x40

/-- `SIM_PORT_DETECT_SDIM` -/
def portDetectSdim : Word32 := 0x01
/-- `SIM_PORT_DETECT_SDI` -/
def portDetectSdi : Word32 := 0x02
/-- `SIM_PORT_DETECT_SPDS` -/
def portDetectSpds : Word32 := 0x08

/-! ### The device -/

/-- `sim->present` -/
inductive Present where
  | removed
  | detected
  | operational
deriving DecidableEq, Repr

/-- `sim->power` -/
inductive Power where
  | off
  | on
deriving DecidableEq, Repr

/-- `sim->state`, those states that are ever set -/
inductive SimState where
  | removed
  | operationalCommand
  | operationalPpss
  | detectedAtrT0
deriving DecidableEq, Repr

/-- `usim_state_t` -/
inductive UsimState where
  | connected
  | disconnected
  | invalidated
  | changed
deriving DecidableEq, Repr

/-- `sim_xfer_t`, without the pointers of the user -/
structure Xfer where
  xmtLength : ℤ
  rcvLength : ℤ
  type : ℤ
  timeout : ℤ
  sw1 : Byte
  sw2 : Byte
deriving DecidableEq, Repr

/-- `struct sim_t` -/
structure SimT where
  present : Present
  state : SimState
  status : UsimState
  power : Power
  clkPrescaler : Word32
  /-- the bytes of `atr`, at most 32 -/
  atr : List Byte
  xfer : Xfer
  rcvCount : ℕ
  rcvBuffer : List Byte
  xmtBuffer : List Byte
deriving DecidableEq, Repr

/-- `struct usim_dev`, with the SCFG register of the clock -/
structure Dev where
  regs : Regs
  scfgConfigCtrl1 : Word32
  sim : SimT

/-- The supply of the card is on: `SIM_PORT_CNTL_SVEN`. -/
def Dev.sven (d : Dev) : Bool := (d.regs .port0Cntl).getLsbD 1

/-- The pin says that the card was removed: `SIM_PORT_DETECT_SPDP`. -/
def Dev.spdp (d : Dev) : Bool := (d.regs .port0Detect).getLsbD 2

/-! ### Power -/

/-- `sim_power_on` -/
def simPowerOn (d : Dev) : Dev :=
  let regs := setBits portCntlSven .port0Cntl d.regs
  let regs := setBits portCntlScen .port0Cntl regs
  let regs := writel 0x001 .rcvThreshold regs
  let regs := writel 0x20 .rcvStatus regs
  let regs := clearBits 0x101 .intMask regs
  let regs := writel 31 .divisor regs
  let regs := setBits 0x10 .cntl regs
  let regs := setBits 0x01 .enable regs
  let regs := setBits portCntlSrst .port0Cntl regs
  { d with regs := regs, sim := { d.sim with power := .on } }

/-- `sim_power_off` -/
def simPowerOff (d : Dev) : Dev :=
  let regs := clearBits portCntlScen .port0Cntl d.regs
  let regs := clearBits 0x01 .enable regs
  let regs := setBits 0x01 .intMask regs
  let regs := writel 0 .rcvThreshold regs
  let regs := clearBits portCntlSrst .port0Cntl regs
  let regs := clearBits portCntlSven .port0Cntl regs
  { d with regs := regs, sim := { d.sim with power := .off } }

/-- `usim_init_clk` -/
def usimInitClk (d : Dev) : Dev :=
  { d with
    scfgConfigCtrl1 := d.scfgConfigCtrl1 ||| 0x00800000
    sim := { d.sim with clkPrescaler := 0x1f } }

/-- What `sim_start` and `usim_card_detect` do about the card: the pin is
noted in the register and in `sim_t`, and the detection interrupt armed. -/
def detect (d : Dev) : Dev :=
  let d :=
    if d.spdp then
      { d with
        regs := clearBits portDetectSpds .port0Detect d.regs
        sim := { d.sim with present := .removed, state := .removed } }
    else
      { d with
        regs := setBits portDetectSpds .port0Detect d.regs
        sim := { d.sim with present := .detected, state := .detectedAtrT0 } }
  { d with regs := clearBits portDetectSdim .port0Detect (setBits portDetectSdi .port0Detect d.regs) }

/-- `usim_card_detect` -/
def usimCardDetect (d : Dev) : Dev :=
  let d' := detect d
  { d' with sim := { d'.sim with status := if d.spdp then .disconnected else .connected } }

/-- The configuration in `sim_start`. -/
def configure (regs : Regs) : Regs :=
  let regs := writel 0x05 .xmtThreshold regs
  let regs := writel 0 .setup regs
  let regs := writel 0x1d6 .cntl regs
  let regs := writel 31 .divisor regs
  let regs := setBits 0x01 .odConfig regs
  setBits (portCntl3Volt ||| portCntlSten) .port0Cntl regs

/-- `sim_start` -/
def simStart (d : Dev) : Dev :=
  let d := usimInitClk { d with sim := { d.sim with atr := [] } }
  let d := detect { d with regs := configure d.regs }
  if d.sim.present = .detected then simPowerOn d else d

/-- `sim_stop` -/
def simStop (d : Dev) : Dev :=
  let regs := writel 0 .setup d.regs
  let regs := writel 0 .enable regs
  let regs := writel 0 .port0Cntl regs
  let regs := writel 0x06 .cntl regs
  let regs := writel 0 .clkPrescaler regs
  let regs := writel 0 .setup regs
  let regs := writel 0 .odConfig regs
  let regs := writel 0 .xmtThreshold regs
  let regs := writel 0xb8 .xmtStatus regs
  { d with regs := writel 4 .resetCntl regs }

/-! ### Resets -/

/-- `sim_data_reset` -/
def simDataReset (d : Dev) : Dev :=
  { d with
    sim :=
      { d.sim with
        present := .removed
        state := .removed
        power := .off
        atr := []
        xfer := ⟨0, 0, 0, 0, 0, 0⟩
        rcvCount := 0
        rcvBuffer := List.replicate 256 0
        xmtBuffer := List.replicate 256 0 } }

/-- `sim_cold_reset` -/
def simColdReset (d : Dev) : Dev :=
  if d.sim.present ≠ .removed then
    let d := simDataReset (simStop (simPowerOff d))
    let d := { d with sim := { d.sim with state := .detectedAtrT0, present := .detected } }
    simPowerOn (simStart d)
  else d

/-- `sim_warm_reset` -/
def simWarmReset (d : Dev) : Dev :=
  if d.sim.present ≠ .removed then
    let d := simDataReset { d with regs := setBits portCntlSrst .port0Cntl d.regs }
    { d with regs := clearBits portCntlSrst .port0Cntl d.regs }
  else d

/-! ### Opening the device -/

/-- `delay_clk` -/
def delayClk (cycles : Word32) (regs : Regs) : Regs :=
  let regs := writel (regs .cntl &&& 0xf9ff) .cntl regs
  let regs := writel 0x100 .xmtStatus regs
  let regs := writel cycles .gpcnt regs
  setBits 0x200 .cntl regs

/-- `clear_gpcnt_counter` -/
def clearGpcntCounter (regs : Regs) : Regs :=
  writel 0x100 .xmtStatus (writel (regs .cntl &&& 0xf9ff) .cntl regs)

/-- The activation of the card in `sim_init`. -/
def activate (clkPre : Word32) (regs : Regs) : Regs :=
  let regs := writel 0x40 .port0Cntl regs
  let regs := writel 0x42 .port0Cntl regs
  let regs := writel 0x1 .odConfig regs
  let regs := writel clkPre .clkPrescaler regs
  let regs := writel 0x46 .port0Cntl regs
  let regs := writel 0xfe .guardCntl regs
  let regs := writel 0x16 .cntl regs
  let regs := writel 0x3 .xmtThreshold regs
  let regs := writel 0xf23 .rcvStatus regs
  let regs := writel 0x56 .port0Cntl regs
  let regs := clearGpcntCounter (delayClk 0x190 regs)
  let regs := writel 0x5e .port0Cntl regs
  let regs := delayClk 0x9c40 regs
  let regs := writel (regs .intMask &&& 0x3dff) .intMask regs
  let regs := writel 0x2580 .charWait regs
  let regs := setBits 0x800 .cntl regs
  writel 0x01 .enable regs

/-- `sim_init`; `atr` is what the card sends. -/
def simInit (atr : List Byte) (d : Dev) : Dev :=
  let clkPre := d.sim.clkPrescaler
  let d := usimCardDetect (usimInitClk d)
  { d with regs := activate clkPre d.regs, sim := { d.sim with atr := atr.take 32 } }

/-- `sim_open` -/
def simOpen (atr : List Byte) (d : Dev) : Dev :=
  let d := simInit atr d
  { d with sim := { d.sim with status := .connected, present := .operational } }

/-! ### A transfer -/

/-- What an XFER request finds: the user's structure and bytes as they are after
the copies, whether each of the four copies succeeded, what the card sends
before the driver gives up, and the byte the driver reads at index `2^32 - 1` of
the receive buffer after an answer of one byte. -/
structure XferIo where
  copiedXfer : Bool
  xfer : Xfer
  copiedXmt : Bool
  xmt : List Byte
  received : List Byte
  beyond : Byte
  copiedRcv : Bool
  copiedBack : Bool
deriving DecidableEq, Repr

/-- One byte is sent, and `wait_for_tc`. -/
def sendByte (regs : Regs) (b : Byte) : Regs := writel 0x38 .xmtStatus (writel (b.zeroExtend 32) .xmtBuff regs)

/-- `SIM_E_NOCARD`, as `usim_xfer` returns it -/
def noCard : ℤ := 9

/-- The end of `usim_xfer`, for the bytes that were read: `last` is `rcv_len - 1`. -/
def usimXferRet (last : ℕ) (rcv : List Byte) (beyond : Byte) : ℤ :=
  let i := if rcv.length = last + 1 then last else rcv.length
  let sw1 := if i = 1 then beyond else rcv.getD (i - 2) 0
  if i = 0 then noCard
  else if i < last then noCard
  else if sw1 = 0x90 ∧ rcv.getD (i - 1) 0 = 0x00 then 0
  else if sw1 = 0x9f ∨ sw1 = 0x61 then 0
  else -1

/-- `usim_xfer`: of a SELECT the driver sends five bytes, and the others when
the card has answered with the instruction byte. -/
def usimXfer (d : Dev) (cmd : List Byte) (rcvLength : ℤ) (received : List Byte) (beyond : Byte) : Dev × ℤ :=
  let rcvLen : Word32 := BitVec.ofInt 32 rcvLength
  let last := (rcvLen - 1).toNat
  let rcv := received.take (last + 1)
  let regs := writel 0x3 .enable d.regs
  let regs := writel 0x0 .resetCntl (writel 0x3 .resetCntl regs)
  let regs := writel 0x1b9 .xmtStatus regs
  let regs := setBits (rcvLen &&& 0x1ff) .rcvThreshold regs
  let regs := (if cmd.getD 1 0 = 0xa4 then cmd.take 5 else cmd).foldl sendByte regs
  let regs := writel 0xf23 .rcvStatus regs
  let regs := (rcv.filter (· = 0xa4)).foldl (fun regs _ => (cmd.drop 5).foldl sendByte regs) regs
  ({ d with regs := regs, sim := { d.sim with rcvBuffer := rcv ++ d.sim.rcvBuffer.drop rcv.length } },
    usimXferRet last rcv beyond)

/-- `SIM_IOCTL_XFER` from the check of the lengths on -/
def xferChecked (d : Dev) (io : XferIo) : Dev × ℤ :=
  if d.sim.xfer.xmtLength > 256 then (d, -5)
  else if d.sim.xfer.rcvLength > 256 then (d, -6)
  else
    let r := usimXfer d (d.sim.xmtBuffer.take d.sim.xfer.xmtLength.toNat) d.sim.xfer.rcvLength io.received io.beyond
    let errval := if r.2 = noCard then -9 else 0
    if ¬ io.copiedRcv then (r.1, -1)
    else if ¬ io.copiedBack then (r.1, -1)
    else (r.1, errval)

/-- `SIM_IOCTL_XFER` -/
def ioctlXfer (d : Dev) (io : XferIo) : Dev × ℤ :=
  if d.sim.present ≠ .operational ∧ d.sim.present ≠ .detected then (d, -9)
  else
    let d := { d with sim := { d.sim with xfer := io.xfer } }
    if ¬ io.copiedXfer then (d, -1)
    else
      let d := { d with sim := { d.sim with xmtBuffer := io.xmt } }
      if ¬ io.copiedXmt then (d, -1)
      else
        let d := { d with sim := { d.sim with rcvCount := 0, xfer := { io.xfer with sw1 := 0, sw2 := 0 } } }
        if io.xfer.type = 0 then
          if io.xfer.xmtLength < 5 then (d, -2)
          else xferChecked { d with sim := { d.sim with state := .operationalCommand } } io
        else if io.xfer.type = 1 then
          if io.xfer.xmtLength = 0 then (d, -3)
          else xferChecked { d with sim := { d.sim with state := .operationalPpss } } io
        else (d, -4)

/-! ### The ioctls -/

/-- A request to the open device; `copied` is the success of its
`copy_to_user`. -/
inductive Ioctl where
  | getAtr (copied : Bool)
  | powerOn
  | powerOff
  | coldReset
  | warmReset
  | xfer (io : XferIo)
  | getPhyAdd (copied : Bool)
  | cardLock
  | cardEject
  | status (copied : Bool)
  | invalidate
  /-- any other number -/
  | other
deriving DecidableEq, Repr

/-- `sim_card_lock` and `sim_card_eject` -/
def simCardLock (d : Dev) : ℤ := if d.sim.present ≠ .removed then 0 else -9

/-- `sim_ioctl` -/
def simIoctl (d : Dev) : Ioctl → Dev × ℤ
  | .getAtr copied =>
    if d.sim.present ≠ .operational ∧ d.sim.present ≠ .detected then (d, -9)
    else (d, if copied then 0 else -1)
  | .powerOn => if d.sim.power = .on then (d, -17) else (simPowerOn d, 0)
  | .powerOff => if d.sim.power = .off then (d, -18) else (simPowerOff d, 0)
  | .coldReset => if d.sim.power = .off then (d, -18) else (simColdReset d, 0)
  | .warmReset =>
    let d := simWarmReset d
    (d, if d.sim.power = .off then -18 else 0)
  | .xfer io => ioctlXfer d io
  | .getPhyAdd copied => (d, if copied then 0 else -1)
  | .cardLock => (d, simCardLock d)
  | .cardEject => (d, simCardLock d)
  | .status copied => (usimCardDetect d, if copied then 0 else -1)
  | .invalidate => ({ d with sim := { d.sim with status := .invalidated } }, 0)
  | .other => (d, 0)

end Sim
end La12xx
