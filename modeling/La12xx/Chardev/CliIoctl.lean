/-
# The ioctls of the command-line device

`gul_cli_dev_ioctl`. Registering and deregistering check the modem of the copied
structure. The message to a modem and the dump of a core's log take the modem,
and the core, from the user's memory again. The return is 0 whatever happens after the
copy, also for a command that does not exist.
-/
import La12xx.Chardev.Arrays
import La12xx.Log.Ring

namespace La12xx
namespace Chardev

open Access

/-- The commands of the command-line device. -/
inductive CliCmd where
  | registerEventfd
  | deregisterEventfd
  | sendMsiToModem
  | dumpCoreLog
  | other
deriving DecidableEq, Repr

/-- `struct cli_mbox` -/
structure CliMbox where
  msgId : BitVec 32
  data : BitVec 32
  data2 : BitVec 32
  data3 : BitVec 32
deriving DecidableEq, Repr

/-- The user's structure: how much of it cannot be copied, the ids in the copy and at later
reads, and the other members. -/
structure CliCall where
  notCopied : ℕ
  copy : BitVec 32
  id : ℕ → BitVec 32
  coreId : ℕ → BitVec 32
  eventFd : ℤ
  file : Notify.File
  mbox : CliMbox

/-- What is behind an element of `gul_dev`: the mailbox of the host, how often
`HOST_CLI_IRQ` was raised, and the logs, by core. -/
structure CliModem where
  cliHostMbox : CliMbox
  rung : ℕ
  epLog : ℤ → Log.EpLog

/-- The memory of the device by index, inside the arrays and out. -/
structure CliMem where
  evt : ℤ → Notify.Priv
  dev : ℤ → Option CliModem

section Commands

variable (c : CliCall) (s : CliMem)

/-- The request of a register command; the interrupt is not touched. -/
def CliCall.request : Notify.Request := ⟨c.notCopied = 0, c.copy.toNat, c.eventFd, c.file, 0⟩

/-- The two commands that check the index work on the record alone. -/
def cliOnEvt (f : Notify.Priv → Notify.Priv × Notify.Ret) : Outcome Arr (List ByteMem.Byte) CliMem :=
  if c.notCopied ≠ 0 ∨ Notify.maxModem ≤ c.copy.toNat then .done (-Notify.efault) s
  else
    let i := idx c.copy
    -- the value of `ret` is dropped, but a call that does not return does not
    ⟨[(.cliPriv, i)], (retOf (f (s.evt i)).2).map fun _ => 0, none,
      { s with evt := Function.update s.evt i (f (s.evt i)).1 }⟩

/-- `IOCTL_GUL_CLI_SEND_MSI_TO_MODEM` -/
def sendMsiToModem : Outcome Arr (List ByteMem.Byte) CliMem :=
  let i := idx (c.id 0)
  match s.dev i with
  | none => ⟨[(.gulDev, i)], none, none, s⟩
  | some m =>
    ⟨[(.gulDev, i)], some 0, none,
      { s with dev := Function.update s.dev i (some { m with cliHostMbox := c.mbox, rung := m.rung + 1 }) }⟩

/-- The log after a dump, and what is printed; it is looked for as in `show_ep_log`. -/
def dumpLog (log : Log.EpLog) : Log.EpLog × List ByteMem.Byte :=
  let r := Log.collectEpLog log
  if r.2 = [] then Log.scanLoop log.buf.length 0 r.1 [] else r

/-- `IOCTL_GUL_CLI_DUMP_CORE_LOG` -/
def dumpCoreLog : Outcome Arr (List ByteMem.Byte) CliMem :=
  let i := idx (c.id 0)
  let k := idx (c.coreId 0)
  match s.dev i with
  | none => ⟨[(.gulDev, i), (.epLog, k)], none, none, s⟩
  | some m =>
    let r := dumpLog (m.epLog k)
    ⟨[(.gulDev, i), (.epLog, k)], some 0, some r.2,
      { s with dev := Function.update s.dev i (some { m with epLog := Function.update m.epLog k r.1 }) }⟩

/-- `gul_cli_dev_ioctl`, which returns 0 in place of `-ENOTTY`. -/
def gulCliDevIoctl : CliCmd → Outcome Arr (List ByteMem.Byte) CliMem
  | .registerEventfd => cliOnEvt c s (Notify.cliRegister c.request)
  | .deregisterEventfd => cliOnEvt c s Notify.cliDeregister
  | .sendMsiToModem => copied c.notCopied s (sendMsiToModem c s)
  | .dumpCoreLog => copied c.notCopied s (dumpCoreLog c s)
  | .other => .done 0 s

/-- When a command of the command-line device has its indices in range. -/
def CliChecked (coreMax : ℕ) : CliCmd → Prop
  | .registerEventfd | .deregisterEventfd | .other => True
  | .sendMsiToModem => c.notCopied = 0 → (c.id 0).toNat < Notify.maxModem
  | .dumpCoreLog => c.notCopied = 0 → (c.id 0).toNat < Notify.maxModem ∧ (c.coreId 0).toNat < coreMax

end Commands

section Commands

variable {coreMax : ℕ} {c : CliCall} {s : CliMem}

theorem validated_cliOnEvt {f : Notify.Priv → Notify.Priv × Notify.Ret} :
    Validated (Arr.size coreMax) Eq s (cliOnEvt c s f) := by
  unfold cliOnEvt
  split
  case isTrue => exact validated_done _
  case isFalse h =>
    rw [not_or, not_le] at h
    refine .inl fun a ha => ?_
    rw [List.mem_singleton.mp ha]
    exact idx_range_iff.mpr h.2

theorem validated_sendMsiToModem :
    Validated (Arr.size coreMax) Eq s (sendMsiToModem c s) ↔ (c.id 0).toNat < Notify.maxModem := by
  have hrange : InRange (Arr.size coreMax) (.gulDev, idx (c.id 0)) ↔ (c.id 0).toNat < Notify.maxModem := idx_range_iff
  simp only [sendMsiToModem]
  cases s.dev (idx (c.id 0)) with
  | none =>
    rw [validated_iff_contained (by simp)]
    simp [hrange]
  | some m =>
    rw [validated_iff_contained (by simp)]
    simp [hrange]

theorem validated_dumpCoreLog : Validated (Arr.size coreMax) Eq s (dumpCoreLog c s) ↔
    (c.id 0).toNat < Notify.maxModem ∧ (c.coreId 0).toNat < coreMax := by
  have hrange : InRange (Arr.size coreMax) (.gulDev, idx (c.id 0)) ↔ (c.id 0).toNat < Notify.maxModem := idx_range_iff
  have hcore : InRange (Arr.size coreMax) (.epLog, idx (c.coreId 0)) ↔ (c.coreId 0).toNat < coreMax := idx_range_iff
  simp only [dumpCoreLog]
  cases s.dev (idx (c.id 0)) with
  | none =>
    rw [validated_iff_contained (by simp)]
    simp [hrange, hcore]
  | some m =>
    rw [validated_iff_contained (by simp)]
    simp [hrange, hcore]

/-- The command-line device checks its indices exactly as `CliChecked` says. -/
theorem cli_validated_iff (cmd : CliCmd) :
    Validated (Arr.size coreMax) Eq s (gulCliDevIoctl c s cmd) ↔ CliChecked c coreMax cmd := by
  cases cmd with
  | registerEventfd => exact iff_of_true validated_cliOnEvt trivial
  | deregisterEventfd => exact iff_of_true validated_cliOnEvt trivial
  | sendMsiToModem => rw [gulCliDevIoctl, validated_copied, validated_sendMsiToModem, CliChecked]
  | dumpCoreLog => rw [gulCliDevIoctl, validated_copied, validated_dumpCoreLog, CliChecked]
  | other => exact iff_of_true (validated_done _) trivial

end Commands

end Chardev
end La12xx
