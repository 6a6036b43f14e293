/-
# Registering for notifications

The TTI, watchdog, TVD and CLI devices each let a user register an event
descriptor: `evt_fd_ctxt` of a record keeps the context, and deregistering
releases it. The first two request their interrupt while they register and
free it again; the interrupts of the other two belong to the probe. The four
pairs are copies of one another with their guards in different places.

Next to the fields of a record stands what the kernel has counted: how often
the interrupt is requested, and the references taken and released. A call that
dereferences a pointer it cannot does not return (`oops`) and leaves the record as
it was at that moment; a request whose index is outside the records of the device
works on other memory, of which nothing is known afterwards (`wild`).
-/
import La12xx.Lib.Machine

namespace La12xx
namespace Notify

/-- `EFAULT` -/
def efault : ℤ := 14

/-- `EINVAL` -/
def einval : ℤ := 22

/-- `MAX_MODEM` -/
def maxModem : ℕ := 4

/-- What the descriptor of a request names in the table of the caller. -/
inductive File where
  | closed
  | other
  | eventfd
deriving DecidableEq, Repr

/-- What `evt_fd_ctxt` holds: nothing, a context, an error in place of a pointer,
or what was in the memory before. -/
inductive Ctxt where
  | null
  | ctx
  | err
  | unset
deriving DecidableEq, Repr

/-- A record of a device: its interrupt, `tti_irq_status` or `irq_status_flag`, and
`evt_fd_ctxt`; and the counts of the kernel. `freedIdle` says that `free_irq` was
called for an interrupt that was not requested. -/
structure Priv where
  irq : ℤ
  irqStatus : Bool
  evtFdCtxt : Ctxt
  requested : ℕ
  freedIdle : Bool
  taken : ℕ
  released : ℕ
deriving DecidableEq, Repr

/-- How a call ends. -/
inductive Ret where
  | rc (n : ℤ)
  | oops
deriving DecidableEq, Repr

/-- A request: whether the argument can be copied, the index and the descriptor in
it, what the descriptor names, and what `request_irq` would return. -/
structure Request where
  copied : Bool
  id : ℕ
  eventfd : ℤ
  file : File
  irqRc : ℤ
deriving DecidableEq, Repr

/-! ### Kernel calls -/

/-- `eventfd_ctx_fileget`, which reads through the pointer it is given. -/
def eventfdCtxFileget (p : Priv) : File → Option Priv
  | .closed => none
  | .other => some { p with evtFdCtxt := .err }
  | .eventfd => some { p with evtFdCtxt := .ctx, taken := p.taken + 1 }

/-- `eventfd_ctx_put` of the context of the record, if there is one, which is then
forgotten. -/
def putEventfd (p : Priv) : Option Priv :=
  match p.evtFdCtxt with
  | .null => some p
  | .ctx => some { p with evtFdCtxt := .null, released := p.released + 1 }
  | .err => none
  | .unset => none

/-- `request_irq`, when it succeeds. -/
def requestIrq (p : Priv) : Priv := { p with irqStatus := true, requested := p.requested + 1 }

/-- `free_irq` -/
def freeIrq (p : Priv) : Priv :=
  { p with
    irqStatus := false
    requested := p.requested - 1
    freedIdle := p.freedIdle || p.requested == 0 }

/-- The lookup of the descriptor, the same in all four drivers. -/
def takeEventfd (r : Request) (p : Priv) : Option Priv :=
  if 0 < r.eventfd then eventfdCtxFileget p r.file else some p

/-- The end of a call: it returns `n`, or it does not return and has done `p`. -/
def finish (p : Priv) (n : ℤ) : Option Priv → Priv × Ret
  | some p' => (p', .rc n)
  | none => (p, .oops)

/-! ### TTI -/

def ttiRegisterIrq (r : Request) (p : Priv) : Priv × Ret :=
  let p := { p with evtFdCtxt := .null }
  if p.irq ≠ 0 then
    if p.irqStatus = false then
      if r.irqRc < 0 then (p, .rc r.irqRc)
      else finish (requestIrq p) r.irqRc (takeEventfd r (requestIrq p))
    else finish p 0 (takeEventfd r p) -- the interrupt is busy, which is no error
  else (p, .rc (-einval))

/-- `tti_deregister_irq`: whether the interrupt is requested is not asked. -/
def ttiDeregisterIrq (p : Priv) : Priv × Ret := finish (freeIrq p) 0 (putEventfd (freeIrq p))

/-! ### Watchdog -/

/-- The error exit of `wdog_register_irq`. -/
def wdogRegisterErr (p : Priv) (ret : ℤ) : Priv × Ret := finish p ret (putEventfd p)

/-- `wdog_register_irq` once the descriptor is looked up. -/
def wdogRequestIrq (r : Request) (p : Priv) : Priv × Ret :=
  if p.irq ≠ 0 then
    if p.irqStatus = false then
      if r.irqRc < 0 then wdogRegisterErr p r.irqRc else (requestIrq p, .rc 0)
    else (p, .rc 0)
  else wdogRegisterErr p (-einval)

def wdogRegisterIrq (r : Request) (p : Priv) : Priv × Ret :=
  let p := { p with evtFdCtxt := .null }
  match takeEventfd r p with
  | some p' => wdogRequestIrq r p'
  | none => (p, .oops)

def wdogDeregisterIrq (p : Priv) : Priv × Ret :=
  let p := if p.irqStatus = true then freeIrq p else p
  finish p 0 (putEventfd p)

/-! ### TVD and CLI -/

/-- Registering where the interrupt is not touched. -/
def evefdRegister (r : Request) (p : Priv) : Priv × Ret :=
  let p := { p with evtFdCtxt := .null }
  finish p 0 (takeEventfd r p)

/-- Deregistering where the interrupt is not touched. -/
def evefdDeregister (p : Priv) : Priv × Ret := finish p 0 (putEventfd p)

/-- `IOCTL_GUL_TVD_REGISTER_EVEFD` -/
def tvdRegister : Request → Priv → Priv × Ret := evefdRegister

/-- `IOCTL_GUL_TVD_DEREGISTER_EVEFD` -/
def tvdDeregister : Priv → Priv × Ret := evefdDeregister

/-- `IOCTL_GUL_CLI_REGISTER_EVENTFD` -/
def cliRegister : Request → Priv → Priv × Ret := evefdRegister

/-- `IOCTL_GUL_CLI_DEREGISTER_EVENTFD` -/
def cliDeregister : Priv → Priv × Ret := evefdDeregister

/-! ### Devices -/

/-- The records of a device. -/
structure Device where
  privs : List Priv
  wild : Bool
deriving DecidableEq, Repr

inductive Req where
  | register (r : Request)
  | deregister (r : Request)
deriving DecidableEq, Repr

def Req.args : Req → Request
  | .register r => r
  | .deregister r => r

/-- A call on record `i`. -/
def Device.call (d : Device) (i : ℕ) (f : Priv → Priv × Ret) : Device × Ret :=
  match d.privs[i]? with
  | some p => ({ d with privs := d.privs.set i (f p).1 }, (f p).2)
  | none => ({ d with wild := true }, .oops)

/-- `gul_tti_dev_ioctl`: the device has one record, whatever index is given. -/
def gulTtiDevIoctl (d : Device) (req : Req) : Device × Ret :=
  if ¬ req.args.copied then (d, .rc (-efault))
  else match req with
    | .register r => d.call 0 (ttiRegisterIrq r)
    | .deregister _ => d.call 0 ttiDeregisterIrq

/-- `gul_wdog_dev_ioctl`: the device has one record, and the index that is given is
used as it is. -/
def gulWdogDevIoctl (d : Device) (req : Req) : Device × Ret :=
  if ¬ req.args.copied then (d, .rc (-efault))
  else match req with
    | .register r => d.call r.id (wdogRegisterIrq r)
    | .deregister r => d.call r.id wdogDeregisterIrq

/-- `gul_tvd_dev_ioctl`: only registering checks the index. -/
def gulTvdDevIoctl (d : Device) (req : Req) : Device × Ret :=
  match req with
  | .register r =>
    if ¬ r.copied ∨ maxModem ≤ r.id then (d, .rc (-efault)) else d.call r.id (tvdRegister r)
  | .deregister r => if ¬ r.copied then (d, .rc (-efault)) else d.call r.id tvdDeregister

/-- `gul_cli_dev_ioctl` -/
def gulCliDevIoctl (d : Device) (req : Req) : Device × Ret :=
  if ¬ req.args.copied ∨ maxModem ≤ req.args.id then (d, .rc (-efault))
  else match req with
    | .register r => d.call r.id (cliRegister r)
    | .deregister r => d.call r.id cliDeregister

inductive Kind where
  | tti
  | wdog
  | tvd
  | cli
deriving DecidableEq, Repr

namespace Kind

/-- How many records a device has. -/
def size : Kind → ℕ
  | .tti => 1
  | .wdog => 1
  | .tvd => maxModem
  | .cli => maxModem

def ioctl : Kind → Device → Req → Device × Ret
  | .tti => gulTtiDevIoctl
  | .wdog => gulWdogDevIoctl
  | .tvd => gulTvdDevIoctl
  | .cli => gulCliDevIoctl

/-- The record a request gets to, if it is not refused. -/
def target (k : Kind) (req : Req) : Option ℕ :=
  if ¬ req.args.copied then none
  else match k with
    | .tti => some 0
    | .wdog => some req.args.id
    | .tvd =>
      match req with
      | .register r => if maxModem ≤ r.id then none else some r.id
      | .deregister r => some r.id
    | .cli => if maxModem ≤ req.args.id then none else some req.args.id

/-- What a request does to its record. -/
def handle (k : Kind) : Req → Priv → Priv × Ret
  | .register r =>
    match k with
    | .tti => ttiRegisterIrq r
    | .wdog => wdogRegisterIrq r
    | .tvd => tvdRegister r
    | .cli => cliRegister r
  | .deregister _ =>
    match k with
    | .tti => ttiDeregisterIrq
    | .wdog => wdogDeregisterIrq
    | .tvd => tvdDeregister
    | .cli => cliDeregister

end Kind

/-- A request is refused, or it does its work on one record. -/
theorem ioctl_eq_target (k : Kind) (d : Device) (req : Req) :
    k.ioctl d req = ((k.target req).map fun i => d.call i (k.handle req)).getD (d, .rc (-efault)) := by
  cases req with
  | register r =>
    by_cases hc : r.copied = true <;> by_cases hi : maxModem ≤ r.id <;> cases k <;>
      simp [Kind.ioctl, Kind.target, Kind.handle, gulTtiDevIoctl, gulWdogDevIoctl, gulTvdDevIoctl, gulCliDevIoctl,
        Req.args, hc, hi]
  | deregister r =>
    by_cases hc : r.copied = true <;> by_cases hi : maxModem ≤ r.id <;> cases k <;>
      simp [Kind.ioctl, Kind.target, Kind.handle, gulTtiDevIoctl, gulWdogDevIoctl, gulTvdDevIoctl, gulCliDevIoctl,
        Req.args, hc, hi]

/-- A record as the driver creates it, over memory with `c` in it. -/
def Priv.new (irq : ℤ) (c : Ctxt) : Priv := ⟨irq, false, c, 0, false, 0, 0⟩

/-- A device as the driver creates it. The memory of the TVD and CLI devices is
cleared, that of the others is as it comes. -/
def Device.new (k : Kind) (irq : ℕ → ℤ) (c : ℕ → Ctxt) : Device :=
  ⟨(List.range k.size).map fun i => .new (irq i) (c i), false⟩

end Notify
end La12xx
