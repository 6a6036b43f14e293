/-
# The ioctls of the watchdog device

`gul_wdog_dev_ioctl`. The device has one record, and its commands use the index of
the copied structure as it is; only the reset compares it, with `MAX_MODEM`. What lies
behind another index is an arbitrary record. Registering works on the record like
`Notify.wdogRegisterIrq`, after it has marked the first one.
-/
import La12xx.Chardev.Arrays

namespace La12xx
namespace Chardev

open Access

/-- The commands of the watchdog device. -/
inductive WdogCmd where
  | register
  | deregister
  | reset
  | getStatus
  | getDomain
  | other
deriving DecidableEq, Repr

/-- The user's structure, and what others do: `back` says that it can be copied back, `irqRc` is
what `request_irq` would return, and `removed` which modems are, or will be, gone from the bus. -/
structure WdogCall where
  notCopied : ℕ
  wdogid : BitVec 32
  wdogEventfd : ℤ
  file : Notify.File
  irqRc : ℤ
  back : Bool
  removed : ℤ → Bool

/-- `struct wdog_priv` -/
structure WdogPriv where
  evt : Notify.Priv
  gpio : ℤ
  wdogId : ℤ
  wdogModemStatus : ℤ
  domainNr : ℤ
  uspaceRegistered : Bool
deriving DecidableEq, Repr

/-- The memory of the device by index, inside the array and out, and
`wdog_handler_notifier`. -/
structure WdogMem where
  priv : ℤ → WdogPriv
  notifier : ℤ → ℤ

namespace WdogMem

def setPriv (s : WdogMem) (i : ℤ) (p : WdogPriv) : WdogMem := { s with priv := Function.update s.priv i p }

/-- `wdog_handler_notifier` of the first record becomes `v`. -/
def setNotifier (s : WdogMem) (v : ℤ) : WdogMem :=
  { s with notifier := Function.update s.notifier (s.priv 0).wdogId v }

variable (s : WdogMem) {i j : ℤ} {p : WdogPriv} {v : ℤ}

@[simp] theorem setPriv_self : (s.setPriv i p).priv i = p := Function.update_self ..

theorem setPriv_of_ne (hne : j ≠ i) : (s.setPriv i p).priv j = s.priv j := Function.update_of_ne hne ..

@[simp] theorem setPriv_notifier : (s.setPriv i p).notifier = s.notifier := rfl

@[simp] theorem setNotifier_priv : (s.setNotifier v).priv = s.priv := rfl

theorem setNotifier_eq_iff : (s.setNotifier v).notifier = s.notifier ↔ s.notifier (s.priv 0).wdogId = v :=
  Function.update_eq_self_iff.trans eq_comm

end WdogMem

/-- The fields of a record, without what the kernel counts. -/
def fields (p : Notify.Priv) : Notify.Priv := { p with requested := 0, freedIdle := false, taken := 0, released := 0 }

def WdogPriv.fields (p : WdogPriv) : WdogPriv := { p with evt := Chardev.fields p.evt }

/-- Two states with the same records and the same marks. -/
def SameWdog (s t : WdogMem) : Prop := (∀ i, (s.priv i).fields = (t.priv i).fields) ∧ s.notifier = t.notifier

section Commands

variable (c : WdogCall) (s : WdogMem)

def WdogCall.request : Notify.Request := ⟨c.notCopied = 0, c.wdogid.toNat, c.wdogEventfd, c.file, c.irqRc⟩

/-- Work on the record of the index. -/
def onWdog (f : Notify.Priv → Notify.Priv × Notify.Ret) (s : WdogMem) : Outcome Arr ℤ WdogMem :=
  let i := idx c.wdogid
  let r := f (s.priv i).evt
  ⟨[(.wdogPriv, i)], retOf r.2, none, s.setPriv i { s.priv i with evt := r.1 }⟩

/-- The marks of a registration. -/
def markRegistered (s : WdogMem) : WdogMem := (s.setPriv 0 { s.priv 0 with uspaceRegistered := true }).setNotifier 1

/-- `IOCTL_GUL_MODEM_WDOG_REGISTER` -/
def wdogRegister : Outcome Arr ℤ WdogMem :=
  let o := onWdog c (Notify.wdogRegisterIrq c.request) (markRegistered s)
  { o with accesses := (.wdogPriv, 0) :: o.accesses }

/-- `IOCTL_GUL_MODEM_WDOG_DEREGISTER` -/
def wdogDeregister : Outcome Arr ℤ WdogMem :=
  let o := onWdog c Notify.wdogDeregisterIrq s
  match o.ret with
  | none => o
  | some _ => ⟨o.accesses ++ [(.wdogPriv, 0)], some 0, none, o.state.setNotifier 0⟩

/-- `wdog_reset_modem`, which waits for the modem to be gone and then pulls the pin that it
hands out here. -/
def wdogResetModem : Outcome Arr ℤ WdogMem :=
  if Notify.maxModem ≤ c.wdogid.toNat then .done 0 s
  else
    let p := s.priv (idx c.wdogid)
    ⟨[(.wdogPriv, idx c.wdogid)], if c.removed p.wdogId then some 0 else none,
      if p.gpio ≠ 0 then some p.gpio else none, s⟩

/-- A member of the record is put into the structure, which is copied back. -/
def wdogGet (member : WdogPriv → ℤ) : Outcome Arr ℤ WdogMem :=
  ⟨[(.wdogPriv, idx c.wdogid)], some (if c.back then 0 else -Notify.efault),
    if c.back then some (member (s.priv (idx c.wdogid))) else none, s⟩

/-- `wdog_get_modem_status` -/
def wdogGetModemStatus : Outcome Arr ℤ WdogMem := wdogGet c s WdogPriv.wdogModemStatus

/-- `wdog_get_pci_domain_nr` -/
def wdogGetPciDomainNr : Outcome Arr ℤ WdogMem := wdogGet c s WdogPriv.domainNr

/-- `gul_wdog_dev_ioctl` -/
def gulWdogDevIoctl : WdogCmd → Outcome Arr ℤ WdogMem
  | .register => copied c.notCopied s (wdogRegister c s)
  | .deregister => copied c.notCopied s (wdogDeregister c s)
  | .reset => copied c.notCopied s (wdogResetModem c s)
  | .getStatus => copied c.notCopied s (wdogGetModemStatus c s)
  | .getDomain => copied c.notCopied s (wdogGetPciDomainNr c s)
  | .other => .done (-enotty) s

/-- A registration on another record than the first is refused without a trace: the device is
registered already, the record has no context, its interrupt is missing or cannot be
requested, and the descriptor, if there is one, is an event. -/
def RegisterRefuses : Prop :=
  (s.priv 0).uspaceRegistered = true ∧ s.notifier (s.priv 0).wdogId = 1 ∧
    (s.priv (idx c.wdogid)).evt.evtFdCtxt = .null ∧
    ((s.priv (idx c.wdogid)).evt.irq = 0 ∨ (s.priv (idx c.wdogid)).evt.irqStatus = false ∧ c.irqRc < 0) ∧
    (c.wdogEventfd ≤ 0 ∨ c.file = .eventfd)

/-- When a command of the watchdog device has its index in range, or refuses it. -/
def WdogChecked : WdogCmd → Prop
  | .register => c.notCopied = 0 → c.wdogid.toNat < 1 ∨ RegisterRefuses c s
  | .deregister => c.notCopied = 0 → c.wdogid.toNat < 1
  | .reset => c.notCopied = 0 → c.wdogid.toNat < 1 ∨ Notify.maxModem ≤ c.wdogid.toNat
  | .getStatus | .getDomain => c.notCopied = 0 → c.wdogid.toNat < 1 ∨ c.back = false
  | .other => True

end Commands

/-! ### What is right -/

section Register

variable {r : Notify.Request} {p : Notify.Priv}

/-- A call has returned an error. -/
def IsErr (ret : Notify.Ret) : Prop := ∃ n < 0, ret = .rc n

/-- The record without its context. -/
def erased (p : Notify.Priv) : Notify.Priv := { fields p with evtFdCtxt := .null }

/-- The error exit gives the context back, and fails on an error in its place. -/
theorem wdogRegisterErr_isErr {n : ℤ} (hn : n < 0) :
    IsErr (Notify.wdogRegisterErr p n).2 ↔ p.evtFdCtxt = .null ∨ p.evtFdCtxt = .ctx := by
  obtain ⟨irq, status, ctxt, requested, freed, taken, released⟩ := p
  cases ctxt with
  | null => exact iff_of_true ⟨n, hn, rfl⟩ (.inl rfl)
  | ctx => exact iff_of_true ⟨n, hn, rfl⟩ (.inr rfl)
  | err => simp [IsErr, Notify.wdogRegisterErr, Notify.putEventfd, Notify.finish]
  | unset => simp [IsErr, Notify.wdogRegisterErr, Notify.putEventfd, Notify.finish]

theorem wdogRegisterErr_fields {n : ℤ} (h : IsErr (Notify.wdogRegisterErr p n).2) :
    fields (Notify.wdogRegisterErr p n).1 = erased p := by
  obtain ⟨irq, status, ctxt, requested, freed, taken, released⟩ := p
  cases ctxt with
  | null => rfl
  | ctx => rfl
  | err => simp [IsErr, Notify.wdogRegisterErr, Notify.putEventfd, Notify.finish] at h
  | unset => simp [IsErr, Notify.wdogRegisterErr, Notify.putEventfd, Notify.finish] at h

/-- The interrupt is missing, or cannot be requested. -/
def IrqFails (r : Notify.Request) (p : Notify.Priv) : Prop := p.irq = 0 ∨ p.irqStatus = false ∧ r.irqRc < 0

/-- The error exit is taken exactly if the interrupt fails, and else there is no error. -/
theorem wdogRequestIrq_cases (r : Notify.Request) (p : Notify.Priv) :
    (∃ n < 0, Notify.wdogRequestIrq r p = Notify.wdogRegisterErr p n ∧ IrqFails r p) ∨
      ((Notify.wdogRequestIrq r p).2 = .rc 0 ∧ ¬ IrqFails r p) := by
  unfold Notify.wdogRequestIrq IrqFails
  by_cases hirq : p.irq = 0
  · exact .inl ⟨-Notify.einval, by decide, by simp [hirq], .inl hirq⟩
  by_cases hst : p.irqStatus = false
  · by_cases hrc : r.irqRc < 0
    · exact .inl ⟨r.irqRc, hrc, by simp [hirq, hst, hrc], .inr ⟨hst, hrc⟩⟩
    · exact .inr ⟨by simp [hirq, hst, hrc], by simp [hirq, hrc]⟩
  · exact .inr ⟨by simp [hirq, hst], by simp [hirq, hst]⟩

theorem not_isErr_zero : ¬ IsErr (.rc 0) := by
  rintro ⟨n, hn, hrc⟩
  exact hn.ne (Notify.Ret.rc.inj hrc).symm

theorem wdogRequestIrq_isErr :
    IsErr (Notify.wdogRequestIrq r p).2 ↔ IrqFails r p ∧ (p.evtFdCtxt = .null ∨ p.evtFdCtxt = .ctx) := by
  obtain ⟨n, hn, heq, hirq⟩ | ⟨hret, hirq⟩ := wdogRequestIrq_cases r p
  · rw [heq, wdogRegisterErr_isErr hn]
    exact (and_iff_right hirq).symm
  · rw [hret]
    exact iff_of_false not_isErr_zero fun h => hirq h.1

theorem wdogRequestIrq_fields (h : IsErr (Notify.wdogRequestIrq r p).2) :
    fields (Notify.wdogRequestIrq r p).1 = erased p := by
  obtain ⟨n, -, heq, -⟩ | ⟨hret, -⟩ := wdogRequestIrq_cases r p
  · rw [heq] at h ⊢
    exact wdogRegisterErr_fields h
  · rw [hret] at h
    exact absurd h not_isErr_zero

/-- The rest of a registration that has only touched the context of `p`: it fails and leaves
the fields of `p` exactly if there was no context, and there is none to fail on now. -/
theorem wdogRequestIrq_refuses {q : Notify.Priv} (hq : erased q = erased p) :
    IsErr (Notify.wdogRequestIrq r q).2 ∧ fields (Notify.wdogRequestIrq r q).1 = fields p ↔
      p.evtFdCtxt = .null ∧ IrqFails r p ∧ (q.evtFdCtxt = .null ∨ q.evtFdCtxt = .ctx) := by
  have hirq : IrqFails r q ↔ IrqFails r p := by
    obtain ⟨hirq, hst, -⟩ := Notify.Priv.mk.injEq .. ▸ hq
    rw [IrqFails, IrqFails, show q.irq = p.irq from hirq, show q.irqStatus = p.irqStatus from hst]
  constructor
  · rintro ⟨herr, hf⟩
    rw [wdogRequestIrq_fields herr, hq] at hf
    rw [wdogRequestIrq_isErr, hirq] at herr
    exact ⟨(congrArg Notify.Priv.evtFdCtxt hf).symm, herr⟩
  · rintro ⟨hnull, hrest⟩
    have herr := wdogRequestIrq_isErr.mpr ((and_congr_left' hirq).mpr hrest)
    refine ⟨herr, ?_⟩
    rw [wdogRequestIrq_fields herr, hq, erased, ← hnull]
    rfl

/-- `wdog_register_irq` fails and leaves the fields of its record as they were. -/
theorem wdogRegisterIrq_refuses :
    IsErr (Notify.wdogRegisterIrq r p).2 ∧ fields (Notify.wdogRegisterIrq r p).1 = fields p ↔
      p.evtFdCtxt = .null ∧ IrqFails r p ∧ (r.eventfd ≤ 0 ∨ r.file = .eventfd) := by
  unfold Notify.wdogRegisterIrq Notify.takeEventfd
  by_cases hfd : 0 < r.eventfd
  · cases hfile : r.file with
    | closed => simp [hfd, Notify.eventfdCtxFileget, IsErr]
    | other =>
      simp only [hfd, if_true, Notify.eventfdCtxFileget]
      rw [wdogRequestIrq_refuses]
      · simp [hfd]
      · rfl
    | eventfd =>
      simp only [hfd, if_true, Notify.eventfdCtxFileget]
      rw [wdogRequestIrq_refuses]
      · simp
      · rfl
  · simp only [hfd, if_false]
    rw [wdogRequestIrq_refuses]
    · simp [not_lt.mp hfd]
    · rfl

end Register

section Commands

variable {coreMax : ℕ} {c : WdogCall} {s : WdogMem}

theorem inRange_wdogid : InRange (Arr.size coreMax) (.wdogPriv, idx c.wdogid) ↔ c.wdogid.toNat < 1 := idx_range_iff

theorem inRange_first : InRange (Arr.size coreMax) (.wdogPriv, 0) := ⟨le_rfl, Nat.cast_lt.mpr zero_lt_one⟩

theorem markRegistered_of_ne {i : ℤ} (hi : i ≠ 0) : (markRegistered s).priv i = s.priv i := s.setPriv_of_ne hi

theorem markRegistered_notifier_iff :
    s.notifier = (markRegistered s).notifier ↔ s.notifier (s.priv 0).wdogId = 1 := by
  have h := WdogMem.setNotifier_eq_iff (s.setPriv 0 { s.priv 0 with uspaceRegistered := true }) (v := 1)
  rw [WdogMem.setPriv_self] at h
  exact eq_comm.trans h

/-- The other records and marks after a registration beyond the first record: the state is the
same exactly if the marks were there and the record has its fields. -/
theorem sameWdog_register_iff {i : ℤ} (hi : i ≠ 0) {p : Notify.Priv} :
    SameWdog s ((markRegistered s).setPriv i { s.priv i with evt := p }) ↔
      (s.priv 0).uspaceRegistered = true ∧ s.notifier (s.priv 0).wdogId = 1 ∧ fields p = fields (s.priv i).evt := by
  have hfirst : (markRegistered s).priv 0 = { s.priv 0 with uspaceRegistered := true } := by
    rw [markRegistered, WdogMem.setNotifier_priv, WdogMem.setPriv_self]
  rw [SameWdog, WdogMem.setPriv_notifier, markRegistered_notifier_iff]
  constructor
  · rintro ⟨hpriv, hn⟩
    have h0 := hpriv 0
    have h1 := hpriv i
    rw [WdogMem.setPriv_of_ne _ hi.symm, hfirst] at h0
    rw [WdogMem.setPriv_self] at h1
    exact ⟨congrArg WdogPriv.uspaceRegistered h0, hn, (congrArg WdogPriv.evt h1).symm⟩
  · rintro ⟨hu, hn, hf⟩
    refine ⟨fun j => ?_, hn⟩
    by_cases hji : j = i
    · rw [hji, WdogMem.setPriv_self, WdogPriv.fields, WdogPriv.fields, hf]
    · rw [WdogMem.setPriv_of_ne _ hji]
      by_cases hj : j = 0
      · rw [hj, hfirst, ← hu]
      · rw [markRegistered_of_ne hj]

theorem retOf_isErr {ret : Notify.Ret} : (∃ n < 0, retOf ret = some n) ↔ IsErr ret := by
  cases ret with
  | rc m => simp [retOf, IsErr]
  | oops => simp [retOf, IsErr]

theorem idx_ne_zero (h : ¬ c.wdogid.toNat < 1) : idx c.wdogid ≠ 0 := by
  rw [idx]
  omega

theorem validated_wdogRegister : Validated (Arr.size coreMax) SameWdog s (wdogRegister c s) ↔
    c.wdogid.toNat < 1 ∨ RegisterRefuses c s := by
  refine validated_iff_of_index ?_ fun hid => ?_
  · simp [wdogRegister, onWdog, inRange_first, inRange_wdogid]
  · have hi := idx_ne_zero hid
    simp only [Outcome.Refused, wdogRegister, onWdog, markRegistered_of_ne hi, retOf_isErr, sameWdog_register_iff hi]
    constructor
    · rintro ⟨herr, hu, hn, hf⟩
      exact ⟨hu, hn, wdogRegisterIrq_refuses.mp ⟨herr, hf⟩⟩
    · rintro ⟨hu, hn, hrest⟩
      obtain ⟨herr, hf⟩ := (wdogRegisterIrq_refuses (r := c.request)).mpr hrest
      exact ⟨herr, hu, hn, hf⟩

theorem validated_wdogDeregister :
    Validated (Arr.size coreMax) SameWdog s (wdogDeregister c s) ↔ c.wdogid.toNat < 1 := by
  simp only [wdogDeregister]
  cases hret : (onWdog c Notify.wdogDeregisterIrq s).ret with
  | none =>
    rw [validated_iff_contained (by simp [hret])]
    simp [onWdog, inRange_wdogid]
  | some n =>
    rw [validated_iff_contained (by simp)]
    simp [onWdog, inRange_first, inRange_wdogid]

theorem validated_wdogResetModem : Validated (Arr.size coreMax) SameWdog s (wdogResetModem c s) ↔
    c.wdogid.toNat < 1 ∨ Notify.maxModem ≤ c.wdogid.toNat := by
  unfold wdogResetModem
  split
  case isTrue h => exact iff_of_true (validated_done _) (.inr h)
  case isFalse h =>
    rw [validated_iff_contained]
    · simp [inRange_wdogid, h]
    · intro n hn
      dsimp only at hn
      split at hn
      · exact (Option.some.inj hn).le
      · cases hn

theorem validated_wdogGet {member : WdogPriv → ℤ} : Validated (Arr.size coreMax) SameWdog s (wdogGet c s member) ↔
    c.wdogid.toNat < 1 ∨ c.back = false := by
  refine validated_iff_of_index ?_ fun _ => ?_
  · simp [wdogGet, inRange_wdogid]
  · cases hback : c.back with
    | true => simp [wdogGet, Outcome.Refused, hback]
    | false =>
      refine iff_of_true ⟨⟨-Notify.efault, by decide, by simp [wdogGet, hback]⟩, fun _ => rfl, rfl⟩ rfl

/-- The watchdog device checks its index exactly as `WdogChecked` says. -/
theorem wdog_validated_iff (cmd : WdogCmd) :
    Validated (Arr.size coreMax) SameWdog s (gulWdogDevIoctl c s cmd) ↔ WdogChecked c s cmd := by
  cases cmd with
  | register => rw [gulWdogDevIoctl, validated_copied, validated_wdogRegister, WdogChecked]
  | deregister => rw [gulWdogDevIoctl, validated_copied, validated_wdogDeregister, WdogChecked]
  | reset => rw [gulWdogDevIoctl, validated_copied, validated_wdogResetModem, WdogChecked]
  | getStatus => rw [gulWdogDevIoctl, validated_copied, wdogGetModemStatus, validated_wdogGet, WdogChecked]
  | getDomain => rw [gulWdogDevIoctl, validated_copied, wdogGetPciDomainNr, validated_wdogGet, WdogChecked]
  | other => exact iff_of_true (validated_done _) trivial

end Commands

end Chardev
end La12xx
