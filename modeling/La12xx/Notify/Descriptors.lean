/-
# The descriptors of the event libraries

`modem_tti_register`, `libwdog_register`, `libtvd_register` and `libcli_register`
and their counterparts open two descriptors, the device and an event descriptor, and
keep them in the structure of the caller. A call is followed through the descriptors
it opens and those it passes to `close`, which gives a descriptor up whatever it
returns. The four are copies of one another with three ways to fail:
`descriptors_balanced_iff` says after which outcomes of the system calls nothing is left
open and nothing of others is closed.
-/
import La12xx.Notify.Registration

namespace La12xx
namespace Notify

namespace Lib

/-- The descriptors in `struct tti`, `struct wdog`, `struct tvd` and `struct cli`. -/
structure Handles where
  handle : ℤ
  eventfd : ℤ
deriving DecidableEq, Repr

/-- What the system calls of a registration return. -/
structure RegisterCalls where
  opened : ℤ
  eventfd : ℤ
  ioctl : ℤ
deriving DecidableEq, Repr

/-- What those of a deregistration return that are looked at. -/
structure DeregisterCalls where
  ioctl : ℤ
  close : ℤ
deriving DecidableEq, Repr

/-- What a call leaves and returns, with the descriptors it opened and closed. -/
structure Done where
  handles : Handles
  ret : ℤ
  opened : List ℤ
  closed : List ℤ
deriving DecidableEq, Repr

/-! ### Registering -/

/-- `modem_tti_register` -/
def ttiRegister (flag : Bool) (c : RegisterCalls) (h : Handles) : Done :=
  let h := { h with handle := c.opened }
  if c.opened < 0 then ⟨h, -2, [], []⟩
  else if flag then
    let h := { h with eventfd := c.eventfd }
    if c.eventfd < 0 then ⟨h, c.eventfd, [c.opened], [c.opened]⟩
    else if c.ioctl < 0 then ⟨h, c.ioctl, [c.opened, c.eventfd], [c.opened]⟩
    else ⟨h, c.ioctl, [c.opened, c.eventfd], []⟩
  else if c.ioctl < 0 then ⟨h, c.ioctl, [c.opened], [c.opened]⟩
  else ⟨h, c.ioctl, [c.opened], []⟩

/-- `libwdog_register`; `MODEM_WDOG_OPEN_FAIL` is 1. -/
def libwdogRegister (c : RegisterCalls) (h : Handles) : Done :=
  let h := { h with handle := c.opened }
  if c.opened < 0 then ⟨h, -1, [], []⟩
  else
    let h := { h with eventfd := c.eventfd }
    ⟨h, c.ioctl, c.opened :: if c.eventfd < 0 then [] else [c.eventfd], []⟩

/-- `libtvd_register` and `libcli_register`, with `TVD_OPEN_FAIL` and `CLI_OPEN_FAIL`. -/
def evefdRegister (openFail : ℤ) (c : RegisterCalls) (h : Handles) : Done :=
  let h := { h with handle := c.opened }
  if c.opened < 0 then ⟨h, -openFail, [], []⟩
  else
    let h := { h with eventfd := c.eventfd }
    if c.eventfd < 0 then ⟨h, 0, [c.opened], []⟩
    else if c.ioctl < 0 then ⟨{ h with eventfd := -1 }, c.ioctl, [c.opened, c.eventfd], [c.eventfd]⟩
    else ⟨h, c.ioctl, [c.opened, c.eventfd], []⟩

/-- `libtvd_register` -/
def libtvdRegister : RegisterCalls → Handles → Done := evefdRegister 1

/-- `libcli_register` -/
def libcliRegister : RegisterCalls → Handles → Done := evefdRegister 1

/-! ### Deregistering -/

/-- `modem_tti_deregister` and `libwdog_deregister`: the interrupt is freed first. -/
def irqDeregister (c : DeregisterCalls) (h : Handles) : Done :=
  if c.ioctl < 0 then ⟨h, c.ioctl, [], []⟩
  else if 0 ≤ h.eventfd then ⟨{ h with eventfd := -1 }, c.close, [], [h.eventfd, h.handle]⟩
  else ⟨h, c.close, [], [h.handle]⟩

/-- `modem_tti_deregister` -/
def ttiDeregister : DeregisterCalls → Handles → Done := irqDeregister

/-- `libwdog_deregister` -/
def libwdogDeregister : DeregisterCalls → Handles → Done := irqDeregister

/-- `libtvd_deregister` and `libcli_deregister`: what the ioctl returns is printed. -/
def evefdDeregister (c : DeregisterCalls) (h : Handles) : Done :=
  if 0 ≤ h.eventfd then ⟨{ h with eventfd := -1 }, c.close, [], [h.eventfd, h.handle]⟩
  else ⟨h, c.close, [], [h.handle]⟩

/-- `libtvd_deregister` -/
def libtvdDeregister : DeregisterCalls → Handles → Done := evefdDeregister

/-- `libcli_deregister` -/
def libcliDeregister : DeregisterCalls → Handles → Done := evefdDeregister

/-- The registration of a library; only the TTI library has the flag. -/
def register (k : Kind) (flag : Bool) : RegisterCalls → Handles → Done :=
  match k with
  | .tti => ttiRegister flag
  | .wdog => libwdogRegister
  | .tvd => libtvdRegister
  | .cli => libcliRegister

def deregister : Kind → DeregisterCalls → Handles → Done
  | .tti => ttiDeregister
  | .wdog => libwdogDeregister
  | .tvd => libtvdDeregister
  | .cli => libcliDeregister

/-! ### Balance -/

section Balance

/-- A registration that fails closes what it opened; after one that succeeds, what a
successful deregistration closes is what was opened, each descriptor once. -/
structure Balanced (k : Kind) (flag : Bool) (c : RegisterCalls) (h : Handles) : Prop where
  failed : (register k flag c h).ret < 0 → (register k flag c h).opened.Subperm (register k flag c h).closed
  paired : 0 ≤ (register k flag c h).ret → ∀ d : DeregisterCalls,
    0 ≤ (deregister k d (register k flag c h).handles).ret →
      (deregister k d (register k flag c h).handles).closed.Perm (register k flag c h).opened

/-- If the device is opened: registering in the kernel succeeds, where there is something to
leave open; and a TTI structure that is registered without an event descriptor names none. -/
def Fine (k : Kind) (flag : Bool) (c : RegisterCalls) (h : Handles) : Prop :=
  match k with
  | .tti => 0 ≤ c.opened → if flag then 0 ≤ c.eventfd → 0 ≤ c.ioctl else 0 ≤ c.ioctl → h.eventfd < 0
  | .wdog => 0 ≤ c.opened → 0 ≤ c.ioctl
  | .tvd | .cli => 0 ≤ c.opened → 0 ≤ c.eventfd → 0 ≤ c.ioctl

/-- What a deregistration that succeeds closes. -/
def Handles.closes (h : Handles) : List ℤ := if 0 ≤ h.eventfd then [h.eventfd, h.handle] else [h.handle]

theorem closed_of_ret (k : Kind) {d : DeregisterCalls} {h : Handles} (hret : 0 ≤ (deregister k d h).ret) :
    (deregister k d h).closed = h.closes := by
  have hirq : 0 ≤ (irqDeregister d h).ret → (irqDeregister d h).closed = h.closes := by
    intro hret
    by_cases hioctl : d.ioctl < 0
    · rw [irqDeregister, if_pos hioctl] at hret
      exact absurd hret (not_le.mpr hioctl)
    · rw [irqDeregister, if_neg hioctl, apply_ite Done.closed]
      rfl
  have hevefd : (evefdDeregister d h).closed = h.closes := by
    rw [evefdDeregister, apply_ite Done.closed]
    rfl
  cases k with
  | tti => exact hirq hret
  | wdog => exact hirq hret
  | tvd => exact hevefd
  | cli => exact hevefd

theorem exists_deregister (k : Kind) (h : Handles) : ∃ d, 0 ≤ (deregister k d h).ret := by
  refine ⟨⟨0, 0⟩, ?_⟩
  have hirq : (irqDeregister ⟨0, 0⟩ h).ret = 0 := by
    rw [irqDeregister, if_neg (lt_irrefl 0), apply_ite Done.ret, ite_self]
  have hevefd : (evefdDeregister ⟨0, 0⟩ h).ret = 0 := by
    rw [evefdDeregister, apply_ite Done.ret, ite_self]
  cases k with
  | tti => exact hirq.ge
  | wdog => exact hirq.ge
  | tvd => exact hevefd.ge
  | cli => exact hevefd.ge

/-- What a registration has to leave: nothing open if it failed, else what is closed later. -/
def Done.Sound (r : Done) : Prop :=
  (r.ret < 0 → r.opened.Subperm r.closed) ∧ (0 ≤ r.ret → r.handles.closes.Perm r.opened)

theorem balanced_iff_sound (k : Kind) (flag : Bool) (c : RegisterCalls) (h : Handles) :
    Balanced k flag c h ↔ (register k flag c h).Sound := by
  constructor
  · rintro ⟨hfailed, hpaired⟩
    refine ⟨hfailed, fun hret => ?_⟩
    obtain ⟨d, hd⟩ := exists_deregister k (register k flag c h).handles
    exact closed_of_ret k hd ▸ hpaired hret d hd
  · rintro ⟨hfailed, hpaired⟩
    exact ⟨hfailed, fun hret d hd => closed_of_ret k hd ▸ hpaired hret⟩

section Sound

variable {h : Handles} {ret : ℤ} {opened closed : List ℤ}

theorem sound_of_neg (hret : ret < 0) : Done.Sound ⟨h, ret, opened, closed⟩ ↔ opened.Subperm closed := by
  rw [Done.Sound, and_iff_left fun hle => absurd hle (not_le.mpr hret)]
  exact forall_prop_of_true hret

theorem sound_of_nonneg (hret : 0 ≤ ret) : Done.Sound ⟨h, ret, opened, closed⟩ ↔ h.closes.Perm opened := by
  rw [Done.Sound, and_iff_right fun hlt => absurd hlt (not_lt.mpr hret)]
  exact forall_prop_of_true hret

/-- A descriptor more is opened than closed. -/
theorem not_sound_of_lt (hret : ret < 0) (hlt : closed.length < opened.length) :
    ¬Done.Sound ⟨h, ret, opened, closed⟩ := by
  rw [sound_of_neg hret]
  exact fun hsub => absurd hsub.length_le (not_le.mpr hlt)

/-- Both descriptors are there to be closed, the last one opened first. -/
theorem closes_perm (hfd : 0 ≤ h.eventfd) : h.closes.Perm [h.handle, h.eventfd] := by
  rw [Handles.closes, if_pos hfd]
  exact List.Perm.swap ..

theorem closes_perm_singleton : h.closes.Perm [h.handle] ↔ h.eventfd < 0 := by
  rw [Handles.closes]
  split
  · next hfd => exact iff_of_false (fun hperm => absurd hperm.length_eq (Nat.succ_ne_self _)) (not_lt.mpr hfd)
  · next hfd => exact iff_of_true (List.Perm.refl _) (not_le.mp hfd)

/-- A registration that fails and closes what it opened. -/
theorem sound_of_closed (hret : ret < 0) : Done.Sound ⟨h, ret, opened, opened⟩ :=
  (sound_of_neg hret).mpr (List.Subperm.refl _)

/-- With both descriptors open and one of them closed on a failure, the kernel has to accept them. -/
theorem both_sound_iff {h' : Handles} {x : ℤ} (hfd : 0 ≤ h.eventfd) :
    Done.Sound (if ret < 0 then ⟨h', ret, [h.handle, h.eventfd], [x]⟩ else ⟨h, ret, [h.handle, h.eventfd], []⟩) ↔
      0 ≤ ret := by
  rcases lt_or_ge ret 0 with hret | hret
  · rw [if_pos hret]
    exact iff_of_false (not_sound_of_lt hret (Nat.lt_succ_self _)) (not_le.mpr hret)
  · rw [if_neg (not_lt.mpr hret), sound_of_nonneg hret]
    exact iff_of_true (closes_perm hfd) hret

end Sound

section Libraries

variable (flag : Bool) (c : RegisterCalls) (h : Handles)

theorem tti_sound_iff : (ttiRegister flag c h).Sound ↔ Fine .tti flag c h := by
  rcases lt_or_ge c.opened 0 with hopen | hopen
  · rw [ttiRegister, if_pos hopen]
    exact iff_of_true (sound_of_closed (by decide)) fun hle => absurd hle (not_le.mpr hopen)
  rw [ttiRegister, if_neg (not_lt.mpr hopen), Fine, forall_prop_of_true hopen]
  cases flag with
  | true =>
    rw [if_pos rfl, if_pos rfl]
    rcases lt_or_ge c.eventfd 0 with hfd | hfd
    · rw [if_pos hfd]
      exact iff_of_true (sound_of_closed hfd) fun hle => absurd hle (not_le.mpr hfd)
    · rw [if_neg (not_lt.mpr hfd), forall_prop_of_true hfd]
      exact both_sound_iff (h := ⟨c.opened, c.eventfd⟩) hfd
  | false =>
    rw [if_neg Bool.false_ne_true, if_neg Bool.false_ne_true]
    rcases lt_or_ge c.ioctl 0 with hioctl | hioctl
    · rw [if_pos hioctl]
      exact iff_of_true (sound_of_closed hioctl) fun hle => absurd hle (not_le.mpr hioctl)
    · rw [if_neg (not_lt.mpr hioctl), sound_of_nonneg hioctl, forall_prop_of_true hioctl]
      exact closes_perm_singleton

theorem wdog_sound_iff : (libwdogRegister c h).Sound ↔ Fine .wdog flag c h := by
  rcases lt_or_ge c.opened 0 with hopen | hopen
  · rw [libwdogRegister, if_pos hopen]
    exact iff_of_true (sound_of_closed (by decide)) fun hle => absurd hle (not_le.mpr hopen)
  rw [libwdogRegister, if_neg (not_lt.mpr hopen), Fine, forall_prop_of_true hopen]
  rcases lt_or_ge c.ioctl 0 with hioctl | hioctl
  · exact iff_of_false (not_sound_of_lt hioctl (Nat.succ_pos _)) (not_le.mpr hioctl)
  · rw [sound_of_nonneg hioctl]
    refine iff_of_true ?_ hioctl
    split
    · next hfd => exact closes_perm_singleton.mpr hfd
    · next hfd => exact closes_perm (not_lt.mp hfd)

theorem evefd_sound_iff {openFail : ℤ} (hfail : 0 < openFail) :
    (evefdRegister openFail c h).Sound ↔ (0 ≤ c.opened → 0 ≤ c.eventfd → 0 ≤ c.ioctl) := by
  rcases lt_or_ge c.opened 0 with hopen | hopen
  · rw [evefdRegister, if_pos hopen]
    exact iff_of_true (sound_of_closed (neg_neg_of_pos hfail)) fun hle => absurd hle (not_le.mpr hopen)
  rw [evefdRegister, if_neg (not_lt.mpr hopen), forall_prop_of_true hopen]
  rcases lt_or_ge c.eventfd 0 with hfd | hfd
  · rw [if_pos hfd, sound_of_nonneg le_rfl]
    exact iff_of_true (closes_perm_singleton.mpr hfd) fun hle => absurd hle (not_le.mpr hfd)
  · rw [if_neg (not_lt.mpr hfd), forall_prop_of_true hfd]
    exact both_sound_iff (h := ⟨c.opened, c.eventfd⟩) hfd

/-- **When the descriptors are balanced.** -/
theorem descriptors_balanced_iff (k : Kind) : Balanced k flag c h ↔ Fine k flag c h := by
  rw [balanced_iff_sound]
  cases k with
  | tti => exact tti_sound_iff flag c h
  | wdog => exact wdog_sound_iff flag c h
  | tvd => exact evefd_sound_iff c h one_pos
  | cli => exact evefd_sound_iff c h one_pos

/-- A TTI registered without an event descriptor: what the field held, 5, is closed. -/
theorem tti_closes_foreign :
    (register .tti false ⟨3, 4, 0⟩ ⟨0, 5⟩).opened = [3] ∧
      (deregister .tti ⟨0, 0⟩ (register .tti false ⟨3, 4, 0⟩ ⟨0, 5⟩).handles).closed = [5, 3] ∧
      ¬Balanced .tti false ⟨3, 4, 0⟩ ⟨0, 5⟩ ∧ ¬Balanced .wdog false ⟨3, 4, -1⟩ ⟨0, 0⟩ ∧
      ¬Balanced .cli false ⟨3, 4, -1⟩ ⟨0, 0⟩ := by
  refine ⟨rfl, rfl, fun hb => ?_, fun hb => ?_, fun hb => ?_⟩
  · have hperm := hb.paired (by decide) ⟨0, 0⟩ (by decide)
    exact absurd hperm.length_eq (by decide)
  · exact absurd (hb.failed (by decide)).length_le (by decide)
  · exact absurd (hb.failed (by decide)).length_le (by decide)

end Libraries

end Balance

end Lib
end Notify
end La12xx
