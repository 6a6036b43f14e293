/-
# A probe that fails and the removal after it

When the probe of a sub-driver fails, `gul_base_cleanup_subdrv` calls its `remove` all
the same. This is `Clean` if every object the probe allocated is freed once and not
touched afterwards, and the tables and the private pointer are as they were before
the probe. `dcs_remove` frees through the private pointer, so the exits that free
the object themselves and leave the pointer are not clean (`dcs_clean_iff`);
`gul_ipc_remove` and `gul_rfic_remove` do nothing without a pointer, and what is not
clean there is the exit after it was set (`char_clean_iff`).
-/
import La12xx.Base.Probe

namespace La12xx
namespace SubProbe

open Base (SocRev enomem enodev)

/-- `MAX_MODEM` -/
def maxModem : ℕ := 4

/-- `ECANCELED` -/
def ecanceled : ℤ := 125

/-- `ENOEXEC` -/
def enoexec : ℤ := 8

/-- `EBUSY` -/
def ebusy : ℤ := 16

/-- `EINVAL` -/
def einval : ℤ := 22

/-- What has become of the object a probe allocates: how often it was allocated and
freed, and whether it was touched after it was freed. -/
structure Obj where
  allocs : ℕ
  frees : ℕ
  touchedFreed : Bool
deriving DecidableEq, Repr

namespace Obj

def none : Obj := ⟨0, 0, false⟩

def alloc (o : Obj) : Obj := { o with allocs := o.allocs + 1 }

/-- `kfree` -/
def free (o : Obj) : Obj := { o with frees := o.frees + 1 }

/-- A read or a write of the object. -/
def touch (o : Obj) : Obj := { o with touchedFreed := o.touchedFreed || decide (0 < o.frees) }

end Obj

/-! ### DCS -/

/-- What `dcs_probe` meets. The flags that a call of the kernel or of the hardware
stands behind say that it succeeds; `hsdcsType` is that the SoC has HSDCS at all,
`boardCF` that the revision of the board is C or F, `bnrg` is `BNRG_DCS`. -/
structure DcsEnv where
  id : ℤ
  gulDev : ℕ
  alloc : Bool
  pllInit : Bool
  socRev : SocRev
  hsdcsType : Bool
  pclkFirst : Bool
  bnrg : Bool
  hsdcsEnable : Bool
  boardCF : Bool
  lsdcsEnable : Bool
  outOfReset : ℤ
  pclkSecond : ℤ
  ccsr : Bool
  warmup : Bool
  rwTest : Bool
  firmware : Bool
  fwRead : Bool
  fwVersion : Bool
  adcDac : ℤ
  temperature : Bool
deriving DecidableEq, Repr

/-- The private pointer of the device, and `dev_list`. `outOfRange` says that a table
was written outside its entries. -/
structure Dcs where
  obj : Obj
  dcsPriv : Bool
  devList : ℤ → Option ℕ
  outOfRange : Bool

namespace DcsEnv

variable (E : DcsEnv)

def InRange : Prop := 0 ≤ E.id ∧ E.id < maxModem

/-- HSDCS needs its clock first. -/
def needsPclk : Bool := E.socRev = .revA || E.hsdcsType

/-- LSDCS is enabled. -/
def needsLs : Bool := !E.bnrg || !E.hsdcsEnable || E.socRev = .revA || E.boardCF

/-- The temperature monitor runs for the modem. -/
def monitored : Bool := E.hsdcsEnable && E.socRev = .revB

instance : Decidable E.InRange := inferInstanceAs (Decidable (0 ≤ E.id ∧ E.id < maxModem))

/-- Before the probe: no object, and nothing in the entry of the modem. -/
def start (tbl : ℤ → Option ℕ) : Dcs := ⟨.none, false, Function.update tbl E.id none, false⟩

end DcsEnv

def Dcs.free (s : Dcs) : Dcs := { s with obj := s.obj.free }

def Dcs.touch (s : Dcs) : Dcs := { s with obj := s.obj.touch }

/-- `hsdcs_macro_init`. Two of its exits free the object. -/
def hsdcsMacroInit (E : DcsEnv) (s : Dcs) : ℤ × Dcs :=
  if ¬ E.ccsr then (-enodev, s.free)
  else
    let s := s.touch
    if ¬ E.hsdcsEnable then (1, s)
    else if E.warmup then (1, s)
    else if ¬ E.hsdcsType then (1, s)
    else if ¬ E.rwTest then (-enodev, s)
    else if ¬ E.firmware then (-enomem, s.free)
    else if ¬ E.fwRead ∧ E.socRev ≠ .revA then (-enoexec, s)
    else if E.socRev = .revB ∧ ¬ E.fwVersion then (-enoexec, s)
    else (E.adcDac, s)

/-- `dcs_probe` from its label `out` on, with the result of `hsdcs_macro_init`. -/
def dcsProbeOut (E : DcsEnv) (rc : ℤ) (s : Dcs) : ℤ × Dcs :=
  if rc < 0 then (rc, s)
  else
    let s := s.touch
    if E.monitored then
      if ¬ E.temperature then (-einval, s)
      else (0, { s.touch with devList := Function.update s.devList E.id (some E.gulDev) })
    else (0, s)

/-- `dcs_probe` -/
def dcsProbe (E : DcsEnv) (s : Dcs) : ℤ × Dcs :=
  if ¬ E.alloc then (-enomem, s)
  else
    let s := { s with obj := s.obj.alloc, dcsPriv := true }
    if ¬ E.InRange then (-ecanceled, s.free)
    else if ¬ E.pllInit then (-ecanceled, s.free)
    else if E.needsPclk ∧ ¬ E.pclkFirst then (-ecanceled, s.free)
    else if E.needsLs ∧ ¬ E.lsdcsEnable then (-ecanceled, s.free)
    else if E.outOfReset ≠ 0 then (E.outOfReset, s)
    else if E.pclkSecond ≠ 0 then (E.pclkSecond, s)
    else if (hsdcsMacroInit E s).1 = 1 then (0, (hsdcsMacroInit E s).2)
    else dcsProbeOut E (hsdcsMacroInit E s).1 (hsdcsMacroInit E s).2

/-- `dcs_remove`, which frees whatever the private pointer points to. Other tables of
the modem are written too, with the same index. -/
def dcsRemove (E : DcsEnv) (s : Dcs) : Dcs :=
  let s := if E.monitored then { s with devList := Function.update s.devList E.id none } else s
  let s := if s.dcsPriv then s.free else s
  { s with dcsPriv := false, outOfRange := s.outOfRange || !decide E.InRange }

/-- The probe and the removal after it leave nothing behind. -/
structure Dcs.Clean (before after : Dcs) : Prop where
  frees : after.obj.frees = after.obj.allocs
  touched : after.obj.touchedFreed = false
  inRange : after.outOfRange = false
  dcsPriv : after.dcsPriv = before.dcsPriv
  devList : after.devList = before.devList

namespace DcsEnv

variable (E : DcsEnv)

/-- `hsdcs_macro_init` frees the object: it has no registers, or no firmware. -/
def MacroFrees : Prop :=
  E.ccsr = false ∨
    (E.hsdcsEnable = true ∧ E.warmup = false ∧ E.hsdcsType = true ∧ E.rwTest = true ∧ E.firmware = false)

/-- The probe frees its object itself: the PLL, the clock or LSDCS fail, or
`hsdcs_macro_init` is reached and frees it. -/
def FreesEarly : Prop :=
  E.alloc = true ∧ (E.pllInit = false ∨ (E.needsPclk = true ∧ E.pclkFirst = false) ∨
    (E.needsLs = true ∧ E.lsdcsEnable = false) ∨ (E.outOfReset = 0 ∧ E.pclkSecond = 0 ∧ E.MacroFrees))

instance : Decidable E.MacroFrees :=
  inferInstanceAs (Decidable (E.ccsr = false ∨
    (E.hsdcsEnable = true ∧ E.warmup = false ∧ E.hsdcsType = true ∧ E.rwTest = true ∧ E.firmware = false)))

instance : Decidable E.FreesEarly :=
  inferInstanceAs (Decidable (E.alloc = true ∧ (E.pllInit = false ∨ (E.needsPclk = true ∧ E.pclkFirst = false) ∨
    (E.needsLs = true ∧ E.lsdcsEnable = false) ∨ (E.outOfReset = 0 ∧ E.pclkSecond = 0 ∧ E.MacroFrees))))

end DcsEnv

section Dcs

variable {E : DcsEnv} {tbl : ℤ → Option ℕ}

/-- The state of a probe that failed: an object or none, with or without its pointer. -/
def DcsEnv.failed (E : DcsEnv) (tbl : ℤ → Option ℕ) (o : Obj) (priv : Bool) : Dcs :=
  { E.start tbl with obj := o, dcsPriv := priv }

/-- Removing is clean if it frees what is left to be freed. -/
theorem clean_dcsRemove_iff (o : Obj) (priv : Bool) :
    (E.start tbl).Clean (dcsRemove E (E.failed tbl o priv)) ↔
      o.frees + priv.toNat = o.allocs ∧ o.touchedFreed = false ∧ E.InRange := by
  have hlist : Function.update (Function.update tbl E.id none) E.id none = Function.update tbl E.id none :=
    Function.update_idem ..
  have hout : (dcsRemove E (E.failed tbl o priv)).outOfRange = !decide E.InRange := by
    unfold dcsRemove DcsEnv.failed
    cases priv <;> cases E.monitored <;> rfl
  have hobj : (dcsRemove E (E.failed tbl o priv)).obj = { o with frees := o.frees + priv.toNat } := by
    unfold dcsRemove DcsEnv.failed
    cases priv <;> cases E.monitored <;> rfl
  constructor
  · intro h
    refine ⟨?_, ?_, ?_⟩
    · simpa [hobj] using h.frees
    · simpa [hobj] using h.touched
    · simpa [hout] using h.inRange
  · rintro ⟨hfrees, htouched, hrange⟩
    refine ⟨?_, ?_, ?_, ?_, ?_⟩
    · rw [hobj]
      exact hfrees
    · rw [hobj]
      exact htouched
    · simp [hout, hrange]
    · unfold dcsRemove
      rfl
    · unfold dcsRemove DcsEnv.failed
      cases priv <;> cases E.monitored <;> first | rfl | exact hlist

/-- Where the object was left to the removal. -/
theorem clean_of_left (hrange : E.InRange) : (E.start tbl).Clean (dcsRemove E (E.failed tbl ⟨1, 0, false⟩ true)) :=
  (clean_dcsRemove_iff _ _).mpr ⟨rfl, rfl, hrange⟩

/-- Where it was freed already. -/
theorem not_clean_of_freed : ¬ (E.start tbl).Clean (dcsRemove E (E.failed tbl ⟨1, 1, false⟩ true)) := by
  intro h
  have htwice := ((clean_dcsRemove_iff _ _).mp h).1
  simp at htwice

/-- What `hsdcs_macro_init` leaves, of an object that is there. -/
theorem hsdcsMacroInit_snd {s : Dcs} (hs : s.touch = s) :
    (hsdcsMacroInit E s).2 = if E.MacroFrees then s.free else s := by
  unfold hsdcsMacroInit
  by_cases hccsr : E.ccsr = true
  · rw [if_neg (not_not.mpr hccsr), hs]
    have hiff : E.MacroFrees ↔
        E.hsdcsEnable = true ∧ E.warmup = false ∧ E.hsdcsType = true ∧ E.rwTest = true ∧ E.firmware = false := by
      simp [DcsEnv.MacroFrees, hccsr]
    simp only [hiff]
    split
    · next henable => simp [henable]
    · split
      · next hwarm => simp [hwarm]
      · split
        · next htype => simp [htype]
        · split
          · next hrw => simp [hrw]
          · split
            · next henable hwarm htype hrw hfw => simp_all
            · next hfw =>
              have hfw' : E.firmware = true := by simpa using hfw
              split
              · simp [hfw']
              · split
                · simp [hfw']
                · simp [hfw']
  · have hfrees : E.MacroFrees := .inl (Bool.eq_false_of_not_eq_true hccsr)
    rw [if_pos hccsr, if_pos hfrees]

/-- It fails where it frees the object. -/
theorem hsdcsMacroInit_neg {s : Dcs} (h : E.MacroFrees) : (hsdcsMacroInit E s).1 < 0 := by
  unfold hsdcsMacroInit
  obtain hccsr | ⟨henable, hwarm, htype, hrw, hfw⟩ := h
  · simp [hccsr, enodev]
  · by_cases hccsr : E.ccsr = true
    · simp [hccsr, henable, hwarm, htype, hrw, hfw, enomem]
    · simp [hccsr, enodev]

/-- From `out` on a failing probe leaves the object alone. -/
theorem dcsProbeOut_snd {s : Dcs} {rc : ℤ} (hs : s.touch = s) (hfail : (dcsProbeOut E rc s).1 ≠ 0) :
    (dcsProbeOut E rc s).2 = s := by
  revert hfail
  unfold dcsProbeOut
  simp only [hs]
  split
  · exact fun _ => rfl
  · split
    · split
      · exact fun _ => rfl
      · exact fun hfail => absurd rfl hfail
    · exact fun hfail => absurd rfl hfail

/-- The ways `dcs_probe` ends: without an object, with an object it has freed, with one
it leaves to the removal, or well. -/
inductive DcsEnd (E : DcsEnv) (tbl : ℤ → Option ℕ) : ℤ × Dcs → Prop
  | noObject (rc : ℤ) (h : ¬ E.alloc = true) : DcsEnd E tbl (rc, E.failed tbl .none false)
  | freed (rc : ℤ) (h : ¬ (E.InRange ∧ ¬ E.FreesEarly)) : DcsEnd E tbl (rc, E.failed tbl ⟨1, 1, false⟩ true)
  | left (rc : ℤ) (hrange : E.InRange) (h : ¬ E.FreesEarly) : DcsEnd E tbl (rc, E.failed tbl ⟨1, 0, false⟩ true)
  | done (s : Dcs) : DcsEnd E tbl (0, s)

/-- An object that is there is used as it is. -/
theorem touch_failed : (E.failed tbl ⟨1, 0, false⟩ true).touch = E.failed tbl ⟨1, 0, false⟩ true := rfl

/-- The end of a probe that gets to `hsdcs_macro_init`. -/
theorem dcsProbe_end_of_macro (hrange : E.InRange) (hfrees : E.FreesEarly ↔ E.MacroFrees) :
    DcsEnd E tbl
      (if (hsdcsMacroInit E (E.failed tbl ⟨1, 0, false⟩ true)).1 = 1 then
        (0, (hsdcsMacroInit E (E.failed tbl ⟨1, 0, false⟩ true)).2)
      else
        dcsProbeOut E (hsdcsMacroInit E (E.failed tbl ⟨1, 0, false⟩ true)).1
          (hsdcsMacroInit E (E.failed tbl ⟨1, 0, false⟩ true)).2) := by
  rw [hsdcsMacroInit_snd touch_failed]
  by_cases hmacro : E.MacroFrees
  · have hneg := hsdcsMacroInit_neg (s := E.failed tbl ⟨1, 0, false⟩ true) hmacro
    rw [if_neg (by omega), if_pos hmacro, dcsProbeOut, if_pos hneg]
    exact .freed _ fun h => h.2 (hfrees.mpr hmacro)
  · rw [if_neg hmacro]
    split
    · exact .done _
    · by_cases hrc : (dcsProbeOut E (hsdcsMacroInit E (E.failed tbl ⟨1, 0, false⟩ true)).1
          (E.failed tbl ⟨1, 0, false⟩ true)).1 = 0
      · rw [← Prod.mk.eta (p := dcsProbeOut E _ _), hrc]
        exact .done _
      · rw [← Prod.mk.eta (p := dcsProbeOut E _ _), dcsProbeOut_snd touch_failed hrc]
        exact .left _ hrange (mt hfrees.mp hmacro)

theorem dcsProbe_end (E : DcsEnv) (tbl : ℤ → Option ℕ) : DcsEnd E tbl (dcsProbe E (E.start tbl)) := by
  have hfreed : (E.failed tbl ⟨1, 0, false⟩ true).free = E.failed tbl ⟨1, 1, false⟩ true := rfl
  by_cases halloc : E.alloc = true
  · have halloc' : ¬ ¬ E.alloc = true := not_not.mpr halloc
    have hleft : { E.start tbl with obj := (E.start tbl).obj.alloc, dcsPriv := true } =
        E.failed tbl ⟨1, 0, false⟩ true := rfl
    rw [dcsProbe, if_neg halloc']
    simp only [hleft, hfreed]
    by_cases hrange : E.InRange
    · rw [if_neg (not_not.mpr hrange)]
      by_cases hpll : E.pllInit = true
      · rw [if_neg (not_not.mpr hpll)]
        by_cases hpclk : E.needsPclk = true ∧ ¬ E.pclkFirst = true
        · rw [if_pos hpclk]
          exact .freed _ fun h => h.2 ⟨halloc, .inr (.inl (by simpa using hpclk))⟩
        · rw [if_neg hpclk]
          by_cases hls : E.needsLs = true ∧ ¬ E.lsdcsEnable = true
          · rw [if_pos hls]
            exact .freed _ fun h => h.2 ⟨halloc, .inr (.inr (.inl (by simpa using hls)))⟩
          · rw [if_neg hls]
            -- from here on only `hsdcs_macro_init` can free the object
            have honly : E.FreesEarly ↔ E.outOfReset = 0 ∧ E.pclkSecond = 0 ∧ E.MacroFrees := by
              constructor
              · rintro ⟨-, hf | hf | hf | hf⟩
                · simp [hf] at hpll
                · simp [hf] at hpclk
                · simp [hf] at hls
                · exact hf
              · exact fun hf => ⟨halloc, .inr (.inr (.inr hf))⟩
            by_cases hreset : E.outOfReset = 0
            · rw [if_neg (not_not.mpr hreset)]
              by_cases hpclk2 : E.pclkSecond = 0
              · rw [if_neg (not_not.mpr hpclk2)]
                have hmacro : E.FreesEarly ↔ E.MacroFrees := by
                  rw [honly, and_iff_right hreset, and_iff_right hpclk2]
                exact dcsProbe_end_of_macro hrange hmacro
              · rw [if_pos hpclk2]
                exact .left _ hrange fun hf => hpclk2 (honly.mp hf).2.1
            · rw [if_pos hreset]
              exact .left _ hrange fun hf => hreset (honly.mp hf).1
      · rw [if_pos hpll]
        exact .freed _ fun h => h.2 ⟨halloc, .inl (by simpa using hpll)⟩
    · rw [if_pos hrange]
      exact .freed _ fun h => hrange h.1
  · rw [dcsProbe, if_pos halloc]
    exact .noObject _ halloc

/-- **The removal after a failed `dcs_probe` is clean exactly if the index of the modem
is in range and the probe has not freed its object itself.** -/
theorem dcs_clean_iff (hfail : (dcsProbe E (E.start tbl)).1 ≠ 0) :
    (E.start tbl).Clean (dcsRemove E (dcsProbe E (E.start tbl)).2) ↔ E.InRange ∧ ¬ E.FreesEarly := by
  have hend := dcsProbe_end E tbl
  generalize dcsProbe E (E.start tbl) = r at hend hfail ⊢
  cases hend with
  | noObject rc halloc =>
    rw [clean_dcsRemove_iff]
    exact ⟨fun h => ⟨h.2.2, fun hfree => halloc hfree.1⟩, fun h => ⟨rfl, rfl, h.1⟩⟩
  | freed rc h => exact iff_of_false not_clean_of_freed h
  | left rc hrange h => exact iff_of_true (clean_of_left hrange) ⟨hrange, h⟩
  | done s => exact absurd rfl hfail

end Dcs

/-! ### IPC and RFIC -/

/-- What the probe of a sub-driver with a character device meets: `deviceErr` and
`statsErr` are the numbers of the errors of `device_create` and of the registration
of the statistics, `cdevRc` what `cdev_add` returns, and `ready` that the modem is
ready before the retries run out. -/
structure CharEnv where
  alloc : Bool
  deviceErr : ℕ
  ready : Bool
  cdevRc : ℤ
  statsErr : ℕ
deriving DecidableEq, Repr

/-- The private pointer, `in_use_minor`, and the devices and character devices that
exist, by minor number. `minor` is the field of the object. -/
structure Char where
  obj : Obj
  priv : Bool
  minor : ℕ
  inUseMinor : ℕ → Bool
  devices : ℕ → Bool
  cdevs : ℕ → Bool

namespace Char

/-- Before the probe: no object, and the devices of the minor numbers in use. -/
def start (inUse : ℕ → Bool) : Char := ⟨.none, false, 0, inUse, inUse, inUse⟩

/-- The first minor number that is free. -/
def freeMinor (s : Char) : Option ℕ := (List.range maxModem).find? fun i => s.inUseMinor i = false

/-- The label `fail`, with the device that was created. -/
def fail (s : Char) (i : ℕ) : Char :=
  { s with obj := s.obj.free, devices := Function.update s.devices i false }

end Char

/-- The probe, with `check` for what is asked between the two devices. -/
def charProbe (E : CharEnv) (check : ℤ) (s : Char) : ℤ × Char :=
  match s.freeMinor with
  | none => (-enodev, s)
  | some i =>
    if ¬ E.alloc then (-enomem, s)
    else
      let s := { s with obj := s.obj.alloc }
      if E.deviceErr ≠ 0 then (-E.deviceErr, { s with obj := s.obj.free })
      else
        let s := { s with devices := Function.update s.devices i true }
        if check ≠ 0 then (check, s.fail i)
        else if E.cdevRc ≠ 0 then (E.cdevRc, s.fail i)
        else
          let s :=
            { s with
              cdevs := Function.update s.cdevs i true
              priv := true
              inUseMinor := Function.update s.inUseMinor i true
              minor := i
              obj := s.obj.touch }
          if E.statsErr ≠ 0 then (-E.statsErr, s.fail i) else (0, s)

/-- The removal: nothing without a pointer, and all else through it. -/
def charRemove (s : Char) : Char :=
  if s.priv then
    { s with
      obj := s.obj.touch.free
      priv := false
      cdevs := Function.update s.cdevs s.minor false
      devices := Function.update s.devices s.minor false
      inUseMinor := Function.update s.inUseMinor s.minor false }
  else s

/-- `gul_ipc_probe`: the modem must be ready. -/
def gulIpcProbe (E : CharEnv) : Char → ℤ × Char := charProbe E (if E.ready then 0 else -ebusy)

/-- `gul_ipc_remove` -/
def gulIpcRemove : Char → Char := charRemove

/-- `gul_rfic_init_mdata`, which does not fail. -/
def gulRficInitMdata : ℤ := 0

/-- `gul_rfic_probe`: whether the modem is ready is not asked. -/
def gulRficProbe (E : CharEnv) : Char → ℤ × Char := charProbe E gulRficInitMdata

/-- `gul_rfic_remove` -/
def gulRficRemove : Char → Char := charRemove

/-- The probe and the removal after it leave nothing behind. -/
structure Char.Clean (before after : Char) : Prop where
  frees : after.obj.frees = after.obj.allocs
  touched : after.obj.touchedFreed = false
  priv : after.priv = before.priv
  inUseMinor : after.inUseMinor = before.inUseMinor
  devices : after.devices = before.devices
  cdevs : after.cdevs = before.cdevs

/-- The probe gets to the registration of the statistics, which fails. -/
def CharEnv.StatsFail (E : CharEnv) (check : ℤ) (s : Char) : Prop :=
  s.freeMinor.isSome = true ∧ E.alloc = true ∧ E.deviceErr = 0 ∧ check = 0 ∧ E.cdevRc = 0 ∧ E.statsErr ≠ 0

section Char

variable {E : CharEnv} {check : ℤ} {inUse : ℕ → Bool}

/-- A free minor number has no devices. -/
theorem start_freeMinor {i : ℕ} (h : (Char.start inUse).freeMinor = some i) : inUse i = false := by
  have hfree := List.find?_some h
  exact of_decide_eq_true hfree

/-- **The removal after a failed probe is clean exactly if the probe has not failed to
register the statistics.** -/
theorem char_clean_iff (hfail : (charProbe E check (.start inUse)).1 ≠ 0) :
    (Char.start inUse).Clean (charRemove (charProbe E check (.start inUse)).2) ↔
      ¬ E.StatsFail check (.start inUse) := by
  revert hfail
  unfold charProbe
  cases hminor : (Char.start inUse).freeMinor with
  | none =>
    refine fun _ => iff_of_true ⟨rfl, rfl, rfl, rfl, rfl, rfl⟩ fun h => ?_
    simp [CharEnv.StatsFail, hminor] at h
  | some i =>
    have hback : Function.update (Function.update inUse i true) i false = inUse := by
      rw [Function.update_idem, ← start_freeMinor hminor, Function.update_eq_self]
    simp only
    split
    · next halloc =>
      exact fun _ => iff_of_true ⟨rfl, rfl, rfl, rfl, rfl, rfl⟩ fun h => halloc h.2.1
    · next halloc =>
      split
      · next hdevice =>
        exact fun _ => iff_of_true ⟨rfl, rfl, rfl, rfl, rfl, rfl⟩ fun h => hdevice h.2.2.1
      · next hdevice =>
        split
        · next hcheck =>
          exact fun _ => iff_of_true ⟨rfl, rfl, rfl, rfl, hback, rfl⟩ fun h => hcheck h.2.2.2.1
        · next hcheck =>
          split
          · next hcdev =>
            exact fun _ => iff_of_true ⟨rfl, rfl, rfl, rfl, hback, rfl⟩ fun h => hcdev h.2.2.2.2.1
          · next hcdev =>
            split
            · next hstats =>
              refine fun _ => iff_of_false (fun h => ?_) fun h => h ⟨?_, not_not.mp halloc, not_not.mp hdevice,
                not_not.mp hcheck, not_not.mp hcdev, hstats⟩
              · exact Bool.noConfusion h.touched
              · rw [hminor]
                rfl
            · exact fun hfail => absurd rfl hfail

end Char

/-- **When the probe of DCS, IPC or RFIC fails, the removal after it is clean exactly
where the probe has neither freed its object under a pointer that stays nor set the
pointer before it fails.** -/
theorem probe_then_remove (E : DcsEnv) (tbl : ℤ → Option ℕ) (F : CharEnv) (inUse : ℕ → Bool) :
    ((dcsProbe E (E.start tbl)).1 ≠ 0 →
      ((E.start tbl).Clean (dcsRemove E (dcsProbe E (E.start tbl)).2) ↔ E.InRange ∧ ¬ E.FreesEarly)) ∧
    ((gulIpcProbe F (.start inUse)).1 ≠ 0 →
      ((Char.start inUse).Clean (gulIpcRemove (gulIpcProbe F (.start inUse)).2) ↔
        ¬ F.StatsFail (if F.ready then 0 else -ebusy) (.start inUse))) ∧
    ((gulRficProbe F (.start inUse)).1 ≠ 0 →
      ((Char.start inUse).Clean (gulRficRemove (gulRficProbe F (.start inUse)).2) ↔
        ¬ F.StatsFail gulRficInitMdata (.start inUse))) :=
  ⟨dcs_clean_iff, char_clean_iff, char_clean_iff⟩

/-- A modem in range, with everything there. -/
def aDcsEnv : DcsEnv :=
  ⟨0, 1, true, true, .revB, true, true, false, true, false, true, 0, 0, true, false, true, true, true, true, 0, true⟩

/-- A device that is ready. -/
def aCharEnv : CharEnv := ⟨true, 0, true, 0, 0⟩

/-- A device whose temperature cannot be read, and two whose character devices cannot be added
behind one that is in use. -/
theorem probe_then_remove_temperature :
    (DcsEnv.start { aDcsEnv with temperature := false } fun _ => none).Clean
        (dcsRemove { aDcsEnv with temperature := false }
          (dcsProbe { aDcsEnv with temperature := false } (DcsEnv.start { aDcsEnv with temperature := false } fun _ => none)).2) ∧
      (Char.start (· = 0)).Clean (gulIpcRemove (gulIpcProbe { aCharEnv with cdevRc := -16 } (.start (· = 0))).2) ∧
      (Char.start (· = 0)).Clean (gulRficRemove (gulRficProbe { aCharEnv with cdevRc := -16 } (.start (· = 0))).2) := by
  have h := probe_then_remove { aDcsEnv with temperature := false } (fun _ => none) { aCharEnv with cdevRc := -16 } (· = 0)
  refine ⟨(h.1 (by decide)).mpr (by decide), (h.2.1 (by decide)).mpr fun hstats => ?_,
    (h.2.2 (by decide)).mpr fun hstats => ?_⟩
  · exact absurd hstats.2.2.2.2.1 (by decide)
  · exact absurd hstats.2.2.2.2.1 (by decide)

/-- Without a PLL the object is freed twice. -/
theorem pll_freed_twice :
    ¬ ∀ (E : DcsEnv) (tbl : ℤ → Option ℕ), E.InRange → (dcsProbe E (E.start tbl)).1 ≠ 0 →
      (E.start tbl).Clean (dcsRemove E (dcsProbe E (E.start tbl)).2) := by
  intro h
  have hfrees := (h { aDcsEnv with pllInit := false } (fun _ => none) (by decide) (by decide)).frees
  revert hfrees
  decide

end SubProbe
end La12xx
