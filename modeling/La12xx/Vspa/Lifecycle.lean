/-
# The cores over the life of the driver

`vspa_probe` boots all cores and leaves the table of their devices in `vspa_priv`;
`__vspa_reset_set` takes the cores of the mask down and boots them again; `vspa_remove`
frees the table and leaves the cores as they are; a reset of the modem halts them all. A core
that was set going runs until it is seen to halt. `powerdown` halts a core only if its
state is `VSPA_STATE_RUNNING_IDLE`, and then only if the halt shows in time.

The driver's states follow the hardware: as long as no modem is reset under the driver, a
core runs exactly if its state is one of `VSPA_STATE_RUNNING_IDLE`, `VSPA_STATE_STARTUP_ERR`
and `VSPA_STATE_UNKNOWN` (`Inv`). So a reset loads firmware into a core that still runs
exactly if that core's last start was not answered or its last halt not seen
(`loads_halted_iff`). In a run whose starts are all answered and whose halts are all seen,
and whose probes come after a reset of the modem, no firmware is loaded into a running core
(`loads_halted_of_answered`).

The registers are read before the check of `regs` looks at them, so `regs` is taken to be
mapped. The number of cores a reset goes through is not defined in this repository and is
a parameter.
-/
import La12xx.Lib.Machine
import La12xx.Vspa.Probe

namespace La12xx
namespace Vspa
namespace Lifecycle

open ByteMem Machine

/-- `ETIME` -/
def etime : ℤ := 62

/-- `EPERM` -/
def eperm : ℤ := 1

/-- `enum vspa_state` -/
inductive VspaState where
  | unknown
  | powerDown
  | startupErr
  | unprogrammedIdle
  | unprogrammedBusy
  | loading
  | runningIdle
  | runningBusy
deriving DecidableEq, Repr

/-- What a reset of one core meets. -/
structure ResetEnv where
  core : CoreEnv
  /-- the halt shows in `DBG_RCSTATUS` in time -/
  halts : Bool

/-- The states in the table of `vspa_device`s, the cores that run, and the scratch region.
A core runs once `CONTROL_HOST_GO` is set, until it is seen to halt. -/
structure Cores where
  state : ℕ → VspaState
  live : ℕ → Bool
  mem : Mem

/-- The firmware of a core is loaded: the state of its device before, if it had one, and
whether it ran. -/
structure Load where
  core : ℕ
  before : Option VspaState
  live : Bool

/-! ### One core -/

/-- `powerdown`: what it returns, and the state and the core afterwards. -/
def powerdown (halts : Bool) (state : VspaState) (live : Bool) : ℤ × VspaState × Bool :=
  if state = .runningIdle then
    if halts then (0, .powerDown, false) else (-etime, .unknown, live)
  else (0, .powerDown, live)

/-- `powerup` -/
def powerup (state : VspaState) : ℤ × VspaState :=
  if state ≠ .powerDown then (-eperm, state) else (0, .unprogrammedIdle)

/-- The environment of a core whose registers are mapped. -/
def mapped (E : CoreEnv) : CoreEnv := { E with regs := true }

/-- The state `__vspa_probe` leaves: `startup` writes it once the image is loaded. -/
def stateAfter (started startup : Bool) : VspaState :=
  if started then (if startup then .runningIdle else .startupErr) else .loading

/-- `__vspa_probe`: what it returns, and the cores. -/
def vspaProbeDev (fuel : ℕ) (E : CoreEnv) (n : ℕ) (c : Cores) : Option ℤ × Cores :=
  let out := vspaProbeCore fuel (mapped E) c.mem
  (out.ret,
    { state := Function.update c.state n (stateAfter out.started E.startup)
      live := Function.update c.live n (c.live n || out.started)
      mem := out.mem })

/-- `powerdown` and `powerup` on the device of a core. -/
def takeDown (halts : Bool) (n : ℕ) (c : Cores) : ℤ × Cores :=
  let (ret, state, live) := powerdown halts (c.state n) (c.live n)
  (ret,
    { c with
      state := Function.update c.state n (if ret = 0 then (powerup state).2 else state)
      live := Function.update c.live n live })

/-! ### The driver -/

/-- The driver's part of the world: `vspa_priv` is set (else the states mean nothing),
the cores, `vspa_reset_mask` and `vspa_firmware_status`. A load that does not return and
an access through a `vspa_priv` of `NULL` are the end of it. -/
structure State where
  vspaPriv : Bool
  cores : Cores
  resetMask : ℕ
  status : ℕ → Bool
  dead : Bool

/-- The loop of `__vspa_reset_set`: what it returns, the cores and the loads. -/
def resetLoop (fuel : ℕ) (mask : ℕ) (E : ℕ → ResetEnv) : List ℕ → ℤ → Cores → Option ℤ × Cores × List Load
  | [], ret, c => (some ret, c, [])
  | n :: ns, ret, c =>
    if mask.testBit n then
      let (ret, c') := takeDown (E n).halts n c
      if ret = 0 then
        let (ret, c'') := vspaProbeDev fuel (E n).core n c'
        let load : Load := ⟨n, some (c.state n), c'.live n⟩
        match ret with
        | none => (none, c'', [load])
        | some ret =>
          if ret ≠ 0 then (some ret, c'', [load])
          else
            let (r, d, loads) := resetLoop fuel mask E ns 0 c''
            (r, d, load :: loads)
      -- a core that does not halt is left alone, and the next one may overwrite `ret`
      else resetLoop fuel mask E ns ret c'
    else resetLoop fuel mask E ns ret c

/-- The loop of `vspa_probe` over the next `k` cores. -/
def bootLoop (fuel : ℕ) (E : ℕ → CoreEnv) : ℕ → ℕ → Cores → (ℕ → Bool) → Option ℤ × Cores × (ℕ → Bool) × List Load
  | 0, _, c, status => (some 0, c, status, [])
  | k + 1, n, c, status =>
    if !(E n).kzalloc then (some (-enomem), c, clearStatus status n, [])
    else
      let (ret, c') := vspaProbeDev fuel (E n) n c
      let load : Load := ⟨n, none, c.live n⟩
      match ret with
      | none => (none, c', status, [load])
      | some err =>
        if err = -einval then (some err, c', status, [load])
        else if err = -ebadrqc then (some err, c', clearStatus status n, [load])
        else
          let (r, d, status', loads) := bootLoop fuel E k (n + 1) c' (Function.update status n true)
          (r, d, status', load :: loads)

/-- What `vspa_probe` meets. -/
structure BootEnv where
  kzalloc : Bool
  dmaRegion : Bool
  overlayRegion : Bool
  core : ℕ → CoreEnv

/-- What happens to the cores. The value written to a file of sysfs is what `kstrtou32`
makes of it, if it is a number. -/
inductive Input where
  | probe (P : BootEnv)
  | remove
  | resetMaskSet (val : Option ℕ)
  | resetSet (val : Option ℕ) (E : ℕ → ResetEnv)
  /-- the modem as a whole is reset -/
  | modemReset

/-- What a call returns, none if it does not, and the loads it did. -/
structure Output where
  ret : Option ℤ
  loads : List Load

/-- `vspa_probe` -/
def vspaProbe (fuel : ℕ) (P : BootEnv) (s : State) : State × Output :=
  -- `err` is still 0 when the first allocation fails
  if !P.kzalloc then (s, ⟨some 0, []⟩)
  else if !P.dmaRegion then ({ s with vspaPriv := false }, ⟨some (-eaddrnotavail), []⟩)
  else if !P.overlayRegion then ({ s with vspaPriv := false }, ⟨some (-eaddrnotavail), []⟩)
  else
    let (ret, c, status, loads) := bootLoop fuel P.core maxVspa 0 s.cores s.status
    ({ s with cores := c, status := status, vspaPriv := decide (ret = some 0), dead := ret.isNone }, ⟨ret, loads⟩)

/-- `__vspa_reset_set`, where the modem has `coreMax` cores -/
def vspaResetSet (fuel coreMax : ℕ) (E : ℕ → ResetEnv) (s : State) : State × Output :=
  if s.vspaPriv then
    let (ret, c, loads) := resetLoop fuel s.resetMask E (List.range coreMax) 0 s.cores
    ({ s with cores := c, dead := ret.isNone }, ⟨ret, loads⟩)
  else ({ s with dead := true }, ⟨none, []⟩)

/-- The machine. -/
def step (fuel coreMax : ℕ) (s : State) (i : Input) : State × Output :=
  if s.dead then (s, ⟨none, []⟩) else
  match i with
  | .probe P => vspaProbe fuel P s
  | .remove => ({ s with vspaPriv := false }, ⟨some 0, []⟩)
  | .resetMaskSet val =>
    match val with
    | some v => (if v ≤ 2 ^ coreMax - 1 then { s with resetMask := v } else s, ⟨some 0, []⟩)
    | none => (s, ⟨some 0, []⟩)
  | .resetSet val E => if val = some 1 then vspaResetSet fuel coreMax E s else (s, ⟨some 0, []⟩)
  | .modemReset => ({ s with cores := { s.cores with live := fun _ => false } }, ⟨some 0, []⟩)

/-- Before the driver is there. -/
def init (mem : Mem) : State := ⟨false, ⟨fun _ => .unknown, fun _ => false, mem⟩, 0, fun _ => false, false⟩

/-! ### A modem -/

/-- A core that takes the image `smallFirst`. -/
def smallCore (startup : Bool) : CoreEnv :=
  { kzalloc := true
    regs := true
    dev := ⟨0, 0⟩
    firmware := .ok (smallFirst, 368)
    kcalloc := true
    dma := promptDma
    startup := startup
    statsInit := 0 }

/-- A probe of eight such cores. -/
def smallBoot : Input := .probe ⟨true, true, true, fun _ => smallCore true⟩

/-- A reset of core 0, which halts, and answers or not. -/
def smallReset (startup : Bool) : List Input :=
  [.resetMaskSet (some 1), .resetSet (some 1) fun _ => ⟨smallCore startup, true⟩]

/-! ### What a state tells of its core -/

/-- The states of a core that runs. -/
def VspaState.runs : VspaState → Bool
  | .runningIdle | .startupErr | .unknown => true
  | _ => false

/-- The states of a running core that `powerdown` does not halt: its start was not
answered, or its halt not seen. -/
def VspaState.stuck : VspaState → Bool
  | .startupErr | .unknown => true
  | _ => false

/-- The states are those of the cores. -/
def Cores.Tracks (c : Cores) : Prop := ∀ n < maxVspa, c.live n = (c.state n).runs

/-- While there is a table, its states are those of the cores. -/
def Inv (s : State) : Prop := s.vspaPriv = true → s.cores.Tracks

/-- No load went into a running core. -/
def Halted (loads : List Load) : Prop := ∀ b ∈ loads, b.live = false

/-- No load of a reset found its core stuck. -/
def Unstuck (loads : List Load) : Prop := ∀ b ∈ loads, ∀ state, b.before = some state → state.stuck = false

/-- The modem is reset while the driver is removed, and the driver probes a modem whose
cores are halted. -/
def Fresh (s : State) : Input → Prop
  | .probe _ => ∀ n < maxVspa, s.cores.live n = false
  | .modemReset => s.vspaPriv = false
  | _ => True

theorem runs_stateAfter (started startup : Bool) : (stateAfter started startup).runs = started := by
  cases started <;> cases startup <;> rfl

/-- A core that is taken down runs on exactly if it was stuck; one that is not seen to halt is
stuck afterwards. -/
theorem takeDown_spec (halts : Bool) {n : ℕ} {c : Cores} (hn : c.live n = (c.state n).runs) :
    ((takeDown halts n c).1 = 0 ∧ (takeDown halts n c).2.live n = (c.state n).stuck) ∨
    ((takeDown halts n c).1 ≠ 0 ∧ halts = false ∧
      (takeDown halts n c).2.live n = ((takeDown halts n c).2.state n).runs) := by
  unfold takeDown powerdown
  cases hst : c.state n <;> cases halts <;>
    simp [hst, hn, VspaState.runs, VspaState.stuck, etime]

theorem takeDown_ne (halts : Bool) {n m : ℕ} (c : Cores) (h : m ≠ n) :
    (takeDown halts n c).2.live m = c.live m ∧ (takeDown halts n c).2.state m = c.state m :=
  ⟨Function.update_of_ne h _ _, Function.update_of_ne h _ _⟩

theorem vspaProbeDev_ne (fuel : ℕ) (E : CoreEnv) {n m : ℕ} (c : Cores) (h : m ≠ n) :
    (vspaProbeDev fuel E n c).2.live m = c.live m ∧ (vspaProbeDev fuel E n c).2.state m = c.state m :=
  ⟨Function.update_of_ne h _ _, Function.update_of_ne h _ _⟩

/-- The state of a core that was halted before its firmware was loaded tells whether it
was set going. -/
theorem vspaProbeDev_tracks (fuel : ℕ) (E : CoreEnv) {n : ℕ} {c : Cores} (hn : c.live n = false) :
    (vspaProbeDev fuel E n c).2.live n = ((vspaProbeDev fuel E n c).2.state n).runs := by
  simp only [vspaProbeDev, Function.update_self, runs_stateAfter, hn, Bool.false_or]

/-! ### The loops -/

/-- The states of the cores are those they had where a core's has been settled. -/
theorem tracks_of_settled {c d : Cores} {n : ℕ} (hc : c.Tracks) (hn : d.live n = (d.state n).runs)
    (hne : ∀ m, m ≠ n → d.live m = c.live m ∧ d.state m = c.state m) : d.Tracks := by
  intro m hm
  by_cases h : m = n
  · rw [h, hn]
  · rw [(hne m h).1, (hne m h).2, hc m hm]

/-- A reset loads into running cores exactly if it finds one stuck, and keeps the states up
to that. -/
theorem resetLoop_spec (fuel mask : ℕ) (E : ℕ → ResetEnv) : ∀ (ns : List ℕ) (ret : ℤ) (c : Cores),
    (∀ n ∈ ns, n < maxVspa) → c.Tracks →
    (Halted (resetLoop fuel mask E ns ret c).2.2 ↔ Unstuck (resetLoop fuel mask E ns ret c).2.2) ∧
      (Halted (resetLoop fuel mask E ns ret c).2.2 → (resetLoop fuel mask E ns ret c).2.1.Tracks)
  | [], _, c, _, hc => ⟨iff_of_true (fun _ h => absurd h List.not_mem_nil) fun _ h => absurd h List.not_mem_nil,
      fun _ => hc⟩
  | n :: ns, ret, c, hns, hc => by
    rw [List.forall_mem_cons] at hns
    rw [resetLoop]
    by_cases hmask : mask.testBit n = true
    · rw [if_pos hmask]
      rcases takeDown_spec (E n).halts (hc n hns.1) with ⟨hret, hlive⟩ | ⟨hret, -, hlive⟩
      · dsimp only
        rw [if_pos hret]
        have hload : ((takeDown (E n).halts n c).2.live n = false ↔
            ∀ state, some (c.state n) = some state → state.stuck = false) := by
          rw [hlive]
          simp
        have htracks : (takeDown (E n).halts n c).2.live n = false →
            (vspaProbeDev fuel (E n).core n (takeDown (E n).halts n c).2).2.Tracks := by
          intro hfalse
          apply tracks_of_settled hc (vspaProbeDev_tracks fuel (E n).core hfalse)
          intro m hm
          obtain ⟨hl, hs⟩ := vspaProbeDev_ne fuel (E n).core (takeDown (E n).halts n c).2 hm
          obtain ⟨hl', hs'⟩ := takeDown_ne (E n).halts c hm
          exact ⟨hl.trans hl', hs.trans hs'⟩
        have hone : ∀ b : Load, (Halted [b] ↔ b.live = false) ∧
            (Unstuck [b] ↔ ∀ state, b.before = some state → state.stuck = false) :=
          fun b => ⟨List.forall_mem_singleton, List.forall_mem_singleton⟩
        cases hdev : (vspaProbeDev fuel (E n).core n (takeDown (E n).halts n c).2).1 with
        | none =>
          dsimp only
          rw [(hone _).1, (hone _).2]
          exact ⟨hload, htracks⟩
        | some r =>
          dsimp only
          by_cases hr : r = 0
          · rw [if_neg (not_not.mpr hr)]
            constructor
            · constructor
              · intro h
                rw [Halted, List.forall_mem_cons] at h
                rw [Unstuck, List.forall_mem_cons]
                exact ⟨hload.mp h.1, (resetLoop_spec fuel mask E ns 0 _ hns.2 (htracks h.1)).1.mp h.2⟩
              · intro h
                rw [Unstuck, List.forall_mem_cons] at h
                rw [Halted, List.forall_mem_cons]
                have hfalse := hload.mpr h.1
                exact ⟨hfalse, (resetLoop_spec fuel mask E ns 0 _ hns.2 (htracks hfalse)).1.mpr h.2⟩
            · intro h
              rw [Halted, List.forall_mem_cons] at h
              exact (resetLoop_spec fuel mask E ns 0 _ hns.2 (htracks h.1)).2 h.2
          · rw [if_pos hr, (hone _).1, (hone _).2]
            exact ⟨hload, htracks⟩
      · dsimp only
        rw [if_neg hret]
        apply resetLoop_spec fuel mask E ns _ _ hns.2
        exact tracks_of_settled hc hlive fun m hm => takeDown_ne (E n).halts c hm
    · rw [if_neg hmask]
      exact resetLoop_spec fuel mask E ns ret c hns.2 hc

/-- A probe that finds the cores halted loads into halted cores, and its table tells which
run. -/
theorem bootLoop_spec (fuel : ℕ) (E : ℕ → CoreEnv) : ∀ (k n : ℕ) (c : Cores) (status : ℕ → Bool),
    (∀ m < n, c.live m = (c.state m).runs) → (∀ m, n ≤ m → m < n + k → c.live m = false) →
    (∀ b ∈ (bootLoop fuel E k n c status).2.2.2, b.live = false ∧ b.before = none) ∧
      ((bootLoop fuel E k n c status).1 = some 0 → ∀ m < n + k,
        (bootLoop fuel E k n c status).2.1.live m = ((bootLoop fuel E k n c status).2.1.state m).runs)
  | 0, n, c, status, hlt, _ => ⟨fun _ h => absurd h List.not_mem_nil, fun _ => hlt⟩
  | k + 1, n, c, status, hlt, hge => by
    have hn : c.live n = false := hge n le_rfl (by omega)
    rw [bootLoop]
    by_cases hkz : (E n).kzalloc = true
    · rw [if_neg (by rw [hkz]; decide)]
      dsimp only
      cases hdev : (vspaProbeDev fuel (E n) n c).1 with
      | none =>
        dsimp only
        exact ⟨List.forall_mem_singleton.mpr ⟨hn, rfl⟩, nofun⟩
      | some err =>
        dsimp only
        by_cases hinval : err = -einval
        · rw [if_pos hinval]
          refine ⟨List.forall_mem_singleton.mpr ⟨hn, rfl⟩, fun h => ?_⟩
          rw [hinval] at h
          exact absurd (Option.some.inj h) (by decide)
        · rw [if_neg hinval]
          by_cases hbadrqc : err = -ebadrqc
          · rw [if_pos hbadrqc]
            refine ⟨List.forall_mem_singleton.mpr ⟨hn, rfl⟩, fun h => ?_⟩
            rw [hbadrqc] at h
            exact absurd (Option.some.inj h) (by decide)
          · rw [if_neg hbadrqc]
            have hrest := bootLoop_spec fuel E k (n + 1) (vspaProbeDev fuel (E n) n c).2 (Function.update status n true)
              (by
                intro m hm
                by_cases hmn : m = n
                · rw [hmn]
                  exact vspaProbeDev_tracks fuel (E n) hn
                · rw [(vspaProbeDev_ne fuel (E n) c hmn).1, (vspaProbeDev_ne fuel (E n) c hmn).2]
                  exact hlt m (by omega))
              (by
                intro m hm hmk
                rw [(vspaProbeDev_ne fuel (E n) c (by omega)).1]
                exact hge m (by omega) (by omega))
            refine ⟨List.forall_mem_cons.mpr ⟨⟨hn, rfl⟩, hrest.1⟩, fun h m hm => ?_⟩
            exact hrest.2 h m (by omega)
    · rw [if_pos (by simpa using hkz)]
      refine ⟨fun _ h => absurd h List.not_mem_nil, fun h => ?_⟩
      exact absurd (Option.some.inj h) (by decide)

/-- The loop of the probe is that of `Probe`: it returns the same and marks the same cores. -/
theorem bootLoop_eq_probeLoop (fuel : ℕ) (E : ℕ → CoreEnv) : ∀ (k n : ℕ) (c : Cores) (status : ℕ → Bool),
    (bootLoop fuel E k n c status).1 = (probeLoop fuel (fun n => mapped (E n)) k n c.mem status).ret ∧
      (bootLoop fuel E k n c status).2.2.1 = (probeLoop fuel (fun n => mapped (E n)) k n c.mem status).status
  | 0, _, _, _ => ⟨rfl, rfl⟩
  | k + 1, n, c, status => by
    rw [bootLoop, probeLoop]
    by_cases hkz : (E n).kzalloc = true
    · rw [if_neg (by rw [hkz]; decide), if_neg (by rw [mapped, hkz]; decide)]
      have hret : (vspaProbeDev fuel (E n) n c).1 = (vspaProbeCore fuel (mapped (E n)) c.mem).ret := rfl
      dsimp only
      rw [hret]
      cases (vspaProbeCore fuel (mapped (E n)) c.mem).ret with
      | none => exact ⟨rfl, rfl⟩
      | some err =>
        dsimp only
        split_ifs
        · exact ⟨rfl, rfl⟩
        · exact ⟨rfl, rfl⟩
        · exact bootLoop_eq_probeLoop fuel E k (n + 1) _ _
    · rw [if_pos (by simpa using hkz), if_pos (by simpa [mapped] using hkz)]
      exact ⟨rfl, rfl⟩

/-! ### Runs -/

section Runs

variable (fuel : ℕ) {coreMax : ℕ}

/-- **One step.** It loads into running cores exactly if it finds one stuck, and keeps the
states up to that. -/
theorem step_spec (hmax : coreMax ≤ maxVspa) {s : State} {i : Input} (hs : Inv s) (hi : Fresh s i) :
    (Halted (step fuel coreMax s i).2.loads ↔ Unstuck (step fuel coreMax s i).2.loads) ∧
      (Halted (step fuel coreMax s i).2.loads → Inv (step fuel coreMax s i).1) := by
  have hnone : (Halted [] ↔ Unstuck []) :=
    iff_of_true (fun _ h => absurd h List.not_mem_nil) fun _ h => absurd h List.not_mem_nil
  unfold step
  by_cases hdead : s.dead = true
  · rw [if_pos hdead]
    exact ⟨hnone, fun _ => hs⟩
  rw [if_neg hdead]
  cases i with
  | probe P =>
    dsimp only
    unfold vspaProbe
    split_ifs
    · exact ⟨hnone, fun _ => hs⟩
    · exact ⟨hnone, fun _ => Bool.noConfusion⟩
    · exact ⟨hnone, fun _ => Bool.noConfusion⟩
    · obtain ⟨hloads, htracks⟩ := bootLoop_spec fuel P.core maxVspa 0 s.cores s.status
        (fun m hm => absurd hm (Nat.not_lt_zero m))
        fun m _ hm => hi m (by omega)
      constructor
      · refine iff_of_true (fun b hb => (hloads b hb).1) fun b hb state hstate => ?_
        rw [(hloads b hb).2] at hstate
        cases hstate
      · intro _ hpriv m hm
        exact htracks (of_decide_eq_true hpriv) m (by omega)
  | remove => exact ⟨hnone, fun _ => Bool.noConfusion⟩
  | resetMaskSet val =>
    cases val with
    | none => exact ⟨hnone, fun _ => hs⟩
    | some v =>
      refine ⟨hnone, fun _ => ?_⟩
      dsimp only
      split_ifs
      · exact hs
      · exact hs
  | resetSet val E =>
    dsimp only
    split_ifs
    · unfold vspaResetSet
      split_ifs with hpriv
      · have hns : ∀ n ∈ List.range coreMax, n < maxVspa := fun n hn => (List.mem_range.mp hn).trans_le hmax
        obtain ⟨hiff, htracks⟩ := resetLoop_spec fuel s.resetMask E (List.range coreMax) 0 s.cores hns (hs hpriv)
        exact ⟨hiff, fun h _ => htracks h⟩
      · exact ⟨hnone, fun _ => hs⟩
    · exact ⟨hnone, fun _ => hs⟩
  | modemReset =>
    refine ⟨hnone, fun _ hpriv => ?_⟩
    have hfalse : s.vspaPriv = false := hi
    exact absurd (hpriv.symm.trans hfalse) (by decide)

theorem init_inv (mem : Mem) : Inv (init mem) := Bool.noConfusion

/-- From a state whose table is that of the cores. -/
theorem halted_iff_unstuck (hmax : coreMax ≤ maxVspa) : ∀ {is : List Input} {s : State}, Inv s →
    Guarded (step fuel coreMax) Fresh s is →
    ((∀ p ∈ outs (step fuel coreMax) s is, Halted p.2.loads) ↔ ∀ p ∈ outs (step fuel coreMax) s is, Unstuck p.2.loads)
  | [], _, _, _ => iff_of_true (fun _ h => absurd h List.not_mem_nil) fun _ h => absurd h List.not_mem_nil
  | i :: is, s, hs, hg => by
    obtain ⟨hiff, hinv⟩ := step_spec fuel hmax hs hg.1
    rw [outs, List.forall_mem_cons, List.forall_mem_cons]
    constructor
    · rintro ⟨h, hrest⟩
      exact ⟨hiff.mp h, (halted_iff_unstuck hmax (hinv h) hg.2).mp hrest⟩
    · rintro ⟨h, hrest⟩
      have hhalted := hiff.mpr h
      exact ⟨hhalted, (halted_iff_unstuck hmax (hinv hhalted) hg.2).mpr hrest⟩

/-- **Firmware meets a running core only where the driver knows of a failure.** In a run
that resets the modem while the driver is removed and probes it with its cores halted, some
load goes into a core that still runs exactly if some reset finds a core in
`VSPA_STATE_STARTUP_ERR` or `VSPA_STATE_UNKNOWN`. -/
theorem loads_halted_iff (hmax : coreMax ≤ maxVspa) (mem : Mem) (is : List Input)
    (hg : Guarded (step fuel coreMax) Fresh (init mem) is) :
    (∀ p ∈ outs (step fuel coreMax) (init mem) is, ∀ b ∈ p.2.loads, b.live = false) ↔
      ∀ p ∈ outs (step fuel coreMax) (init mem) is, ∀ b ∈ p.2.loads,
        b.before ≠ some .startupErr ∧ b.before ≠ some .unknown := by
  refine (halted_iff_unstuck fuel hmax (init_inv mem) hg).trans (forall₂_congr fun p _ => forall₂_congr fun b _ => ?_)
  cases hb : b.before with
  | none => simp
  | some state => cases state <;> simp [VspaState.stuck]

end Runs

/-! ### Runs without a failure -/

/-- No core is stuck. -/
def Cores.Free (c : Cores) : Prop := ∀ n < maxVspa, (c.state n).stuck = false

/-- Every start is answered, and every halt seen. -/
def Answered : Input → Prop
  | .probe P => ∀ n, (P.core n).startup = true
  | .resetSet _ E => ∀ n, (E n).halts = true ∧ (E n).core.startup = true
  | _ => True

theorem stuck_stateAfter (started : Bool) : (stateAfter started true).stuck = false := by
  cases started <;> rfl

/-- A core whose start is answered is not stuck. -/
theorem vspaProbeDev_free (fuel : ℕ) {E : CoreEnv} {n : ℕ} {c d : Cores} (hd : d.Free) (hE : E.startup = true)
    (hne : ∀ m, m ≠ n → c.state m = d.state m) : (vspaProbeDev fuel E n c).2.Free := by
  intro m hm
  by_cases h : m = n
  · simp only [vspaProbeDev, h, Function.update_self, hE, stuck_stateAfter]
  · rw [(vspaProbeDev_ne fuel E c h).2, hne m h]
    exact hd m hm

theorem resetLoop_free (fuel mask : ℕ) {E : ℕ → ResetEnv} (hE : ∀ n, (E n).halts = true ∧ (E n).core.startup = true) :
    ∀ (ns : List ℕ) (ret : ℤ) (c : Cores), (∀ n ∈ ns, n < maxVspa) → c.Tracks → c.Free →
      Unstuck (resetLoop fuel mask E ns ret c).2.2 ∧ (resetLoop fuel mask E ns ret c).2.1.Free
  | [], _, _, _, _, hfree => ⟨fun _ h => absurd h List.not_mem_nil, hfree⟩
  | n :: ns, ret, c, hns, hc, hfree => by
    rw [List.forall_mem_cons] at hns
    rw [resetLoop]
    by_cases hmask : mask.testBit n = true
    · rw [if_pos hmask]
      rcases takeDown_spec (E n).halts (hc n hns.1) with ⟨hret, hlive⟩ | ⟨-, hhalts, -⟩
      · dsimp only
        rw [if_pos hret]
        have hstuck := hfree n hns.1
        have hload : ∀ state, some (c.state n) = some state → state.stuck = false := by
          rintro state ⟨rfl⟩
          exact hstuck
        have hdev : (vspaProbeDev fuel (E n).core n (takeDown (E n).halts n c).2).2.Free :=
          vspaProbeDev_free fuel hfree (hE n).2 fun m hm => (takeDown_ne (E n).halts c hm).2
        have htracks : (vspaProbeDev fuel (E n).core n (takeDown (E n).halts n c).2).2.Tracks := by
          apply tracks_of_settled hc (vspaProbeDev_tracks fuel (E n).core (hlive.trans hstuck))
          intro m hm
          obtain ⟨hl, hs⟩ := vspaProbeDev_ne fuel (E n).core (takeDown (E n).halts n c).2 hm
          obtain ⟨hl', hs'⟩ := takeDown_ne (E n).halts c hm
          exact ⟨hl.trans hl', hs.trans hs'⟩
        cases (vspaProbeDev fuel (E n).core n (takeDown (E n).halts n c).2).1 with
        | none => exact ⟨List.forall_mem_singleton.mpr hload, hdev⟩
        | some r =>
          dsimp only
          split_ifs
          · exact ⟨List.forall_mem_singleton.mpr hload, hdev⟩
          · obtain ⟨hrest, hlast⟩ := resetLoop_free fuel mask hE ns 0 _ hns.2 htracks hdev
            exact ⟨List.forall_mem_cons.mpr ⟨hload, hrest⟩, hlast⟩
      · exact absurd ((hE n).1.symm.trans hhalts) (by decide)
    · rw [if_neg hmask]
      exact resetLoop_free fuel mask hE ns ret c hns.2 hc hfree

theorem bootLoop_free (fuel : ℕ) {E : ℕ → CoreEnv} (hE : ∀ n, (E n).startup = true) :
    ∀ (k n : ℕ) (c : Cores) (status : ℕ → Bool), (∀ m < n, (c.state m).stuck = false) →
      (bootLoop fuel E k n c status).1 = some 0 →
      ∀ m < n + k, ((bootLoop fuel E k n c status).2.1.state m).stuck = false
  | 0, _, _, _, hlt, _ => hlt
  | k + 1, n, c, status, hlt, h => by
    rw [bootLoop] at h ⊢
    by_cases hkz : (E n).kzalloc = true
    · rw [if_neg (by rw [hkz]; decide)] at h ⊢
      dsimp only at h ⊢
      cases hdev : (vspaProbeDev fuel (E n) n c).1 with
      | none =>
        rw [hdev] at h
        cases h
      | some err =>
        rw [hdev] at h
        dsimp only at h ⊢
        by_cases hinval : err = -einval
        · rw [if_pos hinval, hinval] at h
          exact absurd (Option.some.inj h) (by decide)
        rw [if_neg hinval] at h ⊢
        by_cases hbadrqc : err = -ebadrqc
        · rw [if_pos hbadrqc, hbadrqc] at h
          exact absurd (Option.some.inj h) (by decide)
        rw [if_neg hbadrqc] at h ⊢
        have hnext : ∀ m < n + 1, ((vspaProbeDev fuel (E n) n c).2.state m).stuck = false := by
          intro m hm
          by_cases hmn : m = n
          · simp only [vspaProbeDev, hmn, Function.update_self, hE, stuck_stateAfter]
          · rw [(vspaProbeDev_ne fuel (E n) c hmn).2]
            exact hlt m (by omega)
        intro m hm
        exact bootLoop_free fuel hE k (n + 1) _ _ hnext h m (by omega)
    · rw [if_pos (by simpa using hkz)] at h
      exact absurd (Option.some.inj h) (by decide)

section Runs

variable (fuel : ℕ) {coreMax : ℕ}

/-- One step of a run without a failure. -/
theorem step_free (hmax : coreMax ≤ maxVspa) {s : State} {i : Input} (hs : Inv s)
    (hfree : s.vspaPriv = true → s.cores.Free) (hfresh : Fresh s i) (hi : Answered i) :
    Unstuck (step fuel coreMax s i).2.loads ∧
      ((step fuel coreMax s i).1.vspaPriv = true → (step fuel coreMax s i).1.cores.Free) := by
  have hnone : Unstuck [] := fun _ h => absurd h List.not_mem_nil
  unfold step
  by_cases hdead : s.dead = true
  · rw [if_pos hdead]
    exact ⟨hnone, hfree⟩
  rw [if_neg hdead]
  cases i with
  | probe P =>
    dsimp only
    unfold vspaProbe
    split_ifs
    · exact ⟨hnone, hfree⟩
    · exact ⟨hnone, False.elim⟩
    · exact ⟨hnone, False.elim⟩
    · obtain ⟨hloads, -⟩ := bootLoop_spec fuel P.core maxVspa 0 s.cores s.status
        (fun m hm => absurd hm (Nat.not_lt_zero m))
        fun m _ hm => hfresh m (by omega)
      constructor
      · intro b hb state hstate
        rw [(hloads b hb).2] at hstate
        cases hstate
      · intro hpriv m hm
        exact bootLoop_free fuel hi maxVspa 0 s.cores s.status (fun m hm => absurd hm (Nat.not_lt_zero m))
          (of_decide_eq_true hpriv) m (by omega)
  | remove => exact ⟨hnone, Bool.noConfusion⟩
  | resetMaskSet val =>
    cases val with
    | none => exact ⟨hnone, hfree⟩
    | some v =>
      refine ⟨hnone, ?_⟩
      dsimp only
      split_ifs
      · exact hfree
      · exact hfree
  | resetSet val E =>
    dsimp only
    split_ifs
    · unfold vspaResetSet
      split_ifs with hpriv
      · have hns : ∀ n ∈ List.range coreMax, n < maxVspa := fun n hn => (List.mem_range.mp hn).trans_le hmax
        obtain ⟨hloads, hcores⟩ :=
          resetLoop_free fuel s.resetMask hi (List.range coreMax) 0 s.cores hns (hs hpriv) (hfree hpriv)
        exact ⟨hloads, fun _ => hcores⟩
      · exact ⟨hnone, hfree⟩
    · exact ⟨hnone, hfree⟩
  | modemReset => exact ⟨hnone, hfree⟩

theorem halted_of_answered (hmax : coreMax ≤ maxVspa) : ∀ {is : List Input} {s : State}, Inv s →
    (s.vspaPriv = true → s.cores.Free) → Guarded (step fuel coreMax) (fun s i => Fresh s i ∧ Answered i) s is →
    ∀ p ∈ outs (step fuel coreMax) s is, Halted p.2.loads
  | [], _, _, _, _ => fun _ h => absurd h List.not_mem_nil
  | i :: is, s, hs, hfree, hg => by
    obtain ⟨hiff, hinv⟩ := step_spec fuel hmax hs hg.1.1
    obtain ⟨hunstuck, hnext⟩ := step_free fuel hmax hs hfree hg.1.1 hg.1.2
    have hhalted := hiff.mpr hunstuck
    rw [outs, List.forall_mem_cons]
    exact ⟨hhalted, halted_of_answered hmax (hinv hhalted) hnext hg.2⟩

/-- **No failure, no meeting.** In a run that resets the modem while the driver is removed and
probes it with its cores halted, and whose starts are all answered and halts all seen, no
firmware is loaded into a core that runs. -/
theorem loads_halted_of_answered (hmax : coreMax ≤ maxVspa) (mem : Mem) (is : List Input)
    (hg : Guarded (step fuel coreMax) Fresh (init mem) is) (hans : ∀ i ∈ is, Answered i) :
    ∀ p ∈ outs (step fuel coreMax) (init mem) is, ∀ b ∈ p.2.loads, b.live = false :=
  halted_of_answered fuel hmax (init_inv mem) Bool.noConfusion (guarded_and hg hans)

/-- A modem whose core 0 is reset twice: the second time it runs, for its start was not
answered the first time. -/
theorem loads_halted_iff_of_two_resets :
    ¬ ∀ p ∈ outs (step 4 8) (init fun _ => 0) (smallBoot :: smallReset false ++ smallReset true),
      ∀ b ∈ p.2.loads, b.live = false := by
  have hiff := @loads_halted_iff 4 8 (by decide) (fun _ => 0) (smallBoot :: smallReset false ++ smallReset true)
    ⟨fun _ _ => rfl, trivial, trivial, trivial, trivial, trivial⟩
  rw [hiff]
  decide +kernel

theorem loads_halted_of_answered_reset :
    Guarded (step 4 8) Fresh (init fun _ => 0) (smallBoot :: smallReset true ++ smallReset true) ∧
      ∀ p ∈ outs (step 4 8) (init fun _ => 0) (smallBoot :: smallReset true ++ smallReset true),
        ∀ b ∈ p.2.loads, b.live = false := by
  have hfresh : Guarded (step 4 8) Fresh (init fun _ => 0) (smallBoot :: smallReset true ++ smallReset true) :=
    ⟨fun _ _ => rfl, trivial, trivial, trivial, trivial, trivial⟩
  exact ⟨hfresh, loads_halted_of_answered 4 (by decide) (fun _ => 0) (smallBoot :: smallReset true ++ smallReset true)
    hfresh (by simp [smallBoot, smallReset, smallCore, Answered])⟩

end Runs

end Lifecycle
end Vspa
end La12xx
