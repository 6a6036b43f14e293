/-
# Booting the VSPA cores

`vspa_probe` boots the cores one after the other: it reads the firmware file
into the scratch region, loads it (`gul_load_vspa_image`), sets the core going
and registers its statistics. What it did for each core is kept in a log.

A core is set going, and its firmware marked as loaded, exactly when its load
has returned 0 (`started_iff`). So the probe is as honest as the loads
(`load_honest_iff`).
-/
import La12xx.Vspa.Honest

namespace La12xx
namespace Vspa

open ByteMem

/-- `EFAULT` -/
def efault : ℤ := 14

/-- `ENOMEM` -/
def enomem : ℤ := 12

/-- `EADDRNOTAVAIL` -/
def eaddrnotavail : ℤ := 99

/-- `ENOBUFS` -/
def enobufs : ℤ := 105

/-- `EBADRQC` -/
def ebadrqc : ℤ := 56

/-- `GUL_VSPA_SCRATCH_BUF_MAX_SIZE` -/
def gulVspaScratchBufMaxSize : ℕ := 10 * 1024 * 1024

/-- `MAX_VSPA` -/
def maxVspa : ℕ := 8

/-! ### One core -/

/-- What the probe of one core meets. -/
structure CoreEnv where
  /-- the `vspa_device` is allocated -/
  kzalloc : Bool
  /-- the registers are mapped; both checks look at `regs` -/
  regs : Bool
  dev : VspaDev
  /-- `request_firmware`: the file and its size, or the error `-e - 1` -/
  firmware : Except ℕ (Mem × ℕ)
  /-- the table of sections is allocated -/
  kcalloc : Bool
  dma : ℕ → DmaResp
  /-- the core answers after it is set going -/
  startup : Bool
  statsInit : ℤ

/-- `gul_udev_load_firmware`: the buffer with the file in it, and its size. -/
def gulUdevLoadFirmware (buf : Mem) (buffSz : ℕ) : Except ℕ (Mem × ℕ) → Except ℤ (Mem × ℕ)
  | .error e => .error (-e - 1)
  | .ok (data, size) => if buffSz < size then .error (-enobufs) else .ok (copy buf 0 data 0 size, size)

/-- What `vspa_get_fw_image` leaves: the image as it was loaded and what became
of it, if it came to that, and the scratch region. -/
structure FwOut where
  ret : Option ℤ
  image : Option (Mem × ℕ)
  load : Option LoadOut
  mem : Mem

/-- `vspa_get_fw_image`. -/
def vspaGetFwImage (fuel : ℕ) (E : CoreEnv) (mem : Mem) : FwOut :=
  match gulUdevLoadFirmware mem gulVspaScratchBufMaxSize E.firmware with
  | .error _ => ⟨some (-efault), none, none, mem⟩
  | .ok (F, size) =>
    let out := gulLoadVspaImage fuel E.dev E.kcalloc E.dma F size
    let mem := match out.load with
      | some r => r.st.mem
      | none => F
    ⟨out.ret.map fun ret => if ret < 0 then -efault else 0, some (F, size), out.load, mem⟩

/-- What the probe of one core leaves. -/
structure CoreOut where
  ret : Option ℤ
  fw : Option FwOut
  /-- `CONTROL_HOST_GO` was set -/
  started : Bool
  mem : Mem

/-- `__vspa_probe`. -/
def vspaProbeCore (fuel : ℕ) (E : CoreEnv) (mem : Mem) : CoreOut :=
  if !E.regs then ⟨some (-einval), none, false, mem⟩ else
  let fw := vspaGetFwImage fuel E mem
  match fw.ret with
  | none => ⟨none, some fw, false, fw.mem⟩
  | some ret =>
    if ret ≠ 0 then ⟨some (-ebadrqc), some fw, false, fw.mem⟩
    -- `startup` sets the core going, and then waits for its answer
    else if !E.startup then ⟨some (-ebadrqc), some fw, true, fw.mem⟩
    else if E.statsInit < 0 then ⟨some (-ebadrqc), some fw, true, fw.mem⟩
    else ⟨some 0, some fw, true, fw.mem⟩

/-! ### All cores -/

/-- The log of a core: the scratch region before its probe, what the probe
left, and whether its `vspa_firmware_status` was set. -/
structure CoreRun where
  core : ℕ
  before : Mem
  out : CoreOut
  marked : Bool

/-- The value returned, the log and `vspa_firmware_status`. -/
structure ProbeOut where
  ret : Option ℤ
  cores : List CoreRun
  status : ℕ → Bool

/-- The clean-up at `err_mem_single_out`. -/
def clearStatus (status : ℕ → Bool) (vspaNum : ℕ) : ℕ → Bool := fun n => if n < vspaNum then false else status n

/-- The loop of `vspa_probe` over the next `k` cores. -/
def probeLoop (fuel : ℕ) (E : ℕ → CoreEnv) : ℕ → ℕ → Mem → (ℕ → Bool) → ProbeOut
  | 0, _, _, status => ⟨some 0, [], status⟩
  | k + 1, vspaNum, mem, status =>
    if !(E vspaNum).kzalloc then ⟨some (-enomem), [], clearStatus status vspaNum⟩ else
    let c := vspaProbeCore fuel (E vspaNum) mem
    match c.ret with
    | none => ⟨none, [⟨vspaNum, mem, c, false⟩], status⟩
    | some err =>
      if err = -einval then ⟨some err, [⟨vspaNum, mem, c, false⟩], status⟩
      else if err = -ebadrqc then ⟨some err, [⟨vspaNum, mem, c, false⟩], clearStatus status vspaNum⟩
      else
        let r := probeLoop fuel E k (vspaNum + 1) c.mem (Function.update status vspaNum true)
        ⟨r.ret, ⟨vspaNum, mem, c, true⟩ :: r.cores, r.status⟩

/-- What `vspa_probe` meets. -/
structure ProbeEnv where
  kzalloc : Bool
  dmaRegion : Bool
  overlayRegion : Bool
  core : ℕ → CoreEnv
  mem : Mem
  status : ℕ → Bool

/-- `vspa_probe`. -/
def vspaProbe (fuel : ℕ) (P : ProbeEnv) : ProbeOut :=
  -- `err` is still 0 when the first allocation fails
  if !P.kzalloc then ⟨some 0, [], P.status⟩
  else if !P.dmaRegion then ⟨some (-eaddrnotavail), [], P.status⟩
  else if !P.overlayRegion then ⟨some (-eaddrnotavail), [], P.status⟩
  else probeLoop fuel P.core maxVspa 0 P.mem P.status

/-! ### Honesty -/

/-- The image of this core is one for which success is honest: it is not an
image of this machine, has no section tables, or is loud or sound. -/
def ImageSound (fuel : ℕ) (E : CoreEnv) (F : Mem) (size : ℕ) : Prop :=
  (fileHeader F).IsVspa →
    ∀ info, fwReadAndLoadSectionsInfo fuel F (fileHeader F) E.kcalloc = .ok info →
      LoudOrSound E.dev info E.dma (fileHeader F) size F

/-- The core's image was loaded completely and without an error. -/
def CoreRun.LoadedWell (fuel : ℕ) (P : ProbeEnv) (c : CoreRun) : Prop :=
  let E := P.core c.core
  ∃ fw F size info r, c.out.fw = some fw ∧ fw.image = some (F, size) ∧ fw.load = some r ∧
    fwReadAndLoadSectionsInfo fuel F (fileHeader F) E.kcalloc = .ok info ∧ r.ret = some 0 ∧
    Complete E.dev info (fileHeader F) F r

/-- The core was only set going, or marked, after a complete load. -/
def CoreRun.Honest (fuel : ℕ) (P : ProbeEnv) (c : CoreRun) : Prop :=
  c.out.started = true ∨ c.marked = true → c.LoadedWell fuel P

/-- The file of this core, read into the scratch region as it was before, is
sound. -/
def CoreRun.Sound (fuel : ℕ) (P : ProbeEnv) (c : CoreRun) : Prop :=
  let E := P.core c.core
  E.regs = true → ∀ F size, gulUdevLoadFirmware c.before gulVspaScratchBufMaxSize E.firmware = .ok (F, size) →
    ImageSound fuel E F size

/-! ### From the probe to the loads -/

section Core

variable {fuel : ℕ} {E : CoreEnv} {mem : Mem}

/-- The image that is in the scratch region is the one that is loaded, and
`vspa_get_fw_image` succeeds exactly if it is accepted. -/
theorem vspaGetFwImage_spec (fuel : ℕ) (E : CoreEnv) (mem : Mem) :
    (∃ F size, gulUdevLoadFirmware mem gulVspaScratchBufMaxSize E.firmware = .ok (F, size) ∧
      (vspaGetFwImage fuel E mem).image = some (F, size) ∧
      (vspaGetFwImage fuel E mem).load = (gulLoadVspaImage fuel E.dev E.kcalloc E.dma F size).load ∧
      ((vspaGetFwImage fuel E mem).ret = some 0 ↔
        (gulLoadVspaImage fuel E.dev E.kcalloc E.dma F size).ret = some 0)) ∨
    ((∃ e, gulUdevLoadFirmware mem gulVspaScratchBufMaxSize E.firmware = .error e) ∧
      (vspaGetFwImage fuel E mem).ret ≠ some 0) := by
  unfold vspaGetFwImage
  cases gulUdevLoadFirmware mem gulVspaScratchBufMaxSize E.firmware with
  | error e =>
    refine Or.inr ⟨⟨e, rfl⟩, fun h => ?_⟩
    have hzero : -efault = 0 := Option.some.inj h
    exact absurd hzero (by decide)
  | ok file =>
    obtain ⟨F, size⟩ := file
    refine Or.inl ⟨F, size, rfl, rfl, rfl, ?_⟩
    dsimp only
    cases hret : (gulLoadVspaImage fuel E.dev E.kcalloc E.dma F size).ret with
    | none => exact Iff.rfl
    | some ret =>
      rcases gulLoadVspaImage_ret hret with rfl | hneg
      · exact iff_of_true rfl rfl
      · rw [Option.map_some, if_pos hneg]
        refine iff_of_false (by decide) fun h => ?_
        obtain rfl := Option.some.inj h
        omega

/-- The three ways a core's probe goes: its registers are not there, its image
is not loaded, or it is set going. -/
theorem vspaProbeCore_cases (fuel : ℕ) (E : CoreEnv) (mem : Mem) :
    let c := vspaProbeCore fuel E mem
    let fw := vspaGetFwImage fuel E mem
    (c.fw = none ∧ c.started = false ∧ c.ret = some (-einval)) ∨
    (c.fw = some fw ∧ fw.ret ≠ some 0 ∧ c.started = false ∧ (c.ret = none ∨ c.ret = some (-ebadrqc))) ∨
    (c.fw = some fw ∧ fw.ret = some 0 ∧ c.started = true ∧ (c.ret = some (-ebadrqc) ∨ c.ret = some 0)) := by
  intro c fw
  dsimp only [c, vspaProbeCore]
  by_cases hregs : E.regs = true
  · right
    rw [if_neg (by rw [hregs]; decide)]
    cases hret : fw.ret with
    | none =>
      left
      exact ⟨rfl, nofun, rfl, Or.inl rfl⟩
    | some ret =>
      dsimp only
      by_cases hz : ret ≠ 0
      · left
        rw [if_pos hz]
        exact ⟨rfl, fun h => hz (Option.some.inj h), rfl, Or.inr rfl⟩
      · right
        rw [if_neg hz]
        rw [not_not] at hz
        refine ⟨?_, congrArg some hz, ?_, ?_⟩ <;> split_ifs <;> simp [fw]
  · left
    rw [if_pos (by simpa using hregs)]
    exact ⟨rfl, rfl, rfl⟩

/-- A core is set going exactly if its image was loaded. -/
theorem started_iff :
    (vspaProbeCore fuel E mem).started = true ↔
      ∃ fw, (vspaProbeCore fuel E mem).fw = some fw ∧ fw.ret = some 0 := by
  obtain ⟨hfw, hst, -⟩ | ⟨hfw, hret, hst, -⟩ | ⟨hfw, hret, hst, -⟩ := vspaProbeCore_cases fuel E mem
  · rw [hfw, hst]
    simp
  · rw [hfw, hst]
    refine iff_of_false Bool.noConfusion ?_
    rintro ⟨fw, hsome, hz⟩
    obtain rfl := Option.some.inj hsome
    exact hret hz
  · exact iff_of_true hst ⟨_, hfw, hret⟩

theorem started_of_ret {err : ℤ} (h : (vspaProbeCore fuel E mem).ret = some err) (hinval : err ≠ -einval)
    (hbadrqc : err ≠ -ebadrqc) : (vspaProbeCore fuel E mem).started = true := by
  obtain ⟨-, -, hret⟩ | ⟨-, -, -, hret | hret⟩ | ⟨-, -, hst, -⟩ := vspaProbeCore_cases fuel E mem
  · exact absurd (Option.some.inj (h.symm.trans hret)) hinval
  · rw [hret] at h
    cases h
  · exact absurd (Option.some.inj (h.symm.trans hret)) hbadrqc
  · exact hst

/-- What the log says of a core is what its probe did, and a core is marked
only if it was set going. -/
theorem mem_cores {E : ℕ → CoreEnv} {c : CoreRun} : ∀ {k vspaNum : ℕ} {mem : Mem} {status : ℕ → Bool},
    c ∈ (probeLoop fuel E k vspaNum mem status).cores →
    c.out = vspaProbeCore fuel (E c.core) c.before ∧ (c.marked = true → c.out.started = true)
  | 0, _, _, _, h => absurd h List.not_mem_nil
  | k + 1, vspaNum, mem, status, h => by
    rw [probeLoop] at h
    by_cases hkz : (E vspaNum).kzalloc = true
    · rw [if_neg (by rw [hkz]; decide)] at h
      dsimp only at h
      cases hret : (vspaProbeCore fuel (E vspaNum) mem).ret with
      | none =>
        rw [hret, List.mem_singleton] at h
        subst h
        exact ⟨rfl, Bool.noConfusion⟩
      | some err =>
        rw [hret] at h
        dsimp only at h
        split_ifs at h with hinval hbadrqc
        · obtain rfl := List.mem_singleton.mp h
          exact ⟨rfl, Bool.noConfusion⟩
        · obtain rfl := List.mem_singleton.mp h
          exact ⟨rfl, Bool.noConfusion⟩
        · rcases List.mem_cons.mp h with rfl | htail
          · exact ⟨rfl, fun _ => started_of_ret hret hinval hbadrqc⟩
          · exact mem_cores htail
    · rw [if_pos (by simpa using hkz)] at h
      exact absurd h List.not_mem_nil

/-- The status of a core is only set by marking it. -/
theorem status_of_marked {E : ℕ → CoreEnv} {n : ℕ} : ∀ {k vspaNum : ℕ} {mem : Mem} {status : ℕ → Bool},
    (probeLoop fuel E k vspaNum mem status).status n = true →
    status n = true ∨ ∃ c ∈ (probeLoop fuel E k vspaNum mem status).cores, c.core = n ∧ c.marked = true
  | 0, _, _, _, h => Or.inl h
  | k + 1, vspaNum, mem, status, h => by
    have hclear : ∀ {m}, clearStatus status m n = true → status n = true := by
      intro m hm
      unfold clearStatus at hm
      split_ifs at hm
      exact hm
    rw [probeLoop] at h ⊢
    by_cases hkz : (E vspaNum).kzalloc = true
    · rw [if_neg (by rw [hkz]; decide)] at h ⊢
      dsimp only at h ⊢
      cases hret : (vspaProbeCore fuel (E vspaNum) mem).ret with
      | none =>
        rw [hret] at h
        exact Or.inl h
      | some err =>
        rw [hret] at h
        dsimp only at h ⊢
        split_ifs at h ⊢ with hinval hbadrqc
        · exact Or.inl h
        · exact Or.inl (hclear h)
        · obtain hst | ⟨c, hc, hcore, hmarked⟩ := status_of_marked h
          · by_cases hn : n = vspaNum
            · exact Or.inr ⟨_, List.mem_cons_self, hn.symm, rfl⟩
            · rw [Function.update_of_ne hn] at hst
              exact Or.inl hst
          · exact Or.inr ⟨c, List.mem_cons_of_mem _ hc, hcore, hmarked⟩
    · rw [if_pos (by simpa using hkz)] at h
      exact Or.inl (hclear h)

/-- The image is loaded exactly if the registers are there. -/
theorem fw_eq_some_iff {fw : FwOut} :
    (vspaProbeCore fuel E mem).fw = some fw ↔ E.regs = true ∧ fw = vspaGetFwImage fuel E mem := by
  unfold vspaProbeCore
  by_cases hregs : E.regs = true
  · have hfw : ∀ out : CoreOut, out.fw = some (vspaGetFwImage fuel E mem) →
        (out.fw = some fw ↔ E.regs = true ∧ fw = vspaGetFwImage fuel E mem) := by
      intro out hout
      rw [hout, Option.some_inj, eq_comm]
      exact (and_iff_right hregs).symm
    rw [if_neg (by rw [hregs]; decide)]
    apply hfw
    dsimp only
    split
    · rfl
    · split_ifs <;> rfl
  · rw [if_pos (by simpa using hregs)]
    exact iff_of_false nofun fun h => hregs h.1

/-- One core is treated honestly exactly if its image is sound. -/
theorem honest_iff_sound {P : ProbeEnv} {c : CoreRun}
    (hout : c.out = vspaProbeCore fuel (P.core c.core) c.before)
    (hmark : c.marked = true → c.out.started = true) : c.Honest fuel P ↔ c.Sound fuel P := by
  obtain ⟨F, size, hfile, himage, hload, hiff⟩ | ⟨⟨e, hfile⟩, hne⟩ :=
    vspaGetFwImage_spec fuel (P.core c.core) c.before
  · constructor
    · intro hhonest hregs F' size' hfile' hmach info hinfo
      obtain ⟨rfl, rfl⟩ := Prod.mk.inj (Except.ok.inj (hfile.symm.trans hfile'))
      rw [← complete_iff_loudOrSound]
      intro hret
      have hacc := accepted_iff.mpr ⟨hmach, info, hinfo, hret⟩
      have hfw : (vspaProbeCore fuel (P.core c.core) c.before).fw =
          some (vspaGetFwImage fuel (P.core c.core) c.before) := fw_eq_some_iff.mpr ⟨hregs, rfl⟩
      have hstarted : c.out.started = true := by
        rw [hout]
        exact started_iff.mpr ⟨_, hfw, hiff.mpr hacc⟩
      obtain ⟨fw₁, F₁, size₁, info₁, r, hfw₁, himage₁, hload₁, hinfo₁, -, hcomplete⟩ := hhonest (Or.inl hstarted)
      rw [hout] at hfw₁
      obtain rfl := Option.some.inj (hfw.symm.trans hfw₁)
      obtain ⟨rfl, rfl⟩ := Prod.mk.inj (Option.some.inj (himage.symm.trans himage₁))
      obtain rfl := Parsed.ok.inj (hinfo.symm.trans hinfo₁)
      rw [hload, load_of_ok _ _ _ hmach hinfo] at hload₁
      obtain rfl := Option.some.inj hload₁
      exact hcomplete
    · intro hsound hor
      have hstarted : c.out.started = true := hor.elim id hmark
      rw [hout] at hstarted
      obtain ⟨fw, hfw, hzero⟩ := started_iff.mp hstarted
      obtain ⟨hregs, rfl⟩ := fw_eq_some_iff.mp hfw
      obtain ⟨hmach, info, hinfo, hret⟩ := accepted_iff.mp (hiff.mp hzero)
      have hlos := hsound hregs F size hfile hmach info hinfo
      rw [load_of_ok _ _ _ hmach hinfo] at hload
      exact ⟨_, F, size, info, _, hout ▸ hfw, himage, hload, hinfo, hret,
        (complete_iff_loudOrSound _ info _ _ size F).mpr hlos hret⟩
  · refine iff_of_true ?_ fun _ F size hfile' => ?_
    · intro hor
      have hstarted : c.out.started = true := hor.elim id hmark
      rw [hout] at hstarted
      obtain ⟨fw, hfw, hzero⟩ := started_iff.mp hstarted
      obtain ⟨-, rfl⟩ := fw_eq_some_iff.mp hfw
      exact absurd hzero hne
    · exact absurd (hfile.symm.trans hfile') nofun

end Core

/-- **Honesty.** A load that returns 0 was complete and without an error
exactly if the image is loud or sound; and the probe sets going and marks only
cores with a complete load exactly if all the images it loads are so. -/
theorem load_honest_iff (V : VspaDev) (info : VspaSecInfo) (dma : ℕ → DmaResp) (hd : FileHeader) (size : ℕ) (F : Mem)
    (fuel : ℕ) (P : ProbeEnv) :
    (((fwReadAndLoadSections V info dma hd size F).ret = some 0 →
        Complete V info hd F (fwReadAndLoadSections V info dma hd size F)) ↔
      LoudOrSound V info dma hd size F) ∧
    ((∀ c ∈ (vspaProbe fuel P).cores, c.Honest fuel P) ↔ ∀ c ∈ (vspaProbe fuel P).cores, c.Sound fuel P) := by
  refine ⟨complete_iff_loudOrSound V info dma hd size F, forall₂_congr fun c hc => ?_⟩
  have hloop : c ∈ (probeLoop fuel P.core maxVspa 0 P.mem P.status).cores := by
    unfold vspaProbe at hc
    split_ifs at hc
    · exact absurd hc List.not_mem_nil
    · exact absurd hc List.not_mem_nil
    · exact absurd hc List.not_mem_nil
    · exact hc
  obtain ⟨hout, hmark⟩ := mem_cores hloop
  exact honest_iff_sound hout hmark

/-- An engine that completes every request, with a transfer error. -/
def faultyDma : ℕ → DmaResp := fun _ => ⟨fun _ => 1, 1, 0⟩

/-- A load of two sections that reports success though every request failed. -/
theorem load_error_hidden :
    ∃ info ∈ (fwReadAndLoadSectionsInfo 4 smallFirst (fileHeader smallFirst) true).info,
      (fwReadAndLoadSections ⟨0, 0⟩ info faultyDma (fileHeader smallFirst) 368 smallFirst).ret = some 0 ∧
        ¬ Complete ⟨0, 0⟩ info (fileHeader smallFirst) smallFirst
          (fwReadAndLoadSections ⟨0, 0⟩ info faultyDma (fileHeader smallFirst) 368 smallFirst) := by
  decide +kernel

/-- The same load with an engine that works. -/
example :
    ∃ info ∈ (fwReadAndLoadSectionsInfo 4 smallFirst (fileHeader smallFirst) true).info,
      Complete ⟨0, 0⟩ info (fileHeader smallFirst) smallFirst
        (fwReadAndLoadSections ⟨0, 0⟩ info promptDma (fileHeader smallFirst) 368 smallFirst) := by
  decide +kernel

end Vspa
end La12xx
