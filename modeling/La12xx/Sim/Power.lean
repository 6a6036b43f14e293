/-
# Presence and power

Whether the record of the driver agrees with the hardware (`Consistent`) while a
card is inserted: the card is not recorded as removed, and it is recorded as
powered exactly when the supply bit is set. `sim_open` sets the bit and leaves
the record as it was, off at the first time; a warm reset resets the record and
leaves the bit, and nothing brings the card back afterwards. Everything else
keeps or restores the agreement, so the requests of a run tell whether it holds
at its end.
-/
import La12xx.Sim.Ioctl

namespace La12xx
namespace Sim

open ByteMem Machine

/-! ### Registers that stay -/

section Regs

variable {v : Word32} {r r' : Reg} {regs : Regs}

@[simp] theorem writel_self : writel v r regs r = v := Function.update_self ..

@[simp] theorem writel_of_ne (h : r' ≠ r) : writel v r regs r' = regs r' := Function.update_of_ne h ..

@[simp] theorem setBits_self : setBits v r regs r = regs r ||| v := writel_self

@[simp] theorem setBits_of_ne (h : r' ≠ r) : setBits v r regs r' = regs r' := writel_of_ne h

@[simp] theorem clearBits_self : clearBits v r regs r = regs r &&& ~~~v := writel_self

@[simp] theorem clearBits_of_ne (h : r' ≠ r) : clearBits v r regs r' = regs r' := writel_of_ne h

@[simp] theorem delayClk_of_ne (h : r ≠ .cntl) (h' : r ≠ .xmtStatus) (h'' : r ≠ .gpcnt) :
    delayClk v regs r = regs r := by
  simp [delayClk, h, h', h'']

@[simp] theorem clearGpcntCounter_of_ne (h : r ≠ .cntl) (h' : r ≠ .xmtStatus) : clearGpcntCounter regs r = regs r := by
  simp [clearGpcntCounter, h, h']

/-- Sending does not touch the registers of the port. -/
theorem foldl_sendByte_of_ne (h : r ≠ .xmtBuff) (h' : r ≠ .xmtStatus) : ∀ (cmd : List Byte) (regs : Regs),
    cmd.foldl sendByte regs r = regs r
  | [], _ => rfl
  | b :: cmd, regs => by
    rw [List.foldl_cons, foldl_sendByte_of_ne h h' cmd, sendByte, writel_of_ne h', writel_of_ne h]

theorem foldl_acks_of_ne (h : r ≠ .xmtBuff) (h' : r ≠ .xmtStatus) (rest : List Byte) : ∀ (acks : List Byte) (regs : Regs),
    acks.foldl (fun regs _ => rest.foldl sendByte regs) regs r = regs r
  | [], _ => rfl
  | _ :: acks, regs => by
    rw [List.foldl_cons, foldl_acks_of_ne h h' rest acks, foldl_sendByte_of_ne h h']

end Regs

/-! ### What each routine does to presence and power -/

section Routines

variable (d : Dev)

theorem simPowerOn_sven : (simPowerOn d).sven = true := by
  simp [Dev.sven, simPowerOn, portCntlSven]

theorem simPowerOn_spdp : (simPowerOn d).spdp = d.spdp := by
  simp [Dev.spdp, simPowerOn]

theorem simPowerOff_sven : (simPowerOff d).sven = false := by
  simp [Dev.sven, simPowerOff, portCntlSven]

theorem simPowerOff_spdp : (simPowerOff d).spdp = d.spdp := by
  simp [Dev.spdp, simPowerOff]

theorem detect_spdp : (detect d).spdp = d.spdp := by
  unfold detect
  split <;> simp [Dev.spdp, portDetectSdi, portDetectSdim, portDetectSpds]

theorem simStop_spdp : (simStop d).spdp = d.spdp := by
  simp [Dev.spdp, simStop]

/-- With a card, `sim_start` detects it. -/
theorem simStart_of_inserted (h : d.spdp = false) :
    (simStart d).sim.present = .detected ∧ (simStart d).spdp = false := by
  have hconf : ∀ regs : Regs, configure regs .port0Detect = regs .port0Detect := by
    intro regs
    simp [configure]
  have key : ∀ d₀ : Dev, d₀.spdp = false →
      (if (detect d₀).sim.present = .detected then simPowerOn (detect d₀) else detect d₀).sim.present = .detected ∧
      (if (detect d₀).sim.present = .detected then simPowerOn (detect d₀) else detect d₀).spdp = false := by
    intro d₀ h₀
    have hpres : (detect d₀).sim.present = .detected := by
      simp [detect, h₀]
    rw [if_pos hpres]
    exact ⟨hpres, (simPowerOn_spdp _).trans ((detect_spdp d₀).trans h₀)⟩
  apply key
  show (configure d.regs .port0Detect).getLsbD 2 = false
  rw [hconf]
  exact h

theorem simDataReset_spdp : (simDataReset d).spdp = d.spdp := rfl

/-- A cold reset ends with the card powered up. -/
theorem simColdReset_of_inserted (hp : d.sim.present ≠ .removed) (h : d.spdp = false) :
    (simColdReset d).sim.present = .detected ∧ (simColdReset d).sim.power = .on ∧ (simColdReset d).sven = true ∧
      (simColdReset d).spdp = false := by
  have hstart : ∀ d₀ : Dev, d₀.spdp = false → (simPowerOn (simStart d₀)).sim.present = .detected ∧
      (simPowerOn (simStart d₀)).sim.power = .on ∧ (simPowerOn (simStart d₀)).sven = true ∧
      (simPowerOn (simStart d₀)).spdp = false := by
    intro d₀ h₀
    obtain ⟨hpres, hspdp⟩ := simStart_of_inserted d₀ h₀
    exact ⟨hpres, rfl, simPowerOn_sven _, (simPowerOn_spdp _).trans hspdp⟩
  have hstopped : (simDataReset (simStop (simPowerOff d))).spdp = false := by
    rw [simDataReset_spdp, simStop_spdp, simPowerOff_spdp]
    exact h
  rw [simColdReset, if_pos hp]
  generalize simDataReset (simStop (simPowerOff d)) = d₀ at hstopped
  exact hstart _ hstopped

/-- A warm reset ends with the card recorded as removed. -/
theorem simWarmReset_present : (simWarmReset d).sim.present = .removed := by
  unfold simWarmReset
  split
  · rfl
  · next h => exact not_not.mp h

theorem activate_port0Cntl (clkPre : Word32) (regs : Regs) : activate clkPre regs .port0Cntl = 0x5e := by
  simp [activate]

theorem activate_port0Detect (clkPre : Word32) (regs : Regs) : activate clkPre regs .port0Detect = regs .port0Detect := by
  simp [activate]

theorem simOpen_sven (atr : List Byte) : (simOpen atr d).sven = true := by
  show (activate d.sim.clkPrescaler (usimCardDetect (usimInitClk d)).regs .port0Cntl).getLsbD 1 = true
  rw [activate_port0Cntl]
  rfl

theorem simOpen_spdp (atr : List Byte) : (simOpen atr d).spdp = d.spdp := by
  show (activate d.sim.clkPrescaler (usimCardDetect (usimInitClk d)).regs .port0Detect).getLsbD 2 = d.spdp
  rw [activate_port0Detect]
  exact detect_spdp (usimInitClk d)

theorem simOpen_power (atr : List Byte) : (simOpen atr d).sim.power = d.sim.power := by
  show (detect (usimInitClk d)).sim.power = d.sim.power
  unfold detect
  split <;> rfl

end Routines

/-! ### Transfers -/

/-- Presence and power, in the record and in the hardware, are as before. -/
structure Kept (d d' : Dev) : Prop where
  present : d'.sim.present = d.sim.present
  power : d'.sim.power = d.sim.power
  sven : d'.sven = d.sven
  spdp : d'.spdp = d.spdp

theorem usimXfer_kept (d : Dev) (cmd : List Byte) (rcvLength : ℤ) (received : List Byte) (beyond : Byte) :
    Kept d (usimXfer d cmd rcvLength received beyond).1 := by
  have hregs : ∀ r : Reg, r = .port0Cntl ∨ r = .port0Detect →
      (usimXfer d cmd rcvLength received beyond).1.regs r = d.regs r := by
    rintro r (rfl | rfl)
    · simp only [usimXfer]
      rw [foldl_acks_of_ne (by decide) (by decide), writel_of_ne (by decide), foldl_sendByte_of_ne (by decide) (by decide)]
      simp
    · simp only [usimXfer]
      rw [foldl_acks_of_ne (by decide) (by decide), writel_of_ne (by decide), foldl_sendByte_of_ne (by decide) (by decide)]
      simp
  exact ⟨rfl, rfl, congrArg (BitVec.getLsbD · 1) (hregs _ (.inl rfl)), congrArg (BitVec.getLsbD · 2) (hregs _ (.inr rfl))⟩

theorem xferChecked_kept (d : Dev) (io : XferIo) : Kept d (xferChecked d io).1 := by
  unfold xferChecked
  split
  · exact ⟨rfl, rfl, rfl, rfl⟩
  split
  · exact ⟨rfl, rfl, rfl, rfl⟩
  simp only
  split
  · exact usimXfer_kept d _ _ _ io.beyond
  split
  · exact usimXfer_kept d _ _ _ io.beyond
  · exact usimXfer_kept d _ _ _ io.beyond

theorem ioctlXfer_kept (d : Dev) (io : XferIo) : Kept d (ioctlXfer d io).1 := by
  have hchecked : ∀ d' : Dev, Kept d d' → Kept d (xferChecked d' io).1 := by
    intro d' h
    have h' := xferChecked_kept d' io
    exact ⟨h'.present.trans h.present, h'.power.trans h.power, h'.sven.trans h.sven, h'.spdp.trans h.spdp⟩
  unfold ioctlXfer
  split
  · exact ⟨rfl, rfl, rfl, rfl⟩
  simp only
  split
  · exact ⟨rfl, rfl, rfl, rfl⟩
  split
  · exact ⟨rfl, rfl, rfl, rfl⟩
  split
  · split
    · exact ⟨rfl, rfl, rfl, rfl⟩
    · exact hchecked _ ⟨rfl, rfl, rfl, rfl⟩
  split
  · split
    · exact ⟨rfl, rfl, rfl, rfl⟩
    · exact hchecked _ ⟨rfl, rfl, rfl, rfl⟩
  · exact ⟨rfl, rfl, rfl, rfl⟩

/-! ### One request -/

/-- The record agrees with the hardware. -/
def Consistent (d : Dev) : Prop := d.sim.present ≠ .removed ∧ (d.sim.power = .on ↔ d.sven = true)

instance (d : Dev) : Decidable (Consistent d) := inferInstanceAs (Decidable (_ ∧ _))

/-- The record agrees, and there is a card. -/
structure Agreeing (d : Dev) : Prop where
  consistent : Consistent d
  inserted : d.spdp = false

/-- The card is powered and recorded as off, as `sim_open` leaves it. -/
structure Unrecorded (d : Dev) : Prop where
  present : d.sim.present ≠ .removed
  power : d.sim.power = .off
  sven : d.sven = true
  inserted : d.spdp = false

/-- The requests to power, reset, read the ATR and transfer. -/
def Ioctl.Listed : Ioctl → Prop
  | .getAtr _ | .powerOn | .powerOff | .coldReset | .warmReset | .xfer _ => True
  | _ => False

section Step

variable {d : Dev} {q : Ioctl}

theorem Agreeing.of_kept (h : Agreeing d) {d' : Dev} (hk : Kept d d') : Agreeing d' := by
  obtain ⟨⟨hpres, hpow⟩, hins⟩ := h
  refine ⟨⟨by rwa [hk.present], ?_⟩, hk.spdp.trans hins⟩
  rw [hk.power, hk.sven]
  exact hpow

theorem Unrecorded.of_kept (h : Unrecorded d) {d' : Dev} (hk : Kept d d') : Unrecorded d' :=
  ⟨by rw [hk.present]; exact h.present, hk.power.trans h.power, hk.sven.trans h.sven, hk.spdp.trans h.inserted⟩

/-- Powering up brings record and hardware together. -/
theorem agreeing_simPowerOn (hpres : d.sim.present ≠ .removed) (hins : d.spdp = false) : Agreeing (simPowerOn d) :=
  ⟨⟨hpres, iff_of_true rfl (simPowerOn_sven d)⟩, (simPowerOn_spdp d).trans hins⟩

/-- And so does powering down. -/
theorem agreeing_simPowerOff (hpres : d.sim.present ≠ .removed) (hins : d.spdp = false) : Agreeing (simPowerOff d) := by
  refine ⟨⟨hpres, iff_of_false ?_ ?_⟩, (simPowerOff_spdp d).trans hins⟩
  · show Power.off ≠ .on
    decide
  · rw [simPowerOff_sven]
    decide

/-- The agreement is kept by every listed request but a warm reset. -/
theorem Agreeing.step (h : Agreeing d) (hq : q.Listed) (hw : q ≠ .warmReset) : Agreeing (simIoctl d q).1 := by
  obtain ⟨⟨hpres, hpow⟩, hins⟩ := h
  have hself : Agreeing d := ⟨⟨hpres, hpow⟩, hins⟩
  cases q with
  | getAtr copied =>
    simp only [simIoctl]
    split <;> exact hself
  | powerOn =>
    simp only [simIoctl]
    split
    · exact hself
    · exact agreeing_simPowerOn hpres hins
  | powerOff =>
    simp only [simIoctl]
    split
    · exact hself
    · exact agreeing_simPowerOff hpres hins
  | coldReset =>
    simp only [simIoctl]
    split
    · exact hself
    · obtain ⟨hp, hon, hs, hi⟩ := simColdReset_of_inserted d hpres hins
      exact ⟨⟨by rw [hp]; decide, iff_of_true hon hs⟩, hi⟩
  | warmReset => exact absurd rfl hw
  | xfer io => exact hself.of_kept (ioctlXfer_kept d io)
  | getPhyAdd | cardLock | cardEject | status | invalidate | other => exact hq.elim

/-- A card that is not recorded as powered stays so until POWER_ON. -/
theorem Unrecorded.step (h : Unrecorded d) (hq : q.Listed) (hw : q ≠ .warmReset) :
    if q = .powerOn then Agreeing (simIoctl d q).1 else Unrecorded (simIoctl d q).1 := by
  have hoff : d.sim.power ≠ .on := by rw [h.power]; decide
  cases q with
  | getAtr copied =>
    rw [if_neg (by simp)]
    simp only [simIoctl]
    split <;> exact h
  | powerOn =>
    rw [if_pos rfl]
    simp only [simIoctl, hoff, if_false]
    exact agreeing_simPowerOn h.present h.inserted
  | powerOff =>
    rw [if_neg (by simp)]
    simp only [simIoctl, h.power, if_true]
    exact h
  | coldReset =>
    rw [if_neg (by simp)]
    simp only [simIoctl, h.power, if_true]
    exact h
  | warmReset => exact absurd rfl hw
  | xfer io =>
    rw [if_neg (by simp)]
    exact h.of_kept (ioctlXfer_kept d io)
  | getPhyAdd | cardLock | cardEject | status | invalidate | other => exact hq.elim

/-- A card that is recorded as removed is not found again. -/
theorem removed_step (h : d.sim.present = .removed) (hq : q.Listed) : (simIoctl d q).1.sim.present = .removed := by
  cases q with
  | getAtr copied =>
    simp only [simIoctl]
    split <;> exact h
  | powerOn =>
    simp only [simIoctl]
    split <;> exact h
  | powerOff =>
    simp only [simIoctl]
    split <;> exact h
  | coldReset =>
    simp only [simIoctl, simColdReset, h, ne_eq, not_true, if_false]
    split <;> exact h
  | warmReset => exact simWarmReset_present d
  | xfer io => exact (ioctlXfer_kept d io).present.trans h
  | getPhyAdd | cardLock | cardEject | status | invalidate | other => exact hq.elim

end Step

/-! ### Runs -/

section Runs

theorem not_consistent_of_removed {d : Dev} (h : d.sim.present = .removed) : ¬ Consistent d := fun hc => hc.1 h

theorem not_consistent_of_unrecorded {d : Dev} (h : Unrecorded d) : ¬ Consistent d := by
  intro hc
  have hon := hc.2.mpr h.sven
  rw [h.power] at hon
  exact absurd hon (by decide)

/-- After the card was lost it stays lost. -/
theorem exec_removed : ∀ (qs : List Ioctl) {d : Dev}, d.sim.present = .removed → (∀ q ∈ qs, q.Listed) →
    ¬ Consistent (exec simIoctl d qs)
  | [], _, h, _ => not_consistent_of_removed h
  | q :: qs, _, h, hqs => exec_removed qs (removed_step h (hqs q List.mem_cons_self))
      fun q' hq' => hqs q' (List.mem_cons_of_mem _ hq')

/-- From an agreement, the warm resets decide. -/
theorem exec_agreeing : ∀ (qs : List Ioctl) {d : Dev}, Agreeing d → (∀ q ∈ qs, q.Listed) →
    (Consistent (exec simIoctl d qs) ↔ .warmReset ∉ qs)
  | [], _, h, _ => iff_of_true h.consistent List.not_mem_nil
  | q :: qs, d, h, hqs => by
    have hrest : ∀ q' ∈ qs, q'.Listed := fun q' hq' => hqs q' (List.mem_cons_of_mem _ hq')
    by_cases hw : q = .warmReset
    · subst hw
      have hlost := exec_removed qs (simWarmReset_present d) hrest
      exact iff_of_false hlost fun h => h List.mem_cons_self
    · have ih := exec_agreeing qs (h.step (hqs q List.mem_cons_self) hw) hrest
      rw [List.mem_cons, not_or]
      exact ih.trans (iff_and_self.mpr fun _ => Ne.symm hw)

/-- A card that is not recorded as powered needs a POWER_ON besides. -/
theorem exec_unrecorded : ∀ (qs : List Ioctl) {d : Dev}, Unrecorded d → (∀ q ∈ qs, q.Listed) →
    (Consistent (exec simIoctl d qs) ↔ .warmReset ∉ qs ∧ .powerOn ∈ qs)
  | [], _, h, _ => iff_of_false (not_consistent_of_unrecorded h) fun h => absurd h.2 List.not_mem_nil
  | q :: qs, d, h, hqs => by
    have hrest : ∀ q' ∈ qs, q'.Listed := fun q' hq' => hqs q' (List.mem_cons_of_mem _ hq')
    by_cases hw : q = .warmReset
    · subst hw
      have hlost := exec_removed qs (simWarmReset_present d) hrest
      exact iff_of_false hlost fun h => h.1 List.mem_cons_self
    · have hstep := h.step (hqs q List.mem_cons_self) hw
      rw [List.mem_cons, List.mem_cons, not_or]
      by_cases hp : q = .powerOn
      · rw [if_pos hp] at hstep
        have ih := exec_agreeing qs hstep hrest
        rw [exec, ih]
        simp [hp]
      · rw [if_neg hp] at hstep
        have ih := exec_unrecorded qs hstep hrest
        rw [exec, ih]
        simp [Ne.symm hw, Ne.symm hp]

/-- What the answers rest on while record and hardware agree. -/
structure Answers (d : Dev) : Prop where
  getAtr : ∀ copied, (simIoctl d (.getAtr copied)).2 ≠ -9
  xfer : ∀ io, (simIoctl d (.xfer io)).2 = -9 →
    usimXferRet (BitVec.ofInt 32 io.xfer.rcvLength - 1).toNat
      (io.received.take ((BitVec.ofInt 32 io.xfer.rcvLength - 1).toNat + 1)) io.beyond = noCard
  powerOn : (simIoctl d .powerOn).2 = -17 ↔ d.sven = true
  powerOff : (simIoctl d .powerOff).2 = -18 ↔ d.sven = false
  coldReset : (simIoctl d .coldReset).2 = -18 ↔ d.sven = false

theorem xferChecked_noCard {d : Dev} {io : XferIo} {n : ℤ} (hn : d.sim.xfer.rcvLength = n)
    (h : (xferChecked d io).2 = -9) :
    usimXferRet (BitVec.ofInt 32 n - 1).toNat (io.received.take ((BitVec.ofInt 32 n - 1).toNat + 1)) io.beyond =
      noCard := by
  subst hn
  unfold xferChecked at h
  split at h
  · simp at h
  split at h
  · simp at h
  simp only at h
  split at h
  · simp at h
  split at h
  · simp at h
  split at h
  · next hret => exact hret
  · simp at h

theorem Consistent.answers {d : Dev} (h : Consistent d) : Answers d := by
  obtain ⟨hpres, hpow⟩ := h
  have hthere : ¬ (d.sim.present ≠ .operational ∧ d.sim.present ≠ .detected) := by
    cases hp : d.sim.present with
    | removed => exact absurd hp hpres
    | detected => decide
    | operational => decide
  have hoff : d.sim.power = .off ↔ d.sven = false := by
    rw [← Bool.not_eq_true, ← hpow]
    cases d.sim.power <;> decide
  refine ⟨fun copied => ?_, fun io hio => ?_, ?_, ?_, ?_⟩
  · simp only [simIoctl, hthere, if_false]
    cases copied <;> decide
  · simp only [simIoctl, ioctlXfer, hthere, if_false] at hio
    split at hio
    · simp at hio
    split at hio
    · simp at hio
    split at hio
    · split at hio
      · simp at hio
      · exact xferChecked_noCard rfl hio
    split at hio
    · split at hio
      · simp at hio
      · exact xferChecked_noCard rfl hio
    · simp at hio
  · rw [← hpow, simIoctl]
    by_cases hp : d.sim.power = .on
    · simp [hp]
    · simp [hp]
  · rw [← hoff, simIoctl]
    by_cases hp : d.sim.power = .off
    · simp [hp]
    · simp [hp]
  · rw [← hoff, simIoctl]
    by_cases hp : d.sim.power = .off
    · simp [hp]
    · simp [hp]

/-- **Presence and power.** With a card inserted, for every state the device is
opened in and every run of listed requests: record and hardware agree at the end
exactly when the run has no warm reset and the card was recorded as powered at
the opening or a POWER_ON came since. They agree throughout the run exactly when
it was recorded so at the opening and there is no warm reset; and where they
agree, the answers rest on the hardware. -/
theorem consistent_iff {d : Dev} (hins : d.spdp = false) (atr : List Byte) (qs : List Ioctl)
    (hqs : ∀ q ∈ qs, q.Listed) :
    (Consistent (exec simIoctl (simOpen atr d) qs) ↔
      .warmReset ∉ qs ∧ (d.sim.power = .on ∨ .powerOn ∈ qs)) ∧
    ((∀ qs', qs' <+: qs → Consistent (exec simIoctl (simOpen atr d) qs')) ↔
      d.sim.power = .on ∧ .warmReset ∉ qs) ∧
    (Consistent (exec simIoctl (simOpen atr d) qs) → Answers (exec simIoctl (simOpen atr d) qs)) := by
  have hend : ∀ qs' : List Ioctl, (∀ q ∈ qs', q.Listed) → (Consistent (exec simIoctl (simOpen atr d) qs') ↔
      .warmReset ∉ qs' ∧ (d.sim.power = .on ∨ .powerOn ∈ qs')) := by
    intro qs' hqs'
    have hpres : (simOpen atr d).sim.present ≠ .removed := by
      show Present.operational ≠ .removed
      decide
    have hspdp := (simOpen_spdp d atr).trans hins
    by_cases hon : d.sim.power = .on
    · have hagree : Agreeing (simOpen atr d) :=
        ⟨⟨hpres, iff_of_true ((simOpen_power d atr).trans hon) (simOpen_sven d atr)⟩, hspdp⟩
      rw [exec_agreeing qs' hagree hqs']
      simp [hon]
    · have hoff : d.sim.power = .off := by
        cases hp : d.sim.power with
        | off => rfl
        | on => exact absurd hp hon
      have hun : Unrecorded (simOpen atr d) :=
        ⟨hpres, (simOpen_power d atr).trans hoff, simOpen_sven d atr, hspdp⟩
      rw [exec_unrecorded qs' hun hqs']
      simp [hon]
  refine ⟨hend qs hqs, ?_, Consistent.answers⟩
  constructor
  · intro hall
    have hfirst := (hend [] fun q hq => absurd hq List.not_mem_nil).mp (hall [] List.nil_prefix)
    have hlast := (hend qs hqs).mp (hall qs (List.prefix_refl qs))
    exact ⟨hfirst.2.resolve_right List.not_mem_nil, hlast.1⟩
  · rintro ⟨hon, hw⟩ qs' hpre
    refine (hend qs' fun q hq => hqs q (hpre.subset hq)).mpr ⟨fun h => hw (hpre.subset h), .inl hon⟩

end Runs

/-- The device as `gul_usim_probe` leaves it. -/
def probed : Dev :=
  ⟨fun _ => 0, 0, ⟨.removed, .removed, .invalidated, .off, 0x1f, [], ⟨0, 0, 0, 0, 0, 0⟩, 0, [], []⟩⟩

/-- A device that is opened again while it is powered. -/
theorem consistent_iff_reopened :
    Consistent (exec simIoctl (simOpen [0x3b] (simPowerOn probed)) [.powerOff, .getAtr true, .powerOn, .coldReset]) :=
  ((consistent_iff (d := simPowerOn probed) (by decide) [0x3b] [.powerOff, .getAtr true, .powerOn, .coldReset]
    (by simp [Ioctl.Listed])).1).mpr ⟨by decide, .inl rfl⟩

/-- Right after the first opening the card is powered and POWER_OFF is refused;
and after POWER_ON and a warm reset there is no card. -/
theorem opened_not_consistent :
    let d := simOpen [0x3b] probed
    let d' := exec simIoctl d [.powerOn, .warmReset]
    probed.spdp = false ∧ (d.sven = true ∧ d.sim.power = .off ∧ (simIoctl d .powerOff).2 = -18) ∧
      (d'.sven = true ∧ d'.sim.power = .off ∧ d'.sim.present = .removed ∧ (simIoctl d' (.getAtr true)).2 = -9) := by
  decide +kernel

end Sim
end La12xx
