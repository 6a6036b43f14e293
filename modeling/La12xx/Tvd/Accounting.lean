/-
# Thermal events and the id that names them

Three kinds of events come to the reader of a modem: from the host (CTD), from the
modem (MTD) and from its RF card (RTD). The interrupt of the modem sets the flags of
the last two whichever it is raised for; whether there is an RTD event is seen from its
word in the shared memory. The kinds are named by one field, their numbers 1, 2 and 4
added, but the part for RTD overwrites what the other two have put.

A fetch names the kinds that have occurred since the last one, and leaves no CTD event
behind, exactly if RTD has not occurred with another kind, and a CTD event is not
fetched by the read of a modem other than the first (`fetches_accounted`).
-/
import La12xx.Tvd.Driver

namespace La12xx
namespace Tvd

open Machine

/-- Kinds of events. -/
structure Kinds where
  ctd : Bool
  mtd : Bool
  rtd : Bool
deriving DecidableEq, Repr

def Kinds.none : Kinds := ⟨false, false, false⟩

/-- The kinds whose numbers add up to an id. -/
def Kinds.named : Option ℤ → Kinds
  | .none => .none
  | some id => ⟨id % 2 = 1, id / 2 % 2 = 1, id / 4 % 2 = 1⟩

/-- The event words of the modem for an MTD event. -/
structure MtdTmu where
  curTemp : BitVec 32
  tmuEvent : ℤ

/-- The event words of the modem for an RTD event; the modem writes a type, which is
not zero. -/
structure RtdTmu where
  curTemp : ℤ
  tmuEvent : ℤ
  raised : tmuEvent ≠ 0

/-- What an interrupt is raised for. -/
inductive Irq where
  | mtd (e : MtdTmu)
  | rtd (e : RtdTmu)
  | both (e : MtdTmu) (e' : RtdTmu)

/-- A callback of the host, an interrupt of the modem, or a fetch. -/
inductive Happening where
  | ctd (thermalEventId temp : ℤ)
  | irq (e : Irq)
  | fetch (path : Path) (site : Site)

/-- The driver, and the kinds that have occurred since the last fetch. -/
structure Ledger where
  drv : Driver
  occurred : Kinds

/-- The kinds that have occurred, the kinds a fetch names, and whether a CTD event is
still pending after it. -/
structure Fetched where
  occurred : Kinds
  named : Kinds
  left : Bool
deriving DecidableEq, Repr

/-- A fetch names what has occurred and leaves nothing to be named again. -/
structure Accounted (f : Fetched) : Prop where
  named : f.named = f.occurred
  taken : f.left = false

def writeMtd (e : MtdTmu) (h : Hif) : Hif := { h with mtdEventTemp := e.curTemp, mtdTmuEvent := e.tmuEvent }

def writeRtd (e : RtdTmu) (h : Hif) : Hif := { h with rtdEventTemp := e.curTemp, rtdTmuEvent := e.tmuEvent }

/-- The modem writes its event words. -/
def Irq.write (h : Hif) : Irq → Hif
  | .mtd e => writeMtd e h
  | .rtd e => writeRtd e h
  | .both e e' => writeRtd e' (writeMtd e h)

def Irq.kinds (k : Kinds) : Irq → Kinds
  | .mtd _ => { k with mtd := true }
  | .rtd _ => { k with rtd := true }
  | .both _ _ => { k with mtd := true, rtd := true }

section Machine

variable (u : Platform) (i : Modem)

def Ledger.step (s : Ledger) : Happening → Ledger × Option Fetched
  | .ctd thermalEventId temp => (⟨ctdCbk thermalEventId temp s.drv, { s.occurred with ctd := true }⟩, none)
  | .irq e => (⟨tvdIrqHandler i (s.drv.setHif i (e.write (s.drv.hif i))), e.kinds s.occurred⟩, none)
  | .fetch path site =>
    let out := Op.run u i s.drv (.take path site)
    (⟨out.1, .none⟩, some ⟨s.occurred, .named out.2.thermalId, (out.1.priv i).ctdEventFlag = 1⟩)

/-- The flags and the word of the RTD event are those of what has occurred. -/
structure Ledger.Inv (s : Ledger) : Prop where
  present : s.drv.present i = true
  ctd : (s.drv.priv i).ctdEventFlag = 1 ↔ s.occurred.ctd = true
  mtd : (s.drv.priv i).mtdEventFlag = 1 ↔ s.occurred.mtd = true ∨ s.occurred.rtd = true
  rtd : (s.drv.hif i).rtdTmuEvent ≠ 0 ↔ s.occurred.rtd = true
  rtdFlag : s.occurred.rtd = true → (s.drv.priv i).rtdEventFlag = 1

/-- RTD has not occurred with another kind, and a CTD event is fetched by the ioctl or
from the first modem. -/
def Distinct (s : Ledger) : Happening → Prop
  | .fetch path _ =>
    (s.occurred.rtd = true → s.occurred.ctd = false ∧ s.occurred.mtd = false) ∧
      (s.occurred.ctd = true → path = .read → i = .first)
  | _ => True

instance decidableDistinct (s : Ledger) : ∀ e, Decidable (Distinct i s e)
  | .ctd _ _ => inferInstanceAs (Decidable True)
  | .irq _ => inferInstanceAs (Decidable True)
  | .fetch _ _ => inferInstanceAs (Decidable (_ ∧ _))

end Machine

section Step

variable {u : Platform} {i : Modem} {s : Ledger}

namespace Ledger.Inv

theorem rtdPending_iff (h : s.Inv i) : RtdPending i s.drv ↔ s.occurred.rtd = true := by
  unfold RtdPending
  rw [h.rtd]
  exact and_iff_right_of_imp h.rtdFlag

theorem ctdCbk (h : s.Inv i) (thermalEventId temp : ℤ) :
    ((Ledger.step u i s (.ctd thermalEventId temp)).1).Inv i := by
  have hpriv : ((Tvd.ctdCbk thermalEventId temp s.drv).priv i) =
      { s.drv.priv i with ctdEventFlag := 1, ctdEventType := thermalEventId, ctdCurTemp := temp } := if_pos h.present
  refine ⟨h.present, ?_, ?_, h.rtd, fun hrtd => ?_⟩
  · exact iff_of_true (congrArg Priv.ctdEventFlag hpriv) rfl
  · have hmtd := congrArg Priv.mtdEventFlag hpriv
    exact (iff_of_eq (congrArg (· = 1) hmtd)).trans h.mtd
  · exact (congrArg Priv.rtdEventFlag hpriv).trans (h.rtdFlag hrtd)

/-- An interrupt sets both flags, and the modem the word of the RTD event if it is for
one. -/
theorem irq (h : s.Inv i) (e : Irq) : ((Ledger.step u i s (.irq e)).1).Inv i := by
  let h' := e.write (s.drv.hif i)
  have hpriv : ((Ledger.step u i s (.irq e)).1.drv.priv i) =
      { s.drv.priv i with mtdEventFlag := 1, rtdEventFlag := 1 } := Driver.setPriv_self ..
  have hhif : ((Ledger.step u i s (.irq e)).1.drv.hif i) = h' := Driver.setHif_self ..
  refine ⟨h.present, ?_, ?_, ?_, fun _ => congrArg Priv.rtdEventFlag hpriv⟩
  · rw [hpriv]
    show (s.drv.priv i).ctdEventFlag = 1 ↔ (e.kinds s.occurred).ctd = true
    rw [h.ctd]
    cases e <;> rfl
  · refine iff_of_true (congrArg Priv.mtdEventFlag hpriv) ?_
    cases e with
    | mtd e => exact .inl rfl
    | rtd e => exact .inr rfl
    | both e e' => exact .inl rfl
  · rw [hhif]
    cases e with
    | mtd e => exact h.rtd
    | rtd e => exact iff_of_true e.raised rfl
    | both e e' => exact iff_of_true e'.raised rfl

/-- A fetch that leaves no CTD event behind leaves nothing behind. -/
theorem fetch (h : s.Inv i) (path : Path) (site : Site) (hd : Distinct i s (.fetch path site)) :
    ((Ledger.step u i s (.fetch path site)).1).Inv i := by
  obtain ⟨n, hrun⟩ := run_take i u path site
  have hctd : ((takeEvents i u path site s.drv (.rc n)).1.priv i).ctdEventFlag ≠ 1 := by
    rw [takeEvents_flags.1]
    split
    · exact lower_ne_one _
    · next hne =>
      intro hf
      cases path with
      | ioctl => exact hne rfl
      | read => exact hne (hd.2 (h.ctd.mp hf) rfl)
  unfold Ledger.step
  simp only [hrun]
  refine ⟨?_, iff_of_false hctd Bool.false_ne_true, ?_, ?_, fun hf => absurd hf Bool.false_ne_true⟩
  · rw [takeEvents_present]
    exact h.present
  · refine iff_of_false ?_ (by simp [Kinds.none])
    rw [takeEvents_flags.2.1]
    exact lower_ne_one _
  · refine iff_of_false (fun hne => hne ?_) Bool.false_ne_true
    rw [takeEvents_rtdTmuEvent]
    split
    · rfl
    · next hnone =>
      by_contra htmu
      exact hnone (h.rtdPending_iff.mpr (h.rtd.mp htmu))

end Ledger.Inv

theorem inv_step (h : s.Inv i) (e : Happening) (hd : Distinct i s e) : ((Ledger.step u i s e).1).Inv i := by
  cases e with
  | ctd thermalEventId temp => exact h.ctdCbk thermalEventId temp
  | irq e => exact h.irq e
  | fetch path site => exact h.fetch path site hd

/-- The kinds that a fetch names: RTD hides the others. -/
theorem named_eq (h : s.Inv i) (path : Path) (site : Site) (n : ℤ) :
    Kinds.named (takeEvents i u path site s.drv (.rc n)).2.thermalId =
      if s.occurred.rtd = true then ⟨false, false, true⟩ else s.occurred := by
  rw [takeEvents_thermalId]
  simp only [h.rtdPending_iff, h.mtd, h.ctd]
  obtain ⟨drv, c, m, r⟩ := s
  cases c <;> cases m <;> cases r <;> rfl

theorem named_iff (k : Kinds) : (if k.rtd = true then ⟨false, false, true⟩ else k) = k ↔
    (k.rtd = true → k.ctd = false ∧ k.mtd = false) := by
  obtain ⟨c, m, r⟩ := k
  cases r with
  | false => exact iff_of_true rfl fun h => absurd h Bool.false_ne_true
  | true => cases c <;> cases m <;> decide

/-- A CTD event is left behind exactly by the read of a modem other than the first. -/
theorem left_iff (h : s.Inv i) (path : Path) (site : Site) (n : ℤ) :
    ((takeEvents i u path site s.drv (.rc n)).1.priv i).ctdEventFlag = 1 ↔
      s.occurred.ctd = true ∧ path = .read ∧ i ≠ .first := by
  rw [takeEvents_flags.1, ← h.ctd]
  cases path with
  | ioctl => simp [Path.cleared, lower_ne_one]
  | read =>
    by_cases hi : i = .first
    · simp [Path.cleared, hi, lower_ne_one]
    · simp [Path.cleared, hi]

/-- A fetch is as it should be exactly if the kinds are distinct. -/
theorem accounted_iff (h : s.Inv i) (e : Happening) :
    (∀ f ∈ (Ledger.step u i s e).2, Accounted f) ↔ Distinct i s e := by
  cases e with
  | ctd thermalEventId temp => exact iff_of_true (fun f hf => by cases hf) trivial
  | irq e => exact iff_of_true (fun f hf => by cases hf) trivial
  | fetch path site =>
    obtain ⟨n, hrun⟩ := run_take i u path site
    unfold Ledger.step
    simp only [hrun, Option.mem_some_iff, forall_eq']
    constructor
    · rintro ⟨hnamed, htaken⟩
      rw [named_eq h, named_iff] at hnamed
      refine ⟨hnamed, fun hctd hpath => ?_⟩
      by_contra hi
      exact absurd htaken (by simpa using (left_iff h path site n).mpr ⟨hctd, hpath, hi⟩)
    · rintro ⟨hkinds, hctd⟩
      refine ⟨(named_eq h path site n).trans ((named_iff s.occurred).mpr hkinds), ?_⟩
      refine decide_eq_false fun hleft => ?_
      obtain ⟨hc, hpath, hi⟩ := (left_iff h path site n).mp hleft
      exact hi (hctd hc hpath)

end Step

/-- **All fetches of a run name the kinds that have occurred since the last, and leave
no CTD event behind, exactly if at each of them the kinds are distinct.** -/
theorem fetches_accounted (u : Platform) (i : Modem) (s : Ledger) (h : s.Inv i) (es : List Happening) :
    (∀ p ∈ outs (Ledger.step u i) s es, ∀ f ∈ p.2, Accounted f) ↔ Guarded (Ledger.step u i) (Distinct i) s es :=
  outs_iff_guarded (Q := fun _ o => ∀ f ∈ o, Accounted f) (G := Distinct i) (fun _ e h hd => inv_step h e hd)
    (fun _ e h => accounted_iff h e) es h

/-- A modem with a device, of which nothing is pending. -/
theorem inv_of_quiet {i : Modem} {s : Driver} (hpresent : s.present i = true) (hctd : (s.priv i).ctdEventFlag ≠ 1)
    (hmtd : (s.priv i).mtdEventFlag ≠ 1) (hrtd : (s.hif i).rtdTmuEvent = 0) : Ledger.Inv i ⟨s, .none⟩ where
  present := hpresent
  ctd := iff_of_false hctd Bool.false_ne_true
  mtd := iff_of_false hmtd (by simp [Kinds.none])
  rtd := iff_of_false (not_not.mpr hrtd) Bool.false_ne_true
  rtdFlag h := absurd h Bool.false_ne_true

/-- The driver before any event. -/
def quietLedger : Ledger := ⟨quiet, .none⟩

theorem quietLedger_inv (i : Modem) : quietLedger.Inv i := inv_of_quiet rfl Int.zero_ne_one Int.zero_ne_one rfl

/-- An event of the host and one of the modem, fetched together. -/
def hostAndModem : List Happening := [.ctd 1 70, .irq (.mtd ⟨0, 2⟩), .fetch .ioctl .vspaTemp]

theorem fetches_accounted_host_and_modem : quietLedger.Inv .second ∧
    ∀ p ∈ outs (Ledger.step bytes .second) quietLedger hostAndModem, ∀ f ∈ p.2, Accounted f :=
  ⟨quietLedger_inv .second,
    (fetches_accounted bytes .second quietLedger (quietLedger_inv .second) hostAndModem).mpr (by decide +kernel)⟩

/-- An interrupt for both kinds of the modem is fetched as one for the RF card. -/
theorem fetch_hides_mtd :
    ¬ ∀ (u : Platform) (i : Modem) (s : Ledger), s.Inv i → ∀ es : List Happening,
      ∀ p ∈ outs (Ledger.step u i) s es, ∀ f ∈ p.2, f.named = f.occurred := by
  intro hall
  have hnamed := hall bytes .first quietLedger (quietLedger_inv .first)
    [.irq (.both ⟨0, 2⟩ ⟨60, 2, two_ne_zero⟩), .fetch .ioctl .vspaTemp] _
    (List.mem_cons_of_mem _ List.mem_cons_self) ⟨⟨false, true, true⟩, ⟨false, false, true⟩, false⟩ (by decide +kernel)
  exact absurd hnamed (by decide)

end Tvd
end La12xx
