/-
# Modem ids and the removal protocol

The id `get_gul_dev_id_pcidevname` gives a device belongs to the device's bus address: no
two devices of the bus ever hold one id, and a device that comes back gets the id it had
(`modem_ids_exclusive`). On this rests the removal protocol. `wdog_reset_modem` waits for
`is_pci_dev_removed` before the bus is scanned again; where a modem's id is probed only for
the first time or after that flag, and no probe fails before `dev_id` is the probed modem's,
every removal thread takes off the device it was started for (`removers_keep_to_their_device`).
-/
import La12xx.Pci.Lifecycle

namespace La12xx
namespace Pci

open Machine

section Ids

variable {D : Type} [DecidableEq D] {s : PciState D} {p : ℕ} {id : Fin maxModem} {kthread : Bool}

/-! ### Who holds an id -/

/-- The first entry of the name table with the name. -/
def PciState.lookup (s : PciState D) (name : D) : Option (Fin maxModem) :=
  (List.finRange maxModem).find? fun i => decide (s.devName i = some name)

/-- An id is held by a bound device, which is on the bus and stands under its name in the
table; and as long as the driver may give out an id of its own, the table is empty. -/
structure Identified (s : PciState D) : Prop where
  lookup : ∀ p id, (s.devs p).drvdata = some id → s.lookup (s.devs p).devName = some id
  bound : ∀ p id, (s.devs p).drvdata = some id → (s.devs p).bound = true
  onBus : ∀ p, (s.devs p).bound = true → (s.devs p).onBus = true
  unique : ∀ p q, (s.devs p).onBus = true → (s.devs q).onBus = true → (s.devs p).devName = (s.devs q).devName → p = q
  idle : ∀ p id, (s.devs p).drvdata = some id → (s.gulDevId id).removeInProgress = false
  single : s.pciAddrCount = 0 → ∀ i, s.devName i ≠ none → i = 0 ∧ s.gulDevIdG ≠ 0

theorem devName_of_lookup {name : D} (h : s.lookup name = some id) : s.devName id = some name := by
  simpa using List.find?_some h

theorem lookup_congr {s' : PciState D} (h : s'.devName = s.devName) (name : D) : s'.lookup name = s.lookup name := by
  unfold PciState.lookup
  rw [h]

/-- No two devices hold one id. -/
theorem Identified.holder_unique (h : Identified s) {q : ℕ} (hp : (s.devs p).drvdata = some id)
    (hq : (s.devs q).drvdata = some id) : p = q := by
  have hpn := devName_of_lookup (h.lookup p id hp)
  have hqn := devName_of_lookup (h.lookup q id hq)
  exact h.unique p q (h.onBus p (h.bound p id hp)) (h.onBus q (h.bound q id hq)) (Option.some.inj (hpn.symm.trans hqn))

/-- Unbinding starts a thread for every device with an id, and only for those. -/
theorem Identified.starts_eq (h : Identified s) (p : ℕ) : s.starts p = (s.devs p).drvdata := by
  cases hd : (s.devs p).drvdata with
  | none =>
    unfold PciState.starts
    rw [hd]
    split_ifs <;> rfl
  | some id => simp [PciState.starts, h.bound p id hd, hd, h.idle p id hd]

/-- A change of one device that keeps its name and binds it only with its id. -/
theorem Identified.update (h : Identified s) {d : PciDev D} {ids : Fin maxModem → GulModemDevId} {rs : List Remover}
    (hname : d.devName = (s.devs p).devName) (hdrv : ∀ id, d.drvdata = some id → d.bound = true ∧ s.lookup d.devName = some id)
    (hbound : d.bound = true → d.onBus = true) (hbus : d.onBus = true → (s.devs p).onBus = true)
    (hidle : ∀ q id, (Function.update s.devs p d q).drvdata = some id → (ids id).removeInProgress = false) :
    Identified { s with devs := Function.update s.devs p d, gulDevId := ids, removers := rs } := by
  have hnames : ∀ q, (Function.update s.devs p d q).devName = (s.devs q).devName := fun q => by
    by_cases hq : q = p
    · rw [hq, Function.update_self, hname]
    · rw [Function.update_of_ne hq]
  have hbuses : ∀ q, (Function.update s.devs p d q).onBus = true → (s.devs q).onBus = true := fun q hb => by
    by_cases hq : q = p
    · subst hq
      rw [Function.update_self] at hb
      exact hbus hb
    · rwa [Function.update_of_ne hq] at hb
  refine ⟨fun q id hq => ?_, fun q id hq => ?_, fun q hq => ?_, fun q q' hq hq' hn => ?_, hidle, h.single⟩
  · by_cases hqp : q = p
    · subst hqp
      simp only [Function.update_self] at hq ⊢
      exact (hdrv id hq).2
    · simp only [Function.update_of_ne hqp] at hq ⊢
      exact h.lookup q id hq
  · by_cases hqp : q = p
    · subst hqp
      simp only [Function.update_self] at hq ⊢
      exact (hdrv id hq).1
    · simp only [Function.update_of_ne hqp] at hq ⊢
      exact h.bound q id hq
  · by_cases hqp : q = p
    · subst hqp
      simp only [Function.update_self] at hq ⊢
      exact hbound hq
    · simp only [Function.update_of_ne hqp] at hq ⊢
      exact h.onBus q hq
  · simp only [hnames] at hn
    exact h.unique q q' (hbuses q hq) (hbuses q' hq') hn

/-- An entry that is marked is not that of another holder. -/
theorem Identified.idle_mark (h : Identified s) {d : PciDev D} (hd : d.drvdata = none) (hp : (s.devs p).drvdata = some id)
    (e : GulModemDevId) (q : ℕ) (id' : Fin maxModem) (hq : (Function.update s.devs p d q).drvdata = some id') :
    (Function.update s.gulDevId id e id').removeInProgress = false := by
  have hqp : q ≠ p := by
    rintro rfl
    rw [Function.update_self, hd] at hq
    cases hq
  rw [Function.update_of_ne hqp] at hq
  have hid : id' ≠ id := by
    rintro rfl
    exact hqp (h.holder_unique hq hp)
  rw [Function.update_of_ne hid]
  exact h.idle q id' hq

/-- A change of a device without an id leaves the holders as they are. -/
theorem Identified.idle_same (h : Identified s) {d : PciDev D} (hd : d.drvdata = none) (q : ℕ) (id : Fin maxModem)
    (hq : (Function.update s.devs p d q).drvdata = some id) : (s.gulDevId id).removeInProgress = false := by
  have hqp : q ≠ p := by
    rintro rfl
    rw [Function.update_self, hd] at hq
    cases hq
  rw [Function.update_of_ne hqp] at hq
  exact h.idle q id hq

theorem Identified.unbind (h : Identified s) : Identified (unbind p kthread s) := by
  have hst := h.starts_eq p
  cases hd : (s.devs p).drvdata with
  | none =>
    rw [unbind_of_none (hst.trans hd)]
    exact h.update rfl (fun id hid => by cases hd.symm.trans hid) (fun hb => by cases hb) (fun hb => hb)
      (h.idle_same hd)
  | some id =>
    rw [unbind_of_some (hst.trans hd)]
    exact h.update rfl (fun id hid => by cases hid) (fun hb => by cases hb) (fun hb => hb) (h.idle_mark rfl hd _)

theorem Identified.stop (h : Identified s) : Identified (pciStopAndRemoveBusDevice p kthread s) := by
  have hst := h.starts_eq p
  cases hd : (s.devs p).drvdata with
  | none =>
    rw [stop_of_none (hst.trans hd)]
    exact h.update rfl (fun id hid => by cases hd.symm.trans hid) (fun hb => by cases hb) (fun hb => by cases hb)
      (h.idle_same hd)
  | some id =>
    rw [stop_of_some (hst.trans hd)]
    exact h.update rfl (fun id hid => by cases hid) (fun hb => by cases hb) (fun hb => by cases hb) (h.idle_mark rfl hd _)

theorem Identified.eraseRemover (h : Identified s) (k : ℕ) : Identified { s with removers := s.removers.eraseIdx k } :=
  ⟨h.lookup, h.bound, h.onBus, h.unique, h.idle, h.single⟩

/-- A device's references and the threads have no part in it. -/
theorem Identified.refs (h : Identified s) (p : ℕ) (x : ℤ) (rs : List Remover) :
    Identified { s with devs := Function.update s.devs p { s.devs p with refs := x }, removers := rs } := by
  refine h.update rfl (fun id hid => ⟨h.bound p id hid, h.lookup p id hid⟩) (h.onBus p) (fun hb => hb) fun q id hq => ?_
  by_cases hqp : q = p
  · subst hqp
    rw [Function.update_self] at hq
    exact h.idle q id hq
  · rw [Function.update_of_ne hqp] at hq
    exact h.idle q id hq

/-- The entry of an id is written without a removal in progress. -/
theorem Identified.setEntry (h : Identified s) {a : Fin maxModem} {e : GulModemDevId} (he : e.removeInProgress = false) :
    Identified { s with gulDevId := Function.update s.gulDevId a e } := by
  refine ⟨h.lookup, h.bound, h.onBus, h.unique, fun q id hq => ?_, h.single⟩
  have hidle := h.idle q id hq
  by_cases hid : id = a
  · simp [hid, he]
  · simp [hid, hidle]

theorem Identified.gulRemovePciDev (h : Identified s) (k : ℕ) (r : Remover) (q : Option ℕ) :
    Identified (gulRemovePciDev k r q kthread s) := by
  cases q with
  | none => exact h.eraseRemover k
  | some p =>
    have hst : Identified (pciStopAndRemoveBusDevice p kthread { s with removers := s.removers.eraseIdx k }) :=
      (h.eraseRemover k).stop
    exact Identified.setEntry (hst.refs p _ _) rfl

/-! ### Names and probes -/

/-- Before the driver gives out an id of its own, no name is known and no id is held. -/
theorem Identified.empty (h : Identified s) (hc : s.pciAddrCount = 0) (hg : s.gulDevIdG = 0) :
    (∀ i, s.devName i = none) ∧ ∀ p, (s.devs p).drvdata = none := by
  have hnames : ∀ i, s.devName i = none := fun i => by
    by_contra hi
    exact (h.single hc i hi).2 hg
  refine ⟨hnames, fun p => ?_⟩
  cases hd : (s.devs p).drvdata with
  | none => rfl
  | some id =>
    have hn := devName_of_lookup (h.lookup p id hd)
    rw [hnames id] at hn
    cases hn

/-- To ask for an id changes nothing of what is known. -/
theorem Identified.asked (h : Identified s) (name : D) : Identified (getGulDevIdPcidevname name s).2 := by
  rcases getId_cases name s with ⟨_, -, hi, -⟩ | ⟨hc, hg, hi, -⟩ | hi
  · rwa [hi]
  · rw [hi]
    exact ⟨h.lookup, h.bound, h.onBus, h.unique, h.idle, fun _ i hne => absurd ((h.empty hc hg).1 i) hne⟩
  · rwa [hi]

/-- An id that is given out is the one its device's name then stands under. -/
theorem Identified.getId (h : Identified s) {t : PciState D}
    (hi : getGulDevIdPcidevname (s.devs p).devName s = (some id, t)) :
    Identified (privInit id p t) ∧ (privInit id p t).lookup (s.devs p).devName = some id ∧
      t.devs = s.devs ∧ t.gulDevId = s.gulDevId ∧ t.removers = s.removers := by
  rcases getId_cases (s.devs p).devName s with ⟨i, hn, hi', hfind⟩ | ⟨hc, hg, hi', -⟩ | hi'
  · obtain ⟨rfl, rfl⟩ : i = id ∧ s = t := by simpa using hi'.symm.trans hi
    have hsame : Function.update s.devName i (some (s.devs p).devName) = s.devName := by
      rw [← hn, Function.update_eq_self]
    refine ⟨?_, ?_, rfl, rfl, rfl⟩
    · rw [privInit, hsame]
      exact Identified.setEntry h rfl
    · rw [privInit, hsame]
      exact hfind
  · obtain ⟨rfl, rfl⟩ : 0 = id ∧ { s with gulDevIdG := 1 } = t := by simpa using hi'.symm.trans hi
    obtain ⟨hnames, hnone⟩ := h.empty hc hg
    refine ⟨⟨fun q id' hq => ?_, fun q id' hq => ?_, h.onBus, h.unique, fun q id' hq => ?_,
        fun _ i hne => ⟨?_, one_ne_zero⟩⟩,
      ?_, rfl, rfl, rfl⟩
    · cases (hnone q).symm.trans hq
    · cases (hnone q).symm.trans hq
    · cases (hnone q).symm.trans hq
    · by_contra hi0
      have : Function.update s.devName 0 (some (s.devs p).devName) i = none := by
        rw [Function.update_of_ne hi0, hnames i]
      exact hne this
    · simp [PciState.lookup, privInit, List.finRange_succ]
  · cases hi'.symm.trans hi

theorem Identified.probe (h : Identified s) (hb : (s.devs p).onBus = true) (hn : (s.devs p).bound = false) (fate : Fate) :
    Identified (gulPcidevProbe p fate kthread s) := by
  have hdrv : ∀ id, (s.devs p).drvdata = some id → False := fun id hid => by
    cases hn.symm.trans (h.bound p id hid)
  have hplain := h.asked (s.devs p).devName
  unfold gulPcidevProbe
  cases hi : getGulDevIdPcidevname (s.devs p).devName s with
  | mk i t =>
    rw [hi] at hplain
    cases i with
    | none =>
      have hdevs : t.devs = s.devs := by
        have := getId_devs (s := s) (s.devs p).devName
        rwa [hi] at this
      have hd : (t.devs p).drvdata = none := by
        rw [hdevs]
        exact Option.eq_none_iff_forall_not_mem.mpr hdrv
      exact hplain.update rfl (fun id hid => by cases hd.symm.trans hid) (fun _ => by rwa [hdevs]) (fun hb => hb)
        (hplain.idle_same hd)
    | some id =>
      obtain ⟨hinit, hlook, hdevs, hids, hrs⟩ := h.getId hi
      cases fate with
      | pciEnableDevice => exact hplain
      | pciRequestRegions | dmaSetMask | gulDevAlloc => exact hplain.refs p _ _
      | gulPciPrivInit | gulBaseProbe => exact hinit.refs p _ _
      | none =>
        have hpt : (privInit id p t).devs p = s.devs p := congrFun hdevs p
        refine hinit.update (d := { t.devs p with bound := true, drvdata := some id }) rfl (fun id' hid' => ?_)
          (fun _ => by rwa [hdevs]) (fun hb => hb) fun q id' hq => ?_
        · cases hid'
          exact ⟨rfl, by rw [hdevs]; exact hlook⟩
        · by_cases hqp : q = p
          · subst hqp
            rw [Function.update_self] at hq
            cases hq
            simp [privInit]
          · rw [Function.update_of_ne hqp] at hq
            exact hinit.idle q id' hq

theorem identified_step (hK : Known s) (h : Identified s) (i : PciInput D) : Identified (pciStep s i).1 := by
  unfold pciStep
  cases i with
  | appear name =>
    dsimp only
    split_ifs with hname
    · exact h
    · have hfree : ∀ q, (s.devs q).onBus = true → (s.devs q).devName ≠ name := fun q hq hn => by
        refine hname (List.any_eq_true.mpr ⟨q, List.mem_range.mpr ?_, by simp [hq, hn]⟩)
        by_contra hlt
        cases hq.symm.trans (hK.fresh q (not_lt.mp hlt)).2.1
      refine ⟨fun q id hq => ?_, fun q id hq => ?_, fun q hq => ?_, fun q q' hq hq' hn => ?_, fun q id hq => ?_, h.single⟩
      · by_cases hqn : q = s.next
        · simp [hqn] at hq
        · simp only [Function.update_of_ne hqn] at hq ⊢
          exact h.lookup q id hq
      · by_cases hqn : q = s.next
        · simp [hqn] at hq
        · simp only [Function.update_of_ne hqn] at hq ⊢
          exact h.bound q id hq
      · by_cases hqn : q = s.next
        · simp [hqn] at hq
        · simp only [Function.update_of_ne hqn] at hq ⊢
          exact h.onBus q hq
      · by_cases hqn : q = s.next
        · by_cases hqn' : q' = s.next
          · rw [hqn, hqn']
          · simp only [hqn, Function.update_self, Function.update_of_ne hqn'] at hn hq'
            exact absurd hn.symm (hfree q' hq')
        · by_cases hqn' : q' = s.next
          · simp only [hqn', Function.update_self, Function.update_of_ne hqn] at hn hq
            exact absurd hn (hfree q hq)
          · simp only [Function.update_of_ne hqn, Function.update_of_ne hqn'] at hq hq' hn
            exact h.unique q q' hq hq' hn
      · by_cases hqn : q = s.next
        · simp [hqn] at hq
        · simp only [Function.update_of_ne hqn] at hq
          exact h.idle q id hq
  | probe p fate kthread =>
    dsimp only
    split_ifs with hp
    · exact h.probe hp.2.1 (by simpa using hp.2.2) fate
    · exact h
  | unbind p kthread =>
    dsimp only
    split_ifs
    · exact h.unbind
    · exact h
  | takeOff p kthread =>
    dsimp only
    split_ifs
    · exact h.stop
    · exact h
  | reset id kthread =>
    dsimp only
    cases (s.gulDevId id).pdev with
    | none => exact h
    | some p => exact h.stop
  | removerStart k =>
    dsimp only
    cases s.removers[k]? with
    | none => exact h
    | some r =>
      dsimp only
      split_ifs
      · exact ⟨h.lookup, h.bound, h.onBus, h.unique, h.idle, h.single⟩
      · exact h
  | removerRun k kthread =>
    dsimp only
    cases s.removers[k]? with
    | none => exact h
    | some r =>
      cases hq : r.pdev with
      | none =>
        simp only [hq]
        exact h
      | some q =>
        simp only [hq]
        exact h.gulRemovePciDev k r q

omit [DecidableEq D] in
theorem init_single (d : PciDev D) (addrs : List D) (h : (pciInit d addrs).pciAddrCount = 0) (i : Fin maxModem) :
    (pciInit d addrs).devName i = none := by
  have hnil : addrs = [] := List.length_eq_zero_iff.mp h
  simp [pciInit, hnil]

theorem identified_init (d : PciDev D) (addrs : List D) : Identified (pciInit d addrs) := by
  refine ⟨fun _ _ h => ?_, fun _ _ h => ?_, fun _ h => ?_, fun _ _ h => ?_, fun _ _ h => ?_,
    fun h i hne => absurd (init_single d addrs h i) hne⟩
  · cases h
  · cases h
  · cases h
  · cases h
  · cases h

/-! ### Names stay -/

omit [DecidableEq D] in
theorem devName_stop : (pciStopAndRemoveBusDevice p kthread s).devName = s.devName ∧
    (pciStopAndRemoveBusDevice p kthread s).pciAddrCount = s.pciAddrCount := by
  cases hs : s.starts p with
  | none =>
    rw [stop_of_none hs]
    exact ⟨rfl, rfl⟩
  | some id =>
    rw [stop_of_some hs]
    exact ⟨rfl, rfl⟩

theorem devName_probe (fate : Fate) :
    (gulPcidevProbe p fate kthread s).pciAddrCount = s.pciAddrCount ∧
      ((gulPcidevProbe p fate kthread s).devName = s.devName ∨ s.pciAddrCount = 0 ∧ s.gulDevIdG = 0) := by
  unfold gulPcidevProbe
  rcases getId_cases (s.devs p).devName s with ⟨i, hn, hi, -⟩ | ⟨hc, hg, hi, -⟩ | hi
  · have hsame : Function.update s.devName i (some (s.devs p).devName) = s.devName := by
      rw [← hn, Function.update_eq_self]
    rw [hi]
    cases fate with
    | gulPciPrivInit | gulBaseProbe | none => exact ⟨rfl, Or.inl hsame⟩
    | pciEnableDevice | pciRequestRegions | dmaSetMask | gulDevAlloc => exact ⟨rfl, Or.inl rfl⟩
  · rw [hi]
    cases fate <;> exact ⟨rfl, Or.inr ⟨hc, hg⟩⟩
  · rw [hi]
    exact ⟨rfl, Or.inl rfl⟩

/-- A step changes the name table only where it was empty. -/
theorem devName_step (h : Identified s) (i : PciInput D) :
    (pciStep s i).1.pciAddrCount = s.pciAddrCount ∧
      ((pciStep s i).1.devName = s.devName ∨ s.pciAddrCount = 0 ∧ ∀ j, s.devName j = none) := by
  unfold pciStep
  cases i with
  | appear name =>
    dsimp only
    split_ifs <;> exact ⟨rfl, Or.inl rfl⟩
  | probe p fate kthread =>
    dsimp only
    split_ifs
    · exact (devName_probe fate).imp_right (Or.imp_right fun hc => ⟨hc.1, (h.empty hc.1 hc.2).1⟩)
    · exact ⟨rfl, Or.inl rfl⟩
  | unbind p kthread =>
    dsimp only
    split_ifs
    · cases hs : s.starts p with
      | none =>
        rw [unbind_of_none hs]
        exact ⟨rfl, Or.inl rfl⟩
      | some id =>
        rw [unbind_of_some hs]
        exact ⟨rfl, Or.inl rfl⟩
    · exact ⟨rfl, Or.inl rfl⟩
  | takeOff p kthread =>
    dsimp only
    split_ifs
    · exact ⟨devName_stop.2, Or.inl devName_stop.1⟩
    · exact ⟨rfl, Or.inl rfl⟩
  | reset id kthread =>
    dsimp only
    cases (s.gulDevId id).pdev with
    | none => exact ⟨rfl, Or.inl rfl⟩
    | some p => exact ⟨devName_stop.2, Or.inl devName_stop.1⟩
  | removerStart k =>
    dsimp only
    cases s.removers[k]? with
    | none => exact ⟨rfl, Or.inl rfl⟩
    | some r =>
      dsimp only
      split_ifs
      · exact ⟨rfl, Or.inl rfl⟩
      · exact ⟨rfl, Or.inl rfl⟩
  | removerRun k kthread =>
    dsimp only
    cases s.removers[k]? with
    | none => exact ⟨rfl, Or.inl rfl⟩
    | some r =>
      cases hq : r.pdev with
      | none =>
        simp [hq]
      | some q =>
        simp only [hq]
        cases q with
        | none => exact ⟨rfl, Or.inl rfl⟩
        | some p => exact ⟨devName_stop.2, Or.inl devName_stop.1⟩

/-- What the tables of a run have of the addresses the module was loaded with. -/
structure Named (addrs : List D) (s : PciState D) : Prop where
  known : Known s
  identified : Identified s
  count : s.pciAddrCount = addrs.length
  given : addrs ≠ [] → ∀ i, s.devName i = addrs[i.val]?

theorem named_step {addrs : List D} (h : Named addrs s) (i : PciInput D) : Named addrs (pciStep s i).1 := by
  obtain ⟨hc, hn⟩ := devName_step h.identified i
  refine ⟨known_step h.known i, identified_step h.known h.identified i, hc.trans h.count, fun hne j => ?_⟩
  rcases hn with hn | ⟨h0, -⟩
  · rw [hn, h.given hne j]
  · exact absurd (List.length_eq_zero_iff.mp (h.count.symm.trans h0)) hne

theorem named_init (d : PciDev D) (addrs : List D) : Named addrs (pciInit d addrs) :=
  ⟨known_init d addrs, identified_init d addrs, rfl, fun _ _ => rfl⟩

/-- A name keeps its id for the rest of a run. -/
theorem lookup_exec {addrs : List D} {name : D} : ∀ (run : List (PciInput D)) {s : PciState D}, Named addrs s →
    s.lookup name = some id → (exec pciStep s run).lookup name = some id
  | [], _, _, hl => hl
  | i :: run, s, h, hl => by
    refine lookup_exec run (named_step h i) ?_
    rcases (devName_step h.identified i).2 with hn | ⟨-, hn⟩
    · rw [lookup_congr hn, hl]
    · have := devName_of_lookup hl
      rw [hn id] at this
      cases this

/-- **Modem ids belong to bus addresses.** If, anywhere in a run, a device holds the modem id
`i`, and there or later a device holds `j`, the ids are equal exactly if the devices have the
same name; two devices never hold one id at a time; and where the module was given addresses
an id is the place of its device's name among them, where it was given none it is 0. -/
theorem modem_ids_exclusive (d : PciDev D) (addrs : List D) (run later : List (PciInput D)) {p q : ℕ} {i j : Fin maxModem}
    (hp : ((exec pciStep (pciInit d addrs) run).devs p).drvdata = some i)
    (hq : ((exec pciStep (pciInit d addrs) (run ++ later)).devs q).drvdata = some j) :
    (((exec pciStep (pciInit d addrs) run).devs p).devName =
        ((exec pciStep (pciInit d addrs) (run ++ later)).devs q).devName ↔
        i = j) ∧
      (later = [] → i = j → p = q) ∧
      (if addrs = [] then i = 0 else addrs[i.val]? = some ((exec pciStep (pciInit d addrs) run).devs p).devName) := by
  set s := exec pciStep (pciInit d addrs) run with hs
  have hN : Named addrs s := exec_inv (I := Named addrs) (fun s i h => named_step h i) run (named_init d addrs)
  have hlater : exec pciStep (pciInit d addrs) (run ++ later) = exec pciStep s later := exec_append pciStep _ run later
  rw [hlater] at hq ⊢
  have hN' : Named addrs (exec pciStep s later) := exec_inv (I := Named addrs) (fun s i h => named_step h i) later hN
  have hi := hN.identified.lookup p i hp
  have hj := hN'.identified.lookup q j hq
  have hi' := lookup_exec later hN hi
  refine ⟨⟨fun hname => ?_, ?_⟩, ?_, ?_⟩
  · rw [hname, hj] at hi'
    exact (Option.some.inj hi').symm
  · rintro rfl
    exact Option.some.inj ((devName_of_lookup hi').symm.trans (devName_of_lookup hj))
  · rintro rfl rfl
    exact hN.identified.holder_unique hp hq
  · have hn := devName_of_lookup hi
    split_ifs with hnil
    · exact (hN.identified.single (hN.count.trans (by rw [hnil, List.length_nil])) i (by rw [hn]; exact Option.some_ne_none _)).1
    · rw [← hN.given hnil i, hn]

/-- Two modems come up; the second is taken off, comes back under a new number and is probed. -/
theorem modem_ids_exclusive_comes_back :
    let d : PciDev ℕ := ⟨0, false, 0, false, none⟩
    let run : List (PciInput ℕ) := [.appear 7, .appear 9, .probe 0 .none true, .probe 1 .none true]
    let later : List (PciInput ℕ) := [.takeOff 1 true, .removerStart 0, .removerRun 0 true, .appear 9, .probe 2 .none true]
    ((exec pciStep (pciInit d [7, 9]) run).devs 1).devName =
        ((exec pciStep (pciInit d [7, 9]) (run ++ later)).devs 2).devName := by
  intro d run later
  exact (modem_ids_exclusive d [7, 9] run later (p := 1) (q := 2) (i := 1) (j := 1) (by decide) (by decide)).1.mpr rfl

/-! ### Threads and the devices they were started for -/

/-- Every thread finds, or has found, the device it was started for, no two threads have the
same entry, a modem that is up has none, and neither has one that is said to be removed. -/
structure Settled (s : PciState D) : Prop where
  unread : ∀ r ∈ s.removers, r.pdev = none → (s.gulDevId r.arg).pdev = some r.given
  read : ∀ r ∈ s.removers, ∀ l, r.pdev = some l → l = some r.given
  used : ∀ r ∈ s.removers, (s.gulDevId r.arg).pdev ≠ none
  one : (s.removers.map Remover.arg).Nodup
  holder : ∀ p id, (s.devs p).drvdata = some id →
      (s.gulDevId id).pdev = some p ∧ (s.gulDevId id).isPciDevRemoved = false ∧
    ∀ r ∈ s.removers, r.arg ≠ id
  done : ∀ id, (s.gulDevId id).isPciDevRemoved = true → ∀ r ∈ s.removers, r.arg ≠ id

/-- Threads start, a modem id is probed for the first time or when `is_pci_dev_removed` says
that the modem before it is gone, and a probe that fails does so when `dev_id` is right. -/
def Orderly (s : PciState D) (i : PciInput D) : Prop :=
  i.kthreadOk = true ∧
  match i with
  | .probe p fate _ =>
    ∀ id, (getGulDevIdPcidevname (s.devs p).devName s).1 = some id →
      fate ≠ .pciRequestRegions ∧ fate ≠ .dmaSetMask ∧ fate ≠ .gulDevAlloc ∧
          (fate = .gulPciPrivInit → id = ⟨0, maxModem_pos⟩) ∧
        (fate ≠ .pciEnableDevice → (s.gulDevId id).pdev = none ∨ (s.gulDevId id).isPciDevRemoved = true)
  | _ => True

instance (s : PciState D) (i : PciInput D) : Decidable (Orderly s i) := by
  unfold Orderly
  cases i <;> infer_instance

omit [DecidableEq D] in
/-- Where an id is free to be probed, no thread has its entry and no device holds it. -/
theorem Settled.free (h : Settled s) (hid : (s.gulDevId id).pdev = none ∨ (s.gulDevId id).isPciDevRemoved = true) :
    (∀ r ∈ s.removers, r.arg ≠ id) ∧ ∀ p, (s.devs p).drvdata ≠ some id := by
  constructor
  · intro r hr harg
    rcases hid with hid | hid
    · exact h.used r hr (harg ▸ hid)
    · exact h.done id hid r hr harg
  · intro p hp
    obtain ⟨hpdev, hrem, -⟩ := h.holder p id hp
    rcases hid with hid | hid
    · cases hid.symm.trans hpdev
    · cases hid.symm.trans hrem

omit [DecidableEq D] in
/-- A device without an id changes, and the tables do not. -/
theorem Settled.setDev (h : Settled s) {d : PciDev D} (hd : d.drvdata = none) : Settled (s.setDev p d) := by
  refine ⟨h.unread, h.read, h.used, h.one, fun q id hq => ?_, h.done⟩
  by_cases hqp : q = p
  · subst hqp
    cases hd.symm.trans (by simpa [PciState.setDev] using hq)
  · exact h.holder q id (by simpa [PciState.setDev, Function.update_of_ne hqp] using hq)

omit [DecidableEq D] in
/-- A thread is started with an entry no thread has, which has the device and is not said to
be removed, and the device holds no id any more. -/
theorem Settled.started (h : Settled s) {d : PciDev D} {ids : Fin maxModem → GulModemDevId} (hd : d.drvdata = none)
    (hother : ∀ id', id' ≠ id → ids id' = s.gulDevId id') (hpdev : (ids id).pdev = some p)
    (hrem : (ids id).isPciDevRemoved = false) (hfree : ∀ r ∈ s.removers, r.arg ≠ id)
    (hhold : ∀ q, q ≠ p → (s.devs q).drvdata ≠ some id) :
    Settled { s with devs := Function.update s.devs p d, gulDevId := ids, removers := withRemover s.removers id p true } := by
  have hall : ∀ {P : Remover → Prop}, (∀ r ∈ s.removers, P r) → P ⟨id, p, none⟩ →
      ∀ r ∈ withRemover s.removers id p true, P r :=
    fun h hr => forall_mem_withRemover h hr
  refine ⟨hall (fun r hr hn => ?_) fun _ => hpdev, hall h.read fun l hl => (by cases hl), hall (fun r hr => ?_) ?_, ?_,
    fun q id' hq => ?_, fun id' hid' => ?_⟩
  · dsimp only
    rw [hother r.arg (hfree r hr), h.unread r hr hn]
  · dsimp only
    rw [hother r.arg (hfree r hr)]
    exact h.used r hr
  · rw [hpdev]
    exact Option.some_ne_none p
  · simp only [withRemover, if_true, List.map_append, List.map_cons, List.map_nil]
    refine List.nodup_append.mpr ⟨h.one, List.nodup_singleton id, fun a ha b hb => ?_⟩
    obtain ⟨r, hr, rfl⟩ := List.mem_map.mp ha
    rw [List.mem_singleton.mp hb]
    exact hfree r hr
  · by_cases hqp : q = p
    · subst hqp
      simp only [Function.update_self] at hq
      cases hd.symm.trans hq
    · simp only [Function.update_of_ne hqp] at hq
      have hne : id' ≠ id := by
        rintro rfl
        exact hhold q hqp hq
      obtain ⟨h1, h2, h3⟩ := h.holder q id' hq
      dsimp only
      rw [hother id' hne]
      exact ⟨h1, h2, hall h3 hne.symm⟩
  · have hne : id' ≠ id := by
      rintro rfl
      cases hrem.symm.trans hid'
    dsimp only at hid'
    rw [hother id' hne] at hid'
    exact hall (h.done id' hid') hne.symm

/-- A device that holds an id is unbound, with its thread, and may be taken off. -/
theorem Settled.start (h : Settled s) (hI : Identified s) {d : PciDev D} (hd : d.drvdata = none)
    (hp : (s.devs p).drvdata = some id) :
    Settled { s with devs := Function.update s.devs p d,
                     gulDevId := Function.update s.gulDevId id { s.gulDevId id with removeInProgress := true },
                     removers := withRemover s.removers id p true } := by
  obtain ⟨hpdev, hrem, hfree⟩ := h.holder p id hp
  refine h.started hd (fun id' hne => Function.update_of_ne hne _ _) ?_ ?_ hfree fun q hqp hq => hqp (hI.holder_unique hq hp)
  · rw [Function.update_self]
    exact hpdev
  · rw [Function.update_self]
    exact hrem

theorem Settled.unbind (h : Settled s) (hI : Identified s) : Settled (unbind p true s) := by
  have hst := hI.starts_eq p
  cases hd : (s.devs p).drvdata with
  | none =>
    rw [unbind_of_none (hst.trans hd)]
    exact h.setDev hd
  | some id =>
    rw [unbind_of_some (hst.trans hd)]
    exact h.start hI rfl hd

theorem Settled.stop (h : Settled s) (hI : Identified s) : Settled (pciStopAndRemoveBusDevice p true s) := by
  have hst := hI.starts_eq p
  cases hd : (s.devs p).drvdata with
  | none =>
    rw [stop_of_none (hst.trans hd)]
    exact h.setDev hd
  | some id =>
    rw [stop_of_some (hst.trans hd)]
    exact h.start hI rfl hd

omit [DecidableEq D] in
/-- A thread reads its entry. -/
theorem Settled.removerStart (h : Settled s) {k : ℕ} {r : Remover} (hk : s.removers[k]? = some r) (hn : r.pdev = none) :
    Settled { s with removers := s.removers.set k { r with pdev := some (s.gulDevId r.arg).pdev } } := by
  have hr := List.mem_of_getElem? hk
  have hall : ∀ {P : Remover → Prop}, (∀ r ∈ s.removers, P r) → P { r with pdev := some (s.gulDevId r.arg).pdev } →
      ∀ r' ∈ s.removers.set k { r with pdev := some (s.gulDevId r.arg).pdev }, P r' := fun h hnew r' hr' => by
    rcases List.mem_or_eq_of_mem_set hr' with hr' | rfl
    · exact h r' hr'
    · exact hnew
  have hargs : (s.removers.set k { r with pdev := some (s.gulDevId r.arg).pdev }).map Remover.arg =
      s.removers.map Remover.arg := by
    obtain ⟨hlt, hget⟩ := List.getElem?_eq_some_iff.mp hk
    rw [List.map_set]
    refine List.ext_getElem (List.length_set ..) fun n hn hn' => ?_
    rw [List.getElem_set]
    split_ifs with hkn
    · subst hkn
      rw [List.getElem_map, hget]
    · rfl
  refine ⟨hall h.unread fun hl => (by cases hl), hall h.read fun l hl => ?_, hall h.used (h.used r hr), hargs ▸ h.one,
    fun q id hq => ?_, fun id hid => hall (h.done id hid) (h.done id hid r hr)⟩
  · rw [← Option.some.inj hl, h.unread r hr hn]
  · obtain ⟨h1, h2, h3⟩ := h.holder q id hq
    exact ⟨h1, h2, hall h3 (h3 r hr)⟩

omit [DecidableEq D] in
/-- A thread takes its device off: what is left once it has gone from the list. -/
theorem Settled.erase (h : Settled s) (k : ℕ) : Settled { s with removers := s.removers.eraseIdx k } := by
  have hmem : ∀ r ∈ s.removers.eraseIdx k, r ∈ s.removers := fun r => List.mem_of_mem_eraseIdx
  refine ⟨fun r hr => h.unread r (hmem r hr), fun r hr => h.read r (hmem r hr), fun r hr => h.used r (hmem r hr),
    h.one.sublist ((List.eraseIdx_sublist ..).map _), fun q id hq => ?_, fun id hid r hr => h.done id hid r (hmem r hr)⟩
  obtain ⟨h1, h2, h3⟩ := h.holder q id hq
  exact ⟨h1, h2, fun r hr => h3 r (hmem r hr)⟩

omit [DecidableEq D] in
/-- No other thread has the entry of a thread. -/
theorem Settled.erase_arg (h : Settled s) {k : ℕ} {r : Remover} (hk : s.removers[k]? = some r) :
    ∀ r' ∈ s.removers.eraseIdx k, r'.arg ≠ r.arg := by
  intro r' hr' harg
  obtain ⟨hlt, rfl⟩ := List.getElem?_eq_some_iff.mp hk
  have hperm := (List.getElem_cons_eraseIdx_perm hlt).map Remover.arg
  have hnodup := hperm.nodup_iff.mpr h.one
  rw [List.map_cons, List.nodup_cons] at hnodup
  exact hnodup.1 (harg ▸ List.mem_map_of_mem hr')

omit [DecidableEq D] in
/-- The entry of an id with no thread and no device says that the device is removed. -/
theorem Settled.mark (h : Settled s) {a : Fin maxModem} (hfree : ∀ r ∈ s.removers, r.arg ≠ a)
    (hhold : ∀ p, (s.devs p).drvdata ≠ some a) {e : GulModemDevId} (he : e.pdev = (s.gulDevId a).pdev) :
    Settled { s with gulDevId := Function.update s.gulDevId a e } := by
  have hpdev : ∀ id, (Function.update s.gulDevId a e id).pdev = (s.gulDevId id).pdev := fun id => by
    by_cases hid : id = a
    · rw [hid, Function.update_self, he]
    · rw [Function.update_of_ne hid]
  refine ⟨fun r hr hn => (hpdev r.arg).trans (h.unread r hr hn), h.read,
      fun r hr => (hpdev r.arg).symm ▸ h.used r hr, h.one,
    fun q id hq => ?_, fun id hid => ?_⟩
  · have hne : id ≠ a := by
      rintro rfl
      exact hhold q hq
    simp only [Function.update_of_ne hne]
    exact h.holder q id hq
  · by_cases hida : id = a
    · rw [hida]
      exact hfree
    · simp only [Function.update_of_ne hida] at hid
      exact h.done id hid

/-- Taking a device off starts at most the thread of the id it held, and no device gets one. -/
theorem Identified.stop_cases (hI : Identified s) :
    (∀ r ∈ (pciStopAndRemoveBusDevice p true s).removers, r ∈ s.removers ∨ (s.devs p).drvdata = some r.arg) ∧
      ∀ q id, ((pciStopAndRemoveBusDevice p true s).devs q).drvdata = some id →
          q ≠ p ∧ (s.devs q).drvdata = some id := by
  have hst := hI.starts_eq p
  have hq : ∀ {d : PciDev D} {q : ℕ} {id : Fin maxModem}, d.drvdata = none →
      (Function.update s.devs p d q).drvdata = some id →
      q ≠ p ∧ (s.devs q).drvdata = some id := fun {d q id} hd hq => by
    by_cases hqp : q = p
    · rw [hqp, Function.update_self, hd] at hq
      cases hq
    · rw [Function.update_of_ne hqp] at hq
      exact ⟨hqp, hq⟩
  cases hd : (s.devs p).drvdata with
  | none =>
    rw [stop_of_none (hst.trans hd)]
    exact ⟨fun r hr => Or.inl hr, fun q id => hq hd⟩
  | some id =>
    rw [stop_of_some (hst.trans hd)]
    have hrs : ∀ r ∈ withRemover s.removers id p true, r ∈ s.removers ∨ some id = some r.arg :=
      forall_mem_withRemover (fun r hr => Or.inl hr) (Or.inr rfl)
    exact ⟨hrs, fun q id => hq rfl⟩

/-- A thread does the rest of its work. -/
theorem Settled.gulRemovePciDev (h : Settled s) (hI : Identified s) {k : ℕ} {r : Remover} (hk : s.removers[k]? = some r)
    {q : Option ℕ} (hq : r.pdev = some q) : Settled (gulRemovePciDev k r q true s) := by
  have hr := List.mem_of_getElem? hk
  obtain rfl := h.read r hr q hq
  have ht := h.erase k
  have hIt := hI.eraseRemover k
  obtain ⟨hrs, hds⟩ := hIt.stop_cases (p := r.given)
  have hu := ht.stop (p := r.given) hIt
  have hhold : ∀ p, (s.devs p).drvdata ≠ some r.arg := fun p hp => (h.holder p r.arg hp).2.2 r hr rfl
  set u := pciStopAndRemoveBusDevice r.given true { s with removers := s.removers.eraseIdx k } with hudef
  have hnone : (u.devs r.given).drvdata = none := by
    rw [Option.eq_none_iff_forall_ne_some]
    exact fun id hid => (hds r.given id hid).1 rfl
  have hput : Settled (putDevice r.given u) :=
      hu.setDev (d := { u.devs r.given with refs := (u.devs r.given).refs - 1 }) hnone
  refine Settled.mark (a := r.arg) hput (fun r' hr' => ?_) (fun p hp => ?_) rfl
  · rcases hrs r' hr' with hr' | hr'
    · exact h.erase_arg hk r' hr'
    · intro harg
      exact hhold r.given (harg ▸ hr')
  · by_cases hpr : p = r.given
    · simp only [hpr, putDevice, PciState.setDev, Function.update_self] at hp
      cases hnone.symm.trans hp
    · simp only [putDevice, PciState.setDev, Function.update_of_ne hpr] at hp
      exact hhold p (hds p r.arg hp).2

theorem Settled.probe (h : Settled s) (hI : Identified s) (hn : (s.devs p).bound = false) {fate : Fate}
    (ho : Orderly s (.probe p fate true)) : Settled (gulPcidevProbe p fate true s) := by
  have hd : (s.devs p).drvdata = none := by
    rw [Option.eq_none_iff_forall_ne_some]
    intro id hid
    cases hn.symm.trans (hI.bound p id hid)
  unfold gulPcidevProbe
  have hdevs := getId_devs (s := s) (s.devs p).devName
  cases hi : getGulDevIdPcidevname (s.devs p).devName s with
  | mk i t =>
    have hparts : t.devs = s.devs ∧ t.gulDevId = s.gulDevId ∧ t.removers = s.removers := by
      rcases getId_cases (s.devs p).devName s with ⟨_, -, hi', -⟩ | ⟨-, -, hi', -⟩ | hi'
      · cases hi'.symm.trans hi
        exact ⟨rfl, rfl, rfl⟩
      · cases hi'.symm.trans hi
        exact ⟨rfl, rfl, rfl⟩
      · cases hi'.symm.trans hi
        exact ⟨rfl, rfl, rfl⟩
    have ht : Settled t := by
      obtain ⟨h1, h2, h3⟩ := hparts
      exact ⟨by rw [h2, h3]; exact h.unread, by rw [h3]; exact h.read, by rw [h2, h3]; exact h.used, by rw [h3]; exact h.one,
        by rw [h1, h2, h3]; exact h.holder, by rw [h2, h3]; exact h.done⟩
    have hdt : (t.devs p).drvdata = none := by rw [hparts.1, hd]
    cases i with
    | none => exact ht.setDev hdt
    | some id =>
      obtain ⟨h1, h2, h3, h4, h5⟩ := ho.2 id (by rw [hi])
      rw [← hparts.2.1] at h5
      have hself : Function.update t.gulDevId id ⟨some p, false, false⟩ id = ⟨some p, false, false⟩ :=
          Function.update_self ..
      -- the thread of a probe that fails gets the entry of the probed modem
      have hstart : fate ≠ .pciEnableDevice → Settled (runRemover id p true (privInit id p t)) := fun hne => by
        obtain ⟨hfree, hhold⟩ := ht.free (h5 hne)
        have hother : ∀ id', id' ≠ id → Function.update t.gulDevId id ⟨some p, false, false⟩ id' = t.gulDevId id' :=
          fun id' hid' => Function.update_of_ne hid' _ _
        have hpdev : (Function.update t.gulDevId id ⟨some p, false, false⟩ id).pdev = some p := by rw [hself]
        have hst := ht.started (d := { t.devs p with refs := (t.devs p).refs + 1 }) hdt hother hpdev (by rw [hself]) hfree
          (fun q _ => hhold q)
        exact ⟨hst.unread, hst.read, hst.used, hst.one, hst.holder, hst.done⟩
      cases fate with
      | pciEnableDevice => exact ht
      | pciRequestRegions => exact absurd rfl h1
      | dmaSetMask => exact absurd rfl h2
      | gulDevAlloc => exact absurd rfl h3
      | gulPciPrivInit =>
        obtain rfl := h4 rfl
        exact hstart (by decide)
      | gulBaseProbe => exact hstart (by decide)
      | none =>
        obtain ⟨hfree, hhold⟩ := ht.free (h5 (by decide))
        have hother : ∀ {id' : Fin maxModem}, id' ≠ id →
            Function.update t.gulDevId id ⟨some p, false, false⟩ id' = t.gulDevId id' :=
          fun hne => Function.update_of_ne hne _ _
        refine ⟨fun r hr hrn => ?_, ht.read, fun r hr => ?_, ht.one, fun q id' hq => ?_, fun id' hid' => ?_⟩
        · exact (congrArg GulModemDevId.pdev (hother (hfree r hr))).trans (ht.unread r hr hrn)
        · exact (congrArg GulModemDevId.pdev (hother (hfree r hr))).trans_ne (ht.used r hr)
        · by_cases hqp : q = p
          · subst hqp
            simp only [PciState.setDev, Function.update_self, Option.some.injEq] at hq
            subst hq
            exact ⟨congrArg GulModemDevId.pdev hself, congrArg GulModemDevId.isPciDevRemoved hself, hfree⟩
          · simp only [PciState.setDev, privInit, Function.update_of_ne hqp] at hq
            have hne : id' ≠ id := by
              rintro rfl
              exact hhold q hq
            obtain ⟨h1, h2, h3⟩ := ht.holder q id' hq
            exact ⟨(congrArg GulModemDevId.pdev (hother hne)).trans h1,
              (congrArg GulModemDevId.isPciDevRemoved (hother hne)).trans h2, h3⟩
        · have hne : id' ≠ id := by
            rintro rfl
            have := hid'.symm.trans (congrArg GulModemDevId.isPciDevRemoved hself)
            cases this
          exact ht.done id' ((congrArg GulModemDevId.isPciDevRemoved (hother hne)).symm.trans hid')

theorem settled_step (hI : Identified s) (h : Settled s) {i : PciInput D} (ho : Orderly s i) :
    Settled (pciStep s i).1 := by
  unfold pciStep
  cases i with
  | appear name =>
    dsimp only
    split_ifs
    · exact h
    · have hs := h.setDev (p := s.next) (d := ⟨name, true, 1, false, none⟩) rfl
      exact ⟨hs.unread, hs.read, hs.used, hs.one, hs.holder, hs.done⟩
  | probe p fate kthread =>
    obtain rfl : kthread = true := ho.1
    dsimp only
    split_ifs with hp
    · exact h.probe hI (by simpa using hp.2.2) ho
    · exact h
  | unbind p kthread =>
    obtain rfl : kthread = true := ho.1
    dsimp only
    split_ifs
    · exact h.unbind hI
    · exact h
  | takeOff p kthread =>
    obtain rfl : kthread = true := ho.1
    dsimp only
    split_ifs
    · exact h.stop hI
    · exact h
  | reset id kthread =>
    obtain rfl : kthread = true := ho.1
    dsimp only
    cases (s.gulDevId id).pdev with
    | none => exact h
    | some p => exact h.stop hI
  | removerStart k =>
    dsimp only
    cases hk : s.removers[k]? with
    | none => exact h
    | some r =>
      dsimp only
      split_ifs with hr
      · exact h.removerStart hk hr
      · exact h
  | removerRun k kthread =>
    obtain rfl : kthread = true := ho.1
    dsimp only
    cases hk : s.removers[k]? with
    | none => exact h
    | some r =>
      cases hq : r.pdev with
      | none =>
        simp only [hq]
        exact h
      | some q =>
        simp only [hq]
        exact h.gulRemovePciDev hI hk hq

omit [DecidableEq D] in
theorem settled_init (d : PciDev D) (addrs : List D) : Settled (pciInit d addrs) := by
  refine ⟨fun _ h => ?_, fun _ h => ?_, fun _ h => ?_, List.nodup_nil, fun _ _ h => ?_, fun _ h => ?_⟩
  · cases h
  · cases h
  · cases h
  · cases h
  · cases h

/-- A thread that ends has run with what it read. -/
theorem settled_out (h : Settled s) (i : PciInput D) (r : Remover) (hr : (pciStep s i).2 = some r) :
    r.pdev = some (some r.given) := by
  unfold pciStep at hr
  cases i with
  | appear name =>
    dsimp only at hr
    split_ifs at hr
  | probe p fate kthread | unbind p kthread | takeOff p kthread =>
    dsimp only at hr
    split_ifs at hr
  | reset id kthread =>
    dsimp only at hr
    cases he : (s.gulDevId id).pdev <;> simp [he] at hr
  | removerStart k =>
    dsimp only at hr
    cases hk : s.removers[k]? with
    | none => simp [hk] at hr
    | some r' =>
      simp only [hk] at hr
      split_ifs at hr
  | removerRun k kthread =>
    dsimp only at hr
    cases hk : s.removers[k]? with
    | none => simp [hk] at hr
    | some r' =>
      cases hq : r'.pdev with
      | none => simp [hk, hq] at hr
      | some q =>
        obtain rfl : r' = r := by simpa [hk, hq] using hr
        rw [hq, h.read r' (List.mem_of_getElem? hk) q hq]

/-- The whole of what an orderly run keeps. -/
structure Orderliness (s : PciState D) : Prop where
  known : Known s
  identified : Identified s
  settled : Settled s
  balanced : Balanced s

theorem orderly_faithful (h : Settled s) {i : PciInput D} (ho : Orderly s i) : Faithful s i := by
  refine ⟨fun _ => ho.1, ?_⟩
  cases i with
  | removerRun k kthread => exact fun r q hk hq => h.read r (List.mem_of_getElem? hk) q hq
  | _ => trivial

theorem orderliness_step (h : Orderliness s) {i : PciInput D} (ho : Orderly s i) : Orderliness (pciStep s i).1 :=
  ⟨known_step h.known i, identified_step h.known h.identified i, settled_step h.identified h.settled ho,
    (balanced_step_iff h.known h.balanced i).mpr (orderly_faithful h.settled ho)⟩

theorem orderliness_init (d : PciDev D) (addrs : List D) : Orderliness (pciInit d addrs) :=
  ⟨known_init d addrs, identified_init d addrs, settled_init d addrs, balanced_init d addrs⟩

/-- **Removal threads keep to their device.** In a run in which threads start, a modem's id is
probed only while its entry is empty or says that the device before is removed, and no probe
fails before `dev_id` is its modem's, every thread that ends has taken off the device it was
started for; and in every state reached the references are balanced, no modem has two threads,
and one whose `is_pci_dev_removed` is set has none. -/
theorem removers_keep_to_their_device (d : PciDev D) (addrs : List D) (run : List (PciInput D))
    (h : Guarded pciStep Orderly (pciInit d addrs) run) :
    (∀ o ∈ outs pciStep (pciInit d addrs) run, ∀ r, o.2 = some r → r.pdev = some (some r.given)) ∧
      ∀ pre, pre <+: run → let s := exec pciStep (pciInit d addrs) pre
        Balanced s ∧ (s.removers.map Remover.arg).Nodup ∧
          ∀ id, (s.gulDevId id).isPciDevRemoved = true → ∀ r ∈ s.removers, r.arg ≠ id := by
  have hout := outs_of_guarded (I := Orderliness) (Q := fun _ o => ∀ r, o = some r → r.pdev = some (some r.given))
    (fun s i hs hg => orderliness_step hs hg) (fun s i hs _ r => settled_out hs.settled i r) run (orderliness_init d addrs) h
  refine ⟨hout, fun pre hpre => ?_⟩
  have hs : Orderliness (exec pciStep (pciInit d addrs) pre) :=
    exec_inv_of_guarded (I := Orderliness) (fun s i hs hg => orderliness_step hs hg) pre (orderliness_init d addrs) (h.initial hpre)
  exact ⟨hs.balanced, hs.settled.one, hs.settled.done⟩

/-- Two modems are taken off while each other's threads run, and one comes back. -/
theorem removers_keep_to_their_device_of_two :
    let d : PciDev ℕ := ⟨0, false, 0, false, none⟩
    let run : List (PciInput ℕ) := [.appear 7, .appear 9, .probe 0 .none true, .probe 1 .gulBaseProbe true, .unbind 0 true,
      .removerStart 1, .removerStart 0, .removerRun 1 true, .appear 7, .probe 2 .none true, .removerRun 0 true]
    ((exec pciStep (pciInit d [7, 9]) run).gulDevId 1).isPciDevRemoved = true ∧
      Balanced (exec pciStep (pciInit d [7, 9]) run) := by
  intro d run
  exact ⟨by decide, ((removers_keep_to_their_device d [7, 9] run (by decide)).2 run List.prefix_rfl).1⟩

end Ids

end Pci
end La12xx
