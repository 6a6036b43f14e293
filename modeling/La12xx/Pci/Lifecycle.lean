/-
# Modems on the PCI bus: identities, references and the threads that remove them

`gul_pcidev_probe` of `gul_pci.c` gives a device of the bus a modem id
(`get_gul_dev_id_pcidevname`), brings it up and, where that fails, starts a
`gul_remove_pci_dev` thread that takes the device off the bus again;
`gul_pcidev_remove` starts the same thread. A starter takes a reference to the
device for the thread; the thread finds the device through the entry
`gul_dev_id[..]` it was handed, when it gets to run, and puts the reference.

A run interleaves in any way what the driver core does (a device appears on the
bus, is probed, is unbound, is taken off), `gul_pcidev_reset_device` and the
steps of the threads. A thread takes two steps: it reads its entry, and then all the
rest is one, although the source releases the lock of the bus before it puts the
reference and writes the two flags of the entry; nothing here comes in between.
What can go wrong in a probe is part of the input. A
failing probe hands the thread `gul_dev_id[dev_id]`, and `dev_id` is 0 until
`gul_pci_priv_init` has returned.

Key definitions: `pciStep`, `defect`, `Settled`.
Key theorems: `references_balanced_iff`, `removers_keep_to_their_device`,
`modem_ids_exclusive`.
-/
import La12xx.Lib.Machine

namespace La12xx
namespace Pci

open Machine

/-! ### Data -/

/-- `MAX_MODEM` -/
abbrev maxModem : ℕ := 4

theorem maxModem_pos : 0 < maxModem := Nat.succ_pos 3

/-- `struct pci_dev`, with its reference count, whether the driver core has bound the
driver to it, and the modem id in the `struct gul_dev` it keeps for the driver. -/
structure PciDev (D : Type) where
  devName : D
  onBus : Bool
  refs : ℤ
  bound : Bool
  drvdata : Option (Fin maxModem)

/-- `struct gul_modem_dev_id` -/
structure GulModemDevId where
  pdev : Option ℕ
  isPciDevRemoved : Bool
  removeInProgress : Bool
deriving DecidableEq, Repr

/-- A `gul_remove_pci_dev` thread: the entry it was handed, the device its starter took
a reference to, and its variable `pdev` once it has read the entry. -/
structure Remover where
  arg : Fin maxModem
  given : ℕ
  pdev : Option (Option ℕ)
deriving DecidableEq, Repr

/-- The devices the bus has seen, by number, the tables of `gul_pci.c` and the threads
that have not ended. `devName` is the name of `g_gul_global`, `none` where it is empty. -/
structure PciState (D : Type) where
  devs : ℕ → PciDev D
  next : ℕ
  devName : Fin maxModem → Option D
  pciAddrCount : ℕ
  gulDevIdG : ℕ
  gulDevId : Fin maxModem → GulModemDevId
  removers : List Remover

/-- The call of `gul_pcidev_probe` that fails, if one does. -/
inductive Fate where
  | pciEnableDevice
  | pciRequestRegions
  | dmaSetMask
  /-- the allocation of `gul_pci_priv_init` -/
  | gulDevAlloc
  /-- a later call of `gul_pci_priv_init` -/
  | gulPciPrivInit
  /-- the errata routine or `gul_base_probe` -/
  | gulBaseProbe
  | none
deriving DecidableEq, Repr

/-- Who moves; `kthread` says whether `kthread_run` would succeed in the step. -/
inductive PciInput (D : Type) where
  /-- the bus finds a device -/
  | appear (name : D)
  | probe (p : ℕ) (fate : Fate) (kthread : Bool)
  /-- the driver core unbinds the driver from a device -/
  | unbind (p : ℕ) (kthread : Bool)
  /-- a device is taken off the bus -/
  | takeOff (p : ℕ) (kthread : Bool)
  /-- `gul_pcidev_reset_device` takes a modem's device off the bus -/
  | reset (id : Fin maxModem) (kthread : Bool)
  /-- the `k`-th thread reads its entry -/
  | removerStart (k : ℕ)
  /-- the `k`-th thread does the rest of its work -/
  | removerRun (k : ℕ) (kthread : Bool)

/-! ### The driver -/

section Driver

variable {D : Type} [DecidableEq D]

/-- `get_gul_dev_id_pcidevname`: the id, or none for -1. -/
def getGulDevIdPcidevname (name : D) (s : PciState D) : Option (Fin maxModem) × PciState D :=
  match (List.finRange maxModem).find? fun i => decide (s.devName i = some name) with
  | some i => (some i, s)
  | none =>
    if s.pciAddrCount ≠ 0 then (none, s)
    else if 1 ≤ s.gulDevIdG then (none, s)
    else if h : s.gulDevIdG < maxModem then (some ⟨s.gulDevIdG, h⟩, { s with gulDevIdG := s.gulDevIdG + 1 })
    else (none, s)

omit [DecidableEq D] in
/-- A change of one device. -/
def PciState.setDev (s : PciState D) (p : ℕ) (d : PciDev D) : PciState D :=
  { s with devs := Function.update s.devs p d }

omit [DecidableEq D] in
/-- What `gul_pci_priv_init` writes to the tables for a device. -/
def privInit (id : Fin maxModem) (p : ℕ) (s : PciState D) : PciState D :=
  { s with gulDevId := Function.update s.gulDevId id ⟨some p, false, false⟩,
           devName := Function.update s.devName id (some (s.devs p).devName) }

omit [DecidableEq D] in
/-- `get_device` and `kthread_run(gul_remove_pci_dev, &gul_dev_id[id])`. -/
def runRemover (id : Fin maxModem) (p : ℕ) (kthread : Bool) (s : PciState D) : PciState D :=
  { s with devs := Function.update s.devs p { s.devs p with refs := (s.devs p).refs + 1 },
           removers := if kthread then s.removers ++ [⟨id, p, none⟩] else s.removers }

/-- `gul_pcidev_probe`; the driver core binds the device if it returns 0. -/
def gulPcidevProbe (p : ℕ) (fate : Fate) (kthread : Bool) (s : PciState D) : PciState D :=
  let (i, s) := getGulDevIdPcidevname (s.devs p).devName s
  match i with
  | none => s.setDev p { s.devs p with bound := true }
  | some id =>
    match fate with
    | .pciEnableDevice => s
    -- `dev_id` is still 0 here
    | .pciRequestRegions | .dmaSetMask | .gulDevAlloc => runRemover ⟨0, maxModem_pos⟩ p kthread s
    | .gulPciPrivInit => runRemover ⟨0, maxModem_pos⟩ p kthread (privInit id p s)
    | .gulBaseProbe => runRemover id p kthread (privInit id p s)
    | .none => (privInit id p s).setDev p { s.devs p with bound := true, drvdata := some id }

omit [DecidableEq D] in
/-- `gul_pcidev_remove`; `gul_dev_free` ends with the private data gone. -/
def gulPcidevRemove (p : ℕ) (kthread : Bool) (s : PciState D) : PciState D :=
  match (s.devs p).drvdata with
  | none => s
  | some id =>
    if (s.gulDevId id).removeInProgress then s
    else
      let s := { s with gulDevId := Function.update s.gulDevId id { s.gulDevId id with removeInProgress := true } }
      let s := runRemover id p kthread s
      s.setDev p { s.devs p with drvdata := none }

omit [DecidableEq D] in
/-- The driver core unbinds the driver. -/
def unbind (p : ℕ) (kthread : Bool) (s : PciState D) : PciState D :=
  if (s.devs p).bound then
    let s := gulPcidevRemove p kthread s
    s.setDev p { s.devs p with bound := false }
  else s

omit [DecidableEq D] in
/-- `pci_stop_and_remove_bus_device_locked`: the bus lets go of the device once. -/
def pciStopAndRemoveBusDevice (p : ℕ) (kthread : Bool) (s : PciState D) : PciState D :=
  let s := unbind p kthread s
  if (s.devs p).onBus then s.setDev p { s.devs p with onBus := false, refs := (s.devs p).refs - 1 } else s

omit [DecidableEq D] in
/-- `put_device` -/
def putDevice (p : ℕ) (s : PciState D) : PciState D :=
  s.setDev p { s.devs p with refs := (s.devs p).refs - 1 }

omit [DecidableEq D] in
/-- `gul_remove_pci_dev` after its first line, in the `k`-th thread, `r`. -/
def gulRemovePciDev (k : ℕ) (r : Remover) (q : Option ℕ) (kthread : Bool) (s : PciState D) : PciState D :=
  let s := { s with removers := s.removers.eraseIdx k }
  match q with
  | none => s
  | some p =>
    let s := putDevice p (pciStopAndRemoveBusDevice p kthread s)
    let e := { s.gulDevId r.arg with isPciDevRemoved := true, removeInProgress := false }
    { s with gulDevId := Function.update s.gulDevId r.arg e }

/-- One step; the output is the thread that ran to its end, if one did. -/
def pciStep (s : PciState D) : PciInput D → PciState D × Option Remover
  | .appear name =>
    if (List.range s.next).any fun p => (s.devs p).onBus && decide ((s.devs p).devName = name) then (s, none)
    else ({ s with devs := Function.update s.devs s.next ⟨name, true, 1, false, none⟩, next := s.next + 1 }, none)
  | .probe p fate kthread =>
    if p < s.next ∧ (s.devs p).onBus ∧ ¬ (s.devs p).bound then (gulPcidevProbe p fate kthread s, none) else (s, none)
  | .unbind p kthread => if p < s.next then (unbind p kthread s, none) else (s, none)
  | .takeOff p kthread => if p < s.next then (pciStopAndRemoveBusDevice p kthread s, none) else (s, none)
  | .reset id kthread =>
    match (s.gulDevId id).pdev with
    | none => (s, none)
    | some p => (pciStopAndRemoveBusDevice p kthread s, none)
  | .removerStart k =>
    match s.removers[k]? with
    | none => (s, none)
    | some r =>
      if r.pdev = none then
        ({ s with removers := s.removers.set k { r with pdev := some (s.gulDevId r.arg).pdev } }, none)
      else (s, none)
  | .removerRun k kthread =>
    match s.removers[k]? with
    | none => (s, none)
    | some r =>
      match r.pdev with
      | none => (s, none)
      | some q => (gulRemovePciDev k r q kthread s, some r)

/-- The module is loaded with the addresses of `pci_addr_array`; the bus is empty. -/
def pciInit (d : PciDev D) (addrs : List D) : PciState D where
  devs := fun _ => { d with onBus := false, refs := 0, bound := false, drvdata := none }
  next := 0
  devName := fun i => addrs[i.val]?
  pciAddrCount := addrs.length
  gulDevIdG := addrs.length
  gulDevId := fun _ => ⟨none, false, false⟩
  removers := []

end Driver

/-! ### What unbinding and taking off do -/

section Ops

variable {D : Type} {s : PciState D} {p : ℕ} {id : Fin maxModem} {kthread : Bool}

/-- The modem id for which unbinding the device would start a thread. -/
def PciState.starts (s : PciState D) (p : ℕ) : Option (Fin maxModem) :=
  if (s.devs p).bound then
    match (s.devs p).drvdata with
    | none => none
    | some id => if (s.gulDevId id).removeInProgress then none else some id
  else none

theorem starts_eq_some (h : s.starts p = some id) :
    (s.devs p).bound = true ∧ (s.devs p).drvdata = some id ∧ (s.gulDevId id).removeInProgress = false := by
  unfold PciState.starts at h
  split_ifs at h with hb
  split at h
  · cases h
  · rename_i id' hd
    split_ifs at h with hp
    cases h
    exact ⟨hb, hd, by simpa using hp⟩

/-- The threads after a `kthread_run`. -/
def withRemover (rs : List Remover) (id : Fin maxModem) (p : ℕ) (kthread : Bool) : List Remover :=
  if kthread then rs ++ [⟨id, p, none⟩] else rs

theorem unbind_of_none (h : s.starts p = none) :
    unbind p kthread s = s.setDev p { s.devs p with bound := false } := by
  unfold unbind
  by_cases hb : (s.devs p).bound = true
  · have hsame : gulPcidevRemove p kthread s = s := by
      unfold gulPcidevRemove
      unfold PciState.starts at h
      rw [if_pos hb] at h
      cases hd : (s.devs p).drvdata with
      | none => rfl
      | some id =>
        rw [hd] at h
        have hp : (s.gulDevId id).removeInProgress = true := by
          by_contra hp
          simp [hp] at h
        simp [hp]
    rw [if_pos hb, hsame]
  · have hf : (s.devs p).bound = false := by simpa using hb
    rw [if_neg hb, PciState.setDev]
    have hdev : { s.devs p with bound := false } = s.devs p := by rw [← hf]
    rw [hdev, Function.update_eq_self]

theorem unbind_of_some (h : s.starts p = some id) :
    unbind p kthread s =
      { s with devs := Function.update s.devs p { s.devs p with bound := false, drvdata := none, refs := (s.devs p).refs + 1 },
               gulDevId := Function.update s.gulDevId id { s.gulDevId id with removeInProgress := true },
               removers := withRemover s.removers id p kthread } := by
  obtain ⟨hb, hd, hp⟩ := starts_eq_some h
  simp [unbind, gulPcidevRemove, runRemover, withRemover, PciState.setDev, hb, hd, hp]

theorem stop_of_none (h : s.starts p = none) :
    pciStopAndRemoveBusDevice p kthread s =
      s.setDev p { s.devs p with bound := false, onBus := false,
                                 refs := (s.devs p).refs - if (s.devs p).onBus then 1 else 0 } := by
  rw [pciStopAndRemoveBusDevice, unbind_of_none h]
  cases hb : (s.devs p).onBus <;> simp [PciState.setDev, hb]

theorem stop_of_some (h : s.starts p = some id) :
    pciStopAndRemoveBusDevice p kthread s =
      { s with devs := Function.update s.devs p
                 { s.devs p with bound := false, drvdata := none, onBus := false,
                                 refs := (s.devs p).refs + 1 - if (s.devs p).onBus then 1 else 0 },
               gulDevId := Function.update s.gulDevId id { s.gulDevId id with removeInProgress := true },
               removers := withRemover s.removers id p kthread } := by
  rw [pciStopAndRemoveBusDevice, unbind_of_some h]
  cases hb : (s.devs p).onBus <;> simp [PciState.setDev, hb]

end Ops

/-! ### References -/

section References

variable {D : Type} {s : PciState D} {p x : ℕ} {id : Fin maxModem} {kthread : Bool}

/-- What a device's reference count has above the references that are accounted for:
one of the bus while the device is on it, and one of each thread that has not ended. -/
def PciState.defect (s : PciState D) (p : ℕ) : ℤ :=
  (s.devs p).refs - (if (s.devs p).onBus then 1 else 0) - (s.removers.countP fun r => decide (r.given = p) : ℕ)

/-- Every reference is accounted for. -/
def Balanced (s : PciState D) : Prop := ∀ p, s.defect p = 0

theorem defect_congr {s s' : PciState D} (hd : s'.devs = s.devs) (hr : s'.removers = s.removers) :
    s'.defect p = s.defect p := by
  unfold PciState.defect
  rw [hd, hr]

theorem countP_withRemover (rs : List Remover) :
    (withRemover rs id p kthread).countP (fun r => decide (r.given = x)) =
      rs.countP (fun r => decide (r.given = x)) + if kthread = true ∧ x = p then 1 else 0 := by
  cases kthread with
  | false => simp [withRemover]
  | true =>
    by_cases hx : x = p
    · simp [withRemover, hx]
    · simp [withRemover, hx, Ne.symm hx]

theorem countP_eraseIdx {rs : List Remover} {k : ℕ} {r : Remover} (hk : rs[k]? = some r) (f : Remover → Bool) :
    rs.countP f = (rs.eraseIdx k).countP f + if f r then 1 else 0 := by
  obtain ⟨hlt, rfl⟩ := List.getElem?_eq_some_iff.mp hk
  rw [← (List.getElem_cons_eraseIdx_perm hlt).countP_eq, List.countP_cons]

theorem defect_setDev (d : PciDev D) (hr : d.refs = (s.devs p).refs) (hb : d.onBus = (s.devs p).onBus) :
    (s.setDev p d).defect x = s.defect x := by
  unfold PciState.defect PciState.setDev
  by_cases hx : x = p
  · subst hx
    simp [hr, hb]
  · simp [hx]

theorem defect_runRemover :
    (runRemover id p kthread s).defect x = s.defect x + if kthread = false ∧ x = p then 1 else 0 := by
  have hc : (withRemover s.removers id p kthread).countP (fun r => decide (r.given = x)) =
      s.removers.countP (fun r => decide (r.given = x)) + if kthread = true ∧ x = p then 1 else 0 :=
    countP_withRemover s.removers
  unfold PciState.defect runRemover
  simp only [withRemover] at hc
  simp only [hc]
  by_cases hx : x = p
  · subst hx
    cases kthread <;> simp <;> ring
  · simp [hx]

theorem defect_unbind :
    (unbind p kthread s).defect x =
      s.defect x + if (s.starts p).isSome = true ∧ kthread = false ∧ x = p then 1 else 0 := by
  cases hs : s.starts p with
  | none =>
    rw [unbind_of_none hs]
    refine (defect_setDev { s.devs p with bound := false } rfl rfl).trans ?_
    simp
  | some id =>
    rw [unbind_of_some hs]
    unfold PciState.defect
    simp only [countP_withRemover]
    by_cases hx : x = p
    · subst hx
      cases kthread <;> simp <;> ring
    · simp [hx]

theorem defect_stop :
    (pciStopAndRemoveBusDevice p kthread s).defect x =
      s.defect x + if (s.starts p).isSome = true ∧ kthread = false ∧ x = p then 1 else 0 := by
  cases hs : s.starts p with
  | none =>
    rw [stop_of_none hs]
    unfold PciState.defect PciState.setDev
    by_cases hx : x = p
    · subst hx
      simp
    · simp [hx]
  | some id =>
    rw [stop_of_some hs]
    unfold PciState.defect
    simp only [countP_withRemover]
    by_cases hx : x = p
    · subst hx
      cases kthread <;> simp <;> ring
    · simp [hx]

theorem defect_putDevice : (putDevice p s).defect x = s.defect x - if x = p then 1 else 0 := by
  unfold PciState.defect putDevice PciState.setDev
  by_cases hx : x = p
  · subst hx
    simp
    ring
  · simp [hx]

theorem defect_eraseIdx {k : ℕ} {r : Remover} (hk : s.removers[k]? = some r) :
    { s with removers := s.removers.eraseIdx k }.defect x = s.defect x + if x = r.given then 1 else 0 := by
  have hc := countP_eraseIdx hk fun r => decide (r.given = x)
  unfold PciState.defect
  simp only [hc]
  by_cases hx : x = r.given
  · subst hx
    simp
    ring
  · simp [hx, Ne.symm hx]

/-! ### Balance -/

section Balance

variable [DecidableEq D]

/-- The step reaches a `kthread_run`. -/
def startsThread (s : PciState D) : PciInput D → Bool
  | .probe p fate _ =>
    decide (p < s.next) && (s.devs p).onBus && !(s.devs p).bound &&
      (getGulDevIdPcidevname (s.devs p).devName s).1.isSome && decide (fate ≠ .pciEnableDevice) && decide (fate ≠ .none)
  | .unbind p _ | .takeOff p _ => decide (p < s.next) && (s.starts p).isSome
  | .reset id _ =>
    match (s.gulDevId id).pdev with
    | none => false
    | some p => (s.starts p).isSome
  | .removerRun k _ =>
    match s.removers[k]? with
    | some ⟨_, _, some (some q)⟩ => (s.starts q).isSome
    | _ => false
  | _ => false

omit [DecidableEq D] in
/-- A `kthread_run` of the step would succeed. -/
def PciInput.kthreadOk : PciInput D → Bool
  | .probe _ _ kthread | .unbind _ kthread | .takeOff _ kthread | .reset _ kthread | .removerRun _ kthread => kthread
  | .appear _ | .removerStart _ => true

omit [DecidableEq D] in
/-- A thread that goes on has read the device it was started for. -/
def ownDevice (s : PciState D) : PciInput D → Prop
  | .removerRun k _ => ∀ r q, s.removers[k]? = some r → r.pdev = some q → q = some r.given
  | _ => True

/-- The step starts a thread wherever it sets out to, and removes what it was asked to. -/
def Faithful (s : PciState D) (i : PciInput D) : Prop := (startsThread s i = true → i.kthreadOk = true) ∧ ownDevice s i

omit [DecidableEq D] in
/-- Nothing is known of devices the bus has not found. -/
structure Known (s : PciState D) : Prop where
  fresh : ∀ p, s.next ≤ p → (s.devs p).refs = 0 ∧ (s.devs p).onBus = false ∧ (s.devs p).bound = false
  entry : ∀ id p, (s.gulDevId id).pdev = some p → p < s.next
  given : ∀ r ∈ s.removers, r.given < s.next
  read : ∀ r ∈ s.removers, ∀ p, r.pdev = some (some p) → p < s.next

theorem getId_devs (name : D) : (getGulDevIdPcidevname name s).2.devs = s.devs := by
  unfold getGulDevIdPcidevname
  split
  · rfl
  · split_ifs <;> rfl

theorem getId_removers (name : D) : (getGulDevIdPcidevname name s).2.removers = s.removers := by
  unfold getGulDevIdPcidevname
  split
  · rfl
  · split_ifs <;> rfl

theorem defect_probe (fate : Fate) (hp : p < s.next) (hb : (s.devs p).onBus = true) (hn : (s.devs p).bound = false) :
    (gulPcidevProbe p fate kthread s).defect x =
      s.defect x + if startsThread s (.probe p fate kthread) = true ∧ kthread = false ∧ x = p then 1 else 0 := by
  have hget : (getGulDevIdPcidevname (s.devs p).devName s).2.defect x = s.defect x :=
    defect_congr (getId_devs _) (getId_removers _)
  have hdevs := getId_devs (s := s) (s.devs p).devName
  unfold gulPcidevProbe
  cases hi : getGulDevIdPcidevname (s.devs p).devName s with
  | mk i t =>
    rw [hi] at hget hdevs
    have hdevs' : t.devs = s.devs := hdevs
    have hget' : t.defect x = s.defect x := hget
    have hinit : ∀ id, (privInit id p t).defect x = s.defect x := fun id => (defect_congr rfl rfl).trans hget'
    cases i with
    | none =>
      refine (defect_setDev { t.devs p with bound := true } rfl rfl).trans ?_
      simp [hget', startsThread, hi]
    | some id =>
      have hst : startsThread s (.probe p fate kthread) =
          (decide (fate ≠ .pciEnableDevice) && decide (fate ≠ .none)) := by
        simp [startsThread, hp, hb, hn, hi]
      cases fate with
      | pciEnableDevice => simp [hst, hget']
      | pciRequestRegions | dmaSetMask | gulDevAlloc => simp [hst, defect_runRemover, hget']
      | gulPciPrivInit | gulBaseProbe => simp [hst, defect_runRemover, hinit]
      | none =>
        refine (defect_setDev (s := privInit id p t) { t.devs p with bound := true, drvdata := some id } rfl rfl).trans ?_
        rw [hinit, hst]
        simp

omit [DecidableEq D] in
/-- A change of `c` at one device keeps the balance exactly if there is no change. -/
theorem balanced_iff_of_defect (kthread : Bool) (p : ℕ) {s' : PciState D} (h : Balanced s) {c : Prop} [Decidable c]
    (hd : ∀ x, s'.defect x = s.defect x + if c ∧ kthread = false ∧ x = p then 1 else 0) :
    Balanced s' ↔ (c → kthread = true) := by
  constructor
  · intro h' hc
    by_contra hk
    have hx := h' p
    rw [hd p, h p] at hx
    simp [hc, hk] at hx
  · intro hc x
    rw [hd x, h x]
    by_cases hcc : c
    · simp [hc hcc]
    · simp [hcc]

omit [DecidableEq D] in
/-- A thread that ends keeps the balance exactly if it put the reference it was given, and a
thread was started for the device if its removal was to start one. -/
theorem balanced_gulRemovePciDev_iff (h : Balanced s) {k : ℕ} {r : Remover} (hk : s.removers[k]? = some r) (q : Option ℕ) :
    Balanced (gulRemovePciDev k r q kthread s) ↔
      ((∀ p, q = some p → (s.starts p).isSome = true → kthread = true) ∧ q = some r.given) := by
  cases q with
  | none =>
    refine iff_of_false (fun h' => ?_) (by simp)
    have hx := h' r.given
    have hd : (gulRemovePciDev k r none kthread s).defect r.given = s.defect r.given + 1 := by
      refine (defect_eraseIdx hk).trans ?_
      simp
    rw [hd, h] at hx
    simp at hx
  | some p =>
    have hd : ∀ x, (gulRemovePciDev k r (some p) kthread s).defect x =
        ((if x = r.given then 1 else 0) + if (s.starts p).isSome = true ∧ kthread = false ∧ x = p then 1 else 0) -
          if x = p then 1 else 0 := by
      intro x
      set t := { s with removers := s.removers.eraseIdx k } with ht
      have hstarts : t.starts p = s.starts p := rfl
      calc (gulRemovePciDev k r (some p) kthread s).defect x
          = (putDevice p (pciStopAndRemoveBusDevice p kthread t)).defect x := defect_congr rfl rfl
        _ = _ := by rw [defect_putDevice, defect_stop, hstarts, ht, defect_eraseIdx hk, h x, zero_add]
    constructor
    · intro h'
      have hg := h' r.given
      rw [hd] at hg
      have hp : r.given = p := by
        by_contra hne
        simp [hne] at hg
      refine ⟨fun p' hp' hs => ?_, by rw [hp]⟩
      cases hp'
      by_contra hkt
      simp [hp, hs, hkt] at hg
    · rintro ⟨hkt, hp⟩ x
      cases hp
      rw [hd]
      by_cases hs : (s.starts r.given).isSome = true
      · simp [hkt _ rfl hs]
      · simp [hs]

/-- A step keeps the balance exactly if it is faithful. -/
theorem balanced_step_iff (hK : Known s) (h : Balanced s) (i : PciInput D) :
    Balanced (pciStep s i).1 ↔ Faithful s i := by
  unfold pciStep Faithful
  cases i with
  | appear name =>
    refine iff_of_true ?_ ⟨fun _ => rfl, trivial⟩
    dsimp only
    split_ifs with hname
    · exact h
    · intro x
      by_cases hx : x = s.next
      · subst hx
        have h0 := h s.next
        obtain ⟨hr, hb, -⟩ := hK.fresh s.next le_rfl
        simp only [PciState.defect, hr, hb] at h0
        simp only [PciState.defect, Function.update_self]
        simpa using h0
      · have hx0 := h x
        simp only [PciState.defect] at hx0 ⊢
        simpa [Function.update_of_ne hx] using hx0
  | probe p fate kthread =>
    dsimp only
    split_ifs with hp
    · have hn : (s.devs p).bound = false := by simpa using hp.2.2
      rw [balanced_iff_of_defect kthread p h fun x => defect_probe fate hp.1 hp.2.1 hn]
      exact (and_iff_left trivial).symm
    · refine iff_of_true h ⟨fun hs => absurd hs ?_, trivial⟩
      simp only [startsThread]
      intro hs
      simp only [Bool.and_eq_true, decide_eq_true_eq, Bool.not_eq_true'] at hs
      exact hp ⟨hs.1.1.1.1.1, hs.1.1.1.1.2, by simp [hs.1.1.1.2]⟩
  | unbind p kthread =>
    dsimp only
    split_ifs with hp
    · rw [balanced_iff_of_defect kthread p h fun x => defect_unbind]
      simp [startsThread, hp, PciInput.kthreadOk, ownDevice]
    · simp [startsThread, hp, ownDevice, h]
  | takeOff p kthread =>
    dsimp only
    split_ifs with hp
    · rw [balanced_iff_of_defect kthread p h fun x => defect_stop]
      simp [startsThread, hp, PciInput.kthreadOk, ownDevice]
    · simp [startsThread, hp, ownDevice, h]
  | reset id kthread =>
    dsimp only
    cases he : (s.gulDevId id).pdev with
    | none => simp [startsThread, he, ownDevice, h]
    | some p =>
      dsimp only
      rw [balanced_iff_of_defect kthread p h fun x => defect_stop]
      simp [startsThread, he, PciInput.kthreadOk, ownDevice]
  | removerStart k =>
    refine iff_of_true ?_ ⟨fun hs => by simp [startsThread] at hs, trivial⟩
    dsimp only
    split
    · exact h
    · rename_i r hr
      split_ifs
      · intro x
        have hx := h x
        obtain ⟨hlt, hget⟩ := List.getElem?_eq_some_iff.mp hr
        have hc : (s.removers.set k { r with pdev := some (s.gulDevId r.arg).pdev }).countP (fun r => decide (r.given = x)) =
            s.removers.countP fun r => decide (r.given = x) := by
          rw [List.countP_set hlt, hget]
          have hpos : decide (r.given = x) = true → 0 < s.removers.countP fun r => decide (r.given = x) := fun hd =>
            List.countP_pos_iff.mpr ⟨r, hget ▸ List.getElem_mem hlt, hd⟩
          split_ifs with hd
          · have := hpos hd
            omega
          · rfl
        simp only [PciState.defect] at hx ⊢
        rw [hc]
        exact hx
      · exact h
  | removerRun k kthread =>
    dsimp only
    cases hk : s.removers[k]? with
    | none => simp [startsThread, hk, ownDevice, h]
    | some r =>
      cases hq : r.pdev with
      | none =>
        simp only [hq]
        refine iff_of_true h ⟨fun hs => ?_, fun r' q hr' hq' => ?_⟩
        · obtain ⟨arg, given, pdev⟩ := r
          cases hq
          simp [startsThread, hk] at hs
        · cases hk.symm.trans hr'
          cases hq.symm.trans hq'
      | some q =>
        simp only [hq]
        rw [balanced_gulRemovePciDev_iff h hk]
        obtain ⟨arg, given, pdev⟩ := r
        cases hq
        have hown : ownDevice s (.removerRun k kthread) ↔ q = some given := by
          refine ⟨fun ho => ho _ q hk rfl, fun hg r' q' hr' hq' => ?_⟩
          cases hk.symm.trans hr'
          cases hq'
          exact hg
        rw [hown]
        cases q with
        | none => simp
        | some p => simp [startsThread, hk, PciInput.kthreadOk]

omit [DecidableEq D] in
/-- A change of a known device, with entries and threads that name known devices. -/
theorem Known.update (h : Known s) (hp : p < s.next) (d : PciDev D) {ids : Fin maxModem → GulModemDevId}
    {rs : List Remover} (hids : ∀ id q, (ids id).pdev = some q → q < s.next) (hgiven : ∀ r ∈ rs, r.given < s.next)
    (hread : ∀ r ∈ rs, ∀ q, r.pdev = some (some q) → q < s.next) :
    Known { s with devs := Function.update s.devs p d, gulDevId := ids, removers := rs } := by
  refine ⟨fun q hq => ?_, hids, hgiven, hread⟩
  have hne : q ≠ p := by
    rintro rfl
    exact absurd hp (not_lt.mpr hq)
  simpa [Function.update_of_ne hne] using h.fresh q hq

omit [DecidableEq D] in
theorem Known.setDev (h : Known s) (hp : p < s.next) (d : PciDev D) : Known (s.setDev p d) :=
  h.update hp d h.entry h.given h.read

/-- What holds of every thread holds with one more thread, if it holds of that. -/
theorem forall_mem_withRemover {P : Remover → Prop} {rs : List Remover} (h : ∀ r ∈ rs, P r) (hr : P ⟨id, p, none⟩) :
    ∀ r ∈ withRemover rs id p kthread, P r := by
  intro r hmem
  unfold withRemover at hmem
  split_ifs at hmem
  · rcases List.mem_append.mp hmem with hmem | hmem
    · exact h r hmem
    · rw [List.mem_singleton.mp hmem]
      exact hr
  · exact h r hmem

omit [DecidableEq D] in
/-- The entries name known devices after a change of one that keeps its device. -/
theorem Known.entry_update (h : Known s) {e : GulModemDevId} (he : e.pdev = (s.gulDevId id).pdev)
    (id' : Fin maxModem) (q : ℕ)
    (hq : (Function.update s.gulDevId id e id').pdev = some q) : q < s.next := by
  by_cases hid : id' = id
  · subst hid
    rw [Function.update_self, he] at hq
    exact h.entry _ _ hq
  · rw [Function.update_of_ne hid] at hq
    exact h.entry _ _ hq

omit [DecidableEq D] in
theorem Known.runRemover (h : Known s) (hp : p < s.next) : Known (runRemover id p kthread s) :=
  h.update hp _ h.entry (forall_mem_withRemover h.given hp) (forall_mem_withRemover h.read fun q hq => by cases hq)

omit [DecidableEq D] in
theorem Known.unbind (h : Known s) (hp : p < s.next) : Known (unbind p kthread s) := by
  cases hs : s.starts p with
  | none =>
    rw [unbind_of_none hs]
    exact h.setDev hp _
  | some id =>
    rw [unbind_of_some hs]
    exact h.update hp _ (h.entry_update rfl) (forall_mem_withRemover h.given hp)
      (forall_mem_withRemover h.read fun q hq => by cases hq)

omit [DecidableEq D] in
theorem Known.stop (h : Known s) (hp : p < s.next) : Known (pciStopAndRemoveBusDevice p kthread s) := by
  cases hs : s.starts p with
  | none =>
    rw [stop_of_none hs]
    exact h.setDev hp _
  | some id =>
    rw [stop_of_some hs]
    exact h.update hp _ (h.entry_update rfl) (forall_mem_withRemover h.given hp)
      (forall_mem_withRemover h.read fun q hq => by cases hq)

omit [DecidableEq D] in
theorem Known.privInit (h : Known s) (hp : p < s.next) : Known (privInit id p s) := by
  refine ⟨h.fresh, fun id' q hq => ?_, h.given, h.read⟩
  by_cases hid : id' = id
  · subst hid
    have hqp : p = q := by simpa [Pci.privInit] using hq
    exact hqp ▸ hp
  · exact h.entry id' q (by simpa [Pci.privInit, Function.update_of_ne hid] using hq)

omit [DecidableEq D] in
theorem next_stop : (pciStopAndRemoveBusDevice p kthread s).next = s.next := by
  cases hs : s.starts p with
  | none =>
    rw [stop_of_none hs]
    rfl
  | some id => rw [stop_of_some hs]

omit [DecidableEq D] in
theorem Known.gulRemovePciDev (h : Known s) {k : ℕ} {r : Remover} (hk : s.removers[k]? = some r) {q : Option ℕ}
    (hq : r.pdev = some q) : Known (gulRemovePciDev k r q kthread s) := by
  have hmem : ∀ r' ∈ s.removers.eraseIdx k, r' ∈ s.removers := fun r' => List.mem_of_mem_eraseIdx
  have ht : Known { s with removers := s.removers.eraseIdx k } :=
    ⟨h.fresh, h.entry, fun r' hr' => h.given r' (hmem r' hr'), fun r' hr' => h.read r' (hmem r' hr')⟩
  cases q with
  | none => exact ht
  | some p =>
    have hp : p < s.next := h.read r (List.mem_of_getElem? hk) p hq
    have hst : Known (pciStopAndRemoveBusDevice p kthread { s with removers := s.removers.eraseIdx k }) := ht.stop hp
    have hput := hst.setDev (p := p) (by rw [next_stop]; exact hp)
      { (pciStopAndRemoveBusDevice p kthread { s with removers := s.removers.eraseIdx k }).devs p with
        refs := ((pciStopAndRemoveBusDevice p kthread { s with removers := s.removers.eraseIdx k }).devs p).refs - 1 }
    exact ⟨hput.fresh, hput.entry_update rfl, hput.given, hput.read⟩

/-- What `get_gul_dev_id_pcidevname` can do: find the name, give out the first id, or refuse. -/
theorem getId_cases (name : D) (s : PciState D) :
    (∃ i, s.devName i = some name ∧ getGulDevIdPcidevname name s = (some i, s) ∧
      (List.finRange maxModem).find? (fun i => decide (s.devName i = some name)) = some i) ∨
    (s.pciAddrCount = 0 ∧ s.gulDevIdG = 0 ∧ getGulDevIdPcidevname name s = (some 0, { s with gulDevIdG := 1 }) ∧
      (List.finRange maxModem).find? (fun i => decide (s.devName i = some name)) = none) ∨
    getGulDevIdPcidevname name s = (none, s) := by
  unfold getGulDevIdPcidevname
  cases hf : (List.finRange maxModem).find? fun i => decide (s.devName i = some name) with
  | some i =>
    have hi : s.devName i = some name := by simpa using List.find?_some hf
    exact Or.inl ⟨i, hi, rfl, rfl⟩
  | none =>
    by_cases hc : s.pciAddrCount = 0
    · by_cases hg : s.gulDevIdG = 0
      · refine Or.inr (Or.inl ⟨hc, hg, ?_, rfl⟩)
        simp [hc, hg, maxModem]
      · refine Or.inr (Or.inr ?_)
        simp [hc, Nat.one_le_iff_ne_zero.mpr hg]
    · refine Or.inr (Or.inr ?_)
      simp [hc]

theorem Known.getId (h : Known s) (name : D) : Known (getGulDevIdPcidevname name s).2 := by
  rcases getId_cases name s with ⟨i, -, hi, -⟩ | ⟨-, -, hi, -⟩ | hi
  · rwa [hi]
  · rw [hi]
    exact ⟨h.fresh, h.entry, h.given, h.read⟩
  · rwa [hi]

theorem next_getId (name : D) : (getGulDevIdPcidevname name s).2.next = s.next := by
  rcases getId_cases name s with ⟨i, -, hi, -⟩ | ⟨-, -, hi, -⟩ | hi <;> rw [hi]

theorem Known.probe (h : Known s) (hp : p < s.next) (fate : Fate) : Known (gulPcidevProbe p fate kthread s) := by
  have ht := h.getId (s.devs p).devName
  have hn := next_getId (s := s) (s.devs p).devName
  unfold gulPcidevProbe
  cases hi : getGulDevIdPcidevname (s.devs p).devName s with
  | mk i t =>
    rw [hi] at ht hn
    have hpt : p < t.next := lt_of_lt_of_eq hp hn.symm
    cases i with
    | none => exact Known.setDev ht hpt _
    | some id =>
      cases fate with
      | pciEnableDevice => exact ht
      | pciRequestRegions | dmaSetMask | gulDevAlloc => exact Known.runRemover ht hpt
      | gulPciPrivInit | gulBaseProbe => exact Known.runRemover (Known.privInit ht hpt) hpt
      | none => exact Known.setDev (Known.privInit ht hpt) hpt _

/-- Every step keeps to known devices. -/
theorem known_step (h : Known s) (i : PciInput D) : Known (pciStep s i).1 := by
  unfold pciStep
  cases i with
  | appear name =>
    dsimp only
    split_ifs
    · exact h
    · refine ⟨fun q hq => ?_, fun id q hq => Nat.lt_succ_of_lt (h.entry id q hq),
        fun r hr => Nat.lt_succ_of_lt (h.given r hr), fun r hr q hq => Nat.lt_succ_of_lt (h.read r hr q hq)⟩
      have hne : q ≠ s.next := (Nat.lt_of_succ_le hq).ne'
      simpa [Function.update_of_ne hne] using h.fresh q (Nat.le_of_succ_le hq)
  | probe p fate kthread =>
    dsimp only
    split_ifs with hp
    · exact h.probe hp.1 fate
    · exact h
  | unbind p kthread =>
    dsimp only
    split_ifs with hp
    · exact h.unbind hp
    · exact h
  | takeOff p kthread =>
    dsimp only
    split_ifs with hp
    · exact h.stop hp
    · exact h
  | reset id kthread =>
    dsimp only
    cases he : (s.gulDevId id).pdev with
    | none => exact h
    | some p => exact h.stop (h.entry id p he)
  | removerStart k =>
    dsimp only
    cases hk : s.removers[k]? with
    | none => exact h
    | some r =>
      dsimp only
      split_ifs
      · refine ⟨h.fresh, h.entry, fun r' hr' => ?_, fun r' hr' q hq => ?_⟩
        · rcases List.mem_or_eq_of_mem_set hr' with hr' | rfl
          · exact h.given r' hr'
          · exact h.given r (List.mem_of_getElem? hk)
        · rcases List.mem_or_eq_of_mem_set hr' with hr' | rfl
          · exact h.read r' hr' q hq
          · exact h.entry r.arg q (Option.some.inj hq)
      · exact h
  | removerRun k kthread =>
    dsimp only
    cases hk : s.removers[k]? with
    | none => exact h
    | some r =>
      cases hq : r.pdev with
      | none =>
        simp only [hq]
        exact h
      | some q =>
        simp only [hq]
        exact h.gulRemovePciDev hk hq

omit [DecidableEq D] in
theorem known_init (d : PciDev D) (addrs : List D) : Known (pciInit d addrs) := by
  refine ⟨fun _ _ => ⟨rfl, rfl, rfl⟩, fun _ _ h => ?_, fun _ h => ?_, fun _ h => ?_⟩
  · cases h
  · cases h
  · cases h

omit [DecidableEq D] in
theorem balanced_init (d : PciDev D) (addrs : List D) : Balanced (pciInit d addrs) := fun p => by
  simp [PciState.defect, pciInit]

/-- **References to the devices.** In a run from the loading of the module, in any order of
the driver core's steps and those of the threads, each device's reference count is one while
it is on the bus plus one for each thread started for it that has not ended, in every state
reached, exactly if every `kthread_run` succeeds and every thread that goes on has read, from
the entry it was handed, the device its starter took a reference to. -/
theorem references_balanced_iff (d : PciDev D) (addrs : List D) (run : List (PciInput D)) :
    (∀ pre, pre <+: run → Balanced (exec pciStep (pciInit d addrs) pre)) ↔
      Guarded pciStep Faithful (pciInit d addrs) run :=
  inv_iff_guarded (I := Balanced) (J := Known) (G := Faithful) (fun _ i hK _ => known_step hK i)
    (fun _ i hK h => balanced_step_iff hK h i) run (known_init d addrs) (balanced_init d addrs)

end Balance

end References

end Pci
end La12xx
