/-
# What a probe takes and a removal gives back

`gul_pcidev_probe` takes a device's resources one after the other: it enables the device,
requests its regions, allocates its `gul_dev`, maps the regions of its bars and asks for
interrupt vectors (`gul_pci_priv_init`), and probes the modem; each failure goes to the
label that gives back what was taken, and `gul_pcidev_remove` gives all of it back. The
outcome of every call is part of the input (`ProbeEnv`), and decides where the probe of
`Lifecycle` fails.

Every device has a ledger. In any run it is kept properly, and shows the resources of the
devices that are up and no others, exactly if no probe is granted fewer vectors than it asks
for (`resources_follow_iff`): the flag that tells the release is set after that check.

Device-tree nodes are left out, as is what `gul_base_probe` takes for itself.
-/
import La12xx.Lib.Ledger
import La12xx.Pci.ModemIds

namespace La12xx
namespace Pci

open Machine Ledger

/-! ### Data -/

/-- The regions of `mem_regions`, from `GUL_MEM_REGION_CCSR` to `GUL_MEM_REGION_FECA`. -/
abbrev memRegions : ℕ := 4

/-- What a device has one of. -/
inductive Kind where
  | enabled
  | regions
  | gulDev
  /-- the interrupt vectors -/
  | msi
  /-- a place in `pcidev_list` -/
  | listed
  /-- the GPIO of the errata routine -/
  | gpio
  /-- the modem, between `gul_base_probe` and `gul_base_remove` -/
  | base
deriving DecidableEq, Repr

/-- What is acquired and released for a device. -/
inductive Res where
  | one (k : Kind)
  | mapping (i : Fin memRegions)
deriving DecidableEq, Repr

/-- The part of `struct gul_dev` that the releases look at: which regions have a `vaddr`,
and the flag `GUL_FLG_PCI_MSI_EN`. -/
structure GulDev where
  vaddr : Fin memRegions → Bool
  msiEn : Bool

/-- The outcomes of the calls of `gul_errata_a010867`. -/
structure ErrataEnv where
  node : Bool
  gpioIsValid : Bool
  gpioRequest : ℤ
  gpioDirectionOutput : ℤ
  gpioDirectionInput : ℤ

/-- The outcomes of the calls of `gul_pcidev_probe`. -/
structure ProbeEnv where
  pciEnableDevice : Bool
  pciRequestRegions : Bool
  dmaSetMask64 : Bool
  dmaSetMask32 : Bool
  kzalloc : Bool
  /-- the region has an address -/
  physAddr : Fin memRegions → Bool
  ioremap : Fin memRegions → Bool
  /-- the vectors `pci_alloc_irq_vectors_affinity` grants, none for an error -/
  vectors : Option ℕ
  /-- none where `ERRATA_A010867` is off -/
  errata : Option ErrataEnv
  gulBaseProbe : ℤ

/-! ### The driver -/

section Driver

variable (E : ProbeEnv)

/-- The loop of `gul_map_mem_regions` over the regions that are left. -/
def gulMapMemRegions : List (Fin memRegions) → (Fin memRegions → Bool) →
    Bool × (Fin memRegions → Bool) × List (Entry Res)
  | [], v => (true, v, [])
  | i :: is, v =>
    if E.physAddr i then
      if E.ioremap i then
        let (ok, v', l) := gulMapMemRegions is (Function.update v i true)
        (ok, v', .acquire (.mapping i) :: l)
      else (false, v, [])
    else gulMapMemRegions is v

/-- `gul_unmap_mem_regions`; the `vaddr` of each is `NULL` afterwards. -/
def gulUnmapMemRegions (v : Fin memRegions → Bool) : List (Entry Res) :=
  ((List.finRange memRegions).filter v).map fun i => .release (.mapping i)

/-- `gul_dev_set_interrupt_capability` with `PCI_INT_MODE_MULTIPLE_MSI`: whether it returns 0,
the flag, and the ledger. -/
def gulDevSetInterruptCapability (gulMsiMaxCnt : ℕ) : Bool × Bool × List (Entry Res) :=
  match E.vectors with
  | none => (false, false, [])
  | some n => if n < gulMsiMaxCnt then (false, false, [.acquire (.one .msi)]) else (true, true, [.acquire (.one .msi)])

/-- `gul_dev_reset_interrupt_capability` -/
def gulDevResetInterruptCapability (msiEn : Bool) : List (Entry Res) := if msiEn then [.release (.one .msi)] else []

/-- `gul_dev_free` -/
def gulDevFree : List (Entry Res) := [.release (.one .listed), .release (.one .gulDev)]

/-- `gul_pci_priv_init` -/
def gulPciPrivInit (gulMsiMaxCnt : ℕ) : Option GulDev × List (Entry Res) :=
  if E.kzalloc = false then (none, [])
  else
    let (ok, v, mapped) := gulMapMemRegions E (List.finRange memRegions) fun _ => false
    if ok = false then (none, .acquire (.one .gulDev) :: mapped ++ gulUnmapMemRegions v ++ [.release (.one .gulDev)])
    else
      let (ok, msiEn, msi) := gulDevSetInterruptCapability E gulMsiMaxCnt
      if ok = false then (none, .acquire (.one .gulDev) :: mapped ++ msi ++ gulUnmapMemRegions v ++ [.release (.one .gulDev)])
      else (some ⟨v, msiEn⟩, .acquire (.one .gulDev) :: mapped ++ msi ++ [.acquire (.one .listed)])

/-- `gul_errata_a010867`: what it returns, and the ledger. -/
def gulErrataA010867 (e : ErrataEnv) : ℤ × List (Entry Res) :=
  if e.node = false then (-19, [])
  else if e.gpioIsValid = false then (-22, [])
  else if e.gpioRequest ≠ 0 then (e.gpioRequest, [])
  else if e.gpioDirectionOutput < 0 then (e.gpioDirectionOutput, [.acquire (.one .gpio), .release (.one .gpio)])
  else (e.gpioDirectionInput, [.acquire (.one .gpio), .release (.one .gpio)])

/-- The errata routine as the probe calls it; `-ENODEV` is let pass. -/
def errata : Bool × List (Entry Res) :=
  match E.errata with
  | none => (true, [])
  | some e =>
    let (rc, l) := gulErrataA010867 e
    (decide (rc = 0 ∨ rc = -19), l)

/-- `gul_pcidev_probe` once the device has an id: where it fails, the `gul_dev` if it does
not, and the ledger. -/
def probeResources (gulMsiMaxCnt : ℕ) : Fate × Option GulDev × List (Entry Res) :=
  if E.pciEnableDevice = false then (.pciEnableDevice, none, [])
  else
    -- the labels, last first
    let err2 := [.release (.one .enabled)]
    let err3 := .release (.one .regions) :: err2
    if E.pciRequestRegions = false then (.pciRequestRegions, none, .acquire (.one .enabled) :: err2)
    else if E.dmaSetMask64 = false ∧ E.dmaSetMask32 = false then
      (.dmaSetMask, none, .acquire (.one .enabled) :: .acquire (.one .regions) :: err3)
    else
      match gulPciPrivInit E gulMsiMaxCnt with
      | (none, l) =>
        (if E.kzalloc then .gulPciPrivInit else .gulDevAlloc, none,
            .acquire (.one .enabled) :: .acquire (.one .regions) :: l ++ err3)
      | (some g, l) =>
        let err5 := gulUnmapMemRegions g.vaddr ++ gulDevResetInterruptCapability g.msiEn ++ gulDevFree ++ err3
        let (ok, e) := errata E
        if ok = false then (.gulBaseProbe, none, .acquire (.one .enabled) :: .acquire (.one .regions) :: l ++ e ++ err5)
        else if E.gulBaseProbe ≠ 0 then (.gulBaseProbe, none,
            .acquire (.one .enabled) :: .acquire (.one .regions) :: l ++ e ++ err5)
        else (.none, some g, .acquire (.one .enabled) :: .acquire (.one .regions) :: l ++ e ++ [.acquire (.one .base)])

/-- `gul_pcidev_remove` -/
def removeResources (g : GulDev) : List (Entry Res) :=
  .release (.one .base) :: gulUnmapMemRegions g.vaddr ++ gulDevResetInterruptCapability g.msiEn ++
    [.release (.one .regions), .release (.one .enabled)] ++ gulDevFree

end Driver

/-! ### Runs -/

section Run

variable {D : Type} [DecidableEq D]

/-- The devices, the `gul_dev` of each that is up, and the ledgers. -/
structure ResState (D : Type) where
  pci : PciState D
  gulDev : ℕ → GulDev
  ledger : ℕ → List (Entry Res)

/-- An input, with the outcomes of the calls in case it is a probe. -/
structure ResInput (D : Type) where
  input : PciInput D
  env : ProbeEnv

omit [DecidableEq D] in
/-- The input of `Lifecycle`: the outcomes decide where a probe fails. -/
def ResInput.pci (gulMsiMaxCnt : ℕ) (i : ResInput D) : PciInput D :=
  match i.input with
  | .probe p _ kthread => .probe p (probeResources i.env gulMsiMaxCnt).1 kthread
  | i => i

omit [DecidableEq D] in
/-- The device that an input unbinds. -/
def unbinds (s : PciState D) : PciInput D → Option ℕ
  | .unbind p _ | .takeOff p _ => if p < s.next then some p else none
  | .reset id _ => (s.gulDevId id).pdev
  | .removerRun k _ =>
    match s.removers[k]? with
    | none => none
    | some r => r.pdev.bind id
  | _ => none

/-- The device that an input probes, once it has an id. -/
def probes (s : PciState D) : PciInput D → Option ℕ
  | .probe p _ _ =>
    if p < s.next ∧ (s.devs p).onBus ∧ ¬ (s.devs p).bound ∧
        (getGulDevIdPcidevname (s.devs p).devName s).1.isSome then some p
    else none
  | _ => none

/-- One step, with what it writes to the ledgers. -/
def resStep (gulMsiMaxCnt : ℕ) (s : ResState D) (i : ResInput D) : ResState D × Option Remover :=
  let (pci, out) := pciStep s.pci (i.pci gulMsiMaxCnt)
  match probes s.pci (i.pci gulMsiMaxCnt), unbinds s.pci (i.pci gulMsiMaxCnt) with
  | some p, _ =>
    let (_, g, l) := probeResources i.env gulMsiMaxCnt
    (⟨pci, Function.update s.gulDev p (g.getD (s.gulDev p)), Function.update s.ledger p (s.ledger p ++ l)⟩, out)
  | none, some p =>
    if (s.pci.starts p).isSome then
      (⟨pci, s.gulDev, Function.update s.ledger p (s.ledger p ++ removeResources (s.gulDev p))⟩, out)
    else (⟨pci, s.gulDev, s.ledger⟩, out)
  | none, none => (⟨pci, s.gulDev, s.ledger⟩, out)

/-- The module is loaded. -/
def resInit (d : PciDev D) (addrs : List D) : ResState D where
  pci := pciInit d addrs
  gulDev := fun _ => ⟨fun _ => false, false⟩
  ledger := fun _ => []

end Run

/-! ### The ledgers of the pieces -/

section Pieces

variable {E : ProbeEnv} {m : ℕ} {k : Kind} {b : Bool}

/-- The mapping loop touches mappings only. -/
theorem held_map_one : ∀ (is : List (Fin memRegions)) (v : Fin memRegions → Bool),
    held (.one k) b (gulMapMemRegions E is v).2.2 = some b
  | [], _ => rfl
  | i :: is, v => by
    rw [gulMapMemRegions]
    split_ifs
    · exact (held_acquire_of_ne (by simp) _).trans (held_map_one is _)
    · rfl
    · exact held_map_one is v

/-- After the mapping loop a region is held exactly if it has a `vaddr`. -/
theorem held_map {j : Fin memRegions} : ∀ {is : List (Fin memRegions)} {v : Fin memRegions → Bool}, is.Nodup →
    (∀ i ∈ is, v i = false) → held (.mapping j) (v j) (gulMapMemRegions E is v).2.2 =
        some ((gulMapMemRegions E is v).2.1 j)
  | [], _, _, _ => rfl
  | i :: is, v, hnd, hv => by
    rw [List.nodup_cons] at hnd
    have hupd : ∀ k ∈ is, Function.update v i true k = false := fun k hk => by
      rw [Function.update_of_ne (by rintro rfl; exact hnd.1 hk)]
      exact hv k (List.mem_cons_of_mem i hk)
    rw [gulMapMemRegions]
    split_ifs
    · have ih := held_map (j := j) hnd.2 hupd
      by_cases hij : j = i
      · subst hij
        rw [Function.update_self] at ih
        simp only [hv j List.mem_cons_self, held_acquire_cons, decide_true]
        exact ih
      · rw [Function.update_of_ne hij] at ih
        exact (held_acquire_of_ne (fun h => hij (Res.mapping.inj h).symm) _).trans ih
    · rfl
    · exact held_map hnd.2 fun k hk => hv k (List.mem_cons_of_mem i hk)

theorem held_unmap_one (v : Fin memRegions → Bool) : held (.one k) b (gulUnmapMemRegions v) = some b := by
  refine (held_releases (fun _ _ => Res.mapping.inj) (List.nodup_finRange memRegions |>.filter _) ?_).trans ?_
  · rintro ⟨i, -, hi⟩
    cases hi
  · simp

theorem held_unmap (v : Fin memRegions → Bool) (j : Fin memRegions) :
    held (.mapping j) (v j) (gulUnmapMemRegions v) = some false := by
  refine (held_releases (fun _ _ => Res.mapping.inj) (List.nodup_finRange memRegions |>.filter _) ?_).trans ?_
  · rintro ⟨i, hi, hij⟩
    rw [← Res.mapping.inj hij]
    exact (List.mem_filter.mp hi).2
  · cases hv : v j <;> simp [hv]

/-- The regions are mapped if the calls for those with an address succeed. -/
theorem map_ok_iff : ∀ (is : List (Fin memRegions)) (v : Fin memRegions → Bool),
    (gulMapMemRegions E is v).1 = true ↔ ∀ i ∈ is, E.physAddr i = true → E.ioremap i = true
  | [], _ => by simp [gulMapMemRegions]
  | i :: is, v => by
    rw [gulMapMemRegions, List.forall_mem_cons]
    split_ifs with hp hio
    · simp [hio, map_ok_iff is]
    · simp [hp, hio]
    · simp [hp, map_ok_iff is]

/-- Every region with an address can be mapped. -/
def ProbeEnv.mappable (E : ProbeEnv) : Bool := (List.finRange memRegions).all fun i => !E.physAddr i || E.ioremap i

theorem mappable_iff : (gulMapMemRegions E (List.finRange memRegions) fun _ => false).1 = E.mappable := by
  rw [Bool.eq_iff_iff, map_ok_iff, ProbeEnv.mappable, List.all_eq_true]
  refine forall₂_congr fun i _ => ?_
  cases E.physAddr i <;> simp

/-- Fewer vectors are granted than are asked for. -/
def ProbeEnv.short (E : ProbeEnv) (m : ℕ) : Bool := E.vectors.any fun n => decide (n < m)

/-- The probe comes to `pci_alloc_irq_vectors_affinity` and is granted too few. -/
def ProbeEnv.shortGrant (E : ProbeEnv) (m : ℕ) : Bool :=
  E.pciEnableDevice && E.pciRequestRegions && (E.dmaSetMask64 || E.dmaSetMask32) && (E.kzalloc && E.mappable && E.short m)

/-- What a device that is up holds. -/
def GulDev.holds (g : GulDev) : Res → Bool
  | .mapping i => g.vaddr i
  | .one .msi => g.msiEn
  | .one .gpio => false
  | .one _ => true

/-- What `gul_pci_priv_init` has taken of it. -/
def GulDev.taken (g : GulDev) : Res → Bool
  | .mapping i => g.vaddr i
  | .one .msi => g.msiEn
  | .one .gulDev | .one .listed => true
  | .one _ => false

/-- A ledger that maps the regions with a `vaddr` and does nothing else. -/
structure Maps (v : Fin memRegions → Bool) (l : List (Entry Res)) : Prop where
  mapping : ∀ j, held (.mapping j) false l = some (v j)
  one : ∀ k b, held (.one k) b l = some b

/-- The loop over all regions. -/
theorem maps_all : Maps (gulMapMemRegions E (List.finRange memRegions) fun _ => false).2.1
    (gulMapMemRegions E (List.finRange memRegions) fun _ => false).2.2 :=
  ⟨fun _ => held_map (v := fun _ => false) (List.nodup_finRange memRegions) fun _ _ => rfl, fun _ _ => held_map_one _ _⟩

/-- A ledger that maps regions, takes or leaves the vectors, and unmaps. -/
theorem Maps.unmapped {v : Fin memRegions → Bool} {l : List (Entry Res)} (h : Maps v l) {l' : List (Entry Res)}
    (hl' : l' = [] ∨ l' = [.acquire (.one .msi)]) (r : Res) :
    held r false (.acquire (.one .gulDev) :: l ++ l' ++ gulUnmapMemRegions v ++ [.release (.one .gulDev)]) =
      some (decide (r = .one .msi) && !l'.isEmpty) := by
  have hmap : ∀ j b, held (.mapping j) b l' = some b := fun j b => by
    rcases hl' with rfl | rfl
    · rfl
    · rfl
  cases r with
  | mapping j => simp [held_append, held, h.mapping, hmap, held_unmap]
  | one k => rcases hl' with rfl | rfl <;> cases k <;> simp [held_append, held, h.one, held_unmap_one]

/-- What `gul_pci_priv_init` leaves: what it has taken if it succeeds, and if it fails nothing
but vectors that are too few. -/
theorem held_gulPciPrivInit (r : Res) :
    held r false (gulPciPrivInit E m).2 =
        some (match (gulPciPrivInit E m).1 with
          | none => decide (r = .one .msi) && (E.kzalloc && E.mappable && E.short m)
          | some g => g.taken r) ∧
      ((gulPciPrivInit E m).1.isSome = true → E.kzalloc = true ∧ E.short m = false) := by
  have hmap := maps_all (E := E)
  have hok := mappable_iff (E := E)
  unfold gulPciPrivInit
  cases hx : gulMapMemRegions E (List.finRange memRegions) fun _ => false with
  | mk ok vl =>
    obtain ⟨v, l⟩ := vl
    rw [hx] at hmap hok
    obtain rfl : ok = E.mappable := hok
    cases hkz : E.kzalloc with
    | false => simp
    | true =>
      cases hall : E.mappable with
      | false => simpa using hmap.unmapped (Or.inl rfl) r
      | true =>
        cases hv : E.vectors with
        | none => simpa [gulDevSetInterruptCapability, ProbeEnv.short, hv] using hmap.unmapped (Or.inl rfl) r
        | some n =>
          by_cases hn : n < m
          · simpa [gulDevSetInterruptCapability, ProbeEnv.short, hv, hn] using hmap.unmapped (Or.inr rfl) r
          · have htaken : held r false (.acquire (.one .gulDev) :: (l ++ [.acquire (.one .msi), .acquire (.one .listed)])) =
                some (GulDev.taken ⟨v, true⟩ r) := by
              cases r with
              | mapping j => simp [held_append, held, hmap.mapping, GulDev.taken]
              | one k => cases k <;> simp [held_append, held, hmap.one, GulDev.taken]
            simpa [gulDevSetInterruptCapability, ProbeEnv.short, hv, hn] using htaken

/-- It does not touch what the probe took before. -/
theorem held_gulPciPrivInit_before (hk : k = .enabled ∨ k = .regions) :
    held (.one k) b (gulPciPrivInit E m).2 = some b := by
  have hmap := maps_all (E := E)
  have hne : k ≠ .gulDev ∧ k ≠ .msi ∧ k ≠ .listed := by rcases hk with rfl | rfl <;> decide
  have hset : ∀ b, held (.one k) b (gulDevSetInterruptCapability E m).2.2 = some b := fun b => by
    unfold gulDevSetInterruptCapability
    cases E.vectors with
    | none => rfl
    | some n =>
      dsimp only
      split_ifs <;> exact held_acquire_of_ne (fun h => hne.2.1 (Res.one.inj h).symm) []
  unfold gulPciPrivInit
  generalize gulMapMemRegions E (List.finRange memRegions) (fun _ => false) = x at hmap
  generalize gulDevSetInterruptCapability E m = y at hset
  dsimp only
  split_ifs
  · rfl
  · simp [held_append, held, hmap.one, held_unmap_one, hne.1.symm]
  · simp [held_append, held, hmap.one, held_unmap_one, hne.1.symm, hset]
  · simp [held_append, held, hmap.one, hne.1.symm, hne.2.2.symm, hset]

/-- The errata routine gives its GPIO back. -/
theorem errata_cases : (errata E).2 = [] ∨ (errata E).2 = [.acquire (.one .gpio), .release (.one .gpio)] := by
  unfold errata
  cases E.errata with
  | none => exact Or.inl rfl
  | some e =>
    dsimp only
    unfold gulErrataA010867
    split_ifs <;> simp

/-- The release of what `gul_pci_priv_init` took, and of what the probe took before. -/
theorem held_release_all (g : GulDev) (r : Res) (l : List (Entry Res))
    (hl : held r false l = some (g.holds r && decide (r ≠ .one .base))) :
    held r false (l ++ (gulUnmapMemRegions g.vaddr ++ gulDevResetInterruptCapability g.msiEn ++ gulDevFree ++
      [.release (.one .regions), .release (.one .enabled)])) = some false := by
  rw [held_append_of hl]
  obtain ⟨v, msiEn⟩ := g
  unfold gulDevResetInterruptCapability gulDevFree
  cases r with
  | mapping j => cases msiEn <;> simp [held_append, held, GulDev.holds, held_unmap]
  | one k => cases msiEn <;> cases k <;> simp [held_append, held, GulDev.holds, held_unmap_one]

/-- **A probe** that fails gives back all it took but vectors that are too few, and a probe
that succeeds holds what the device needs. -/
theorem held_probeResources (r : Res) :
    held r false (probeResources E m).2.2 =
        some (match (probeResources E m).2.1 with
          | none => decide (r = .one .msi) && E.shortGrant m
          | some g => g.holds r) ∧
      ((probeResources E m).2.1.isSome = true ↔ (probeResources E m).1 = .none) ∧
      ((probeResources E m).2.1.isSome = true → E.shortGrant m = false) := by
  have hinit := held_gulPciPrivInit (E := E) (m := m) r
  have hbefore : ∀ k b, k = .enabled ∨ k = .regions → held (.one k) b (gulPciPrivInit E m).2 = some b :=
    fun k b hk => held_gulPciPrivInit_before hk
  have herr := errata_cases (E := E)
  unfold probeResources ProbeEnv.shortGrant
  cases h1 : E.pciEnableDevice with
  | false => simp
  | true =>
    cases h2 : E.pciRequestRegions with
    | false =>
      cases r with
      | mapping j => simp [held]
      | one k => cases k <;> simp [held]
    | true =>
      by_cases hmask : E.dmaSetMask64 = false ∧ E.dmaSetMask32 = false
      · cases r with
        | mapping j => simp [hmask, held]
        | one k => cases k <;> simp [hmask, held]
      · have hmask' : (E.dmaSetMask64 || E.dmaSetMask32) = true := by
          cases h64 : E.dmaSetMask64 <;> cases h32 : E.dmaSetMask32 <;> simp [h64, h32] at hmask ⊢
        rw [hmask']
        cases hx : gulPciPrivInit E m with
        | mk g l =>
          rw [hx] at hinit hbefore
          cases g with
          | none =>
            have hfate : (if E.kzalloc = true then Fate.gulPciPrivInit else Fate.gulDevAlloc) ≠ .none := by
              split_ifs <;> decide
            have hl : held r false (.acquire (.one .enabled) :: .acquire (.one .regions) :: (l ++
                [.release (.one .regions), .release (.one .enabled)])) =
                some (decide (r = .one .msi) && (E.kzalloc && E.mappable && E.short m)) := by
              have hinit' := hinit.1
              dsimp only at hinit'
              cases r with
              | mapping j => simpa [held_append, held] using hinit'
              | one k => cases k <;> simp [held_append, held, hbefore] <;> simpa using hinit'
            simp [hmask, hl, hfate]
          | some g =>
            obtain ⟨hkz, hshort⟩ := hinit.2 rfl
            have hl : held r false (.acquire (.one .enabled) :: .acquire (.one .regions) :: l ++ (errata E).2) =
                some (g.holds r && decide (r ≠ .one .base)) := by
              have hinit' := hinit.1
              dsimp only at hinit'
              cases r with
              | mapping j => rcases herr with he | he <;> simpa [held_append, held, he, GulDev.holds, GulDev.taken] using hinit'
              | one k =>
                rcases herr with he | he <;> cases k <;> simp only [GulDev.taken] at hinit' <;>
                  simp [held_append, held, he, hbefore, hinit', GulDev.holds]
            have hfail := held_release_all g r _ hl
            have hup : held r false (.acquire (.one .enabled) :: .acquire (.one .regions) :: l ++ (errata E).2 ++
                [.acquire (.one .base)]) = some (g.holds r) := by
              rw [held_append_of hl]
              cases r with
              | mapping j => simp [held, GulDev.holds]
              | one k => cases k <;> simp [held, GulDev.holds]
            cases hok : (errata E).1 with
            | false => simpa [hmask, hok, hkz, hshort] using hfail
            | true =>
              by_cases hbase : E.gulBaseProbe = 0
              · simpa [hmask, hok, hbase, hkz, hshort] using hup
              · simpa [hmask, hok, hbase, hkz, hshort] using hfail

/-- **A removal** gives back what the device held. -/
theorem held_removeResources (g : GulDev) (r : Res) : held r (g.holds r) (removeResources g) = some false := by
  obtain ⟨v, msiEn⟩ := g
  unfold removeResources gulDevResetInterruptCapability gulDevFree
  cases r with
  | mapping j => cases msiEn <;> simp [held_append, held, GulDev.holds, held_unmap]
  | one k => cases msiEn <;> cases k <;> simp [held_append, held, GulDev.holds, held_unmap_one]

end Pieces

/-! ### Which devices are up -/

section Up

variable {D : Type} [DecidableEq D] {s : PciState D} {p : ℕ} {kthread : Bool}

/-- Unbinding takes a device's id and no other's. -/
theorem drvdata_unbind (h : Identified s) (q : ℕ) :
    ((unbind p kthread s).devs q).drvdata = if p = q then none else (s.devs q).drvdata := by
  have hst := h.starts_eq p
  by_cases hq : p = q
  · subst hq
    rw [if_pos rfl]
    cases hd : (s.devs p).drvdata with
    | none => simp [unbind_of_none (hst.trans hd), PciState.setDev, hd]
    | some id => simp [unbind_of_some (hst.trans hd)]
  · rw [if_neg hq]
    cases hd : (s.devs p).drvdata with
    | none => simp [unbind_of_none (hst.trans hd), PciState.setDev, Ne.symm hq]
    | some id => simp [unbind_of_some (hst.trans hd), Ne.symm hq]

theorem drvdata_stop (h : Identified s) (q : ℕ) :
    ((pciStopAndRemoveBusDevice p kthread s).devs q).drvdata = if p = q then none else (s.devs q).drvdata := by
  have hst := h.starts_eq p
  by_cases hq : p = q
  · subst hq
    rw [if_pos rfl]
    cases hd : (s.devs p).drvdata with
    | none => simp [stop_of_none (hst.trans hd), PciState.setDev, hd]
    | some id => simp [stop_of_some (hst.trans hd)]
  · rw [if_neg hq]
    cases hd : (s.devs p).drvdata with
    | none => simp [stop_of_none (hst.trans hd), PciState.setDev, Ne.symm hq]
    | some id => simp [stop_of_some (hst.trans hd), Ne.symm hq]

/-- A probe with an id leaves the device up exactly if no call fails. -/
theorem drvdata_probe {id : Fin maxModem} (hi : (getGulDevIdPcidevname (s.devs p).devName s).1 = some id)
    (hd : (s.devs p).drvdata = none) (fate : Fate) (q : ℕ) :
    ((gulPcidevProbe p fate kthread s).devs q).drvdata =
      if p = q then (if fate = .none then some id else none) else (s.devs q).drvdata := by
  have hdevs := getId_devs (s := s) (s.devs p).devName
  unfold gulPcidevProbe
  cases hx : getGulDevIdPcidevname (s.devs p).devName s with
  | mk i t =>
    rw [hx] at hi hdevs
    have hdevs' : t.devs = s.devs := hdevs
    obtain rfl : i = some id := hi
    by_cases hq : p = q
    · subst hq
      cases fate <;> simp [runRemover, privInit, PciState.setDev, hdevs', hd]
    · cases fate <;> simp [runRemover, privInit, PciState.setDev, hdevs', hq, Ne.symm hq]

/-- A step that gives no device an id takes that of the device it unbinds and no other's. -/
theorem drvdata_step (hK : Known s) (h : Identified s) {i : PciInput D} (hp : probes s i = none) (q : ℕ) :
    ((pciStep s i).1.devs q).drvdata = if unbinds s i = some q then none else (s.devs q).drvdata := by
  unfold pciStep unbinds
  cases i with
  | appear name =>
    simp only [reduceCtorEq, if_false]
    split_ifs with hname
    · rfl
    · by_cases hq : q = s.next
      · have hnone : (s.devs s.next).drvdata = none := by
          rw [Option.eq_none_iff_forall_ne_some]
          intro id hid
          cases (h.bound s.next id hid).symm.trans (hK.fresh s.next le_rfl).2.2
        simp [hq, hnone]
      · simp [hq]
  | probe p fate kthread =>
    simp only [reduceCtorEq, if_false]
    split_ifs with hc
    · have hnone : (getGulDevIdPcidevname (s.devs p).devName s).1 = none := by
        by_contra hne
        simp [probes, hc.1, hc.2.1, hc.2.2, Option.isSome_iff_ne_none.mpr hne] at hp
      have hdevs := getId_devs (s := s) (s.devs p).devName
      unfold gulPcidevProbe
      cases hx : getGulDevIdPcidevname (s.devs p).devName s with
      | mk i t =>
        rw [hx] at hnone hdevs
        have hdevs' : t.devs = s.devs := hdevs
        obtain rfl : i = none := hnone
        by_cases hq : q = p
        · subst hq
          simp [PciState.setDev, hdevs']
        · simp [PciState.setDev, hdevs', hq]
    · rfl
  | unbind p kthread =>
    dsimp only
    by_cases hlt : p < s.next
    · simp [hlt, drvdata_unbind h]
    · simp [hlt]
  | takeOff p kthread =>
    dsimp only
    by_cases hlt : p < s.next
    · simp [hlt, drvdata_stop h]
    · simp [hlt]
  | reset id kthread =>
    cases he : (s.gulDevId id).pdev with
    | none => simp [he]
    | some p => simp [he, drvdata_stop h]
  | removerStart k =>
    simp only [reduceCtorEq, if_false]
    cases hk : s.removers[k]? with
    | none => rfl
    | some r =>
      dsimp only
      split_ifs <;> rfl
  | removerRun k kthread =>
    cases hk : s.removers[k]? with
    | none => simp [hk]
    | some r =>
      cases hq : r.pdev with
      | none => simp [hk, hq]
      | some o =>
        cases o with
        | none => simp [hk, hq, gulRemovePciDev]
        | some p =>
          have hst : ((pciStopAndRemoveBusDevice p kthread { s with removers := s.removers.eraseIdx k }).devs q).drvdata =
              if p = q then none else (s.devs q).drvdata :=
            drvdata_stop (h.eraseRemover k) q
          by_cases hqp : q = p
          · subst hqp
            simpa [hk, hq, gulRemovePciDev, putDevice, PciState.setDev] using hst
          · simpa [hk, hq, gulRemovePciDev, putDevice, PciState.setDev, hqp] using hst

end Up

/-! ### Ledgers in a run -/

section Follow

variable {D : Type} [DecidableEq D] {m : ℕ} {s : ResState D} {p : ℕ}

omit [DecidableEq D] in
/-- The resources a device should hold: those of its `gul_dev` while it is up. -/
def ResState.due (s : ResState D) (p : ℕ) (r : Res) : Bool :=
  match (s.pci.devs p).drvdata with
  | none => false
  | some _ => (s.gulDev p).holds r

omit [DecidableEq D] in
/-- Every ledger is kept properly, and a device holds what it should. -/
def Follows (s : ResState D) : Prop := ∀ p r, held r false (s.ledger p) = some (s.due p r)

/-- No probe is granted too few vectors. -/
def Granted (m : ℕ) (s : ResState D) (i : ResInput D) : Prop :=
  (probes s.pci (i.pci m)).isSome = true → i.env.shortGrant m = false

instance (s : ResState D) (i : ResInput D) : Decidable (Granted m s i) := inferInstanceAs (Decidable (_ → _))

theorem resStep_pci (s : ResState D) (i : ResInput D) : (resStep m s i).1.pci = (pciStep s.pci (i.pci m)).1 := by
  unfold resStep
  dsimp only
  split
  · rfl
  · split_ifs <;> rfl
  · rfl

/-- A step that probes a device, with what decides what comes of it. -/
theorem probes_some {i : ResInput D} (hI : Identified s.pci) (h : probes s.pci (i.pci m) = some p) :
    ∃ id kthread, (pciStep s.pci (i.pci m)).1 = gulPcidevProbe p (probeResources i.env m).1 kthread s.pci ∧
      (getGulDevIdPcidevname (s.pci.devs p).devName s.pci).1 = some id ∧ (s.pci.devs p).drvdata = none := by
  obtain ⟨input, env⟩ := i
  cases input with
  | probe p' fate kthread =>
    simp only [ResInput.pci, probes] at h
    split_ifs at h with hc
    obtain rfl : p' = p := Option.some.inj h
    obtain ⟨id, hid⟩ := Option.isSome_iff_exists.mp hc.2.2.2
    have hb : (s.pci.devs p').bound = false := by simpa using hc.2.2.1
    refine ⟨id, kthread, ?_, hid, ?_⟩
    · simp [ResInput.pci, pciStep, hc.1, hc.2.1, hb]
    · rw [Option.eq_none_iff_forall_ne_some]
      intro id hid
      cases hb.symm.trans (hI.bound p' id hid)
  | _ => cases h

/-- A step keeps the ledgers exactly if it is no probe that is granted too few vectors. -/
theorem follows_step_iff {addrs : List D} (hN : Named addrs s.pci) (h : Follows s) (i : ResInput D) :
    Follows (resStep m s i).1 ↔ Granted m s i := by
  have hpci := resStep_pci (m := m) s i
  cases hp : probes s.pci (i.pci m) with
  | some p =>
    obtain ⟨id, kthread, hstep, hid, hd⟩ := probes_some hN.identified hp
    have hdrv : ∀ q, ((gulPcidevProbe p (probeResources i.env m).1 kthread s.pci).devs q).drvdata =
        if p = q then (if (probeResources i.env m).1 = .none then some id else none) else (s.pci.devs q).drvdata :=
      drvdata_probe hid hd (probeResources i.env m).1
    have hres := fun r => held_probeResources (E := i.env) (m := m) r
    have hfree : ∀ r, held r false (s.ledger p) = some false := fun r => by
      rw [h p r, ResState.due, hd]
    have hledger : (resStep m s i).1.ledger =
        Function.update s.ledger p (s.ledger p ++ (probeResources i.env m).2.2) := by
      simp [resStep, hp]
    have hgul : (resStep m s i).1.gulDev = Function.update s.gulDev p ((probeResources i.env m).2.1.getD (s.gulDev p)) := by
      simp [resStep, hp]
    -- the other devices are as they were
    have hother : ∀ q, q ≠ p → ∀ r, held r false ((resStep m s i).1.ledger q) = some ((resStep m s i).1.due q r) :=
        fun q hq r => by
      rw [hledger, Function.update_of_ne hq, h q r]
      simp [ResState.due, hpci, hstep, hdrv, hgul, hq, Ne.symm hq]
    have hown : ∀ r, held r false ((resStep m s i).1.ledger p) = some (match (probeResources i.env m).2.1 with
        | none => decide (r = .one .msi) && i.env.shortGrant m
        | some g => g.holds r) := fun r => by
      rw [hledger, Function.update_self, held_append_of (hfree r), (hres r).1]
    have hdue : ∀ r, (resStep m s i).1.due p r = match (probeResources i.env m).2.1 with
        | none => false
        | some g => g.holds r := fun r => by
      have hup := (hres r).2.1
      simp only [ResState.due, hpci, hstep, hdrv, hgul, Function.update_self, if_true]
      cases hg : (probeResources i.env m).2.1 with
      | none =>
        have hf : (probeResources i.env m).1 ≠ .none := fun hf => by simpa [hg] using hup.mpr hf
        simp [hf]
      | some g =>
        have hf : (probeResources i.env m).1 = .none := hup.mp (by rw [hg]; rfl)
        simp [hf]
    have hgranted : Granted m s i ↔ i.env.shortGrant m = false := by simp [Granted, hp]
    rw [hgranted]
    constructor
    · intro hf
      have hmsi := hf p (.one .msi)
      rw [hown, hdue] at hmsi
      cases hg : (probeResources i.env m).2.1 with
      | none => simpa [hg] using hmsi
      | some g => exact (hres (.one .msi)).2.2 (by rw [hg]; rfl)
    · intro hshort q r
      by_cases hq : q = p
      · subst hq
        rw [hown, hdue, hshort]
        cases (probeResources i.env m).2.1 <;> simp
      · exact hother q hq r
  | none =>
    have hdrv := drvdata_step hN.known hN.identified hp
    refine iff_of_true (fun q r => ?_) fun hs => by simp [hp] at hs
    have hgul : (resStep m s i).1.gulDev = s.gulDev := by
      unfold resStep
      rw [hp]
      cases unbinds s.pci (i.pci m) with
      | none => rfl
      | some p =>
        dsimp only
        split_ifs <;> rfl
    have hsame : ∀ {l : ℕ → List (Entry Res)}, (resStep m s i).1.ledger = l → l q = s.ledger q →
        (unbinds s.pci (i.pci m) = some q → (s.pci.devs q).drvdata = none) →
        held r false ((resStep m s i).1.ledger q) = some ((resStep m s i).1.due q r) := fun hl hq hnone => by
      rw [hl, hq, h q r, ResState.due, ResState.due, hgul, hpci, hdrv]
      split_ifs with hu
      · rw [hnone hu]
      · rfl
    cases hu : unbinds s.pci (i.pci m) with
    | none => exact hsame (by simp [resStep, hp, hu]) rfl fun h => by cases hu.symm.trans h
    | some p =>
      have hst := hN.identified.starts_eq p
      cases hd : (s.pci.devs p).drvdata with
      | none =>
        refine hsame (l := s.ledger) (by simp [resStep, hp, hu, hst, hd]) rfl fun h => ?_
        rw [← Option.some.inj (hu.symm.trans h), hd]
      | some id =>
        have hl : (resStep m s i).1.ledger = Function.update s.ledger p (s.ledger p ++ removeResources (s.gulDev p)) := by
          simp [resStep, hp, hu, hst, hd]
        by_cases hq : q = p
        · subst hq
          have hheld : held r false (s.ledger q) = some ((s.gulDev q).holds r) := by
            rw [h q r, ResState.due, hd]
          rw [hl, Function.update_self, held_append_of hheld, held_removeResources, ResState.due, hpci, hdrv, if_pos hu]
        · refine hsame hl (Function.update_of_ne hq _ _) fun h => ?_
          exact absurd (Option.some.inj (hu.symm.trans h)).symm hq

/-- **Resources.** In every run, in any order of the driver core's steps and the threads, each
device's ledger is kept properly in every state reached and shows the resources of its
`gul_dev` while it is up and none otherwise, exactly if no probe that gets to the interrupt
vectors is granted fewer than it asks for. -/
theorem resources_follow_iff (m : ℕ) (d : PciDev D) (addrs : List D) (run : List (ResInput D)) :
    (∀ pre, pre <+: run → Follows (exec (resStep m) (resInit d addrs) pre)) ↔
      Guarded (resStep m) (Granted m) (resInit d addrs) run :=
  inv_iff_guarded (I := Follows) (J := fun s => Named addrs s.pci)
    (fun s i hN _ => by rw [resStep_pci]; exact named_step hN (i.pci m)) (fun _ i hN h => follows_step_iff hN h i) run
    (named_init d addrs) fun _ _ => rfl

end Follow

end Pci
end La12xx
