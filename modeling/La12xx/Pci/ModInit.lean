/-
# Loading and unloading the module

`gul_pcidev_init` checks the module parameters, creates the class and the global sysfs
group, initialises the sub-drivers and the TTI devices and registers the PCI driver;
`gul_pcidev_exit` takes all of it down. A load that returns an error is not followed by the
exit: it has to give back itself what it took.

It does so only in part. `fsl_get_svr` keeps the mapping of the host's configuration
registers and the reference to their node whatever comes after it, the label `out1`
removes the group and the class and nothing else, a failure of `pci_register_driver` goes to
no label, the result of `gul_init_global_sysfs` is not looked at, and a failure of
`class_create` returns 0. Nor does a `mod_init` that returns 0 hold what its `mod_exit` gives
back: `tvd_init` and `cli_init` return the 0 of `alloc_chrdev_region` when `kmalloc` fails,
with the region given back. `load_balanced_iff` says for which outcomes of the calls a
load, with the exit after it if it succeeds, keeps its ledger and leaves nothing behind.
-/
import La12xx.Base.Partition
import La12xx.Lib.Ledger

namespace La12xx
namespace Pci
namespace ModInit

open Ledger

/-! ### Data -/

/-- `ENOMEM` -/
def enomem : ℤ := 12

/-- `MAX_MODEM` -/
def maxModem : ℕ := 4

/-- What the module acquires. -/
inductive ModRes where
  /-- the node of the host's configuration registers, and the registers -/
  | dcfgNode
  | dcfgRegs
  | gulClass
  | yamiKobj
  | yamiGroup
  /-- what the `mod_init` of a sub-driver takes and its `mod_exit` gives back -/
  | subdrv (i : ℕ)
  | ttiRegion
  | ttiClass
  | ttiArray
  | ttiData (j : ℕ)
  | pciDriver
deriving DecidableEq, Repr

/-- A sub-driver of `sub_drvs_g`. -/
structure SubDrv where
  /-- `gul_subdrv_check_fail` lets it through -/
  enabled : Bool
  /-- it has a `mod_init` and a `mod_exit`: those that have one have both -/
  mods : Bool
  /-- what the `mod_init` returns -/
  modInit : ℤ
  /-- the `mod_init` still holds something when it returns -/
  holds : Bool
  /-- the `mod_exit` gives something back: `dcs_exit` only with `hsdcs_enable` -/
  gives : Bool
deriving DecidableEq, Repr

/-- The sub-driver has something to initialise. -/
def SubDrv.active (s : SubDrv) : Bool := s.enabled && s.mods

/-- The module parameters, and the outcomes of the calls. -/
structure ModEnv where
  header : Scratch.Header
  /-- the reserved memory of the queue and buffer managers -/
  qbman : Scratch.Qbman
  params : Scratch.ModuleParams
  /-- `of_find_matching_node_and_match` finds a node -/
  findDcfg : Bool
  ofIomap : Bool
  littleEndian : Bool
  svr : UInt32
  classCreate : Bool
  kobjectCreateAndAdd : Bool
  sysfsCreateGroup : ℤ
  subDrvs : List SubDrv
  allocChrdevRegion : ℤ
  ttiClassCreate : Bool
  /-- the table `tti_dev_data` -/
  kmalloc : Bool
  /-- the data of modem `j` -/
  kzalloc : ℕ → Bool
  pciRegisterDriver : ℤ

/-- `SVR_FAMILY_MASK` -/
def svrFamilyMask : UInt32 := 0xffff0000

/-- `SVR_LS1043A_FAMILY` -/
def svrLs1043aFamily : UInt32 := 0x87920000

/-- `SVR_LS1046A_FAMILY` -/
def svrLs1046aFamily : UInt32 := 0x87070000

/-! ### The module -/

section Module

variable (E : ModEnv)

/-- `fsl_get_svr`: when the registers are mapped, neither they nor the node are given back. -/
def fslGetSvr : UInt32 × List (Entry ModRes) :=
  if E.findDcfg = false then (0, [])
  -- `-ENOMEM`, in a `u32`
  else if E.ofIomap = false then (0xfffffff4, [.acquire .dcfgNode, .release .dcfgNode])
  else (if E.littleEndian then E.svr else 0, [.acquire .dcfgNode, .acquire .dcfgRegs])

/-- The two checks before `fsl_get_svr` let the parameters through. -/
def ModEnv.ReachesSvr (E : ModEnv) : Prop :=
  E.params.pciAddrCount ≤ maxModem ∧ E.params.globalScratchBufSize.toInt ≠ 0 ∧ E.params.scratchBufPhysAddr.toNat ≠ 0

instance : Decidable E.ReachesSvr := inferInstanceAs (Decidable (_ ∧ _))

/-- What `gul_pcidev_init` has of `fsl_get_svr`, if it gets there. -/
def ModEnv.hostSvr (E : ModEnv) : UInt32 × List (Entry ModRes) := if E.ReachesSvr then fslGetSvr E else (0, [])

/-- The reserved memory that the parameters are checked against on a family. -/
def ModEnv.reserved (E : ModEnv) (family : UInt32) : Option Scratch.Qbman :=
  if family = svrLs1046aFamily ∨ family = svrLs1043aFamily then some E.qbman else none

/-- The checks of the parameters. -/
def ModEnv.checked (E : ModEnv) : Except ℤ (ℕ × Scratch.Params) :=
  Scratch.gulPcidevInit E.header (E.reserved (E.hostSvr.1 &&& svrFamilyMask)) E.params

/-- `gul_init_global_sysfs` -/
def gulInitGlobalSysfs : ℤ × List (Entry ModRes) :=
  if E.kobjectCreateAndAdd = false then (-1, [])
  else if E.sysfsCreateGroup ≠ 0 then (E.sysfsCreateGroup, [.acquire .yamiKobj, .release .yamiKobj])
  else (0, [.acquire .yamiKobj, .acquire .yamiGroup])

/-- `gul_remove_global_sysfs` -/
def gulRemoveGlobalSysfs : List (Entry ModRes) := [.release .yamiGroup, .release .yamiKobj]

/-- The loop of `gul_subdrv_mod_init` from sub-driver `i`. -/
def modInitLoop : ℕ → List SubDrv → ℤ × List (Entry ModRes)
  | _, [] => (0, [])
  | i, s :: ss =>
    if s.active then
      let l := if s.holds then [.acquire (.subdrv i)] else []
      if s.modInit ≠ 0 then (s.modInit, l)
      else
        let (rc, l') := modInitLoop (i + 1) ss
        (rc, l ++ l')
    else modInitLoop (i + 1) ss

/-- `gul_subdrv_mod_init`, with the `gul_subdrv_cnt_g` it sets. -/
def gulSubdrvModInit : ℤ × ℕ × List (Entry ModRes) :=
  let (rc, l) := modInitLoop 0 E.subDrvs
  (rc, E.subDrvs.length, l)

/-- The loop of `gul_subdrv_mod_exit`, which goes from the last sub-driver to the first. -/
def modExitLoop : ℕ → List SubDrv → List (Entry ModRes)
  | _, [] => []
  | i, s :: ss => modExitLoop (i + 1) ss ++ if s.active && s.gives then [.release (.subdrv i)] else []

/-- `gul_subdrv_mod_exit`; `cnt` is `gul_subdrv_cnt_g`. -/
def gulSubdrvModExit (cnt : ℕ) : List (Entry ModRes) := modExitLoop 0 (E.subDrvs.take cnt)

/-- The loop of `init_tti_dev` over the `k` modems from `j`; `err` is what it has so far. -/
def ttiDataLoop (err : ℤ) : ℕ → ℕ → ℤ × List (Entry ModRes)
  | 0, _ => (err, [])
  | k + 1, j =>
    if E.kzalloc j = false then (-enomem, [])
    else
      let (rc, l) := ttiDataLoop err k (j + 1)
      (rc, .acquire (.ttiData j) :: l)

/-- The calls of `alloc_chrdev_region` and `class_create` in `init_tti_dev`. -/
def ttiHead : List (Entry ModRes) :=
  (if E.allocChrdevRegion = 0 then [.acquire .ttiRegion] else []) ++
      (if E.ttiClassCreate then [.acquire .ttiClass] else [])

/-- `init_tti_dev`: the error of `alloc_chrdev_region` is returned at the end, and that
of `class_create` not at all. -/
def initTtiDev : ℤ × List (Entry ModRes) :=
  if E.kmalloc = false then (-enomem, ttiHead E)
  else
    let (err, l) := ttiDataLoop E E.allocChrdevRegion maxModem 0
    (err, ttiHead E ++ .acquire .ttiArray :: l)

/-- `remove_tti_dev`; `class_destroy` lets an error in place of a class pass. -/
def removeTtiDev : List (Entry ModRes) :=
  (if E.ttiClassCreate then [.release .ttiClass] else []) ++ .release .ttiRegion ::
    (List.range maxModem).map (fun j => .release (.ttiData j)) ++ [.release .ttiArray]

/-- What the label `out1` gives back. -/
def out1 : List (Entry ModRes) := gulRemoveGlobalSysfs ++ [.release .gulClass]

/-- `gul_pcidev_init` from `class_create` on: what it returns, the `gul_subdrv_cnt_g` it
leaves and its ledger. -/
def registerModule : ℤ × ℕ × List (Entry ModRes) :=
  -- `err` is still 0, and no sub-driver was counted
  if E.classCreate = false then (0, 0, [])
  else
    let l : List (Entry ModRes) := .acquire .gulClass :: (gulInitGlobalSysfs E).2
    let (err, cnt, sub) := gulSubdrvModInit E
    if err ≠ 0 then (err, cnt, l ++ sub ++ out1)
    else
      let (err, tti) := initTtiDev E
      if err ≠ 0 then (err, cnt, l ++ sub ++ tti ++ out1)
      else if E.pciRegisterDriver ≠ 0 then (E.pciRegisterDriver, cnt, l ++ sub ++ tti)
      else (0, cnt, l ++ sub ++ tti ++ [.acquire .pciDriver])

/-- `gul_pcidev_init` -/
def gulPcidevInit : ℤ × ℕ × List (Entry ModRes) :=
  match E.checked with
  | .error err => (err, 0, E.hostSvr.2)
  | .ok _ =>
    let (err, cnt, l) := registerModule E
    (err, cnt, E.hostSvr.2 ++ l)

/-- `gul_pcidev_exit`; `cnt` is `gul_subdrv_cnt_g`. -/
def gulPcidevExit (cnt : ℕ) : List (Entry ModRes) :=
  .release .pciDriver :: gulSubdrvModExit E cnt ++ removeTtiDev E ++
    (if E.classCreate then [.release .gulClass] else []) ++ gulRemoveGlobalSysfs

/-- The module is loaded, and unloaded again if that succeeded. -/
def moduleLedger : List (Entry ModRes) :=
  let (err, cnt, l) := gulPcidevInit E
  if err = 0 then l ++ gulPcidevExit E cnt else l

end Module

/-! ### The ledgers of the pieces -/

section Pieces

variable {E : ModEnv}

/-- The sub-drivers with a property, the first of which is sub-driver `i`. -/
def indicesFrom (p : SubDrv → Bool) : ℕ → List SubDrv → List ℕ
  | _, [] => []
  | i, s :: ss => if p s then i :: indicesFrom p (i + 1) ss else indicesFrom p (i + 1) ss

/-- The sub-drivers whose `mod_init` is called. -/
def called : List SubDrv → List SubDrv
  | [] => []
  | s :: ss => if s.active then s :: (if s.modInit ≠ 0 then [] else called ss) else called ss

/-- Every `mod_init` succeeds. -/
def ModInits (ss : List SubDrv) : Prop := ∀ s ∈ ss, s.active = true → s.modInit = 0

/-- The `mod_init` was called and holds something. -/
def SubDrv.taken (s : SubDrv) : Bool := s.active && s.holds

/-- The `mod_exit` is called and gives something back. -/
def SubDrv.given (s : SubDrv) : Bool := s.active && s.gives

theorem le_of_mem_indicesFrom {p : SubDrv → Bool} : ∀ {ss : List SubDrv} {i k : ℕ}, k ∈ indicesFrom p i ss → i ≤ k
  | [], _, _, h => absurd h List.not_mem_nil
  | s :: ss, i, k, h => by
    rw [indicesFrom] at h
    split_ifs at h
    · rcases List.mem_cons.mp h with rfl | h
      · exact le_rfl
      · exact (Nat.le_succ i).trans (le_of_mem_indicesFrom h)
    · exact (Nat.le_succ i).trans (le_of_mem_indicesFrom h)

theorem nodup_indicesFrom (p : SubDrv → Bool) : ∀ (ss : List SubDrv) (i : ℕ), (indicesFrom p i ss).Nodup
  | [], _ => List.nodup_nil
  | s :: ss, i => by
    rw [indicesFrom]
    split_ifs
    · exact List.nodup_cons.mpr ⟨fun h => absurd (le_of_mem_indicesFrom h) (by omega), nodup_indicesFrom p ss _⟩
    · exact nodup_indicesFrom p ss _

/-- Sub-driver `i` is the first of them if it has the property. -/
theorem mem_indicesFrom_self {p : SubDrv → Bool} {s : SubDrv} {ss : List SubDrv} {i : ℕ} :
    i ∈ indicesFrom p i (s :: ss) ↔ p s = true := by
  have hrest : i ∉ indicesFrom p (i + 1) ss := fun h => absurd (le_of_mem_indicesFrom h) (by omega)
  rw [indicesFrom]
  split_ifs with hp
  · exact iff_of_true List.mem_cons_self hp
  · exact iff_of_false hrest hp

theorem mem_indicesFrom_cons {p : SubDrv → Bool} {s : SubDrv} {ss : List SubDrv} {i k : ℕ} (hk : i < k) :
    k ∈ indicesFrom p i (s :: ss) ↔ k ∈ indicesFrom p (i + 1) ss := by
  rw [indicesFrom]
  split_ifs
  · rw [List.mem_cons, or_iff_right hk.ne']
  · exact Iff.rfl

/-- Two properties have the same indices exactly if they agree on the sub-drivers. -/
theorem indicesFrom_iff (p q : SubDrv → Bool) : ∀ (ss : List SubDrv) (i : ℕ),
    (∀ k, k ∈ indicesFrom p i ss ↔ k ∈ indicesFrom q i ss) ↔ ∀ s ∈ ss, p s = q s
  | [], _ => by simp [indicesFrom]
  | s :: ss, i => by
    rw [List.forall_mem_cons, ← indicesFrom_iff p q ss (i + 1)]
    constructor
    · intro h
      constructor
      · have hi := h i
        rw [mem_indicesFrom_self, mem_indicesFrom_self] at hi
        exact Bool.eq_iff_iff.mpr hi
      · intro k
        by_cases hk : i < k
        · rw [← mem_indicesFrom_cons hk, ← mem_indicesFrom_cons hk]
          exact h k
        · exact iff_of_false (fun hm => hk (le_of_mem_indicesFrom hm)) fun hm => hk (le_of_mem_indicesFrom hm)
    · rintro ⟨hs, hss⟩ k
      rcases Nat.lt_trichotomy i k with hk | rfl | hk
      · rw [mem_indicesFrom_cons hk, mem_indicesFrom_cons hk]
        exact hss k
      · rw [mem_indicesFrom_self, mem_indicesFrom_self, hs]
      · exact iff_of_false (fun hm => absurd (le_of_mem_indicesFrom hm) (by omega))
          fun hm => absurd (le_of_mem_indicesFrom hm) (by omega)

/-- Where every `mod_init` succeeds, all of those that are active are called. -/
theorem called_eq_filter : ∀ {ss : List SubDrv}, ModInits ss → called ss = ss.filter SubDrv.active
  | [], _ => rfl
  | s :: ss, h => by
    rw [ModInits, List.forall_mem_cons] at h
    rw [called, called_eq_filter h.2, List.filter_cons]
    by_cases hs : s.active = true
    · rw [if_pos hs, if_pos hs, if_neg (not_not.mpr (h.1 hs))]
    · rw [if_neg hs, if_neg hs]

theorem modInitLoop_of_modInits : ∀ {ss : List SubDrv} (i : ℕ), ModInits ss →
    modInitLoop i ss = (0, (indicesFrom SubDrv.taken i ss).map fun k => .acquire (.subdrv k))
  | [], _, _ => rfl
  | s :: ss, i, h => by
    rw [ModInits, List.forall_mem_cons] at h
    rw [modInitLoop, indicesFrom, SubDrv.taken, modInitLoop_of_modInits (i + 1) h.2]
    by_cases hs : s.active = true
    · rw [if_pos hs, if_neg (not_not.mpr (h.1 hs)), hs]
      cases s.holds <;> rfl
    · rw [if_neg hs, Bool.eq_false_iff.mpr hs]
      rfl

theorem modInitLoop_fst_ne_zero : ∀ {ss : List SubDrv} (i : ℕ), ¬ ModInits ss → (modInitLoop i ss).1 ≠ 0
  | [], _, h => absurd (fun _ hs => absurd hs List.not_mem_nil) h
  | s :: ss, i, h => by
    rw [ModInits, List.forall_mem_cons, not_and_or] at h
    rw [modInitLoop]
    by_cases hs : s.active = true
    · rw [if_pos hs]
      by_cases h0 : s.modInit = 0
      · rw [if_neg (not_not.mpr h0)]
        exact modInitLoop_fst_ne_zero (i + 1) (h.resolve_left fun hn => hn fun _ => h0)
      · rw [if_pos h0]
        exact h0
    · rw [if_neg hs]
      exact modInitLoop_fst_ne_zero (i + 1) (h.resolve_left fun hn => hn fun hact => absurd hact hs)

/-- The loop takes what the `mod_init`s it calls hold. -/
theorem modInitLoop_eq_nil_iff : ∀ (ss : List SubDrv) (i : ℕ),
    (modInitLoop i ss).2 = [] ↔ ∀ s ∈ called ss, s.holds = false
  | [], _ => by simp [modInitLoop, called]
  | s :: ss, i => by
    rw [modInitLoop, called]
    by_cases hs : s.active = true
    · rw [if_pos hs, if_pos hs, List.forall_mem_cons]
      by_cases h0 : s.modInit = 0
      · rw [if_neg (not_not.mpr h0), if_neg (not_not.mpr h0), ← modInitLoop_eq_nil_iff ss (i + 1)]
        cases s.holds <;> simp
      · rw [if_pos h0, if_pos h0]
        cases s.holds <;> simp
    · rw [if_neg hs, if_neg hs]
      exact modInitLoop_eq_nil_iff ss (i + 1)

theorem modInitLoop_mem : ∀ {ss : List SubDrv} {i : ℕ} {e : Entry ModRes}, e ∈ (modInitLoop i ss).2 →
    ∃ k, e = .acquire (.subdrv k)
  | [], _, _, h => absurd h List.not_mem_nil
  | s :: ss, i, e, h => by
    have hself : e ∈ (if s.holds then [.acquire (.subdrv i)] else [] : List (Entry ModRes)) →
        ∃ k, e = .acquire (.subdrv k) := by
      intro hm
      split_ifs at hm
      · exact ⟨i, List.mem_singleton.mp hm⟩
      · exact absurd hm List.not_mem_nil
    rw [modInitLoop] at h
    by_cases hs : s.active = true
    · rw [if_pos hs] at h
      by_cases h0 : s.modInit = 0
      · rw [if_neg (not_not.mpr h0)] at h
        exact (List.mem_append.mp h).elim hself modInitLoop_mem
      · rw [if_pos h0] at h
        exact hself h
    · rw [if_neg hs] at h
      exact modInitLoop_mem h

theorem modExitLoop_eq : ∀ (ss : List SubDrv) (i : ℕ),
    modExitLoop i ss = (indicesFrom SubDrv.given i ss).reverse.map fun k => .release (.subdrv k)
  | [], _ => rfl
  | s :: ss, i => by
    rw [modExitLoop, indicesFrom, modExitLoop_eq ss (i + 1), SubDrv.given]
    split_ifs <;> simp

/-- The exit runs over all the sub-drivers that were counted. -/
theorem gulSubdrvModExit_eq : gulSubdrvModExit E E.subDrvs.length =
    (indicesFrom SubDrv.given 0 E.subDrvs).reverse.map fun k => .release (.subdrv k) := by
  rw [gulSubdrvModExit, List.take_length]
  exact modExitLoop_eq E.subDrvs 0

/-- `init_tti_dev` succeeds. -/
def ModEnv.TtiInits (E : ModEnv) : Prop :=
  E.allocChrdevRegion = 0 ∧ E.kmalloc = true ∧ ∀ j < maxModem, E.kzalloc j = true

/-- `init_tti_dev` fails before it has taken anything. -/
def ModEnv.TtiNothing (E : ModEnv) : Prop :=
  E.allocChrdevRegion ≠ 0 ∧ E.ttiClassCreate = false ∧ E.kmalloc = false

theorem ttiDataLoop_ok {err : ℤ} : ∀ {k j : ℕ}, (∀ i, j ≤ i → i < j + k → E.kzalloc i = true) →
    ttiDataLoop E err k j = (err, (List.range' j k).map fun j => .acquire (.ttiData j))
  | 0, _, _ => rfl
  | k + 1, j, h => by
    have hj : E.kzalloc j = true := h j le_rfl (by omega)
    have hrest : ∀ i, j + 1 ≤ i → i < j + 1 + k → E.kzalloc i = true := fun i hi hk => h i (by omega) (by omega)
    rw [ttiDataLoop, if_neg (by rw [hj]; decide), ttiDataLoop_ok hrest]
    rfl

theorem ttiDataLoop_fail {err : ℤ} : ∀ {k j : ℕ}, (∃ i, j ≤ i ∧ i < j + k ∧ E.kzalloc i = false) →
    (ttiDataLoop E err k j).1 = -enomem
  | 0, j, ⟨i, hi, hk, _⟩ => by omega
  | k + 1, j, ⟨i, hi, hk, hz⟩ => by
    rw [ttiDataLoop]
    by_cases hj : E.kzalloc j = false
    · rw [if_pos hj]
    · rw [if_neg hj]
      refine ttiDataLoop_fail (k := k) ⟨i, ?_, by omega, hz⟩
      rcases hi.eq_or_lt with rfl | hlt
      · exact absurd hz hj
      · exact hlt

theorem ttiDataLoop_mem {err : ℤ} : ∀ {k j : ℕ} {e : Entry ModRes}, e ∈ (ttiDataLoop E err k j).2 →
    ∃ i, e = .acquire (.ttiData i)
  | 0, _, _, h => absurd h List.not_mem_nil
  | k + 1, j, e, h => by
    rw [ttiDataLoop] at h
    split_ifs at h
    · exact absurd h List.not_mem_nil
    · rcases List.mem_cons.mp h with rfl | h
      · exact ⟨j, rfl⟩
      · exact ttiDataLoop_mem h

/-- What the TTI devices take when all goes well. -/
def ttiTaken (E : ModEnv) : List ModRes :=
  .ttiRegion :: (if E.ttiClassCreate then [.ttiClass] else []) ++ .ttiArray :: (List.range maxModem).map .ttiData

theorem initTtiDev_ok (h : E.TtiInits) : initTtiDev E = (0, (ttiTaken E).map .acquire) := by
  obtain ⟨halloc, hk, hz⟩ := h
  unfold initTtiDev ttiHead ttiTaken
  rw [if_neg (by rw [hk]; decide), ttiDataLoop_ok fun i _ hi => hz i (by omega), halloc, List.range_eq_range']
  cases E.ttiClassCreate <;> simp

theorem ttiHead_mem {e : Entry ModRes} (h : e ∈ ttiHead E) : e = .acquire .ttiRegion ∨ e = .acquire .ttiClass := by
  unfold ttiHead at h
  rcases List.mem_append.mp h with h | h
  · split_ifs at h
    · exact Or.inl (List.mem_singleton.mp h)
    · exact absurd h List.not_mem_nil
  · split_ifs at h
    · exact Or.inr (List.mem_singleton.mp h)
    · exact absurd h List.not_mem_nil

/-- A failure of `init_tti_dev` leaves something behind, unless all its calls failed. -/
theorem initTtiDev_fail (h : ¬ E.TtiInits) :
    (initTtiDev E).1 ≠ 0 ∧ ((initTtiDev E).2 = [] ↔ E.TtiNothing) := by
  unfold initTtiDev ModEnv.TtiNothing
  by_cases hk : E.kmalloc = false
  · rw [if_pos hk]
    refine ⟨show -enomem ≠ 0 by decide, ?_⟩
    by_cases halloc : E.allocChrdevRegion = 0
    · exact iff_of_false (by simp [ttiHead, halloc]) fun hn => hn.1 halloc
    · cases hc : E.ttiClassCreate with
      | false => exact iff_of_true (by simp [ttiHead, halloc, hc]) ⟨halloc, rfl, hk⟩
      | true => exact iff_of_false (by simp [ttiHead, hc]) fun hn => absurd hn.2.1 (by decide)
  · rw [if_neg hk]
    refine ⟨fun h0 => h ?_, iff_of_false (by simp) fun hn => hk hn.2.2⟩
    by_cases hz : ∀ j < maxModem, E.kzalloc j = true
    · rw [ttiDataLoop_ok fun i _ hi => hz i (by omega)] at h0
      exact ⟨h0, by simpa using hk, hz⟩
    · push Not at hz
      obtain ⟨j, hj, hne⟩ := hz
      have hneg : (ttiDataLoop E E.allocChrdevRegion maxModem 0).1 = -enomem :=
        ttiDataLoop_fail ⟨j, Nat.zero_le j, by omega, by simpa using hne⟩
      exact absurd (hneg.symm.trans h0) (by decide)

/-- The TTI devices take nothing else. -/
theorem initTtiDev_mem {e : Entry ModRes} (h : e ∈ (initTtiDev E).2) :
    ∃ r, e = .acquire r ∧ (r = .ttiRegion ∨ r = .ttiClass ∨ r = .ttiArray ∨ ∃ j, r = .ttiData j) := by
  have hhead : e ∈ ttiHead E → ∃ r, e = .acquire r ∧
      (r = .ttiRegion ∨ r = .ttiClass ∨ r = .ttiArray ∨ ∃ j, r = .ttiData j) := by
    intro hmem
    rcases ttiHead_mem hmem with rfl | rfl
    · exact ⟨_, rfl, Or.inl rfl⟩
    · exact ⟨_, rfl, Or.inr (Or.inl rfl)⟩
  unfold initTtiDev at h
  split_ifs at h
  · exact hhead h
  · rcases List.mem_append.mp h with h | h
    · exact hhead h
    · rcases List.mem_cons.mp h with rfl | h
      · exact ⟨_, rfl, Or.inr (Or.inr (Or.inl rfl))⟩
      · obtain ⟨i, rfl⟩ := ttiDataLoop_mem h
        exact ⟨_, rfl, Or.inr (Or.inr (Or.inr ⟨i, rfl⟩))⟩

end Pieces

/-! ### The module as a whole -/

section Balance

variable {E : ModEnv}

/-- The global sysfs group is there. -/
def ModEnv.SysfsInits (E : ModEnv) : Prop := E.kobjectCreateAndAdd = true ∧ E.sysfsCreateGroup = 0

/-- `fsl_get_svr` is reached and maps the registers. -/
def ModEnv.DcfgStays (E : ModEnv) : Prop := E.ReachesSvr ∧ E.findDcfg = true ∧ E.ofIomap = true

/-- The outcomes after which nothing is left: no registers were mapped, and the parameters are
refused; or the class and the group are there, and no `mod_init` that was called holds
anything and one of them fails or every call of `init_tti_dev` does, or everything
succeeds and each `mod_exit` gives back what its `mod_init` holds. -/
def ModEnv.Clean (E : ModEnv) : Prop :=
  ¬ E.DcfgStays ∧ ((∃ err, E.checked = .error err) ∨
    (E.classCreate = true ∧ E.SysfsInits ∧
      (((∀ s ∈ called E.subDrvs, s.holds = false) ∧ (¬ ModInits E.subDrvs ∨ E.TtiNothing)) ∨
        (ModInits E.subDrvs ∧ E.TtiInits ∧ E.pciRegisterDriver = 0 ∧ ∀ s ∈ called E.subDrvs, s.holds = s.gives))))

theorem gulInitGlobalSysfs_ok (h : E.SysfsInits) :
    (gulInitGlobalSysfs E).2 = [.acquire .yamiKobj, .acquire .yamiGroup] := by
  unfold gulInitGlobalSysfs
  rw [if_neg (by rw [h.1]; decide), if_neg (not_not.mpr h.2)]

theorem gulInitGlobalSysfs_fail (h : ¬ E.SysfsInits) {r : ModRes} (hr : .acquire r ∈ (gulInitGlobalSysfs E).2) :
    r = .yamiKobj := by
  unfold gulInitGlobalSysfs at hr
  split_ifs at hr with hk hg
  · exact absurd hr List.not_mem_nil
  · simpa using hr
  · exact absurd ⟨by simpa using hk, not_not.mp hg⟩ h

theorem gulInitGlobalSysfs_release {r : ModRes} (hr : .release r ∈ (gulInitGlobalSysfs E).2) : r = .yamiKobj := by
  unfold gulInitGlobalSysfs at hr
  split_ifs at hr
  · exact absurd hr List.not_mem_nil
  · simpa using hr
  · simp at hr

/-- What the module takes from `class_create` on when all goes well. -/
def modTaken (E : ModEnv) : List ModRes :=
  [.gulClass, .yamiKobj, .yamiGroup] ++ (indicesFrom SubDrv.taken 0 E.subDrvs).map .subdrv ++ ttiTaken E ++ [.pciDriver]

/-- What the exit gives back. -/
def modGiven (E : ModEnv) : List ModRes :=
  .pciDriver :: (indicesFrom SubDrv.given 0 E.subDrvs).reverse.map .subdrv ++
    ((if E.ttiClassCreate then [.ttiClass] else []) ++ .ttiRegion :: (List.range maxModem).map .ttiData ++ [.ttiArray]) ++
    [.gulClass] ++ [.yamiGroup, .yamiKobj]

theorem gulPcidevExit_eq (hc : E.classCreate = true) :
    gulPcidevExit E E.subDrvs.length = (modGiven E).map .release := by
  unfold gulPcidevExit modGiven removeTtiDev gulRemoveGlobalSysfs
  rw [gulSubdrvModExit_eq, if_pos hc]
  cases E.ttiClassCreate <;> simp [Function.comp_def]

/-- The sub-drivers apart, the exit gives back what was taken. -/
theorem mem_modTaken_iff : (∀ r, r ∈ modTaken E ↔ r ∈ modGiven E) ↔
    ∀ k, k ∈ indicesFrom SubDrv.taken 0 E.subDrvs ↔ k ∈ indicesFrom SubDrv.given 0 E.subDrvs := by
  constructor
  · intro h k
    have hk := h (.subdrv k)
    unfold modTaken modGiven ttiTaken at hk
    cases hc : E.ttiClassCreate <;> simpa [hc] using hk
  · intro h r
    unfold modTaken modGiven ttiTaken
    cases E.ttiClassCreate <;> cases r <;> simp [h]

theorem taken_eq_given_iff (hsub : ModInits E.subDrvs) :
    (∀ s ∈ E.subDrvs, s.taken = s.given) ↔ ∀ s ∈ called E.subDrvs, s.holds = s.gives := by
  rw [called_eq_filter hsub]
  simp only [List.mem_filter, and_imp]
  refine forall₂_congr fun s _ => ?_
  rw [SubDrv.taken, SubDrv.given]
  cases s.active <;> simp

theorem nodup_subdrvs (p : SubDrv → Bool) : ((indicesFrom p 0 E.subDrvs).map ModRes.subdrv).Nodup :=
  (nodup_indicesFrom p E.subDrvs 0).map fun _ _ h => ModRes.subdrv.inj h

theorem nodup_ttiData : ((List.range maxModem).map ModRes.ttiData).Nodup :=
  List.nodup_range.map fun _ _ h => ModRes.ttiData.inj h

theorem nodup_modTaken : (modTaken E).Nodup := by
  unfold modTaken ttiTaken
  cases E.ttiClassCreate <;> simp [List.nodup_append, nodup_subdrvs, nodup_ttiData] <;>
    rintro k - r (⟨j, -, rfl⟩ | rfl) <;> simp

theorem nodup_modGiven : (modGiven E).Nodup := by
  unfold modGiven
  rw [List.map_reverse]
  cases E.ttiClassCreate <;> simp [List.nodup_append, nodup_subdrvs, nodup_ttiData] <;>
    rintro k - r (⟨j, -, rfl⟩ | rfl | rfl | rfl | rfl) <;> simp

/-- The ledger of a load and an unload without a failure. -/
theorem held_all_iff (hsub : ModInits E.subDrvs) :
    (∀ r, held r false ((modTaken E).map .acquire ++ (modGiven E).map .release) = some false) ↔
      ∀ s ∈ called E.subDrvs, s.holds = s.gives := by
  rw [← taken_eq_given_iff hsub, ← indicesFrom_iff SubDrv.taken SubDrv.given E.subDrvs 0, ← mem_modTaken_iff]
  exact ⟨mem_iff_of_held, held_acquires_releases nodup_modTaken nodup_modGiven⟩

/-- The label `out1` gives back the class and the group: what was taken beside them stays. -/
theorem held_out1_iff (h : E.SysfsInits) {l : List (Entry ModRes)}
    (hl : ∀ e ∈ l, ∃ x, e = .acquire x ∧ x ≠ .gulClass ∧ x ≠ .yamiKobj ∧ x ≠ .yamiGroup) :
    (∀ r, held r false (.acquire .gulClass :: (gulInitGlobalSysfs E).2 ++ (l ++ out1)) = some false) ↔ l = [] := by
  rw [gulInitGlobalSysfs_ok h]
  constructor
  · intro hall
    rw [List.eq_nil_iff_forall_not_mem]
    intro e he
    obtain ⟨x, rfl, hc, hk, hg⟩ := hl e he
    refine held_of_not_released (r := x) ?_ (Or.inr (by simp [he])) (hall x)
    have hrel : .release x ∉ l := by
      intro hx
      obtain ⟨y, hy, -⟩ := hl _ hx
      cases hy
    simp [hrel, out1, gulRemoveGlobalSysfs, hc, hk, hg]
  · rintro rfl r
    exact @held_acquires_releases _ _ [.gulClass, .yamiKobj, .yamiGroup] [.yamiGroup, .yamiKobj, .gulClass]
      (by decide) (by decide) (fun x => by cases x <;> simp) r

theorem modInits_mem {e : Entry ModRes} (h : e ∈ (modInitLoop 0 E.subDrvs).2) :
    ∃ x, e = .acquire x ∧ x ≠ .gulClass ∧ x ≠ .yamiKobj ∧ x ≠ .yamiGroup := by
  obtain ⟨k, rfl⟩ := modInitLoop_mem h
  exact ⟨_, rfl, nofun, nofun, nofun⟩

theorem initTtiDev_beside {e : Entry ModRes} (h : e ∈ (initTtiDev E).2) :
    ∃ x, e = .acquire x ∧ x ≠ .gulClass ∧ x ≠ .yamiKobj ∧ x ≠ .yamiGroup := by
  obtain ⟨x, rfl, hx⟩ := initTtiDev_mem h
  refine ⟨x, rfl, ?_⟩
  rcases hx with rfl | rfl | rfl | ⟨j, rfl⟩ <;> exact ⟨nofun, nofun, nofun⟩

/-- The ledger from `class_create` on. -/
def classLedger (E : ModEnv) : List (Entry ModRes) :=
  let (err, cnt, l) := registerModule E
  if err = 0 then l ++ gulPcidevExit E cnt else l

/-- What follows the sysfs group. -/
def modBody (E : ModEnv) : List (Entry ModRes) :=
  let sub := (modInitLoop 0 E.subDrvs).2
  let tti := (initTtiDev E).2
  if (modInitLoop 0 E.subDrvs).1 ≠ 0 then sub ++ out1
  else if (initTtiDev E).1 ≠ 0 then sub ++ tti ++ out1
  else if E.pciRegisterDriver ≠ 0 then sub ++ tti
  else sub ++ tti ++ [.acquire .pciDriver] ++ gulPcidevExit E E.subDrvs.length

theorem modInitLoop_eq_zero_iff : (modInitLoop 0 E.subDrvs).1 = 0 ↔ ModInits E.subDrvs := by
  by_cases h : ModInits E.subDrvs
  · rw [modInitLoop_of_modInits 0 h]
    exact iff_of_true rfl h
  · exact iff_of_false (modInitLoop_fst_ne_zero 0 h) h

theorem initTtiDev_eq_zero_iff : (initTtiDev E).1 = 0 ↔ E.TtiInits := by
  by_cases h : E.TtiInits
  · rw [initTtiDev_ok h]
    exact iff_of_true rfl h
  · exact iff_of_false (initTtiDev_fail h).1 h

/-- The four ways it goes. -/
theorem modBody_cases (E : ModEnv) :
    (¬ ModInits E.subDrvs ∧ modBody E = (modInitLoop 0 E.subDrvs).2 ++ out1) ∨
    (ModInits E.subDrvs ∧ ¬ E.TtiInits ∧ modBody E = (modInitLoop 0 E.subDrvs).2 ++ (initTtiDev E).2 ++ out1) ∨
    (ModInits E.subDrvs ∧ E.TtiInits ∧ E.pciRegisterDriver ≠ 0 ∧
      modBody E = (modInitLoop 0 E.subDrvs).2 ++ (initTtiDev E).2) ∨
    (ModInits E.subDrvs ∧ E.TtiInits ∧ E.pciRegisterDriver = 0 ∧
      modBody E = (modInitLoop 0 E.subDrvs).2 ++ (initTtiDev E).2 ++ [.acquire .pciDriver] ++
        gulPcidevExit E E.subDrvs.length) := by
  unfold modBody
  by_cases hsub : ModInits E.subDrvs
  · rw [if_neg (not_not.mpr (modInitLoop_eq_zero_iff.mpr hsub))]
    by_cases htti : E.TtiInits
    · rw [if_neg (not_not.mpr (initTtiDev_eq_zero_iff.mpr htti))]
      by_cases hreg : E.pciRegisterDriver = 0
      · rw [if_neg (not_not.mpr hreg)]
        exact Or.inr (Or.inr (Or.inr ⟨hsub, htti, hreg, rfl⟩))
      · rw [if_pos hreg]
        exact Or.inr (Or.inr (Or.inl ⟨hsub, htti, hreg, rfl⟩))
    · rw [if_pos (fun h => htti (initTtiDev_eq_zero_iff.mp h))]
      exact Or.inr (Or.inl ⟨hsub, htti, rfl⟩)
  · rw [if_pos (fun h => hsub (modInitLoop_eq_zero_iff.mp h))]
    exact Or.inl ⟨hsub, rfl⟩

theorem classLedger_of_class (hc : E.classCreate = true) :
    classLedger E = .acquire .gulClass :: (gulInitGlobalSysfs E).2 ++ modBody E := by
  unfold classLedger registerModule gulSubdrvModInit modBody
  dsimp only
  rw [if_neg (show ¬ E.classCreate = false by rw [hc]; decide)]
  by_cases hsub : (modInitLoop 0 E.subDrvs).1 ≠ 0
  · rw [if_pos hsub, if_pos hsub, if_neg hsub, List.append_assoc]
  rw [if_neg hsub, if_neg hsub]
  by_cases htti : (initTtiDev E).1 ≠ 0
  · rw [if_pos htti, if_pos htti, if_neg htti]
    simp only [List.append_assoc]
  rw [if_neg htti, if_neg htti]
  by_cases hreg : E.pciRegisterDriver ≠ 0
  · rw [if_pos hreg, if_pos hreg, if_neg hreg, List.append_assoc]
  rw [if_neg hreg, if_neg hreg, if_pos rfl]
  simp only [List.append_assoc]

/-- Without a class the load returns 0, and the exit goes over no sub-driver. -/
theorem classLedger_of_noClass (hc : E.classCreate = false) : classLedger E = gulPcidevExit E 0 := by
  unfold classLedger registerModule
  rw [if_pos hc]
  rfl

/-- That exit unregisters a driver that was never registered. -/
theorem not_balanced_of_noClass (hc : E.classCreate = false) :
    held .pciDriver false (classLedger E) ≠ some false := by
  have hnone : held ModRes.pciDriver false (gulPcidevExit E 0) = none := by
    apply held_of_not_acquired
    · unfold gulPcidevExit gulSubdrvModExit removeTtiDev gulRemoveGlobalSysfs
      rw [modExitLoop_eq, hc]
      cases E.ttiClassCreate <;> simp
    · simp [gulPcidevExit]
  rw [classLedger_of_noClass hc, hnone]
  nofun

/-- If the driver is not registered, the class stays. -/
theorem not_balanced_of_register :
    held .gulClass false (.acquire .gulClass :: (gulInitGlobalSysfs E).2 ++
      ((modInitLoop 0 E.subDrvs).2 ++ (initTtiDev E).2)) ≠ some false := by
  apply held_of_not_released
  · rw [List.cons_append, List.mem_cons, List.mem_append, List.mem_append]
    rintro (h | h | h | h)
    · cases h
    · exact absurd (gulInitGlobalSysfs_release h) (by decide)
    · obtain ⟨x, hx, -⟩ := modInits_mem h
      cases hx
    · obtain ⟨x, hx, -⟩ := initTtiDev_beside h
      cases hx
  · exact Or.inr (by simp)

/-- If the group is not there, the label `out1` and the exit remove what was never made. -/
theorem not_balanced_of_sysfs (hc : E.classCreate = true) (hs : ¬ E.SysfsInits) :
    ¬ ∀ r, held r false (classLedger E) = some false := by
  have hhead : .acquire ModRes.yamiGroup ∉ .acquire .gulClass :: (gulInitGlobalSysfs E).2 := by
    rw [List.mem_cons]
    rintro (h | h)
    · cases h
    · exact absurd (gulInitGlobalSysfs_fail hs h) (by decide)
  -- a body that removes the group and does not make it
  have hbad : ∀ l : List (Entry ModRes), .acquire .yamiGroup ∉ l → .release .yamiGroup ∈ l →
      ¬ ∀ r, held r false (.acquire .gulClass :: (gulInitGlobalSysfs E).2 ++ l) = some false := by
    intro l hacq hrel hall
    have hnone : held ModRes.yamiGroup false (.acquire .gulClass :: (gulInitGlobalSysfs E).2 ++ l) = none := by
      apply held_of_not_acquired
      · rw [List.mem_append, not_or]
        exact ⟨hhead, hacq⟩
      · exact List.mem_append_right _ hrel
    rw [hall] at hnone
    cases hnone
  have hsub : .acquire ModRes.yamiGroup ∉ (modInitLoop 0 E.subDrvs).2 := by
    intro h
    obtain ⟨x, hx, -, -, hg⟩ := modInits_mem h
    exact hg (Entry.acquire.inj hx).symm
  have htti : .acquire ModRes.yamiGroup ∉ (initTtiDev E).2 := by
    intro h
    obtain ⟨x, hx, -, -, hg⟩ := initTtiDev_beside h
    exact hg (Entry.acquire.inj hx).symm
  rw [classLedger_of_class hc]
  rcases modBody_cases E with ⟨-, h⟩ | ⟨-, -, h⟩ | ⟨-, -, -, h⟩ | ⟨-, -, -, h⟩
  · rw [h]
    apply hbad
    · simp [hsub, out1, gulRemoveGlobalSysfs]
    · simp [out1, gulRemoveGlobalSysfs]
  · rw [h]
    apply hbad
    · simp [hsub, htti, out1, gulRemoveGlobalSysfs]
    · simp [out1, gulRemoveGlobalSysfs]
  · rw [h]
    exact fun hall => not_balanced_of_register (hall _)
  · rw [h]
    apply hbad
    · rw [gulPcidevExit_eq hc]
      simp [hsub, htti]
    · simp [gulPcidevExit, gulRemoveGlobalSysfs]

/-- From `class_create` on. -/
theorem classLedger_balanced_iff : (∀ r, held r false (classLedger E) = some false) ↔
    E.classCreate = true ∧ E.SysfsInits ∧
      (((∀ s ∈ called E.subDrvs, s.holds = false) ∧ (¬ ModInits E.subDrvs ∨ E.TtiNothing)) ∨
        (ModInits E.subDrvs ∧ E.TtiInits ∧ E.pciRegisterDriver = 0 ∧ ∀ s ∈ called E.subDrvs, s.holds = s.gives)) := by
  cases hc : E.classCreate with
  | false => exact iff_of_false (fun h => not_balanced_of_noClass hc (h _)) (by simp)
  | true =>
    by_cases hs : E.SysfsInits
    · rw [classLedger_of_class hc, eq_self_iff_true, true_and, and_iff_right hs]
      rcases modBody_cases E with ⟨hsub, h⟩ | ⟨hsub, htti, h⟩ | ⟨hsub, htti, hreg, h⟩ | ⟨hsub, htti, hreg, h⟩
      · rw [h, held_out1_iff hs fun e => modInits_mem, modInitLoop_eq_nil_iff]
        simp [hsub]
      · rw [h, held_out1_iff hs fun e he => (List.mem_append.mp he).elim modInits_mem initTtiDev_beside,
          List.append_eq_nil_iff, modInitLoop_eq_nil_iff, (initTtiDev_fail htti).2]
        simp [hsub, htti]
      · rw [h]
        refine iff_of_false (fun hall => not_balanced_of_register (hall _)) ?_
        rintro (⟨-, hn | hn⟩ | ⟨-, -, h0, -⟩)
        · exact hn hsub
        · exact hn.1 htti.1
        · exact hreg h0
      · have hn : ¬ E.TtiNothing := fun hn => hn.1 htti.1
        have hall := held_all_iff (E := E) hsub
        rw [h, gulPcidevExit_eq hc, gulInitGlobalSysfs_ok hs, modInitLoop_of_modInits 0 hsub, initTtiDev_ok htti]
        simpa [modTaken, Function.comp_def, hsub, htti, hreg, hn] using hall
    · exact iff_of_false (not_balanced_of_sysfs hc hs) fun h => hs h.2.1

/-! #### The configuration registers -/

theorem moduleLedger_of_refused {err : ℤ} (h : E.checked = .error err) : moduleLedger E = E.hostSvr.2 := by
  have herr : err = -Scratch.einval := by
    unfold ModEnv.checked Scratch.gulPcidevInit at h
    dsimp only at h
    split_ifs at h <;> exact (Except.error.inj h).symm
  unfold moduleLedger gulPcidevInit
  rw [h, herr]
  exact if_neg (by decide)

theorem moduleLedger_of_ok {r : ℕ × Scratch.Params} (h : E.checked = .ok r) :
    moduleLedger E = E.hostSvr.2 ++ classLedger E := by
  unfold moduleLedger gulPcidevInit classLedger
  rw [h]
  dsimp only
  split_ifs
  · rw [List.append_assoc]
  · rfl

theorem held_hostSvr (h : ¬ E.DcfgStays) (r : ModRes) : held r false E.hostSvr.2 = some false := by
  unfold ModEnv.hostSvr
  by_cases hr : E.ReachesSvr
  · rw [if_pos hr, fslGetSvr]
    by_cases hd : E.findDcfg = false
    · rw [if_pos hd]
      rfl
    · have hi : E.ofIomap = false := by
        by_contra hi
        exact h ⟨hr, by simpa using hd, by simpa using hi⟩
      rw [if_neg hd, if_pos hi]
      exact held_acquires_releases (List.nodup_singleton _) (List.nodup_singleton ModRes.dcfgNode) (fun _ => Iff.rfl) r
  · rw [if_neg hr]
    rfl

theorem hostSvr_of_stays (h : E.DcfgStays) : E.hostSvr.2 = [.acquire .dcfgNode, .acquire .dcfgRegs] := by
  obtain ⟨hr, hd, hi⟩ := h
  unfold ModEnv.hostSvr fslGetSvr
  rw [if_pos hr, if_neg (by rw [hd]; decide), if_neg (by rw [hi]; decide)]

/-- Nothing unmaps the registers. -/
theorem dcfgRegs_not_released : .release ModRes.dcfgRegs ∉ classLedger E := by
  have hexit : ∀ cnt, .release ModRes.dcfgRegs ∉ gulPcidevExit E cnt := by
    intro cnt
    unfold gulPcidevExit gulSubdrvModExit removeTtiDev gulRemoveGlobalSysfs
    rw [modExitLoop_eq]
    cases E.ttiClassCreate <;> cases E.classCreate <;> simp
  cases hc : E.classCreate with
  | false =>
    rw [classLedger_of_noClass hc]
    exact hexit 0
  | true =>
    have hsys : .release ModRes.dcfgRegs ∉ (gulInitGlobalSysfs E).2 := fun h => by
      cases gulInitGlobalSysfs_release h
    have hsub : .release ModRes.dcfgRegs ∉ (modInitLoop 0 E.subDrvs).2 := by
      intro h
      obtain ⟨x, hx, -⟩ := modInits_mem h
      cases hx
    have htti : .release ModRes.dcfgRegs ∉ (initTtiDev E).2 := by
      intro h
      obtain ⟨x, hx, -⟩ := initTtiDev_beside h
      cases hx
    rw [classLedger_of_class hc]
    rcases modBody_cases E with ⟨-, h⟩ | ⟨-, -, h⟩ | ⟨-, -, -, h⟩ | ⟨-, -, -, h⟩ <;> rw [h] <;>
      simp [hsys, hsub, htti, hexit, out1, gulRemoveGlobalSysfs]

/-- What comes after `fsl_get_svr` does not unmap them either. -/
theorem moduleLedger_tail (E : ModEnv) : ∃ l, moduleLedger E = E.hostSvr.2 ++ l ∧ .release ModRes.dcfgRegs ∉ l := by
  cases hp : E.checked with
  | error err => exact ⟨[], by rw [moduleLedger_of_refused hp, List.append_nil], List.not_mem_nil⟩
  | ok r => exact ⟨classLedger E, moduleLedger_of_ok hp, dcfgRegs_not_released⟩

/-- **What a load leaves behind.** A load of the module, with its unload if it succeeds,
acquires nothing twice, releases nothing it does not hold and leaves nothing held exactly
in the cases of `Clean`. -/
theorem load_balanced_iff (E : ModEnv) : (∀ r, held r false (moduleLedger E) = some false) ↔ E.Clean := by
  unfold ModEnv.Clean
  by_cases hstays : E.DcfgStays
  · refine iff_of_false (fun hall => ?_) fun h => h.1 hstays
    obtain ⟨l, hl, hrel⟩ := moduleLedger_tail E
    rw [hl, hostSvr_of_stays hstays] at hall
    exact held_of_not_released (by simp [hrel]) (Or.inr (by simp)) (hall .dcfgRegs)
  · rw [and_iff_right hstays]
    cases hp : E.checked with
    | error err =>
      rw [moduleLedger_of_refused hp]
      exact iff_of_true (held_hostSvr hstays) (Or.inl ⟨err, rfl⟩)
    | ok r =>
      rw [moduleLedger_of_ok hp, or_iff_right (by simp), ← classLedger_balanced_iff]
      exact forall_congr' fun r => by rw [held_append_of (held_hostSvr hstays r)]

end Balance

end ModInit
end Pci
end La12xx
