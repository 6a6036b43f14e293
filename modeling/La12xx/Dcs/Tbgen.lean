/-
# The timebase registers across calibrations

A calibration stores the two `LOW_PWR_TBGEN2_CTRL` registers of its modem, takes the
low power bit out while it lasts, and restores them at its end, on every exit. They
are stored in two variables of the file, so that calibrations of different modems
that overlap store over one another. A register comes out right exactly if the last
call that stored it before it is restored was for a modem with the same value
(`registers_kept`); calls of modems with different values that do not overlap are
such a run (`restores_of_apart`).

Each step of a call makes at most one access to the registers or the variables; what
a calibration does in between only touches the mailbox.
-/
import La12xx.Lib.Machine

namespace La12xx
namespace Dcs

open Machine

/-- `HSADC0_LOW_PWR_TBGEN2_CTRL` and `HSADC1_LOW_PWR_TBGEN2_CTRL` -/
inductive Reg where
  | ctrl1
  | ctrl2
deriving DecidableEq, Repr

instance : Fintype Reg := ⟨{.ctrl1, .ctrl2}, fun r => by cases r <;> simp⟩

/-- Where a call of `hsdcs_adc_full_recal` or `hsdcs_adc_fast_recal` is. The steps up
to `lowOff` are `hsdcs_adc_low_pow_conf` with `DISABLE_LOWPWR` and `TBGEN_STORE`, those
from `reread` on with `ENABLE_LOWPWR` and `TBGEN_RESTORE`. -/
inductive Pc where
  | idle
  | read (r : Reg)
  | store (r : Reg)
  | lowOff (r : Reg)
  | body
  | reread (r : Reg)
  | lowOn (r : Reg)
  | look (r : Reg)
  | cmp (r : Reg)
  | back (r : Reg)
deriving DecidableEq, Repr

/-- The step after a step. -/
def Pc.next : Pc → Pc
  | .idle => .idle
  | .read .ctrl1 => .read .ctrl2
  | .read .ctrl2 => .store .ctrl1
  | .store .ctrl1 => .store .ctrl2
  | .store .ctrl2 => .lowOff .ctrl1
  | .lowOff .ctrl1 => .lowOff .ctrl2
  | .lowOff .ctrl2 => .body
  | .body => .reread .ctrl1
  | .reread .ctrl1 => .reread .ctrl2
  | .reread .ctrl2 => .lowOn .ctrl1
  | .lowOn .ctrl1 => .lowOn .ctrl2
  | .lowOn .ctrl2 => .look .ctrl1
  | .look r => .cmp r
  | .cmp .ctrl1 => .look .ctrl2
  | .cmp .ctrl2 => .idle
  | .back .ctrl1 => .look .ctrl2
  | .back .ctrl2 => .idle

abbrev Regs := Reg → BitVec 32

/-- `HSADC_LOW_PWR_TBGEN2_CFG_BIT_POS`, as a mask. -/
def lowPwr : BitVec 32 := 1 <<< 8

/-- A call: where it is, and its variables `tdd_ctrl1` and `tdd_ctrl2`. -/
structure Call where
  pc : Pc
  tdd : Regs

def Call.go (c : Call) : Call := { c with pc := c.pc.next }

/-- A step of a call, on the registers of its modem and on `tdd_ctrl1_state_g` and
`tdd_ctrl2_state_g`. The value that is written back is read once more. -/
def Call.step (c : Call) (reg g : Regs) : Call × Regs × Regs :=
  match c.pc with
  | .idle => (c, reg, g)
  | .read r => ({ c.go with tdd := Function.update c.tdd r (reg r) }, reg, g)
  | .store r => (c.go, reg, Function.update g r (c.tdd r))
  | .lowOff r =>
    if c.tdd r &&& lowPwr ≠ 0 then
      ({ c.go with tdd := Function.update c.tdd r (c.tdd r &&& ~~~lowPwr) },
        Function.update reg r (c.tdd r &&& ~~~lowPwr), g)
    else (c.go, reg, g)
  | .body => (c.go, reg, g)
  | .reread r => ({ c.go with tdd := Function.update c.tdd r (reg r) }, reg, g)
  | .lowOn r =>
    if c.tdd r &&& lowPwr = 0 then
      ({ c.go with tdd := Function.update c.tdd r (c.tdd r ||| lowPwr) },
        Function.update reg r (c.tdd r ||| lowPwr), g)
    else (c.go, reg, g)
  | .look r => ({ c.go with tdd := Function.update c.tdd r (reg r) }, reg, g)
  | .cmp r => if c.tdd r ≠ g r then ({ c with pc := .back r }, reg, g) else (c.go, reg, g)
  | .back r => (c.go, Function.update reg r (g r), g)

/-- The modems: their registers and calls, the two variables, and the modem whose call
last stored each. -/
structure Tbgen (M : Type) where
  reg : M → Regs
  g : Regs
  calls : M → Call
  owner : Reg → Option M

/-- A call begins, where none is under way, or goes on. -/
inductive Move (M : Type) where
  | start (m : M)
  | run (m : M)

section Machine

variable {M : Type}

/-- Who has stored the variables after a step of modem `m`. -/
def ownerAfter (m : M) (pc : Pc) (owner : Reg → Option M) (r : Reg) : Option M :=
  if pc = .store r then some m else owner r

def tbgenStep [DecidableEq M] (s : Tbgen M) : Move M → Tbgen M × Unit
  | .start m =>
    if (s.calls m).pc = .idle then
      ({ s with calls := Function.update s.calls m { s.calls m with pc := .read .ctrl1 } }, ())
    else (s, ())
  | .run m =>
    let out := (s.calls m).step (s.reg m) s.g
    ({ reg := Function.update s.reg m out.2.1
       g := out.2.2
       calls := Function.update s.calls m out.1
       owner := ownerAfter m (s.calls m).pc s.owner }, ())

/-- No call is under way; the variables hold anything. -/
def Tbgen.start (reg : M → Regs) (g : Regs) (tdd : M → Regs) : Tbgen M :=
  ⟨reg, g, fun m => ⟨.idle, tdd m⟩, fun _ => none⟩

end Machine

/-! ### What a call has done -/

namespace Pc

variable (r : Reg)

/-- The variable of the call holds what it has read, and the register too. -/
def loaded : Pc → Bool
  | .read .ctrl2 => r = .ctrl1
  | .store _ => true
  | _ => false

/-- The call has stored the register and not restored it. -/
def stored : Pc → Bool
  | .store .ctrl2 => r = .ctrl1
  | .lowOff _ => true
  | .body => true
  | .reread _ => true
  | .lowOn _ => true
  | .look r' => r' = .ctrl1 || r = .ctrl2
  | .cmp r' => r' = .ctrl1 || r = .ctrl2
  | .back r' => r' = .ctrl1 || r = .ctrl2
  | _ => false

/-- The call may have changed the register, and not restored it. -/
def touched : Pc → Bool
  | .lowOff .ctrl2 => r = .ctrl1
  | .body => true
  | .reread _ => true
  | .lowOn _ => true
  | .look r' => r' = .ctrl1 || r = .ctrl2
  | .cmp r' => r' = .ctrl1 || r = .ctrl2
  | .back r' => r' = .ctrl1 || r = .ctrl2
  | _ => false

end Pc

/-- Where the call has not touched a register it holds its value. -/
def Kept (I : Regs) (c : Call) (reg : Regs) : Prop := ∀ r, c.pc.touched r = false → reg r = I r

/-- A call that restores a register now restores its value. -/
def Restores (I g : Regs) (c : Call) : Prop :=
  match c.pc with
  | .cmp r => c.tdd r = g r → g r = I r
  | .back r => g r = I r
  | _ => True

/-- What a call knows. -/
structure Fine {M : Type} (I : Regs) (owner : Reg → Option M) (c : Call) (reg : Regs) : Prop where
  loaded : ∀ r, c.pc.loaded r = true → c.tdd r = I r
  seen : ∀ r, c.pc = .cmp r → c.tdd r = reg r
  stored : ∀ r, c.pc.stored r = true → (owner r).isSome = true

section Call

variable {M : Type} {I g reg : Regs} {c : Call}

/-- A step that has touched no more than before, and writes no register, keeps the
rest. -/
theorem Kept.mono {c' : Call} (h : Kept I c reg) (hle : ∀ r, c'.pc.touched r = false → c.pc.touched r = false) :
    Kept I c' reg := fun r hr => h r (hle r hr)

/-- Where the low power bit is taken out the register is touched. -/
theorem kept_lowOff {r : Reg} {tdd : Regs} (h : Kept I ⟨.lowOff r, tdd⟩ reg) :
    Kept I (Call.step ⟨.lowOff r, tdd⟩ reg g).1 (Call.step ⟨.lowOff r, tdd⟩ reg g).2.1 := by
  have hfree : ∀ r', (Pc.lowOff r).next.touched r' = false → r' ≠ r ∧ (Pc.lowOff r).touched r' = false := by
    intro r' hr'
    cases r <;> cases r' <;> first | exact ⟨Reg.noConfusion, rfl⟩ | cases hr'
  simp only [Call.step]
  split
  · intro r' hr'
    obtain ⟨hne, ht⟩ := hfree r' hr'
    exact (Function.update_of_ne hne ..).trans (h r' ht)
  · exact h.mono fun r' hr' => (hfree r' hr').2

/-- A register that is compared and not written is right exactly if what is stored
is. -/
theorem kept_cmp_iff {r : Reg} {tdd : Regs} (hseen : tdd r = reg r) (h : Kept I ⟨.cmp r, tdd⟩ reg) :
    Kept I (Call.step ⟨.cmp r, tdd⟩ reg g).1 (Call.step ⟨.cmp r, tdd⟩ reg g).2.1 ↔ (tdd r = g r → g r = I r) := by
  by_cases heq : tdd r = g r
  · have hstep : (Call.step ⟨.cmp r, tdd⟩ reg g) = ((Call.go ⟨.cmp r, tdd⟩), reg, g) := if_neg (not_not.mpr heq)
    rw [hstep]
    show Kept I _ reg ↔ (tdd r = g r → g r = I r)
    rw [← heq, hseen]
    constructor
    · intro hk _
      exact hk r (by cases r <;> rfl)
    · intro hr r' hr'
      by_cases he : r' = r
      · subst he
        exact hr rfl
      · exact h r' (by cases r <;> cases r' <;> first | rfl | exact absurd rfl he | cases hr')
  · have hstep : (Call.step ⟨.cmp r, tdd⟩ reg g) = (⟨.back r, tdd⟩, reg, g) := if_pos heq
    rw [hstep]
    exact iff_of_true (h.mono fun r' hr' => hr') fun he => absurd he heq

/-- A register that is written back is right exactly if what is stored is. -/
theorem kept_back_iff {r : Reg} {tdd : Regs} (h : Kept I ⟨.back r, tdd⟩ reg) :
    Kept I (Call.go ⟨.back r, tdd⟩) (Function.update reg r (g r)) ↔ g r = I r := by
  constructor
  · intro hk
    have hr := hk r (by cases r <;> rfl)
    rwa [Function.update_self] at hr
  · intro hg r' hr'
    by_cases he : r' = r
    · subst he
      rwa [Function.update_self]
    · rw [Function.update_of_ne he]
      exact h r' (by cases r <;> cases r' <;> first | rfl | exact absurd rfl he | cases hr')

/-- A step leaves a register right exactly if it restores it right, or does not
restore it. -/
theorem kept_step_iff (hseen : ∀ r, c.pc = .cmp r → c.tdd r = reg r) (h : Kept I c reg) :
    Kept I (c.step reg g).1 (c.step reg g).2.1 ↔ Restores I g c := by
  obtain ⟨pc, tdd⟩ := c
  cases pc with
  | idle => exact iff_of_true h trivial
  | read r => exact iff_of_true (h.mono fun r' _ => rfl) trivial
  | store r => exact iff_of_true (h.mono fun r' _ => rfl) trivial
  | lowOff r => exact iff_of_true (kept_lowOff h) trivial
  | body => exact iff_of_true (fun r hr => by cases hr) trivial
  | reread r => exact iff_of_true (fun r' hr' => by cases r <;> cases hr') trivial
  | lowOn r =>
    refine iff_of_true ?_ trivial
    simp only [Call.step]
    split
    · exact fun r' hr' => by cases r <;> cases r' <;> cases hr'
    · exact fun r' hr' => by cases r <;> cases r' <;> cases hr'
  | look r => exact iff_of_true (h.mono fun r' hr' => hr') trivial
  | cmp r => exact kept_cmp_iff (hseen r rfl) h
  | back r => exact kept_back_iff h

/-- What a call knows after its step. -/
theorem fine_step (m : M) {owner : Reg → Option M} (hfine : Fine I owner c reg) (hkept : Kept I c reg) :
    Fine I (ownerAfter m c.pc owner) (c.step reg g).1 (c.step reg g).2.1 := by
  obtain ⟨pc, tdd⟩ := c
  obtain ⟨hloaded, hseen, hstored⟩ := hfine
  cases pc with
  | idle => exact ⟨hloaded, hseen, hstored⟩
  | read r =>
    have hr : reg r = I r := hkept r rfl
    refine ⟨fun r' hr' => ?_, fun r' hr' => ?_, fun r' hr' => ?_⟩
    · show Function.update tdd r (reg r) r' = I r'
      by_cases he : r' = r
      · subst he
        rwa [Function.update_self]
      · rw [Function.update_of_ne he]
        exact hloaded r' (by cases r <;> cases r' <;> first | rfl | exact absurd rfl he | cases hr')
    · cases r <;> cases hr'
    · cases r <;> cases hr'
  | store r =>
    refine ⟨fun r' hr' => ?_, fun r' hr' => ?_, fun r' hr' => ?_⟩
    · exact hloaded r' rfl
    · cases r <;> cases hr'
    · unfold ownerAfter
      split
      · rfl
      · next hne => exact hstored r' (by cases r <;> cases r' <;> first | rfl | exact absurd rfl hne | cases hr')
  | lowOff r =>
    have hall : ∀ r', (owner r').isSome = true := fun r' => hstored r' rfl
    simp only [Call.step]
    split <;>
      exact ⟨fun r' hr' => (by cases r <;> cases hr'), fun r' hr' => (by cases r <;> cases hr'), fun r' _ => hall r'⟩
  | body => exact ⟨fun r' hr' => (by cases hr'), fun r' hr' => (by cases hr'), fun r' _ => hstored r' rfl⟩
  | reread r =>
    exact ⟨fun r' hr' => (by cases r <;> cases hr'), fun r' hr' => (by cases r <;> cases hr'), fun r' _ => hstored r' rfl⟩
  | lowOn r =>
    have hall : ∀ r', (owner r').isSome = true := fun r' => hstored r' rfl
    simp only [Call.step]
    split <;>
      exact ⟨fun r' hr' => (by cases r <;> cases hr'), fun r' hr' => (by cases r <;> cases hr'), fun r' _ => hall r'⟩
  | look r =>
    refine ⟨fun r' hr' => (by cases hr'), fun r' hr' => ?_, fun r' hr' => hstored r' hr'⟩
    obtain rfl : r = r' := Pc.cmp.inj hr'
    exact Function.update_self ..
  | cmp r =>
    simp only [Call.step]
    split
    · exact ⟨fun r' hr' => (by cases hr'), fun r' hr' => (by cases hr'), fun r' hr' => hstored r' hr'⟩
    · refine ⟨fun r' hr' => (by cases r <;> cases hr'), fun r' hr' => (by cases r <;> cases hr'),
        fun r' hr' => hstored r' ?_⟩
      cases r <;> cases r' <;> first | rfl | cases hr'
  | back r =>
    refine ⟨fun r' hr' => (by cases r <;> cases hr'), fun r' hr' => (by cases r <;> cases hr'),
      fun r' hr' => hstored r' ?_⟩
    cases r <;> cases r' <;> first | rfl | cases hr'

end Call

/-! ### All calls -/

section Run

variable {M : Type} {I : M → Regs} {s : Tbgen M}

/-- Every register that no call has touched holds its value. -/
def RegsKept (I : M → Regs) (s : Tbgen M) : Prop := ∀ m, Kept (I m) (s.calls m) (s.reg m)

/-- What the calls know, and that the variables hold what was stored last. -/
structure TbgenInv (I : M → Regs) (s : Tbgen M) : Prop where
  fine : ∀ m, Fine (I m) s.owner (s.calls m) (s.reg m)
  owner : ∀ r m, s.owner r = some m → s.g r = I m r

/-- A call that restores a register finds it stored last for a modem with the same
value. (Where the register already holds the stored value it is not written.) -/
def RestoresRight (I : M → Regs) (s : Tbgen M) : Move M → Prop
  | .start _ => True
  | .run m =>
    (∀ r, (s.calls m).pc = .cmp r → ∀ m' ∈ s.owner r, (s.calls m).tdd r = I m' r → I m' r = I m r) ∧
      ∀ r, (s.calls m).pc = .back r → ∀ m' ∈ s.owner r, I m' r = I m r

theorem restoresRight_iff (h : TbgenInv I s) (m : M) :
    RestoresRight I s (.run m) ↔ Restores (I m) s.g (s.calls m) := by
  have howner : ∀ r, (s.calls m).pc.stored r = true → ∃ m', s.owner r = some m' ∧ s.g r = I m' r := by
    intro r hr
    obtain ⟨m', hm'⟩ := Option.isSome_iff_exists.mp ((h.fine m).stored r hr)
    exact ⟨m', hm', h.owner r m' hm'⟩
  unfold RestoresRight Restores
  cases hpc : (s.calls m).pc with
  | cmp r =>
    obtain ⟨m', hm', hg⟩ := howner r (by rw [hpc]; cases r <;> rfl)
    simp [hm', hg, hpc]
  | back r =>
    obtain ⟨m', hm', hg⟩ := howner r (by rw [hpc]; cases r <;> rfl)
    simp [hm', hg, hpc]
  | idle | read r | store r | lowOff r | body | reread r | lowOn r | look r => simp [hpc]

/-- Who has stored a variable stays known. -/
theorem isSome_ownerAfter (m : M) (pc : Pc) {owner : Reg → Option M} {r : Reg} (h : (owner r).isSome = true) :
    (ownerAfter m pc owner r).isSome = true := by
  unfold ownerAfter
  split
  · rfl
  · exact h

/-- Only storing changes the variables, and then to the value of the modem. -/
theorem owner_step {m : M} (h : TbgenInv I s) (r : Reg) (m' : M)
    (hm' : ownerAfter m (s.calls m).pc s.owner r = some m') :
    ((s.calls m).step (s.reg m) s.g).2.2 r = I m' r := by
  unfold ownerAfter at hm'
  split at hm'
  · next hpc =>
    obtain rfl := Option.some.inj hm'
    have hval : (s.calls m).tdd r = I m r := (h.fine m).loaded r (by rw [hpc]; rfl)
    simp only [Call.step, hpc]
    rw [Function.update_self, hval]
  · next hpc =>
    have hsame : ((s.calls m).step (s.reg m) s.g).2.2 r = s.g r := by
      unfold Call.step
      split
      case h_3 r' hpc' => exact Function.update_of_ne (fun he => hpc (by rw [hpc', he])) ..
      all_goals first | rfl | (split <;> rfl)
    rw [hsame]
    exact h.owner r m' hm'

section Moves

variable [DecidableEq M]

theorem tbgenInv_step (h : TbgenInv I s) (hk : RegsKept I s) (i : Move M) : TbgenInv I (tbgenStep s i).1 := by
  cases i with
  | start m =>
    unfold tbgenStep
    simp only
    split
    · refine ⟨(Function.forall_update_iff s.calls fun m' c => Fine (I m') s.owner c (s.reg m')).mpr
        ⟨?_, fun m' _ => h.fine m'⟩, h.owner⟩
      exact ⟨fun r hr => (by cases r <;> cases hr), fun r hr => (by cases hr), fun r hr => (by cases hr)⟩
    · exact h
  | run m =>
    refine ⟨(forall_update₂_iff s.calls s.reg).mpr ⟨fine_step m (h.fine m) (hk m), fun m' _ => ?_⟩, owner_step h⟩
    obtain ⟨hloaded, hseen, hstored⟩ := h.fine m'
    exact ⟨hloaded, hseen, fun r hr => isSome_ownerAfter m _ (hstored r hr)⟩

/-- A step keeps the registers exactly if it restores right. -/
theorem regsKept_step_iff (h : TbgenInv I s) (hk : RegsKept I s) (i : Move M) :
    RegsKept I (tbgenStep s i).1 ↔ RestoresRight I s i := by
  cases i with
  | start m =>
    refine iff_of_true ?_ trivial
    unfold tbgenStep
    simp only
    split
    · next hidle =>
      refine (Function.forall_update_iff s.calls fun m' c => Kept (I m') c (s.reg m')).mpr
        ⟨fun r _ => ?_, fun m' _ => hk m'⟩
      exact hk m r (by rw [hidle]; rfl)
    · exact hk
  | run m =>
    rw [restoresRight_iff h m]
    refine Iff.trans ?_ (kept_step_iff (h.fine m).seen (hk m))
    refine (forall_update₂_iff (P := fun m' => Kept (I m')) s.calls s.reg).trans (and_iff_left ?_)
    exact fun m' _ => hk m'

omit [DecidableEq M] in
theorem tbgenInv_start (I : M → Regs) (g : Regs) (tdd : M → Regs) :
    TbgenInv I (.start I g tdd) ∧ RegsKept I (.start I g tdd) :=
  ⟨⟨fun _ => ⟨fun r hr => (by cases hr), fun r hr => (by cases hr), fun r hr => (by cases hr)⟩,
      fun _ _ h => (by cases h)⟩, fun _ _ _ => rfl⟩

/-- **In every state of a run the registers that no call has touched hold their values
exactly if each restoring finds a register stored last for a modem with the same
value; and then all hold them when no call is under way.** -/
theorem registers_kept (I : M → Regs) (g : Regs) (tdd : M → Regs) (moves : List (Move M)) :
    ((∀ pre, pre <+: moves → RegsKept I (exec tbgenStep (.start I g tdd) pre)) ↔
      Guarded tbgenStep (RestoresRight I) (.start I g tdd) moves) ∧
    (Guarded tbgenStep (RestoresRight I) (.start I g tdd) moves →
      (∀ m, ((exec tbgenStep (.start I g tdd) moves).calls m).pc = .idle) →
      (exec tbgenStep (.start I g tdd) moves).reg = I) := by
  obtain ⟨hinv, hkept⟩ := tbgenInv_start I g tdd
  have hboth := inv_iff_guarded (J := TbgenInv I) (I := RegsKept I) (fun s i h hk => tbgenInv_step h hk i)
    (fun s i h hk => regsKept_step_iff h hk i) moves hinv hkept
  refine ⟨hboth, fun hg hidle => ?_⟩
  funext m r
  exact hboth.mpr hg moves (List.prefix_refl _) m r (by rw [hidle m]; rfl)

/-- A call stores a register while every other call that has stored it, and not
restored it, is for a modem with the same value. -/
def Apart (I : M → Regs) (s : Tbgen M) : Move M → Prop
  | .start _ => True
  | .run m => ∀ r, (s.calls m).pc = .store r → ∀ m', m' ≠ m → (s.calls m').pc.stored r = true → I m' r = I m r

/-- What a call has stored was stored last for a modem with the same value. -/
def Agreed (I : M → Regs) (s : Tbgen M) : Prop :=
  ∀ m r, (s.calls m).pc.stored r = true → ∀ m' ∈ s.owner r, I m' r = I m r

/-- A step of a call that stores nothing has nothing more to restore. -/
theorem stored_of_step {c : Call} {reg g : Regs} {r : Reg} (h : (c.step reg g).1.pc.stored r = true)
    (hpc : c.pc ≠ .store r) : c.pc.stored r = true := by
  obtain ⟨pc, tdd⟩ := c
  cases pc with
  | idle => exact h
  | read r' => cases r' <;> cases h
  | store r' => cases r <;> cases r' <;> first | rfl | exact absurd rfl hpc | cases h
  | lowOff r' => rfl
  | body => rfl
  | reread r' => rfl
  | lowOn r' => rfl
  | look r' => exact h
  | cmp r' =>
    simp only [Call.step] at h
    split at h
    · exact h
    · cases r' <;> cases r <;> first | rfl | cases h
  | back r' => cases r' <;> cases r <;> first | rfl | cases h

theorem agreed_step {i : Move M} (h : Agreed I s) (ha : Apart I s i) : Agreed I (tbgenStep s i).1 := by
  cases i with
  | start m =>
    unfold tbgenStep
    simp only
    split
    · intro m' r hr
      by_cases he : m' = m
      · subst he
        simp only [Function.update_self] at hr
        cases hr
      · simp only [Function.update_of_ne he] at hr
        exact h m' r hr
    · exact h
  | run m =>
    intro m' r hr m'' hm''
    change (Function.update s.calls m _ m').pc.stored r = true at hr
    change ownerAfter m (s.calls m).pc s.owner r = some m'' at hm''
    unfold ownerAfter at hm''
    by_cases hpc : (s.calls m).pc = .store r
    · rw [if_pos hpc] at hm''
      obtain rfl := Option.some.inj hm''
      by_cases he : m' = m
      · rw [he]
      · rw [Function.update_of_ne he] at hr
        exact (ha r hpc m' he hr).symm
    · rw [if_neg hpc] at hm''
      by_cases he : m' = m
      · subst he
        rw [Function.update_self] at hr
        exact h m' r (stored_of_step hr hpc) m'' hm''
      · rw [Function.update_of_ne he] at hr
        exact h m' r hr m'' hm''

/-- **Calls of modems with different values that do not overlap restore right.** -/
theorem restores_of_apart (I : M → Regs) (g : Regs) (tdd : M → Regs) (moves : List (Move M))
    (ha : Guarded tbgenStep (Apart I) (.start I g tdd) moves) :
    Guarded tbgenStep (RestoresRight I) (.start I g tdd) moves := by
  refine guarded_of_inv (I := Agreed I) (fun s i h => agreed_step h) ?_ moves ?_ ha
  · intro s i h _
    cases i with
    | start m => trivial
    | run m =>
      constructor
      · exact fun r hpc m' hm' _ => h m r (by rw [hpc]; cases r <;> rfl) m' hm'
      · exact fun r hpc m' hm' => h m r (by rw [hpc]; cases r <;> rfl) m' hm'
  · intro m r hr
    cases hr

end Moves

end Run

/-- Two modems; the low power bit is set in both, and in one another bit as well. -/
def twoRegs (m : Bool) : Regs := fun _ => if m then 0x101 else 0x100

/-- `n` steps of the call of modem `m`. -/
def steps (m : Bool) (n : ℕ) : List (Move Bool) := List.replicate n (.run m)

/-- One call after the other. -/
def oneByOne : List (Move Bool) :=
  .start true :: steps true 17 ++ .start false :: steps false 17

/-- The second call stores its registers before the first restores its own. -/
def overlapping : List (Move Bool) :=
  .start false :: steps false 4 ++ .start true :: steps true 17 ++ steps false 15

/-- A step's condition is checked modem by modem. -/
instance decidableApart (s : Tbgen Bool) : ∀ i, Decidable (Apart twoRegs s i)
  | .start _ => inferInstanceAs (Decidable True)
  | .run m => inferInstanceAs (Decidable (∀ r, (s.calls m).pc = .store r → ∀ m', m' ≠ m →
      (s.calls m').pc.stored r = true → twoRegs m' r = twoRegs m r))

/-- One call after the other keeps the registers. -/
theorem registers_kept_one_by_one :
    (exec tbgenStep (.start twoRegs (fun _ => 0) fun _ _ => 0) oneByOne).reg = twoRegs := by
  have hapart : Guarded tbgenStep (Apart twoRegs) (.start twoRegs (fun _ => 0) fun _ _ => 0) oneByOne := by
    decide +kernel
  exact (registers_kept twoRegs (fun _ => 0) (fun _ _ => 0) oneByOne).2
    (restores_of_apart twoRegs _ _ oneByOne hapart) (by decide +kernel)

/-- The call of the first modem restores what the call of the second has stored. -/
theorem overlapping_swapped :
    ¬ ∀ (I : Bool → Regs) (g : Regs) (tdd : Bool → Regs) (moves : List (Move Bool)),
      (∀ m, ((exec tbgenStep (.start I g tdd) moves).calls m).pc = .idle) →
        (exec tbgenStep (.start I g tdd) moves).reg = I := by
  intro hall
  have hidle : ∀ m, ((exec tbgenStep (.start twoRegs (fun _ => 0) fun _ _ => 0) overlapping).calls m).pc = .idle := by
    decide +kernel
  have hkept := congrFun (congrFun (hall twoRegs _ _ overlapping hidle) false) .ctrl1
  have hswapped : (exec tbgenStep (.start twoRegs (fun _ => 0) fun _ _ => 0) overlapping).reg false .ctrl1 = 0x101 := by
    decide +kernel
  rw [hswapped] at hkept
  exact absurd hkept (by decide)

end Dcs
end La12xx
