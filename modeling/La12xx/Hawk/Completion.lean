/-
# When a Hawk command is complete

The host reads the cores' results in index order and keeps only the last one,
and while it waits for any core it looks at the status word of core 0. So a
call that selects one core, with no earlier command left over there or at
core 0, is told the truth (`HawkInv`), if the core writes its result before
DONE; and every other call that gets as far as posting its command can be
fooled: by a last core that answers OK (`fooled_by_last`), by core 0
(`fooled_by_zero`), and by the zero the copy of the command leaves in the
result word of a core that writes DONE first (`fooled_by_late`).
-/
import La12xx.Hawk.SwCmd

namespace La12xx
namespace Hawk

open Machine

/-! ### What a core's step does -/

/-- What belongs to one core. -/
structure CoreView where
  status : BitVec 32
  result : BitVec 32
  core : Core
  completed : Bool
  failed : Bool

def HawkState.view (s : HawkState) (i : ℕ) : CoreView :=
  ⟨s.status i, s.result i, s.cores i, s.completed i, s.failed i⟩

/-- One step of a core: `posted` says whether the command of the call is in
the descriptor, `first` that the core writes the result of this command before
DONE. -/
inductive CoreStep (H : HawkIf) (posted first : Bool) (v : CoreView) : CoreView → Prop
  | rest : CoreStep H posted first v v
  | take (hidle : v.core = .idle) (hpost : v.status = H.statusPosted) :
      CoreStep H posted first v { v with core := .executing posted }
  | result {current : Bool} (x : BitVec 32) (hcore : v.core = .executing current) :
      CoreStep H posted first v { v with core := .wroteResult current, result := x,
                                         failed := v.failed || (current && decide (x.toInt ≠ hawkSwCmdResultOk)) }
  | late {current : Bool} (x : BitVec 32) (hcore : v.core = .wroteDone current) :
      CoreStep H posted first v { v with core := .idle, result := x,
                                         failed := v.failed || (current && decide (x.toInt ≠ hawkSwCmdResultOk)) }
  | done {current : Bool} (hcore : v.core = .wroteResult current) :
      CoreStep H posted first v { v with core := .idle, status := H.statusDone,
                                         completed := v.completed || current }
  | early {current : Bool} (hcore : v.core = .executing current) (hfirst : (first && current) = false) :
      CoreStep H posted first v { v with core := .wroteDone current, status := H.statusDone,
                                         completed := v.completed || current }

section Cores

variable {H : HawkIf} {coreMask : BitVec 32} {first : Bool} {s t : HawkState}

/-- One core's step, as the host can notice it. -/
structure CoreMove (H : HawkIf) (first : Bool) (s t : HawkState) (i : ℕ) : Prop where
  pc : t.pc = s.pc
  ret : t.ret = s.ret
  confirmed : t.confirmed = s.confirmed
  frame : ∀ j ≠ i, t.view j = s.view j
  own : CoreStep H s.pc.isPosted first (s.view i) (t.view i)

/-- What every step of a core keeps, a core's step in a run keeps for each of them. -/
theorem CoreMove.keeps {i : ℕ} (h : CoreMove H first s t i) {P : CoreView → Prop}
    (hP : ∀ v w, CoreStep H s.pc.isPosted first v w → P v → P w) {k : ℕ} (hk : P (s.view k)) : P (t.view k) := by
  by_cases hki : k = i
  · subst hki
    exact hP _ _ h.own hk
  · rw [h.frame k hki]
    exact hk

theorem CoreMove.refl (s : HawkState) (i : ℕ) : CoreMove H first s s i :=
  ⟨rfl, rfl, rfl, fun _ _ => rfl, .rest⟩

theorem writeResult_view (s : HawkState) (i : ℕ) (v : BitVec 32) (core : Core) (current : Bool) :
    (writeResult s i v core current).view i =
      { s.view i with core := core, result := v,
                      failed := s.failed i || (current && decide (v.toInt ≠ hawkSwCmdResultOk)) } := by
  simp [HawkState.view, writeResult]

theorem writeDone_view (s : HawkState) (i : ℕ) (core : Core) (current : Bool) :
    (writeDone H s i core current).view i =
      { s.view i with core := core, status := H.statusDone, completed := s.completed i || current } := by
  simp [HawkState.view, writeDone]

theorem core_move (s : HawkState) {r : HawkInput} (hr : r ≠ .host) (hfirst : first = true → ResultFirst s r) :
    ∃ i, CoreMove H first s (hawkStep H coreMask s r).1 i := by
  match r with
  | .host => exact absurd rfl hr
  | .take i =>
    refine ⟨i, ?_⟩
    simp only [hawkStep, coreTake]
    split_ifs with h
    · obtain ⟨-, hidle, hpost⟩ := h
      refine ⟨rfl, rfl, rfl, fun j hj => by simp [HawkState.view, hj], ?_⟩
      have hview : ({ s with cores := Function.update s.cores i (.executing s.pc.isPosted) } : HawkState).view i =
          { s.view i with core := .executing s.pc.isPosted } := by
        simp [HawkState.view]
      rw [hview]
      exact .take hidle hpost
    · exact CoreMove.refl s i
  | .result i v =>
    refine ⟨i, ?_⟩
    simp only [hawkStep, coreResult]
    split
    · rename_i current hc
      refine ⟨rfl, rfl, rfl, fun j hj => by simp [HawkState.view, writeResult, hj], ?_⟩
      rw [writeResult_view]
      exact .result v hc
    · rename_i current hc
      refine ⟨rfl, rfl, rfl, fun j hj => by simp [HawkState.view, writeResult, hj], ?_⟩
      rw [writeResult_view]
      exact .late v hc
    · exact CoreMove.refl s i
  | .done i =>
    refine ⟨i, ?_⟩
    simp only [hawkStep, coreDone]
    split
    · rename_i current hc
      refine ⟨rfl, rfl, rfl, fun j hj => by simp [HawkState.view, writeDone, hj], ?_⟩
      rw [writeDone_view]
      refine .early hc ?_
      cases first with
      | false => rfl
      | true =>
        have hne : s.cores i ≠ .executing true := hfirst rfl
        cases current with
        | false => rfl
        | true => exact absurd hc hne
    · rename_i current hc
      refine ⟨rfl, rfl, rfl, fun j hj => by simp [HawkState.view, writeDone, hj], ?_⟩
      rw [writeDone_view]
      exact .done hc
    · exact CoreMove.refl s i

/-- A run from the start keeps what a core's step and the host's step keep. -/
theorem hawk_run {I : HawkState → Prop} (hcore : ∀ s t i, CoreMove H first s t i → I s → I t)
    (hhost : ∀ s, I s → I (hawkSendSwcmd H coreMask s)) {s : HawkState} (h : I s) {rs : List HawkInput}
    (hg : Guarded (hawkStep H coreMask) (fun s r => first = true → ResultFirst s r) s rs) :
    I (exec (hawkStep H coreMask) s rs) := by
  refine exec_inv_of_guarded (fun s r hs hfirst => ?_) rs h hg
  by_cases hr : r = .host
  · subst hr
    exact hhost s hs
  · obtain ⟨i, hm⟩ := core_move s hr hfirst
    exact hcore s _ i hm hs

end Cores

/-! ### One core -/

section OneCore

variable {H : HawkIf} {coreMask : BitVec 32} {s t : HawkState} {i₀ : ℕ}

/-- Before the command is posted: whatever a core does is for an earlier
command, and if its status word reads FREE it writes no DONE. -/
structure Before (H : HawkIf) (v : CoreView) : Prop where
  quiet : v.status = H.statusFree → v.core.pending = none
  earlier : v.core.earlier = v.core
  failed : v.failed = false

/-- While the host waits for a core: DONE is for this command and after its
result, and the word of an error stays. -/
structure Awaited (H : HawkIf) (v : CoreView) : Prop where
  current : ∀ c, v.core.pending = some c → c = true
  first : v.core ≠ .wroteDone true
  done : v.status = H.statusDone → v.completed = true ∧ v.core = .idle
  error : v.failed = true → v.result.toInt ≠ hawkSwCmdResultOk ∧
    (v.core = .wroteResult true ∨ v.core = .idle ∧ v.status ≠ H.statusPosted)

/-- The status word of the core stays as it is. -/
def Silent (H : HawkIf) (v : CoreView) : Prop :=
  v.core.pending = none ∧ v.status ≠ H.statusPosted ∧ v.status ≠ H.statusDone

/-- The core is through with the command, and has reported no error for it. -/
def Passed (H : HawkIf) (v : CoreView) : Prop :=
  v.failed = false ∧ v.core = .idle ∧ v.status ≠ H.statusPosted

theorem CoreStep.before {v w : CoreView} {first : Bool} (h : CoreStep H false first v w) (hb : Before H v) :
    Before H w := by
  -- a core at an earlier command has nothing to report for this one
  have hold : ∀ c, v.core = .executing c ∨ v.core = .wroteResult c ∨ v.core = .wroteDone c → c = false := by
    intro c hc
    have := hb.earlier
    rcases hc with hc | hc | hc <;> rw [hc] at this <;> cases c <;> first | rfl | cases this
  cases h with
  | rest => exact hb
  | take hidle hpost =>
    exact ⟨fun hf => absurd (hpost.symm.trans hf) H.posted_ne_free, rfl, hb.failed⟩
  | result x hcore =>
    obtain rfl := hold _ (Or.inl hcore)
    refine ⟨fun hf => ?_, rfl, by simp [hb.failed]⟩
    have := hb.quiet hf
    rw [hcore] at this
    cases this
  | late x hcore =>
    obtain rfl := hold _ (Or.inr (Or.inr hcore))
    exact ⟨fun _ => rfl, rfl, by simp [hb.failed]⟩
  | done hcore => exact ⟨fun _ => rfl, rfl, hb.failed⟩
  | early hcore hfirst =>
    obtain rfl := hold _ (Or.inl hcore)
    exact ⟨fun _ => rfl, rfl, hb.failed⟩

/-- A word that reads FREE stays FREE. -/
theorem CoreStep.free {v w : CoreView} {posted first : Bool} (h : CoreStep H posted first v w)
    (hq : v.status = H.statusFree → v.core.pending = none) (hf : v.status = H.statusFree) :
    w.status = H.statusFree := by
  have hp := hq hf
  cases h with
  | rest | take | result | late => exact hf
  | done hcore | early hcore =>
    rw [hcore] at hp
    cases hp

theorem CoreStep.awaited {v w : CoreView} (h : CoreStep H true true v w) (ha : Awaited H v) : Awaited H w := by
  -- an error is only in the word of a core that is through with the result
  have hok : (∀ c, v.core ≠ .wroteResult c) → (v.core = .idle → v.status = H.statusPosted) → v.failed = false := by
    intro hne hidle
    by_contra hf
    rcases (ha.error (by simpa using hf)).2 with hc | ⟨hc, hs⟩
    · exact hne true hc
    · exact hs (hidle hc)
  have hbusy : v.core ≠ .idle → v.status ≠ H.statusDone := fun hne hs => hne (ha.done hs).2
  cases h with
  | rest => exact ha
  | take hidle hpost =>
    refine ⟨fun c hc => (Option.some.inj hc).symm, nofun,
      fun hs => absurd (hpost.symm.trans hs) H.posted_ne_done, fun hf => ?_⟩
    rw [hok (by simp [hidle]) (fun _ => hpost)] at hf
    cases hf
  | @result current x hcore =>
    obtain rfl := ha.current current (by rw [hcore]; rfl)
    have hfalse := hok (by simp [hcore]) (by simp [hcore])
    refine ⟨fun c hc => (Option.some.inj hc).symm, nofun, fun hs => absurd hs (hbusy (by simp [hcore])), fun hf => ?_⟩
    exact ⟨by simpa [hfalse] using hf, Or.inl rfl⟩
  | @late current x hcore =>
    have hfalse := hok (by simp [hcore]) (by simp [hcore])
    cases current with
    | true => exact absurd hcore ha.first
    | false =>
      refine ⟨nofun, nofun, fun hs => absurd hs (hbusy (by simp [hcore])), fun hf => ?_⟩
      simp [hfalse] at hf
  | @done current hcore =>
    obtain rfl := ha.current current (by rw [hcore]; rfl)
    exact ⟨nofun, nofun, fun _ => ⟨Bool.or_true _, rfl⟩,
      fun hf => ⟨(ha.error hf).1, Or.inr ⟨rfl, H.posted_ne_done.symm⟩⟩⟩
  | @early current hcore hfirst =>
    obtain rfl := ha.current current (by rw [hcore]; rfl)
    cases hfirst

/-- A DONE the host waits for stays. -/
theorem CoreStep.still_done {v w : CoreView} {posted first : Bool} (h : CoreStep H posted first v w)
    (hs : v.status = H.statusDone) : w.status = H.statusDone := by
  cases h with
  | rest | take | result | late => exact hs
  | done | early => rfl

theorem CoreStep.silent {v w : CoreView} {posted first : Bool} (h : CoreStep H posted first v w)
    (hz : Silent H v) : Silent H w := by
  obtain ⟨hp, hnp, hnd⟩ := hz
  cases h with
  | rest => exact ⟨hp, hnp, hnd⟩
  | take hidle hpost => exact absurd hpost hnp
  | late x hcore => exact ⟨rfl, hnp, hnd⟩
  | result _ hcore | done hcore | early hcore =>
    rw [hcore] at hp
    cases hp

theorem CoreStep.passed {v w : CoreView} {posted first : Bool} (h : CoreStep H posted first v w)
    (hv : Passed H v) : Passed H w := by
  obtain ⟨hf, hidle, hnp⟩ := hv
  cases h with
  | rest => exact ⟨hf, hidle, hnp⟩
  | take _ hpost => exact absurd hpost hnp
  | result _ hcore | late _ hcore | done hcore | early hcore =>
    rw [hidle] at hcore
    cases hcore

/-- Core `i₀` is the one waited for, and the word of core 0, if that is
another core, stays as it is. -/
def During (H : HawkIf) (i₀ : ℕ) (s : HawkState) : Prop :=
  Awaited H (s.view i₀) ∧ (i₀ ≠ 0 → Silent H (s.view 0))

/-- Core `i₀` has completed the command, with OK. -/
def Told (H : HawkIf) (i₀ : ℕ) (s : HawkState) : Prop :=
  s.confirmed i₀ = true ∧ Passed H (s.view i₀)

/-- What holds where the host stands in a call that selects the one core `i₀`. -/
def HawkInv (H : HawkIf) (i₀ : ℕ) (s : HawkState) : Prop :=
  match s.pc with
  | .busyTest j => ∀ k, k = i₀ ∨ k = 0 → Before H (s.view k) ∧ (k < j → s.status k = H.statusFree)
  | .post => ∀ k, k = i₀ ∨ k = 0 → Before H (s.view k) ∧ s.status k = H.statusFree
  | .poll j _ => (j ≤ i₀ → During H i₀ s) ∧ (i₀ < j → s.ret = hawkSwCmdResultOk → Told H i₀ s)
  | .wait i _ cmdStatus => During H i₀ s ∧ i = i₀ ∧ (cmdStatus = H.statusDone → s.status i₀ = H.statusDone)
  | .readResult i _ => During H i₀ s ∧ i = i₀ ∧ s.status i₀ = H.statusDone
  | .out _ | .returned => s.ret = hawkSwCmdResultOk → Told H i₀ s

theorem CoreMove.during {i : ℕ} (h : CoreMove H true s t i) (hp : s.pc.isPosted = true) (hd : During H i₀ s) :
    During H i₀ t := by
  refine ⟨h.keeps (fun v w hvw => ?_) hd.1, fun h0 => h.keeps (fun v w hvw => hvw.silent) (hd.2 h0)⟩
  rw [hp] at hvw
  exact hvw.awaited

theorem CoreMove.done {i k : ℕ} {first : Bool} (h : CoreMove H first s t i) (hs : s.status k = H.statusDone) :
    t.status k = H.statusDone :=
  h.keeps (P := fun v => v.status = H.statusDone) (fun _ _ hvw => hvw.still_done) hs

theorem CoreMove.told {i : ℕ} {first : Bool} (h : CoreMove H first s t i) (ht : Told H i₀ s) : Told H i₀ t :=
  ⟨by rw [h.confirmed]; exact ht.1, h.keeps (fun _ _ hvw => hvw.passed) ht.2⟩

/-- Before the command is posted, a core's step changes nothing for the busy test. -/
theorem CoreMove.before {i k : ℕ} {first : Bool} (h : CoreMove H first s t i) (hp : s.pc.isPosted = false)
    (hb : Before H (s.view k)) :
    Before H (t.view k) ∧ (s.status k = H.statusFree → t.status k = H.statusFree) := by
  refine h.keeps (P := fun v => Before H v ∧ (s.status k = H.statusFree → v.status = H.statusFree)) ?_ ⟨hb, id⟩
  rintro v w hvw ⟨hv, hf⟩
  rw [hp] at hvw
  exact ⟨hvw.before hv, fun hs => hvw.free hv.quiet (hf hs)⟩

theorem HawkInv.core_step {i : ℕ} (hm : CoreMove H true s t i) (h : HawkInv H i₀ s) : HawkInv H i₀ t := by
  unfold HawkInv at h ⊢
  rw [hm.pc]
  have hposted : ∀ pc, s.pc = pc → pc.isPosted = true → During H i₀ s → During H i₀ t :=
    fun pc hpc hp => hm.during (by rw [hpc]; exact hp)
  cases hpc : s.pc with
  | busyTest j =>
    rw [hpc] at h
    intro k hk
    obtain ⟨hb, hf⟩ := hm.before (by rw [hpc]; rfl) (h k hk).1
    exact ⟨hb, fun hj => hf ((h k hk).2 hj)⟩
  | post =>
    rw [hpc] at h
    intro k hk
    obtain ⟨hb, hf⟩ := hm.before (by rw [hpc]; rfl) (h k hk).1
    exact ⟨hb, hf (h k hk).2⟩
  | poll j r =>
    rw [hpc] at h
    refine ⟨fun hj => hposted _ hpc rfl (h.1 hj), fun hj hret => hm.told (h.2 hj ?_)⟩
    rw [← hm.ret]
    exact hret
  | wait i r c =>
    rw [hpc] at h
    exact ⟨hposted _ hpc rfl h.1, h.2.1, fun hc => hm.done (h.2.2 hc)⟩
  | readResult i r =>
    rw [hpc] at h
    exact ⟨hposted _ hpc rfl h.1, h.2.1, hm.done h.2.2⟩
  | out j | returned =>
    rw [hpc] at h
    intro hret
    rw [hm.ret] at hret
    exact hm.told (h hret)

theorem ebusy_ne_ok : -ebusy ≠ hawkSwCmdResultOk := by decide

/-- The post: the one core has nothing left of an earlier command, and neither has core 0. -/
theorem hawkInv_post (hi : i₀ < H.e200CoreCount) (hsel : selected coreMask i₀ = true)
    (huniq : ∀ j < H.e200CoreCount, selected coreMask j = true → j = i₀) (hpc : s.pc = .post)
    (h : ∀ k, k = i₀ ∨ k = 0 → Before H (s.view k) ∧ s.status k = H.statusFree) :
    HawkInv H i₀ (hawkSendSwcmd H coreMask s) := by
  obtain ⟨hb, hf⟩ := h i₀ (Or.inl rfl)
  have hidle : (s.cores i₀).pending = none := hb.quiet hf
  unfold hawkSendSwcmd
  rw [hpc]
  refine ⟨fun _ => ⟨⟨fun c hc => ?_, fun hc => ?_, fun hs => ?_, fun hfail => ?_⟩, fun h0 => ?_⟩,
    fun hlt => absurd hlt (Nat.not_lt_zero _)⟩
  · exact absurd (hidle.symm.trans hc) nofun
  · -- a core that owes a result owes it to an earlier command
    have hearlier : (s.cores i₀).earlier = s.cores i₀ := hb.earlier
    rw [show s.cores i₀ = .wroteDone true from hc] at hearlier
    cases hearlier
  · simp only [HawkState.view, hi, if_true, postedStatus, hsel] at hs
    exact absurd hs H.posted_ne_done
  · exact absurd (hb.failed.symm.trans hfail) nofun
  · have hns : selected coreMask 0 ≠ true := fun hz => h0 (huniq 0 (by omega) hz).symm
    have h0n : 0 < H.e200CoreCount := by omega
    obtain ⟨hb0, hf0⟩ := h 0 (Or.inr rfl)
    simp only [Silent, HawkState.view, h0n, if_true, postedStatus, hns]
    exact ⟨hb0.quiet hf0, H.zero_ne_posted, H.zero_ne_done⟩

/-- The result of a core that is done is the one of this command. -/
theorem hawkInv_readResult {r : ℕ} (hpc : s.pc = .readResult i₀ r) (hd : During H i₀ s)
    (hs : s.status i₀ = H.statusDone) : HawkInv H i₀ (hawkSendSwcmd H coreMask s) := by
  obtain ⟨hcomp, hidle⟩ : s.completed i₀ = true ∧ s.cores i₀ = .idle := hd.1.done hs
  unfold hawkSendSwcmd
  rw [hpc]
  refine ⟨fun hle => absurd hle (by omega), fun _ hret => ?_⟩
  have hret' : (s.result i₀).toInt = hawkSwCmdResultOk := hret
  refine ⟨by simp [hcomp, hs, hret'], ?_, hidle, fun hp => H.posted_ne_done (hp.symm.trans hs)⟩
  by_contra hf
  have hfail : s.failed i₀ = true := by simpa [HawkState.view] using hf
  exact (hd.1.error hfail).1 hret'

theorem HawkInv.host_step (hi : i₀ < H.e200CoreCount) (hsel : selected coreMask i₀ = true)
    (huniq : ∀ j < H.e200CoreCount, selected coreMask j = true → j = i₀) (h : HawkInv H i₀ s) :
    HawkInv H i₀ (hawkSendSwcmd H coreMask s) := by
  unfold hawkSendSwcmd
  unfold HawkInv at h
  cases hpc : s.pc with
  | busyTest j =>
    rw [hpc] at h
    simp only
    split_ifs with hj hs
    · exact fun hret => absurd hret ebusy_ne_ok
    · refine fun k hk => ⟨(h k hk).1, fun hkj => ?_⟩
      rcases Nat.lt_succ_iff_lt_or_eq.mp hkj with hkj | rfl
      · exact (h k hk).2 hkj
      · exact not_not.mp hs
    · refine fun k hk => ⟨(h k hk).1, (h k hk).2 ?_⟩
      rcases hk with rfl | rfl <;> omega
  | post =>
    rw [hpc] at h
    have hpost := hawkInv_post hi hsel huniq hpc h
    rwa [hawkSendSwcmd, hpc] at hpost
  | poll j r =>
    rw [hpc] at h
    simp only
    split_ifs with hj hsj
    · obtain rfl := huniq j hj hsj
      exact ⟨h.1 le_rfl, rfl, id⟩
    · have : i₀ ≠ j := fun he => hsj (he ▸ hsel)
      exact ⟨fun hle => h.1 (by omega), fun hlt => h.2 (by omega)⟩
    · exact h.2 (by omega)
  | wait i r c =>
    rw [hpc] at h
    obtain ⟨hd, rfl, hc⟩ := h
    simp only
    split_ifs with h1 h2
    · refine ⟨hd, rfl, fun h0 => ?_⟩
      by_cases hz : i = 0
      · rw [hz]
        exact h0
      · exact absurd h0 (hd.2 hz).2.2
    · exact fun hret => absurd hret ebusy_ne_ok
    · refine ⟨hd, rfl, hc ?_⟩
      by_contra hn
      by_cases hr : r = 0
      · exact h2 ⟨hr, hn⟩
      · exact h1 ⟨hr, hn⟩
  | readResult i r =>
    rw [hpc] at h
    obtain ⟨hd, rfl, hs⟩ := h
    have hread : HawkInv H i (hawkSendSwcmd H coreMask s) := hawkInv_readResult hpc hd hs
    rwa [hawkSendSwcmd, hpc] at hread
  | out j =>
    rw [hpc] at h
    simp only
    split_ifs with hj
    · refine fun hret => ⟨(h hret).1, (h hret).2.1, (h hret).2.2.1, ?_⟩
      show Function.update s.status j H.statusFree i₀ ≠ H.statusPosted
      rcases eq_or_ne i₀ j with rfl | hne
      · rw [Function.update_self]
        exact H.posted_ne_free.symm
      · rw [Function.update_of_ne hne]
        exact (h hret).2.2.2
    · exact h
  | returned =>
    simp only
    unfold HawkInv
    rw [hpc] at h ⊢
    exact h

end OneCore

/-! ### The runs that fool the host -/

section Fooled

variable {H : HawkIf} {coreMask : BitVec 32} {s t u : HawkState}

/-- Some run in which every core writes its result first leads from `s` to `t`. -/
def Leads (H : HawkIf) (coreMask : BitVec 32) (s t : HawkState) : Prop :=
  ∃ rs, Guarded (hawkStep H coreMask) ResultFirst s rs ∧ exec (hawkStep H coreMask) s rs = t

theorem Leads.refl (s : HawkState) : Leads H coreMask s s := ⟨[], trivial, rfl⟩

theorem Leads.trans (h : Leads H coreMask s t) (h' : Leads H coreMask t u) : Leads H coreMask s u := by
  obtain ⟨rs, hg, rfl⟩ := h
  obtain ⟨rs', hg', rfl⟩ := h'
  exact ⟨rs ++ rs', guarded_append.mpr ⟨hg, hg'⟩, exec_append _ s rs rs'⟩

theorem Leads.reaches (h : Leads H coreMask s t) : Reaches (hawkStep H coreMask) s t := by
  obtain ⟨rs, -, hrs⟩ := h
  exact ⟨rs, hrs⟩

theorem leads_host (h : Leads H coreMask (hawkSendSwcmd H coreMask s) t) : Leads H coreMask s t := by
  obtain ⟨rs, hg, hrs⟩ := h
  exact ⟨.host :: rs, ⟨trivial, hg⟩, hrs⟩

/-- The host does nothing to the cores. -/
theorem hawkSendSwcmd_cores (s : HawkState) : (hawkSendSwcmd H coreMask s).cores = s.cores := by
  unfold hawkSendSwcmd
  split <;> (try split_ifs) <;> rfl

/-- The busy tests pass when every status word reads FREE. -/
theorem leads_post (hfree : ∀ i < H.e200CoreCount, s.status i = H.statusFree) :
    ∀ k j, j + k = H.e200CoreCount →
      Leads H coreMask { s with pc := .busyTest j } { s with pc := .post }
  | 0, j, hj => by
    refine leads_host ?_
    simp only [hawkSendSwcmd, show ¬ j < H.e200CoreCount by omega, if_false]
    exact Leads.refl _
  | k + 1, j, hj => by
    refine leads_host ?_
    have hlt : j < H.e200CoreCount := by omega
    simp only [hawkSendSwcmd, hlt, hfree j hlt, if_true, ne_eq, not_true_eq_false, if_false]
    exact leads_post hfree k (j + 1) (by omega)

/-- The end of the call: the status words become FREE. -/
theorem leads_returned (coreMask : BitVec 32) : ∀ k j (s : HawkState), j + k = H.e200CoreCount → s.pc = .out j →
    ∃ t, Leads H coreMask s t ∧ t.pc = .returned ∧ t.ret = s.ret ∧ t.confirmed = s.confirmed ∧ t.cores = s.cores
  | 0, j, s, hj, hpc => by
    refine ⟨_, leads_host (Leads.refl _), ?_⟩
    simp only [hawkSendSwcmd, hpc, show ¬ j < H.e200CoreCount by omega, if_false]
    exact ⟨trivial, trivial, trivial, trivial⟩
  | k + 1, j, s, hj, hpc => by
    obtain ⟨t, ht, h1, h2, h3, h4⟩ := leads_returned coreMask k (j + 1) (hawkSendSwcmd H coreMask s) (by omega)
      (by simp [hawkSendSwcmd, hpc, show j < H.e200CoreCount by omega])
    refine ⟨t, leads_host ht, h1, h2.trans ?_, h3.trans ?_, h4.trans (hawkSendSwcmd_cores s)⟩ <;>
      simp [hawkSendSwcmd, hpc, show j < H.e200CoreCount by omega]

/-- The state differs from `s` at most in what belongs to the cores in `A`. -/
structure SameOff (A : ℕ → Prop) (s t : HawkState) : Prop where
  pc : t.pc = s.pc
  ret : t.ret = s.ret
  confirmed : t.confirmed = s.confirmed
  off : ∀ j, ¬ A j → t.status j = s.status j ∧ t.result j = s.result j ∧ t.cores j = s.cores j ∧
    t.completed j = s.completed j

/-- A core has finished: the one at an earlier command with that one. -/
def Finished (H : HawkIf) (s t : HawkState) (x : BitVec 32) (i : ℕ) : Prop :=
  t.status i = H.statusDone ∧ ((s.cores i).pending = none → t.result i = x) ∧
    ((s.cores i).pending ≠ none → t.result i = 0 ∧ t.completed i = false)

/-- A core can finish on its own, with any result if it is at no earlier
command. -/
theorem leads_finished (coreMask : BitVec 32) {i : ℕ} (hi : i < H.e200CoreCount) (hp : s.pc.isPosted = true)
    (hst : s.status i = H.statusPosted) (hres : s.result i = 0) (hcomp : s.completed i = false)
    {c : Core} (hc : s.cores i = c.earlier) (x : BitVec 32) :
    ∃ t, Leads H coreMask s t ∧ SameOff (· = i) s t ∧ Finished H s t x i := by
  cases c with
  | idle =>
    refine ⟨_, ⟨[.take i, .result i x, .done i], ?_, rfl⟩, ⟨?_, ?_, ?_, fun j hj => ?_⟩, ?_, ?_, ?_⟩ <;>
      simp_all [exec, hawkStep, coreTake, coreResult, writeResult, coreDone, writeDone, Core.earlier, Core.pending,
        Guarded, ResultFirst]
  | executing b =>
    refine ⟨_, ⟨[.done i], ?_, rfl⟩, ⟨?_, ?_, ?_, fun j hj => ?_⟩, ?_, ?_, ?_⟩ <;>
      simp_all [exec, hawkStep, coreDone, writeDone, Core.earlier, Core.pending, Guarded, ResultFirst]
  | wroteResult b =>
    refine ⟨_, ⟨[.done i], ?_, rfl⟩, ⟨?_, ?_, ?_, fun j hj => ?_⟩, ?_, ?_, ?_⟩ <;>
      simp_all [exec, hawkStep, coreDone, writeDone, Core.earlier, Core.pending, Guarded, ResultFirst]
  | wroteDone b =>
    refine ⟨_, ⟨[.result i 0, .take i, .result i x, .done i], ?_, rfl⟩, ⟨?_, ?_, ?_, fun j hj => ?_⟩, ?_, ?_, ?_⟩ <;>
      simp_all [exec, hawkStep, coreTake, coreResult, writeResult, coreDone, writeDone, Core.earlier, Core.pending,
        Guarded, ResultFirst]

/-- All selected cores below `m` can finish, one after the other. -/
theorem leads_all_finished (coreMask : BitVec 32) (hp : s.pc.isPosted = true)
    (hst : ∀ i < H.e200CoreCount, selected coreMask i = true → s.status i = H.statusPosted)
    (hres : ∀ i < H.e200CoreCount, s.result i = 0) (hcomp : ∀ i, s.completed i = false)
    (hc : ∀ i, ∃ c : Core, s.cores i = c.earlier) (x : ℕ → BitVec 32) :
    ∀ m, m ≤ H.e200CoreCount → ∃ t, Leads H coreMask s t ∧
      SameOff (fun i => i < m ∧ selected coreMask i = true) s t ∧
      ∀ i < m, selected coreMask i = true → Finished H s t (x i) i
  | 0, _ => ⟨s, Leads.refl s, ⟨rfl, rfl, rfl, fun _ _ => ⟨rfl, rfl, rfl, rfl⟩⟩,
      fun i hi => absurd hi (Nat.not_lt_zero i)⟩
  | m + 1, hm => by
    obtain ⟨t, hst', hoff, hfin⟩ := leads_all_finished coreMask hp hst hres hcomp hc x m (by omega)
    by_cases hsel : selected coreMask m = true
    · have hm' : m < H.e200CoreCount := hm
      obtain ⟨h1, h2, h3, h4⟩ := hoff.off m (by omega)
      obtain ⟨c, hcm⟩ := hc m
      obtain ⟨u, htu, hoff', hfin'⟩ := leads_finished coreMask hm' (hoff.pc ▸ hp)
        (h1.trans (hst m hm' hsel)) (h2.trans (hres m hm')) (h4.trans (hcomp m)) (h3.trans hcm) (x m)
      refine ⟨u, hst'.trans htu, ⟨hoff'.pc.trans hoff.pc, hoff'.ret.trans hoff.ret,
        hoff'.confirmed.trans hoff.confirmed, fun j hj => ?_⟩, fun i hi hi' => ?_⟩
      · obtain ⟨a1, a2, a3, a4⟩ := hoff.off j fun h => hj ⟨by omega, h.2⟩
        obtain ⟨b1, b2, b3, b4⟩ := hoff'.off j fun h => hj ⟨by omega, h ▸ hsel⟩
        exact ⟨b1.trans a1, b2.trans a2, b3.trans a3, b4.trans a4⟩
      · rcases Nat.lt_succ_iff_lt_or_eq.mp hi with hlt | rfl
        · obtain ⟨b1, b2, -, b4⟩ := hoff'.off i (by omega)
          have hf := hfin i hlt hi'
          unfold Finished at hf ⊢
          rw [b1, b2, b4]
          exact hf
        · unfold Finished at hfin' ⊢
          rw [← h3]
          exact hfin'
    · refine ⟨t, hst', ⟨hoff.pc, hoff.ret, hoff.confirmed, fun j hj => hoff.off j fun h => hj ⟨by omega, h.2⟩⟩,
        fun i hi hi' => ?_⟩
      have hne : i ≠ m := fun he => hsel (he ▸ hi')
      exact hfin i (by omega) hi'

/-- The host passes over cores that are not selected. -/
theorem leads_poll {r : ℕ} : ∀ k j, j + k ≤ H.e200CoreCount →
    (∀ i, j ≤ i → i < j + k → selected coreMask i = false) →
    Leads H coreMask { s with pc := .poll j r } { s with pc := .poll (j + k) r }
  | 0, j, _, _ => Leads.refl _
  | k + 1, j, hk, hno => by
    refine leads_host ?_
    simp only [hawkSendSwcmd, show j < H.e200CoreCount by omega, hno j le_rfl (by omega), if_true,
      Bool.false_eq_true, if_false]
    rw [show j + (k + 1) = j + 1 + k by omega]
    exact leads_poll k (j + 1) (by omega) fun i hi hi' => hno i (by omega) (by omega)

/-- What is left of the host's way through the cores leads to `out` with OK,
and confirms no core that is not done or has an error in its word. -/
def LeavesOk (H : HawkIf) (coreMask : BitVec 32) (s : HawkState) : Prop :=
  ∃ t, Leads H coreMask s t ∧ t.pc = .out 0 ∧ t.ret = hawkSwCmdResultOk ∧ t.cores = s.cores ∧
    ∀ a, s.completed a = false ∨ (s.result a).toInt ≠ hawkSwCmdResultOk → s.confirmed a = false →
      t.confirmed a = false

theorem LeavesOk.host (h : LeavesOk H coreMask (hawkSendSwcmd H coreMask s))
    (hsame : ∀ a, s.completed a = false ∨ (s.result a).toInt ≠ hawkSwCmdResultOk →
      ((hawkSendSwcmd H coreMask s).completed a = false ∨
        ((hawkSendSwcmd H coreMask s).result a).toInt ≠ hawkSwCmdResultOk) ∧
      (s.confirmed a = false → (hawkSendSwcmd H coreMask s).confirmed a = false)) : LeavesOk H coreMask s := by
  obtain ⟨t, ht, hpc, hret, hcores, hconf⟩ := h
  refine ⟨t, leads_host ht, hpc, hret, hcores.trans (hawkSendSwcmd_cores s), fun a ha hc => ?_⟩
  obtain ⟨hbad, hkeep⟩ := hsame a ha
  exact hconf a hbad (hkeep hc)

/-- With every selected core DONE, the host goes through all of them, and
returns the result of the last one, `b`. -/
theorem leavesOk_of_done {b r : ℕ} (hb : b < H.e200CoreCount)
    (hlast : ∀ i < H.e200CoreCount, b < i → selected coreMask i = false) :
    ∀ k j (s : HawkState), j + k = H.e200CoreCount → s.pc = .poll j r →
      (∀ i < H.e200CoreCount, selected coreMask i = true → s.status i = H.statusDone) →
      selected coreMask b = true → (s.result b).toInt = hawkSwCmdResultOk →
      (b < j → s.ret = hawkSwCmdResultOk) → LeavesOk H coreMask s
  | 0, j, s, hj, hpc, _, _, _, hret => by
    refine ⟨_, leads_host (Leads.refl _), ?_⟩
    simp only [hawkSendSwcmd, hpc, show ¬ j < H.e200CoreCount by omega, if_false]
    exact ⟨trivial, hret (by omega), trivial, fun _ _ hc => hc⟩
  | k + 1, j, s, hj, hpc, hdone, hsb, hres, hret => by
    have hlt : j < H.e200CoreCount := by omega
    by_cases hsel : selected coreMask j = true
    · have hdj := hdone j hlt hsel
      have hret' : b < j + 1 → (s.result j).toInt = hawkSwCmdResultOk := by
        intro hbj
        rcases eq_or_ne b j with rfl | hne
        · exact hres
        · exact absurd hsel (by simp [hlast j hlt (by omega)])
      -- the loop's test, the exit of the waiting loop, and the read of the result
      refine LeavesOk.host ?_ (by simp [hawkSendSwcmd, hpc, hlt, hsel])
      simp only [hawkSendSwcmd, hpc, hlt, hsel, if_true, hdj]
      refine LeavesOk.host ?_ (by simp [hawkSendSwcmd])
      simp only [hawkSendSwcmd, ne_eq, not_true_eq_false, and_false, if_false]
      refine LeavesOk.host ?_ fun a (ha : s.completed a = false ∨ (s.result a).toInt ≠ hawkSwCmdResultOk) =>
        ⟨ha, fun hc => ?_⟩
      · simp only [hawkSendSwcmd]
        exact leavesOk_of_done hb hlast k (j + 1) _ (by omega) rfl hdone hsb hres hret'
      · simp only [hawkSendSwcmd]
        rcases eq_or_ne a j with rfl | hne
        · rw [Function.update_self]
          rcases ha with ha | ha <;> simp [ha]
        · rw [Function.update_of_ne hne]
          exact hc
    · have hne : b ≠ j := fun he => hsel (he ▸ hsb)
      refine LeavesOk.host ?_ (by simp [hawkSendSwcmd, hpc, hlt, hsel])
      simp only [hawkSendSwcmd, hpc, hlt, hsel, if_true]
      exact leavesOk_of_done hb hlast k (j + 1) _ (by omega) rfl hdone hsb hres fun hbj => hret (by omega)

/-- The state right after the doorbell. -/
def hawkPosted (H : HawkIf) (coreMask : BitVec 32) (status result : ℕ → BitVec 32) (cores : ℕ → Core) :
    HawkState :=
  { hawkStart status result cores with
    pc := .poll 0 hawkSwcmdTimeoutRetries
    status := fun i => if i < H.e200CoreCount then postedStatus H coreMask i else status i
    result := fun i => if i < H.e200CoreCount then 0 else result i }

variable {status result : ℕ → BitVec 32} {cores : ℕ → Core}

theorem leads_posted (hfree : ∀ i < H.e200CoreCount, status i = H.statusFree) :
    Leads H coreMask (hawkStart status result cores) (hawkPosted H coreMask status result cores) :=
  (leads_post (s := hawkStart status result cores) hfree _ 0 (Nat.zero_add _)).trans
    (leads_host (Leads.refl _))

theorem pending_earlier {c : Core} : c.earlier.pending = none ↔ c.pending = none := by
  cases c <;> simp [Core.earlier, Core.pending]

/-- A run to `out` with OK and an unconfirmed selected core is a call that is
not honest. -/
theorem not_honest_of_leads {a : ℕ} (h : Leads H coreMask s t)
    (hpc : t.pc = .out 0) (hret : t.ret = hawkSwCmdResultOk) (ha : a < H.e200CoreCount)
    (hsel : selected coreMask a = true) (hconf : t.confirmed a = false) :
    ∃ rs, Guarded (hawkStep H coreMask) ResultFirst s rs ∧ ¬ Honest H coreMask (exec (hawkStep H coreMask) s rs) := by
  obtain ⟨u, htu, h1, h2, h3, -⟩ := leads_returned coreMask _ 0 t (Nat.zero_add _) hpc
  obtain ⟨rs, hg, hrs⟩ := h.trans htu
  refine ⟨rs, hg, fun hon => ?_⟩
  rw [hrs] at hon
  have := (hon h1 (h2.trans hret) a ha hsel).1
  rw [h3, hconf] at this
  cases this

/-- Several cores, or one that first finishes an earlier command: the last
selected core answers OK, and the host takes this for all of them. -/
theorem fooled_by_last {a b : ℕ} (hfree : ∀ i < H.e200CoreCount, status i = H.statusFree)
    (ha : a < H.e200CoreCount) (hsa : selected coreMask a = true) (hb : b < H.e200CoreCount)
    (hsb : selected coreMask b = true) (hlast : ∀ i < H.e200CoreCount, b < i → selected coreMask i = false)
    (hab : a ≠ b ∨ (cores a).pending ≠ none) :
    ∃ rs, Guarded (hawkStep H coreMask) ResultFirst (hawkStart status result cores) rs ∧
      ¬ Honest H coreMask (exec (hawkStep H coreMask) (hawkStart status result cores) rs) := by
  -- core `a` answers with an error, unless it can only finish its earlier command
  obtain ⟨t, ht, hoff, hfin⟩ := leads_all_finished (H := H) (s := hawkPosted H coreMask status result cores)
    coreMask rfl (fun i hi hs => by simp [hawkPosted, hi, postedStatus, hs])
    (fun i hi => by simp [hawkPosted, hi]) (fun _ => rfl) (fun i => ⟨cores i, rfl⟩)
    (fun i => if i = a ∧ a ≠ b then 1 else 0) _ le_rfl
  have hres : (t.result b).toInt = hawkSwCmdResultOk := by
    have hf := hfin b hb hsb
    by_cases hp : ((hawkPosted H coreMask status result cores).cores b).pending = none
    · have hx : ¬ (b = a ∧ a ≠ b) := fun h => h.2 h.1.symm
      rw [hf.2.1 hp, if_neg hx]
      rfl
    · rw [(hf.2.2 hp).1]
      rfl
  have hbad : t.completed a = false ∨ (t.result a).toInt ≠ hawkSwCmdResultOk := by
    have hf := hfin a ha hsa
    by_cases hp : ((hawkPosted H coreMask status result cores).cores a).pending = none
    · have hne : a ≠ b := hab.resolve_right (not_not.mpr (pending_earlier.mp hp))
      rw [hf.2.1 hp, if_pos ⟨rfl, hne⟩]
      exact Or.inr (by decide)
    · exact Or.inl (hf.2.2 hp).2
  obtain ⟨u, htu, h1, h2, -, h3⟩ := leavesOk_of_done hb hlast _ 0 t (Nat.zero_add _) hoff.pc
    (fun i hi hs => (hfin i hi hs).1) hsb hres (fun h => absurd h (Nat.not_lt_zero _))
  have hconf : t.confirmed a = false := by
    rw [hoff.confirmed]
    rfl
  exact not_honest_of_leads (((leads_posted hfree).trans ht).trans htu) h1 h2 ha hsa (h3 a hbad hconf)

/-- One selected core, and core 0, another one, finishes an earlier command:
the waiting loop looks at its word. -/
theorem fooled_by_zero {b : ℕ} (hfree : ∀ i < H.e200CoreCount, status i = H.statusFree)
    (hb : b < H.e200CoreCount) (hsb : selected coreMask b = true)
    (huniq : ∀ j < H.e200CoreCount, selected coreMask j = true → j = b) (hb0 : b ≠ 0)
    (hp0 : (cores 0).pending ≠ none) :
    ∃ rs, Guarded (hawkStep H coreMask) ResultFirst (hawkStart status result cores) rs ∧
      ¬ Honest H coreMask (exec (hawkStep H coreMask) (hawkStart status result cores) rs) := by
  have hno : ∀ i < H.e200CoreCount, i ≠ b → selected coreMask i = false := fun i hi hne => by
    by_contra hs
    exact hne (huniq i hi (by simpa using hs))
  -- core 0 writes DONE right after the doorbell
  obtain ⟨core, hfirst, hdone⟩ : ∃ core, (cores 0).earlier ≠ .executing true ∧
      coreDone H (hawkPosted H coreMask status result cores) 0 =
        writeDone H (hawkPosted H coreMask status result cores) 0 core false := by
    cases hc : cores 0 with
    | idle | wroteDone _ => exact absurd (by simp [hc, Core.pending]) hp0
    | executing _ =>
      exact ⟨.wroteDone false, nofun, by simp [coreDone, hawkPosted, hawkStart, hc, Core.earlier]⟩
    | wroteResult _ => exact ⟨.idle, nofun, by simp [coreDone, hawkPosted, hawkStart, hc, Core.earlier]⟩
  set p := writeDone H (hawkPosted H coreMask status result cores) 0 core false with hp
  have h0 : p.status 0 = H.statusDone := by simp [hp, writeDone]
  have hsb' : p.status b = H.statusPosted := by
    simp [hp, writeDone, hb0, hawkPosted, hb, postedStatus, hsb]
  have hrb : p.result b = 0 := by simp [hp, writeDone, hawkPosted, hb]
  have hcb : p.completed b = false := by simp [hp, writeDone, hawkPosted, hawkStart]
  have h1 : Leads H coreMask (hawkPosted H coreMask status result cores) p := ⟨[.done 0], ⟨hfirst, trivial⟩, hdone⟩
  have h2 : Leads H coreMask p { p with pc := .poll (0 + b) hawkSwcmdTimeoutRetries } :=
    leads_poll (H := H) (s := p) b 0 (by omega) fun i _ hi => hno i (by omega) (by omega)
  -- the first look at core `b`, then one at core 0, then the result
  set q : HawkState := { p with ret := hawkSwCmdResultOk, confirmed := Function.update p.confirmed b false } with hq
  have h3 : Leads H coreMask { p with pc := .poll (0 + b) hawkSwcmdTimeoutRetries }
      { q with pc := .poll (b + 1) 4 } := by
    refine leads_host ?_
    simp only [hawkSendSwcmd, Nat.zero_add, hb, hsb, if_true, hsb']
    refine leads_host ?_
    simp only [hawkSendSwcmd, hawkSwcmdTimeoutRetries, h0, H.posted_ne_done, ne_eq, not_false_eq_true,
      OfNat.ofNat_ne_zero, and_self, if_true]
    refine leads_host ?_
    simp only [hawkSendSwcmd, ne_eq, not_true_eq_false, and_false, if_false]
    refine leads_host ?_
    simp only [hawkSendSwcmd, hrb, hcb, Bool.false_and]
    exact Leads.refl _
  have h4 : Leads H coreMask { q with pc := .poll (b + 1) 4 }
      { q with pc := .poll (b + 1 + (H.e200CoreCount - (b + 1))) 4 } :=
    leads_poll _ _ (by omega) fun i hi hi' => hno i (by omega) (by omega)
  have h5 : Leads H coreMask { q with pc := .poll (b + 1 + (H.e200CoreCount - (b + 1))) 4 }
      { q with pc := .out 0 } := by
    refine leads_host ?_
    simp only [hawkSendSwcmd, show ¬ b + 1 + (H.e200CoreCount - (b + 1)) < H.e200CoreCount by omega, if_false]
    exact Leads.refl _
  refine not_honest_of_leads (((((leads_posted hfree).trans h1).trans h2).trans h3).trans (h4.trans h5))
    rfl rfl hb hsb ?_
  simp [hq]

/-- A core that owes at most a result can take the command and write DONE
first; its result word is then what the copy of the command has left. -/
theorem reaches_done_first (coreMask : BitVec 32) {b : ℕ} (hb : b < H.e200CoreCount) (hp : s.pc.isPosted = true)
    (hst : s.status b = H.statusPosted) (hres : s.result b = 0) {c : Core} (hc : s.cores b = c.earlier)
    (hpend : c.pending = none) :
    ∃ t, Reaches (hawkStep H coreMask) s t ∧ t.pc = s.pc ∧ t.status b = H.statusDone ∧ t.result b = 0 ∧
      t.cores b = .wroteDone true := by
  cases c with
  | idle =>
    refine ⟨_, ⟨[.take b, .done b], rfl⟩, ?_, ?_, ?_, ?_⟩ <;>
      simp_all [exec, hawkStep, coreTake, coreDone, writeDone, Core.earlier]
  | wroteDone _ =>
    refine ⟨_, ⟨[.result b 0, .take b, .done b], rfl⟩, ?_, ?_, ?_, ?_⟩ <;>
      simp_all [exec, hawkStep, coreTake, coreResult, writeResult, coreDone, writeDone, Core.earlier]
  | executing _ | wroteResult _ => cases hpend

/-- One selected core writes DONE, the host reads the zero in its result word
and returns, and then the core reports an error. -/
theorem fooled_by_late {b : ℕ} (hfree : ∀ i < H.e200CoreCount, status i = H.statusFree)
    (hb : b < H.e200CoreCount) (hsb : selected coreMask b = true)
    (huniq : ∀ j < H.e200CoreCount, selected coreMask j = true → j = b) (hpb : (cores b).pending = none) :
    ∃ rs, ¬ Honest H coreMask (exec (hawkStep H coreMask) (hawkStart status result cores) rs) := by
  obtain ⟨t, ht, hpc, hdone, hres, hcore⟩ := reaches_done_first (s := hawkPosted H coreMask status result cores)
    coreMask hb rfl (by simp [hawkPosted, hb, postedStatus, hsb]) (by simp [hawkPosted, hb]) (c := cores b) rfl hpb
  have hlast : ∀ i < H.e200CoreCount, b < i → selected coreMask i = false := fun i hi hlt => by
    by_contra hs
    exact absurd (huniq i hi (by simpa using hs)) (by omega)
  obtain ⟨u, htu, hupc, huret, hucores, -⟩ := leavesOk_of_done hb hlast _ 0 t (Nat.zero_add _) hpc
    (fun i hi hs => by rw [huniq i hi hs]; exact hdone) hsb (by rw [hres]; rfl) (fun h => absurd h (Nat.not_lt_zero _))
  obtain ⟨w, huw, hwpc, hwret, -, hwcores⟩ := leads_returned coreMask _ 0 u (Nat.zero_add _) hupc
  have hwcore : w.cores b = .wroteDone true := by rw [hwcores, hucores, hcore]
  -- the run up to the return, and then the result
  obtain ⟨rs, hrs⟩ := (((leads_posted hfree).reaches.trans ht).trans htu.reaches).trans huw.reaches
  refine ⟨rs ++ [.result b 1], fun hon => ?_⟩
  have hlate : exec (hawkStep H coreMask) w [.result b 1] = writeResult w b 1 .idle true := by
    simp [exec, hawkStep, coreResult, hwcore]
  rw [exec_append, hrs, hlate] at hon
  have hok : (writeResult w b 1 .idle true).failed b = false := (hon hwpc (hwret.trans huret) b hb hsb).2
  simp [writeResult, hawkSwCmdResultOk] at hok

end Fooled

/-! ### The exact conditions -/

/-- A call that finds core `i` not FREE stops at its busy test or before. -/
def FoundBusy (H : HawkIf) (i : ℕ) (s : HawkState) : Prop :=
  match s.pc with
  | .busyTest j => j ≤ i ∧ s.status i ≠ H.statusFree
  | .returned => s.ret ≠ hawkSwCmdResultOk
  | _ => False

section Honest

variable {H : HawkIf} {coreMask : BitVec 32} {first : Bool} {s t : HawkState} {status result : ℕ → BitVec 32}
  {cores : ℕ → Core}

/-- No core makes its word FREE. -/
theorem CoreStep.not_free {v w : CoreView} {posted : Bool} (h : CoreStep H posted first v w)
    (hs : v.status ≠ H.statusFree) : w.status ≠ H.statusFree := by
  cases h with
  | rest | take | result | late => exact hs
  | done | early => exact H.done_ne_free

theorem FoundBusy.core_step {i j : ℕ} (hm : CoreMove H first s t j) (h : FoundBusy H i s) : FoundBusy H i t := by
  unfold FoundBusy at h ⊢
  rw [hm.pc]
  cases hpc : s.pc with
  | busyTest k =>
    rw [hpc] at h
    exact ⟨h.1, hm.keeps (P := fun v => v.status ≠ H.statusFree) (fun _ _ hvw => hvw.not_free) h.2⟩
  | returned =>
    rw [hpc] at h
    simp only
    rw [hm.ret]
    exact h
  | _ =>
    rw [hpc] at h
    exact h

theorem FoundBusy.host_step {i : ℕ} (hi : i < H.e200CoreCount) (h : FoundBusy H i s) :
    FoundBusy H i (hawkSendSwcmd H coreMask s) := by
  unfold hawkSendSwcmd
  unfold FoundBusy at h
  cases hpc : s.pc with
  | busyTest j =>
    rw [hpc] at h
    simp only
    split_ifs with hj hs
    · exact ebusy_ne_ok
    · refine ⟨?_, h.2⟩
      have : j ≠ i := fun he => h.2 (he ▸ not_not.mp hs)
      have := h.1
      omega
    · have := h.1
      omega
  | returned =>
    simp only
    unfold FoundBusy
    rw [hpc] at h ⊢
    exact h
  | _ =>
    rw [hpc] at h
    exact h.elim

/-- A selected core with no selected core above it. -/
theorem exists_last_selected {a : ℕ} (ha : a < H.e200CoreCount) (hsa : selected coreMask a = true) :
    ∃ b < H.e200CoreCount, selected coreMask b = true ∧
      ∀ i < H.e200CoreCount, b < i → selected coreMask i = false := by
  let S := (Finset.range H.e200CoreCount).filter fun i => selected coreMask i = true
  have hne : S.Nonempty := ⟨a, by simp [S, ha, hsa]⟩
  obtain ⟨hlt, hsel⟩ : S.max' hne < H.e200CoreCount ∧ selected coreMask (S.max' hne) = true := by
    simpa [S] using S.max'_mem hne
  refine ⟨S.max' hne, hlt, hsel, fun i hi hbi => ?_⟩
  by_contra hs
  exact absurd (S.le_max' i (by simpa [S, hi] using hs)) (by omega)

/-- A call that finds the descriptor busy or selects no core is honest in every run. -/
theorem honest_of_noCore (h : NoCore H coreMask status) (rs : List HawkInput) :
    Honest H coreMask (exec (hawkStep H coreMask) (hawkStart status result cores) rs) := by
  intro hpc hret j hj hsj
  rcases h with ⟨i, hi, hs⟩ | hnone
  · have hbusy : FoundBusy H i (exec (hawkStep H coreMask) (hawkStart status result cores) rs) :=
      @hawk_run H coreMask false _ (fun _ _ _ hm h => h.core_step hm) (fun _ h => h.host_step hi) _
        (show FoundBusy H i (hawkStart status result cores) from ⟨Nat.zero_le i, hs⟩) _
        (guarded_of_forall fun _ _ _ => nofun)
    unfold FoundBusy at hbusy
    rw [hpc] at hbusy
    exact absurd hret hbusy
  · rw [hnone j hj] at hsj
    cases hsj

/-- So is one that selects one core, with nothing left over, in every run in
which the cores write their results first. -/
theorem honest_of_oneCore (h : OneCore H coreMask status cores) {rs : List HawkInput}
    (hg : Guarded (hawkStep H coreMask) ResultFirst (hawkStart status result cores) rs) :
    Honest H coreMask (exec (hawkStep H coreMask) (hawkStart status result cores) rs) := by
  rcases h with hno | ⟨i, hi, hsi, huniq, hpi, hp0⟩
  · exact honest_of_noCore hno rs
  · intro hpc hret j hj hsj
    obtain rfl := huniq j hj hsj
    have hstart : HawkInv H j (hawkStart status result cores) := by
      refine fun k hk => ⟨⟨fun _ => pending_earlier.mpr ?_, ?_, rfl⟩, fun hk => absurd hk (Nat.not_lt_zero k)⟩
      · rcases hk with rfl | rfl
        · exact hpi
        · exact hp0
      · show (cores k).earlier.earlier = (cores k).earlier
        cases cores k <;> rfl
    have hinv : HawkInv H j (exec (hawkStep H coreMask) (hawkStart status result cores) rs) :=
      @hawk_run H coreMask true _ (fun _ _ _ hm h => h.core_step hm) (fun _ h => h.host_step hi hsi huniq) _ hstart _
        (guarded_of_inv (I := fun _ => True) (fun _ _ _ _ => trivial) (fun _ _ _ hr _ => hr) rs trivial hg)
    unfold HawkInv at hinv
    rw [hpc] at hinv
    obtain ⟨hconf, hfailed, -⟩ := hinv hret
    exact ⟨hconf, hfailed⟩

/-- A call that posts its command to a core. -/
theorem posts_of_not_noCore (h : ¬ NoCore H coreMask status) :
    (∀ i < H.e200CoreCount, status i = H.statusFree) ∧ ∃ i < H.e200CoreCount, selected coreMask i = true := by
  refine ⟨fun i hi => ?_, ?_⟩
  · by_contra hs
    exact h (Or.inl ⟨i, hi, hs⟩)
  · by_contra hno
    refine h (Or.inr fun i hi => ?_)
    by_contra hs
    exact hno ⟨i, hi, by simpa using hs⟩

/-- Every other call is fooled in some run, though the cores write their results first. -/
theorem fooled_of_not_oneCore (h : ¬ OneCore H coreMask status cores) :
    ∃ rs, Guarded (hawkStep H coreMask) ResultFirst (hawkStart status result cores) rs ∧
      ¬ Honest H coreMask (exec (hawkStep H coreMask) (hawkStart status result cores) rs) := by
  obtain ⟨hfree, i, hi, hsi⟩ := posts_of_not_noCore fun hno => h (Or.inl hno)
  obtain ⟨b, hb, hsb, hlast⟩ := exists_last_selected hi hsi
  by_cases huniq : ∀ j < H.e200CoreCount, selected coreMask j = true → j = b
  · by_cases hpb : (cores b).pending = none
    · have hp0 : (cores 0).pending ≠ none := fun hp0 => h (Or.inr ⟨b, hb, hsb, huniq, hpb, hp0⟩)
      exact fooled_by_zero hfree hb hsb huniq (fun h0 => hp0 (h0 ▸ hpb)) hp0
    · exact fooled_by_last hfree hb hsb hb hsb hlast (Or.inr hpb)
  · push Not at huniq
    obtain ⟨a, ha, hsa, hab⟩ := huniq
    exact fooled_by_last hfree ha hsa hb hsb hlast (Or.inl hab)

end Honest

/-- **Hawk completion, exactly.** Whatever the descriptor holds and the cores
are doing when the call starts, OK is returned only for a command that every
selected core has completed with OK and reports no error for, in every run in
which the cores write their results before DONE, if and only if the call finds
the descriptor busy, or selects no core, or selects one and neither it nor
core 0 still has to finish an earlier command. Without that order of the
writes, if and only if the call finds the descriptor busy or selects no core. -/
theorem hawk_honest_iff (H : HawkIf) (coreMask : BitVec 32) (status result : ℕ → BitVec 32)
    (cores : ℕ → Core) :
    ((∀ rs, Guarded (hawkStep H coreMask) ResultFirst (hawkStart status result cores) rs →
        Honest H coreMask (exec (hawkStep H coreMask) (hawkStart status result cores) rs)) ↔
      OneCore H coreMask status cores) ∧
    ((∀ rs, Honest H coreMask (exec (hawkStep H coreMask) (hawkStart status result cores) rs)) ↔
      NoCore H coreMask status) := by
  have hfirst : (∀ rs, Guarded (hawkStep H coreMask) ResultFirst (hawkStart status result cores) rs →
      Honest H coreMask (exec (hawkStep H coreMask) (hawkStart status result cores) rs)) →
      OneCore H coreMask status cores := by
    intro hon
    by_contra hn
    obtain ⟨rs, hg, hrs⟩ := @fooled_of_not_oneCore H coreMask status result cores hn
    exact hrs (hon rs hg)
  refine ⟨⟨hfirst, fun h rs hg => honest_of_oneCore h hg⟩, fun hon => ?_, honest_of_noCore⟩
  rcases hfirst fun rs _ => hon rs with hno | ⟨b, hb, hsb, huniq, hpb, -⟩
  · exact hno
  · by_contra hno
    obtain ⟨rs, hrs⟩ := @fooled_by_late H coreMask status result cores b (posts_of_not_noCore hno).1 hb hsb huniq hpb
    exact hrs (hon rs)

/-- Two cores. -/
def hawkIfSmall : HawkIf where
  e200CoreCount := 2
  statusFree := 0
  statusPosted := 1
  statusDone := 2
  posted_ne_free := by decide
  posted_ne_done := by decide
  done_ne_free := by decide
  zero_ne_posted := by decide
  zero_ne_done := by decide

/-- Both cores are selected; core 0 answers with an error, core 1 with OK. -/
def hawkErrorThenOk : List HawkInput :=
  List.replicate 4 .host ++ [.take 0, .result 0 1, .done 0, .take 1, .result 1 0, .done 1] ++
    List.replicate 10 .host

/-- The error of core 0 is lost. -/
theorem hawk_error_hidden : ¬ Honest hawkIfSmall 3 (exec (hawkStep hawkIfSmall 3)
    (hawkStart (fun _ => 0) (fun _ => 0) fun _ => .idle) hawkErrorThenOk) := by
  intro h
  exact absurd (h (by decide) (by decide) 0 (by decide) (by decide)).1 (by decide)

end Hawk
end La12xx
