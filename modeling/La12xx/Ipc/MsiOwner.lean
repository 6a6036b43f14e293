/-
# The owner of every busy MSI

What the two tables of `Msi.lean` are for is an owner for each index: another
sub-driver, or a channel. A state represents such an assignment (`Owns`) as
long as no live channel is registered again and no registration fails after
it took its index; the step that does either leaves an index busy that nobody
owns (`msi_owned`).
-/
import La12xx.Ipc.Msi

namespace La12xx
namespace Ipc

open Machine

/-- Who holds an MSI index. -/
inductive Owner where
  | subDrv
  | chan (ch : ℤ)
deriving DecidableEq, Repr

/-- The table marks the assigned indices busy and the others free. -/
structure Marks (M : MsiIf) (irq : ℤ → IrqInfo) (own : ℤ → Option Owner) : Prop where
  irq : ∀ i, M.IsMsi i → (irq i).free = if own i = none then gulMsiIrqFree else gulMsiIrqBusy
  isMsi : ∀ i, own i ≠ none → M.IsMsi i

section Marks

variable {M : MsiIf} {irq : ℤ → IrqInfo} {own : ℤ → Option Owner}

theorem Marks.busy_iff (h : Marks M irq own) {i : ℤ} (hi : M.IsMsi i) :
    (irq i).free = gulMsiIrqBusy ↔ own i ≠ none := by
  rw [h.irq i hi]
  split_ifs with ho
  · simp [ho, busy_ne_free.symm]
  · simp [ho]

theorem Marks.free_iff (h : Marks M irq own) {i : ℤ} (hi : M.IsMsi i) :
    (irq i).free = gulMsiIrqFree ↔ own i = none := by
  rw [h.irq i hi]
  split_ifs with ho
  · simp [ho]
  · simp [ho, busy_ne_free]

/-- An index is assigned and marked busy. -/
theorem Marks.take (h : Marks M irq own) {i : ℤ} (hi : M.IsMsi i) (o : Owner) :
    Marks M (mark irq i gulMsiIrqBusy) (Function.update own i (some o)) where
  irq j hj := by
    rcases eq_or_ne j i with rfl | hne
    · simp
    · simp [mark_of_ne _ _ hne, hne, h.irq j hj]
  isMsi j hj := by
    rcases eq_or_ne j i with rfl | hne
    · exact hi
    · exact h.isMsi j (by simpa [hne] using hj)

/-- An index is given back and marked free. -/
theorem Marks.give (h : Marks M irq own) (i : ℤ) :
    Marks M (mark irq i gulMsiIrqFree) (Function.update own i none) where
  irq j hj := by
    rcases eq_or_ne j i with rfl | hne
    · simp
    · simp [mark_of_ne _ _ hne, hne, h.irq j hj]
  isMsi j hj := by
    rcases eq_or_ne j i with rfl | hne
    · simp at hj
    · exact h.isMsi j (by simpa [hne] using hj)

end Marks

/-- The state represents the assignment `own`: the table marks the assigned
indices busy, the other sub-drivers hold theirs, and a channel is marked busy
with the one index it owns, for which it has requested the line. -/
structure Owns (M : MsiIf) (s : MsiState) (own : ℤ → Option Owner) : Prop where
  marks : Marks M s.irq own
  isChan : ∀ i ch, own i = some (.chan ch) → M.IsChan ch
  nodup : s.others.Nodup
  others : ∀ i, i ∈ s.others ↔ own i = some .subDrv
  chan : ∀ ch, M.IsChan ch → ∀ i, own i = some (.chan ch) ↔
    (s.asynChans ch).ipcIrq.free = gulMsiIrqBusy ∧ (s.asynChans ch).ipcIrq.irqIndex = i
  lines : ∀ ch, M.IsChan ch → s.requested ch =
    if (s.asynChans ch).ipcIrq.free = gulMsiIrqBusy then [(s.asynChans ch).ipcIrq.irqNum] else []

/-- The MSI indices marked busy are those the other sub-drivers hold and those
stored in channels with a requested line, and no index has two owners. -/
structure MsiOwned (M : MsiIf) (s : MsiState) : Prop where
  busy : ∀ i, M.IsMsi i → ((s.irq i).free = gulMsiIrqBusy ↔
    i ∈ s.others ∨ ∃ ch, M.IsChan ch ∧ s.requested ch ≠ [] ∧ (s.asynChans ch).ipcIrq.irqIndex = i)
  isMsi : ∀ ch, M.IsChan ch → s.requested ch ≠ [] → M.IsMsi (s.asynChans ch).ipcIrq.irqIndex
  othersIsMsi : ∀ i ∈ s.others, M.IsMsi i
  nodup : s.others.Nodup
  disjoint : ∀ ch, M.IsChan ch → s.requested ch ≠ [] → (s.asynChans ch).ipcIrq.irqIndex ∉ s.others
  inj : ∀ ch ch', M.IsChan ch → M.IsChan ch' → s.requested ch ≠ [] → s.requested ch' ≠ [] →
    (s.asynChans ch).ipcIrq.irqIndex = (s.asynChans ch').ipcIrq.irqIndex → ch = ch'

section Owns

variable {M : MsiIf} {s : MsiState} {own : ℤ → Option Owner}

theorem Owns.requested_iff (h : Owns M s own) {ch : ℤ} (hc : M.IsChan ch) :
    s.requested ch ≠ [] ↔ (s.asynChans ch).ipcIrq.free = gulMsiIrqBusy := by
  rw [h.lines ch hc]
  split_ifs with hb <;> simp [hb]

theorem Owns.own_chan (h : Owns M s own) {ch : ℤ} (hc : M.IsChan ch) (hr : s.requested ch ≠ []) :
    own (s.asynChans ch).ipcIrq.irqIndex = some (.chan ch) :=
  (h.chan ch hc _).mpr ⟨(h.requested_iff hc).mp hr, rfl⟩

/-- A state that represents an assignment is in order. -/
theorem Owns.msiOwned (h : Owns M s own) : MsiOwned M s where
  busy i hi := by
    rw [h.marks.busy_iff hi]
    constructor
    · intro ho
      obtain ⟨o, ho⟩ := Option.ne_none_iff_exists'.mp ho
      cases o with
      | subDrv => exact Or.inl ((h.others i).mpr ho)
      | chan ch =>
        have hc := h.isChan i ch ho
        have hb := (h.chan ch hc i).mp ho
        exact Or.inr ⟨ch, hc, (h.requested_iff hc).mpr hb.1, hb.2⟩
    · rintro (ho | ⟨ch, hc, hr, rfl⟩)
      · rw [(h.others i).mp ho]; simp
      · rw [h.own_chan hc hr]; simp
  isMsi ch hc hr := h.marks.isMsi _ (by rw [h.own_chan hc hr]; simp)
  othersIsMsi i hi := h.marks.isMsi _ (by rw [(h.others i).mp hi]; simp)
  nodup := h.nodup
  disjoint ch hc hr hm := by
    have := (h.others _).mp hm
    rw [h.own_chan hc hr] at this
    cases this
  inj ch ch' hc hc' hr hr' he := by
    have h1 := h.own_chan hc hr
    rw [he, h.own_chan hc' hr'] at h1
    cases h1
    rfl

/-! ### Steps -/

/-- Another sub-driver takes a free index. -/
theorem Owns.getMsi (h : Owns M s own) {i : ℤ} (hi : M.IsMsi i) (hf : own i = none) :
    Owns M { s with irq := mark s.irq i gulMsiIrqBusy, others := i :: s.others }
      (Function.update own i (some .subDrv)) where
  marks := h.marks.take hi _
  isChan j ch hj := by
    rcases eq_or_ne j i with rfl | hne
    · simp at hj
    · exact h.isChan j ch (by simpa [hne] using hj)
  nodup := List.nodup_cons.mpr ⟨by simp [h.others, hf], h.nodup⟩
  others j := by
    rcases eq_or_ne j i with rfl | hne
    · simp
    · simp [hne, h.others]
  chan ch hc j := by
    rw [← h.chan ch hc j]
    rcases eq_or_ne j i with rfl | hne
    · simp [hf]
    · simp [hne]
  lines := h.lines

/-- Another sub-driver gives an index back. -/
theorem Owns.putMsi (h : Owns M s own) {i : ℤ} (hi : own i = some .subDrv) :
    Owns M { s with irq := mark s.irq i gulMsiIrqFree, others := s.others.erase i }
      (Function.update own i none) where
  marks := h.marks.give i
  isChan j ch hj := by
    rcases eq_or_ne j i with rfl | hne
    · simp at hj
    · exact h.isChan j ch (by simpa [hne] using hj)
  nodup := h.nodup.erase i
  others j := by
    rw [h.nodup.mem_erase_iff, h.others]
    rcases eq_or_ne j i with rfl | hne
    · simp
    · simp [hne]
  chan ch hc j := by
    rw [← h.chan ch hc j]
    rcases eq_or_ne j i with rfl | hne
    · simp [hi]
    · simp [hne]
  lines := h.lines

/-- A channel without an index is registered. -/
theorem Owns.register (h : Owns M s own) {i ch : ℤ} {c : IpcChan} (hi : M.IsMsi i) (hf : own i = none)
    (hc : M.IsChan ch) (hfree : (s.asynChans ch).ipcIrq.free ≠ gulMsiIrqBusy)
    (hb : c.ipcIrq.free = gulMsiIrqBusy) (hidx : c.ipcIrq.irqIndex = i) :
    Owns M ⟨mark s.irq i gulMsiIrqBusy, Function.update s.asynChans ch c,
        Function.update s.requested ch (c.ipcIrq.irqNum :: s.requested ch), s.others⟩
      (Function.update own i (some (.chan ch))) where
  marks := h.marks.take hi _
  isChan j ch' hj := by
    rcases eq_or_ne j i with rfl | hne
    · obtain rfl : ch = ch' := by simpa using hj
      exact hc
    · exact h.isChan j ch' (by simpa [hne] using hj)
  nodup := h.nodup
  others j := by
    rw [h.others]
    rcases eq_or_ne j i with rfl | hne
    · simp [hf]
    · simp [hne]
  chan ch' hc' j := by
    -- the channel owned nothing before, so its new index is its only one
    have hold := h.chan ch' hc' j
    rcases eq_or_ne ch' ch with rfl | hch
    · rcases eq_or_ne j i with rfl | hne
      · simp [hb, hidx]
      · simp [hne, hold, hfree, hb, hidx, hne.symm]
    · rcases eq_or_ne j i with rfl | hne
      · simp [hch, hch.symm, ← hold, hf]
      · simp [hne, hch, hold]
  lines ch' hc' := by
    have hold := h.lines ch' hc'
    rcases eq_or_ne ch' ch with rfl | hch
    · simp [hb, hold, hfree]
    · simp [hch, hold]

/-- A busy channel is deregistered. -/
theorem Owns.deregister (h : Owns M s own) {ch : ℤ} {c : IpcChan} (hc : M.IsChan ch)
    (hb : (s.asynChans ch).ipcIrq.free = gulMsiIrqBusy) (hfree : c.ipcIrq.free = gulMsiIrqFree) :
    Owns M ⟨mark s.irq (s.asynChans ch).ipcIrq.irqIndex gulMsiIrqFree, Function.update s.asynChans ch c,
        Function.update s.requested ch ((s.requested ch).erase (s.asynChans ch).ipcIrq.irqNum), s.others⟩
      (Function.update own (s.asynChans ch).ipcIrq.irqIndex none) := by
  generalize hi : (s.asynChans ch).ipcIrq.irqIndex = i
  have hown : own i = some (.chan ch) := (h.chan ch hc i).mpr ⟨hb, hi⟩
  have hcf : c.ipcIrq.free ≠ gulMsiIrqBusy := by rw [hfree]; exact busy_ne_free.symm
  refine ⟨h.marks.give i, fun j ch' hj => ?_, h.nodup, fun j => ?_, fun ch' hc' j => ?_, fun ch' hc' => ?_⟩
  · rcases eq_or_ne j i with rfl | hne
    · simp at hj
    · exact h.isChan j ch' (by simpa [hne] using hj)
  · show j ∈ s.others ↔ _
    rw [h.others]
    rcases eq_or_ne j i with rfl | hne
    · simp [hown]
    · simp [hne]
  · have hold := h.chan ch' hc' j
    rcases eq_or_ne ch' ch with rfl | hch
    · rcases eq_or_ne j i with rfl | hne
      · simp [hcf]
      · simp [hne, hold, hi, hcf, hne.symm]
    · rcases eq_or_ne j i with rfl | hne
      · simp [hch, ← hold, hown, hch.symm]
      · simp [hne, hch, hold]
  · have hold := h.lines ch' hc'
    rcases eq_or_ne ch' ch with rfl | hch
    · simp [hcf, hold, hb]
    · simp [hch, hold]

end Owns

/-! ### Runs -/

/-- The registration, if it can take an index, is of a channel that has none,
and nothing it asks for afterwards fails. -/
def RegisterOk (M : MsiIf) (s : MsiState) : MsiReq → Prop
  | .channelRegister (some c) e _ => M.IsChan c.ipcChannelNum →
      (∃ i, M.IsMsi i ∧ (s.irq i).free = gulMsiIrqFree) →
      (s.asynChans c.ipcChannelNum).ipcIrq.free ≠ gulMsiIrqBusy ∧ e.Grants c.efd
  | _ => True

section Run

variable {M : MsiIf} {s : MsiState} {own : ℤ → Option Owner}

theorem channelRegister_state (c : IpcEventfd) (e : RegEnv) (copyOut : Bool) :
    (channelRegister M s (some c) e copyOut).1 =
      if c.ipcChannelNum < 0 then s else (registerIpcChannelIrq M s c.ipcChannelNum c.efd e).1 := by
  simp only [channelRegister]
  split_ifs <;> rfl

/-- A registration that takes an index for a live channel, or fails
afterwards, leaves an index busy that nobody owns. -/
theorem Owns.not_msiOwned (h : Owns M s own) {i ch : ℤ} {c : IpcChan} {lines : ℤ → List ℤ} {j : ℤ}
    (hj : M.IsMsi j) (hother : own j ≠ some .subDrv) (hchan : ∀ ch', ch' ≠ ch → own j ≠ some (.chan ch'))
    (hbusy : (mark s.irq i gulMsiIrqBusy j).free = gulMsiIrqBusy)
    (hself : lines ch ≠ [] → c.ipcIrq.irqIndex ≠ j) (hlines : ∀ ch', ch' ≠ ch → lines ch' = s.requested ch') :
    ¬ MsiOwned M ⟨mark s.irq i gulMsiIrqBusy, Function.update s.asynChans ch c, lines, s.others⟩ := by
  intro ho
  rcases (ho.busy j hj).mp hbusy with hm | ⟨ch', hc', hr, hidx⟩
  · exact hother ((h.others j).mp hm)
  · rcases eq_or_ne ch' ch with rfl | hne
    · exact hself hr (by simpa using hidx)
    · have hr' : s.requested ch' ≠ [] := by rwa [← hlines ch' hne]
      have hidx' : (s.asynChans ch').ipcIrq.irqIndex = j := by simpa [hne] using hidx
      exact hchan ch' hne (hidx' ▸ h.own_chan hc' hr')

/-- The assignment without what the channels `chs` own. -/
def dropChans (own : ℤ → Option Owner) (chs : List ℤ) (i : ℤ) : Option Owner :=
  match own i with
  | some (.chan ch) => if ch ∈ chs then none else some (.chan ch)
  | o => o

theorem dropChans_nil (own : ℤ → Option Owner) : dropChans own [] = own := by
  funext i
  unfold dropChans
  rcases own i with _ | _ | ch <;> simp

theorem dropChans_cons (own : ℤ → Option Owner) (ch : ℤ) (chs : List ℤ) :
    dropChans (dropChans own [ch]) chs = dropChans own (ch :: chs) := by
  funext i
  unfold dropChans
  rcases own i with _ | _ | ch'
  · rfl
  · rfl
  · by_cases h1 : ch' = ch <;> by_cases h2 : ch' ∈ chs <;> simp [h1, h2]

theorem dropChans_of_ne {ch i : ℤ} (h : own i ≠ some (.chan ch)) : dropChans own [ch] i = own i := by
  unfold dropChans
  rcases hi : own i with _ | _ | ch'
  · rfl
  · rfl
  · have hne : ch' ≠ ch := fun he => h (by rw [hi, he])
    simp [hne]

theorem dropChans_eq_self {ch : ℤ} (h : ∀ i, own i ≠ some (.chan ch)) : dropChans own [ch] = own :=
  funext fun i => dropChans_of_ne (h i)

theorem dropChans_eq_update {ch j : ℤ} (h : ∀ i, own i = some (.chan ch) ↔ j = i) :
    dropChans own [ch] = Function.update own j none := by
  funext i
  rcases eq_or_ne i j with rfl | hne
  · have hi := (h i).mpr rfl
    simp [dropChans, hi]
  · rw [Function.update_of_ne hne, dropChans_of_ne fun hi => hne ((h i).mp hi).symm]

/-- Deregistering takes from the assignment what the channel owns. -/
theorem Owns.deregisterIpcChannelIrq (h : Owns M s own) (ch : ℤ) :
    Owns M (deregisterIpcChannelIrq M s ch).1 (dropChans own [ch]) := by
  unfold Ipc.deregisterIpcChannelIrq
  by_cases hch : ch < 0 ∨ M.ipcMaxChannelCount ≤ ch
  · rw [if_pos hch, dropChans_eq_self fun i hi => ?_]
    · exact h
    · have := (h.isChan i ch hi).1
      have := (h.isChan i ch hi).2
      omega
  have hc : M.IsChan ch := ⟨by omega, by omega⟩
  rw [if_neg hch]
  by_cases hb : (s.asynChans ch).ipcIrq.free = gulMsiIrqBusy
  · have hown := (h.chan ch hc _).mpr ⟨hb, rfl⟩
    have hmsi := h.marks.isMsi _ (by rw [hown]; simp)
    have hbusy := (h.marks.busy_iff hmsi).mpr (by rw [hown]; simp)
    simp only [if_pos hb, gulDevPutMsi_of_busy hmsi hbusy]
    rw [dropChans_eq_update (j := (s.asynChans ch).ipcIrq.irqIndex) fun i => ?_]
    · exact h.deregister hc hb (by simp)
    · simp [h.chan ch hc i, hb]
  · simp only [if_neg hb]
    rw [dropChans_eq_self fun i hi => hb ((h.chan ch hc i).mp hi).1]
    exact h

/-- Deregistering a list of channels takes what they own. -/
theorem Owns.deregister_run : ∀ (chs : List IpcEventfd) {s : MsiState} {own : ℤ → Option Owner},
    Owns M s own → Owns M (exec (msiStep M) s (chs.map fun c => .channelDeregister (some c)))
      (dropChans own (chs.map IpcEventfd.ipcChannelNum))
  | [], s, own, h => by
    rw [List.map_nil, List.map_nil, dropChans_nil]
    exact h
  | c :: chs, s, own, h => by
    rw [List.map_cons, List.map_cons, ← dropChans_cons]
    exact Owns.deregister_run chs (h.deregisterIpcChannelIrq c.ipcChannelNum)

/-- Every step keeps the tables in order, except exactly a registration that
is not `RegisterOk`. -/
theorem Owns.step (h : Owns M s own) (r : MsiReq) :
    (RegisterOk M s r → ∃ own', Owns M (msiStep M s r).1 own') ∧
    (¬ RegisterOk M s r → ¬ MsiOwned M (msiStep M s r).1) := by
  match r with
  | .channelRegister none e copyOut => exact ⟨fun _ => ⟨own, h⟩, fun hn => absurd trivial hn⟩
  | .channelRegister (some c) e copyOut =>
    show (_ → ∃ own', Owns M (channelRegister M s (some c) e copyOut).1 own') ∧
      (_ → ¬ MsiOwned M (channelRegister M s (some c) e copyOut).1)
    rw [channelRegister_state]
    by_cases hneg : c.ipcChannelNum < 0
    · rw [if_pos hneg]
      exact ⟨fun _ => ⟨own, h⟩, fun hn => absurd (fun hc => absurd hc.1 (by omega)) hn⟩
    rw [if_neg hneg]
    rcases registerIpcChannelIrq_cases M s c.ipcChannelNum c.efd e with
      ⟨h1, hno⟩ | ⟨hc, i, ch, hi, hf, hb, hidx, hcase⟩
    · rw [h1]
      exact ⟨fun _ => ⟨own, h⟩, fun hn => absurd (fun hc ⟨i, hi, hf⟩ => absurd hf (hno hc i hi)) hn⟩
    have hown : own i = none := (h.marks.free_iff hi).mp hf
    by_cases hlive : (s.asynChans c.ipcChannelNum).ipcIrq.free = gulMsiIrqBusy
    · -- the index the channel had is lost
      refine ⟨fun hok => absurd hlive (hok hc ⟨i, hi, hf⟩).1, fun _ => ?_⟩
      have hold := (h.chan _ hc _).mpr ⟨hlive, rfl⟩
      have hmsi := h.marks.isMsi _ (by rw [hold]; simp)
      have hne : (s.asynChans c.ipcChannelNum).ipcIrq.irqIndex ≠ i := by
        intro he
        rw [he, hown] at hold
        cases hold
      have hbusy : (mark s.irq i gulMsiIrqBusy (s.asynChans c.ipcChannelNum).ipcIrq.irqIndex).free =
          gulMsiIrqBusy := by
        rw [mark_of_ne _ _ hne, h.marks.busy_iff hmsi, hold]
        simp
      rcases hcase with ⟨-, h1⟩ | ⟨-, h1⟩ <;> rw [h1]
      · exact h.not_msiOwned hmsi (by simp [hold]) (fun _ hne' => by simp [hold, hne'.symm]) hbusy
          (fun _ => by rw [hidx]; exact hne.symm) (fun _ hne' => by simp [hne'])
      · exact h.not_msiOwned hmsi (by simp [hold]) (fun _ hne' => by simp [hold, hne'.symm]) hbusy
          (fun _ => by rw [hidx]; exact hne.symm) (fun _ _ => rfl)
    · rcases hcase with ⟨hg, h1⟩ | ⟨hg, h1⟩ <;> rw [h1]
      · exact ⟨fun _ => ⟨_, h.register hi hown hc hlive hb hidx⟩, fun hn => absurd (fun _ _ => ⟨hlive, hg⟩) hn⟩
      · -- the index just taken has no requested line
        refine ⟨fun hok => absurd (hok hc ⟨i, hi, hf⟩).2 hg, fun _ => ?_⟩
        have hr : s.requested c.ipcChannelNum = [] := by rw [h.lines _ hc, if_neg hlive]
        exact h.not_msiOwned hi (by simp [hown]) (fun _ _ => by simp [hown]) (by simp)
          (fun hr' => absurd hr hr') (fun _ _ => rfl)
  | .channelDeregister none => exact ⟨fun _ => ⟨own, h⟩, fun hn => absurd trivial hn⟩
  | .channelDeregister (some c) =>
    exact ⟨fun _ => ⟨_, h.deregisterIpcChannelIrq c.ipcChannelNum⟩, fun hn => absurd trivial hn⟩
  | .getMsi coreId =>
    refine ⟨fun _ => ?_, fun hn => absurd trivial hn⟩
    unfold msiStep
    rcases gulDevGetMsi_cases M s.irq coreId with ⟨i, hi, hf, hg⟩ | ⟨-, hg⟩ <;> simp only [hg]
    · rw [if_pos hi.1]
      exact ⟨_, h.getMsi hi ((h.marks.free_iff hi).mp hf)⟩
    · rw [if_neg (by decide)]
      exact ⟨own, h⟩
  | .putMsi index =>
    refine ⟨fun _ => ?_, fun hn => absurd trivial hn⟩
    unfold msiStep
    by_cases hm : index ∈ s.others <;> simp only [hm, if_true, if_false]
    · have hown := (h.others index).mp hm
      have hmsi := h.marks.isMsi index (by rw [hown]; simp)
      have hbusy := (h.marks.busy_iff hmsi).mpr (by rw [hown]; simp)
      rw [gulDevPutMsi_of_busy hmsi hbusy]
      exact ⟨_, h.putMsi hown⟩
    · exact ⟨own, h⟩

/-- A device that has just been set up, with no channel memory that looks
busy, assigns nothing. -/
theorem msiSetup_owns (M : MsiIf) (irq : ℤ → IrqInfo) (pdevIrq numPossibleCpus : ℤ) {mem : ℤ → IpcChan}
    (hmem : ∀ ch, M.IsChan ch → (mem ch).ipcIrq.free ≠ gulMsiIrqBusy) :
    Owns M (msiSetup M irq pdevIrq numPossibleCpus mem) (fun _ => none) where
  marks := ⟨fun i hi => by
    have hi' : 0 ≤ i ∧ i < M.gulMsiMaxCnt := hi
    simp [msiSetup, gulDevSetInterruptCapability, hi'], by simp⟩
  isChan := by simp
  nodup := List.nodup_nil
  others := by simp [msiSetup]
  chan ch hc i := by simpa [msiSetup] using fun hb => absurd hb (hmem ch hc)
  lines ch hc := (if_neg (hmem ch hc)).symm

end Run

/-- **MSI ownership.** In every run that registers only channels without an
index, and whose registrations do not fail after taking one, the busy
indices are those of the other sub-drivers and of the registered channels,
each with one owner, and deregistering the registered channels frees theirs
and no other. The condition is exact for the next request of such a run. -/
theorem msi_owned (M : MsiIf) (irq : ℤ → IrqInfo) (pdevIrq numPossibleCpus : ℤ) (mem : ℤ → IpcChan)
    (hmem : ∀ ch, M.IsChan ch → (mem ch).ipcIrq.free ≠ gulMsiIrqBusy) (rs : List MsiReq)
    (hrs : Guarded (msiStep M) (RegisterOk M) (msiSetup M irq pdevIrq numPossibleCpus mem) rs) :
    let s := exec (msiStep M) (msiSetup M irq pdevIrq numPossibleCpus mem) rs
    MsiOwned M s ∧
    (∀ chs : List IpcEventfd,
      (∀ ch, M.IsChan ch → s.requested ch ≠ [] → ch ∈ chs.map IpcEventfd.ipcChannelNum) →
      let t := exec (msiStep M) s (chs.map fun c => .channelDeregister (some c))
      (∀ ch, M.IsChan ch → s.requested ch ≠ [] →
        (t.irq (s.asynChans ch).ipcIrq.irqIndex).free = gulMsiIrqFree) ∧
      ∀ i, M.IsMsi i → ((t.irq i).free = gulMsiIrqBusy ↔ i ∈ s.others)) ∧
    ∀ r, MsiOwned M (msiStep M s r).1 ↔ RegisterOk M s r := by
  intro s
  obtain ⟨own, h⟩ : ∃ own, Owns M s own :=
    exec_inv_of_guarded (I := fun s => ∃ own, Owns M s own) (fun _ r ⟨_, h⟩ hg => (h.step r).1 hg) rs
      ⟨_, msiSetup_owns M irq pdevIrq numPossibleCpus hmem⟩ hrs
  refine ⟨h.msiOwned, fun chs hall => ?_, fun r => ⟨fun ho => ?_, fun hok => ?_⟩⟩
  · intro t
    have ht : Owns M t _ := Owns.deregister_run chs h
    refine ⟨fun ch hc hr => ?_, fun i hi => ?_⟩
    · have hown := h.own_chan hc hr
      rw [ht.marks.free_iff (h.marks.isMsi _ (by rw [hown]; simp)), dropChans, hown]
      exact if_pos (hall ch hc hr)
    · rw [ht.marks.busy_iff hi, h.others i, dropChans]
      rcases ho : own i with _ | _ | ch
      · simp
      · simp
      · have hc := h.isChan i ch ho
        have hr := (h.requested_iff hc).mpr ((h.chan ch hc i).mp ho).1
        simpa using hall ch hc hr
  · by_contra hn
    exact (h.step r).2 hn ho
  · obtain ⟨own', h'⟩ := (h.step r).1 hok
    exact h'.msiOwned

/-- A process whose event fds are all valid, on a kernel that grants every
request. -/
def RegEnv.granting : RegEnv := ⟨0, fun _ => .ctx 0, true, 0⟩

/-- A channel registered twice: its first index stays busy without an owner. -/
theorem msi_lost : (∀ ch, MsiIf.IsChan ⟨4, 2⟩ ch → ((default : IpcChan).ipcIrq.free ≠ gulMsiIrqBusy)) ∧
    ¬ MsiOwned ⟨4, 2⟩ (exec (msiStep ⟨4, 2⟩) (msiSetup ⟨4, 2⟩ default 32 2 fun _ => default)
      [.channelRegister (some ⟨0, 3⟩) .granting true,
        .channelRegister (some ⟨0, 3⟩) .granting true]) := by
  refine ⟨fun _ _ => by decide, fun h => ?_⟩
  rcases (h.busy 0 ⟨by decide, by decide⟩).mp (by decide) with hm | ⟨ch, ⟨h0, h2⟩, hr, hidx⟩
  · exact absurd hm (by decide)
  · obtain rfl | rfl : ch = 0 ∨ ch = 1 := by simp only at h2; omega
    · exact absurd hidx (by decide)
    · exact hr rfl

/-- Two channels and another sub-driver share four MSI lines. -/
theorem msi_owned_shared :
    MsiOwned ⟨4, 2⟩ (exec (msiStep ⟨4, 2⟩) (msiSetup ⟨4, 2⟩ default 32 2 fun _ => default)
      [.channelRegister (some ⟨0, 3⟩) .granting true, .getMsi 1,
        .channelRegister (some ⟨1, 4⟩) .granting false, .channelDeregister (some ⟨0, 3⟩)]) := by
  have hg : RegEnv.granting.Grants 3 ∧ RegEnv.granting.Grants 4 := by
    refine ⟨⟨?_, rfl, ?_⟩, ⟨?_, rfl, ?_⟩⟩ <;> decide
  refine (msi_owned ⟨4, 2⟩ default 32 2 (fun _ => default) (fun _ _ => by decide)
    [.channelRegister (some ⟨0, 3⟩) .granting true, .getMsi 1,
      .channelRegister (some ⟨1, 4⟩) .granting false, .channelDeregister (some ⟨0, 3⟩)]
    ⟨fun _ _ => ⟨?_, hg.1⟩, trivial, fun _ _ => ⟨?_, hg.2⟩, trivial, trivial⟩).1 <;> decide

end Ipc
end La12xx
