/-
# Pairing of interrupts and references

A record is `Paired` if no interrupt was freed that was not requested, none is
requested twice, and a reference to a context is held exactly if `evt_fd_ctxt` is
set. Requests keep this if each arrives where it fits (`Kind.Fits`): a
registration where no context is kept, with a descriptor that names no other
file, and a deregistration of the TTI device where its interrupt is requested. All
four drivers forget a context they still hold when they register again; the
interrupts of three of them are paired in every run (`irqOk_of_ne_tti`).
-/
import La12xx.Notify.Registration

namespace La12xx
namespace Notify

open Machine

structure Priv.Paired (p : Priv) : Prop where
  freed : p.freedIdle = false
  once : p.requested ≤ 1
  refs : (p.taken : ℤ) - p.released = if p.evtFdCtxt = .null then 0 else 1

instance (p : Priv) : Decidable p.Paired :=
  decidable_of_iff (p.freedIdle = false ∧ p.requested ≤ 1 ∧
      (p.taken : ℤ) - p.released = if p.evtFdCtxt = .null then 0 else 1)
    ⟨fun h => ⟨h.1, h.2.1, h.2.2⟩, fun h => ⟨h.freed, h.once, h.refs⟩⟩

/-- Every record is paired, and no request has worked outside of them. -/
def Device.Paired (d : Device) : Prop := d.wild = false ∧ ∀ p ∈ d.privs, p.Paired

instance (d : Device) : Decidable d.Paired :=
  inferInstanceAs (Decidable (d.wild = false ∧ ∀ p ∈ d.privs, p.Paired))

/-! ### Where a request fits -/

namespace Kind

/-- Registering gets to the lookup of the descriptor. The TTI driver requests its
interrupt first. -/
def LooksUp (k : Kind) (r : Request) (p : Priv) : Prop :=
  0 < r.eventfd ∧ (k = .tti → p.irq ≠ 0 ∧ (p.irqStatus = true ∨ 0 ≤ r.irqRc))

/-- The request fits the record it gets to. -/
def FitsAt (k : Kind) (p : Priv) : Req → Prop
  | .register r => p.evtFdCtxt = .null ∧ (k.LooksUp r p → r.file ≠ .other)
  | .deregister _ => k = .tti → 0 < p.requested

/-- A request that is not refused gets to a record of the device and fits it. -/
def Fits (k : Kind) (d : Device) (req : Req) : Prop :=
  ∀ i ∈ k.target req, ∃ p ∈ d.privs[i]?, k.FitsAt p req

instance (k : Kind) (p : Priv) : ∀ req, Decidable (k.FitsAt p req)
  | .register r =>
    inferInstanceAs (Decidable (p.evtFdCtxt = .null ∧
      ((0 < r.eventfd ∧ (k = .tti → p.irq ≠ 0 ∧ (p.irqStatus = true ∨ 0 ≤ r.irqRc))) → r.file ≠ .other)))
  | .deregister _ => inferInstanceAs (Decidable (k = .tti → 0 < p.requested))

instance (k : Kind) (d : Device) (req : Req) : Decidable (k.Fits d req) :=
  inferInstanceAs (Decidable (∀ i ∈ k.target req, ∃ p ∈ d.privs[i]?, k.FitsAt p req))

end Kind

/-! ### Kernel calls -/

/-- The flag of the record counts its requests of the interrupt; the records of the TVD
and CLI devices have none. -/
structure Priv.IrqOk (k : Kind) (p : Priv) : Prop where
  freed : p.freedIdle = false
  status : p.requested = p.irqStatus.toNat
  none : k = .tvd ∨ k = .cli → p.irqStatus = false

/-- The pointer holds what it refers to. -/
def Priv.RefOk (p : Priv) : Prop :=
  p.evtFdCtxt = .null ∧ p.taken = p.released ∨ p.evtFdCtxt = .ctx ∧ p.taken = p.released + 1

namespace Priv

variable {k : Kind} {p : Priv}

theorem paired_of_ok (hirq : p.IrqOk k) (href : p.RefOk) : p.Paired where
  freed := hirq.freed
  once := by
    rw [hirq.status]
    exact Bool.toNat_le _
  refs := by
    obtain ⟨hc, ht⟩ | ⟨hc, ht⟩ := href
    · simp [hc, ht]
    · simp [hc, ht]

/-- The interrupt of a record does not depend on its references. -/
theorem IrqOk.withRefs (h : p.IrqOk k) (c : Ctxt) (t r : ℕ) :
    IrqOk k { p with evtFdCtxt := c, taken := t, released := r } := ⟨h.freed, h.status, h.none⟩

theorem IrqOk.requestIrq (h : p.IrqOk k) (hk : ¬ (k = .tvd ∨ k = .cli)) (hidle : p.irqStatus = false) :
    IrqOk k (requestIrq p) where
  freed := h.freed
  status := by
    have hreq : p.requested = 0 := by simpa [hidle] using h.status
    simp [Notify.requestIrq, hreq]
  none hk' := absurd hk' hk

theorem IrqOk.freeIrq (h : p.IrqOk k) (hreq : 0 < p.requested) : IrqOk k (freeIrq p) where
  freed := by
    have : p.requested ≠ 0 := Nat.pos_iff_ne_zero.mp hreq
    simp [Notify.freeIrq, h.freed, this]
  status := by
    have hle : p.requested ≤ 1 := by
      rw [h.status]
      exact Bool.toNat_le _
    show p.requested - 1 = 0
    omega
  none _ := rfl

/-- Looking the descriptor up sets `evt_fd_ctxt` and may take a reference. -/
theorem takeEventfd_eq {r : Request} {p' : Priv} (h : takeEventfd r p = some p') :
    ∃ c t, p' = { p with evtFdCtxt := c, taken := t } := by
  unfold takeEventfd at h
  split at h
  · cases hf : r.file with
    | closed => simp [eventfdCtxFileget, hf] at h
    | other => exact ⟨.err, p.taken, by simpa [eventfdCtxFileget, hf] using h.symm⟩
    | eventfd => exact ⟨.ctx, p.taken + 1, by simpa [eventfdCtxFileget, hf] using h.symm⟩
  · exact ⟨p.evtFdCtxt, p.taken, by simpa using h.symm⟩

/-- Putting the context releases a reference or none. -/
theorem putEventfd_eq {p' : Priv} (h : putEventfd p = some p') :
    ∃ r, p' = { p with evtFdCtxt := .null, released := r } := by
  unfold putEventfd at h
  split at h
  · next hc => exact ⟨p.released, by simpa [← hc] using h.symm⟩
  · exact ⟨p.released + 1, by simpa using h.symm⟩
  · cases h
  · cases h

theorem IrqOk.takeEventfd {r : Request} {p' : Priv} (h : p.IrqOk k) (ht : takeEventfd r p = some p') : IrqOk k p' := by
  obtain ⟨c, t, rfl⟩ := takeEventfd_eq ht
  exact h.withRefs c t p.released

theorem IrqOk.putEventfd {p' : Priv} (h : p.IrqOk k) (hp : putEventfd p = some p') : IrqOk k p' := by
  obtain ⟨r, rfl⟩ := putEventfd_eq hp
  exact h.withRefs .null p.taken r

/-- A lookup that finds no other file leaves the pointer with what it refers to. -/
theorem RefOk.takeEventfd {r : Request} {p' : Priv} (h : p.RefOk) (hnull : p.evtFdCtxt = .null)
    (hfile : 0 < r.eventfd → r.file ≠ .other) (ht : takeEventfd r p = some p') : RefOk p' := by
  have htaken : p.taken = p.released := by
    simpa [RefOk, hnull] using h
  unfold Notify.takeEventfd at ht
  split at ht
  · next hpos =>
    cases hf : r.file with
    | closed => simp [eventfdCtxFileget, hf] at ht
    | other => exact absurd hf (hfile hpos)
    | eventfd =>
      obtain rfl : _ = p' := by simpa [eventfdCtxFileget, hf] using ht
      exact .inr ⟨rfl, congrArg (· + 1) htaken⟩
  · obtain rfl : p = p' := by simpa using ht
    exact .inl ⟨hnull, htaken⟩

/-- A pointer that holds what it refers to can be put, and then nothing is held. -/
theorem RefOk.putEventfd (h : p.RefOk) :
    ∃ p', putEventfd p = some p' ∧ p'.evtFdCtxt = .null ∧ p'.taken = p'.released ∧ p'.requested = p.requested := by
  obtain ⟨hc, ht⟩ | ⟨hc, ht⟩ := h
  · exact ⟨p, by simp [Notify.putEventfd, hc], hc, ht, rfl⟩
  · exact ⟨{ p with evtFdCtxt := .null, released := p.released + 1 }, by simp [Notify.putEventfd, hc], rfl, ht, rfl⟩

/-- So a call that ends with it returns. -/
theorem RefOk.finish_put (h : p.RefOk) (n : ℤ) :
    ∃ p', finish p n (Notify.putEventfd p) = (p', .rc n) ∧ p'.RefOk ∧ p'.requested = p.requested ∧
      p'.taken = p'.released := by
  obtain ⟨p', hp, hnull, htaken, hreq⟩ := h.putEventfd
  exact ⟨p', by rw [hp, finish], .inl ⟨hnull, htaken⟩, hreq, htaken⟩

/-- A call ends in the record it has finished with, or in the one it stopped at. -/
theorem finish_of {P : Priv → Prop} {n : ℤ} {o : Option Priv} (hstop : P p) (hdone : ∀ p', o = some p' → P p') :
    P (finish p n o).1 := by
  cases o with
  | none => exact hstop
  | some p' => exact hdone p' rfl

end Priv

/-! ### One request -/

section Handle

variable {k : Kind} {p : Priv} {req : Req}

theorem ttiRegisterIrq_irqOk (h : p.IrqOk .tti) (r : Request) : (ttiRegisterIrq r p).1.IrqOk .tti := by
  have hnull : ({ p with evtFdCtxt := .null } : Priv).IrqOk .tti := h.withRefs .null p.taken p.released
  unfold ttiRegisterIrq
  simp only
  split
  · split
    · next hidle =>
      split
      · exact hnull
      · have hreq := hnull.requestIrq (by decide) hidle
        exact Priv.finish_of hreq fun p' => hreq.takeEventfd
    · exact Priv.finish_of hnull fun p' => hnull.takeEventfd
  · exact hnull

theorem wdogRegisterErr_irqOk (h : p.IrqOk k) (n : ℤ) : (wdogRegisterErr p n).1.IrqOk k :=
  Priv.finish_of h fun _ => h.putEventfd

theorem wdogRequestIrq_irqOk (h : p.IrqOk .wdog) (r : Request) : (wdogRequestIrq r p).1.IrqOk .wdog := by
  unfold wdogRequestIrq
  split
  · split
    · next hidle =>
      split
      · exact wdogRegisterErr_irqOk h _
      · exact h.requestIrq (by decide) hidle
    · exact h
  · exact wdogRegisterErr_irqOk h _

theorem wdogRegisterIrq_irqOk (h : p.IrqOk .wdog) (r : Request) : (wdogRegisterIrq r p).1.IrqOk .wdog := by
  have hnull : ({ p with evtFdCtxt := .null } : Priv).IrqOk .wdog := h.withRefs .null p.taken p.released
  unfold wdogRegisterIrq
  simp only
  split
  · next p' ht => exact wdogRequestIrq_irqOk (hnull.takeEventfd ht) r
  · exact hnull

/-- Requests keep the interrupt of a record paired, those of the TTI device if they
free only what is requested. -/
theorem handle_irqOk (h : p.IrqOk k) (htti : k = .tti → ∀ r, req = .deregister r → 0 < p.requested) :
    (k.handle req p).1.IrqOk k := by
  have hnull : ({ p with evtFdCtxt := .null } : Priv).IrqOk k := h.withRefs .null p.taken p.released
  cases req with
  | register r =>
    cases k with
    | tti => exact ttiRegisterIrq_irqOk h r
    | wdog => exact wdogRegisterIrq_irqOk h r
    | tvd => exact Priv.finish_of hnull fun p' => hnull.takeEventfd
    | cli => exact Priv.finish_of hnull fun p' => hnull.takeEventfd
  | deregister r =>
    cases k with
    | tti =>
      have hfree := h.freeIrq (htti rfl r rfl)
      exact Priv.finish_of hfree fun p' => hfree.putEventfd
    | wdog =>
      have hfree : (if p.irqStatus = true then freeIrq p else p).IrqOk .wdog := by
        split
        · next hst => exact h.freeIrq (by simp [h.status, hst])
        · exact h
      exact Priv.finish_of hfree fun p' => hfree.putEventfd
    | tvd => exact Priv.finish_of h fun p' => h.putEventfd
    | cli => exact Priv.finish_of h fun p' => h.putEventfd

theorem put_refOk (h : p.RefOk) (n : ℤ) : (finish p n (putEventfd p)).1.RefOk := by
  obtain ⟨p', hp, href, -⟩ := h.finish_put n
  rw [hp]
  exact href

/-- A lookup keeps the references of a record that holds none. -/
theorem take_refOk (h : p.RefOk) (hnull : p.evtFdCtxt = .null) {r : Request} (hfile : 0 < r.eventfd → r.file ≠ .other)
    (n : ℤ) : (finish p n (takeEventfd r p)).1.RefOk :=
  Priv.finish_of h fun _ => h.takeEventfd hnull hfile

theorem ttiRegisterIrq_refOk {r : Request} (h : p.RefOk) (hfit : Kind.tti.FitsAt p (.register r)) :
    (ttiRegisterIrq r p).1.RefOk := by
  obtain ⟨hnull, hfile⟩ := hfit
  have hp : { p with evtFdCtxt := .null } = p := by rw [← hnull]
  unfold ttiRegisterIrq
  simp only [hp]
  split
  · next hirq =>
    split
    · split
      · exact h
      · next hrc =>
        have hreq : (requestIrq p).RefOk := h
        exact take_refOk hreq hnull (fun hpos => hfile ⟨hpos, fun _ => ⟨hirq, .inr (not_lt.mp hrc)⟩⟩) _
    · next hst =>
      have hst' : p.irqStatus = true := Bool.eq_true_of_not_eq_false hst
      exact take_refOk h hnull (fun hpos => hfile ⟨hpos, fun _ => ⟨hirq, .inl hst'⟩⟩) _
  · exact h

theorem wdogRegisterIrq_refOk {r : Request} (h : p.RefOk) (hfit : Kind.wdog.FitsAt p (.register r)) :
    (wdogRegisterIrq r p).1.RefOk := by
  obtain ⟨hnull, hfile⟩ := hfit
  have hp : { p with evtFdCtxt := .null } = p := by rw [← hnull]
  unfold wdogRegisterIrq
  simp only [hp]
  split
  · next p' ht =>
    have h' : p'.RefOk := h.takeEventfd hnull (fun hpos => hfile ⟨hpos, by simp⟩) ht
    unfold wdogRequestIrq
    split
    · split
      · split
        · exact put_refOk h' _
        · exact h'
      · exact h'
    · exact put_refOk h' _
  · exact h

/-- A request that fits keeps the references of its record paired. -/
theorem handle_refOk (h : p.RefOk) (hfit : k.FitsAt p req) : (k.handle req p).1.RefOk := by
  cases req with
  | register r =>
    cases k with
    | tti => exact ttiRegisterIrq_refOk h hfit
    | wdog => exact wdogRegisterIrq_refOk h hfit
    | tvd | cli =>
      obtain ⟨hnull, hfile⟩ := hfit
      have hp : { p with evtFdCtxt := .null } = p := by rw [← hnull]
      show (finish { p with evtFdCtxt := .null } 0 (takeEventfd r { p with evtFdCtxt := .null })).1.RefOk
      rw [hp]
      exact take_refOk h hnull (fun hpos => hfile ⟨hpos, by simp⟩) 0
  | deregister r =>
    cases k with
    | tti =>
      have hfree : (freeIrq p).RefOk := h
      exact put_refOk hfree 0
    | wdog =>
      apply put_refOk
      split
      · exact h
      · exact h
    | tvd => exact put_refOk h 0
    | cli => exact put_refOk h 0

/-- The deregistration of a record returns, and leaves no interrupt and no
reference. -/
theorem handle_deregister (hirq : p.IrqOk k) (href : p.RefOk) (r : Request) :
    ∃ p', k.handle (.deregister r) p = (p', .rc 0) ∧ p'.requested = 0 ∧ p'.taken = p'.released := by
  have hend : ∀ q : Priv, q.RefOk → q.requested = 0 →
      ∃ p', finish q 0 (putEventfd q) = (p', .rc 0) ∧ p'.requested = 0 ∧ p'.taken = p'.released := by
    intro q hq hzero
    obtain ⟨p', hp, -, hreq, htaken⟩ := hq.finish_put 0
    exact ⟨p', hp, hreq.trans hzero, htaken⟩
  have hone : (freeIrq p).requested = 0 := by
    have hle : p.requested ≤ 1 := by
      rw [hirq.status]
      exact Bool.toNat_le _
    show p.requested - 1 = 0
    omega
  have hidle : p.irqStatus = false → p.requested = 0 := fun h => by simp [hirq.status, h]
  cases k with
  | tti => exact hend (freeIrq p) href hone
  | wdog =>
    apply hend
    · split
      · exact href
      · exact href
    · split
      · exact hone
      · next hst => exact hidle (Bool.eq_false_of_not_eq_true hst)
  | tvd => exact hend p href (hidle (hirq.none (.inl rfl)))
  | cli => exact hend p href (hidle (hirq.none (.inr rfl)))

end Handle

/-! ### Runs -/

section Run

variable {k : Kind} {d : Device} {req : Req}

/-- What a request that is not refused does to the records. -/
theorem ioctl_of_target {i : ℕ} {p : Priv} (ht : k.target req = some i) (hp : d.privs[i]? = some p) :
    k.ioctl d req = ({ d with privs := d.privs.set i (k.handle req p).1 }, (k.handle req p).2) := by
  rw [ioctl_eq_target, ht]
  simp [Device.call, hp]

/-- A property of the records that the record a request gets to keeps. -/
theorem ioctl_privs {P : Priv → Prop} (hd : ∀ p ∈ d.privs, P p)
    (hstep : ∀ p ∈ d.privs, ∀ i, k.target req = some i → d.privs[i]? = some p → P (k.handle req p).1) :
    ∀ p ∈ (k.ioctl d req).1.privs, P p := by
  cases ht : k.target req with
  | none =>
    rw [ioctl_eq_target, ht]
    exact hd
  | some i =>
    cases hp : d.privs[i]? with
    | none =>
      rw [ioctl_eq_target, ht]
      simpa [Device.call, hp] using hd
    | some p =>
      rw [ioctl_of_target ht hp]
      intro q hq
      obtain hq | rfl := List.mem_or_eq_of_mem_set hq
      · exact hd q hq
      · exact hstep p (List.mem_of_getElem? hp) i ht hp

/-- What the requests of a run keep while each fits. -/
structure Device.Ok (k : Kind) (d : Device) : Prop where
  tame : d.wild = false
  irq : ∀ p ∈ d.privs, p.IrqOk k
  ref : ∀ p ∈ d.privs, p.RefOk

theorem Device.Ok.paired (h : d.Ok k) : d.Paired :=
  ⟨h.tame, fun p hp => Priv.paired_of_ok (h.irq p hp) (h.ref p hp)⟩

/-- The record a request that fits gets to. -/
theorem Kind.Fits.record (hf : k.Fits d req) {i : ℕ} (ht : k.target req = some i) :
    ∃ p, d.privs[i]? = some p ∧ p ∈ d.privs ∧ k.FitsAt p req := by
  obtain ⟨p, hp, hfit⟩ := hf i ht
  exact ⟨p, hp, List.mem_of_getElem? hp, hfit⟩

theorem Device.Ok.ioctl (h : d.Ok k) (hf : k.Fits d req) : (k.ioctl d req).1.Ok k where
  tame := by
    cases ht : k.target req with
    | none =>
      rw [ioctl_eq_target, ht]
      exact h.tame
    | some i =>
      obtain ⟨p, hp, -⟩ := hf.record ht
      rw [ioctl_of_target ht hp]
      exact h.tame
  irq := by
    apply ioctl_privs h.irq
    intro p hp i ht hi
    obtain ⟨q, hq, -, hfit⟩ := hf.record ht
    obtain rfl : p = q := Option.some.inj (hi.symm.trans hq)
    apply handle_irqOk (h.irq p hp)
    rintro hk r rfl
    exact hfit hk
  ref := by
    apply ioctl_privs h.ref
    intro p hp i ht hi
    obtain ⟨q, hq, -, hfit⟩ := hf.record ht
    obtain rfl : p = q := Option.some.inj (hi.symm.trans hq)
    exact handle_refOk (h.ref p hp) hfit

theorem new_irqOk (k : Kind) (irq : ℕ → ℤ) (c : ℕ → Ctxt) : ∀ p ∈ (Device.new k irq c).privs, p.IrqOk k := by
  intro p hp
  obtain ⟨i, -, rfl⟩ := List.mem_map.mp hp
  exact ⟨rfl, rfl, fun _ => rfl⟩

theorem Device.Ok.new {irq : ℕ → ℤ} {c : ℕ → Ctxt} (hc : ∀ i < k.size, c i = .null) : (Device.new k irq c).Ok k where
  tame := rfl
  irq := new_irqOk k irq c
  ref := by
    intro p hp
    obtain ⟨i, hi, rfl⟩ := List.mem_map.mp hp
    exact .inl ⟨hc i (List.mem_range.mp hi), rfl⟩

/-- **In a run whose requests all fit, the interrupts and the references of every
record are paired in every state, and a deregistration at its end leaves neither
behind.** -/
theorem paired_of_fits {irq : ℕ → ℤ} {c : ℕ → Ctxt} (hc : ∀ i < k.size, c i = .null) (reqs : List Req)
    (hfit : Guarded k.ioctl k.Fits (Device.new k irq c) reqs) :
    (∀ pre, pre <+: reqs → (exec k.ioctl (Device.new k irq c) pre).Paired) ∧
      ∀ r i, k.target (.deregister r) = some i → k.Fits (exec k.ioctl (Device.new k irq c) reqs) (.deregister r) →
        (k.ioctl (exec k.ioctl (Device.new k irq c) reqs) (.deregister r)).2 = .rc 0 ∧
        ∃ p, (k.ioctl (exec k.ioctl (Device.new k irq c) reqs) (.deregister r)).1.privs[i]? = some p ∧
          p.requested = 0 ∧ p.taken = p.released := by
  have hstep : ∀ d req, Device.Ok k d → k.Fits d req → Device.Ok k (k.ioctl d req).1 := fun d req h => h.ioctl
  constructor
  · intro pre hpre
    exact (exec_inv_of_guarded hstep pre (.new hc) (hfit.initial hpre)).paired
  · intro r i ht hf
    have hok := exec_inv_of_guarded hstep reqs (.new hc) hfit
    obtain ⟨p, hp, hmem, -⟩ := hf.record ht
    obtain ⟨p', hp', hreq, htaken⟩ := handle_deregister (hok.irq p hmem) (hok.ref p hmem) r
    have hlt : i < (exec k.ioctl (Device.new k irq c) reqs).privs.length := (List.getElem?_eq_some_iff.mp hp).1
    rw [ioctl_of_target ht hp, hp']
    exact ⟨rfl, p', List.getElem?_set_self hlt, hreq, htaken⟩

/-- **The interrupts of the other three drivers are paired whatever is requested.** -/
theorem irqOk_of_ne_tti (hk : k ≠ .tti) (irq : ℕ → ℤ) (c : ℕ → Ctxt) (reqs : List Req) :
    ∀ p ∈ (exec k.ioctl (Device.new k irq c) reqs).privs, p.freedIdle = false ∧ p.requested ≤ 1 := by
  have hstep : ∀ (d : Device) req, (∀ p ∈ d.privs, p.IrqOk k) → ∀ p ∈ (k.ioctl d req).1.privs, p.IrqOk k := by
    intro d req h
    exact ioctl_privs h fun p hp i _ _ => handle_irqOk (h p hp) fun htti => absurd htti hk
  intro p hp
  have hok := exec_inv (I := fun d : Device => ∀ p ∈ d.privs, p.IrqOk k) hstep reqs (new_irqOk k irq c) p hp
  refine ⟨hok.freed, ?_⟩
  rw [hok.status]
  exact Bool.toNat_le _

end Run

/-- An event descriptor registered. -/
def anEventfd (id : ℕ) : Request := ⟨true, id, 5, .eventfd, 0⟩

theorem paired_of_fits_tti :
    (∀ i < Kind.tti.size, (fun _ => Ctxt.null) i = .null) ∧
    Guarded Kind.tti.ioctl Kind.tti.Fits (Device.new .tti (fun _ => 60) fun _ => .null)
      [.register (anEventfd 0), .deregister (anEventfd 0), .register (anEventfd 1)] ∧
    ∀ pre, pre <+: [.register (anEventfd 0), .deregister (anEventfd 0), .register (anEventfd 1)] →
      (exec Kind.tti.ioctl (Device.new .tti (fun _ => 60) fun _ => .null) pre).Paired :=
  ⟨fun _ _ => rfl, by decide, (paired_of_fits (fun _ _ => rfl) _ (by decide)).1⟩

/-- Registering twice forgets the first context: its reference stays, also after
deregistering. -/
theorem reference_leaked :
    ¬ (∀ (k : Kind) (irq : ℕ → ℤ) (reqs : List Req),
      (exec k.ioctl (Device.new k irq fun _ => .null) reqs).Paired) := by
  intro h
  have hleak := h .tvd (fun _ => 60) [.register (anEventfd 2), .register (anEventfd 2), .deregister (anEventfd 2)]
  revert hleak
  decide

end Notify
end La12xx
