/-
# A change of the card

`vtq_usim_get_status` reads the ICCID of the card at every call and compares it
with the one of the call before, over the length that is read now. The module
follows the two buffers through any sequence of calls; `verdicts_iff` says in
which runs a change is reported exactly when there is one.
-/
import La12xx.Lib.Machine
import La12xx.Usim.Delivery

namespace La12xx
namespace Usim

open ByteMem Dialogue

/-! ### The function -/

/-- `usim_state_t` -/
inductive UsimState where
  | connected
  | disconnected
  | invalidated
  | changed
deriving DecidableEq, Repr

/-- The part of `event_handle_t` that is used here, with the detect register. -/
structure EventHandle where
  portDetect : BitVec 32
  state : UsimState
  stateCur : UsimState
  iccidOld : Mem
  iccidLenOld : Byte
  iccidNew : Mem
  iccidLenNew : Byte

/-- `USIM_ICCID_FILEID` -/
def iccidFileid : Word := 0x2fe2

/-- `USIM_MF_FILEID` -/
def mfFileid : ℤ := 0x3f00

/-- `SIM_PORT_DETECT_SPDP` says that the card is not there. -/
def Removed (portDetect : BitVec 32) : Prop := portDetect &&& 0x4 ≠ 0

instance (portDetect : BitVec 32) : Decidable (Removed portDetect) := inferInstanceAs (Decidable (_ ≠ _))

/-- `usim_card_detect`: the state before is kept, the bit `SPDS` waits for the
other edge, and `SDI` and `SDIM` are acknowledged. -/
def cardDetect (h : EventHandle) : EventHandle :=
  let h := { h with state := h.stateCur }
  let h :=
    if Removed h.portDetect then { h with portDetect := h.portDetect &&& ~~~0x8, stateCur := .disconnected }
    else { h with portDetect := h.portDetect ||| 0x8, stateCur := .connected }
  { h with portDetect := (h.portDetect ||| 0x2) &&& ~~~0x1 }

/-- `vtq_usim_get_status` -/
def getStatus (S : Sim) (E : Env) (h : EventHandle) : Card (UsimState × EventHandle) :=
  let h := cardDetect h
  if h.stateCur ≠ .disconnected then do
    let h := { h with
      iccidOld := copy h.iccidOld 0 h.iccidNew 0 h.iccidLenNew.toNat
      iccidLenOld := h.iccidLenNew }
    let out ← readTransparent S E iccidFileid 10 h.iccidNew mfFileid
    if out.ret = 0 then
      let h := { h with iccidNew := out.buf, iccidLenNew := BitVec.ofInt 8 out.len }
      if bytes h.iccidOld 0 h.iccidLenNew.toNat ≠ bytes h.iccidNew 0 h.iccidLenNew.toNat then
        pure (.changed, { h with stateCur := .changed })
      else pure (h.stateCur, h)
    else pure (h.stateCur, { h with iccidNew := out.buf })
  else pure (h.stateCur, h)

/-! ### Reading into the buffer of the caller -/

section Buffer

variable (S : Sim) (E : Env)

theorem yields_leave {α : Type} {P : α → Prop} {a : α} (h : P a) (b : Bool) : Yields P (leave S b a) := by
  cases b
  · exact h
  · exact fun _ => h

/-- A function that starts with its file yields what each of its ends does. -/
theorem yields_around {α : Type} {P : α → Prop} {out : ℤ → α} (hout : ∀ ret < 0, P (out ret)) {dirFileid : ℤ}
    {fileid : Word} {body : Bool → Mem → Card α} (hbody : ∀ b buffer, Yields P (body b buffer)) :
    Yields P (withDir S dirFileid out fun b => withFile S fileid b out fun resp => withDescription S resp b out (body b)) := by
  have hleave : ∀ b, Yields P (leave S b (out (-1))) := fun b => yields_leave S (hout _ (by decide)) b
  have hfile : ∀ b, Yields P (withFile S fileid b out fun resp => withDescription S resp b out (body b)) := by
    intro b
    refine yields_query_bind _ fun resp => ?_
    split
    · exact hleave b
    split
    · exact hout _ (by decide)
    split
    · exact hleave b
    refine yields_query_bind _ fun r => ?_
    split
    · exact hleave b
    split
    · exact hleave b
    · exact hbody b r.data
  rw [withDir]
  split
  · refine yields_query_bind _ fun resp => ?_
    split
    · next hret => exact hout _ hret
    split
    · exact hout _ (by decide)
    split
    · exact hout _ (by decide)
    · exact hfile true
  · exact hfile false

/-- A reading that fails leaves the buffer of the caller alone. -/
theorem yields_readTransparent (fileid : Word) (len : ℤ) (buf : Mem) (dirFileid : ℤ) :
    Yields (fun out => out.ret ≠ 0 → out.buf = buf) (readTransparent S E fileid len buf dirFileid) := by
  refine yields_around S (fun _ _ _ => rfl) fun b buffer => ?_
  cases transparentLen S E buffer with
  | none => exact yields_leave S (fun _ => rfl) b
  | some len =>
    show Yields _ (if ¬ E.malloc (len + 3) then _ else _)
    split
    · exact yields_leave S (fun _ => rfl) b
    refine yields_query_bind _ fun r => ?_
    split
    · exact yields_leave S (fun _ => rfl) b
    split
    · exact yields_leave S (fun _ => rfl) b
    · unfold copyOut
      split
      · exact yields_leave S (fun h => absurd rfl h) b
      · exact yields_fault

end Buffer

/-! ### A run of calls -/

/-- A call: what the detect register shows, and the state in which the call
finds the card. -/
structure Visit (σ : Type) where
  portDetect : BitVec 32
  card : σ

/-- The handle, and the ICCID that was last read. -/
structure Watch where
  handle : EventHandle
  last : Option (List Byte)

section Run

variable (S : Sim) (E : Env) {σ : Type} (card : σ → Apdu → σ × Resp) (iccid : σ → List Byte)

/-- The reading of the ICCID in a call ends with `0`. -/
def readSucceeds (buf : Mem) (s : σ) : Bool :=
  match (run card (readTransparent S E iccidFileid 10 buf mfFileid) s).val with
  | none => false
  | some out => out.ret = 0

/-- A call is made. Beside its value the answer gives the ICCID that was last
read before. -/
def visitStep (w : Watch) (v : Visit σ) : Watch × Option UsimState × Option (List Byte) :=
  let h := { w.handle with portDetect := v.portDetect }
  match (run card (getStatus S E h) v.card).val with
  | none => (w, none, w.last)
  | some (state, h') =>
    (⟨h', if ¬ Removed v.portDetect ∧ readSucceeds S E card h.iccidNew v.card then some (iccid v.card) else w.last⟩,
      some state, w.last)

/-- A card that keeps its ICCID, of ten bytes at most: it is delivered, or its
reading fails. -/
def KeepsIccid : Prop :=
  ∀ s, (Delivers S E iccidFileid mfFileid card s (iccid s) ∨ ReadFails S E iccidFileid mfFileid card s) ∧
    (iccid s).length ≤ 10

/-- What is expected of a call: it reports a change exactly when a card is
there whose ICCID is read and is another one than was last read. -/
def VerdictRight (v : Visit σ) (answer : Option UsimState × Option (List Byte)) : Prop :=
  ∃ state, answer.1 = some state ∧
    (state = .changed ↔ ¬ Removed v.portDetect ∧ Delivers S E iccidFileid mfFileid card v.card (iccid v.card) ∧
      ∃ l, answer.2 = some l ∧ l ≠ iccid v.card)

/-- The condition on a call whose card is there and is read. The first ICCID
that is read has to be zeros. A later one has to have the length of the one
before, or to differ from what lies in the old buffer: the one before, and
behind it what an earlier one left. -/
def ToldApart (w : Watch) (v : Visit σ) : Prop :=
  ¬ Removed v.portDetect → Delivers S E iccidFileid mfFileid card v.card (iccid v.card) →
    match w.last with
    | none => iccid v.card = List.replicate (iccid v.card).length 0
    | some l =>
      (iccid v.card).length = l.length ∨
        iccid v.card ≠
          (l ++ bytes w.handle.iccidOld l.length ((iccid v.card).length - l.length)).take (iccid v.card).length

end Run

/-! ### The old buffer -/

/-- The first bytes of a range. -/
theorem bytes_take (m : Mem) (a : ℤ) {n k : ℕ} (h : n ≤ k) : bytes m a n = (bytes m a k).take n := by
  obtain ⟨d, rfl⟩ := Nat.exists_eq_add_of_le h
  rw [bytes_add, List.take_left' (length_bytes _ _ _)]

/-- What the old buffer holds once the last ICCID is copied over it. -/
theorem bytes_overlaid {old new : Mem} {l : List Byte} (h : Holds new 0 l) (n : ℕ) :
    bytes (copy old 0 new 0 l.length) 0 n = (l ++ bytes old l.length (n - l.length)).take n := by
  have hcopy : Holds (copy old 0 new 0 l.length) 0 l := h.copy old 0
  have hbehind : bytes (copy old 0 new 0 l.length) l.length (n - l.length) = bytes old l.length (n - l.length) :=
    bytes_eq_iff.mpr fun p hp _ => if_neg fun h' => by omega
  rw [bytes_take _ _ (show n ≤ l.length + (n - l.length) by omega), bytes_add, hcopy.bytes_eq rfl, zero_add, hbehind]

theorem bytes_zero (a : ℤ) : ∀ n : ℕ, bytes (fun _ => 0) a n = List.replicate n 0
  | 0 => rfl
  | n + 1 => by rw [bytes, bytes_zero (a + 1) n, List.replicate_succ]

/-- What the buffers hold between the calls: nothing before the first ICCID is
read, then the last one. -/
structure Watching (w : Watch) : Prop where
  first : w.last = none →
    w.handle.iccidOld = (fun _ => 0) ∧ w.handle.iccidNew = (fun _ => 0) ∧ w.handle.iccidLenNew = 0
  later : ∀ l, w.last = some l → Holds w.handle.iccidNew 0 l ∧ w.handle.iccidLenNew.toNat = l.length

/-- The old buffer in a call. -/
def overlaid (h : EventHandle) : Mem := copy h.iccidOld 0 h.iccidNew 0 h.iccidLenNew.toNat

/-- The condition on a call is that the comparison tells the ICCIDs apart. -/
theorem Watching.compare_iff {w : Watch} (hw : Watching w) (x : List Byte) :
    (bytes (overlaid w.handle) 0 x.length ≠ x ↔ ∃ l, w.last = some l ∧ l ≠ x) ↔
      match w.last with
      | none => x = List.replicate x.length 0
      | some l => x.length = l.length ∨ x ≠ (l ++ bytes w.handle.iccidOld l.length (x.length - l.length)).take x.length := by
  cases hlast : w.last with
  | none =>
    obtain ⟨hold, -, hlen⟩ := hw.first hlast
    have hbytes : bytes (overlaid w.handle) 0 x.length = List.replicate x.length 0 := by
      rw [← bytes_zero 0 x.length, overlaid, hold, hlen]
      refine bytes_eq_iff.mpr fun p hp _ => if_neg fun h => ?_
      have hzero : ((0 : Byte).toNat : ℤ) = 0 := rfl
      omega
    rw [hbytes]
    simp [eq_comm]
  | some l =>
    obtain ⟨hnew, hlen⟩ := hw.later l hlast
    rw [overlaid, hlen, bytes_overlaid hnew]
    simp only [Option.some.injEq, exists_eq_left']
    constructor
    · intro h
      by_contra hno
      push Not at hno
      obtain ⟨hne, heq⟩ := hno
      have hdiff : l ≠ x := fun he => hne (he ▸ rfl)
      exact h.mpr hdiff heq.symm
    · rintro (heq | hne)
      · rw [heq, List.take_left' rfl]
      · refine iff_of_true (Ne.symm hne) fun he => hne ?_
        subst he
        rw [List.take_left' rfl]

/-! ### One call -/

section Call

variable {S : Sim} {E : Env} {σ : Type} {card : σ → Apdu → σ × Resp} {iccid : σ → List Byte} {h : EventHandle} {s : σ}

/-- A call that finds no card. -/
theorem val_getStatus_of_removed (hr : Removed h.portDetect) :
    (run card (getStatus S E h) s).val = some (.disconnected, cardDetect h) := by
  have hstate : (cardDetect h).stateCur = .disconnected := by simp only [cardDetect, hr, if_true]
  simp only [getStatus, hstate, ne_eq, not_true, if_false, run_pure]

theorem stateCur_cardDetect (hr : ¬ Removed h.portDetect) : (cardDetect h).stateCur = .connected := by
  simp only [cardDetect, hr, if_false]

theorem cardDetect_buffers (h : EventHandle) :
    (cardDetect h).iccidOld = h.iccidOld ∧ (cardDetect h).iccidNew = h.iccidNew ∧
      (cardDetect h).iccidLenNew = h.iccidLenNew := by
  by_cases hr : Removed h.portDetect <;> simp only [cardDetect, hr, if_true, if_false, and_self]

/-- A call that reads the ICCID compares it with the old buffer. -/
theorem val_getStatus_of_delivers (hr : ¬ Removed h.portDetect)
    (hd : Delivers S E iccidFileid mfFileid card s (iccid s)) (hlen : (iccid s).length ≤ 10) :
    ∃ state h', (run card (getStatus S E h) s).val = some (state, h') ∧
      (state = .changed ↔ bytes (overlaid h) 0 (iccid s).length ≠ iccid s) ∧
      Holds h'.iccidNew 0 (iccid s) ∧ h'.iccidLenNew.toNat = (iccid s).length := by
  obtain ⟨hold, hnew, hlenNew⟩ := cardDetect_buffers h
  have hstate := stateCur_cardDetect hr
  obtain ⟨buf, hbuf, -, hval⟩ := hd 10 h.iccidNew
  have hbyte : (BitVec.ofInt 8 ((iccid s).length : ℤ)).toNat = (iccid s).length := by
    rw [BitVec.ofInt_natCast, BitVec.toNat_ofNat]
    exact Nat.mod_eq_of_lt (by omega)
  simp only [getStatus, hstate, ne_eq, reduceCtorEq, not_false_eq_true, if_true, run_bind, hnew, hval, hold, hlenNew, hbyte,
    hbuf.bytes_eq rfl]
  by_cases hcmp : bytes (overlaid h) 0 (iccid s).length = iccid s
  · have hcmp' := hcmp
    rw [overlaid] at hcmp'
    simp only [hcmp', not_true, if_false, run_pure]
    exact ⟨_, _, rfl, by simp [hcmp], hbuf, hbyte⟩
  · have hcmp' := hcmp
    rw [overlaid] at hcmp'
    simp only [hcmp', not_false_eq_true, if_true, run_pure]
    exact ⟨_, _, rfl, by simp [hcmp], hbuf, hbyte⟩

/-- A call whose reading fails leaves the ICCID that was last read. -/
theorem val_getStatus_of_fails (hr : ¬ Removed h.portDetect) (hf : ReadFails S E iccidFileid mfFileid card s) :
    ∃ h', (run card (getStatus S E h) s).val = some (.connected, h') ∧ h'.iccidNew = h.iccidNew ∧
      h'.iccidLenNew = h.iccidLenNew ∧ h'.iccidOld = overlaid h := by
  obtain ⟨hold, hnew, hlenNew⟩ := cardDetect_buffers h
  have hstate := stateCur_cardDetect hr
  obtain ⟨out, hval, hret⟩ := hf 10 h.iccidNew
  have hbuf : out.buf = h.iccidNew := of_yields card (yields_readTransparent S E iccidFileid 10 h.iccidNew mfFileid) hval hret.ne
  simp only [getStatus, hstate, ne_eq, reduceCtorEq, not_false_eq_true, if_true, run_bind, hnew, hval, hret.ne, if_false,
    run_pure, hold, hlenNew, hbuf]
  exact ⟨_, rfl, rfl, rfl, rfl⟩

theorem readSucceeds_of_delivers (hd : Delivers S E iccidFileid mfFileid card s (iccid s)) (buf : Mem) :
    readSucceeds S E card buf s = true := by
  obtain ⟨buf', -, -, hval⟩ := hd 10 buf
  simp [readSucceeds, hval]

theorem readSucceeds_of_fails (hf : ReadFails S E iccidFileid mfFileid card s) (buf : Mem) :
    readSucceeds S E card buf s = false := by
  obtain ⟨out, hval, hret⟩ := hf 10 buf
  simp [readSucceeds, hval, hret.ne]

variable (hcard : KeepsIccid S E card iccid)
include hcard

/-- Every call keeps what the buffers hold. -/
theorem watching_step {w : Watch} (v : Visit σ) (hw : Watching w) : Watching (visitStep S E card iccid w v).1 := by
  by_cases hr : Removed v.portDetect
  · obtain ⟨hold, hnew, hlenNew⟩ := cardDetect_buffers { w.handle with portDetect := v.portDetect }
    rw [visitStep, val_getStatus_of_removed hr]
    simp only [hr, not_true, false_and, if_false]
    constructor
    · intro hlast
      rw [hold, hnew, hlenNew]
      exact hw.first hlast
    · intro l hlast
      rw [hnew, hlenNew]
      exact hw.later l hlast
  obtain ⟨hd | hf, hlen⟩ := hcard v.card
  · obtain ⟨state, h', hval, -, hheld, hheldLen⟩ :=
      val_getStatus_of_delivers (h := { w.handle with portDetect := v.portDetect }) hr hd hlen
    rw [visitStep, hval]
    simp only [hr, not_false_eq_true, readSucceeds_of_delivers hd, and_self, if_true]
    constructor
    · intro hlast
      simp at hlast
    · intro l hlast
      obtain rfl := Option.some.inj hlast
      exact ⟨hheld, hheldLen⟩
  · obtain ⟨h', hval, hnew, hlenNew, hold⟩ :=
      val_getStatus_of_fails (h := { w.handle with portDetect := v.portDetect }) hr hf
    rw [visitStep, hval]
    simp only [readSucceeds_of_fails hf, Bool.false_eq_true, and_false, if_false]
    constructor
    · intro hlast
      obtain ⟨ho, hn, hl⟩ := hw.first hlast
      refine ⟨?_, hnew.trans hn, hlenNew.trans hl⟩
      rw [hold, overlaid, ho, hn]
      funext p
      exact ite_self _
    · intro l hlast
      rw [hnew, hlenNew]
      exact hw.later l hlast

/-- The answer to a call is right exactly if it meets the condition. -/
theorem verdictRight_iff {w : Watch} (v : Visit σ) (hw : Watching w) :
    VerdictRight S E card iccid v (visitStep S E card iccid w v).2 ↔ ToldApart S E card iccid w v := by
  by_cases hr : Removed v.portDetect
  · rw [visitStep, val_getStatus_of_removed hr]
    exact iff_of_true ⟨_, rfl, by simp [hr]⟩ fun h => absurd hr h
  obtain ⟨hd | hf, hlen⟩ := hcard v.card
  · obtain ⟨state, h', hval, hstate, -⟩ :=
      val_getStatus_of_delivers (h := { w.handle with portDetect := v.portDetect }) hr hd hlen
    have hcmp := hw.compare_iff (iccid v.card)
    rw [visitStep, hval, VerdictRight, ToldApart]
    simp only [Option.some.injEq, exists_eq_left', hstate, hr, not_false_eq_true, hd, true_and, forall_const]
    exact hcmp
  · obtain ⟨h', hval, -⟩ := val_getStatus_of_fails (h := { w.handle with portDetect := v.portDetect }) hr hf
    rw [visitStep, hval]
    refine iff_of_true ⟨_, rfl, ?_⟩ fun _ hd => absurd hf hd.not_readFails
    exact iff_of_false (by simp) fun hd => absurd hf hd.2.1.not_readFails

end Call

/-- The handle as it is at the start of the program. -/
def Watch.initial : Watch := ⟨⟨0, .connected, .connected, fun _ => 0, 0, fun _ => 0, 0⟩, none⟩

/-- **In which runs a change is reported exactly when there is one.** -/
theorem verdicts_iff {S : Sim} {E : Env} {σ : Type} {card : σ → Apdu → σ × Resp} {iccid : σ → List Byte}
    (hcard : KeepsIccid S E card iccid) (visits : List (Visit σ)) :
    (∀ p ∈ Machine.outs (visitStep S E card iccid) .initial visits, VerdictRight S E card iccid p.1 p.2) ↔
      Machine.Guarded (visitStep S E card iccid) (ToldApart S E card iccid) .initial visits :=
  Machine.outs_iff_guarded (I := Watching) (fun _ v hw _ => watching_step hcard v hw)
    (fun _ v hw => verdictRight_iff hcard v hw) visits ⟨fun _ => ⟨rfl, rfl, rfl⟩, fun _ hlast => by simp [Watch.initial] at hlast⟩

theorem keepsIccid_romCard : KeepsIccid fiveByteAid plainEnv (romCard (n := 10)) Subtype.val :=
  fun s => ⟨.inl (delivers_romCard rfl (by decide) s rfl _ _), s.2⟩

/-- After a card of zeros two more, each of which is reported once. -/
theorem verdicts_iff_three :
    let visits : List (Visit {l : List Byte // l.length ≤ 10}) :=
      [⟨0, [0x00], by decide⟩, ⟨0, [0x89], by decide⟩, ⟨0x4, [0x89], by decide⟩, ⟨0, [0x89], by decide⟩,
        ⟨0, [0x98], by decide⟩]
    ∀ p ∈ Machine.outs (visitStep fiveByteAid plainEnv romCard Subtype.val) .initial visits,
      VerdictRight fiveByteAid plainEnv romCard Subtype.val p.1 p.2 := by
  intro visits
  refine (verdicts_iff keepsIccid_romCard visits).mpr ⟨fun _ _ => rfl, fun _ _ => .inl rfl, fun hr => ?_,
    fun _ _ => .inl rfl, fun _ _ => .inl rfl, trivial⟩
  exact absurd (show Removed 0x4 by decide) hr

/-- The first card is reported as a change, and a card whose ICCID is the
beginning of the one before is not. -/
theorem verdicts_not_right :
    let visits : List (Visit {l : List Byte // l.length ≤ 10}) := [⟨0, [0x89, 0x01], by decide⟩, ⟨0, [0x89], by decide⟩]
    (Machine.outs (visitStep fiveByteAid plainEnv romCard Subtype.val) .initial visits).map (fun p => p.2) =
        [(some .changed, none), (some .connected, some [0x89, 0x01])] ∧
      ¬ ∀ p ∈ Machine.outs (visitStep fiveByteAid plainEnv romCard Subtype.val) .initial visits,
        VerdictRight fiveByteAid plainEnv romCard Subtype.val p.1 p.2 := by
  intro visits
  have houts : (Machine.outs (visitStep fiveByteAid plainEnv romCard Subtype.val) .initial visits).map (fun p => p.2) =
      [(some .changed, none), (some .connected, some [0x89, 0x01])] := by decide +kernel
  refine ⟨houts, fun h => ?_⟩
  -- the answer to the first call
  have hanswer : (visitStep fiveByteAid plainEnv romCard Subtype.val .initial
      (⟨0, [0x89, 0x01], by decide⟩ : Visit {l : List Byte // l.length ≤ 10})).2 = (some .changed, none) := by
    decide +kernel
  have hfirst := h _ List.mem_cons_self
  rw [hanswer] at hfirst
  obtain ⟨state, hstate, hiff⟩ := hfirst
  obtain rfl := Option.some.inj hstate
  obtain ⟨-, -, l, hl, -⟩ := hiff.mp rfl
  simp at hl

end Usim
end La12xx
