/-
# The mailbox of a recalibration

`hsdcs_adc_full_recal` and `hsdcs_adc_fast_recal` ask the DCS firmware for a calibration
through a bit of `dcs_mailbox_reg1` and poll what the firmware answers. A calibration
that gives up polling for the first answer leaves its bit set, and so presents no edge
the next time (`withdrawn_iff`). The fast one takes a completion for an answer when the
counter of the firmware has become greater, which it does not when it wraps
(`fast_recal_counts_iff`).

A call reads each register of the firmware as often as it polls; what the firmware
answers is a sequence of values for each register.
-/
import La12xx.Lib.Machine

namespace La12xx
namespace Dcs
namespace Mailbox

open Machine

abbrev Word32 := BitVec 32

/-! ### The routines -/

/-- What the reads of a call find, by their number. -/
structure Firmware where
  reg0Resp : ℕ → Word32
  reg2Resp : ℕ → Word32
  adcCalCompStat : ℕ → Word32

/-- `HSDCS_RETRIES` -/
def retries : ℕ := 20

/-- `EBUSY` -/
def ebusy : ℤ := 16

/-- `HSDCS_REG0_RESP_ACK` -/
def respAck : Word32 := 1

/-- `HSDCS_REG0_RESP_INIT_DONE` -/
def respInitDone : Word32 := 1 <<< 4

/-- `HSADC_CAL_BIT_POS_0`, `HSADC_CAL_BIT_POS19` and `HSADC_CAL_BIT_POS20`, as masks -/
def calBit (pos : ℕ) : Word32 := 1 <<< pos

/-- `HSADC_START_RECALIBRATION` -/
def startRecalibration : Word32 := 1 <<< 11

/-- `HSADC_FAST_RECAL_CLEAR_MASK` -/
def fastRecalClearMask : Word32 := 0xFFFF07FF

/-- A polling loop: the last value that was read and the number of the next read. -/
def poll (found : Word32 → Bool) (read : ℕ → Word32) : ℕ → ℕ → Word32 → Word32 × ℕ
  | 0, n, val => (val, n)
  | left + 1, n, _ => if found (read n) then (read n, n + 1) else poll found read left (n + 1) (read n)

/-- The count of completed recalibrations in `dcs_mailbox_reg2_resp` -/
def calCount (val : Word32) : Word32 := val &&& 0xffff0000

/-- `hsdcs_adc_full_recal`: the mailbox register afterwards, and what is returned; `mask` is
`adc_rxi_rxq_mask`. -/
def hsdcsAdcFullRecal (mask : Word32) (fw : Firmware) (reg1 : Word32) : Word32 × ℤ :=
  let val2 := ((reg1 ||| calBit 0) ||| calBit 19) &&& ~~~calBit 20
  let ack := poll (fun val => val &&& respAck ≠ 0) fw.reg0Resp retries 0 0
  if ack.1 &&& respAck = 0 then (val2, -ebusy)
  else
    let val2 := val2 &&& ~~~calBit 0
    let done := poll (fun val => val &&& respInitDone ≠ 0) fw.reg0Resp retries ack.2 ack.1
    if done.1 &&& respInitDone = 0 then (val2, -ebusy)
    else
      let val := (poll (fun val => val &&& 0xff = 0) fw.reg2Resp retries 0 done.1).1
      let calStatus := (poll (fun val => val &&& mask = mask) fw.adcCalCompStat retries 0 0).1
      if val &&& mask ≠ 0 ∨ calStatus &&& mask ≠ mask then (val2, -ebusy) else (val2, 0)

/-- What `hsdcs_adc_fast_recal` writes to ask. -/
def fastRequest (chan reg1 : Word32) : Word32 :=
  (((reg1 &&& fastRecalClearMask) ||| ((chan <<< 12) ||| startRecalibration)) &&& ~~~calBit 19) &&& ~~~calBit 20

/-- `hsdcs_adc_fast_recal` -/
def hsdcsAdcFastRecal (chan : Word32) (fw : Firmware) (reg1 : Word32) : Word32 × ℤ :=
  let cal1 := calCount (fw.reg2Resp 0)
  let oval := fastRequest chan reg1
  let val := (poll (fun val => cal1 < calCount val) fw.reg2Resp retries 1 (fw.reg2Resp 0)).1
  if cal1 < calCount val then (oval &&& ~~~(oval &&& startRecalibration), 0) else (oval, -ebusy)

/-! ### Polling -/

section Poll

variable {found : Word32 → Bool} {read : ℕ → Word32}

/-- The loop ends with what it looks for if one of its reads finds it. -/
theorem poll_found_iff : ∀ (left n : ℕ) (val : Word32), 0 < left →
    (found (poll found read left n val).1 = true ↔ ∃ k < left, found (read (n + k)) = true) := by
  intro left
  induction left with
  | zero => exact fun _ _ h => absurd h (Nat.lt_irrefl 0)
  | succ left ih =>
    intro n val _
    unfold poll
    by_cases hn : found (read n) = true
    · rw [if_pos hn]
      exact iff_of_true hn ⟨0, Nat.succ_pos left, hn⟩
    · rw [if_neg hn]
      rcases Nat.eq_zero_or_pos left with rfl | hpos
      · refine iff_of_false hn ?_
        rintro ⟨k, hk, hfound⟩
        rw [Nat.lt_one_iff.mp hk] at hfound
        exact hn hfound
      · rw [ih (n + 1) (read n) hpos]
        constructor
        · rintro ⟨k, hk, hfound⟩
          exact ⟨k + 1, Nat.succ_lt_succ hk, by rwa [← Nat.add_assoc, Nat.add_right_comm]⟩
        · rintro ⟨k, hk, hfound⟩
          rcases k with _ | k
          · exact absurd hfound hn
          · exact ⟨k, Nat.lt_of_succ_lt_succ hk, by rwa [Nat.add_right_comm, Nat.add_assoc]⟩

end Poll

/-! ### The bits of the register -/

section Bits

variable {v a k m : Word32}

/-- Bits of `m` are set, and the others kept. -/
theorem or_and_not (h : a &&& ~~~m = 0) : (v ||| a) &&& ~~~m = v &&& ~~~m := by
  rw [BitVec.and_or_distrib_right, h]
  exact BitVec.or_zero

/-- A mask that keeps all of `m` does not matter to it. -/
theorem and_and_of_le (h : k &&& m = m) : (v &&& k) &&& m = v &&& m := by
  rw [BitVec.and_assoc, h]

theorem or_and_self (v a : Word32) : (v ||| a) &&& a = a := by
  ext i hi
  simp only [BitVec.getElem_and, BitVec.getElem_or]
  cases a[i] <;> simp

theorem and_not_and_self (v a : Word32) : (v &&& ~~~a) &&& a = 0 := by
  rw [BitVec.and_assoc, BitVec.and_comm (~~~a), BitVec.and_not_self]
  exact BitVec.and_zero

end Bits

/-! ### Whether the request is withdrawn -/

/-- The channels the callers of `hsdcs_adc_fast_recal` pass are four bits. -/
abbrev Chan := { chan : Word32 // chan.toNat ≤ 15 }

/-- A calibration that is asked for. -/
inductive Recal where
  | full (mask : Word32)
  | fast (chan : Chan)

/-- The bit that asks, -/
def Recal.request : Recal → Word32
  | .full _ => calBit 0
  | .fast _ => startRecalibration

/-- and those that say what is asked for. -/
def Recal.select : Recal → Word32
  | .full _ => calBit 19 ||| calBit 20
  | .fast _ => 0xf000 ||| calBit 19 ||| calBit 20

def Recal.call : Recal → Firmware → Word32 → Word32 × ℤ
  | .full mask => hsdcsAdcFullRecal mask
  | .fast chan => hsdcsAdcFastRecal chan.1

/-- The firmware gives the first answer while it is polled: the acknowledgement, or a
greater count. -/
def Recal.Answered (r : Recal) (fw : Firmware) : Prop :=
  match r with
  | .full _ => ∃ k < retries, fw.reg0Resp k &&& respAck ≠ 0
  | .fast _ => ∃ k < retries, calCount (fw.reg2Resp 0) < calCount (fw.reg2Resp (1 + k))

/-- After the call the request bit is clear, and of the others only those that select have
changed. -/
structure Withdrawn (r : Recal) (before after : Word32) : Prop where
  clear : after &&& r.request = 0
  kept : after &&& ~~~(r.request ||| r.select) = before &&& ~~~(r.request ||| r.select)

/-- The request of `hsdcs_adc_full_recal` -/
theorem fullRequest_bits (reg1 : Word32) :
    let val2 := ((reg1 ||| calBit 0) ||| calBit 19) &&& ~~~calBit 20
    val2 &&& calBit 0 = calBit 0 ∧
      val2 &&& ~~~(calBit 0 ||| (calBit 19 ||| calBit 20)) = reg1 &&& ~~~(calBit 0 ||| (calBit 19 ||| calBit 20)) := by
  intro val2
  constructor
  · have hswap : reg1 ||| calBit 0 ||| calBit 19 = reg1 ||| calBit 19 ||| calBit 0 := by
      rw [BitVec.or_assoc, BitVec.or_comm (calBit 0), ← BitVec.or_assoc]
    rw [and_and_of_le (by decide), hswap, or_and_self]
  · rw [and_and_of_le (by decide), or_and_not (by decide), or_and_not (by decide)]

theorem chan_and_not (chan : Chan) : (chan.1 <<< 12) &&& ~~~(0xf000 : Word32) = 0 := by
  obtain ⟨chan, hle⟩ := chan
  have hall : ∀ n < 16, (BitVec.ofNat 32 n <<< 12) &&& ~~~(0xf000 : Word32) = 0 := by decide
  have hn := hall chan.toNat (by omega)
  rwa [BitVec.ofNat_toNat, BitVec.setWidth_eq] at hn

/-- The request of `hsdcs_adc_fast_recal` -/
theorem fastRequest_bits (chan : Chan) (reg1 : Word32) :
    fastRequest chan.1 reg1 &&& startRecalibration = startRecalibration ∧
      fastRequest chan.1 reg1 &&& ~~~(startRecalibration ||| (0xf000 ||| calBit 19 ||| calBit 20)) =
        reg1 &&& ~~~(startRecalibration ||| (0xf000 ||| calBit 19 ||| calBit 20)) := by
  unfold fastRequest
  constructor
  · rw [and_and_of_le (by decide), and_and_of_le (by decide), ← BitVec.or_assoc, or_and_self]
  · have hchan : (chan.1 <<< 12) &&& ~~~(startRecalibration ||| (0xf000 ||| calBit 19 ||| calBit 20)) = 0 := by
      have hle : ~~~(0xf000 : Word32) &&& ~~~(startRecalibration ||| (0xf000 ||| calBit 19 ||| calBit 20)) =
          ~~~(startRecalibration ||| (0xf000 ||| calBit 19 ||| calBit 20)) := by decide
      rw [← hle, ← BitVec.and_assoc, chan_and_not]
      exact BitVec.zero_and
    rw [and_and_of_le (by decide), and_and_of_le (by decide), ← BitVec.or_assoc, or_and_not (by decide),
      or_and_not hchan, and_and_of_le (by decide)]

theorem withdrawn_full_iff (mask : Word32) (fw : Firmware) (reg1 : Word32) :
    Withdrawn (.full mask) reg1 (hsdcsAdcFullRecal mask fw reg1).1 ↔ (Recal.full mask).Answered fw := by
  obtain ⟨hset, hkept⟩ := fullRequest_bits reg1
  have hack := @poll_found_iff (fun val => val &&& respAck ≠ 0) fw.reg0Resp retries 0 0 (by decide)
  simp only [decide_eq_true_eq, Nat.zero_add] at hack
  rw [Recal.Answered, ← hack]
  unfold hsdcsAdcFullRecal
  dsimp only
  by_cases hno : (poll (fun val => val &&& respAck ≠ 0) fw.reg0Resp retries 0 0).1 &&& respAck = 0
  · rw [if_pos hno]
    refine iff_of_false (fun h => ?_) (not_not_intro hno)
    have hclear := h.clear
    rw [show (Recal.full mask).request = calBit 0 from rfl, hset] at hclear
    exact absurd hclear (by decide)
  · rw [if_neg hno]
    refine iff_of_true ?_ hno
    have hw : Withdrawn (.full mask) reg1 (((reg1 ||| calBit 0 ||| calBit 19) &&& ~~~calBit 20) &&& ~~~calBit 0) := by
      refine ⟨and_not_and_self _ _, ?_⟩
      have h := and_and_of_le (v := (reg1 ||| calBit 0 ||| calBit 19) &&& ~~~calBit 20) (k := ~~~calBit 0)
        (m := ~~~(calBit 0 ||| (calBit 19 ||| calBit 20))) (by decide)
      exact h.trans hkept
    split_ifs
    · exact hw
    · exact hw
    · exact hw

/-- A fast calibration goes through exactly if it was answered. -/
theorem hsdcsAdcFastRecal_eq (chan : Chan) (fw : Firmware) (reg1 : Word32) [Decidable ((Recal.fast chan).Answered fw)] :
    hsdcsAdcFastRecal chan.1 fw reg1 =
      if (Recal.fast chan).Answered fw then (fastRequest chan.1 reg1 &&& ~~~startRecalibration, 0)
      else (fastRequest chan.1 reg1, -ebusy) := by
  have hcount := @poll_found_iff (fun val => calCount (fw.reg2Resp 0) < calCount val) fw.reg2Resp
    retries 1 (fw.reg2Resp 0) (by decide)
  simp only [decide_eq_true_eq] at hcount
  unfold hsdcsAdcFastRecal
  dsimp only
  rw [(fastRequest_bits chan reg1).1]
  exact if_congr hcount rfl rfl

theorem withdrawn_fast_iff (chan : Chan) (fw : Firmware) (reg1 : Word32) :
    Withdrawn (.fast chan) reg1 (hsdcsAdcFastRecal chan.1 fw reg1).1 ↔ (Recal.fast chan).Answered fw := by
  classical
  obtain ⟨hset, hkept⟩ := fastRequest_bits chan reg1
  rw [hsdcsAdcFastRecal_eq]
  by_cases hyes : (Recal.fast chan).Answered fw
  · rw [if_pos hyes]
    refine iff_of_true ⟨and_not_and_self _ _, ?_⟩ hyes
    have h := and_and_of_le (v := fastRequest chan.1 reg1) (k := ~~~startRecalibration)
      (m := ~~~(startRecalibration ||| (0xf000 ||| calBit 19 ||| calBit 20))) (by decide)
    exact h.trans hkept
  · rw [if_neg hyes]
    refine iff_of_false (fun h => ?_) hyes
    have hclear := h.clear
    rw [show (Recal.fast chan).request = startRecalibration from rfl, hset] at hclear
    exact absurd hclear (by decide)

/-! ### Calls one after another -/

/-- A call, and what the firmware answers. -/
structure Request where
  recal : Recal
  fw : Firmware

/-- A call finds the register as the call before has left it. The output has it before and
after, and what is returned. -/
def mailboxStep (reg1 : Word32) (r : Request) : Word32 × (Word32 × Word32 × ℤ) :=
  ((r.recal.call r.fw reg1).1, (reg1, r.recal.call r.fw reg1))

theorem withdrawn_call_iff (r : Request) (reg1 : Word32) :
    Withdrawn r.recal reg1 (r.recal.call r.fw reg1).1 ↔ r.recal.Answered r.fw := by
  obtain ⟨recal, fw⟩ := r
  cases recal with
  | full mask => exact withdrawn_full_iff mask fw reg1
  | fast chan => exact withdrawn_fast_iff chan fw reg1

/-- In a run of calls, all requests are withdrawn if and only if the firmware answers every
one of them in time. -/
theorem withdrawn_iff (reg1 : Word32) (rs : List Request) :
    (∀ p ∈ outs mailboxStep reg1 rs, Withdrawn p.1.recal p.2.1 p.2.2.1) ↔ ∀ r ∈ rs, r.recal.Answered r.fw := by
  rw [← @guarded_iff_forall _ _ _ mailboxStep _ reg1]
  refine outs_iff_guarded (I := fun _ => True) (G := fun _ r => r.recal.Answered r.fw)
    (Q := fun r (out : Word32 × Word32 × ℤ) => Withdrawn r.recal out.1 out.2.1) ?_ ?_ rs trivial
  · exact fun _ _ _ _ => trivial
  · exact fun reg1 r _ => withdrawn_call_iff r reg1

/-- A firmware that never acknowledges. -/
def silent : Firmware := ⟨fun _ => 0, fun _ => 0, fun _ => 0⟩

/-- The request of a full calibration stays. -/
theorem full_not_withdrawn :
    hsdcsAdcFullRecal 0x0f silent 0 = (0x80001, -ebusy) ∧
      ¬ Withdrawn (.full 0x0f) 0 (hsdcsAdcFullRecal 0x0f silent 0).1 := by
  refine ⟨by decide, fun h => ?_⟩
  have hclear := h.clear
  exact absurd hclear (by decide)

/-! ### The count of completed calibrations -/

/-- A fast calibration as the firmware makes it: after how many reads that still find the
old count it is finished, if ever, and the other half of the register. -/
structure Finish where
  delay : Option ℕ
  low : ℕ → BitVec 16

/-- The count at the `n`-th read of the call, from `c` on. -/
def Finish.count (f : Finish) (c : BitVec 16) (n : ℕ) : BitVec 16 := if f.delay.any (· < n) then c + 1 else c

/-- The calibration is finished while the call polls. -/
def Finish.InTime (f : Finish) : Prop := f.delay.any (· < retries) = true

instance (f : Finish) : Decidable f.InTime := inferInstanceAs (Decidable (_ = _))

def Finish.firmware (f : Finish) (c : BitVec 16) : Firmware where
  reg0Resp _ := 0
  reg2Resp n := f.count c n ++ f.low n
  adcCalCompStat _ := 0

/-- A call, with the count the firmware is left with: a calibration that was too late is
finished by the next call. -/
def countStep (s : Word32 × BitVec 16) (r : Chan × Finish) : (Word32 × BitVec 16) × ℤ :=
  let out := hsdcsAdcFastRecal r.1.1 (r.2.firmware s.2) s.1
  ((out.1, if r.2.delay.isSome then s.2 + 1 else s.2), out.2)

theorem calCount_append (c l : BitVec 16) : calCount (c ++ l) = c ++ (0 : BitVec 16) := by
  have hmask : (0xffff0000 : Word32) = BitVec.allOnes 16 ++ (0 : BitVec 16) := by decide
  rw [calCount, hmask, BitVec.and_append, BitVec.and_allOnes]
  exact congrArg (c ++ ·) BitVec.and_zero

theorem append_zero_lt_iff (c d : BitVec 16) : (c ++ (0 : BitVec 16) : Word32) < d ++ (0 : BitVec 16) ↔ c < d := by
  have hnat : ∀ e : BitVec 16, (e ++ (0 : BitVec 16)).toNat = e.toNat * 2 ^ 16 := by
    intro e
    rw [BitVec.toNat_append, Nat.shiftLeft_eq]
    exact Nat.or_zero _
  rw [BitVec.lt_def, BitVec.lt_def, hnat, hnat]
  exact Nat.mul_lt_mul_right (by decide)

theorem lt_succ_iff (c : BitVec 16) : c < c + 1 ↔ c ≠ 0xffff := by
  have hlt := c.isLt
  rw [BitVec.lt_def, BitVec.toNat_add, ← BitVec.toNat_inj.ne]
  have h1 : (1 : BitVec 16).toNat = 1 := rfl
  have hmax : (0xffff : BitVec 16).toNat = 2 ^ 16 - 1 := rfl
  rw [h1, hmax]
  omega

theorem any_mono {o : Option ℕ} {m n : ℕ} (hle : m ≤ n) (h : o.any (· < m) = true) : o.any (· < n) = true := by
  cases o with
  | none => cases h
  | some d =>
    simp only [Option.any_some, decide_eq_true_eq] at h ⊢
    exact h.trans_le hle

/-- The calibration is seen, unless the count wraps. -/
theorem answered_iff (chan : Chan) (f : Finish) (c : BitVec 16) :
    (Recal.fast chan).Answered (f.firmware c) ↔ f.InTime ∧ c ≠ 0xffff := by
  have hread : ∀ n, calCount ((f.firmware c).reg2Resp n) = f.count c n ++ (0 : BitVec 16) := fun n =>
    calCount_append _ _
  have hfirst : f.count c 0 = c := by
    unfold Finish.count
    cases f.delay <;> rfl
  have hlater : ∀ n, c < f.count c n ↔ f.delay.any (· < n) = true ∧ c ≠ 0xffff := by
    intro n
    unfold Finish.count
    split_ifs with h
    · rw [lt_succ_iff]
      exact (and_iff_right h).symm
    · exact iff_of_false (BitVec.lt_irrefl c) fun hand => h hand.1
  simp only [Recal.Answered, hread, append_zero_lt_iff, hfirst, hlater]
  constructor
  · rintro ⟨k, hk, hseen, hc⟩
    exact ⟨any_mono (by omega) hseen, hc⟩
  · rintro ⟨hin, hc⟩
    exact ⟨retries - 1, by decide, hin, hc⟩

/-- The calls of a run return success exactly for the calibrations that are finished in time
if and only if none of these is counted from `0xFFFF`. -/
theorem fast_recal_counts_iff (s : Word32 × BitVec 16) (rs : List (Chan × Finish)) :
    (∀ p ∈ outs countStep s rs, (p.2 = 0 ↔ p.1.2.InTime)) ↔
      Guarded countStep (fun s r => ¬ (r.2.InTime ∧ s.2 = 0xffff)) s rs := by
  refine outs_iff_guarded (I := fun _ => True) (Q := fun r (ret : ℤ) => ret = 0 ↔ r.2.InTime) (fun _ _ _ _ => trivial)
    ?_ rs trivial
  intro s r _
  classical
  have hret : (countStep s r).2 = 0 ↔ r.2.InTime ∧ s.2 ≠ 0xffff := by
    rw [← answered_iff r.1]
    show (hsdcsAdcFastRecal r.1.1 (r.2.firmware s.2) s.1).2 = 0 ↔ _
    rw [hsdcsAdcFastRecal_eq]
    split_ifs with h
    · exact iff_of_true rfl h
    · exact iff_of_false (show -ebusy ≠ 0 by decide) h
  rw [hret]
  tauto

/-- The count wraps: the calibration is finished at once, and an error is returned. -/
theorem fast_recal_wraps :
    let f : Finish := ⟨some 0, fun _ => 0⟩
    f.InTime ∧ (hsdcsAdcFastRecal 3 (f.firmware 0xffff) 0).2 = -ebusy ∧
      ¬ ∀ p ∈ outs countStep (0, 0xffff) [(⟨3, by decide⟩, f)], (p.2 = 0 ↔ p.1.2.InTime) := by
  intro f
  refine ⟨by decide, by decide, fun h => ?_⟩
  have hret := (h _ List.mem_cons_self).mpr (by decide)
  exact absurd hret (by decide)

end Mailbox
end Dcs
end La12xx
