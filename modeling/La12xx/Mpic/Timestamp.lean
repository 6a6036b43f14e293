/-
# The timestamp of the modem

`get_mpic_current_count` reads a counter of 63 bits that runs down from all ones, in
two words: the high one first, the low one after that, and the counter may tick
in between. It makes the ticks since the start of the two words and divides them to
microseconds. Three things keep it from that: the high word counts for `2^32 - 1` ticks
and not for `2^32`, the clock of 76.8 MHz is taken for one of 76 MHz
(`MPIC_TIMER_CLOCK / 1000000` drops the rest), and nothing notices when the low word
has wrapped between the two reads.

With `s` and `t` the ticks at the two reads, the result is
`(s / 2^32 * (2^32 - 1) + t % 2^32) / 76` (`Reading.result_toNat`). From that: a result
without a tick between the reads is right only within the first 7143 ticks, and not for all
of these (`microseconds_iff`), and two results are in order unless the second call reads
a low word that has wrapped beside a high word that has not (`ordered_iff`).
-/
import La12xx.Lib.Endian

namespace La12xx
namespace Mpic

open Endian

/-! ### The code -/

/-- `MPIC_TIMER_CLOCK` -/
def mpicTimerClock : ℕ := 76800000

/-- `MPIC_TIMER_COUNT_TO_US` -/
def mpicTimerCountToUs (count : BitVec 64) : BitVec 64 := count / BitVec.ofNat 64 (mpicTimerClock / 1000000)

/-- On a little-endian host. -/
def htobe32 (x : BitVec 32) : BitVec 32 := swab32 x

/-- `get_mpic_current_count`, for the words that it reads at `virt_addr_gtccrb1` and
`virt_addr_gtccrb0`. -/
def getMpicCurrentCount (gtccrb1 gtccrb0 : BitVec 32) : BitVec 64 :=
  let countHi := htobe32 gtccrb1 &&& 0x7FFFFFFF#32
  let countLo := htobe32 gtccrb0
  let timerCount := (0x7FFFFFFF#32 - countHi).setWidth 64
  let timerCount := timerCount * 0xFFFFFFFF#64
  let timerCount := timerCount + (0xFFFFFFFF#32 - countLo).setWidth 64
  mpicTimerCountToUs timerCount

/-! ### The counter -/

/-- The counter after `e` ticks. -/
def counter (e : ℕ) : BitVec 63 := BitVec.allOnes 63 - BitVec.ofNat 63 e

/-- The register of the high word, which is big-endian. Its top bit is not of the counter. -/
def gtccrb1 (e : ℕ) (toggle : BitVec 1) : BitVec 32 := swab32 (toggle ++ (counter e).extractLsb' 32 31)

/-- The register of the low word. -/
def gtccrb0 (e : ℕ) : BitVec 32 := swab32 ((counter e).extractLsb' 0 32)

/-- The counter has not reached zero in `e` ticks. -/
def Running (e : ℕ) : Prop := ∀ e' ≤ e, counter e' ≠ 0

/-- The ticks before a call, those between its two reads, and the top bit it finds. -/
structure Call where
  before : ℕ
  between : ℕ
  toggle : BitVec 1

/-- A call in a run: the ticks since the start of the counter at its two reads. -/
structure Reading where
  hiAt : ℕ
  loAt : ℕ
  toggle : BitVec 1
  le : hiAt ≤ loAt

/-- The calls of a run that starts after `e` ticks. -/
def readings : ℕ → List Call → List Reading
  | _, [] => []
  | e, c :: cs =>
    ⟨e + c.before, e + c.before + c.between, c.toggle, Nat.le_add_right _ _⟩ :: readings (e + c.before + c.between) cs

def Reading.result (r : Reading) : BitVec 64 := getMpicCurrentCount (gtccrb1 r.hiAt r.toggle) (gtccrb0 r.loAt)

/-- The whole microseconds in `e` ticks. -/
def microseconds (e : ℕ) : ℕ := e * 1000000 / mpicTimerClock

/-- As long as the counter runs, no result is smaller than the one before, and
one with no tick between its reads is the time. -/
structure Faithful (calls : List Call) : Prop where
  ordered : (readings 0 calls).IsChain fun r r' => Running r'.loAt → r.result ≤ r'.result
  time : ∀ r ∈ readings 0 calls, Running r.loAt → r.hiAt = r.loAt → r.result.toNat = microseconds r.loAt

/-! ### What a call returns -/

section Counter

variable {e : ℕ}

theorem counter_toNat (h : e < 2 ^ 63) : (counter e).toNat = 2 ^ 63 - 1 - e := by
  rw [counter, BitVec.toNat_sub, BitVec.toNat_allOnes, BitVec.toNat_ofNat, Nat.mod_eq_of_lt h]
  omega

theorem running_iff : Running e ↔ e < 2 ^ 63 - 1 := by
  constructor
  · intro h
    by_contra hge
    have hzero : counter (2 ^ 63 - 1) = 0 := by decide
    exact h (2 ^ 63 - 1) (Nat.not_lt.mp hge) hzero
  · intro h e' he' hzero
    have hnat := congrArg BitVec.toNat hzero
    rw [counter_toNat (by omega)] at hnat
    have hpos : 0 < 2 ^ 63 - 1 - e' := by omega
    exact absurd hnat (Nat.ne_of_gt hpos)

/-- The mask drops the top bit. -/
theorem append_and_mask (b : BitVec 1) (x : BitVec 31) : ((b ++ x : BitVec 32) &&& 0x7FFFFFFF#32).toNat = x.toNat := by
  have hmask : (0x7FFFFFFF#32).toNat = 2 ^ 31 - 1 := rfl
  rw [BitVec.toNat_and, hmask, Nat.and_two_pow_sub_one_eq_mod, BitVec.toNat_append,
    ← Nat.shiftLeft_add_eq_or_of_lt x.isLt, Nat.shiftLeft_eq, Nat.mul_add_mod_self_right]
  exact Nat.mod_eq_of_lt x.isLt

theorem countHi_toNat (h : e < 2 ^ 63) (toggle : BitVec 1) :
    (htobe32 (gtccrb1 e toggle) &&& 0x7FFFFFFF#32).toNat = 2 ^ 31 - 1 - e / 2 ^ 32 := by
  rw [htobe32, gtccrb1, swab32_swab32, append_and_mask, BitVec.extractLsb'_toNat, counter_toNat h,
    Nat.shiftRight_eq_div_pow]
  omega

theorem countLo_toNat (h : e < 2 ^ 63) : (htobe32 (gtccrb0 e)).toNat = 2 ^ 32 - 1 - e % 2 ^ 32 := by
  rw [htobe32, gtccrb0, swab32_swab32, BitVec.extractLsb'_toNat, counter_toNat h, Nat.shiftRight_zero]
  omega

end Counter

/-- The ticks that a call makes of what it reads. -/
def Reading.count (r : Reading) : ℕ := r.hiAt / 2 ^ 32 * (2 ^ 32 - 1) + r.loAt % 2 ^ 32

theorem Reading.result_toNat (r : Reading) (h : Running r.loAt) : r.result.toNat = r.count / 76 := by
  have hlo : r.loAt < 2 ^ 63 := lt_of_lt_of_le (running_iff.mp h) (Nat.sub_le _ _)
  have hhi : r.hiAt < 2 ^ 63 := lt_of_le_of_lt r.le hlo
  have hword : r.hiAt / 2 ^ 32 < 2 ^ 31 := by omega
  have hdown : (0x7FFFFFFF#32 - (htobe32 (gtccrb1 r.hiAt r.toggle) &&& 0x7FFFFFFF#32)).toNat = r.hiAt / 2 ^ 32 := by
    rw [BitVec.toNat_sub, countHi_toNat hhi]
    have hmax : (0x7FFFFFFF#32).toNat = 2 ^ 31 - 1 := rfl
    omega
  have hdown' : (0xFFFFFFFF#32 - htobe32 (gtccrb0 r.loAt)).toNat = r.loAt % 2 ^ 32 := by
    rw [BitVec.toNat_sub, countLo_toNat hlo]
    have hmax : (0xFFFFFFFF#32).toNat = 2 ^ 32 - 1 := rfl
    omega
  have hmul : (0xFFFFFFFF#64).toNat = 2 ^ 32 - 1 := rfl
  have hdiv : (BitVec.ofNat 64 (mpicTimerClock / 1000000)).toNat = 76 := rfl
  rw [Reading.result, getMpicCurrentCount, mpicTimerCountToUs, BitVec.toNat_udiv, BitVec.toNat_add, BitVec.toNat_mul,
    BitVec.toNat_setWidth, BitVec.toNat_setWidth, hdown, hdown', hmul, hdiv, Reading.count]
  apply congrArg (fun n : ℕ => n / 76)
  omega

/-! ### The time -/

section Time

variable {e : ℕ}

/-- The ticks before the remainder outweighs what the division by 76 adds. -/
def InTime (e : ℕ) : Prop := 4 * (e / 76) ≤ 5 * (e % 76)

instance (e : ℕ) : Decidable (InTime e) := inferInstanceAs (Decidable (4 * (e / 76) ≤ 5 * (e % 76)))

theorem InTime.lt (h : InTime e) : e < 7144 := by
  unfold InTime at h
  omega

/-- A tick is five in 384 of a microsecond. -/
theorem microseconds_eq (e : ℕ) : microseconds e = 5 * e / 384 := by
  unfold microseconds mpicTimerClock
  omega

/-- Read without a tick in between, the words give one tick too few for each wrap of the
low one. -/
theorem count_at (e : ℕ) : e / 2 ^ 32 * (2 ^ 32 - 1) + e % 2 ^ 32 = e - e / 2 ^ 32 := by
  omega

/-- A count of `e` ticks is divided to the microseconds only early in time. -/
theorem microseconds_iff (e : ℕ) : (e - e / 2 ^ 32) / 76 = microseconds e ↔ InTime e := by
  rw [microseconds_eq]
  constructor
  · intro h
    rcases Nat.lt_or_ge e (2 ^ 32) with hlow | hlow
    · -- no wrap yet: 384 parts of each 76 ticks lie in 380
      have hwrap : e / 2 ^ 32 = 0 := Nat.div_eq_of_lt hlow
      rw [hwrap, Nat.sub_zero] at h
      have hle : 384 * (e / 76) ≤ 5 * e := by
        rw [h]
        exact Nat.mul_div_le (5 * e) 384
      unfold InTime
      omega
    · -- one part in 96 is too much for one tick in a wrap
      have hfew : 2 ^ 32 * (e / 2 ^ 32) ≤ e := Nat.mul_div_le e (2 ^ 32)
      have hle : 384 * ((e - e / 2 ^ 32) / 76) ≤ 5 * e := by
        rw [h]
        exact Nat.mul_div_le (5 * e) 384
      have hlt : e - e / 2 ^ 32 < 76 * ((e - e / 2 ^ 32) / 76) + 76 := by omega
      generalize (e - e / 2 ^ 32) / 76 = m at hle hlt
      omega
  · intro h
    have hwrap : e / 2 ^ 32 = 0 := Nat.div_eq_of_lt (h.lt.trans (by norm_num))
    rw [hwrap, Nat.sub_zero]
    unfold InTime at h
    omega

/-- Without a tick between its reads, a call returns the time exactly when it is early. -/
theorem Reading.time_iff (r : Reading) (h : Running r.loAt) (hnotick : r.hiAt = r.loAt) :
    r.result.toNat = microseconds r.loAt ↔ InTime r.loAt := by
  rw [r.result_toNat h, Reading.count, hnotick, count_at]
  exact microseconds_iff r.loAt

end Time

/-! ### The order -/

/-- The low word wraps between the two reads. -/
def Reading.Torn (r : Reading) : Prop := r.loAt / 2 ^ 32 ≠ r.hiAt / 2 ^ 32

/-- The ticks past the last whole multiple of 76, where a wrap of the low word counts
for 43 (`2^32 - 1` modulo 76). -/
def Reading.past (r : Reading) : ℕ := (43 * (r.hiAt / 2 ^ 32) + r.loAt % 2 ^ 32) % 76

/-- If the second call reads a low word that has wrapped, and finds the high word of the
first, the low word has come back to where the first has read it, or lacks no
more than the ticks past the last multiple there. -/
def InOrder (r r' : Reading) : Prop :=
  r'.Torn → r'.hiAt / 2 ^ 32 = r.hiAt / 2 ^ 32 → r.loAt % 2 ^ 32 ≤ r'.loAt % 2 ^ 32 + r.past

theorem Reading.count_mod (r : Reading) : r.count % 76 = r.past := by
  unfold Reading.count Reading.past
  omega

/-- Two calls, one after the other, are in order exactly under that condition. -/
theorem ordered_iff {r r' : Reading} (hafter : r.loAt ≤ r'.hiAt) (h : Running r'.loAt) :
    r.result ≤ r'.result ↔ InOrder r r' := by
  have hle := r.le
  have hle' := r'.le
  have hrun : Running r.loAt := fun e' he' => h e' (he'.trans (hafter.trans hle'))
  have hhigh : r.hiAt / 2 ^ 32 ≤ r'.hiAt / 2 ^ 32 := Nat.div_le_div_right (hle.trans hafter)
  have hdiv : r.count / 76 ≤ r'.count / 76 ↔ r.count ≤ r'.count + r.past := by
    rw [← r.count_mod]
    omega
  rw [BitVec.le_def, r.result_toNat hrun, r'.result_toNat h, hdiv]
  unfold InOrder Reading.Torn
  rcases Nat.eq_or_lt_of_le hhigh with heq | hlt
  · -- the high words agree: what differs is in the low ones
    have hcount : r.count ≤ r'.count + r.past ↔ r.loAt % 2 ^ 32 ≤ r'.loAt % 2 ^ 32 + r.past := by
      rw [Reading.count, Reading.count, heq, Nat.add_assoc]
      exact Nat.add_le_add_iff_left
    rw [hcount]
    constructor
    · intro hlow _ _
      exact hlow
    · intro himp
      by_cases htorn : r'.loAt / 2 ^ 32 = r'.hiAt / 2 ^ 32
      · omega
      · exact himp htorn heq.symm
  · -- a higher word outweighs any low one
    refine iff_of_true ?_ fun _ heq => absurd heq.symm (Nat.ne_of_lt hlt)
    have hmore : (r.hiAt / 2 ^ 32 + 1) * (2 ^ 32 - 1) ≤ r'.hiAt / 2 ^ 32 * (2 ^ 32 - 1) := Nat.mul_le_mul_right _ hlt
    calc r.count ≤ (r.hiAt / 2 ^ 32 + 1) * (2 ^ 32 - 1) := by
          unfold Reading.count
          omega
      _ ≤ r'.hiAt / 2 ^ 32 * (2 ^ 32 - 1) := hmore
      _ ≤ r'.count := Nat.le_add_right _ _
      _ ≤ r'.count + r.past := Nat.le_add_right _ _

/-! ### A run -/

/-- The reads of a run are one after the other. -/
theorem readings_chain (e : ℕ) (calls : List Call) : (readings e calls).IsChain fun r r' => r.loAt ≤ r'.hiAt := by
  induction calls generalizing e with
  | nil => exact List.isChain_nil
  | cons c calls ih =>
    cases calls with
    | nil => exact List.isChain_singleton _
    | cons c' calls => exact List.isChain_cons_cons.mpr ⟨Nat.le_add_right _ _, ih _⟩

/-- The timestamps of a run are as they should be exactly if each call without a tick
between its reads is early, and each two calls meet the condition of the order. -/
theorem faithful_iff (calls : List Call) :
    Faithful calls ↔
      ((readings 0 calls).IsChain fun r r' => Running r'.loAt → InOrder r r') ∧
        ∀ r ∈ readings 0 calls, Running r.loAt → r.hiAt = r.loAt → InTime r.loAt := by
  have hchain := readings_chain 0 calls
  rw [List.isChain_iff_forall_rel_of_append_cons_cons] at hchain
  have hordered : ((readings 0 calls).IsChain fun r r' => Running r'.loAt → r.result ≤ r'.result) ↔
      (readings 0 calls).IsChain fun r r' => Running r'.loAt → InOrder r r' := by
    rw [List.isChain_iff_forall_rel_of_append_cons_cons, List.isChain_iff_forall_rel_of_append_cons_cons]
    constructor
    · intro h r r' l₁ l₂ hl hrun
      exact (ordered_iff (hchain hl) hrun).mp (h hl hrun)
    · intro h r r' l₁ l₂ hl hrun
      exact (ordered_iff (hchain hl) hrun).mpr (h hl hrun)
  constructor
  · intro h
    exact ⟨hordered.mp h.ordered, fun r hr hrun hnotick => (r.time_iff hrun hnotick).mp (h.time r hr hrun hnotick)⟩
  · rintro ⟨horder, htime⟩
    exact ⟨hordered.mpr horder, fun r hr hrun hnotick => (r.time_iff hrun hnotick).mpr (htime r hr hrun hnotick)⟩

/-- One microsecond before the first has passed; and a call across the first wrap of the low
word, after one just before it. -/
theorem early_and_torn :
    ¬ Faithful [⟨76, 0, 0⟩] ∧ ¬ Faithful [⟨2 ^ 32 - 1, 0, 0⟩, ⟨0, 1, 0⟩] := by
  constructor
  · intro h
    have hrun : Running 76 := running_iff.mpr (by norm_num)
    have htime := h.time ⟨76, 76, 0, le_rfl⟩ List.mem_cons_self hrun rfl
    rw [Reading.result_toNat _ hrun] at htime
    revert htime
    decide
  · intro h
    have hrun : Running (2 ^ 32 - 1) := running_iff.mpr (by norm_num)
    have hrun' : Running (2 ^ 32) := running_iff.mpr (by norm_num)
    have horder := (List.isChain_cons_cons.mp h.ordered).1 hrun'
    rw [BitVec.le_def, Reading.result_toNat _ hrun, Reading.result_toNat _ hrun'] at horder
    revert horder
    decide

end Mpic
end La12xx
