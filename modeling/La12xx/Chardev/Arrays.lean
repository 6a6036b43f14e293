/-
# Indices from the user

The character devices keep arrays with an element for each modem, and for each core
of one, and their ioctls take the indices from a structure in the user's memory.
Here are the arrays, the index an unsigned word stands for, and how a command begins:
with the copy of the structure.
-/
import La12xx.Lib.Access
import La12xx.Notify.Registration

namespace La12xx
namespace Chardev

open Access

/-- The arrays that the character devices index. -/
inductive Arr where
  | tvdPriv
  | gulDev
  | cliPriv
  | epLog
  | wdogPriv
deriving DecidableEq, Repr

/-- How long they are; `coreMax` is `GUL_EP_CORE_MAX`. -/
def Arr.size (coreMax : ℕ) : Arr → ℕ
  | .tvdPriv | .gulDev | .cliPriv => Notify.maxModem
  | .epLog => coreMax
  | .wdogPriv => 1

/-- `ENOTTY` -/
def enotty : ℤ := 25

/-- How a call of `Notify` ends. -/
def retOf : Notify.Ret → Option ℤ
  | .rc n => some n
  | .oops => none

/-- An unsigned index. -/
def idx (w : BitVec 32) : ℤ := w.toNat

theorem idx_range_iff {w : BitVec 32} {n : ℕ} : (0 ≤ idx w ∧ idx w < n) ↔ w.toNat < n := by
  rw [idx, Nat.cast_lt]
  exact and_iff_right (Int.natCast_nonneg _)

/-- As a signed index a word is in a short array exactly if it is as an unsigned one. -/
theorem toInt_range_iff {w : BitVec 32} {n : ℕ} (hn : n ≤ 2 ^ 31) : (0 ≤ w.toInt ∧ w.toInt < n) ↔ w.toNat < n := by
  have hlt := w.isLt
  rw [BitVec.toInt_eq_toNat_cond]
  split <;> omega

section Copied

variable {ο σ : Type*} {coreMax : ℕ} {same : σ → σ → Prop} {s : σ}

/-- A command that needs the copy of the structure. -/
def copied (notCopied : ℕ) (s : σ) (o : Outcome Arr ο σ) : Outcome Arr ο σ :=
  if notCopied ≠ 0 then .done (-Notify.efault) s else o

theorem validated_copied {n : ℕ} {o : Outcome Arr ο σ} :
    Validated (Arr.size coreMax) same s (copied n s o) ↔ (n = 0 → Validated (Arr.size coreMax) same s o) := by
  unfold copied
  split
  case isTrue h => exact iff_of_true (validated_done _) fun h0 => absurd h0 h
  case isFalse h => exact ⟨fun hv _ => hv, fun hv => hv (not_not.mp h)⟩

end Copied

end Chardev
end La12xx
