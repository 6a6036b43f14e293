/-
# Programs under watch

A watch follows the exchanges of a `Dialogue`: it notes each of them, and it says of each
question whether it may be asked then. `Keeps` is the weakest precondition of a program for
this: whoever answers, every question is allowed when it is asked, and the value meets a
predicate together with what has been noted. Its rules follow the program text, and
`Keeps.allowed` and `Keeps.ends` give back what it says of runs. `Can` is the other side: some
answers lead the program to a value that meets the predicate.
-/
import La12xx.Lib.Dialogue

namespace La12xx
namespace Dialogue

variable {S Q R α β : Type}

/-- Notes the exchanges, and allows questions. -/
structure Watch (S Q R : Type) where
  note : S → Q × R → S
  allow : S → Q → Prop

/-- What has been noted after the exchanges, in order. -/
def Watch.after (w : Watch S Q R) (s : S) (log : List (Q × R)) : S := log.foldl w.note s

/-- Whatever is answered, the program asks what is allowed, and ends as `P` says. -/
def Keeps (w : Watch S Q R) (P : S → α → Prop) : Dialogue Q R α → S → Prop
  | done a, s => P s a
  | ask q k, s => w.allow s q ∧ ∀ r, Keeps w P (k r) (w.note s (q, r))
  | fault, _ => True

variable {w : Watch S Q R} {P : S → α → Prop} {s : S}

/-! ### Rules -/

theorem keeps_query_bind {q : Q} {f : R → Dialogue Q R α} (hq : w.allow s q)
    (hf : ∀ r, Keeps w P (f r) (w.note s (q, r))) : Keeps w P (query q >>= f) s :=
  ⟨hq, hf⟩

/-- One program after the other: what the first ends with is where the second starts. -/
theorem keeps_bind {M : S → α → Prop} {P : S → β → Prop} :
    ∀ {m : Dialogue Q R α} {f : α → Dialogue Q R β} {s : S}, Keeps w M m s →
      (∀ s' a, M s' a → Keeps w P (f a) s') → Keeps w P (m >>= f) s
  | done a, _, s, hm, hf => hf s a hm
  | ask _ _, _, _, hm, hf => ⟨hm.1, fun r => keeps_bind (hm.2 r) hf⟩
  | fault, _, _, _, _ => trivial

theorem Keeps.mono {P' : S → α → Prop} (h : ∀ s a, P s a → P' s a) :
    ∀ {m : Dialogue Q R α} {s : S}, Keeps w P m s → Keeps w P' m s
  | done a, s, hm => h s a hm
  | ask _ _, _, hm => ⟨hm.1, fun r => Keeps.mono h (hm.2 r)⟩
  | fault, _, _ => trivial

theorem Asks.mono {U U' : Q → Prop} (h : ∀ q, U q → U' q) : ∀ {m : Dialogue Q R α}, Asks U m → Asks U' m
  | done _, _ => trivial
  | ask q _, hm => ⟨h q hm.1, fun r => Asks.mono h (hm.2 r)⟩
  | fault, _ => trivial

/-- What every question of a program preserves of what has been noted, the program does. -/
theorem Keeps.preserves {rel : S → S → Prop} {U : Q → Prop} (hrefl : ∀ s, rel s s)
    (htrans : ∀ {s₁ s₂ s₃}, rel s₁ s₂ → rel s₂ s₃ → rel s₁ s₃)
    (hstep : ∀ s q r, U q → rel s (w.note s (q, r))) :
    ∀ {m : Dialogue Q R α} {s : S}, Keeps w P m s → Asks U m → Keeps w (fun s' a => P s' a ∧ rel s s') m s
  | done _, s, hm, _ => ⟨hm, hrefl s⟩
  | ask q _, s, hm, hu => ⟨hm.1, fun r => (Keeps.preserves hrefl htrans hstep (hm.2 r) (hu.2 r)).mono
      fun _ _ h => ⟨h.1, htrans (hstep s q r hu.1) h.2⟩⟩
  | fault, _, _, _ => trivial

/-! ### Runs -/

section Runs

variable {σ : Type*} (step : σ → Q → σ × R)

@[simp] theorem Watch.after_nil : w.after s [] = s := rfl

@[simp] theorem Watch.after_cons (e : Q × R) (log : List (Q × R)) : w.after s (e :: log) = w.after (w.note s e) log :=
  rfl

/-- Every question of a run is allowed when it is asked. -/
theorem Keeps.allowed : ∀ {m : Dialogue Q R α} {s : S}, Keeps w P m s → ∀ {c : σ} {pre post : List (Q × R)} {e : Q × R},
    (run step m c).log = pre ++ e :: post → w.allow (w.after s pre) e.1
  | done _, _, _, _, pre, _, _, hlog => by simp [run] at hlog
  | fault, _, _, _, pre, _, _, hlog => by simp [run] at hlog
  | ask q k, s, h, c, pre, post, e, hlog => by
    cases pre with
    | nil =>
      obtain ⟨rfl, -⟩ := List.cons.inj (show _ :: _ = e :: post from hlog)
      exact h.1
    | cons e' pre =>
      obtain ⟨rfl, hrest⟩ := List.cons.inj (show _ :: _ = e' :: (pre ++ e :: post) from hlog)
      exact Keeps.allowed (h.2 _) hrest

/-- What the value of a run meets. -/
theorem Keeps.ends : ∀ {m : Dialogue Q R α} {s : S}, Keeps w P m s → ∀ {c : σ} {a : α},
    (run step m c).val = some a → P (w.after s (run step m c).log) a
  | done _, _, h, _, _, hv => Option.some.inj hv ▸ h
  | ask _ _, _, h, _, _, hv => Keeps.ends (h.2 _) hv
  | fault, _, _, _, _, hv => by simp [run] at hv

end Runs

/-! ### What some answers reach -/

/-- There are answers with which the program ends as `P` says. -/
def Can (P : α → Prop) : Dialogue Q R α → Prop
  | done a => P a
  | ask _ k => ∃ r, Can P (k r)
  | fault => False

theorem can_bind {M : α → Prop} {P : β → Prop} :
    ∀ {m : Dialogue Q R α} {f : α → Dialogue Q R β}, Can M m → (∀ a, M a → Can P (f a)) → Can P (m >>= f)
  | done a, _, hm, hf => hf a hm
  | ask _ _, _, ⟨r, hm⟩, hf => ⟨r, can_bind hm hf⟩
  | fault, _, hm, _ => hm.elim

/-- Who gives the answers of a list, one after the other -/
def oracle [Inhabited R] : List R → Q → List R × R
  | [], _ => ([], default)
  | r :: rs, _ => (rs, r)

/-- The answers are those of a machine. -/
theorem exists_run_of_can [Inhabited R] {P : α → Prop} : ∀ {m : Dialogue Q R α}, Can P m →
    ∃ rs : List R, ∃ a, (run oracle m rs).val = some a ∧ P a
  | done a, h => ⟨[], a, rfl, h⟩
  | ask _ _, ⟨r, h⟩ => by
    obtain ⟨rs, a, hrun, ha⟩ := exists_run_of_can h
    exact ⟨r :: rs, a, hrun, ha⟩
  | fault, h => h.elim

end Dialogue
end La12xx
