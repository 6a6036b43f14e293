/-
# Programs under way

What is left of a `Dialogue` after some exchanges (`Left`), where who answers need not be
a machine; and straight programs, which ask a list of questions one after the other and
stop at the first answer that is not the good one (`straight`).
-/
import La12xx.Lib.Dialogue

namespace La12xx
namespace Dialogue

variable {Q R α : Type}

/-- After the exchanges, in order, `p'` is left of `p`. -/
inductive Left (p : Dialogue Q R α) : List (Q × R) → Dialogue Q R α → Prop
  | start : Left p [] p
  | answer {log : List (Q × R)} {q : Q} {k : R → Dialogue Q R α} (r : R) (h : Left p log (ask q k)) :
    Left p (log ++ [(q, r)]) (k r)

variable [DecidableEq R] {ok : R}

/-- Ask the questions in turn, as long as the answers are `ok`; end with the last answer. -/
def straight (ok : R) : List Q → R → Dialogue Q R R
  | [], r => done r
  | q :: qs, _ => ask q fun r => if r = ok then straight ok qs r else done r

/-- A straight program whose last question needs no test. -/
theorem straight_singleton (q : Q) (r : R) : straight ok [q] r = query q := by
  simp only [straight, query, ite_self]

/-- A question whose answer ends the program unless it is good. -/
theorem query_bind_eq_straight {q : Q} {qs : List Q} {r₀ : R} {f : R → Dialogue Q R R} (hbad : ∀ r, r ≠ ok → f r = done r)
    (hok : f ok = straight ok qs ok) : (query q >>= f) = straight ok (q :: qs) r₀ := by
  show ask q f = ask q _
  congr 1
  funext r
  split_ifs with hr
  · rw [hr, hok]
  · exact hbad r hr

/-- What has been asked of a straight program, and what is left of it. -/
theorem left_straight {qs : List Q} {r₀ : R} {log : List (Q × R)} {p : Dialogue Q R R} (h : Left (straight ok qs r₀) log p) :
    ∃ rest, qs = log.map Prod.fst ++ rest ∧
      (((∀ e ∈ log, e.2 = ok) ∧ p = straight ok rest ((log.getLast?.map Prod.snd).getD r₀)) ∨
        ∃ pre q r, log = pre ++ [(q, r)] ∧ r ≠ ok ∧ (∀ e ∈ pre, e.2 = ok) ∧ p = done r) := by
  induction h with
  | start => exact ⟨qs, rfl, Or.inl ⟨fun e he => absurd he List.not_mem_nil, rfl⟩⟩
  | @answer log q k r _ ih =>
    obtain ⟨rest, hqs, ⟨hok, hp⟩ | ⟨_, _, _, _, _, _, hp⟩⟩ := ih
    · cases rest with
      | nil => cases hp
      | cons q' rest =>
        obtain ⟨rfl, rfl⟩ : q = q' ∧ k = fun r => if r = ok then straight ok rest r else done r := by
          simpa [straight] using hp
        refine ⟨rest, by simpa using hqs, ?_⟩
        by_cases hr : r = ok
        · refine Or.inl ⟨fun e he => ?_, by simp [hr]⟩
          rcases List.mem_append.mp he with he | he
          · exact hok e he
          · rw [List.mem_singleton.mp he, hr]
        · exact Or.inr ⟨log, q, r, rfl, hr, hok, by simp [hr]⟩
    · cases hp

end Dialogue
end La12xx
