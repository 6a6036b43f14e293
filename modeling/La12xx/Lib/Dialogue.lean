/-
# Programs that talk to a peer

A `Dialogue Q R α` sends questions of type `Q`, goes on with the answers of
type `R`, and ends with a value or with a fault. What answers is a machine
`step : σ → Q → σ × R`; every behaviour of a peer is such a machine, so what
holds for all of them holds whatever the peer does. `run` gives the state the
peer is left in, the exchanges in order, and the value; `Observes` is a run of
which only some exchanges are seen.
-/
import Mathlib

namespace La12xx

/-- A program that asks and ends with an `α` or a fault. -/
inductive Dialogue (Q R α : Type) where
  | done (a : α)
  | ask (q : Q) (k : R → Dialogue Q R α)
  | fault

namespace Dialogue

variable {Q R α β : Type} {σ : Type*}

/-- Go on with `f` from the value. -/
def bind : Dialogue Q R α → (α → Dialogue Q R β) → Dialogue Q R β
  | done a, f => f a
  | ask q k, f => ask q fun r => (k r).bind f
  | fault, _ => fault

instance : Monad (Dialogue Q R) where
  pure := done
  bind := bind

/-- One question. -/
def query (q : Q) : Dialogue Q R R := ask q done

/-- What is left of a dialogue that ended. -/
structure Outcome (σ : Type*) (Q R α : Type) where
  state : σ
  log : List (Q × R)
  /-- `none` after a fault -/
  val : Option α

/-- The dialogue with a peer that is in the state `s`. -/
def run (step : σ → Q → σ × R) : Dialogue Q R α → σ → Outcome σ Q R α
  | done a, s => ⟨s, [], some a⟩
  | ask q k, s =>
    let o := run step (k (step s q).2) (step s q).1
    ⟨o.state, (q, (step s q).2) :: o.log, o.val⟩
  | fault, s => ⟨s, [], none⟩

section Run

variable (step : σ → Q → σ × R) (s : σ)

@[simp] theorem run_pure (a : α) : run step (pure a : Dialogue Q R α) s = ⟨s, [], some a⟩ := rfl

@[simp] theorem run_fault : run step (fault : Dialogue Q R α) s = ⟨s, [], none⟩ := rfl

@[simp] theorem run_query (q : Q) : run step (query q) s = ⟨(step s q).1, [(q, (step s q).2)], some (step s q).2⟩ :=
  rfl

@[simp] theorem pure_bind (a : α) (f : α → Dialogue Q R β) : (pure a >>= f) = f a := rfl

@[simp] theorem fault_bind (f : α → Dialogue Q R β) : (fault >>= f) = fault := rfl

/-- A question, and what is done with the answer. -/
theorem run_query_bind (q : Q) (f : R → Dialogue Q R β) :
    run step (query q >>= f) s =
      ⟨(run step (f (step s q).2) (step s q).1).state,
        (q, (step s q).2) :: (run step (f (step s q).2) (step s q).1).log,
        (run step (f (step s q).2) (step s q).1).val⟩ := rfl

/-- One program after the other. -/
theorem run_bind (m : Dialogue Q R α) (f : α → Dialogue Q R β) : ∀ s : σ,
    run step (m >>= f) s =
      match (run step m s).val with
      | none => ⟨(run step m s).state, (run step m s).log, none⟩
      | some a =>
        ⟨(run step (f a) (run step m s).state).state,
          (run step m s).log ++ (run step (f a) (run step m s).state).log,
          (run step (f a) (run step m s).state).val⟩ := by
  induction m with
  | done a => intro s; rfl
  | fault => intro s; rfl
  | ask q k ih =>
    intro s
    have h := ih (step s q).2 (step s q).1
    show run step (ask q fun r => k r >>= f) s = _
    simp only [run, h]
    cases (run step (k (step s q).2) (step s q).1).val <;> rfl

/-- What is done with the value afterwards asks nothing. -/
theorem run_bind_pure (m : Dialogue Q R α) (f : α → β) :
    run step (m >>= fun a => pure (f a)) s =
      ⟨(run step m s).state, (run step m s).log, (run step m s).val.map f⟩ := by
  rw [run_bind]
  cases (run step m s).val with
  | none => rfl
  | some a => simp

end Run

/-! ### What a program asks -/

/-- Every question the program can ask meets `P`. -/
def Asks (P : Q → Prop) : Dialogue Q R α → Prop
  | done _ => True
  | ask q k => P q ∧ ∀ r, Asks P (k r)
  | fault => True

/-- The last question before the program ends with a value is `q`, whatever
is answered. -/
def EndsWith (q : Q) : Dialogue Q R α → Prop
  | done _ => False
  | ask q' k => ∀ r, (q' = q ∧ ∃ a, k r = done a) ∨ EndsWith q (k r)
  | fault => True

section Asks

variable {P : Q → Prop} {q : Q}

theorem asks_bind : ∀ {m : Dialogue Q R α} {f : α → Dialogue Q R β},
    Asks P m → (∀ a, Asks P (f a)) → Asks P (m >>= f)
  | done a, _, _, hf => hf a
  | ask _ _, _, hm, hf => ⟨hm.1, fun r => asks_bind (hm.2 r) hf⟩
  | fault, _, _, _ => trivial

theorem asks_query (h : P q) : Asks P (query q : Dialogue Q R R) := ⟨h, fun _ => trivial⟩

theorem asks_query_bind {f : R → Dialogue Q R β} (h : P q) (hf : ∀ r, Asks P (f r)) : Asks P (query q >>= f) := ⟨h, hf⟩

theorem endsWith_query_bind {f : R → Dialogue Q R β} (q' : Q) (hf : ∀ r, EndsWith q (f r)) :
    EndsWith q (query q' >>= f) :=
  fun r => .inr (hf r)

theorem endsWith_last (q : Q) (a : α) :
    EndsWith q (do let _ ← (query q : Dialogue Q R R); pure a : Dialogue Q R α) :=
  fun _ => .inl ⟨rfl, a, rfl⟩

variable (step : σ → Q → σ × R)

theorem log_of_asks : ∀ {m : Dialogue Q R α}, Asks P m → ∀ s, ∀ e ∈ (run step m s).log, P e.1
  | done _, _, _, e, he => by simp [run] at he
  | fault, _, _, e, he => by simp [run] at he
  | ask q k, h, s, e, he => by
    rcases List.mem_cons.mp he with rfl | he
    · exact h.1
    · exact log_of_asks (h.2 _) _ e he

theorem getLast_of_endsWith : ∀ {m : Dialogue Q R α}, EndsWith q m → ∀ s, (run step m s).val ≠ none →
    (run step m s).log.getLast?.map Prod.fst = some q
  | done _, h, _, _ => h.elim
  | fault, _, _, hv => (hv rfl).elim
  | ask q' k, h, s, hv => by
    rcases h (step s q').2 with ⟨rfl, a, ha⟩ | hr
    · simp [run, ha]
    · have ih := getLast_of_endsWith hr (step s q').1 hv
      have hne : (run step (k (step s q').2) (step s q').1).log ≠ [] := by
        intro hnil
        simp [hnil] at ih
      simp only [run]
      rwa [List.getLast?_cons_of_ne_nil hne]

end Asks

/-! ### What a program ends with -/

/-- Every value the program can end with meets `P`. -/
def Yields (P : α → Prop) : Dialogue Q R α → Prop
  | done a => P a
  | ask _ k => ∀ r, Yields P (k r)
  | fault => True

section Yields

variable {P : α → Prop}

theorem yields_pure {a : α} (h : P a) : Yields P (pure a : Dialogue Q R α) := h

theorem yields_fault : Yields P (fault : Dialogue Q R α) := trivial

theorem yields_query_bind (q : Q) {f : R → Dialogue Q R α} (hf : ∀ r, Yields P (f r)) : Yields P (query q >>= f) := hf

theorem yields_bind {P : β → Prop} {R' : α → Prop} : ∀ {m : Dialogue Q R α} {f : α → Dialogue Q R β},
    Yields R' m → (∀ a, R' a → Yields P (f a)) → Yields P (m >>= f)
  | done a, _, hm, hf => hf a hm
  | ask _ _, _, hm, hf => fun r => yields_bind (hm r) hf
  | fault, _, _, _ => trivial

/-- What is asked afterwards may depend on what the value can be. -/
theorem asks_bind_of_yields {P' : Q → Prop} : ∀ {m : Dialogue Q R α} {f : α → Dialogue Q R β},
    Asks P' m → Yields P m → (∀ a, P a → Asks P' (f a)) → Asks P' (m >>= f)
  | done a, _, _, hy, hf => hf a hy
  | ask _ _, _, hm, hy, hf => ⟨hm.1, fun r => asks_bind_of_yields (hm.2 r) (hy r) hf⟩
  | fault, _, _, _, _ => trivial

theorem of_yields (step : σ → Q → σ × R) : ∀ {m : Dialogue Q R α}, Yields P m → ∀ {s : σ} {a : α},
    (run step m s).val = some a → P a
  | done _, h, _, _, hv => Option.some.inj hv ▸ h
  | ask q _, h, s, _, hv => of_yields step (h (step s q).2) hv
  | fault, _, _, _, hv => by simp [run] at hv

end Yields

/-! ### Observed runs -/

section Observes

variable {ε : Type} (step : σ → Q → σ × R) (obs : Q × R → Option ε)

/-- From `s` the program ends in `s'` with the value `a`, and of its exchanges `es` is
seen. -/
def Observes (m : Dialogue Q R α) (s s' : σ) (es : List ε) (a : α) : Prop :=
  ∃ log, run step m s = ⟨s', log, some a⟩ ∧ log.filterMap obs = es

variable {step obs} {m : Dialogue Q R α} {f : α → Dialogue Q R β} {s s' s'' : σ} {es es' : List ε} {a : α} {b : β}

theorem observes_pure : Observes step obs (pure a : Dialogue Q R α) s s [] a := ⟨[], rfl, rfl⟩

theorem observes_query (q : Q) :
    Observes step obs (query q) s (step s q).1 (obs (q, (step s q).2)).toList (step s q).2 := by
  refine ⟨[(q, (step s q).2)], rfl, ?_⟩
  cases h : obs (q, (step s q).2) <;> simp [h]

theorem Observes.bind (hm : Observes step obs m s s' es a) (hf : Observes step obs (f a) s' s'' es' b) :
    Observes step obs (m >>= f) s s'' (es ++ es') b := by
  obtain ⟨log, hrun, rfl⟩ := hm
  obtain ⟨log', hrun', rfl⟩ := hf
  refine ⟨log ++ log', ?_, List.filterMap_append⟩
  rw [run_bind, hrun]
  simp only [hrun']

/-- What is not seen is asked first. -/
theorem Observes.query_bind {q : Q} {f : R → Dialogue Q R β} (hq : obs (q, (step s q).2) = none)
    (hf : Observes step obs (f (step s q).2) (step s q).1 s' es b) : Observes step obs (query q >>= f) s s' es b := by
  have h := (observes_query q).bind hf
  rwa [hq] at h

/-- What is seen is asked first. -/
theorem Observes.seen_bind {q : Q} {f : R → Dialogue Q R β} {e : ε} (hq : obs (q, (step s q).2) = some e)
    (hf : Observes step obs (f (step s q).2) (step s q).1 s' es b) :
    Observes step obs (query q >>= f) s s' (e :: es) b := by
  have h := (observes_query q).bind hf
  rwa [hq] at h

theorem Observes.run_eq (h : Observes step obs m s s' es a) :
    (run step m s).state = s' ∧ (run step m s).log.filterMap obs = es ∧ (run step m s).val = some a := by
  obtain ⟨log, hrun, rfl⟩ := h
  rw [hrun]
  exact ⟨rfl, rfl, rfl⟩

end Observes

end Dialogue
end La12xx
