import Mathlib.Logic.Basic

/-! Runs of a step function over a list of events, and properties of every step of a run. -/
namespace Trace
variable {σ ε : Type*}

/-- Every step of the run from `s` satisfies `ok`, read at the state before the step. -/
def Along (step : σ → ε → σ) (ok : σ → ε → Prop) : σ → List ε → Prop
  | _,[] => True
  | s,e::es => ok s e ∧ Along step ok (step s e) es

variable {step : σ → ε → σ} {ok ok' : σ → ε → Prop} {Inv : σ → Prop}

instance Along.decidable [∀ s e, Decidable (ok s e)] :
    ∀ (s : σ) (es : List ε), Decidable (Along step ok s es)
  | _,[] => isTrue trivial
  | s,e::es =>
    haveI := Along.decidable (step s e) es
    inferInstanceAs (Decidable (ok s e ∧ Along step ok (step s e) es))

/-- What every allowed step keeps holds at the end of an allowed run. -/
lemma Along.invariant (hstep : ∀ {s e}, Inv s → ok s e → Inv (step s e)) {s : σ} {es : List ε}
    (hs : Inv s) (h : Along step ok s es) : Inv (es.foldl step s) := by
  induction es generalizing s with
  | nil => exact hs
  | cons e es ih => exact ih (hstep hs h.1) h.2

/-- An invariant that every step keeps, allowed or not. -/
lemma invariant (hstep : ∀ {s} e, Inv s → Inv (step s e)) {s : σ} (hs : Inv s) (es : List ε) :
    Inv (es.foldl step s) := by
  induction es generalizing s with
  | nil => exact hs
  | cons e es ih => exact ih (hstep e hs)

/-- A part of the state that no step touches. -/
lemma frame {ν : Type*} (step : σ → ε → σ) (view : σ → ν) (hstep : ∀ s e, view (step s e) = view s)
    (s : σ) (es : List ε) : view (es.foldl step s) = view s := by
  induction es generalizing s with
  | nil => rfl
  | cons e es ih => exact (ih (step s e)).trans (hstep s e)

lemma Along.and {s : σ} {es : List ε} (h : Along step ok s es) (h' : Along step ok' s es) :
    Along step (fun s e => ok s e ∧ ok' s e) s es := by
  induction es generalizing s with
  | nil => trivial
  | cons e es ih => exact ⟨⟨h.1,h'.1⟩,ih h.2 h'.2⟩

end Trace
