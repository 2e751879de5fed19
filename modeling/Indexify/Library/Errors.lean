import Mathlib.Data.List.Basic

/-! Computations that can fail. Whether one fails, and what its errors are like, is passed through
sequences and loops. -/
namespace Errors
variable {ε α β : Type} {P : ε → Prop}

lemma bind_eq_ok {x : Except ε α} {f : α → Except ε β} {b : β} :
    (x >>= f) = .ok b ↔ ∃ a, x = .ok a ∧ f a = .ok b := by
  cases x with
  | ok a
  | error e => simp [bind,Except.bind]

/-- The computation succeeds if the condition holds, and else its error satisfies `P`. -/
inductive Decided (P : ε → Prop) : Bool → Except ε α → Prop
  | ok (a : α) : Decided P true (.ok a)
  | error {e : ε} (h : P e) : Decided P false (.error e)

namespace Decided
variable {x : Except ε α} {b b' : Bool}

lemma bind {f : α → Except ε β} (hx : Decided P b x) (hf : ∀ a, Decided P b' (f a)) :
    Decided P (b && b') (x >>= f) := by
  cases hx with
  | ok a => exact hf a
  | error h => exact error h

lemma map (hx : Decided P b x) (g : α → β) : Decided P b (x >>= fun a => .ok (g a)) := by
  cases hx with
  | ok a => exact ok (g a)
  | error h => exact error h

lemma mapM {f : α → Except ε β} {good : α → Bool} (h : ∀ a, Decided P (good a) (f a))
    (as : List α) : Decided P (as.all good) (as.mapM f) := by
  induction as with
  | nil => exact ok []
  | cons a as ih =>
    rw [List.mapM_cons,List.all_cons]
    exact (h a).bind fun b => ih.map _

lemma of_error {e : ε} (h : Decided P b (.error e : Except ε α)) : b=false ∧ P e := by
  cases h with
  | error h => exact ⟨rfl,h⟩

lemma of_ok {a : α} (h : Decided P b (.ok a)) : b=true := by
  cases h with
  | ok => rfl

end Decided
end Errors
