import Mathlib.Algebra.BigOperators.Group.List.Basic
import Mathlib.Algebra.Order.Ring.Nat

/-! A greedy pass over a list: every item that fits into what is left of a budget is taken, and
nothing once the budget is used up. -/
namespace Greedy
open List
variable {α : Type}

def take (cost : α → ℕ) (acc : ℕ × List α) (a : α) : ℕ × List α :=
  if acc.1=0 then acc
  else if cost a ≤ acc.1 then (acc.1-cost a,acc.2++[a])
  else acc

def pass (cost : α → ℕ) (budget : ℕ) (items : List α) : ℕ × List α :=
  items.foldl (take cost) (budget,[])

/-- What a pass over the items takes from a budget. -/
structure Picks (cost : α → ℕ) (budget : ℕ) (items taken : List α) (left : ℕ) : Prop where
  sublist : taken.Sublist items
  spent : (taken.map cost).sum+left = budget
  fits : ∀ a∈taken, cost a ≤ budget ∧ budget≠0
  rest : ∀ a∈items, a∉taken → cost a ≤ left → left=0

lemma Picks.cons_take {cost : α → ℕ} {budget left : ℕ} {a : α} {items taken : List α}
    (hpos : budget≠0) (hle : cost a ≤ budget) (h : Picks cost (budget-cost a) items taken left) :
    Picks cost budget (a::items) (a::taken) left where
  sublist := h.sublist.cons_cons a
  spent := by
    have := h.spent
    simp only [map_cons,sum_cons]
    omega
  fits b hb := by
    rcases mem_cons.mp hb with rfl | hb
    · exact ⟨hle,hpos⟩
    · exact ⟨Nat.le_trans (h.fits b hb).1 (Nat.sub_le _ _),hpos⟩
  rest b hb hnot := by
    rw [mem_cons,not_or] at hnot
    exact h.rest b ((mem_cons.mp hb).resolve_left hnot.1) hnot.2

lemma Picks.cons_skip {cost : α → ℕ} {budget left : ℕ} {a : α} {items taken : List α}
    (hno : budget=0 ∨ budget<cost a) (h : Picks cost budget items taken left) :
    Picks cost budget (a::items) taken left where
  sublist := h.sublist.cons a
  spent := h.spent
  fits := h.fits
  rest b hb hnot hle := by
    have := h.spent
    rcases mem_cons.mp hb with rfl | hb
    · omega
    · exact h.rest b hb hnot hle

lemma foldl_take (cost : α → ℕ) (items : List α) (budget : ℕ) (before : List α) :
    ∃ taken left, items.foldl (take cost) (budget,before) = (left,before++taken) ∧
      Picks cost budget items taken left := by
  induction items generalizing budget before with
  | nil => exact ⟨[],budget,by simp,List.Sublist.refl _,by simp,by simp,by simp⟩
  | cons a items ih =>
    rw [foldl_cons,take]
    split_ifs with h0 hle
    · obtain ⟨taken,left,he,h⟩ := ih budget before
      exact ⟨taken,left,he,h.cons_skip (Or.inl h0)⟩
    · obtain ⟨taken,left,he,h⟩ := ih (budget-cost a) (before++[a])
      exact ⟨a::taken,left,by rw [he,append_assoc]; rfl,h.cons_take h0 hle⟩
    · obtain ⟨taken,left,he,h⟩ := ih budget before
      exact ⟨taken,left,he,h.cons_skip (Or.inr (Nat.lt_of_not_le hle))⟩

lemma pass_picks (cost : α → ℕ) (budget : ℕ) (items : List α) :
    Picks cost budget items (pass cost budget items).2 (pass cost budget items).1 := by
  obtain ⟨taken,left,he,h⟩ := foldl_take cost items budget []
  rw [pass,he]
  exact h

end Greedy
