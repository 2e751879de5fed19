import Mathlib.Tactic.Common

/-! Loops that change a state item by item, leave entries in a log and count what goes wrong. -/
namespace Counting
open List
variable {σ α β : Type}

def run (f : σ → α → σ × ℕ) (s : σ) (as : List α) : σ × ℕ :=
  as.foldl (fun (s,n) a =>
    let (s,k) := f s a
    (s,n+k)) (s,0)

variable {f : σ → α → σ × ℕ}

lemma run_cons (s : σ) (a : α) (as : List α) :
    run f s (a::as) = ((run f (f s a).1 as).1,(f s a).2+(run f (f s a).1 as).2) := by
  have hshift : ∀ (as : List α) (s : σ) (n : ℕ), as.foldl (fun (s,n) a =>
      let (s,k) := f s a
      (s,n+k)) (s,n) = ((run f s as).1,n+(run f s as).2) := by
    intro as
    induction as with
    | nil => exact fun s n => rfl
    | cons a as ih =>
      intro s n
      rw [run,foldl_cons,foldl_cons]
      rw [ih,ih,Nat.zero_add,Nat.add_assoc]
  rw [run,foldl_cons]
  rw [hshift,Nat.zero_add]

/-- When each item adds its entries to the log, the loop adds the entries of all items. -/
lemma run_log (Inv : σ → Prop) (log : σ → List β) {entries : α → List β}
    (hstep : ∀ s a, Inv s → Inv (f s a).1 ∧ log (f s a).1 = log s++entries a) {s : σ} (hs : Inv s)
    (as : List α) : Inv (run f s as).1 ∧ log (run f s as).1 = log s++as.flatMap entries := by
  induction as generalizing s with
  | nil => exact ⟨hs,(append_nil _).symm⟩
  | cons a as ih =>
    obtain ⟨hs',hlog⟩ := hstep s a hs
    obtain ⟨hinv,hrest⟩ := ih hs'
    rw [run_cons,flatMap_cons,← append_assoc,← hlog]
    exact ⟨hinv,hrest⟩

/-- Something is counted only when some item is counted at its turn. -/
lemma exists_counted {s : σ} {as : List α} (h : (run f s as).2 ≠ 0) :
    ∃ before a after, as = before++a::after ∧ (f (run f s before).1 a).2 ≠ 0 := by
  induction as generalizing s with
  | nil => exact absurd rfl h
  | cons a as ih =>
    by_cases ha : (f s a).2 = 0
    · rw [run_cons,ha,Nat.zero_add] at h
      obtain ⟨before,b,after,rfl,hb⟩ := ih h
      refine ⟨a::before,b,after,rfl,?_⟩
      rwa [run_cons]
    · exact ⟨[],a,as,rfl,ha⟩

end Counting
