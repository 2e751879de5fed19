import Mathlib.Data.List.Perm.Subperm

/-! Walks along a partial successor function. A walk is cut off after a number of steps; when
a rank grows along every step, a walk with more steps than there are places to visit has seen
everything that can be reached. -/

namespace Walk
variable {α : Type}

def walk (next : α → Option α) : ℕ → α → List α
  | 0,_ => []
  | n+1,a =>
    match next a with
    | none => []
    | some b => b::walk next n b

/-- `b` is reached from `a` in one or more steps. -/
abbrev Reaches (next : α → Option α) : α → α → Prop :=
  Relation.TransGen fun a b => next a = some b

variable {next : α → Option α}

lemma walk_succ_of_none {a : α} (n : ℕ) (h : next a = none) : walk next (n+1) a = [] := by
  simp only [walk,h]

lemma walk_succ_of_some {a b : α} (n : ℕ) (h : next a = some b) :
    walk next (n+1) a = b::walk next n b := by
  simp only [walk,h]

lemma reaches_of_mem_walk {n : ℕ} {a b : α} (h : b ∈ walk next n a) : Reaches next a b := by
  induction n generalizing a with
  | zero => simp [walk] at h
  | succ n ih =>
    cases hn : next a with
    | none => simp [walk_succ_of_none n hn] at h
    | some c =>
      rw [walk_succ_of_some n hn] at h
      rcases List.mem_cons.mp h with rfl | h
      · exact Relation.TransGen.single hn
      · exact Relation.TransGen.head hn (ih h)

lemma mem_walk_of_reaches {n : ℕ} {a b : α} (hlen : (walk next n a).length<n)
    (h : Reaches next a b) : b ∈ walk next n a := by
  induction n generalizing a with
  | zero => omega
  | succ n ih =>
    rcases Relation.TransGen.head'_iff.mp h with ⟨c,hc,hcb⟩
    rw [walk_succ_of_some n hc] at hlen ⊢
    rcases Relation.reflTransGen_iff_eq_or_transGen.mp hcb with rfl | hcb
    · exact List.mem_cons_self
    · simp only [List.length_cons] at hlen
      exact List.mem_cons_of_mem _ (ih (by omega) hcb)

section
variable {rank : α → ℕ} (hrank : ∀ {a b}, next a = some b → rank a<rank b)
include hrank

lemma rank_lt_of_reaches {a b : α} (h : Reaches next a b) : rank a<rank b := by
  induction h with
  | single h => exact hrank h
  | tail _ h ih => exact Nat.lt_trans ih (hrank h)

lemma walk_nodup (n : ℕ) (a : α) : (walk next n a).Nodup := by
  induction n generalizing a with
  | zero => simp [walk]
  | succ n ih =>
    cases hn : next a with
    | none => simp [walk_succ_of_none n hn]
    | some b =>
      rw [walk_succ_of_some n hn,List.nodup_cons]
      refine ⟨?_,ih b⟩
      intro hmem
      exact Nat.lt_irrefl _ (rank_lt_of_reaches hrank (reaches_of_mem_walk hmem))

/-- With more steps than there are places, the walk sees exactly what can be reached. -/
theorem mem_walk_iff {places : List α} {n : ℕ} (hn : places.length<n)
    (hplaces : ∀ {a b}, next a = some b → b∈places) (a b : α) : b ∈ walk next n a ↔ Reaches next a b := by
  refine ⟨reaches_of_mem_walk,mem_walk_of_reaches ?_⟩
  have hsub : walk next n a ⊆ places := by
    intro c hc
    rcases Relation.TransGen.tail'_iff.mp (reaches_of_mem_walk hc) with ⟨d,-,hd⟩
    exact hplaces hd
  have hle : (walk next n a).length ≤ places.length :=
    ((walk_nodup hrank n a).subperm hsub).length_le
  omega

end
end Walk
