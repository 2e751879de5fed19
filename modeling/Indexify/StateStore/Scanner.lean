import Mathlib.Data.List.Pairwise

/-! Columns of events that are read page by page. The keys are the big-endian bytes of the ids, so
that a scan sees the events in the order of their ids. -/
namespace Indexify
open List

def maxFetchLimit : ℕ := 500

/-- Rows under increasing ids, and an id that is above all ids given so far. -/
structure Column (α : Type) where
  rows : List (ℕ × α) := []
  nextId : ℕ := 0
  sorted : rows.Pairwise fun r r' => r.1<r'.1 := by exact List.Pairwise.nil
  below : ∀ r∈rows, r.1<nextId := by exact fun _ h => absurd h List.not_mem_nil

namespace Column
variable {α : Type}

/-- A commit adds an event under a larger id than all before. -/
def put (c : Column α) (gap : ℕ) (event : α) : Column α where
  rows := c.rows++[(c.nextId+gap,event)]
  nextId := c.nextId+gap+1
  sorted := by
    refine List.pairwise_append.mpr ⟨c.sorted,List.pairwise_singleton _ _,fun r hr r' hr' => ?_⟩
    rw [List.mem_singleton.mp hr']
    exact Nat.lt_add_right gap (c.below r hr)
  below := by
    intro r hr
    rcases List.mem_append.mp hr with hr | hr
    · exact Nat.lt_succ_of_lt (Nat.lt_add_right gap (c.below r hr))
    · rw [List.mem_singleton.mp hr]
      exact Nat.lt_succ_self _

def remove (c : Column α) (ids : List ℕ) : Column α where
  rows := c.rows.filter fun r => r.1∉ids
  nextId := c.nextId
  sorted := c.sorted.filter _
  below r hr := c.below r (List.mem_filter.mp hr).1

/-- Up to `limit` rows from the restart key on, and the key of the row after them. -/
def getRowsFromCfWithLimits (c : Column α) (restartKey : Option ℕ) (limit : ℕ) :
    List (ℕ × α) × Option ℕ :=
  let iter := c.rows.filter fun r => restartKey.all (· ≤ r.1)
  (iter.take limit,(iter.drop limit).head?.map Prod.fst)

variable {c : Column α} {restartKey : Option ℕ} {limit : ℕ}

lemma mem_page {r : ℕ × α} : r ∈ (c.getRowsFromCfWithLimits restartKey limit).1 ↔
    r ∈ c.rows ∧ (∀ k∈restartKey, k ≤ r.1) ∧
      ∀ k ∈ (c.getRowsFromCfWithLimits restartKey limit).2, r.1<k := by
  unfold getRowsFromCfWithLimits
  have hsorted := c.sorted.filter fun r => restartKey.all (· ≤ r.1)
  have hmem : r∈c.rows ∧ (∀ k∈restartKey, k ≤ r.1) ↔
      r ∈ c.rows.filter fun r => restartKey.all (· ≤ r.1) := by
    cases restartKey <;> simp
  rw [← and_assoc,hmem]
  generalize c.rows.filter (fun r => restartKey.all (· ≤ r.1)) = iter at hsorted
  dsimp only
  rw [← take_append_drop limit iter,pairwise_append] at hsorted
  obtain ⟨-,hlater,hbefore⟩ := hsorted
  have hiter : r∈iter ↔ r ∈ iter.take limit ∨ r ∈ iter.drop limit := by
    rw [← mem_append,take_append_drop]
  rw [hiter]
  cases hdrop : iter.drop limit with
  | nil => simp
  | cons r' rest =>
    rw [hdrop] at hlater hbefore
    have hnot : r ∈ r'::rest → ¬r.1<r'.1 := by
      intro hr
      rcases mem_cons.mp hr with rfl | hr
      · exact Nat.lt_irrefl _
      · exact Nat.lt_asymm ((pairwise_cons.mp hlater).1 r hr)
    simp only [List.head?_cons,Option.map_some,Option.mem_def,Option.some.injEq,forall_eq']
    refine ⟨fun hr => ⟨.inl hr,hbefore r hr r' mem_cons_self⟩,?_⟩
    rintro ⟨hr | hr,hlt⟩
    · exact hr
    · exact absurd hlt (hnot hr)

lemma nextKey_lt {k : ℕ} (h : k ∈ (c.getRowsFromCfWithLimits restartKey limit).2) : k<c.nextId := by
  obtain ⟨r,hr,rfl⟩ := Option.map_eq_some_iff.mp h
  exact c.below r (mem_filter.mp (mem_of_mem_drop (mem_of_head? hr))).1

lemma nextKey_of_page_nil (hlimit : 0<limit) (h : (c.getRowsFromCfWithLimits restartKey limit).1 = []) :
    (c.getRowsFromCfWithLimits restartKey limit).2 = none := by
  rcases take_eq_nil_iff.mp h with hzero | hnil
  · exact absurd hzero (Nat.ne_of_gt hlimit)
  · simp [getRowsFromCfWithLimits,hnil]

end Column
end Indexify
