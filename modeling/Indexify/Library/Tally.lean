import Indexify.Library.Dict

/-! Tallies: how many ids of a set have which key, kept up to date by adding and taking one at a
time. A key with count zero has no entry. -/
namespace Tally
variable {K A : Type} [DecidableEq K] [DecidableEq A]

def increment (t : Dict K ℕ) (k : K) : Dict K ℕ := t.insert k ((t.lookup k).getD 0+1)

def decrement (t : Dict K ℕ) (k : K) : Dict K ℕ :=
  match t.lookup k with
  | some count => if count-1 = 0 then t.erase k else t.insert k (count-1)
  | none => t

def count (ids : Finset A) (key : A → Option K) (k : K) : ℕ :=
  (ids.filter fun a => key a = some k).card

def entry (n : ℕ) : Option ℕ := if n=0 then none else some n

def Tallies (t : Dict K ℕ) (ids : Finset A) (key : A → Option K) : Prop :=
  ∀ k, t.lookup k = entry (count ids key k)

omit [DecidableEq A] in
lemma tallies_empty (key : A → Option K) : Tallies (∅ : Dict K ℕ) ∅ key := fun _ => rfl

@[simp] lemma entry_zero : entry 0 = none := rfl

@[simp] lemma entry_succ (n : ℕ) : entry (n+1) = some (n+1) := rfl

lemma entry_getD (n : ℕ) : (entry n).getD 0 = n := by
  cases n <;> rfl

lemma lookup_increment {t : Dict K ℕ} {n : K → ℕ} (h : ∀ k, t.lookup k = entry (n k)) (k k' : K) :
    (increment t k).lookup k' = entry (n k'+if k'=k then 1 else 0) := by
  unfold increment
  rw [Dict.lookup_insert_if]
  split_ifs with hk
  · subst hk
    rw [h k',entry_getD]
    rfl
  · exact h k'

lemma lookup_decrement {t : Dict K ℕ} {n : K → ℕ} (h : ∀ k, t.lookup k = entry (n k)) (k k' : K) :
    (decrement t k).lookup k' = entry (n k'-if k'=k then 1 else 0) := by
  unfold decrement
  cases hn : n k with
  | zero =>
    rw [h k,hn]
    dsimp only [entry_zero]
    rw [h k']
    split_ifs with hk
    · rw [hk,hn]
    · rfl
  | succ c =>
    rw [h k,hn]
    dsimp only [entry_succ]
    split_ifs with hc hk hk
    · -- the last id of the key goes with its entry
      subst hk
      obtain rfl : c=0 := by omega
      rw [Dict.lookup_erase_if,if_pos rfl,hn]
      rfl
    · rw [Dict.lookup_erase_if,if_neg hk]
      exact h k'
    · subst hk
      obtain ⟨d,rfl⟩ : ∃ d, c = d+1 := ⟨c-1,by omega⟩
      rw [Dict.lookup_insert_if,if_pos rfl,hn]
      rfl
    · rw [Dict.lookup_insert_if,if_neg hk]
      exact h k'

section
variable {ids : Finset A} {key key' : A → Option K} {a : A} {k : K}

omit [DecidableEq A] in
lemma count_congr (h : ∀ a∈ids, key a = key' a) (k : K) : count ids key k = count ids key' k := by
  unfold count
  rw [Finset.filter_congr fun a ha => by rw [h a ha]]

lemma count_insert (h : a∉ids) (k : K) :
    count (insert a ids) key k = count ids key k+if key a = some k then 1 else 0 := by
  unfold count
  rw [Finset.filter_insert]
  split_ifs with hk
  · have hn : a ∉ ids.filter fun a => key a = some k := fun ha => h (Finset.mem_filter.mp ha).1
    rw [Finset.card_insert_of_notMem hn]
  · rfl

lemma count_erase (h : a∈ids) (k : K) :
    count ids key k = count (ids.erase a) key k+if key a = some k then 1 else 0 := by
  have hins : count (insert a (ids.erase a)) key k = _ := count_insert (Finset.notMem_erase a ids) k
  rwa [Finset.insert_erase h] at hins

end

section
variable {t : Dict K ℕ} {ids : Finset A} {key key' : A → Option K} {a : A} {k : K}
variable (h : Tallies t ids key)
include h

omit [DecidableEq A] in
lemma Tallies.congr (hkey : ∀ a∈ids, key a = key' a) : Tallies t ids key' := by
  intro k
  rw [h k,count_congr hkey]

lemma Tallies.insert (ha : a∉ids) (hk : key a = some k) : Tallies (increment t k) (insert a ids) key := by
  intro k'
  rw [lookup_increment h,count_insert ha,hk]
  simp [eq_comm]

lemma Tallies.insert_none (ha : a∉ids) (hk : key a = none) : Tallies t (Insert.insert a ids) key := by
  intro k'
  rw [h k',count_insert ha,hk]
  simp

lemma Tallies.erase (ha : a∈ids) (hk : key a = some k) : Tallies (decrement t k) (ids.erase a) key := by
  intro k'
  rw [lookup_decrement h,count_erase ha,hk]
  simp [eq_comm]

lemma Tallies.erase_none (ha : a∈ids) (hk : key a = none) : Tallies t (ids.erase a) key := by
  intro k'
  rw [h k',count_erase ha,hk]
  simp

omit h
end
end Tally
