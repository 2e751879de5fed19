import Mathlib.Data.Finset.Card
import Mathlib.Data.List.Sort

/-! Iteration over finite sets: in ascending order, and in the unspecified order of a hash
set. -/

namespace Enumeration
variable {α : Type}

def ascending [LinearOrder α] (s : Finset α) : List α :=
  Quot.liftOn s.val (fun l => l.insertionSort (· ≤ ·)) fun l l' h =>
    List.Perm.eq_of_pairwise' (List.pairwise_insertionSort _ l) (List.pairwise_insertionSort _ l')
      ((List.perm_insertionSort _ l).trans (h.trans (List.perm_insertionSort _ l').symm))

lemma coe_ascending [LinearOrder α] (s : Finset α) : (ascending s : Multiset α) = s.val := by
  obtain ⟨⟨l⟩,hl⟩ := s
  exact Quot.sound (List.perm_insertionSort _ l)

@[simp] lemma mem_ascending [LinearOrder α] {s : Finset α} {a : α} : a ∈ ascending s ↔ a∈s := by
  rw [← Multiset.mem_coe,coe_ascending]
  rfl

lemma pairwise_ascending [LinearOrder α] (s : Finset α) : (ascending s).Pairwise (· ≤ ·) := by
  obtain ⟨⟨l⟩,hl⟩ := s
  exact List.pairwise_insertionSort _ l

end Enumeration

/-- The order in which a hash set is iterated: every element once. -/
class HashOrder (α : Type) where
  toList : Finset α → List α
  coe_toList : ∀ s, (toList s : Multiset α) = s.val

namespace HashOrder
variable {α : Type}

@[simp] lemma mem_toList [HashOrder α] {s : Finset α} {a : α} : a ∈ toList s ↔ a∈s := by
  rw [← Multiset.mem_coe,coe_toList]
  rfl

lemma nodup_toList [HashOrder α] (s : Finset α) : (toList s).Nodup := by
  have h := s.nodup
  rwa [← coe_toList s] at h

@[reducible] def ascending [LinearOrder α] : HashOrder α where
  toList := Enumeration.ascending
  coe_toList := Enumeration.coe_ascending

end HashOrder
