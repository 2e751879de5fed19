import Indexify.Library.Dict

/-! A queue of values with deadlines, addressed by the slot an insertion returns, beside a map that
remembers the slot of each value. The two are kept in step by cancelling a value before it is armed
again; then every value has at most one slot. -/

/-- Values with their deadlines by slot. Slots are numbered in the order of insertion. -/
structure DelayQueue (K : Type) where
  slots : Dict ℕ (K × ℕ)
  fresh : ℕ
  below : ∀ i∈slots, i<fresh

namespace DelayQueue
variable {K : Type}

def empty : DelayQueue K where
  slots := ∅
  fresh := 0
  below := by simp

def insert (q : DelayQueue K) (value : K) (deadline : ℕ) : DelayQueue K where
  slots := q.slots.insert q.fresh (value,deadline)
  fresh := q.fresh + 1
  below := by
    intro i hi
    rw [AList.mem_insert] at hi
    rcases hi with rfl | hi
    · exact Nat.lt_succ_self _
    · exact Nat.lt_succ_of_lt (q.below i hi)

def remove (q : DelayQueue K) (slot : ℕ) : DelayQueue K where
  slots := q.slots.erase slot
  fresh := q.fresh
  below := by
    intro i hi
    exact q.below i (AList.mem_erase.mp hi).2

lemma lookup_fresh (q : DelayQueue K) : q.slots.lookup q.fresh = none := by
  rw [AList.lookup_eq_none]
  intro h
  exact lt_irrefl _ (q.below _ h)

end DelayQueue

/-- A delay queue and the slot of each value in it, with what else is known of the value. -/
structure TrackedQueue (K V : Type) where
  queue : DelayQueue K
  active : Dict K (ℕ × V)

namespace TrackedQueue
variable {K V : Type} [DecidableEq K]

def empty : TrackedQueue K V where
  queue := .empty
  active := ∅

def cancel (q : TrackedQueue K V) (k : K) : TrackedQueue K V :=
  match q.active.lookup k with
  | some (slot,_) => ⟨q.queue.remove slot,q.active.erase k⟩
  | none => q

def arm (q : TrackedQueue K V) (k : K) (deadline : ℕ) (v : V) : TrackedQueue K V where
  queue := q.queue.insert k deadline
  active := q.active.insert k (q.queue.fresh,v)

/-- The value in a slot leaves the queue and the map. -/
def expire (q : TrackedQueue K V) (slot : ℕ) : TrackedQueue K V :=
  match q.queue.slots.lookup slot with
  | some (k,_) => ⟨q.queue.remove slot,q.active.erase k⟩
  | none => q

def due (q : TrackedQueue K V) (k : K) : Option (ℕ × V) :=
  (q.active.lookup k).bind fun a => (q.queue.slots.lookup a.1).map fun s => (s.2,a.2)

/-- The map holds exactly the values of the queue, each with its one slot. -/
structure Consistent (q : TrackedQueue K V) : Prop where
  held : ∀ {k slot v}, q.active.lookup k = some (slot,v) → ∃ d, q.queue.slots.lookup slot = some (k,d)
  owned : ∀ {slot k d}, q.queue.slots.lookup slot = some (k,d) → ∃ v, q.active.lookup k = some (slot,v)

lemma consistent_empty : (empty : TrackedQueue K V).Consistent where
  held := by
    intro k slot v h
    cases h
  owned := by
    intro slot k d h
    cases h

namespace Consistent
variable {q : TrackedQueue K V} {k : K} {slot : ℕ}
variable (hq : q.Consistent)
include hq

lemma slot_unique {i j d d' : ℕ} (hi : q.queue.slots.lookup i = some (k,d))
    (hj : q.queue.slots.lookup j = some (k,d')) : i = j := by
  obtain ⟨v,hv⟩ := hq.owned hi
  obtain ⟨w,hw⟩ := hq.owned hj
  rw [hv] at hw
  cases hw
  rfl

lemma due_isSome : (q.due k).isSome ↔ k∈q.active := by
  rw [← AList.lookup_isSome]
  cases h : q.active.lookup k with
  | none => simp [due,h]
  | some a =>
    obtain ⟨d,hd⟩ := hq.held (v := a.2) h
    simp [due,h,hd]

lemma erase {v : V} (h : q.active.lookup k = some (slot,v)) :
    Consistent ⟨q.queue.remove slot,q.active.erase k⟩ := by
  constructor
  · intro k' slot' v' h'
    rw [Dict.lookup_erase_if] at h'
    split_ifs at h' with hk
    obtain ⟨d,hd⟩ := hq.held h'
    refine ⟨d,?_⟩
    rw [DelayQueue.remove,Dict.lookup_erase_if,if_neg]
    · exact hd
    rintro rfl
    obtain ⟨d',hd'⟩ := hq.held h
    rw [hd'] at hd
    cases hd
    exact hk rfl
  · intro slot' k' d h'
    rw [DelayQueue.remove,Dict.lookup_erase_if] at h'
    split_ifs at h' with hs
    obtain ⟨v',hv'⟩ := hq.owned h'
    refine ⟨v',?_⟩
    rw [Dict.lookup_erase_if,if_neg]
    · exact hv'
    rintro rfl
    rw [h] at hv'
    cases hv'
    exact hs rfl

lemma due_erase {v : V} (h : q.active.lookup k = some (slot,v)) (k' : K) :
    due ⟨q.queue.remove slot,q.active.erase k⟩ k' = if k'=k then none else q.due k' := by
  unfold due
  rw [Dict.lookup_erase_if]
  split_ifs with hk
  · rfl
  cases h' : q.active.lookup k' with
  | none => rfl
  | some a =>
    have hs : a.1≠slot := by
      rintro rfl
      obtain ⟨d,hd⟩ := hq.held h
      obtain ⟨d',hd'⟩ := hq.held (v := a.2) h'
      rw [hd] at hd'
      cases hd'
      exact hk rfl
    simp [DelayQueue.remove,hs]

lemma cancel (k : K) : (q.cancel k).Consistent := by
  unfold TrackedQueue.cancel
  split
  next slot v h => exact hq.erase h
  next h => exact hq

lemma due_cancel (k k' : K) : (q.cancel k).due k' = if k'=k then none else q.due k' := by
  unfold TrackedQueue.cancel
  split
  next slot v h => exact hq.due_erase h k'
  next h =>
    split_ifs with hk
    · subst hk
      simp [due,h]
    · rfl

lemma expire (slot : ℕ) : (q.expire slot).Consistent := by
  unfold TrackedQueue.expire
  split
  next k d h =>
    obtain ⟨v,hv⟩ := hq.owned h
    exact hq.erase hv
  next h => exact hq

lemma due_expire {d : ℕ} (h : q.queue.slots.lookup slot = some (k,d)) (k' : K) :
    (q.expire slot).due k' = if k'=k then none else q.due k' := by
  obtain ⟨v,hv⟩ := hq.owned h
  rw [TrackedQueue.expire,h]
  exact hq.due_erase hv k'

lemma notMem_of_due (h : q.due k = none) : k∉q.active := by
  rw [← hq.due_isSome,h]
  simp

lemma arm (hk : q.due k = none) (deadline : ℕ) (v : V) : (q.arm k deadline v).Consistent := by
  have hnone : q.active.lookup k = none := AList.lookup_eq_none.mpr (hq.notMem_of_due hk)
  constructor
  · intro k' slot v' h
    rcases Dict.lookup_insert_cases h with ⟨rfl,⟨⟩⟩ | ⟨-,h⟩
    · exact ⟨deadline,AList.lookup_insert _⟩
    obtain ⟨d,hd⟩ := hq.held h
    refine ⟨d,?_⟩
    rw [TrackedQueue.arm,DelayQueue.insert,Dict.lookup_insert_if,if_neg]
    · exact hd
    rintro rfl
    rw [q.queue.lookup_fresh] at hd
    cases hd
  intro slot k' d h
  rcases Dict.lookup_insert_cases h with ⟨rfl,⟨⟩⟩ | ⟨-,h⟩
  · exact ⟨v,AList.lookup_insert _⟩
  obtain ⟨v',hv'⟩ := hq.owned h
  refine ⟨v',?_⟩
  rw [TrackedQueue.arm,Dict.lookup_insert_if,if_neg]
  · exact hv'
  rintro rfl
  rw [hnone] at hv'
  cases hv'

lemma due_arm (k : K) (deadline : ℕ) (v : V) (k' : K) :
    (q.arm k deadline v).due k' = if k'=k then some (deadline,v) else q.due k' := by
  unfold due TrackedQueue.arm
  rw [Dict.lookup_insert_if]
  split_ifs with hk
  · simp [DelayQueue.insert]
  cases h : q.active.lookup k' with
  | none => rfl
  | some a =>
    have hs : a.1≠q.queue.fresh := by
      intro he
      obtain ⟨d,hd⟩ := hq.held (v := a.2) h
      rw [he,q.queue.lookup_fresh] at hd
      cases hd
    simp [DelayQueue.insert,hs]

end Consistent

lemma Consistent.cancel_all {q : TrackedQueue K V} (hq : q.Consistent) (ks : List K) :
    (ks.foldl TrackedQueue.cancel q).Consistent ∧
      ∀ k, (ks.foldl TrackedQueue.cancel q).due k = if k∈ks then none else q.due k := by
  induction ks generalizing q with
  | nil => exact ⟨hq,fun k => by simp⟩
  | cons k₀ ks ih =>
    obtain ⟨hc,hdue⟩ := ih (hq.cancel k₀)
    refine ⟨hc,fun k => ?_⟩
    rw [List.foldl_cons,hdue k,hq.due_cancel]
    by_cases h₀ : k = k₀ <;> simp [h₀]

end TrackedQueue
