import Indexify.Scheduler.Blocked

/-! Work that is tracked under a class is handed out for that class as soon as the budget
exceeds the memory of all tracked work. -/
namespace Indexify
open List Dict
namespace BlockedWork
variable {κ : Type} [DecidableEq κ] {b : BlockedWork κ} {key key' : κ} {c : ExecutorClass}

@[simp] lemma blocked_removeFromIndexes (b : BlockedWork κ) (key : κ) :
    (b.removeFromIndexes key).blocked = b.blocked := by
  unfold removeFromIndexes
  cases b.blocked.lookup key <;> rfl

@[simp] lemma escaped_removeFromIndexes (b : BlockedWork κ) (key : κ) :
    (b.removeFromIndexes key).escaped = b.escaped := by
  unfold removeFromIndexes
  cases b.blocked.lookup key <;> rfl

lemma mem_byClass_removeFromIndexes (hne : key'≠key) :
    key' ∈ (b.removeFromIndexes key).byClass.ids c ↔ key' ∈ b.byClass.ids c := by
  unfold removeFromIndexes
  cases b.blocked.lookup key with
  | none => rfl
  | some info =>
    rw [Index.mem_foldl_remove]
    simp [hne]

lemma lookup_remove (b : BlockedWork κ) (key key' : κ) :
    (b.remove key).blocked.lookup key' = if key'=key then none else b.blocked.lookup key' := by
  unfold remove
  dsimp only
  rw [blocked_removeFromIndexes]
  exact lookup_erase_if _ _ _

lemma lookup_block (b : BlockedWork κ) (key key' : κ) (info : BlockingInfo) :
    (b.block key info).blocked.lookup key' = if key'=key then some info else b.blocked.lookup key' := by
  unfold block
  rw [lookup_insert_if,lookup_remove]
  split_ifs <;> rfl

/-- The key is tracked under the class and not to be retried before it. -/
structure Waits (b : BlockedWork κ) (key : κ) (c : ExecutorClass) : Prop where
  blocked : key∈b.blocked
  byClass : key ∈ b.byClass.ids c
  escaped : key∉b.escaped

lemma waits_block {info : BlockingInfo} (hc : c∈info.eligibleClasses)
    (he : info.escaped=false) : (b.block key info).Waits key c where
  blocked := by
    rw [← AList.lookup_isSome,lookup_block,if_pos rfl]
    rfl
  byClass := (Index.mem_foldl_add _ _ _ _ _).mpr (.inr ⟨rfl,hc⟩)
  escaped := by
    simp [block,he,remove]

def load (b : BlockedWork κ) : ℕ := total BlockingInfo.memoryMb b.blocked

def memoryOf (b : BlockedWork κ) (key : κ) : ℕ :=
  ((b.blocked.lookup key).map BlockingInfo.memoryMb).getD 0

lemma memoryOf_add_total_erase (b : BlockedWork κ) (key : κ) :
    b.memoryOf key + total BlockingInfo.memoryMb (b.blocked.erase key) = b.load := by
  unfold memoryOf load
  cases h : b.blocked.lookup key with
  | none => simp [erase_of_lookup_eq_none h]
  | some info => exact total_erase h BlockingInfo.memoryMb

/-- A budget above the load of the tracker and of what comes after it is enough for every key. -/
def Ample (u : Unblocking κ) (later : ℕ) : Prop := u.tracker.load+later<u.remaining

lemma Ample.takeEscaped {u : Unblocking κ} {later : ℕ} (h : Ample u later) (key : κ) :
    Ample (takeEscaped u key) later := by
  have hload := memoryOf_add_total_erase u.tracker key
  unfold Ample at h ⊢
  unfold BlockedWork.takeEscaped
  dsimp only
  split_ifs with h0 hm
  · exact h
  · change total BlockingInfo.memoryMb
      ((BlockedWork.removeFromIndexes _ key).blocked.erase key)+later<u.remaining-u.tracker.memoryOf key
    rw [blocked_removeFromIndexes]
    dsimp only
    omega
  · exact h

lemma Waits.takeEscaped {u : Unblocking κ} (h : u.tracker.Waits key c) (hne : key≠key') :
    (takeEscaped u key').tracker.Waits key c := by
  unfold BlockedWork.takeEscaped
  dsimp only
  split_ifs
  · exact h
  · constructor
    · rw [blocked_removeFromIndexes,AList.mem_erase]
      exact ⟨hne,h.blocked⟩
    · exact (mem_byClass_removeFromIndexes hne).mpr h.byClass
    · rw [escaped_removeFromIndexes]
      exact fun hm => h.escaped (Finset.mem_of_mem_erase hm)
  · exact h

lemma foldl_takeEscaped {u : Unblocking κ} {later : ℕ} (ha : Ample u later) (keys : List κ) :
    Ample (keys.foldl BlockedWork.takeEscaped u) later := by
  induction keys generalizing u with
  | nil => exact ha
  | cons k keys ih => exact ih (ha.takeEscaped k)

lemma Waits.foldl_takeEscaped {u : Unblocking κ} (h : u.tracker.Waits key c) {keys : List κ}
    (hk : key∉keys) : (keys.foldl BlockedWork.takeEscaped u).tracker.Waits key c := by
  induction keys generalizing u with
  | nil => exact h
  | cons k keys ih =>
    rw [mem_cons,not_or] at hk
    exact ih (h.takeEscaped hk.1) hk.2

lemma sum_memoryOf_le {keys : List κ} (hn : keys.Nodup) (b : BlockedWork κ) :
    (keys.map b.memoryOf).sum ≤ b.load := by
  induction keys generalizing b with
  | nil => simp
  | cons k keys ih =>
    obtain ⟨hk,hn⟩ := nodup_cons.mp hn
    have hrest := ih hn {b with blocked := b.blocked.erase k}
    have hsame : keys.map ({b with blocked := b.blocked.erase k} : BlockedWork κ).memoryOf =
        keys.map b.memoryOf := by
      apply map_congr_left
      intro k' hk'
      have hne : k'≠k := fun he => hk (he ▸ hk')
      simp [memoryOf,AList.lookup_erase_ne hne]
    have hload := memoryOf_add_total_erase b k
    rw [hsame] at hrest
    simp only [load] at hrest
    simp only [map_cons,sum_cons]
    omega

lemma subset_foldl_takeWithinBudget (keys : List κ) (acc : ℕ × List κ) :
    acc.2 ⊆ (keys.foldl b.takeWithinBudget acc).2 := by
  induction keys generalizing acc with
  | nil => exact fun _ h => h
  | cons k keys ih =>
    refine List.Subset.trans ?_ (ih _)
    unfold takeWithinBudget
    split_ifs
    · exact fun _ h => h
    cases b.blocked.lookup k with
    | none => exact fun _ h => h
    | some info =>
      dsimp only
      split_ifs
      · exact subset_append_left _ _
      · exact fun _ h => h

lemma takeWithinBudget_of_le {acc : ℕ × List κ} (hpos : 0<acc.1) (hle : b.memoryOf key ≤ acc.1) :
    (b.takeWithinBudget acc key).1 = acc.1-b.memoryOf key ∧
      (key∈b.blocked → key ∈ (b.takeWithinBudget acc key).2) := by
  unfold takeWithinBudget
  rw [if_neg hpos.ne']
  unfold memoryOf at hle ⊢
  cases h : b.blocked.lookup key with
  | none => exact ⟨rfl,fun hk => absurd hk (AList.lookup_eq_none.mp h)⟩
  | some info =>
    rw [h] at hle
    have hle' : info.memoryMb ≤ acc.1 := hle
    dsimp only
    rw [if_pos hle']
    exact ⟨rfl,fun _ => by simp⟩

lemma foldl_takeWithinBudget {keys : List κ} {acc : ℕ × List κ} {later : ℕ}
    (h : (keys.map b.memoryOf).sum+later<acc.1) :
    later<(keys.foldl b.takeWithinBudget acc).1 ∧
      ∀ key∈keys, key∈b.blocked → key ∈ (keys.foldl b.takeWithinBudget acc).2 := by
  induction keys generalizing acc with
  | nil => exact ⟨by simpa using h,by simp⟩
  | cons k keys ih =>
    simp only [map_cons,sum_cons] at h
    have hpos : 0<acc.1 := by omega
    have hle : b.memoryOf k ≤ acc.1 := by omega
    obtain ⟨hleft,htaken⟩ := takeWithinBudget_of_le hpos hle
    have hnext : (keys.map b.memoryOf).sum+later<(b.takeWithinBudget acc k).1 := by
      omega
    have hrest := ih hnext
    refine ⟨hrest.1,?_⟩
    intro key hk hb
    rcases mem_cons.mp hk with rfl | hk
    · exact subset_foldl_takeWithinBudget keys _ (htaken hb)
    · exact hrest.2 key hk hb

variable [HashOrder κ]

lemma Waits.unblockEscaped (h : b.Waits key c) (budget : ℕ) :
    (b.unblockEscaped budget).tracker.Waits key c :=
  Waits.foldl_takeEscaped h (by simpa using h.escaped)

lemma unblockEscaped_ample {budget later : ℕ} (h : b.load+later<budget) :
    (b.unblockEscaped budget).tracker.load+later<(b.unblockEscaped budget).remaining :=
  foldl_takeEscaped (u := ⟨b,budget,[]⟩) h _

lemma unblockClass_spec {budget later : ℕ} (h : b.load+later<budget) (c : ExecutorClass) :
    later<(b.unblockClass c budget).remaining ∧
      ∀ key, b.Waits key c → key ∈ (b.unblockClass c budget).keys := by
  have hsum := sum_memoryOf_le (HashOrder.nodup_toList (b.byClass.ids c)) b
  have hbudget : ((HashOrder.toList (b.byClass.ids c)).map b.memoryOf).sum+later <
      (budget,([] : List κ)).1 := by
    omega
  have hfold := foldl_takeWithinBudget hbudget
  exact ⟨hfold.1,fun key hw => hfold.2 key (by simpa using hw.byClass) hw.blocked⟩

end BlockedWork

namespace BlockedWorkTracker
open BlockedWork
variable {t : BlockedWorkTracker} {c : ExecutorClass}

def load (t : BlockedWorkTracker) : ℕ := t.sandboxes.load+t.functionRuns.load

lemma isEmpty_of_waits (h : (∃ key, t.sandboxes.Waits key c) ∨ ∃ key, t.functionRuns.Waits key c) :
    t.isEmpty = false := by
  have hentries : ∀ {κ : Type} [DecidableEq κ] {b : BlockedWork κ} {key : κ},
      b.Waits key c → b.blocked.entries.isEmpty=false := by
    intro κ _ b key hw
    have hk : key∈b.blocked.keys := hw.blocked
    rw [AList.keys] at hk
    cases he : b.blocked.entries with
    | nil => simp [he] at hk
    | cons e es => rfl
  unfold isEmpty
  rcases h with ⟨key,hw⟩ | ⟨key,hw⟩
  · simp [hentries hw]
  · simp [hentries hw]

variable [HashOrder SandboxKey] [HashOrder FunctionRunKey]

lemma unblock_waits {budget : ℕ} (hb : t.load<budget) (c : ExecutorClass) :
    (∀ key, t.sandboxes.Waits key c → key ∈ (t.unblock c budget).2.sandboxKeys) ∧
      ∀ key, t.functionRuns.Waits key c → key ∈ (t.unblock c budget).2.functionRunKeys := by
  -- what is left after each of the four stages exceeds the load of the stages that follow
  have hsandboxes : _<(t.sandboxes.unblockEscaped budget).remaining := unblockEscaped_ample hb
  generalize hes : t.sandboxes.unblockEscaped budget = es at hsandboxes
  have hruns : _<(t.functionRuns.unblockEscaped es.remaining).remaining :=
    unblockEscaped_ample ((Nat.add_comm _ _).trans_lt hsandboxes)
  generalize her : t.functionRuns.unblockEscaped es.remaining = er at hruns
  have hclass := unblockClass_spec ((Nat.add_comm _ _).trans_lt hruns) c
  have hrest := @unblockClass_spec _ _ _ _ _ 0 hclass.1 c
  have hpos : budget≠0 := by omega
  constructor
  · intro key hw
    have hlive : (t.isEmpty || decide (budget=0)) = false := by
      simp [isEmpty_of_waits (.inl ⟨key,hw⟩),hpos]
    unfold unblock
    rw [if_neg (by simp [hlive])]
    dsimp only
    rw [hes,her]
    exact mem_append_right _ (hclass.2 key (hes ▸ hw.unblockEscaped budget))
  intro key hw
  have hlive : (t.isEmpty || decide (budget=0)) = false := by
    simp [isEmpty_of_waits (.inr ⟨key,hw⟩),hpos]
  unfold unblock
  rw [if_neg (by simp [hlive])]
  dsimp only
  rw [hes,her]
  exact mem_append_right _ (hrest.2 key (her ▸ hw.unblockEscaped es.remaining))

end BlockedWorkTracker
end Indexify
