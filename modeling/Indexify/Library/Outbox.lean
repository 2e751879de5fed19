import Mathlib.Data.List.Nodup

/-! A queue that is sent from its front until the receiver has confirmed it. A batch is copied
from the front and sent, possibly several times; items leave the queue only from the front. -/

/-- `drained` are the items that left the queue, oldest first. -/
structure Outbox (α : Type*) where
  drained : List α := []
  pending : List α := []

namespace Outbox
open List
variable {α : Type*}

section
variable {b : Outbox α} {batch : List α} {a : α} {n : ℕ}

def history (b : Outbox α) : List α := b.drained++b.pending

def push (b : Outbox α) (a : α) : Outbox α := {b with pending := b.pending++[a]}

def drain (b : Outbox α) (n : ℕ) : Outbox α where
  drained := b.drained++b.pending.take n
  pending := b.pending.drop n

@[simp] lemma history_push : (b.push a).history = b.history++[a] := by
  simp [history,push]

@[simp] lemma history_drain : (b.drain n).history = b.history := by
  simp [history,drain]

variable (h : batch <+: b.pending)
include h

lemma drained_drain : (b.drain batch.length).drained = b.drained++batch := by
  rw [drain,prefix_iff_eq_take.mp h,length_take_of_le h.length_le]

lemma prefix_push : batch <+: (b.push a).pending :=
  h.trans (prefix_append _ _)

lemma history_of_prefix : ∃ rest, b.history = b.drained++batch++rest := by
  obtain ⟨rest,hrest⟩ := h
  exact ⟨rest,by rw [history,← hrest,append_assoc]⟩

omit h
end

section
variable {R R' : α → α → Prop} {received batch : List α}

/-- Each received item comes after all that `R` puts before it. -/
def Causal (R : α → α → Prop) (received : List α) : Prop :=
  ∀ earlier a later, received = earlier++a::later → ∀ b, R b a → b∈earlier

lemma Causal.nil : Causal R [] := by
  intro earlier a later h
  simp at h

lemma Causal.mono (h : Causal R received) (hR : ∀ a∈received, ∀ b, R' b a → R b a) :
    Causal R' received := by
  intro earlier a later hsplit b hb
  have ha : a∈received := hsplit ▸ mem_append_right earlier mem_cons_self
  exact h earlier a later hsplit b (hR a ha b hb)

lemma Causal.append (h : Causal R received) (hbatch : ∀ earlier a later, batch = earlier++a::later →
      ∀ b, R b a → b ∈ received++earlier) : Causal R (received++batch) := by
  intro earlier a later hsplit b hb
  rcases append_eq_append_iff.mp hsplit with ⟨rest,rfl,hrest⟩ | ⟨rest,rfl,hrest⟩
  · exact hbatch rest a later hrest b hb
  cases rest with
  | nil => simpa using hbatch [] a later hrest.symm b hb
  | cons r rest =>
    obtain ⟨rfl,-⟩ := List.cons.inj hrest
    exact h earlier a rest rfl b hb

lemma Causal.append_foreign (h : Causal R received) (hforeign : ∀ a∈batch, ∀ b, ¬R b a) :
    Causal R (received++batch) := by
  refine h.append fun earlier a later hsplit b hb => ?_
  exact absurd hb (hforeign a (hsplit ▸ mem_append_right earlier mem_cons_self) b)

end

section
variable {history received batch older newer older' newer' rest : List α} {a b : α}

/-- `b` stands before `a`. -/
def Older (history : List α) (b a : α) : Prop :=
  ∃ older newer, history = older++a::newer ∧ b∈older

/-- Whatever was received, everything that is older in `history` was received before it. -/
def InOrder (history received : List α) : Prop := Causal (Older history) received

lemma Older.mem (h : Older history b a) : a∈history := by
  obtain ⟨older,newer,rfl,-⟩ := h
  exact mem_append_right older mem_cons_self

lemma older_unique (hnodup : (older++a::newer).Nodup)
    (h : older++a::newer = older'++a::newer') : older=older' := by
  have hfresh : a∉newer := (nodup_cons.mp (nodup_append.mp hnodup).2.1).1
  have hfresh' : a∉newer' := (nodup_cons.mp (nodup_append.mp (h ▸ hnodup)).2.1).1
  rcases append_eq_append_iff.mp h with ⟨rest,rfl,hrest⟩ | ⟨rest,rfl,hrest⟩
  · cases rest with
    | nil => exact (append_nil older).symm
    | cons r rest =>
      refine absurd ?_ hfresh
      rw [(List.cons.inj hrest).2]
      exact mem_append_right _ mem_cons_self
  cases rest with
  | nil => exact append_nil older'
  | cons r rest =>
    refine absurd ?_ hfresh'
    rw [(List.cons.inj hrest).2]
    exact mem_append_right _ mem_cons_self

variable (h : InOrder history received)
include h

lemma InOrder.append_foreign (hforeign : ∀ a∈batch, a∉history) : InOrder history (received++batch) :=
  Causal.append_foreign h fun a ha _ hb => hforeign a ha hb.mem

lemma InOrder.append_batch (hnodup : history.Nodup) (hbatch : history = older++batch++rest)
    (holder : older ⊆ received) : InOrder history (received++batch) := by
  refine Causal.append h fun earlier a later hsplit b hb => ?_
  obtain ⟨older',newer,hhistory,hb⟩ := hb
  have hall : history = (older++earlier)++a::(later++rest) := by
    rw [hbatch,hsplit]
    simp
  have holder' : older' = older++earlier :=
    older_unique (hhistory ▸ hnodup) (hhistory.symm.trans hall)
  subst holder'
  exact (mem_append.mp hb).elim (fun hb => mem_append_left _ (holder hb))
    (mem_append_right _)

lemma InOrder.push (hnew : a∉received) : InOrder (history++[a]) received := by
  refine Causal.mono h fun x hx b hb => ?_
  obtain ⟨older,newer,hhistory,hb⟩ := hb
  rcases eq_nil_or_concat newer with rfl | ⟨newer,y,rfl⟩
  · obtain ⟨-,hlast⟩ := append_inj' hhistory rfl
    exact absurd hx (singleton_inj.mp hlast ▸ hnew)
  · rw [concat_eq_append,← cons_append,← append_assoc] at hhistory
    exact ⟨older,newer,(append_inj' hhistory rfl).1,hb⟩

omit h
end
end Outbox
