import Indexify.Library.Greedy
import Indexify.Library.Trace
import Indexify.Scheduler.WakeUps

/-! The class and escaped indexes of the tracker list exactly the blocked keys, and an unblock
call hands out a greedy selection of the eligible work. Both passes of such a call remove what
they take as `remove` does: the class pass leaves the escaped set alone, but no key that is still
escaped fits into what the escaped pass left over. -/
namespace Indexify
open List
namespace BlockedWork
variable {κ : Type} [DecidableEq κ] {b : BlockedWork κ} {key : κ} {c : ExecutorClass}

/-- The reverse indexes describe the blocked keys. -/
structure Exact (b : BlockedWork κ) : Prop where
  byClass : ∀ c key, key ∈ b.byClass.ids c ↔
    ∃ info, b.blocked.lookup key = some info ∧ c∈info.eligibleClasses
  escaped : ∀ key, key∈b.escaped ↔ ∃ info, b.blocked.lookup key = some info ∧ info.escaped=true

lemma exact_empty : (({} : BlockedWork κ)).Exact where
  byClass c key := by simp
  escaped key := by simp

lemma mem_escaped_remove (b : BlockedWork κ) (key key' : κ) :
    key' ∈ (b.remove key).escaped ↔ key'∈b.escaped ∧ key'≠key := by
  unfold remove
  dsimp only
  rw [escaped_removeFromIndexes,Finset.mem_erase,and_comm]

lemma Exact.mem_byClass_remove (h : b.Exact) (key key' : κ) (c : ExecutorClass) :
    key' ∈ (b.remove key).byClass.ids c ↔ key' ∈ b.byClass.ids c ∧ key'≠key := by
  change key' ∈ (b.removeFromIndexes key).byClass.ids c ↔ _
  by_cases hne : key'=key
  · subst hne
    have hclass := h.byClass c key'
    unfold removeFromIndexes
    cases hl : b.blocked.lookup key' with
    | none =>
      rw [hl] at hclass
      simp [hclass]
    | some info =>
      rw [hl] at hclass
      rw [Index.mem_foldl_remove]
      simp [hclass]
  · rw [mem_byClass_removeFromIndexes hne]
    simp [hne]

lemma Exact.remove (h : b.Exact) (key : κ) : (b.remove key).Exact where
  byClass c key' := by
    rw [h.mem_byClass_remove,h.byClass,lookup_remove]
    split_ifs with hk
    · simp [hk]
    · simp [hk]
  escaped key' := by
    rw [mem_escaped_remove,h.escaped,lookup_remove]
    split_ifs with hk
    · simp [hk]
    · simp [hk]

lemma Exact.block (h : b.Exact) (key : κ) (info : BlockingInfo) : (b.block key info).Exact where
  byClass c key' := by
    have hrest := (h.remove key).byClass c key'
    rw [lookup_block]
    unfold BlockedWork.block
    rw [Index.mem_foldl_add,hrest,lookup_remove]
    split_ifs with hk
    · simp [hk]
    · simp [hk]
  escaped key' := by
    have hrest := (h.remove key).escaped key'
    rw [lookup_remove] at hrest
    rw [lookup_block]
    unfold BlockedWork.block
    by_cases hk : key'=key
    · subst hk
      cases he : info.escaped with
      | true => simp [he]
      | false =>
        have hno : key' ∉ (b.remove key').escaped := by simp [hrest]
        simp [he,hno]
    · rw [if_neg hk] at hrest ⊢
      rw [← hrest]
      split_ifs
      · simp [hk]
      · rfl

lemma blocked_foldl_remove (keys : List κ) (b : BlockedWork κ) (key : κ) :
    (keys.foldl BlockedWork.remove b).blocked.lookup key =
      if key∈keys then none else b.blocked.lookup key := by
  induction keys generalizing b with
  | nil => rfl
  | cons k keys ih =>
    rw [foldl_cons,ih,lookup_remove]
    by_cases hk : key=k
    · simp [hk]
    · simp [hk]

lemma Exact.foldl_remove (h : b.Exact) (keys : List κ) : (keys.foldl BlockedWork.remove b).Exact :=
  @Trace.invariant _ _ BlockedWork.remove Exact (fun k hb => hb.remove k) _ h keys

lemma memoryOf_of_lookup {info : BlockingInfo} (h : b.blocked.lookup key = some info) :
    b.memoryOf key = info.memoryMb := by simp [memoryOf,h]

lemma memoryOf_foldl_remove {keys : List κ} (b : BlockedWork κ) (h : key∉keys) :
    (keys.foldl BlockedWork.remove b).memoryOf key = b.memoryOf key := by
  unfold memoryOf
  rw [blocked_foldl_remove,if_neg h]

/-! ### One pass -/

lemma takeEscaped_eq (u : Unblocking κ) (key : κ) : takeEscaped u key =
    if u.remaining=0 then u
    else if u.tracker.memoryOf key ≤ u.remaining then
      ⟨u.tracker.remove key,u.remaining-u.tracker.memoryOf key,u.keys++[key]⟩
    else u := by
  have hremove : (⟨(({u.tracker with escaped := u.tracker.escaped.erase key} :
      BlockedWork κ).removeFromIndexes key).blocked.erase key,
      (({u.tracker with escaped := u.tracker.escaped.erase key} :
        BlockedWork κ).removeFromIndexes key).byClass,
      (({u.tracker with escaped := u.tracker.escaped.erase key} :
        BlockedWork κ).removeFromIndexes key).escaped⟩ : BlockedWork κ) = u.tracker.remove key := by
    unfold BlockedWork.remove removeFromIndexes
    cases u.tracker.blocked.lookup key <;> rfl
  unfold takeEscaped
  dsimp only
  rw [hremove]
  rfl

lemma foldl_takeEscaped_eq {keys : List κ} (hn : keys.Nodup) (b : BlockedWork κ)
    (acc : ℕ × List κ) (hnew : ∀ key∈keys, key∉acc.2) :
    keys.foldl takeEscaped ⟨acc.2.foldl BlockedWork.remove b,acc.1,acc.2⟩ =
      let p := keys.foldl (Greedy.take b.memoryOf) acc
      ⟨p.2.foldl BlockedWork.remove b,p.1,p.2⟩ := by
  induction keys generalizing acc with
  | nil => rfl
  | cons k keys ih =>
    obtain ⟨hk,hn⟩ := nodup_cons.mp hn
    have hold : ∀ key∈keys, key∉acc.2 := fun key h => hnew key (mem_cons_of_mem _ h)
    rw [foldl_cons,foldl_cons,takeEscaped_eq,Greedy.take]
    rw [memoryOf_foldl_remove b (hnew k mem_cons_self)]
    split_ifs with h0 hle
    · exact ih hn acc hold
    · have hstep := ih hn (acc.1-b.memoryOf k,acc.2++[k]) (by
        intro key hkey
        rw [mem_append,mem_singleton,not_or]
        exact ⟨hold key hkey,fun he => hk (he ▸ hkey)⟩)
      rw [foldl_append] at hstep
      exact hstep
    · exact ih hn acc hold

lemma foldl_takeWithinBudget_eq {keys : List κ} (htracked : ∀ key∈keys, key∈b.blocked)
    (acc : ℕ × List κ) : keys.foldl b.takeWithinBudget acc = keys.foldl (Greedy.take b.memoryOf) acc := by
  induction keys generalizing acc with
  | nil => rfl
  | cons k keys ih =>
    obtain ⟨info,hinfo⟩ := Option.isSome_iff_exists.mp
      (AList.lookup_isSome.mpr (htracked k mem_cons_self))
    rw [foldl_cons,foldl_cons,ih fun key h => htracked key (mem_cons_of_mem _ h)]
    congr 1
    unfold takeWithinBudget Greedy.take
    rw [hinfo,memoryOf_of_lookup hinfo]

lemma forget_eq_remove (h : key∉b.escaped) : b.forget key = b.remove key := by
  unfold forget BlockedWork.remove
  dsimp only
  rw [escaped_removeFromIndexes,Finset.erase_eq_of_notMem h]

lemma foldl_forget_eq {keys : List κ} (h : ∀ key∈keys, key∉b.escaped) :
    keys.foldl forget b = keys.foldl BlockedWork.remove b := by
  induction keys generalizing b with
  | nil => rfl
  | cons k keys ih =>
    rw [foldl_cons,forget_eq_remove (h k mem_cons_self)]
    apply ih
    intro key hkey hm
    exact h key (mem_cons_of_mem _ hkey) ((mem_escaped_remove b k key).mp hm).1

structure Pass (b : BlockedWork κ) (eligible : BlockingInfo → Prop) (budget : ℕ)
    (u : Unblocking κ) : Prop where
  tracker : u.tracker = u.keys.foldl BlockedWork.remove b
  nodup : u.keys.Nodup
  chosen : ∀ key∈u.keys, ∃ info, b.blocked.lookup key = some info ∧ eligible info
  spent : (u.keys.map b.memoryOf).sum+u.remaining = budget
  rest : ∀ {key info}, u.tracker.blocked.lookup key = some info → eligible info →
    info.memoryMb ≤ u.remaining → u.remaining=0

lemma pass_of_picks {eligible : BlockingInfo → Prop} {budget left : ℕ} {keys taken : List κ}
    (hkeys : ∀ key, key∈keys ↔ ∃ info, b.blocked.lookup key = some info ∧ eligible info)
    (hn : keys.Nodup) (hp : Greedy.Picks b.memoryOf budget keys taken left) :
    Pass b eligible budget ⟨taken.foldl BlockedWork.remove b,left,taken⟩ where
  tracker := rfl
  nodup := hp.sublist.nodup hn
  chosen key hk := (hkeys key).mp (hp.sublist.subset hk)
  spent := hp.spent
  rest {key info} hl he hle := by
    rw [blocked_foldl_remove] at hl
    split_ifs at hl with hk
    rw [← memoryOf_of_lookup hl] at hle
    exact hp.rest key ((hkeys key).mpr ⟨info,hl,he⟩) hk hle

lemma Pass.remaining_le {eligible : BlockingInfo → Prop} {budget : ℕ} {u : Unblocking κ}
    (h : Pass b eligible budget u) : u.remaining ≤ budget := by
  have := h.spent
  omega

section
variable [HashOrder κ]

lemma Exact.pass_unblockEscaped (h : b.Exact) (budget : ℕ) :
    Pass b (fun info => info.escaped=true) budget (b.unblockEscaped budget) := by
  have hn := HashOrder.nodup_toList b.escaped
  have he := foldl_takeEscaped_eq hn b (budget,[]) (by simp)
  have hpass : b.unblockEscaped budget = _ := he
  rw [hpass]
  exact pass_of_picks (fun key => by rw [HashOrder.mem_toList,h.escaped]) hn
    (Greedy.pass_picks b.memoryOf budget _)

lemma Exact.pass_unblockClass (h : b.Exact) (c : ExecutorClass) {budget : ℕ}
    (hescaped : ∀ {key info}, b.blocked.lookup key = some info → info.escaped=true →
      info.memoryMb ≤ budget → budget=0) :
    Pass b (fun info => c∈info.eligibleClasses) budget (b.unblockClass c budget) := by
  have hn := HashOrder.nodup_toList (b.byClass.ids c)
  have hkeys : ∀ key, key ∈ HashOrder.toList (b.byClass.ids c) ↔
      ∃ info, b.blocked.lookup key = some info ∧ c∈info.eligibleClasses := by
    intro key
    rw [HashOrder.mem_toList,h.byClass]
  have htracked : ∀ key ∈ HashOrder.toList (b.byClass.ids c), key∈b.blocked := by
    intro key hk
    obtain ⟨info,hl,-⟩ := (hkeys key).mp hk
    rw [← AList.lookup_isSome,hl]
    rfl
  have hp := Greedy.pass_picks b.memoryOf budget (HashOrder.toList (b.byClass.ids c))
  have hfree : ∀ key ∈ (Greedy.pass b.memoryOf budget
      (HashOrder.toList (b.byClass.ids c))).2, key∉b.escaped := by
    intro key hk hm
    obtain ⟨info,hl,he⟩ := (h.escaped key).mp hm
    obtain ⟨hle,hpos⟩ := hp.fits key hk
    exact hpos (hescaped hl he (memoryOf_of_lookup hl ▸ hle))
  unfold unblockClass
  dsimp only
  rw [foldl_takeWithinBudget_eq htracked,← Greedy.pass,foldl_forget_eq hfree]
  exact pass_of_picks hkeys hn hp

end

/-! ### Both passes -/

/-- The keys leave every structure of the tracker and nothing else does. -/
structure Takes (b b' : BlockedWork κ) (c : ExecutorClass) (keys : List κ) : Prop where
  nodup : keys.Nodup
  eligible : ∀ key∈keys, ∃ info, b.blocked.lookup key = some info ∧
    (info.escaped=true ∨ c∈info.eligibleClasses)
  blocked : ∀ key, b'.blocked.lookup key = if key∈keys then none else b.blocked.lookup key
  byClass : ∀ d key, key ∈ b'.byClass.ids d ↔ key ∈ b.byClass.ids d ∧ key∉keys
  escaped : ∀ key, key∈b'.escaped ↔ key∈b.escaped ∧ key∉keys

lemma Takes.exact {b' : BlockedWork κ} {keys : List κ} (ht : Takes b b' c keys) (h : b.Exact) :
    b'.Exact where
  byClass d key := by
    rw [ht.byClass,h.byClass,ht.blocked]
    split_ifs with hk
    · simp [hk]
    · simp [hk]
  escaped key := by
    rw [ht.escaped,h.escaped,ht.blocked]
    split_ifs with hk
    · simp [hk]
    · simp [hk]

/-- Nothing eligible that is still blocked fits into the budget, unless that is used up. -/
def Exhausted (b : BlockedWork κ) (c : ExecutorClass) (left : ℕ) : Prop :=
  ∀ key info, b.blocked.lookup key = some info →
    info.escaped = true ∨ c∈info.eligibleClasses → info.memoryMb ≤ left → left=0

lemma Exact.takes_foldl_remove (h : b.Exact) {keys : List κ} (hn : keys.Nodup)
    (he : ∀ key∈keys, ∃ info, b.blocked.lookup key = some info ∧
      (info.escaped=true ∨ c∈info.eligibleClasses)) :
    Takes b (keys.foldl BlockedWork.remove b) c keys where
  nodup := hn
  eligible := he
  blocked := blocked_foldl_remove keys b
  byClass d key := by
    rw [(h.foldl_remove keys).byClass,h.byClass,blocked_foldl_remove]
    split_ifs with hk
    · simp [hk]
    · simp [hk]
  escaped key := by
    rw [(h.foldl_remove keys).escaped,h.escaped,blocked_foldl_remove]
    split_ifs with hk
    · simp [hk]
    · simp [hk]

section
variable {u v : Unblocking κ} {budget budget' : ℕ}
  (hu : Pass b (fun info => info.escaped=true) budget u)
  (hv : Pass u.tracker (fun info => c∈info.eligibleClasses) budget' v)
include hu hv

lemma Pass.lookup_second {key : κ} (hk : key∈v.keys) : key∉u.keys ∧
    ∃ info, b.blocked.lookup key = some info ∧ c∈info.eligibleClasses := by
  obtain ⟨info,hl,hc⟩ := hv.chosen key hk
  rw [hu.tracker,blocked_foldl_remove] at hl
  split_ifs at hl with hn
  exact ⟨hn,info,hl,hc⟩

lemma Pass.takes_trans (h : b.Exact) : Takes b v.tracker c (u.keys++v.keys) := by
  rw [hv.tracker,hu.tracker,← foldl_append]
  apply h.takes_foldl_remove
  · refine nodup_append.mpr ⟨hu.nodup,hv.nodup,?_⟩
    rintro key hk key' hk' rfl
    exact (hu.lookup_second hv hk').1 hk
  intro key hk
  rcases mem_append.mp hk with hk | hk
  · obtain ⟨info,hl,he⟩ := hu.chosen key hk
    exact ⟨info,hl,Or.inl he⟩
  · obtain ⟨-,info,hl,hc⟩ := hu.lookup_second hv hk
    exact ⟨info,hl,Or.inr hc⟩

lemma Pass.sum_trans : ((u.keys++v.keys).map b.memoryOf).sum =
    (u.keys.map b.memoryOf).sum+(v.keys.map u.tracker.memoryOf).sum := by
  have hsame : v.keys.map b.memoryOf = v.keys.map u.tracker.memoryOf := by
    apply map_congr_left
    intro key hk
    rw [hu.tracker,memoryOf_foldl_remove b (hu.lookup_second hv hk).1]
  rw [map_append,sum_append,hsame]

lemma Pass.exhausted_trans {left : ℕ} (hle : budget' ≤ u.remaining) (hleft : left ≤ v.remaining) :
    v.tracker.Exhausted c left := by
  intro key info hl he hm
  have hle' := hv.remaining_le
  rcases he with he | hc
  · have hl' := hl
    rw [hv.tracker,blocked_foldl_remove] at hl'
    split_ifs at hl'
    have := hu.rest hl' he (by omega)
    omega
  · have := hv.rest hl hc (by omega)
    omega

end
end BlockedWork

namespace BlockedWorkTracker
open BlockedWork
variable {t : BlockedWorkTracker} {c : ExecutorClass}

structure Exact (t : BlockedWorkTracker) : Prop where
  sandboxes : t.sandboxes.Exact
  functionRuns : t.functionRuns.Exact

def memoryOf (t : BlockedWorkTracker) (work : UnblockedWork) : ℕ :=
  (work.sandboxKeys.map t.sandboxes.memoryOf).sum +
    (work.functionRunKeys.map t.functionRuns.memoryOf).sum

structure Unblocks (t : BlockedWorkTracker) (c : ExecutorClass) (budget : ℕ)
    (r : BlockedWorkTracker × UnblockedWork) : Prop where
  sandboxes : Takes t.sandboxes r.1.sandboxes c r.2.sandboxKeys
  functionRuns : Takes t.functionRuns r.1.functionRuns c r.2.functionRunKeys
  within : t.memoryOf r.2 ≤ budget
  sandboxesLeft : r.1.sandboxes.Exhausted c (budget-t.memoryOf r.2)
  functionRunsLeft : r.1.functionRuns.Exhausted c (budget-t.memoryOf r.2)

lemma lookup_of_isEmpty (h : t.isEmpty=true) : (∀ key, t.sandboxes.blocked.lookup key = none) ∧
    ∀ key, t.functionRuns.blocked.lookup key = none := by
  have hnone : ∀ {κ : Type} [DecidableEq κ] (m : Dict κ BlockingInfo) (key : κ),
      m.entries.isEmpty = true → m.lookup key = none := by
    intro κ _ m key he
    cases hl : m.lookup key with
    | none => rfl
    | some info =>
      have hm := (Dict.mem_entries_iff m key info).mpr hl
      rw [isEmpty_iff.mp he] at hm
      cases hm
  simp only [isEmpty,Bool.and_eq_true] at h
  exact ⟨fun key => hnone _ key h.1,fun key => hnone _ key h.2⟩

lemma takes_nothing {κ : Type} [DecidableEq κ] (b : BlockedWork κ) (c : ExecutorClass) :
    Takes b b c [] := ⟨nodup_nil,by simp,by simp,by simp,by simp⟩

lemma unblocks_nothing {budget : ℕ} (h : (t.isEmpty || decide (budget=0)) = true)
    (c : ExecutorClass) : t.Unblocks c budget (t,{}) where
  sandboxes := takes_nothing _ _
  functionRuns := takes_nothing _ _
  within := Nat.zero_le _
  sandboxesLeft key info hl _ _ := by
    rcases Bool.or_eq_true_iff.mp h with h | h
    · rw [(lookup_of_isEmpty h).1 key] at hl
      cases hl
    · simp [of_decide_eq_true h]
  functionRunsLeft key info hl _ _ := by
    rcases Bool.or_eq_true_iff.mp h with h | h
    · rw [(lookup_of_isEmpty h).2 key] at hl
      cases hl
    · simp [of_decide_eq_true h]

lemma exact_empty : ({} : BlockedWorkTracker).Exact :=
  ⟨BlockedWork.exact_empty,BlockedWork.exact_empty⟩

variable [HashOrder SandboxKey] [HashOrder FunctionRunKey]

lemma Exact.unblocks (h : t.Exact) (c : ExecutorClass) (budget : ℕ) :
    t.Unblocks c budget (t.unblock c budget) := by
  unfold unblock
  split_ifs with hnone
  · exact unblocks_nothing hnone c
  -- the four passes share the budget, and an escaped key that was passed over no longer fits
  have hes := h.sandboxes.pass_unblockEscaped budget
  generalize t.sandboxes.unblockEscaped budget = es at hes
  have her := h.functionRuns.pass_unblockEscaped es.remaining
  dsimp only
  generalize t.functionRuns.unblockEscaped es.remaining = er at her
  have hesExact : es.tracker.Exact := hes.tracker ▸ h.sandboxes.foldl_remove es.keys
  have herExact : er.tracker.Exact := her.tracker ▸ h.functionRuns.foldl_remove er.keys
  have hler := her.remaining_le
  have hcs := @Exact.pass_unblockClass _ _ _ _ hesExact c er.remaining (by
    intro key info hl he hm
    have := hes.rest hl he (by omega)
    omega)
  generalize es.tracker.unblockClass c er.remaining = cs at hcs
  have hlcs := hcs.remaining_le
  have hcr := @Exact.pass_unblockClass _ _ _ _ herExact c cs.remaining (by
    intro key info hl he hm
    have := her.rest hl he (by omega)
    omega)
  generalize er.tracker.unblockClass c cs.remaining = cr at hcr
  have hsum : t.memoryOf ⟨es.keys++cs.keys,er.keys++cr.keys⟩+cr.remaining = budget := by
    have h1 := hes.spent
    have h2 := her.spent
    have h3 := hcs.spent
    have h4 := hcr.spent
    unfold memoryOf
    rw [hes.sum_trans hcs,her.sum_trans hcr]
    omega
  have hlcr := hcr.remaining_le
  exact
    { sandboxes := hes.takes_trans hcs h.sandboxes
      functionRuns := her.takes_trans hcr h.functionRuns
      within := by
        dsimp only
        omega
      sandboxesLeft := hes.exhausted_trans hcs hler (by dsimp only; omega)
      functionRunsLeft := her.exhausted_trans hcr hlcs (by dsimp only; omega) }

/-! ### Sequences of calls -/

inductive Call where
  | blockSandbox (key : SandboxKey) (info : BlockingInfo)
  | blockFunctionRun (key : FunctionRunKey) (info : BlockingInfo)
  | removeSandbox (key : SandboxKey)
  | removeFunctionRun (key : FunctionRunKey)
  | unblockForClass (executorClass : ExecutorClass) (budgetMb : ℕ)
  | unblockForFreedResources (executorClass : ExecutorClass) (freedMb : ℕ)

def step (t : BlockedWorkTracker) : Call → BlockedWorkTracker
  | .blockSandbox key info => t.blockSandbox key info
  | .blockFunctionRun key info => t.blockFunctionRun key info
  | .removeSandbox key => t.removeSandbox key
  | .removeFunctionRun key => t.removeFunctionRun key
  | .unblockForClass c budget => (t.unblockForClass c budget).1
  | .unblockForFreedResources c freed => (t.unblockForFreedResources c freed).1

def run (calls : List Call) : BlockedWorkTracker := calls.foldl step {}

lemma Exact.unblock (h : t.Exact) (c : ExecutorClass) (budget : ℕ) : (t.unblock c budget).1.Exact := by
  have hu := h.unblocks c budget
  exact ⟨hu.sandboxes.exact h.sandboxes,hu.functionRuns.exact h.functionRuns⟩

lemma Exact.step (h : t.Exact) (call : Call) : (t.step call).Exact := by
  cases call with
  | blockSandbox key info => exact ⟨h.sandboxes.block key info,h.functionRuns⟩
  | blockFunctionRun key info => exact ⟨h.sandboxes,h.functionRuns.block key info⟩
  | removeSandbox key => exact ⟨h.sandboxes.remove key,h.functionRuns⟩
  | removeFunctionRun key => exact ⟨h.sandboxes,h.functionRuns.remove key⟩
  | unblockForClass c budget => exact h.unblock c budget
  | unblockForFreedResources c freed => exact h.unblock c freed

lemma exact_run (calls : List Call) : (run calls).Exact :=
  @Trace.invariant _ _ BlockedWorkTracker.step Exact (fun call h => h.step call) _ exact_empty calls

/-- After any calls the indexes are exact, and either unblock call hands out each eligible key at
most once, within its budget, and leaves no eligible work that fits into what remains of it,
unless nothing remains. -/
theorem run_unblocks (calls : List Call) : (run calls).Exact ∧ ∀ c budget,
    (run calls).Unblocks c budget ((run calls).unblockForClass c budget) ∧
    (run calls).Unblocks c budget ((run calls).unblockForFreedResources c budget) :=
  ⟨exact_run calls,fun c budget =>
    ⟨(exact_run calls).unblocks c budget,(exact_run calls).unblocks c budget⟩⟩

end BlockedWorkTracker

namespace BlockedWorkTracker.Samples

def busy : SandboxKey := ⟨"default|busy"⟩

def idle : SandboxKey := ⟨"default|idle"⟩

def calls : List Call :=
  [.blockSandbox busy ⟨[],true,512⟩,.blockSandbox idle ⟨[],true,0⟩]

end BlockedWorkTracker.Samples

attribute [local instance] HashOrder.ascending

open BlockedWorkTracker.Samples in
/-- Work without a memory requirement stays blocked when the budget is used up: it is escaped and
fits into the nothing that is left. -/
theorem BlockedWorkTracker.weightless_stays_blocked :
    let t := run calls
    let r := unblockForClass t ExecutorClass.default 512
    r.2.sandboxKeys = [busy] ∧ ∃ info, r.1.sandboxes.blocked.lookup idle = some info ∧
      info.escaped = true ∧ info.memoryMb ≤ 512-t.memoryOf r.2 := by
  refine ⟨?_,⟨[],true,0⟩,?_,?_,?_⟩
  · decide
  · rfl
  · rfl
  · decide

end Indexify
