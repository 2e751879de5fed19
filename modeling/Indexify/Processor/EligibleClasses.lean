import Indexify.Processor.ContainerIndices
import Indexify.Processor.FunctionRunProcessor
import Indexify.Processor.SandboxProcessor
import Indexify.Scheduler.WakeUps

/-! The classes that a failed placement returns. Blocked work is woken only under these classes,
so a class that is missing is a lost wake-up. -/
namespace Indexify
open List Dict ExecutorClass
namespace ContainerScheduler

/-- The class index lists the registered executors, each under its own class. -/
structure Background.Classified (b : Background) : Prop where
  byClass : b.executorsByClass.Groups b.executorClasses some
  known : ∀ {id c}, b.executorClasses.lookup id = some c →
    ∃ e, b.executors.lookup id = some e ∧ e.tombstoned=false ∧ fromExecutor e = c
  live : ∀ {id e}, b.executors.lookup id = some e → e.tombstoned=false →
    b.executorClasses.lookup id = some (.fromExecutor e)

section
variable {s : ContainerScheduler}

lemma mem_executorsByClass_upsertExecutor (s : ContainerScheduler) (e : ExecutorMetadata)
    (c : ExecutorClass) (id : ExecutorId) :
    id ∈ (s.upsertExecutor e).executorsByClass.ids c ↔
      (id ∈ s.executorsByClass.ids c ∧ ¬(id=e.id ∧ s.executorClasses.lookup e.id = some c)) ∨
        id = e.id ∧ c = .fromExecutor e := by
  unfold upsertExecutor
  cases hc : s.executorClasses.lookup e.id with
  | none => simp
  | some old =>
    dsimp only
    split_ifs with hne
    · simp [eq_comm]
    rw [not_not] at hne
    subst hne
    simp only [Index.mem_add,Option.some.injEq]
    constructor
    · rintro (hid | hid)
      · by_cases hself : id=e.id ∧ fromExecutor e = c
        · exact .inr ⟨hself.1,hself.2.symm⟩
        · exact .inl ⟨hid,hself⟩
      · exact .inr hid
    · rintro (⟨hid,-⟩ | hid)
      · exact .inl hid
      · exact .inr hid

lemma Background.Classified.upsertExecutor (h : s.background.Classified) {e : ExecutorMetadata}
    (he : e.tombstoned=false) : (s.upsertExecutor e).background.Classified where
  byClass := by
    refine h.byClass.insert ?_ ?_
    · intro c
      refine (mem_executorsByClass_upsertExecutor s e c e.id).trans ?_
      rw [show e.id ∈ s.executorsByClass.ids c ↔ _ from h.byClass c e.id]
      simp [background,eq_comm]
    · intro c id hid
      refine (mem_executorsByClass_upsertExecutor s e c id).trans ?_
      simp [hid,background]
  known {id c} hc := by
    change (s.executorClasses.insert e.id _).lookup id = some c at hc
    change ∃ e', (s.executors.insert e.id e).lookup id = some e' ∧ _
    rw [lookup_insert_if] at hc ⊢
    split_ifs at hc ⊢
    · exact ⟨e,rfl,he,Option.some.inj hc⟩
    · exact h.known hc
  live {id e'} hlookup hlive := by
    change (s.executors.insert e.id e).lookup id = some e' at hlookup
    change (s.executorClasses.insert e.id _).lookup id = _
    rw [lookup_insert_if] at hlookup ⊢
    split_ifs at hlookup ⊢
    · cases hlookup
      rfl
    · exact h.live hlookup hlive

lemma background_deregisterExecutor (s : ContainerScheduler) (id : ExecutorId) :
    (s.deregisterExecutor id).background = {s.background with
      executors := s.executors.modify id fun e => {e with tombstoned := true}
      executorClasses := s.executorClasses.erase id
      executorsByClass := s.executorsByClass.removeAt (s.executorClasses.lookup id) id} := by
  unfold deregisterExecutor
  dsimp only
  cases s.executorStates.lookup id <;> dsimp only [removeResourceIndex] <;>
    cases hc : s.executorClasses.lookup id
  · simp [background,erase_of_lookup_eq_none hc,Index.removeAt]
  · rfl
  · simp [background,erase_of_lookup_eq_none hc,Index.removeAt]
  · rfl

lemma Background.Classified.deregisterExecutor (h : s.background.Classified) (id : ExecutorId) :
    (s.deregisterExecutor id).background.Classified := by
  rw [background_deregisterExecutor]
  constructor
  · refine h.byClass.erase_removeAt ?_
    intro c hc
    exact .inr hc.symm
  · intro id' c hc
    rw [lookup_erase_if] at hc
    split_ifs at hc with hne
    rw [lookup_modify,if_neg hne]
    exact h.known hc
  · intro id' e hlookup hlive
    rw [lookup_modify] at hlookup
    rw [lookup_erase_if]
    split_ifs at hlookup ⊢ with hne
    · obtain ⟨old,-,rfl⟩ := Option.map_eq_some_iff.mp hlookup
      cases hlive
    · exact h.live hlookup hlive

def RegistersLive : Op → Prop
  | .payload (.upsertExecutor e) => e.tombstoned=false
  | _ => True

instance (op : Op) : Decidable (RegistersLive op) := by
  induction op using Op.casesOn with
  | payload p => induction p using Payload.casesOn <;> dsimp only [RegistersLive] <;> infer_instance
  | _ => exact .isTrue trivial

lemma Background.Classified.of_same {b b' : Background} (h : b.Classified)
    (he : b'.executors=b.executors) (hc : b'.executorClasses=b.executorClasses)
    (hb : b'.executorsByClass=b.executorsByClass) : b'.Classified := by
  constructor
  · rw [hb,hc]
    exact h.byClass
  · rw [he,hc]
    exact h.known
  · rw [he,hc]
    exact h.live

variable [HashOrder ContainerId]

lemma Background.Classified.updateWithIntents (h : s.background.Classified) {p : Payload}
    (hp : RegistersLive (.payload p)) : (s.updateWithIntents p).1.background.Classified := by
  cases p with
  | upsertExecutor e => exact h.upsertExecutor hp
  | deregisterExecutor id => exact h.deregisterExecutor id
  | schedulerUpdate u =>
    change (s.updateSchedulerUpdate u).background.Classified
    rwa [background_updateSchedulerUpdate]
  | deleteApplication ns name =>
    change (s.deleteApplication ns name).1.background.Classified
    rw [background_deleteApplication,background_removeFunctionPoolsOf]
    exact h.of_same rfl rfl rfl
  | deleteContainerPool ns poolId =>
    change (s.deleteContainerPool ns poolId).1.background.Classified
    rwa [background_containers.deleteContainerPool]
  | createContainerPool pool =>
    change (s.setPool pool).background.Classified
    rw [background_setPool]
    split_ifs <;> exact h.of_same rfl rfl rfl
  | updateContainerPool pool =>
    change (s.setPool pool).background.Classified
    rw [background_setPool]
    split_ifs <;> exact h.of_same rfl rfl rfl
  | createOrUpdateApplication req =>
    unfold ContainerScheduler.updateWithIntents
    dsimp only
    split_ifs
    · exact h
    · rw [background_foldl_insertFunctionPool,background_removeFunctionPoolsOf]
      exact h.of_same rfl rfl rfl
  | tombstoneContainerPool ns poolId => exact h.of_same rfl rfl rfl
  | _ => exact h

variable [HashOrder ExecutorId]

lemma Background.Classified.step (h : s.background.Classified) {op : Op} (hop : RegistersLive op) :
    (ContainerScheduler.step s op).background.Classified := by
  cases op with
  | payload p => exact h.updateWithIntents hop
  | applyContainerUpdate u =>
    change (s.applyContainerUpdate u).background.Classified
    rwa [background_applyContainerUpdate]
  | terminateContainer id =>
    change (s.terminateContainer id).1.background.Classified
    rwa [background_containers.terminateContainer]
  | reapIdleContainers minIdleAge now =>
    change (s.reapIdleContainers minIdleAge now).1.background.Classified
    rwa [background_reapIdleContainers]
  | restoreReapedContainer fnUri now =>
    change (s.restoreReapedContainer fnUri now).1.background.Classified
    rwa [background_restoreReapedContainer]
  | claimPoolContainer key sandboxId timeout =>
    change (s.claimPoolContainer key sandboxId timeout).1.background.Classified
    rwa [background_containers.claimPoolContainer]
  | createForFunction cache ns application version function state draw =>
    change (applyCreated _).background.Classified
    rwa [background_applyCreated,(creation_of_created rfl).background]
  | createForSandbox cache sandbox snapshotUri draw
  | createForPool cache pool draw =>
    change (applyCreated (s.createContainer _ _ _ _ _ _)).background.Classified
    rwa [background_applyCreated,background_hosts.createContainer]

lemma run_classified {functionPools sandboxPools : Dict ContainerPoolKey ContainerPool}
    {ops : List Op} (hops : ∀ op∈ops, RegistersLive op) :
    (run (new functionPools sandboxPools) ops).background.Classified := by
  have hstart : (new functionPools sandboxPools).background.Classified :=
    ⟨Index.groups_empty,fun h => (by cases h),fun h => (by cases h)⟩
  generalize new functionPools sandboxPools = s at hstart
  induction ops generalizing s with
  | nil => exact hstart
  | cons op ops ih =>
    exact ih (fun op hop => hops op (mem_cons_of_mem _ hop)) _
      (hstart.step (hops op mem_cons_self))

end
end ContainerScheduler

namespace Placement
open ContainerScheduler
section
variable (s : ContainerScheduler) (w : Workload)

def Suits (c : ExecutorClass) : Prop :=
  ∃ id e, s.executors.lookup id = some e ∧ e.tombstoned=false ∧ w.checkConstraints e = true ∧
    fromExecutor e = c

/-- What the check of a class comes to: the cached answer, if there is one. -/
def Verdict (cache : FeasibilityCache) (c : ExecutorClass) : Prop :=
  match cache.get w.key c with
  | some cached => cached=true
  | none => Suits s w c

/-- The cache has gained answers only, and right ones. -/
def Extends (cache cache' : FeasibilityCache) : Prop :=
  ∀ c, cache'.get w.key c = cache.get w.key c ∨
    cache.get w.key c = none ∧ ∃ answer, cache'.get w.key c = some answer ∧ (answer=true ↔ Suits s w c)

end

section
variable {s : ContainerScheduler} {w : Workload} {e : ExecutorMetadata}

lemma checkConstraints_eq {e' : ExecutorMetadata} (hclass : fromExecutor e = fromExecutor e')
    (he : e.tombstoned=false) (he' : e'.tombstoned=false) :
    w.checkConstraints e = w.checkConstraints e' := by
  unfold Workload.checkConstraints executorMatchesConstraints
  rw [he,he']
  cases w.function with
  | none => exact isNamespaceAllowed_eq hclass _
  | some f =>
    dsimp only
    rw [isFunctionAllowed_eq hclass,matches_eq hclass]

lemma checkConstraints_iff_suits {id : ExecutorId} (hid : s.executors.lookup id = some e)
    (he : e.tombstoned=false) : w.checkConstraints e = true ↔ Suits s w (.fromExecutor e) := by
  constructor
  · exact fun hcheck => ⟨id,e,hid,he,hcheck,rfl⟩
  rintro ⟨id',e',-,he',hcheck,hclass⟩
  rw [← checkConstraints_eq hclass he' he]
  exact hcheck

lemma Extends.refl (cache : FeasibilityCache) : Extends s w cache cache := fun _ => .inl rfl

lemma feasible_spec {cache cache' : FeasibilityCache} (h : Extends s w cache cache')
    {id : ExecutorId} (hid : s.executors.lookup id = some e) (he : e.tombstoned=false) :
    ((w.feasible cache' (.fromExecutor e) e).1 = true ↔ Verdict s w cache (.fromExecutor e)) ∧
      Extends s w cache (w.feasible cache' (.fromExecutor e) e).2 := by
  have hsuits := checkConstraints_iff_suits (w := w) hid he
  unfold Workload.feasible Verdict
  cases hget : cache'.get w.key (.fromExecutor e) with
  | some answer =>
    refine ⟨?_,h⟩
    rcases h (.fromExecutor e) with hsame | ⟨hnone,answer',hanswer,hright⟩
    · rw [← hsame,hget]
    rw [hnone]
    cases hget.symm.trans hanswer
    exact hright
  | none =>
    have hsame : cache.get w.key (.fromExecutor e) = none := by
      rcases h (.fromExecutor e) with hsame | ⟨hnone,-⟩
      · exact hsame.symm.trans hget
      · exact hnone
    rw [hsame]
    refine ⟨hsuits,?_⟩
    intro c
    rw [FeasibilityCache.get_record]
    split_ifs with hc
    · obtain ⟨-,rfl⟩ := hc
      exact .inr ⟨hsame,_,rfl,hsuits⟩
    · exact h c

end

section
variable {s : ContainerScheduler} {w : Workload} {cache : FeasibilityCache}

lemma executor_of_mem (hs : s.background.Classified)
    (hids : s.executorsByClass.sets.lookup c = some ids) {id : ExecutorId} (hid : id∈ids) :
    ∃ e, s.executors.lookup id = some e ∧ e.tombstoned=false ∧ fromExecutor e = c := by
  have hmem : id ∈ s.executorsByClass.ids c := by
    rw [Index.ids,hids]
    exact hid
  obtain ⟨c',hc,hsome⟩ := (hs.byClass c id).mp hmem
  cases hsome
  exact hs.known hc

variable [HashOrder ExecutorId]
  {c : ExecutorClass} {ids : Finset ExecutorId} {acc : FeasibilityCache × List ExecutorClass}

lemma head_executorsByClass (hs : s.background.Classified)
    (hids : s.executorsByClass.sets.lookup c = some ids) :
    ∃ id e, (HashOrder.toList ids).head? = some id ∧ s.executors.lookup id = some e ∧
      e.tombstoned = false ∧ fromExecutor e = c := by
  obtain ⟨id,hhead⟩ : ∃ id, (HashOrder.toList ids).head? = some id := by
    cases hl : HashOrder.toList ids with
    | nil =>
      refine absurd (Finset.eq_empty_of_forall_notMem fun id hid => ?_)
        (s.executorsByClass.nonempty hids)
      rw [← HashOrder.mem_toList,hl] at hid
      exact not_mem_nil hid
    | cons id rest => exact ⟨id,rfl⟩
  obtain ⟨e,he⟩ := executor_of_mem hs hids (HashOrder.mem_toList.mp (mem_of_head? hhead))
  exact ⟨id,e,hhead,he⟩

lemma visitClass_eq {id : ExecutorId} {e : ExecutorMetadata}
    (hhead : (HashOrder.toList ids).head? = some id)
    (hid : s.executors.lookup id = some e) (c : ExecutorClass) :
    visitClass s w acc ⟨c,ids⟩ = ((w.feasible acc.1 c e).2,
      if (w.feasible acc.1 c e).1 then acc.2.insert c else acc.2) := by
  unfold visitClass Workload.feasible
  simp only [hhead,hid]
  cases acc.1.get w.key c <;> rfl

variable (hs : s.background.Classified)
include hs

lemma visitClass_spec (hacc : Extends s w cache acc.1)
    (hids : s.executorsByClass.sets.lookup c = some ids) :
    Extends s w cache (visitClass s w acc ⟨c,ids⟩).1 ∧
      ∀ c', c' ∈ (visitClass s w acc ⟨c,ids⟩).2 ↔ c'∈acc.2 ∨ c'=c ∧ Verdict s w cache c := by
  obtain ⟨id,e,hhead,hid,he,rfl⟩ := head_executorsByClass hs hids
  obtain ⟨hverdict,hext⟩ := feasible_spec hacc hid he
  rw [visitClass_eq hhead hid]
  refine ⟨hext,fun c' => ?_⟩
  split_ifs with hf
  · rw [mem_insert_iff]
    tauto
  · tauto

lemma foldl_visitClass_spec {es : List (Sigma fun _ : ExecutorClass => Finset ExecutorId)}
    (hes : ∀ e∈es, s.executorsByClass.sets.lookup e.1 = some e.2) (hacc : Extends s w cache acc.1) :
    ∀ c, c ∈ (es.foldl (visitClass s w) acc).2 ↔ c∈acc.2 ∨ c∈es.keys ∧ Verdict s w cache c := by
  induction es generalizing acc with
  | nil => simp
  | cons e es ih =>
    obtain ⟨hext,hmem⟩ := visitClass_spec hs hacc (hes e mem_cons_self)
    intro c
    rw [foldl_cons,ih (fun e he => hes e (mem_cons_of_mem _ he)) hext,hmem,keys_cons,mem_cons]
    constructor
    · rintro ((h | ⟨rfl,h⟩) | ⟨hk,h⟩)
      · exact .inl h
      · exact .inr ⟨.inl rfl,h⟩
      · exact .inr ⟨.inr hk,h⟩
    rintro (h | ⟨rfl | hk,h⟩)
    · exact .inl (.inl h)
    · exact .inl (.inr ⟨rfl,h⟩)
    · exact .inr ⟨hk,h⟩

lemma mem_computeEligibleClasses (hc : Suits s w c) :
    c ∈ (computeEligibleClasses s w cache).2 ↔ Verdict s w cache c := by
  have hkey : c∈s.executorsByClass.keys := by
    obtain ⟨id,e,hid,he,-,rfl⟩ := hc
    exact Index.mem_keys_of_mem ((hs.byClass _ id).mpr ⟨_,hs.live hid he,rfl⟩)
  refine (foldl_visitClass_spec hs ?_ (Extends.refl cache) c).trans ?_
  · exact fun e he => (mem_entries_iff _ e.1 e.2).mp he
  · simp only [not_mem_nil,false_or]
    exact and_iff_right hkey

omit hs
end

section
variable {s : ContainerScheduler} {w : Workload} {resources : FunctionResources}
  {cache : FeasibilityCache}

def EntryOf (s : ContainerScheduler) (c : ExecutorClass) (entry : ℕ ×ₗ ExecutorId) : Prop :=
  ∃ e, s.executors.lookup (ofLex entry).2 = some e ∧ e.tombstoned=false ∧ fromExecutor e = c

lemma visit_spec (hs : s.background.Classified) {acc : Scan} (hacc : Extends s w cache acc.cache)
    (entry : ℕ ×ₗ ExecutorId) :
    Extends s w cache (visit s w resources acc entry).cache ∧
      ∀ c, c ∈ (visit s w resources acc entry).eligibleClasses ↔
        c ∈ acc.eligibleClasses ∨ EntryOf s c entry ∧ Verdict s w cache c := by
  unfold visit EntryOf
  dsimp only
  cases hid : s.executors.lookup (ofLex entry).2 with
  | none => exact ⟨hacc,by simp⟩
  | some e =>
    dsimp only
    cases he : e.tombstoned with
    | true =>
      refine ⟨hacc,?_⟩
      intro c
      constructor
      · exact .inl
      rintro (h | ⟨⟨e',h,hlive,-⟩,-⟩)
      · exact h
      · cases h
        cases he.symm.trans hlive
    | false =>
      have hclass : classOf s (ofLex entry).2 e = .fromExecutor e := by
        have hlookup : s.executorClasses.lookup (ofLex entry).2 = some (.fromExecutor e) :=
          hs.live hid he
        rw [classOf,hlookup]
        rfl
      obtain ⟨hverdict,hext⟩ := feasible_spec hacc hid he
      rw [hclass]
      have hentry : ∀ c, (∃ e', some e = some e' ∧ e'.tombstoned=false ∧
          fromExecutor e' = c) ↔ fromExecutor e = c := by
        intro c
        constructor
        · rintro ⟨e',h,-,hc⟩
          cases h
          exact hc
        · exact fun hc => ⟨e,rfl,he,hc⟩
      have hin : (w.feasible acc.cache (.fromExecutor e) e).1 = true → ∀ c,
          c ∈ acc.eligibleClasses.insert (.fromExecutor e) ↔
            c ∈ acc.eligibleClasses ∨ fromExecutor e = c ∧ Verdict s w cache c := by
        intro hf c
        have hv := hverdict.mp hf
        rw [mem_insert_iff]
        constructor
        · rintro (rfl | h)
          · exact .inr ⟨rfl,hv⟩
          · exact .inl h
        rintro (h | ⟨h,-⟩)
        · exact .inr h
        · exact .inl h.symm
      have hout : ¬(w.feasible acc.cache (.fromExecutor e) e).1 = true → ∀ c, c ∈ acc.eligibleClasses ↔
            c ∈ acc.eligibleClasses ∨ fromExecutor e = c ∧ Verdict s w cache c := by
        intro hf c
        constructor
        · exact .inl
        rintro (h | ⟨rfl,h⟩)
        · exact h
        · exact absurd (hverdict.mpr h) hf
      simp only [hentry,Bool.false_eq_true,if_false]
      split_ifs with hf
      · exact ⟨hext,hin hf⟩
      · exact ⟨hext,hin hf⟩
      · exact ⟨hext,hin hf⟩
      · exact ⟨hext,hout hf⟩

lemma foldl_visit_spec (hs : s.background.Classified) {es : List (ℕ ×ₗ ExecutorId)} {acc : Scan}
    (hacc : Extends s w cache acc.cache) (c : ExecutorClass) :
    c ∈ (es.foldl (visit s w resources) acc).eligibleClasses ↔
      c ∈ acc.eligibleClasses ∨ (∃ entry∈es, EntryOf s c entry) ∧ Verdict s w cache c := by
  induction es generalizing acc with
  | nil => simp
  | cons entry es ih =>
    obtain ⟨hext,hmem⟩ := @visit_spec s w resources cache hs acc hacc entry
    rw [foldl_cons,ih hext,hmem]
    simp only [exists_mem_cons_iff]
    tauto

lemma scan_eq_foldl {limit : ℕ} {es : List (ℕ ×ₗ ExecutorId)} {acc : Scan}
    (h : (scan s w resources limit es acc).feasibleCandidates = []) :
    scan s w resources limit es acc = es.foldl (visit s w resources) acc := by
  induction es generalizing acc with
  | nil => rfl
  | cons e es ih =>
    unfold scan at h ⊢
    dsimp only at h ⊢
    split_ifs at h ⊢ with hstop
    · rw [h] at hstop
      exact absurd hstop.1 (Nat.not_lt_zero _)
    · exact ih h

lemma bestCandidate_eq_none {candidates : List (ExecutorId × ℕ)}
    (h : bestCandidate candidates = none) : candidates = [] := by
  rcases eq_nil_or_concat' candidates with hnil | ⟨cs,c,rfl⟩
  · exact hnil
  -- The last candidate is taken unless a better one stands before it.
  unfold bestCandidate at h
  rw [foldl_concat] at h
  split at h
  · cases h
  · split_ifs at h

lemma mem_wrapped {randomMem : ℕ} (h : minMemoryBytes resources ≤ randomMem)
    (entry : ℕ ×ₗ ExecutorId) : entry ∈ wrapped s resources randomMem ↔
      entry ∈ s.executorsByFreeMemory ∧ minMemoryBytes resources ≤ (ofLex entry).1 := by
  unfold wrapped
  simp only [mem_append,mem_filter,Enumeration.mem_ascending,decide_eq_true_eq]
  rw [← and_or_left]
  refine and_congr_right fun _ => ?_
  omega

lemma maxMemory_lt_iff (s : ContainerScheduler) (m : ℕ) :
    maxMemory s < m ↔ 0 < m ∧ ∀ entry∈s.executorsByFreeMemory, (ofLex entry).1 < m := by
  have hmem : ∀ entry, entry∈s.executorsByFreeMemory ↔
      entry ∈ Enumeration.ascending s.executorsByFreeMemory := fun _ => Enumeration.mem_ascending.symm
  have hsorted := Enumeration.pairwise_ascending s.executorsByFreeMemory
  unfold maxMemory
  simp only [hmem]
  rcases eq_nil_or_concat (Enumeration.ascending s.executorsByFreeMemory) with
    hl | ⟨init,last,hl⟩ <;> rw [hl] at hsorted ⊢
  · simp
  rw [concat_eq_append] at hsorted ⊢
  have hle : ∀ entry∈init, (ofLex entry).1 ≤ (ofLex last).1 := by
    intro entry he
    exact Prod.Lex.monotone_fst _ _ ((pairwise_append.mp hsorted).2.2 entry he last
      (mem_singleton_self last))
  rw [List.getLast?_concat]
  simp only [forall_mem_append,forall_mem_singleton]
  constructor
  · intro h
    exact ⟨by omega,fun entry he => (hle entry he).trans_lt h,h⟩
  · exact fun h => h.2.2

end

section
variable [HashOrder ExecutorId] {s : ContainerScheduler} {w : Workload}
  {resources : FunctionResources} {cache : FeasibilityCache}

/-- The placement looks at the class: no answer in the cache rules it out, and either no
executor in the memory index has the required memory, so that all classes are checked, or one of
the class has it. -/
def Considered (s : ContainerScheduler) (w : Workload) (resources : FunctionResources)
    (cache : FeasibilityCache) (c : ExecutorClass) : Prop :=
  cache.get w.key c ≠ some false ∧ ((0 < minMemoryBytes resources ∧
        ∀ entry∈s.executorsByFreeMemory, (ofLex entry).1 < minMemoryBytes resources) ∨
      ∃ entry∈s.executorsByFreeMemory, minMemoryBytes resources ≤ (ofLex entry).1 ∧ EntryOf s c entry)

omit [HashOrder ExecutorId] in
lemma verdict_iff_of_suits {c : ExecutorClass} (hc : Suits s w c) :
    Verdict s w cache c ↔ cache.get w.key c ≠ some false := by
  unfold Verdict
  cases cache.get w.key c with
  | none => simp [hc]
  | some answer => cases answer <;> simp

lemma mem_eligible_of_none (hs : s.background.Classified) {limit random : ℕ}
    (hnone : (selectExecutor s w resources cache limit random).2.executorId = none)
    {c : ExecutorClass} (hc : Suits s w c) :
    c ∈ (selectExecutor s w resources cache limit random).2.eligibleClasses ↔
      Considered s w resources cache c := by
  unfold Considered
  rw [← maxMemory_lt_iff,← verdict_iff_of_suits hc]
  unfold selectExecutor at hnone ⊢
  split_ifs at hnone ⊢ with hmax
  · refine (mem_computeEligibleClasses hs hc).trans ?_
    simp only [hmax,true_or,and_true]
  have hempty := bestCandidate_eq_none (Option.map_eq_none_iff.mp hnone)
  dsimp only
  rw [scan_eq_foldl hempty,foldl_visit_spec hs (Extends.refl cache)]
  simp only [mem_wrapped (Nat.le_add_right _ _),not_mem_nil,false_or,hmax,and_assoc]
  exact and_comm

end

section
open FunctionRunProcessor SandboxProcessor
variable [HashOrder ExecutorId] {s : ContainerScheduler} {result : PlacementResult}
  {c : ExecutorClass}

lemma waits_recordBlockedFunctionRun (hc : c∈result.eligibleClasses) (state : InMemoryState)
    (cache : FeasibilityCache) (run : FunctionRun) (memoryMb : ℕ) :
    (recordBlockedFunctionRun state {s with lastPlacement := some result} cache run
      memoryMb).1.blockedWork.functionRuns.Waits run.key c :=
  BlockedWork.waits_block hc (isEmpty_eq_false_iff.mpr (ne_nil_of_mem hc))

lemma waits_recordBlockedSandbox (hc : c∈result.eligibleClasses) (cache : FeasibilityCache)
    (sandbox : Sandbox) :
    (recordBlockedSandbox {s with lastPlacement := some result} cache
      sandbox).1.blockedWork.sandboxes.Waits (.fromSandbox sandbox) c :=
  BlockedWork.waits_block hc (isEmpty_eq_false_iff.mpr (ne_nil_of_mem hc))

variable [HashOrder SandboxKey] [HashOrder FunctionRunKey]

/-- Work that is recorded after the placement is handed out when an executor of the class joins
or frees resources, with a budget above the memory of everything that is blocked. -/
def Wakes (s : ContainerScheduler) (result : PlacementResult) (c : ExecutorClass) : Prop :=
  (∀ state cache run memoryMb budget,
    let t := (recordBlockedFunctionRun state {s with lastPlacement := some result} cache run
      memoryMb).1.blockedWork
    t.load<budget → run.key ∈ (t.unblockForClass c budget).2.functionRunKeys ∧
      run.key ∈ (t.unblockForFreedResources c budget).2.functionRunKeys) ∧
  ∀ cache sandbox budget,
    let t := (recordBlockedSandbox {s with lastPlacement := some result} cache sandbox).1.blockedWork
    t.load<budget → .fromSandbox sandbox ∈ (t.unblockForClass c budget).2.sandboxKeys ∧
      .fromSandbox sandbox ∈ (t.unblockForFreedResources c budget).2.sandboxKeys

lemma wakes_of_mem (hc : c∈result.eligibleClasses) : Wakes s result c := by
  constructor
  · intro state cache run memoryMb budget t hb
    have hwait := waits_recordBlockedFunctionRun (s := s) hc state cache run memoryMb
    have hout := (BlockedWorkTracker.unblock_waits hb c).2 run.key hwait
    exact ⟨hout,hout⟩
  intro cache sandbox budget t hb
  have hwait := waits_recordBlockedSandbox (s := s) hc cache sandbox
  have hout := (BlockedWorkTracker.unblock_waits hb c).1 _ hwait
  exact ⟨hout,hout⟩

variable [HashOrder ContainerId]

/-- A placement that fails returns every suitable class exactly when it considered all of them,
and then work blocked by it is woken under each. -/
theorem failed_placement_classes_iff (functionPools sandboxPools : Dict ContainerPoolKey ContainerPool)
    (ops : List Op) (hops : ∀ op∈ops, RegistersLive op) (w : Workload) (resources : FunctionResources)
    (cache : FeasibilityCache) (limit random : ℕ) :
    let s := run (new functionPools sandboxPools) ops
    let result := (selectExecutor s w resources cache limit random).2
    result.executorId = none →
    ((∀ c, Suits s w c → c∈result.eligibleClasses) ↔ ∀ c, Suits s w c → Considered s w resources cache c) ∧
    ((∀ c, Suits s w c → Considered s w resources cache c) → ∀ c, Suits s w c → Wakes s result c) := by
  intro s result hnone
  have hs : s.background.Classified := run_classified hops
  constructor
  · exact forall₂_congr fun c hc => mem_eligible_of_none hs hnone hc
  · intro h c hc
    exact wakes_of_mem ((mem_eligible_of_none hs hnone hc).mpr (h c hc))

end

def largeFunction : Function := ⟨"train",[],none,1000,⟨1000,4096,1024,[]⟩,⟨0⟩,1⟩

attribute [local instance] HashOrder.ascending

/-- Nothing fits, and the class of the one executor is returned and wakes. -/
theorem largeFunction_wakes :
    let s := run (new ∅ ∅) joinOps
    let w := Workload.ofFunction "default" "app" largeFunction
    let result := (selectExecutor s w largeFunction.resources ∅ 2 0).2
    result.executorId = none ∧
      fromExecutor smallExecutor ∈ result.eligibleClasses ∧
      Wakes s result (.fromExecutor smallExecutor) := by
  intro s w result
  have hnone : result.executorId=none := by decide
  have hsuits : Suits s w (.fromExecutor smallExecutor) :=
    ⟨⟨"executor"⟩,smallExecutor,rfl,rfl,by decide,rfl⟩
  have hall : ∀ c, Suits s w c → Considered s w largeFunction.resources ∅ c := by
    intro c _
    refine ⟨?_,.inl ?_⟩
    · rintro ⟨⟩
    · decide
  have h := failed_placement_classes_iff ∅ ∅ joinOps (by decide) w largeFunction.resources ∅ 2 0
    hnone
  exact ⟨hnone,h.1.mpr hall _ hsuits,h.2 hall _ hsuits⟩

def zoneExecutor (zone : String) : ExecutorMetadata where
  id := ⟨zone⟩
  functionAllowlist := none
  labels := (∅ : Dict String String).insert "zone" zone
  containers := ∅
  hostResources := smallHost
  tombstoned := false

/-- In one zone memory is left but little CPU, in the other CPU but little memory. -/
def zoneStates : Dict ExecutorId ExecutorServerMetadata :=
  ((∅ : Dict ExecutorId ExecutorServerMetadata).insert ⟨"a"⟩
    ⟨⟨"a"⟩,∅,⟨500,2*1024*1024*1024,4*1024*1024*1024,none⟩,∅⟩).insert ⟨"b"⟩
    ⟨⟨"b"⟩,∅,⟨2000,256*1024*1024,4*1024*1024*1024,none⟩,∅⟩

def zoneOps : List Op :=
  [.payload (.upsertExecutor (zoneExecutor "a")),
    .payload (.upsertExecutor (zoneExecutor "b")),
    .applyContainerUpdate {updatedExecutorStates := zoneStates}]

def blockedRun : FunctionRun where
  id := ⟨"call"⟩
  requestId := "request"
  «namespace» := "default"
  application := "app"
  version := "1"
  name := "answer"
  computeOp := .functionCall ⟨⟨"call"⟩,[],"answer",[],none⟩
  inputArgs := []
  childFunctionCall := none
  output := none
  status := .pending
  outcome := none
  attemptNumber := 0
  callMetadata := []
  requestError := none

/-- The second zone suits the function but is not returned, and the function is not retried when
an executor of that zone has all its memory free. -/
theorem zoneOps_lose_wake_up :
    let s := run (new ∅ ∅) zoneOps
    let w := Workload.ofFunction "default" "app" smallFunction
    let result := (selectExecutor s w smallFunction.resources ∅ 2 0).2
    let tracker := (FunctionRunProcessor.recordBlockedFunctionRun {}
      {s with lastPlacement := some result} ∅ blockedRun 512).1.blockedWork
    (∀ op∈zoneOps, RegistersLive op) ∧
      result.executorId = none ∧
      (s.executors.lookup ⟨"b"⟩).map (fun e => (e.tombstoned,w.checkConstraints e,
        fromExecutor e)) =
        some (false,true,.fromExecutor (zoneExecutor "b")) ∧
      fromExecutor (zoneExecutor "b") ∉ result.eligibleClasses ∧
      (BlockedWorkTracker.unblockForClass tracker
        (.fromExecutor (zoneExecutor "b")) 2048).2 = {} := by
  decide

end Placement
end Indexify
