import Indexify.DataModel.ResourceClaims
import Indexify.Processor.EligibleClasses
import Indexify.Processor.MemoryIndex

/-! A placement chooses a host that accepts any one of the GPU configurations of a function,
while the container asks for the first. What the choice promises about the registration that
follows is therefore a question about the first configuration. -/
namespace Indexify
open List

namespace Placement
section
variable (s : ContainerScheduler) (w : Workload) (resources : FunctionResources)
  (cache : FeasibilityCache)

/-- The entry of the memory index passes all checks of a scan. -/
def suitable (entry : ℕ ×ₗ ExecutorId) : Bool :=
  match s.executors.lookup (ofLex entry).2 with
  | none => false
  | some e => !e.tombstoned && (w.feasible cache (.fromExecutor e) e).1 &&
      decide (minMemoryBytes resources ≤ (ofLex entry).1) && hasResources s (ofLex entry).2 resources

/-- The entries that a scan compares: the first suitable ones from the random threshold on. -/
def compared (limit random : ℕ) : List (ℕ ×ₗ ExecutorId) :=
  ((wrapped s resources (minMemoryBytes resources+
    random % (maxMemory s-minMemoryBytes resources+1))).filter
      (suitable s w resources cache)).take (max limit 1)

end

/-- No entry has more free memory, and none behind this one as much. -/
def Leads (entries : List (ℕ ×ₗ ExecutorId)) (entry : ℕ ×ₗ ExecutorId) : Prop :=
  ∃ earlier later, entries = earlier++entry::later ∧
    (∀ x∈earlier, (ofLex x).1 ≤ (ofLex entry).1) ∧ ∀ x∈later, (ofLex x).1 < (ofLex entry).1

def asCandidate (entry : ℕ ×ₗ ExecutorId) : ExecutorId × ℕ := ((ofLex entry).2,(ofLex entry).1)

section
variable {entries : List (ℕ ×ₗ ExecutorId)} {entry : ℕ ×ₗ ExecutorId}

lemma Leads.mem (h : Leads entries entry) : entry∈entries := by
  obtain ⟨earlier,later,rfl,-⟩ := h
  exact mem_append_right _ mem_cons_self

lemma exists_leads (h : entries≠[]) : ∃ entry, Leads entries entry := by
  induction entries using reverseRecOn with
  | nil => exact absurd rfl h
  | append_singleton entries last ih =>
    by_cases hnil : entries=[]
    · exact ⟨last,[],[],by rw [hnil],nofun,nofun⟩
    obtain ⟨best,earlier,later,rfl,hearlier,hlater⟩ := ih hnil
    by_cases hlast : (ofLex last).1 < (ofLex best).1
    · exact ⟨best,earlier,later++[last],by simp,hearlier,
        forall_mem_append.mpr ⟨hlater,forall_mem_singleton.mpr hlast⟩⟩
    · have hbest := not_lt.mp hlast
      refine ⟨last,_,[],rfl,forall_mem_append.mpr ⟨fun x hx => (hearlier x hx).trans hbest,?_⟩,nofun⟩
      exact forall_mem_cons.mpr ⟨hbest,fun x hx => (hlater x hx).le.trans hbest⟩

lemma bestCandidate_concat (candidates : List (ExecutorId × ℕ)) (c : ExecutorId × ℕ) :
    bestCandidate (candidates++[c]) = match bestCandidate candidates with
      | none => some c
      | some b => if b.2 ≤ c.2 then some c else some b := by
  rw [bestCandidate,foldl_concat]
  rfl

lemma Leads.bestCandidate (h : Leads entries entry) :
    bestCandidate (entries.map asCandidate) = some (asCandidate entry) := by
  obtain ⟨earlier,later,rfl,hearlier,hlater⟩ := h
  induction later using reverseRecOn with
  | nil =>
    rw [map_append,map_singleton,bestCandidate_concat]
    cases hbest : Placement.bestCandidate (earlier.map asCandidate) with
    | none => rfl
    | some b =>
      obtain ⟨x,hx,rfl⟩ := mem_map.mp (mem_of_bestCandidate hbest)
      exact if_pos (hearlier x hx)
  | append_singleton later last ih =>
    obtain ⟨hlater,hlast⟩ := forall_mem_append.mp hlater
    rw [← cons_append,← append_assoc,map_append,map_singleton,bestCandidate_concat,ih hlater]
    exact if_neg (not_le.mpr (hlast last (mem_singleton_self last)))

end

section
variable {s : ContainerScheduler} {w : Workload} {resources : FunctionResources}
  {cache : FeasibilityCache} (hs : s.background.Classified)
include hs

lemma visit_feasibleCandidates {acc : Scan} (hacc : Extends s w cache acc.cache)
    (entry : ℕ ×ₗ ExecutorId) : (visit s w resources acc entry).feasibleCandidates =
      acc.feasibleCandidates++if suitable s w resources cache entry then [asCandidate entry] else [] := by
  unfold visit suitable
  dsimp only
  cases hid : s.executors.lookup (ofLex entry).2 with
  | none => simp
  | some e =>
    dsimp only
    rcases Bool.eq_false_or_eq_true e.tombstoned with he | he
    · simp [he]
    · have hclass : classOf s (ofLex entry).2 e = .fromExecutor e := by
        rw [classOf,show s.executorClasses.lookup _ = _ from hs.live hid he]
        rfl
      have hsame : (w.feasible acc.cache (.fromExecutor e) e).1 =
          (w.feasible cache (.fromExecutor e) e).1 :=
        Bool.eq_iff_iff.mpr ((feasible_spec hacc hid he).1.trans
          (feasible_spec (Extends.refl cache) hid he).1.symm)
      rw [hclass,hsame]
      rcases Bool.eq_false_or_eq_true (w.feasible cache (.fromExecutor e) e).1 with hf | hf
      swap
      · simp [he,hf]
      · by_cases hm : (ofLex entry).1 < minMemoryBytes resources
        · simp [he,hf,hm]
        · cases hasResources s (ofLex entry).2 resources <;>
            simp [he,hf,hm,asCandidate,not_lt.mp hm]

/-- From a scan that has some candidates already, up to the one that reaches the limit. -/
lemma scan_feasibleCandidates {acc : Scan} (hacc : Extends s w cache acc.cache) (limit : ℕ)
    (es : List (ℕ ×ₗ ExecutorId)) : (scan s w resources limit es acc).feasibleCandidates =
      acc.feasibleCandidates++((es.filter (suitable s w resources cache)).take
        (max (limit-acc.feasibleCandidates.length) 1)).map asCandidate := by
  induction es generalizing acc with
  | nil => simp [scan]
  | cons entry es ih =>
    have hvisit := @visit_feasibleCandidates s w resources cache hs acc hacc entry
    have hext := (@visit_spec s w resources cache hs acc hacc entry).1
    unfold scan
    dsimp only
    cases hsuitable : suitable s w resources cache entry with
    | false =>
      rw [hsuitable,if_neg Bool.false_ne_true,append_nil] at hvisit
      rw [if_neg (by simp [hvisit]),ih hext,hvisit,filter_cons_of_neg (by simp [hsuitable])]
    | true =>
      rw [hsuitable,if_pos rfl] at hvisit
      rw [filter_cons_of_pos hsuitable]
      split_ifs with hstop
      · rw [hvisit,length_append,length_singleton] at hstop
        rw [hvisit,show max (limit-acc.feasibleCandidates.length) 1 = 1 by omega]
        rfl
      · rw [hvisit,length_append,length_singleton] at hstop
        rw [ih hext,hvisit,length_append,length_singleton,append_assoc,
          show max (limit-acc.feasibleCandidates.length) 1 =
            max (limit-(acc.feasibleCandidates.length+1)) 1+1 by omega]
        rfl

/-- A placement picks the executor that leads the compared ones. -/
lemma selectExecutor_iff [HashOrder ExecutorId] {limit random : ℕ} {id : ExecutorId} :
    (selectExecutor s w resources cache limit random).2.executorId = some id ↔
      ∃ entry, Leads (compared s w resources cache limit random) entry ∧ (ofLex entry).2=id := by
  unfold selectExecutor
  split_ifs with hmax
  · refine iff_of_false (by simp) ?_
    rintro ⟨entry,hleads,-⟩
    obtain ⟨hwrapped,hsuitable⟩ := mem_filter.mp (mem_of_mem_take hleads.mem)
    have hmem := ((mem_wrapped (Nat.le_add_right _ _) entry).mp hwrapped)
    exact absurd hmem.2 (not_le.mpr (((maxMemory_lt_iff s _).mp hmax).2 entry hmem.1))
  · dsimp only
    rw [scan_feasibleCandidates hs (Extends.refl cache),nil_append,length_nil,Nat.sub_zero]
    change (Option.map Prod.fst (bestCandidate ((compared s w resources cache limit
      random).map asCandidate)) = some id) ↔ _
    constructor
    · intro h
      have hne : compared s w resources cache limit random ≠ [] := by
        intro hnil
        rw [hnil] at h
        cases h
      obtain ⟨entry,hleads⟩ := exists_leads hne
      rw [hleads.bestCandidate] at h
      exact ⟨entry,hleads,Option.some.inj h⟩
    · rintro ⟨entry,hleads,rfl⟩
      rw [hleads.bestCandidate]
      rfl

end
end Placement
namespace ContainerScheduler
open Placement

inductive ContainerRequest
  | function («namespace» application version : String) (function : Function) (id : ContainerId)
  | sandbox (sandbox : Sandbox) (snapshotUri : Option String)
  | pool (pool : ContainerPool) (id : ContainerId)

namespace ContainerRequest

def workload : ContainerRequest → Workload
  | .function ns application _ f _ => .ofFunction ns application f
  | .sandbox box _ => .ofSandbox box.namespace
  | .pool p _ => .ofSandbox p.namespace

def resources : ContainerRequest → FunctionResources
  | .function _ _ _ f _ => f.resources
  | .sandbox box _ => requirements box.resources
  | .pool p _ => requirements p.resources

def container : ContainerRequest → Container
  | .function ns application version f id => functionContainer ns application version f id
  | .sandbox box snapshotUri => sandboxContainer box snapshotUri
  | .pool p id => poolContainer p id

def containerType : ContainerRequest → ContainerType
  | .function .. => .function
  | .sandbox .. => .sandbox
  | .pool .. => .sandbox

lemma container_resources (r : ContainerRequest) :
    r.container.resources = r.resources.withGpu r.resources.gpuConfigs.head? := by
  cases r with
  | function => rfl
  | sandbox sandbox => exact (requirements_withGpu sandbox.resources).symm
  | pool pool => exact (requirements_withGpu pool.resources).symm

end ContainerRequest

section
variable {h : HostResources} {resources : FunctionResources}

/-- A host that has enough for one of the configurations has enough for a configuration whose GPU it
has. -/
lemma handles_withGpu_iff (hok : (h.canHandleFunctionResources resources).isOk = true)
    (gpu : Option GPUResources) : (h.canHandleFeResources (resources.withGpu gpu)).isOk = true ↔
      ∀ g∈gpu, ∃ a∈h.gpu, g.count ≤ a.count ∧ a.model=g.model := by
  obtain ⟨hcpu,hmemory,hdisk,-⟩ := HostResources.canHandleFunctionResources_iff.mp hok
  rw [HostResources.isOk_canHandleFeResources,HostResources.handles_iff]
  exact ⟨fun hcan => hcan.2.2.2,fun hgpu => ⟨hcpu,hmemory,hdisk,hgpu⟩⟩

end

section
variable {s : ContainerScheduler} {c : Container}

lemma isOk_addContainer_iff (state : ExecutorServerMetadata) (c : Container) :
    (state.addContainer c).2.isOk = true ↔ Fits state c := by
  constructor
  · intro h
    unfold ExecutorServerMetadata.addContainer at h
    dsimp only at h
    cases hclaim : state.resourceClaims.lookup c.id with
    | some claim => exact .inl (Dict.mem_of_lookup hclaim)
    | none =>
      rw [hclaim] at h
      unfold HostResources.consumeFeResources at h
      cases hcan : state.freeResources.canHandleFeResources c.resources with
      | ok => exact .inr (by rw [hcan]; rfl)
      | error e =>
        rw [hcan] at h
        cases h
  · intro h
    rw [addContainer_of_fits h]
    rfl

lemma isOk_registerContainer_iff (s : ContainerScheduler) (id : ExecutorId) (c : Container)
    (containerType : ContainerType) (now : Instant) :
    (s.registerContainer id c containerType now).2.isOk = true ↔
      ∃ state, s.executorStates.lookup id = some state ∧ Fits state c := by
  have hout := registerContainer_outcome s id c containerType now
  generalize s.registerContainer id c containerType now = r at hout
  cases hout with
  | unknown hstate => simp [hstate,Except.toBool]
  | refused state e hstate hadd =>
    have hno : ¬Fits state c := by
      rw [← isOk_addContainer_iff,hadd]
      simp [Except.toBool]
    simp [hstate,hno,Except.toBool]
  | added state hstate hadd =>
    have hfits : Fits state c := (isOk_addContainer_iff state c).mp (by rw [hadd]; rfl)
    simp [hstate,hfits,Except.toBool]

/-- The GPU of the first configuration is free, or the resources of the container are claimed. -/
def FirstGpuFree (s : ContainerScheduler) (r : ContainerRequest) (id : ExecutorId) : Prop :=
  ∀ state ∈ s.executorStates.lookup id, r.container.id ∈ state.resourceClaims ∨
    ∀ g ∈ r.resources.gpuConfigs.head?, ∃ a∈state.freeResources.gpu, g.count ≤ a.count ∧ a.model=g.model

lemma registers_iff_firstGpuFree {r : ContainerRequest} {entry : ℕ ×ₗ ExecutorId}
    {cache : FeasibilityCache} (h : suitable s r.workload r.resources cache entry = true)
    (containerType : ContainerType) (now : Instant) :
    (s.registerContainer (ofLex entry).2 r.container containerType now).2.isOk = true ↔
      s.FirstGpuFree r (ofLex entry).2 := by
  have hres : hasResources s (ofLex entry).2 r.resources = true := by
    unfold suitable at h
    split at h
    · cases h
    · exact (Bool.and_eq_true_iff.mp h).2
  rw [isOk_registerContainer_iff,FirstGpuFree]
  cases hst : s.executorStates.lookup (ofLex entry).2 with
  | none => simp [hasResources,hst] at hres
  | some state =>
    have hok := hasResources_canHandle hst hres
    simp only [Option.some.injEq,exists_eq_left',Option.mem_def,forall_eq',Fits,r.container_resources]
    exact or_congr_right (handles_withGpu_iff hok _)

end

section
variable [HashOrder ContainerId] [HashOrder ExecutorId]

/-- Registration on the executor that a placement picks succeeds exactly when the entry with the most
free memory, among the first suitable ones from the random start, belongs to an executor that has the
GPU of the first configuration. -/
theorem picked_executor_registers_iff (functionPools sandboxPools : Dict ContainerPoolKey ContainerPool)
    (ops : List Op) (hops : ∀ op∈ops, RegistersLive op) (r : ContainerRequest) (cache : FeasibilityCache)
    (limit random : ℕ) (now : Instant) :
    let s := run (new functionPools sandboxPools) ops
    (∀ id, (selectExecutor s r.workload r.resources cache limit random).2.executorId = some id →
      (s.registerContainer id r.container r.containerType now).2.isOk = true) ↔
    ∀ entry, Leads (compared s r.workload r.resources cache limit random) entry →
      s.FirstGpuFree r (ofLex entry).2 := by
  intro s
  have hs : s.background.Classified := run_classified hops
  have hsuitable : ∀ {entry}, Leads (compared s r.workload r.resources cache limit random) entry →
      suitable s r.workload r.resources cache entry = true :=
    fun hleads => (mem_filter.mp (mem_of_mem_take hleads.mem)).2
  constructor
  · intro h entry hleads
    exact (registers_iff_firstGpuFree (hsuitable hleads) _ now).mp
      (h _ ((selectExecutor_iff hs).mpr ⟨entry,hleads,rfl⟩))
  · intro h id hpick
    obtain ⟨entry,hleads,rfl⟩ := (selectExecutor_iff hs).mp hpick
    exact (registers_iff_firstGpuFree (hsuitable hleads) _ now).mpr (h entry hleads)

end

section
variable {s s' : ContainerScheduler} {executorId : ExecutorId} {c : Container}

/-- The records of the executors, the stored containers and the index are the same. -/
structure SameRecords (s s' : ContainerScheduler) : Prop where
  states : ∀ id, s'.executorStates.lookup id = s.executorStates.lookup id
  containers : s'.functionContainers=s.functionContainers
  index : s'.executorsByFreeMemory=s.executorsByFreeMemory

/-- The container that would come back has an executor, which has no room for it. -/
def RestoreRefused (s : ContainerScheduler) (fnUri : FunctionURI) : Prop :=
  ∃ id fc state e, (s.popReaped fnUri).2 = some id ∧ s.functionContainers.lookup id = some fc ∧
    s.executorStates.lookup fc.executorId = some state ∧
    (state.addContainer fc.functionContainer).2 = .error e

lemma addContainer_ne_of_error {state : ExecutorServerMetadata} {e : ResourceError}
    (h : (state.addContainer c).2 = .error e) : (state.addContainer c).1 ≠ state := by
  intro hsame
  have hclaims := congrArg (fun state => state.resourceClaims.lookup c.id) hsame
  unfold ExecutorServerMetadata.addContainer at h hclaims
  cases hclaim : state.resourceClaims.lookup c.id with
  | some claim => simp [hclaim] at h
  | none => simp [hclaim,AList.lookup_insert] at hclaims

lemma not_sameRecords_of_refused {state : ExecutorServerMetadata} {e : ResourceError}
    (hstate : s.executorStates.lookup executorId = some state)
    (hadd : (state.addContainer c).2 = .error e)
    (hs' : s'.executorStates = s.executorStates.insert executorId (state.addContainer c).1) :
    ¬SameRecords s s' := by
  intro hsame
  have hlookup := hsame.states executorId
  rw [hs',AList.lookup_insert,hstate] at hlookup
  exact addContainer_ne_of_error hadd (Option.some.inj hlookup)

/-- A call that fails to place a container leaves the records alone exactly when it fails before
the container is added to the record of an executor. -/
theorem failed_placement_unchanged_iff (s : ContainerScheduler) : (∀ executorId c containerType now e,
    (s.registerContainer executorId c containerType now).2 = .error e →
    (SameRecords s (s.registerContainer executorId c containerType now).1 ↔
      s.executorStates.lookup executorId = none)) ∧
    ∀ fnUri now, (s.restoreReapedContainer fnUri now).2 = none →
      (SameRecords s (s.restoreReapedContainer fnUri now).1 ↔ ¬s.RestoreRefused fnUri) := by
  constructor
  · intro executorId c containerType now e herror
    have hout := registerContainer_outcome s executorId c containerType now
    generalize s.registerContainer executorId c containerType now = r at hout herror
    cases hout with
    | unknown hstate => exact iff_of_true ⟨fun _ => rfl,rfl,rfl⟩ hstate
    | refused state e hstate hadd =>
      exact iff_of_false (not_sameRecords_of_refused hstate (by rw [hadd]) rfl) (by simp [hstate])
    | added => cases herror
  intro fnUri now hnone
  unfold RestoreRefused
  unfold restoreReapedContainer at hnone ⊢
  rcases popReaped_eq s fnUri with hpop | ⟨ids,id,-,-,hpop⟩ <;> rw [hpop] at hnone ⊢
  · exact iff_of_true ⟨fun _ => rfl,rfl,rfl⟩ (by rintro ⟨_,_,_,_,⟨⟩,-⟩)
  dsimp only at hnone ⊢
  cases hfc : s.functionContainers.lookup id with
  | none =>
    refine iff_of_true ⟨fun _ => rfl,rfl,rfl⟩ ?_
    rintro ⟨_,fc,_,_,⟨⟩,hfc',-⟩
    cases hfc.symm.trans hfc'
  | some fc =>
    rw [hfc] at hnone
    dsimp only at hnone ⊢
    cases hstate : s.executorStates.lookup fc.executorId with
    | none =>
      refine iff_of_true ⟨fun _ => rfl,rfl,rfl⟩ ?_
      rintro ⟨_,fc',state,_,⟨⟩,hfc',hstate',-⟩
      cases hfc.symm.trans hfc'
      cases hstate.symm.trans hstate'
    | some state =>
      rw [hstate] at hnone
      unfold reinstate at hnone ⊢
      dsimp only at hnone ⊢
      cases hadd : (state.addContainer fc.functionContainer).2 with
      | ok _ =>
        rw [hadd] at hnone
        cases hnone
      | error e =>
        exact iff_of_false (not_sameRecords_of_refused hstate hadd rfl)
          (not_not.mpr ⟨id,fc,state,e,rfl,hfc,hstate,hadd⟩)

end

attribute [local instance] HashOrder.ascending

def largeState : ExecutorServerMetadata :=
  ⟨⟨"large"⟩,∅,⟨4000,4*1024*1024*1024,4*1024*1024*1024,some ⟨2,"H100"⟩⟩,∅⟩

/-- Beside the host with the A100 a larger one with an H100. -/
def mixedOps : List Op := gpuOps.take 2 ++
  [.payload (.upsertExecutor {smallExecutor with id := ⟨"large"⟩}),
    .applyContainerUpdate {updatedExecutorStates :=
      (∅ : Dict ExecutorId ExecutorServerMetadata).insert ⟨"large"⟩ largeState}]

/-- Both hosts are suitable for the function, and the larger one takes its container. -/
theorem mixedOps_registers :
    let r := ContainerRequest.function "default" "app" "1" gpuFunction ⟨"container"⟩
    (selectExecutor (run (new ∅ ∅) mixedOps) r.workload r.resources ∅ 2
        0).2.executorId = some ⟨"large"⟩ ∧
      ((run (new ∅ ∅) mixedOps).registerContainer ⟨"large"⟩ r.container r.containerType 0).2.isOk = true := by
  intro r
  have hpick : (selectExecutor (run (new ∅ ∅) mixedOps) r.workload r.resources ∅ 2
      0).2.executorId = some ⟨"large"⟩ := by decide
  have hops : ∀ op∈mixedOps, RegistersLive op := by
    simp [mixedOps,gpuOps,RegistersLive,smallExecutor]
  refine ⟨hpick,(picked_executor_registers_iff ∅ ∅ mixedOps hops r ∅ 2 0 0).mpr ?_ _ hpick⟩
  intro entry hleads state hstate
  have hid : some (ofLex entry).2 = some ⟨"large"⟩ :=
    ((selectExecutor_iff (run_classified hops)).mpr ⟨entry,hleads,rfl⟩).symm.trans hpick
  rw [Option.some.inj hid,
    show (run (new ∅ ∅) mixedOps).executorStates.lookup ⟨"large"⟩ = some largeState from rfl] at hstate
  cases hstate
  refine .inr ?_
  rintro g ⟨⟩
  exact ⟨⟨2,"H100"⟩,rfl,by decide,rfl⟩

/-- The host with one A100 is picked for the second configuration and refuses the first. -/
theorem picked_executor_refuses :
    let s := run (new ∅ ∅) (gpuOps.take 2)
    let r := ContainerRequest.function "default" "app" "1" gpuFunction ⟨"container"⟩
    (selectExecutor s r.workload r.resources ∅ 2 0).2.executorId = some ⟨"executor"⟩ ∧
      (s.registerContainer ⟨"executor"⟩ r.container r.containerType 0).2.isOk = false := by
  decide

/-- One container is on record and reaped. Another one for an executor that has no record, and the
restore of a function that has no reaped container, change nothing. -/
theorem unplaced_sameRecords :
    let s := run (new ∅ ∅) (churnOps.take 5)
    let c := functionContainer "default" "app" "1" smallFunction ⟨"c2"⟩
    s.functionContainers.keys = [⟨"c1"⟩] ∧ SameRecords s (s.registerContainer ⟨"other"⟩ c .function 50).1 ∧
      SameRecords s (s.restoreReapedContainer ⟨"default","app","train","1"⟩ 50).1 := by
  refine ⟨by decide,?_,?_⟩
  · refine ((failed_placement_unchanged_iff _).1 _ _ _ _ (.executorStateNotFound ⟨"other"⟩) ?_).mpr ?_
    · rfl
    · rfl
  · refine ((failed_placement_unchanged_iff _).2 _ _ ?_).mpr ?_
    · decide
    · rintro ⟨id,fc,state,e,hpop,-⟩
      cases hpop

/-- The host with one A100 refuses the container. It is on the record of the executor from then
on, and the executor is no longer in the index. -/
theorem refused_container_on_record :
    let s := run (new ∅ ∅) (gpuOps.take 2)
    let r := s.registerContainer ⟨"executor"⟩
      (functionContainer "default" "app" "1" gpuFunction ⟨"container"⟩) .function 0
    let record := fun s : ContainerScheduler => (s.executorStates.lookup ⟨"executor"⟩).map fun state =>
      (state.functionContainerIds,state.resourceClaims.keys)
    r.2.isOk = false ∧ record s = some (∅,[]) ∧ record r.1 = some ({⟨"container"⟩},[⟨"container"⟩]) ∧
      s.executorsByFreeMemory.card = 1 ∧ r.1.executorsByFreeMemory = ∅ := by
  decide

end ContainerScheduler
end Indexify
