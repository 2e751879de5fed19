import Indexify.Processor.Creations
import Indexify.Processor.StateChanges

/-! What the work of handlers does to the entries of the container table. Nearly all of it writes a
later version of a stored container: one on the same executor that is pending only if the stored
one is. A property that later versions keep is kept by that work. -/
namespace Indexify
open Dict List FunctionRunProcessor
namespace ContainerServerMetadata

structure Version (old new : ContainerServerMetadata) : Prop where
  executor : new.executorId=old.executorId
  container : new.functionContainer.id=old.functionContainer.id
  pending : new.functionContainer.state=.pending → old.functionContainer.state=.pending

lemma Version.of_container {old new : ContainerServerMetadata}
    (hexecutor : new.executorId=old.executorId)
    (hcontainer : new.functionContainer=old.functionContainer) : Version old new :=
  ⟨hexecutor,congrArg Container.id hcontainer,fun h => by rwa [hcontainer] at h⟩

lemma version_terminate (fc : ContainerServerMetadata) : Version fc fc.terminate :=
  Version.of_container rfl rfl

end ContainerServerMetadata

def Payload.isSchedulerUpdate : Payload → Bool
  | .schedulerUpdate _ => true
  | _ => false

open ContainerServerMetadata
namespace ContainerScheduler

/-- A property of entries that later versions keep. -/
def Stable (Q : ContainerId → ContainerServerMetadata → Prop) : Prop :=
  ∀ id old new, Q id old → Version old new → Q id new

def Every (Q : ContainerId → ContainerServerMetadata → Prop)
    (table : Dict ContainerId ContainerServerMetadata) : Prop :=
  ∀ id fc, table.lookup id = some fc → Q id fc

section
variable {Q : ContainerId → ContainerServerMetadata → Prop}
  {table other : Dict ContainerId ContainerServerMetadata} {id : ContainerId}
  {fc : ContainerServerMetadata}

lemma every_empty : Every Q ∅ := by
  intro id fc h
  cases h

variable (h : Every Q table)
include h

lemma Every.insert (hfc : Q id fc) : Every Q (table.insert id fc) :=
  fun _ _ => of_lookup_insert (fun h' => h _ _ h') hfc

lemma Every.union (h' : Every Q other) : Every Q (other ∪ table) := by
  intro id fc hfc
  by_cases hmem : id∈other
  · rw [AList.lookup_union_left hmem] at hfc
    exact h' id fc hfc
  · rw [AList.lookup_union_right hmem] at hfc
    exact h id fc hfc

lemma Every.foldl_insert {es : List (Sigma fun _ : ContainerId => ContainerServerMetadata)}
    (hes : ∀ e∈es, Q e.1 e.2) : Every Q (es.foldl (fun m e => m.insert e.1 e.2) table) :=
  foldlRecOn es _ h fun _ hm e he => hm.insert (hes e he)

lemma Every.of_mem (e : Sigma fun _ : ContainerId => ContainerServerMetadata)
    (he : e∈table.entries) : Q e.1 e.2 := h e.1 e.2 ((mem_entries_iff _ _ _).mp he)

omit h

def Keeps (Q : ContainerId → ContainerServerMetadata → Prop)
    (r : ContainerScheduler × SchedulerUpdateRequest) : Prop :=
  Every Q r.1.functionContainers ∧ Every Q r.2.containers

def Leaves {ε : Type} (Q : ContainerId → ContainerServerMetadata → Prop) (s : ContainerScheduler)
    (r : Except ε SchedulerUpdateRequest) : Prop :=
  Every Q s.functionContainers ∧ ∀ u, r = .ok u → Every Q u.containers

lemma Leaves.error {ε : Type} {e : ε} {s : ContainerScheduler} (h : Every Q s.functionContainers) :
    Leaves Q s (.error e) := ⟨h,by rintro _ ⟨⟩⟩

lemma Keeps.leaves {ε : Type} {s : ContainerScheduler} {u : SchedulerUpdateRequest}
    (h : Keeps Q (s,u)) : Leaves Q s (.ok u : Except ε SchedulerUpdateRequest) :=
  ⟨h.1,by rintro _ ⟨⟩; exact h.2⟩

lemma every_containerUpdate (h : Q id fc) : Every Q (containerUpdate id fc).containers :=
  every_empty.insert h

end

def OnNew (Q : ContainerId → ContainerServerMetadata → Prop) (id : ContainerId) (now : Instant) : Prop :=
  ∀ (c : Container) (e : ExecutorId) (type : ContainerType), c.id=id → Q id (registered e c type now)

section
variable {Q : ContainerId → ContainerServerMetadata → Prop} (hQ : Stable Q)
  {s : ContainerScheduler} {u : SchedulerUpdateRequest} {id : ContainerId}

lemma Every.applyContainerUpdate (h : Every Q s.functionContainers) (hu : Every Q u.containers) :
    Every Q (s.applyContainerUpdate u).functionContainers := by
  rw [functionContainers_applyContainerUpdate]
  exact h.foldl_insert hu.of_mem

lemma functionContainers_removeContainerFromIndices (s : ContainerScheduler) (id : ContainerId) :
    (s.removeContainerFromIndices id).functionContainers = s.functionContainers ∨
      (s.removeContainerFromIndices id).functionContainers = s.functionContainers.erase id := by
  unfold removeContainerFromIndices
  cases s.functionContainers.lookup id with
  | none => exact Or.inl rfl
  | some fc =>
    refine Or.inr ?_
    have hidle := holdings_removeIdle {s with functionContainers := s.functionContainers.erase id}
      fc.idleSince id
    exact (congrArg Holdings.containers (holdings_markDirty _ _)).trans
      (congrArg Holdings.containers hidle)

lemma functionContainers_deregisterExecutor (s : ContainerScheduler) (id : ExecutorId) :
    (s.deregisterExecutor id).functionContainers = s.functionContainers := by
  unfold ContainerScheduler.deregisterExecutor
  dsimp only
  cases s.executorStates.lookup id <;> dsimp only <;> split <;> rfl

lemma containers_promoteSandboxIfContainerRunning (m : SandboxState) (c : Container)
    (state : ContainerState) :
    (ContainerReconciler.promoteSandboxIfContainerRunning m c state).containers = ∅ := by
  unfold ContainerReconciler.promoteSandboxIfContainerRunning
  split
  · rfl
  split_ifs
  · dsimp only
    split
    · rfl
    · split_ifs <;> rfl
  · rfl

include hQ

lemma Every.terminateContainer (h : Every Q s.functionContainers) (id : ContainerId) :
    Every Q (s.terminateContainer id).1.functionContainers ∧
      Every Q ((s.terminateContainer id).2.getD {}).containers := by
  have htable := congrArg Holdings.containers (holdings_terminateContainer s id)
  change (s.terminateContainer id).1.functionContainers = _ at htable
  rw [htable]
  unfold ContainerScheduler.terminateContainer
  cases hfc : s.functionContainers.lookup id with
  | none =>
    rw [show _ = _ from modify_of_lookup_none hfc _]
    exact ⟨h,every_empty⟩
  | some fc =>
    have hterminated := hQ id _ _ (h id fc hfc) (version_terminate fc)
    rw [show _ = _ from modify_of_lookup hfc _]
    exact ⟨h.insert hterminated,every_containerUpdate hterminated⟩

lemma every_kept : Kept (fun s => Every Q s.functionContainers) where
  hosts _ _ _ _ := rfl
  note _ _ hs := hs
  drop := by
    intro s id hs
    rcases functionContainers_removeContainerFromIndices s id with hsame | herase
    · rwa [hsame]
    · rw [herase]
      exact fun id' fc' h' => hs id' fc' (lookup_of_erase h').2
  terminate id hs := (hs.terminateContainer hQ id).1

lemma Every.updateSchedulerUpdate [HashOrder ContainerId] (h : Every Q s.functionContainers)
    (hu : Every Q u.containers) : Every Q (s.updateSchedulerUpdate u).functionContainers :=
  (every_kept hQ).updateSchedulerUpdate (fun s' p _ hs' => by
    rw [functionContainers_foldl_updateEntry]
    exact hs'.foldl_insert fun e he => hu.of_mem e (mem_of_mem_filter he)) h

lemma Every.reapContainer {r : Reaping} (id : ContainerId) (h : Keeps Q (r.scheduler,r.update)) :
    Keeps Q ((reapContainer r id).scheduler,(reapContainer r id).update) := by
  unfold ContainerScheduler.reapContainer
  cases hfc : r.scheduler.functionContainers.lookup id with
  | none => exact h
  | some fc =>
    have hterminate := h.1.terminateContainer hQ id
    have hfree := congrArg Holdings.containers (holdings_frame.freeReaped
      (r.scheduler.terminateContainer id).1 fc.executorId fc.functionContainer)
    change (freeReaped _ _ _).functionContainers = _ at hfree
    dsimp only
    split_ifs
    · exact h
    · exact h
    · exact h
    · refine ⟨?_,?_⟩
      · change Every Q (freeReaped _ _ _).functionContainers
        rw [hfree]
        exact hterminate.1
      cases hu : (r.scheduler.terminateContainer id).2 with
      | none => exact h.2
      | some u =>
        rw [hu] at hterminate
        exact h.2.union hterminate.2

lemma Every.reapIdleContainers (h : Every Q s.functionContainers) (minIdleAge now : ℕ) :
    Keeps Q (s.reapIdleContainers minIdleAge now) :=
  @Trace.invariant _ _ ContainerScheduler.reapContainer (fun r => Keeps Q (r.scheduler,r.update))
    (fun id hr => Every.reapContainer hQ id hr) ⟨{s with reapedContainers := ∅},{},[]⟩
    ⟨h,every_empty⟩ (({s with reapedContainers := ∅} : ContainerScheduler).dueIdle minIdleAge now)

lemma Every.markDeleted (fnUri : FunctionURI) {d : Deletion} (id : ContainerId)
    (h : Keeps Q (d.scheduler,d.update)) :
    Keeps Q ((markDeleted fnUri d id).scheduler,(markDeleted fnUri d id).update) := by
  unfold ContainerScheduler.markDeleted
  cases hfc : d.scheduler.functionContainers.lookup id with
  | none => exact h
  | some fc =>
    have hterminated := hQ id _ _ (h.1 id fc hfc) (version_terminate fc)
    exact ⟨h.1.insert hterminated,h.2.insert hterminated⟩

lemma Every.terminateWarm {acc : ContainerScheduler × SchedulerUpdateRequest}
    (e : ContainerId × FunctionURI × Option Instant) (h : Keeps Q acc) :
    Keeps Q (terminateWarm acc e) := by
  unfold ContainerScheduler.terminateWarm
  cases hfc : acc.1.functionContainers.lookup e.1 with
  | none => exact h
  | some fc =>
    have hterminated := hQ e.1 _ _ (h.1 e.1 fc hfc) (version_terminate fc)
    exact ⟨h.1.insert hterminated,h.2.insert hterminated⟩

section
variable [HashOrder ContainerId]
variable (h : Every Q s.functionContainers)
include h

lemma Every.deleteApplication (ns name : String) : Keeps Q (s.deleteApplication ns name) := by
  have hmark : ∀ uris : List FunctionURI,
      let d := uris.foldl markDeletedUri {scheduler := s}
      Keeps Q (d.scheduler,d.update) := by
    intro uris
    refine @Trace.invariant _ _ markDeletedUri (fun d => Keeps Q (d.scheduler,d.update)) ?_
      {scheduler := s} ⟨h,every_empty⟩ uris
    exact fun fnUri hd => @Trace.invariant _ _ (ContainerScheduler.markDeleted fnUri)
      (fun d => Keeps Q (d.scheduler,d.update)) (fun id hd => Every.markDeleted hQ fnUri id hd) _ hd _
  unfold ContainerScheduler.deleteApplication
  refine ⟨?_,(hmark _).2⟩
  have htables := (tables_removeFunctionPoolsOf _ ns name).trans (tables_foldl_dropDeleted
    ((s.containersByFunctionUri.keys.filter fun uri =>
      uri.namespace = ns && uri.application = name).foldl markDeletedUri {scheduler := s}).scheduler
    ((s.containersByFunctionUri.keys.filter fun uri =>
      uri.namespace = ns && uri.application = name).foldl markDeletedUri {scheduler := s}).removals)
  have htable := congrArg Tables.containers htables
  change ContainerScheduler.functionContainers _ = _ at htable
  rw [htable]
  exact (hmark _).1

lemma Every.deleteContainerPool (ns : String)
    (poolId : ContainerPoolId) : Keeps Q (s.deleteContainerPool ns poolId) := by
  have hwarm := @Trace.invariant _ _ ContainerScheduler.terminateWarm (Keeps Q)
    (fun e hacc => Every.terminateWarm hQ e hacc) (s,{}) ⟨h,every_empty⟩
    (s.warmRemovals (HashOrder.toList (s.warmContainersByPool.ids ⟨ns,poolId⟩)))
  unfold ContainerScheduler.deleteContainerPool
  dsimp only
  generalize (s.warmRemovals (HashOrder.toList (s.warmContainersByPool.ids ⟨ns,poolId⟩))).foldl
    ContainerScheduler.terminateWarm (s,{}) = acc at hwarm ⊢
  refine ⟨?_,hwarm.2⟩
  have huri := fun s => Trace.frame (fun s (e : ContainerId × FunctionURI × Option Instant) =>
    removeFromUri s e.2.1 e.1) functionContainers (fun _ _ => rfl) s
  have hpool := fun s => Trace.frame (fun s id => removeFromPool s (some ⟨ns,poolId⟩) id)
    functionContainers (fun _ _ => rfl) s
  have hidle := fun s => Trace.frame (fun s (e : ContainerId × FunctionURI × Option Instant) =>
    removeIdle s e.2.2 e.1) functionContainers (fun s e =>
      congrArg Holdings.containers (holdings_removeIdle s e.2.2 e.1)) s
  change Every Q (functionContainers (foldl _ _ _))
  rw [huri,hpool]
  change Every Q (functionContainers (foldl _ acc.1 _))
  rw [hidle]
  exact hwarm.1

lemma Every.updateWithIntents {p : Payload}
    (hp : p.isSchedulerUpdate=false) : Keeps Q (s.updateWithIntents p) := by
  have hpools := s.updateWithIntents_pools functionContainers (fun _ _ _ _ _ => rfl) (p := p)
  cases p with
  | invokeApplication ctx
  | upsertExecutor executor
  | createSandbox sandbox
  | deleteRequest ns application requestId
  | tombstoneContainerPool ns poolId => exact ⟨h,every_empty⟩
  | createOrUpdateApplication req =>
    refine ⟨by rwa [hpools trivial],?_⟩
    unfold ContainerScheduler.updateWithIntents
    dsimp only
    split_ifs <;> exact every_empty
  | deregisterExecutor executorId =>
    refine ⟨?_,every_empty⟩
    change Every Q (s.deregisterExecutor executorId).functionContainers
    rwa [functionContainers_deregisterExecutor]
  | createContainerPool pool
  | updateContainerPool pool => exact ⟨by rwa [hpools trivial],every_empty⟩
  | schedulerUpdate update => cases hp
  | deleteApplication ns name =>
    obtain ⟨htable,hupdate⟩ := h.deleteApplication hQ ns name
    exact ⟨htable,every_empty.union hupdate⟩
  | deleteContainerPool ns poolId =>
    obtain ⟨htable,hupdate⟩ := h.deleteContainerPool hQ ns poolId
    exact ⟨htable,every_empty.union hupdate⟩

lemma Every.claimPoolContainer (key : ContainerPoolKey) (sandboxId : SandboxId) (timeout : ℕ) :
    Every Q (s.claimPoolContainer key sandboxId timeout).1.functionContainers ∧
      ∀ id e u, (s.claimPoolContainer key sandboxId timeout).2 = some (id,e,u) → Every Q u.containers := by
  unfold ContainerScheduler.claimPoolContainer
  split
  · exact ⟨h,by rintro _ _ _ ⟨⟩⟩
  rename_i id fc hfound
  obtain ⟨id',-,hid'⟩ := exists_of_findSome?_eq_some hfound
  obtain ⟨fc',hfc,heq⟩ := Option.map_eq_some_iff.mp hid'
  cases heq
  have hclaimed : Q id {fc with functionContainer := {fc.functionContainer with
      sandboxId := some sandboxId, timeoutSecs := timeout}} :=
    hQ id _ _ (h id fc hfc) ⟨rfl,rfl,fun hp => hp⟩
  refine ⟨h.insert hclaimed,?_⟩
  rintro _ _ _ ⟨⟩
  exact every_containerUpdate hclaimed

end

variable (h : Every Q s.functionContainers)
include h

lemma Every.ingestAllocation (id : ContainerId) (allocationId : AllocationId) (now : Instant) :
    Keeps Q (s.ingestAllocation id allocationId now) := by
  unfold ContainerScheduler.ingestAllocation
  cases hfc : s.functionContainers.lookup id with
  | none => exact ⟨h,every_empty⟩
  | some fc =>
    have hreleased := hQ id fc {fc with
      allocations := fc.allocations.erase allocationId
      idleSince := if fc.allocations.erase allocationId = ∅ then some now else fc.idleSince}
      (h id fc hfc) (Version.of_container rfl rfl)
    have hupdate := every_containerUpdate hreleased
    exact ⟨Every.applyContainerUpdate (h.insert hreleased) hupdate,hupdate⟩

variable (m)

lemma Every.promoteSandboxForStartedContainer (id : ContainerId) :
    Every Q (ContainerReconciler.promoteSandboxForStartedContainer m s id).containers := by
  unfold ContainerReconciler.promoteSandboxForStartedContainer
  cases hfc : s.functionContainers.lookup id with
  | none => exact every_empty
  | some fc =>
    refine Every.union ?_ (by
      rw [containers_promoteSandboxIfContainerRunning]
      exact every_empty)
    split_ifs
    · exact every_containerUpdate (hQ id fc _ (h id fc hfc) ⟨rfl,rfl,by rintro ⟨⟩⟩)
    · exact every_empty

lemma Every.reportStarted
    (id : ContainerId) : Keeps Q (ContainerReconciler.reportStarted m s id) := by
  have hupdate := h.promoteSandboxForStartedContainer hQ m id
  unfold ContainerReconciler.reportStarted
  dsimp only
  split_ifs
  · exact ⟨h.applyContainerUpdate hupdate,hupdate⟩
  · exact ⟨h,every_empty⟩

lemma Every.terminateSandbox
    (ns sandboxId : String) : Keeps Q (SandboxProcessor.terminateSandbox m s ns sandboxId) := by
  unfold SandboxProcessor.terminateSandbox
  dsimp only
  split
  · exact ⟨h,every_empty⟩
  rename_i sandbox hsandbox
  have hof : Every Q (SandboxProcessor.terminateContainerOf s sandbox).1.functionContainers ∧
      Every Q ((SandboxProcessor.terminateContainerOf s sandbox).2.getD {}).containers := by
    unfold SandboxProcessor.terminateContainerOf
    split
    · rename_i id hid
      split_ifs
      · exact h.terminateContainer hQ id
      · exact ⟨h,every_empty⟩
    · exact ⟨h,every_empty⟩
  exact ⟨hof.1,hof.2.union every_empty⟩

variable {m}

end

section
variable [HashOrder ExecutorId] {Q : ContainerId → ContainerServerMetadata → Prop}
  {s : ContainerScheduler} {cache : FeasibilityCache} {w : Workload} {resources : FunctionResources}
  {container : Container} {containerType : ContainerType} {draw : Draw}
  {ns application version : String} {function : Function} {state : ApplicationState}

def Yields (Q : ContainerId → ContainerServerMetadata → Prop)
    (r : ContainerScheduler × FeasibilityCache ×
      Except CreateError (Option SchedulerUpdateRequest)) : Prop :=
  Every Q (applyCreated r).functionContainers ∧ ∀ u, created r = some u → Every Q u.containers

omit [HashOrder ExecutorId] in
lemma yields_of_none {r : ContainerScheduler × FeasibilityCache ×
    Except CreateError (Option SchedulerUpdateRequest)} (hr : created r = none)
    (h : Every Q r.1.functionContainers) : Yields Q r := by
  refine ⟨?_,fun u hu => ?_⟩
  · unfold applyCreated
    rwa [hr]
  · rw [hr] at hu
    cases hu

variable (hQ : Stable Q) (h : Every Q s.functionContainers)
include h

lemma yields_createContainer
    (hnew : ∀ e, Q container.id (registered e container containerType draw.now)) :
    Yields Q (s.createContainer cache w resources container containerType draw) := by
  have htable : (s.createContainer cache w resources container containerType
      draw).1.functionContainers = s.functionContainers :=
    congrArg Holdings.containers
      (holdings_frame.createContainer s cache w resources container containerType draw)
  cases hr : created (s.createContainer cache w resources container containerType draw) with
  | none => exact yields_of_none hr (by rwa [htable])
  | some u =>
    obtain ⟨executorId,he⟩ := entries_createContainer (created_eq_some_iff.mp hr)
    have hu : Every Q u.containers := by
      intro id fc hfc
      have hmem := (mem_entries_iff _ _ _).mpr hfc
      rw [he,mem_singleton] at hmem
      cases hmem
      exact hnew executorId
    refine ⟨?_,fun u' hu' => ?_⟩
    · unfold applyCreated
      rw [hr]
      exact Every.applyContainerUpdate (by rwa [htable]) hu
    rw [hr] at hu'
    cases hu'
    exact hu

lemma every_createOnDemand {sandbox : Sandbox} (uri : Option String)
    (hnew : OnNew Q (.ofSandbox sandbox.id) draw.now) :
    let r := SandboxProcessor.createOnDemand s cache sandbox uri draw
    Leaves Q r.1 r.2.2 := by
  have hcreate : Yields Q (s.createContainerForSandbox cache sandbox uri draw) :=
    yields_createContainer h fun e => hnew _ e _ rfl
  unfold SandboxProcessor.createOnDemand
  generalize s.createContainerForSandbox cache sandbox uri draw = r at hcreate
  obtain ⟨s',cache',e | _ | created⟩ := r
  · cases e with
    | constraintUnsatisfiable reason version functionName =>
      exact Keeps.leaves ⟨hcreate.1,every_empty⟩
    | executorStateNotFound id
    | resources e => exact .error hcreate.1
  · exact Keeps.leaves ⟨hcreate.1,every_empty⟩
  · refine Keeps.leaves ⟨hcreate.1,Every.union ?_ (hcreate.2 created rfl)⟩
    split <;> exact every_empty

include hQ

lemma yields_createContainerForFunction
    (hnew : ∀ e, Q draw.containerId (registered e
      (functionContainer ns application version function draw.containerId) .function draw.now)) :
    Yields Q (s.createContainerForFunction cache ns application version function state draw) := by
  cases hr : created (s.createContainerForFunction cache ns application version function state
      draw) with
  | none =>
    exact yields_of_none hr (by rwa [(creation_of_created hr).holdings.1])
  | some u =>
    obtain ⟨⟨id,fc,he,harrives,htable⟩,-⟩ := (creation_of_created hr).arrival
    have hfc : Q id fc := by
      cases harrives with
      | restored id old hpop hold => exact hQ id _ _ (h id old hold) (.of_container rfl rfl)
      | created executorId => exact hnew executorId
    refine ⟨?_,fun u' hu' => ?_⟩
    · unfold applyCreated
      rw [hr]
      rw [htable]
      exact h.insert hfc
    rw [hr] at hu'
    cases hu'
    intro id' fc' hfc'
    have hmem := (mem_entries_iff _ _ _).mpr hfc'
    rw [he,mem_singleton] at hmem
    cases hmem
    exact hfc

variable (hnew : OnNew Q draw.containerId draw.now)

include hnew in
lemma yields_createContainerForPool
    (memory : InMemoryState) (cache : FeasibilityCache) (pool : ContainerPool) :
    Yields Q (BufferReconciler.createContainerForPool memory s cache pool draw) := by
  have hnone : Yields Q (s,cache,.ok none) := yields_of_none rfl h
  unfold BufferReconciler.createContainerForPool
  split_ifs
  · split
    · exact hnone
    split
    · exact hnone
    split
    · exact hnone
    split
    · exact hnone
    · exact yields_createContainerForFunction hQ h fun e => hnew _ e _ rfl
  · exact yields_createContainer h fun e => hnew _ e _ rfl

variable [HashOrder ContainerId]

include hnew in
lemma every_chooseTarget
    (memory : InMemoryState) (cache : FeasibilityCache) (run : FunctionRun) (queueSize : ℕ) :
    let r := chooseTarget memory s cache run queueSize draw
    Leaves Q r.1 (r.2.2.map Prod.snd) := by
  have htry : Yields Q (tryCreateContainer memory s cache run draw) := by
    rcases tryCreateContainer_cases memory s cache run draw with
      hr | ⟨_,_,-,-,-,hr⟩ <;> rw [hr]
    · exact yields_of_none rfl h
    · exact yields_createContainerForFunction hQ h fun e => hnew _ e _ rfl
  unfold chooseTarget
  split
  · exact Keeps.leaves ⟨h,every_empty⟩
  generalize tryCreateContainer memory s cache run draw = r at htry
  obtain ⟨s',cache',e | _ | created⟩ := r
  · exact .error htry.1
  · exact Keeps.leaves ⟨htry.1,every_empty⟩
  · exact Keeps.leaves ⟨htry.1,every_empty.union (htry.2 created rfl)⟩

omit [HashOrder ExecutorId] [HashOrder ContainerId] in
lemma every_startRun (hkeyed : ∀ id fc, Q id fc → fc.functionContainer.id=id)
    {u : SchedulerUpdateRequest} (hu : Every Q u.containers)
    (run : FunctionRun) (ctx : RequestCtx) (target : AllocationTarget) (id : AllocationId) :
    let r := startRun s u run ctx target id
    Keeps Q (r.1,r.2.2) := by
  unfold startRun
  dsimp only
  unfold occupy occupiedUpdate
  cases hfc : s.functionContainers.lookup
      (newAllocation run ctx target id).target.containerId with
  | none => exact ⟨h,hu⟩
  | some fc =>
    have hbusy := hQ _ fc {fc with allocations := insert id fc.allocations, idleSince := none}
      (h _ fc hfc) (Version.of_container rfl rfl)
    refine ⟨h.insert hbusy,Every.insert hu ?_⟩
    rw [hkeyed _ _ (h _ fc hfc)]
    exact hbusy

lemma every_createAllocation
    (hkeyed : ∀ id fc, Q id fc → fc.functionContainer.id=id)
    (memory : InMemoryState) (cache : FeasibilityCache) (run : FunctionRun) (ctx : RequestCtx)
    (queueSize : ℕ) {d : AllocationDraw} (hnew : OnNew Q d.draw.containerId d.draw.now) :
    let r := createAllocation memory s cache run ctx queueSize d
    Leaves Q r.1 r.2.2.2 := by
  have htarget := every_chooseTarget hQ h hnew memory cache run queueSize
  unfold createAllocation
  generalize chooseTarget memory s cache run queueSize d.draw = r at htarget
  obtain ⟨s',cache',e | ⟨_ | target,u⟩⟩ := r
  · exact .error htarget.1
  · exact Keeps.leaves ⟨htarget.1,htarget.2 u rfl⟩
  · exact Keeps.leaves
      (every_startRun hQ htarget.1 hkeyed (htarget.2 u rfl) run ctx target d.allocationId)

lemma every_allocateSandbox (m : SandboxState)
    (cache : FeasibilityCache) {sandbox : Sandbox} (draw : Draw)
    (hnew : OnNew Q (.ofSandbox sandbox.id) draw.now) :
    let r := SandboxProcessor.allocateSandbox m s cache sandbox draw
    Leaves Q r.1 r.2.2 := by
  unfold SandboxProcessor.allocateSandbox
  split_ifs
  · exact Keeps.leaves ⟨h,every_empty⟩
  split
  · rename_i poolId _
    obtain ⟨htable,hupdate⟩ := h.claimPoolContainer hQ ⟨sandbox.namespace,poolId⟩ sandbox.id
      sandbox.timeoutSecs
    unfold SandboxProcessor.allocateFromPool SandboxProcessor.tryClaimFromPool
    generalize s.claimPoolContainer ⟨sandbox.namespace,poolId⟩ sandbox.id
      sandbox.timeoutSecs = r at htable hupdate
    obtain ⟨s',_ | ⟨id,e,u⟩⟩ := r
    · dsimp only
      split_ifs
      · exact Keeps.leaves ⟨htable,every_empty⟩
      · exact every_createOnDemand htable _ hnew
    · exact Keeps.leaves ⟨htable,(hupdate id e u rfl).union every_empty⟩
  · exact every_createOnDemand h _ hnew

end
end ContainerScheduler
end Indexify
