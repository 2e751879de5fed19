import Indexify.Library.Trace
import Indexify.Processor.SchedulerOps

/-! What the operations on containers and executor states leave alone: the registered
executors with their classes, the tracker of blocked work and the pools. -/
namespace Indexify.ContainerScheduler
open Trace
variable {α : Type}

/-- The view reads neither the executor states nor their index, nor the last placement. -/
def HostFree (view : ContainerScheduler → α) : Prop :=
  ∀ s states index placement, view {s with
    executorStates := states
    executorsByFreeMemory := index
    lastPlacement := placement} = view s

/-- All that a view may read that does not read executor states. -/
def core (s : ContainerScheduler) : ContainerScheduler :=
  {s with executorStates := ∅, executorsByFreeMemory := ∅, lastPlacement := none}

lemma core_hosts : HostFree core := fun _ _ _ _ => rfl

lemma containers_hosts : HostFree functionContainers := fun _ _ _ _ => rfl

namespace HostFree
variable {view : ContainerScheduler → α} (h : HostFree view) (s : ContainerScheduler)
include h
variable (id)

lemma insertResourceIndex (r : HostResources) : view (s.insertResourceIndex id r) = view s := by
  unfold ContainerScheduler.insertResourceIndex
  split_ifs
  · exact h s _ _ _
  · rfl

lemma swapState (old new : ExecutorServerMetadata) : view (s.swapState id old new) = view s := h s _ _ _

lemma setExecutorState (state : ExecutorServerMetadata) :
    view (s.setExecutorState id state) = view s := by
  refine (h (ContainerScheduler.insertResourceIndex _ id state.freeResources) _ _ _).trans ?_
  rw [h.insertResourceIndex]
  cases s.executorStates.lookup id with
  | none => rfl
  | some old => exact h s _ _ _

lemma removeExecutorState : view (s.removeExecutorState id) = view s := by
  unfold ContainerScheduler.removeExecutorState
  cases s.executorStates.lookup id with
  | none => rfl
  | some old => exact h s _ _ _

variable {id}

lemma foldl_setExecutorEntry (es : List (Sigma fun _ : ExecutorId => ExecutorServerMetadata)) :
    view (es.foldl setExecutorEntry s) = view s :=
  frame setExecutorEntry view (fun s e => h.setExecutorState s e.1 e.2) s es

lemma foldl_removeExecutorState (ids : List ExecutorId) :
    view (ids.foldl ContainerScheduler.removeExecutorState s) = view s :=
  frame ContainerScheduler.removeExecutorState view h.removeExecutorState s ids

lemma freeReaped (executorId : ExecutorId) (c : Container) :
    view (s.freeReaped executorId c) = view s := by
  unfold ContainerScheduler.freeReaped
  cases s.executorStates.lookup executorId with
  | none => rfl
  | some state => exact (h.insertResourceIndex _ executorId _).trans (h.swapState s _ _ _)

lemma registerContainer (executorId : ExecutorId) (c : Container) (containerType : ContainerType)
    (now : Instant) : view (s.registerContainer executorId c containerType now).1 = view s := by
  unfold ContainerScheduler.registerContainer
  cases s.executorStates.lookup executorId with
  | none => rfl
  | some state =>
    dsimp only
    cases (state.addContainer c).2 with
    | error e => exact h.swapState s _ _ _
    | ok _ => exact (h.insertResourceIndex _ executorId _).trans (h.swapState s _ _ _)

lemma createContainer [HashOrder ExecutorId] (cache : FeasibilityCache) (w : Workload)
    (resources : FunctionResources) (c : Container) (containerType : ContainerType) (draw : Draw) :
    view (s.createContainer cache w resources c containerType draw).1 = view s := by
  unfold ContainerScheduler.createContainer
  rcases Placement.selectExecutor s w resources cache 2 draw.random with ⟨cache',result⟩
  have hplaced : view {s with lastPlacement := some result} = view s := h s _ _ _
  dsimp only
  cases result.executorId with
  | none => exact hplaced
  | some executorId =>
    dsimp only
    split_ifs
    · have hreg := h.registerContainer {s with lastPlacement := some result} executorId c
        containerType draw.now
      rcases hr : ContainerScheduler.registerContainer {s with lastPlacement := some result}
        executorId c containerType draw.now with ⟨s',_ | _⟩ <;> rw [hr] at hreg
      · exact hreg.trans hplaced
      · exact hreg.trans hplaced
    · exact hplaced

lemma foldl_mergeExecutorState [HashOrder ContainerId] (u : SchedulerUpdateRequest)
    (es : List (Sigma fun _ : ExecutorId => ExecutorServerMetadata)) :
    view (es.foldl (mergeExecutorState u) (s,[])).1 = view s :=
  frame (mergeExecutorState u) (fun acc : ContainerScheduler × List ContainerId => view acc.1)
    (fun acc e => h.setExecutorState acc.1 e.1 _) (s,[]) es

lemma of_core {s s' : ContainerScheduler} (hs : s'.core=s.core) : view s' = view s :=
  (h s' _ _ _).symm.trans ((congrArg view hs).trans (h s _ _ _))

end HostFree

/-- The view reads nothing of the containers: neither table nor indexes, nor what is marked when
they change. -/
def ContainerFree (view : ContainerScheduler → α) : Prop :=
  ∀ s containers uris pools warm dirty blocked idle reaped, view {s with
    functionContainers := containers
    containersByFunctionUri := uris
    containersByPool := pools
    warmContainersByPool := warm
    dirtyPools := dirty
    blockedPools := blocked
    idleContainers := idle
    reapedContainers := reaped} = view s

namespace ContainerFree
variable {view : ContainerScheduler → α} (h : ContainerFree view) (s : ContainerScheduler)
include h

omit s in
lemma of_eq {s s' : ContainerScheduler} (hs : s' = {s with
    functionContainers := s'.functionContainers
    containersByFunctionUri := s'.containersByFunctionUri
    containersByPool := s'.containersByPool
    warmContainersByPool := s'.warmContainersByPool
    dirtyPools := s'.dirtyPools
    blockedPools := s'.blockedPools
    idleContainers := s'.idleContainers
    reapedContainers := s'.reapedContainers}) : view s' = view s := by
  rw [hs]
  exact h s _ _ _ _ _ _ _ _

lemma markDirty (key : Option ContainerPoolKey) : view (s.markDirty key) = view s := by
  cases key with
  | none => rfl
  | some key => exact h.of_eq rfl

lemma removeIdle (t : Option Instant) (id : ContainerId) : view (s.removeIdle t id) = view s := by
  cases t with
  | none => rfl
  | some t => exact h.of_eq rfl

variable (id)

lemma updateContainerIndices (m : ContainerServerMetadata) :
    view (s.updateContainerIndices id m) = view s := by
  have hidle : view (s.reindexIdle id m) = view s := by
    unfold reindexIdle
    cases m.idleSince with
    | none => exact h.removeIdle s _ id
    | some t =>
      split_ifs
      · exact (h.of_eq rfl).trans (h.removeIdle s _ id)
      · exact h.removeIdle s _ id
  unfold ContainerScheduler.updateContainerIndices fileContainer
  rw [h.markDirty]
  split_ifs <;> exact (h.of_eq rfl).trans hidle

lemma foldl_updateEntry (es : List (Sigma fun _ : ContainerId => ContainerServerMetadata)) :
    view (es.foldl updateEntry s) = view s :=
  frame updateEntry view (fun s e => h.updateContainerIndices s e.1 e.2) s es

lemma removeContainerFromIndices : view (s.removeContainerFromIndices id) = view s := by
  unfold ContainerScheduler.removeContainerFromIndices
  cases s.functionContainers.lookup id with
  | none => rfl
  | some fc =>
    rw [h.markDirty]
    have hidle := h.removeIdle {s with functionContainers := s.functionContainers.erase id}
      fc.idleSince id
    exact (h.of_eq rfl).trans (hidle.trans (h.of_eq rfl))

lemma terminateContainer : view (s.terminateContainer id).1 = view s := by
  unfold ContainerScheduler.terminateContainer
  cases s.functionContainers.lookup id with
  | none => rfl
  | some fc =>
    refine (h.of_eq rfl).trans ((h.removeIdle _ fc.idleSince id).trans ?_)
    exact h.of_eq rfl

variable {id}

lemma popReaped (fnUri : FunctionURI) : view (s.popReaped fnUri).1 = view s := by
  unfold ContainerScheduler.popReaped
  cases (s.reapedContainers.lookup fnUri).bind List.getLast? with
  | none => rfl
  | some id => exact h.of_eq rfl

variable [HashOrder ContainerId]

lemma claimPoolContainer (key : ContainerPoolKey) (sandboxId : SandboxId) (timeout : ℕ) :
    view (s.claimPoolContainer key sandboxId timeout).1 = view s := by
  unfold ContainerScheduler.claimPoolContainer
  split
  · rfl
  · exact h.of_eq rfl

lemma deleteContainerPool (ns : String) (poolId : ContainerPoolId) :
    view (s.deleteContainerPool ns poolId).1 = view s := by
  have hterminate : ∀ (acc : ContainerScheduler × SchedulerUpdateRequest)
      (e : ContainerId × FunctionURI × Option Instant), view (terminateWarm acc e).1 = view acc.1 := by
    intro acc e
    unfold terminateWarm
    cases acc.1.functionContainers.lookup e.1 with
    | none => rfl
    | some fc => exact h.of_eq rfl
  -- the warm containers leave three indexes after they were marked
  refine (h.of_eq rfl).trans ?_
  refine (frame (fun s (e : ContainerId × FunctionURI × Option Instant) =>
    removeFromUri s e.2.1 e.1) view (fun _ _ => h.of_eq rfl) _ _).trans ?_
  refine (frame (removeFromPool · _) view (fun _ _ => h.of_eq rfl) _ _).trans ?_
  refine (h.of_eq rfl).trans ?_
  refine (frame (fun s (e : ContainerId × FunctionURI × Option Instant) =>
    ContainerScheduler.removeIdle s e.2.2 e.1) view (fun s e => h.removeIdle s e.2.2 e.1) _ _).trans ?_
  exact frame terminateWarm (fun acc => view acc.1) hterminate _ _

lemma foldl_dropDeleted (uris : List FunctionURI) :
    let d := uris.foldl markDeletedUri {scheduler := s}
    view (d.removals.foldl dropDeleted d.scheduler) = view s := by
  have hmark : ∀ (d : Deletion) (uri : FunctionURI),
      view (markDeletedUri d uri).scheduler = view d.scheduler := by
    intro d uri
    refine frame (markDeleted uri) (fun d => view d.scheduler) ?_ d _
    intro d id
    unfold markDeleted
    cases d.scheduler.functionContainers.lookup id with
    | none => rfl
    | some fc => exact h.of_eq rfl
  have hdrop : ∀ (s : ContainerScheduler) (r : Removal), view (s.dropDeleted r) = view s := by
    intro s r
    unfold dropDeleted
    rw [h.markDirty]
    refine Eq.trans ?_ (h.removeIdle s r.idleSince r.containerId)
    cases r.wasWarm <;> exact h.of_eq rfl
  refine (frame dropDeleted view hdrop _ _).trans ?_
  exact frame markDeletedUri (fun d => view d.scheduler) hmark ⟨s,{},[]⟩ _

end ContainerFree

section
variable (s : ContainerScheduler)

lemma popReaped_eq (s : ContainerScheduler) (fnUri : FunctionURI) :
    s.popReaped fnUri = (s,none) ∨ ∃ ids id, s.reapedContainers.lookup fnUri = some ids ∧
      ids.getLast? = some id ∧ s.popReaped fnUri =
        ({s with reapedContainers :=
          if ids.dropLast.isEmpty then s.reapedContainers.erase fnUri
          else s.reapedContainers.insert fnUri ids.dropLast},some id) := by
  unfold popReaped
  cases hids : s.reapedContainers.lookup fnUri with
  | none => exact .inl rfl
  | some ids =>
    dsimp only [Option.bind_some]
    cases hlast : ids.getLast? with
    | none => exact .inl rfl
    | some id => exact .inr ⟨ids,id,rfl,hlast,rfl⟩

/-- A container that is alive again is stored and filed, and handed on. -/
def revived (s : ContainerScheduler) (id : ContainerId) (fc : ContainerServerMetadata) :
    ContainerScheduler × Option SchedulerUpdateRequest :=
  let s := (s.setContainer id fc).updateContainerIndices id fc
  (s,some (s.restoreUpdate id fc.executorId))

lemma reinstate_cases (id : ContainerId) (fc : ContainerServerMetadata)
    (state : ExecutorServerMetadata) (now : Instant) :
    (∃ s', s.reinstate id fc state now = (s',none) ∧ core s' = core s) ∨
      ∃ s', s.reinstate id fc state now = revived s' id (fc.revive now) ∧ core s' = core s := by
  unfold reinstate
  dsimp only
  cases (state.addContainer fc.functionContainer).2 with
  | error e => exact .inl ⟨_,rfl,rfl⟩
  | ok _ => exact .inr ⟨_,rfl,core_hosts.insertResourceIndex _ fc.executorId _⟩

lemma restoreReapedContainer_cases (fnUri : FunctionURI) (now : Instant) :
    (∃ s', s.restoreReapedContainer fnUri now = (s',none) ∧ core s' = core (s.popReaped fnUri).1) ∨
      ∃ id fc s', s.restoreReapedContainer fnUri now = revived s' id (fc.revive now) ∧
        core s' = core (s.popReaped fnUri).1 ∧ (s.popReaped fnUri).2 = some id ∧
        s.functionContainers.lookup id = some fc := by
  unfold restoreReapedContainer
  rcases popReaped_eq s fnUri with hpop | ⟨ids,id,-,-,hpop⟩ <;> rw [hpop]
  · exact .inl ⟨s,rfl,rfl⟩
  dsimp only
  cases hfc : s.functionContainers.lookup id with
  | none => exact .inl ⟨_,rfl,rfl⟩
  | some fc =>
    dsimp only
    cases s.executorStates.lookup fc.executorId with
    | none => exact .inl ⟨_,rfl,rfl⟩
    | some state =>
      rcases reinstate_cases _ id fc state now with ⟨s',hr,hs'⟩ | ⟨s',hr,hs'⟩
      · exact .inl ⟨s',hr,hs'⟩
      · exact .inr ⟨id,fc,s',hr,hs',rfl,hfc⟩

variable [HashOrder ExecutorId] (cache : FeasibilityCache)

lemma created_createContainer (w : Workload) (resources : FunctionResources) (c : Container)
    (containerType : ContainerType) (draw : Draw) :
    created (s.createContainer cache w resources c containerType draw) = none ∨
      ∃ executorId state, created (s.createContainer cache w resources c containerType draw) =
        some (registration c (registered executorId c containerType draw.now) state) := by
  have hout := createContainer_outcome s cache w resources c containerType draw
  generalize s.createContainer cache w resources c containerType draw = r at hout
  cases hout with
  | unplaced cache' result => exact .inl rfl
  | placed cache' result executorId r hcandidate hregisters =>
    cases hregisters with
    | unknown hstate
    | refused state e hstate hadd => exact .inl rfl
    | added state hstate hadd => exact .inr ⟨executorId,_,rfl⟩

/-- What a creation for a function leaves and hands on: nothing, the last reaped container of the
function, alive again, or a new one. -/
inductive Creation (s : ContainerScheduler) (fnUri : FunctionURI) (c : Container) (now : Instant) :
    ContainerScheduler → Option SchedulerUpdateRequest → Prop
  | unchanged : Creation s fnUri c now s none
  | refused {s' : ContainerScheduler} (hs' : core s' = core (s.popReaped fnUri).1) :
      Creation s fnUri c now s' none
  | restored {s' : ContainerScheduler} {id : ContainerId} {fc : ContainerServerMetadata}
      (hs' : core s' = core (s.popReaped fnUri).1) (hpop : (s.popReaped fnUri).2 = some id)
      (hfc : s.functionContainers.lookup id = some fc) :
      Creation s fnUri c now (s'.revived id (fc.revive now)).1
        (some ((s'.revived id (fc.revive now)).1.restoreUpdate id fc.executorId))
  | added {s' : ContainerScheduler} (executorId : ExecutorId) (state : ExecutorServerMetadata)
      (hs' : core s' = core (s.popReaped fnUri).1) :
      Creation s fnUri c now s' (some (registration c (registered executorId c .function now) state))

variable {s cache} {ns application version : String} {function : Function} {state : ApplicationState}
  {draw : Draw} {created' : Option SchedulerUpdateRequest}

lemma creation_of_created
    (h : created (s.createContainerForFunction cache ns application version function state draw) =
      created') :
    Creation s ⟨ns,application,function.name,version⟩
      (functionContainer ns application version function draw.containerId) draw.now
      (s.createContainerForFunction cache ns application version function state draw).1 created' := by
  subst h
  cases state with
  | disabled reason => exact .unchanged
  | active =>
    unfold createContainerForFunction
    dsimp only
    rcases restoreReapedContainer_cases s ⟨ns,application,function.name,version⟩ draw.now with
      ⟨s',hr,hs'⟩ | ⟨id,fc,s',hr,hs',hpop,hfc⟩ <;> rw [hr]
    · generalize functionContainer ns application version function draw.containerId = c
      have hcore := (core_hosts.createContainer s' cache (.ofFunction ns application function)
        function.resources c .function draw).trans hs'
      rcases created_createContainer s' cache (.ofFunction ns application function)
        function.resources c .function draw with hnone | ⟨executorId,state,hsome⟩
      · rw [hnone]
        exact .refused hcore
      · rw [hsome]
        exact .added executorId state hcore
    · exact .restored hs' hpop hfc

end

/-- A property that neither executor states nor notes about reaped and blocked work bear on, and
that a container that is dropped or terminated leaves in place. -/
structure Kept (P : ContainerScheduler → Prop) : Prop where
  hosts : HostFree P
  note : ∀ {s : ContainerScheduler} blocked reaped, P s →
    P {s with blockedPools := blocked, reapedContainers := reaped}
  drop : ∀ {s : ContainerScheduler} id, P s → P (s.removeContainerFromIndices id)
  terminate : ∀ {s : ContainerScheduler} id, P s → P (s.terminateContainer id).1

namespace Kept
variable {P : ContainerScheduler → Prop} (h : Kept P) {s : ContainerScheduler}
include h

lemma applyContainerUpdate {u : SchedulerUpdateRequest}
    (hs : P (u.containers.entries.foldl updateEntry s)) : P (s.applyContainerUpdate u) := by
  unfold ContainerScheduler.applyContainerUpdate
  rwa [h.hosts.foldl_removeExecutorState,h.hosts.foldl_setExecutorEntry]

lemma reapContainer {r : Reaping} (id : ContainerId) (hr : P r.scheduler) :
    P (reapContainer r id).scheduler := by
  unfold ContainerScheduler.reapContainer
  cases r.scheduler.functionContainers.lookup id with
  | none => exact hr
  | some fc =>
    dsimp only
    split_ifs
    · exact hr
    · exact hr
    · exact hr
    · refine h.note _ _ ?_
      rw [h.hosts.freeReaped]
      exact h.terminate id hr

lemma reapIdleContainers (hs : P s) (minIdleAge now : ℕ) : P (s.reapIdleContainers minIdleAge now).1 :=
  @invariant _ _ ContainerScheduler.reapContainer (fun r => P r.scheduler) h.reapContainer
    ⟨{s with reapedContainers := ∅},{},[]⟩ (h.note _ _ hs) _

variable [HashOrder ContainerId]

lemma removeExecutor (id : ExecutorId) (hs : P s) : P (s.removeExecutor id) := by
  unfold ContainerScheduler.removeExecutor
  rw [h.hosts.removeExecutorState]
  cases s.executorStates.lookup id with
  | none => exact hs
  | some old => exact invariant h.drop hs _

lemma updateSchedulerUpdate {u : SchedulerUpdateRequest}
    (hfile : ∀ (s' : ContainerScheduler) p, s'.functionContainers=s.functionContainers → P s' →
      P ((u.containers.entries.filter p).foldl updateEntry s')) (hs : P s) :
    P (s.updateSchedulerUpdate u) := by
  have hmerge := h.hosts.foldl_mergeExecutorState s u u.updatedExecutorStates.entries
  have hcontainers := containers_hosts.foldl_mergeExecutorState s u u.updatedExecutorStates.entries
  unfold ContainerScheduler.updateSchedulerUpdate
  rcases hacc : u.updatedExecutorStates.entries.foldl (mergeExecutorState u) (s,[]) with ⟨s',dropped⟩
  rw [hacc] at hmerge hcontainers
  refine h.note _ _ (invariant h.removeExecutor (invariant h.drop ?_ _) _)
  exact hfile s' _ hcontainers (hmerge.mpr hs)

end Kept

structure Background where
  executors : Dict ExecutorId ExecutorMetadata
  executorClasses : Dict ExecutorId ExecutorClass
  executorsByClass : Index ExecutorClass ExecutorId
  blockedWork : BlockedWorkTracker
  functionPools : Dict ContainerPoolKey ContainerPool
  sandboxPools : Dict ContainerPoolKey ContainerPool

def background (s : ContainerScheduler) : Background :=
  ⟨s.executors,s.executorClasses,s.executorsByClass,s.blockedWork,s.functionPools,s.sandboxPools⟩

lemma background_hosts : HostFree background := fun _ _ _ _ => rfl

lemma background_containers : ContainerFree background := fun _ _ _ _ _ _ _ _ _ => rfl

lemma background_kept (b : Background) : Kept (fun s => s.background=b) where
  hosts _ _ _ _ := rfl
  note _ _ hs := hs
  drop id hs := (background_containers.removeContainerFromIndices _ id).trans hs
  terminate id hs := (background_containers.terminateContainer _ id).trans hs

section
variable (s : ContainerScheduler)

lemma background_applyContainerUpdate (u : SchedulerUpdateRequest) :
    (s.applyContainerUpdate u).background = s.background :=
  (background_kept _).applyContainerUpdate (background_containers.foldl_updateEntry s _)

lemma background_reapIdleContainers (minIdleAge now : ℕ) :
    (s.reapIdleContainers minIdleAge now).1.background = s.background :=
  (background_kept _).reapIdleContainers rfl minIdleAge now

lemma background_revived (id : ContainerId) (fc : ContainerServerMetadata) :
    (s.revived id fc).1.background = s.background :=
  background_containers.updateContainerIndices (s.setContainer id fc) id fc

lemma background_restoreReapedContainer (fnUri : FunctionURI) (now : Instant) :
    (s.restoreReapedContainer fnUri now).1.background = s.background := by
  have hpop := background_containers.popReaped s fnUri
  rcases restoreReapedContainer_cases s fnUri now with ⟨s',hr,hs'⟩ | ⟨id,fc,s',hr,hs',-⟩ <;> rw [hr]
  · exact (background_hosts.of_core hs').trans hpop
  · exact (background_revived s' id _).trans ((background_hosts.of_core hs').trans hpop)

omit s in
lemma Creation.background {s s' : ContainerScheduler} {fnUri : FunctionURI} {c : Container}
    {now : Instant} {created' : Option SchedulerUpdateRequest}
    (h : Creation s fnUri c now s' created') : s'.background=s.background := by
  have hpop := background_containers.popReaped s fnUri
  cases h with
  | unchanged => rfl
  | refused hs
  | added executorId state hs => exact (background_hosts.of_core hs).trans hpop
  | @restored s' id fc hs =>
    exact (background_revived s' id _).trans ((background_hosts.of_core hs).trans hpop)

lemma background_applyCreated (r : ContainerScheduler × FeasibilityCache ×
    Except CreateError (Option SchedulerUpdateRequest)) :
    (applyCreated r).background = r.1.background := by
  unfold applyCreated
  cases created r with
  | none => rfl
  | some u => exact background_applyContainerUpdate r.1 u

end

section
variable (s : ContainerScheduler)

lemma background_foldl_removeFunctionPool (keys : List ContainerPoolKey) :
    (keys.foldl removeFunctionPool s).background = {s.background with
      functionPools := keys.foldl (fun m k => m.erase k) s.functionPools} := by
  induction keys generalizing s with
  | nil => rfl
  | cons key keys ih => exact ih (s.removeFunctionPool key)

lemma background_removeFunctionPoolsOf (ns name : String) :
    (s.removeFunctionPoolsOf ns name).background = {s.background with
      functionPools := (s.functionPools.keys.filter (isPoolOf ns name)).foldl
        (fun m k => m.erase k) s.functionPools} :=
  background_foldl_removeFunctionPool s _

lemma background_foldl_insertFunctionPool (pools : List ContainerPool) :
    (pools.foldl insertFunctionPool s).background = {s.background with
      functionPools := pools.foldl (fun m p => m.insert p.key p) s.functionPools} := by
  induction pools generalizing s with
  | nil => rfl
  | cons pool pools ih => exact ih (s.insertFunctionPool pool)

lemma background_setPool (pool : ContainerPool) : (s.setPool pool).background =
    if pool.isFunctionPool then
      {s.background with functionPools := s.functionPools.insert pool.key pool}
    else {s.background with sandboxPools := s.sandboxPools.insert pool.key pool} := by
  unfold setPool
  split_ifs <;> rfl

variable [HashOrder ContainerId]

def WritesPools : Payload → Prop
  | .createOrUpdateApplication _ | .createContainerPool _ | .updateContainerPool _
  | .tombstoneContainerPool _ _ => True
  | _ => False

lemma updateWithIntents_pools (view : ContainerScheduler → α) (hview : ∀ s functionPools sandboxPools
    blocked dirty, view {s with
      functionPools := functionPools, sandboxPools := sandboxPools
      blockedPools := blocked, dirtyPools := dirty} = view s)
    {p : Payload} (hp : WritesPools p) : view (s.updateWithIntents p).1 = view s := by
  cases p with
  | createOrUpdateApplication req =>
    unfold updateWithIntents removeFunctionPoolsOf
    dsimp only
    split_ifs
    · rfl
    · exact (frame insertFunctionPool view (fun s _ => hview s _ _ _ _) _ _).trans
        (frame removeFunctionPool view (fun s _ => hview s _ _ _ _) _ _)
  | createContainerPool pool
  | updateContainerPool pool =>
    change view (s.setPool pool) = view s
    unfold setPool
    split_ifs <;> exact hview s _ _ _ _
  | tombstoneContainerPool ns poolId => exact hview s _ _ _ _
  | _ => cases hp

lemma background_updateSchedulerUpdate (u : SchedulerUpdateRequest) :
    (s.updateSchedulerUpdate u).background = s.background :=
  (background_kept _).updateSchedulerUpdate
    (fun s' _ _ hs' => (background_containers.foldl_updateEntry s' _).trans hs') rfl

lemma background_deleteApplication (ns name : String) :
    (s.deleteApplication ns name).1.background = (s.removeFunctionPoolsOf ns name).background := by
  have hpools : ∀ {s s' : ContainerScheduler}, s'.background=s.background →
      (s'.removeFunctionPoolsOf ns name).background = (s.removeFunctionPoolsOf ns name).background := by
    intro s s' hs
    have hp : s'.functionPools=s.functionPools := congrArg Background.functionPools hs
    rw [background_removeFunctionPoolsOf,background_removeFunctionPoolsOf,hs,hp]
  exact hpools (background_containers.foldl_dropDeleted s _)

end
end Indexify.ContainerScheduler
