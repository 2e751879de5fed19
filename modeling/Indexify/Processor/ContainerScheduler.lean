import Indexify.Scheduler.Placement
import Indexify.StateStore.Payloads

/-! The operations of the container scheduler. Operations that can fail return the state after
the call together with the result. New container ids, the clock and the random start of a
placement are parameters. -/
namespace Indexify

inductive CreateError
  | constraintUnsatisfiable (reason version functionName : String)
  | executorStateNotFound (executorId : ExecutorId)
  | resources (error : ResourceError)
  deriving DecidableEq

namespace ContainerServerMetadata

def terminate (fc : ContainerServerMetadata) : ContainerServerMetadata :=
  {fc with desiredState := .terminated .desiredStateRemoved}

def revive (fc : ContainerServerMetadata) (now : Instant) : ContainerServerMetadata :=
  {fc with desiredState := .running, idleSince := some now}

end ContainerServerMetadata

namespace ContainerScheduler
variable (s : ContainerScheduler)

def upsertExecutor (executor : ExecutorMetadata) : ContainerScheduler :=
  let newClass := ExecutorClass.fromExecutor executor
  let byClass := match s.executorClasses.lookup executor.id with
    | some oldClass =>
      if oldClass≠newClass then s.executorsByClass.remove oldClass executor.id
      else s.executorsByClass
    | none => s.executorsByClass
  {s with
      executors := s.executors.insert executor.id executor
      executorClasses := s.executorClasses.insert executor.id newClass
      executorsByClass := byClass.add newClass executor.id}

def deregisterExecutor (id : ExecutorId) : ContainerScheduler :=
  let s := {s with executors := s.executors.modify id fun e => {e with tombstoned := true}}
  let s := match s.executorStates.lookup id with
    | some state => s.removeResourceIndex id state.freeResources
    | none => s
  match s.executorClasses.lookup id with
  | some oldClass =>
    {s with
        executorClasses := s.executorClasses.erase id
        executorsByClass := s.executorsByClass.remove oldClass id}
  | none => s

def containerUpdate (id : ContainerId) (fc : ContainerServerMetadata) : SchedulerUpdateRequest :=
  {containers := (∅ : Dict ContainerId ContainerServerMetadata).insert id fc}

/-- What `delete_application` remembers of a container it terminates. -/
structure Removal where
  poolKey : Option ContainerPoolKey
  fnUri : FunctionURI
  containerId : ContainerId
  wasWarm : Bool
  idleSince : Option Instant

/-- The scheduler with the update and the removals collected so far. -/
structure Deletion where
  scheduler : ContainerScheduler
  update : SchedulerUpdateRequest := {}
  removals : List Removal := []

def markDeleted (fnUri : FunctionURI) (d : Deletion) (id : ContainerId) : Deletion :=
  match d.scheduler.functionContainers.lookup id with
  | none => d
  | some fc =>
    {scheduler := d.scheduler.setContainer id fc.terminate
     update := {d.update with containers := d.update.containers.insert id fc.terminate}
     removals := if fc.isTerminated then d.removals
       else d.removals++[⟨fc.functionContainer.poolKey,fnUri,id,
         fc.functionContainer.sandboxId.isNone,fc.idleSince⟩]}

def dropDeleted (r : Removal) : ContainerScheduler :=
  let s := (s.removeIdle r.idleSince r.containerId).removeFromPool r.poolKey r.containerId
  let s := if r.wasWarm then s.removeFromWarm r.poolKey r.containerId else s
  (s.removeFromUri r.fnUri r.containerId).markDirty r.poolKey

/-- Function pools of an application are found by the start of their id. -/
def isPoolOf («namespace» name : String) (key : ContainerPoolKey) : Bool :=
  key.namespace = «namespace» && (name++"|").toList.isPrefixOf key.poolId.get.toList

def removeFunctionPool (key : ContainerPoolKey) : ContainerScheduler :=
  ({s with functionPools := s.functionPools.erase key}).markPoolDirty key

def removeFunctionPoolsOf («namespace» name : String) : ContainerScheduler :=
  (s.functionPools.keys.filter (isPoolOf «namespace» name)).foldl removeFunctionPool s

def insertFunctionPool (pool : ContainerPool) : ContainerScheduler :=
  ({s with functionPools := s.functionPools.insert pool.key pool}).markPoolDirty pool.key

section
variable [HashOrder ContainerId]

def markDeletedUri (d : Deletion) (fnUri : FunctionURI) : Deletion :=
  (HashOrder.toList (d.scheduler.containersByFunctionUri.ids fnUri)).foldl (markDeleted fnUri) d

def deleteApplication (s : ContainerScheduler) («namespace» name : String) :
    ContainerScheduler × SchedulerUpdateRequest :=
  let matchingUris := s.containersByFunctionUri.keys.filter fun uri =>
    uri.namespace = «namespace» && uri.application = name
  let d := matchingUris.foldl markDeletedUri {scheduler := s}
  let s := d.removals.foldl dropDeleted d.scheduler
  (s.removeFunctionPoolsOf «namespace» name,d.update)

def warmRemovals (s : ContainerScheduler) (warmIds : List ContainerId) :
    List (ContainerId × FunctionURI × Option Instant) :=
  warmIds.filterMap fun id => (s.functionContainers.lookup id).bind fun fc =>
    if fc.isTerminated then none else some (id,fc.functionContainer.functionUri,fc.idleSince)

def terminateWarm (acc : ContainerScheduler × SchedulerUpdateRequest)
    (e : ContainerId × FunctionURI × Option Instant) : ContainerScheduler × SchedulerUpdateRequest :=
  match acc.1.functionContainers.lookup e.1 with
  | none => acc
  | some fc =>
    (acc.1.setContainer e.1 fc.terminate,
      {acc.2 with containers := acc.2.containers.insert e.1 fc.terminate})

/-- Only warm containers go with their pool, claimed ones with their sandbox. -/
def deleteContainerPool (s : ContainerScheduler) («namespace» : String)
    (poolId : ContainerPoolId) : ContainerScheduler × SchedulerUpdateRequest :=
  let poolKey : ContainerPoolKey := ⟨«namespace»,poolId⟩
  let warmIds := HashOrder.toList (s.warmContainersByPool.ids poolKey)
  let fnUris := s.warmRemovals warmIds
  let (s,update) := fnUris.foldl terminateWarm (s,{})
  let s := fnUris.foldl (fun s e => s.removeIdle e.2.2 e.1) s
  let s := s.dropWarm poolKey
  let s := warmIds.foldl (fun s id => s.removeFromPool (some poolKey) id) s
  let s := fnUris.foldl (fun s e => s.removeFromUri e.2.1 e.1) s
  (s.markPoolDirty poolKey,update)

/-- A container the update no longer lists stays with its claim, unless the update terminates
it. -/
def mergeContainer (u : SchedulerUpdateRequest) (old : ExecutorServerMetadata)
    (acc : ExecutorServerMetadata × List ContainerId) (id : ContainerId) :
    ExecutorServerMetadata × List ContainerId :=
  let (merged,dropped) := acc
  if id∈merged.functionContainerIds then acc
  else if ((u.containers.lookup id).map ContainerServerMetadata.isTerminated).getD false then
    (merged,dropped++[id])
  else
    let merged := {merged with functionContainerIds := insert id merged.functionContainerIds}
    match old.resourceClaims.lookup id,merged.resourceClaims.lookup id with
    | some claim,none =>
      ({merged with
          resourceClaims := merged.resourceClaims.insert id claim
          freeResources := merged.freeResources.forceConsumeFeResources claim},dropped)
    | _,_ => (merged,dropped)

def mergeExecutorState (u : SchedulerUpdateRequest) (acc : ContainerScheduler × List ContainerId)
    (e : Sigma fun _ : ExecutorId => ExecutorServerMetadata) : ContainerScheduler × List ContainerId :=
  let (s,dropped) := acc
  let r := match s.executorStates.lookup e.1 with
    | some old =>
      (HashOrder.toList old.functionContainerIds).foldl (mergeContainer u old) (e.2,dropped)
    | none => (e.2,dropped)
  (s.setExecutorState e.1 r.1,r.2)

variable (s : ContainerScheduler)

def removeExecutor (id : ExecutorId) : ContainerScheduler :=
  let s := match s.executorStates.lookup id with
    | some old => (HashOrder.toList old.functionContainerIds).foldl removeContainerFromIndices s
    | none => s
  s.removeExecutorState id

def updateSchedulerUpdate (u : SchedulerUpdateRequest) : ContainerScheduler :=
  let (s,dropped) := u.updatedExecutorStates.entries.foldl (mergeExecutorState u) (s,[])
  let s := (u.containers.entries.filter fun e => e.1∉dropped).foldl updateEntry s
  let s := dropped.foldl removeContainerFromIndices s
  let s := u.removeExecutors.foldl removeExecutor s
  {s with blockedPools := s.blockedPools ∪ u.newlyBlockedPools}

def setPool (pool : ContainerPool) : ContainerScheduler :=
  let s := if pool.isFunctionPool then
      {s with functionPools := s.functionPools.insert pool.key pool}
    else {s with sandboxPools := s.sandboxPools.insert pool.key pool}
  s.markPoolDirty pool.key

def updateWithIntents (payload : Payload) : ContainerScheduler × SchedulerUpdateRequest :=
  match payload with
  | .upsertExecutor executor => (s.upsertExecutor executor,{})
  | .deleteApplication ns name =>
    let (s,update) := s.deleteApplication ns name
    (s,({} : SchedulerUpdateRequest).extend update)
  | .schedulerUpdate update => (s.updateSchedulerUpdate update,{})
  | .deregisterExecutor id => (s.deregisterExecutor id,{})
  | .createContainerPool pool => (s.setPool pool,{})
  | .updateContainerPool pool => (s.setPool pool,{})
  | .tombstoneContainerPool ns poolId =>
    let key : ContainerPoolKey := ⟨ns,poolId⟩
    (({s with functionPools := s.functionPools.erase key
              sandboxPools := s.sandboxPools.erase key}).markPoolDirty key,{})
  | .deleteContainerPool ns poolId =>
    let (s,update) := s.deleteContainerPool ns poolId
    (s,({} : SchedulerUpdateRequest).extend update)
  | .createOrUpdateApplication req =>
    -- an empty list means no change to the pools
    if req.containerPools.isEmpty then (s,{})
    else
      (req.containerPools.foldl insertFunctionPool
        (s.removeFunctionPoolsOf req.namespace req.application.name),{})
  | _ => (s,{})

/-- The first warm container the table knows is claimed in place. -/
def claimPoolContainer (poolKey : ContainerPoolKey) (sandboxId : SandboxId) (sandboxTimeoutSecs : ℕ) :
    ContainerScheduler × Option (ContainerId × ExecutorId × SchedulerUpdateRequest) :=
  match (HashOrder.toList (s.warmContainersByPool.ids poolKey)).findSome? fun id =>
      (s.functionContainers.lookup id).map fun fc => (id,fc) with
  | none => (s,none)
  | some (id,fc) =>
    let fc := {fc with functionContainer :=
      {fc.functionContainer with sandboxId := some sandboxId, timeoutSecs := sandboxTimeoutSecs}}
    let s := (s.setContainer id fc).removeFromWarm (some poolKey) id
    (s.markPoolDirty poolKey,some (id,fc.executorId,containerUpdate id fc))

end

variable (s : ContainerScheduler)

/-- The executor gives up its index entry before the container is added and gets a new one
only when that succeeds. -/
def registerContainer (executorId : ExecutorId) (container : Container) (containerType : ContainerType)
    (now : Instant) : ContainerScheduler × Except CreateError SchedulerUpdateRequest :=
  match s.executorStates.lookup executorId with
  | none => (s,.error (.executorStateNotFound executorId))
  | some state =>
    let r := state.addContainer container
    let s := s.swapState executorId state r.1
    match r.2 with
    | .error e => (s,.error (.resources e))
    | .ok () =>
      let s := s.insertResourceIndex executorId r.1.freeResources
      let fc : ContainerServerMetadata :=
        {executorId := executorId
         functionContainer := container
         desiredState := .running
         containerType := containerType
         allocations := ∅
         idleSince := some now}
      (s,.ok
        {updatedExecutorStates :=
            (∅ : Dict ExecutorId ExecutorServerMetadata).insert executorId r.1
         containers := (∅ : Dict ContainerId ContainerServerMetadata).insert container.id fc})

def terminateContainer (id : ContainerId) : ContainerScheduler × Option SchedulerUpdateRequest :=
  match s.functionContainers.lookup id with
  | none => (s,none)
  | some fc =>
    let s := s.removeFromWarm fc.functionContainer.poolKey id
    let s := s.removeFromPool fc.functionContainer.poolKey id
    let s := s.removeFromUri fc.functionContainer.functionUri id
    let s := s.removeIdle fc.idleSince id
    (s.setContainer id fc.terminate,some (containerUpdate id fc.terminate))

/-- A pool keeps its minimum and its buffer. -/
def poolFloor (poolKey : ContainerPoolKey) : ℕ :=
  ((s.getPool poolKey).map fun p =>
    max (p.minContainers.getD 0) (p.bufferContainers.getD 0)).getD 0

def aboveFloor (poolKey : Option ContainerPoolKey) : Bool :=
  match poolKey with
  | some key => s.poolFloor key<s.poolContainerCount key
  | none => true

/-- Resources of a reaped container are given back before the executor confirms. -/
def freeReaped (executorId : ExecutorId) (container : Container) : ContainerScheduler :=
  match s.executorStates.lookup executorId with
  | none => s
  | some state =>
    let freed := (state.removeContainer container).1
    (s.swapState executorId state freed).insertResourceIndex executorId freed.freeResources

/-- Remembered for a restore by the next creation for the function. -/
def trackReaped (fnUri : FunctionURI) (id : ContainerId) : ContainerScheduler :=
  let reaped := (s.reapedContainers.lookup fnUri).getD []
  {s with reapedContainers := s.reapedContainers.insert fnUri (reaped++[id])}

structure Reaping where
  scheduler : ContainerScheduler
  update : SchedulerUpdateRequest := {}
  affectedExecutors : List ExecutorId := []

def reapContainer (r : Reaping) (id : ContainerId) : Reaping :=
  match r.scheduler.functionContainers.lookup id with
  | none => r
  | some fc =>
    if fc.isTerminated then r
    else if !fc.canBeRemoved then r
    else if !r.scheduler.aboveFloor fc.functionContainer.poolKey then r
    else
      let fnUri := fc.functionContainer.functionUri
      let (s,terminated) := r.scheduler.terminateContainer id
      let update := match terminated with
        | some u => r.update.extend u
        | none => r.update
      let s := s.freeReaped fc.executorId fc.functionContainer
      {scheduler := s.trackReaped fnUri id
       update := update
       affectedExecutors := r.affectedExecutors.insert fc.executorId}

variable (s : ContainerScheduler)

/-- The idle entries old enough at a time, oldest first. -/
def dueIdle (minIdleAge now : ℕ) : List ContainerId :=
  ((Enumeration.ascending s.idleContainers).takeWhile fun e =>
    ¬now-(ofLex e).1 < minIdleAge).map fun e => (ofLex e).2

def reapIdleContainers (minIdleAge now : ℕ) : ContainerScheduler × SchedulerUpdateRequest :=
  let s := {s with reapedContainers := ∅}
  let r := (s.dueIdle minIdleAge now).foldl reapContainer {scheduler := s}
  let states := r.affectedExecutors.foldl (fun m id =>
    match r.scheduler.executorStates.lookup id with
    | some state => m.insert id state
    | none => m) r.update.updatedExecutorStates
  (r.scheduler,{r.update with updatedExecutorStates := states})

def popReaped (fnUri : FunctionURI) : ContainerScheduler × Option ContainerId :=
  match (s.reapedContainers.lookup fnUri).bind List.getLast? with
  | none => (s,none)
  | some id =>
    let rest := ((s.reapedContainers.lookup fnUri).getD []).dropLast
    ({s with reapedContainers :=
        if rest.isEmpty then s.reapedContainers.erase fnUri
        else s.reapedContainers.insert fnUri rest},some id)

def restoreUpdate (id : ContainerId) (executorId : ExecutorId) : SchedulerUpdateRequest :=
  let u := match s.functionContainers.lookup id with
    | some fc => containerUpdate id fc
    | none => {}
  match s.executorStates.lookup executorId with
  | some state => {u with updatedExecutorStates := u.updatedExecutorStates.insert executorId state}
  | none => u

/-- A reaped container takes its resources back, is alive and idle again and is filed. When the
resources are gone the old index entry is put back. -/
def reinstate (id : ContainerId) (fc : ContainerServerMetadata) (state : ExecutorServerMetadata)
    (now : Instant) : ContainerScheduler × Option SchedulerUpdateRequest :=
  let r := state.addContainer fc.functionContainer
  let s := s.swapState fc.executorId state r.1
  match r.2 with
  | .error _ =>
    let entry := toLex (state.freeResources.memoryBytes,fc.executorId)
    ({s with executorsByFreeMemory := insert entry s.executorsByFreeMemory},none)
  | .ok () =>
    let s := s.insertResourceIndex fc.executorId r.1.freeResources
    let fc := {fc with desiredState := .running, idleSince := some now}
    let s := (s.setContainer id fc).updateContainerIndices id fc
    (s,some (s.restoreUpdate id fc.executorId))

def restoreReapedContainer (fnUri : FunctionURI) (now : Instant) :
    ContainerScheduler × Option SchedulerUpdateRequest :=
  match s.popReaped fnUri with
  | (s,none) => (s,none)
  | (s,some id) =>
    match s.functionContainers.lookup id with
    | none => (s,none)
    | some fc =>
      match s.executorStates.lookup fc.executorId with
      | none => (s,none)
      | some state => s.reinstate id fc state now

section
variable [HashOrder ExecutorId]

/-- The random choices and the clock a creation reads. -/
structure Draw where
  containerId : ContainerId
  random : ℕ
  now : Instant

variable (s : ContainerScheduler)
variable (cache : FeasibilityCache)

/-- Two candidates are collected and the better one is taken. -/
def createContainer (w : Workload) (resources : FunctionResources) (container : Container)
    (containerType : ContainerType) (draw : Draw) :
    ContainerScheduler × FeasibilityCache × Except CreateError (Option SchedulerUpdateRequest) :=
  let (cache,result) := Placement.selectExecutor s w resources cache 2 draw.random
  let s := {s with lastPlacement := some result}
  match result.executorId with
  | none => (s,cache,.ok none)
  | some executorId =>
    if executorId∈s.executorStates then
      match s.registerContainer executorId container containerType draw.now with
      | (s,.ok update) => (s,cache,.ok (some update))
      | (s,.error e) => (s,cache,.error e)
    else (s,cache,.ok none)

def functionContainer («namespace» application version : String) (function : Function)
    (id : ContainerId) : Container where
  id := id
  «namespace» := «namespace»
  applicationName := application
  functionName := function.name
  version := version
  state := .pending
  resources := function.resources.withGpu function.resources.gpuConfigs.head?
  maxConcurrency := function.maxConcurrency
  containerType := .function
  secretNames := function.secretNames.getD []
  timeoutSecs := function.timeoutMs/1000
  poolId := some (.forFunction application function.name version)

def createContainerForFunction («namespace» application version : String) (function : Function)
    (applicationState : ApplicationState) (draw : Draw) :
    ContainerScheduler × FeasibilityCache × Except CreateError (Option SchedulerUpdateRequest) :=
  match applicationState with
  | .disabled reason => (s,cache,.error (.constraintUnsatisfiable reason version function.name))
  | .active =>
    let fnUri : FunctionURI := ⟨«namespace»,application,function.name,version⟩
    match s.restoreReapedContainer fnUri draw.now with
    | (s,some update) => (s,cache,.ok (some update))
    | (s,none) =>
      s.createContainer cache (.ofFunction «namespace» application function) function.resources
        (functionContainer «namespace» application version function draw.containerId) .function draw

/-- The requirements of a container as those of a function with at most one GPU choice. -/
def requirements (r : ContainerResources) : FunctionResources :=
  ⟨r.cpuMsPerSec,r.memoryMb,r.ephemeralDiskMb,r.gpu.toList⟩

def sandboxContainer (sandbox : Sandbox) (snapshotUri : Option String) : Container where
  id := .ofSandbox sandbox.id
  «namespace» := sandbox.namespace
  applicationName := ""
  functionName := sandbox.id.get
  version := ""
  state := .pending
  resources := sandbox.resources
  maxConcurrency := 1
  containerType := .sandbox
  image := some sandbox.image
  secretNames := sandbox.secretNames
  timeoutSecs := sandbox.timeoutSecs
  entrypoint := sandbox.entrypoint.getD []
  networkPolicy := sandbox.networkPolicy
  sandboxId := some sandbox.id
  poolId := sandbox.poolId
  snapshotUri := snapshotUri

def createContainerForSandbox (sandbox : Sandbox) (snapshotUri : Option String) (draw : Draw) :
    ContainerScheduler × FeasibilityCache × Except CreateError (Option SchedulerUpdateRequest) :=
  s.createContainer cache (.ofSandbox sandbox.namespace) (requirements sandbox.resources)
    (sandboxContainer sandbox snapshotUri) .sandbox draw

def poolContainer (pool : ContainerPool) (id : ContainerId) : Container where
  id := id
  «namespace» := pool.namespace
  applicationName := ""
  functionName := "pool:"++pool.id.get
  version := ""
  state := .pending
  resources := pool.resources
  maxConcurrency := 1
  containerType := .sandbox
  image := some pool.image
  secretNames := pool.secretNames
  timeoutSecs := pool.timeoutSecs
  entrypoint := pool.entrypoint.getD []
  networkPolicy := pool.networkPolicy
  poolId := some pool.id

def createContainerForPool (pool : ContainerPool) (draw : Draw) :
    ContainerScheduler × FeasibilityCache × Except CreateError (Option SchedulerUpdateRequest) :=
  s.createContainer cache (.ofSandbox pool.namespace) (requirements pool.resources)
    (poolContainer pool draw.containerId) .sandbox draw

end

section

def registered (executorId : ExecutorId) (container : Container) (containerType : ContainerType)
    (now : Instant) : ContainerServerMetadata where
  executorId := executorId
  functionContainer := container
  desiredState := .running
  containerType := containerType
  allocations := ∅
  idleSince := some now

def registration (container : Container) (fc : ContainerServerMetadata)
    (state : ExecutorServerMetadata) : SchedulerUpdateRequest :=
  {updatedExecutorStates := (∅ : Dict ExecutorId ExecutorServerMetadata).insert fc.executorId state
   containers := (∅ : Dict ContainerId ContainerServerMetadata).insert container.id fc}

inductive Registers (s : ContainerScheduler) (executorId : ExecutorId) (container : Container)
    (containerType : ContainerType) (now : Instant) :
    ContainerScheduler × Except CreateError SchedulerUpdateRequest → Prop
  | unknown (hstate : s.executorStates.lookup executorId = none) :
      Registers s executorId container containerType now
        (s,.error (.executorStateNotFound executorId))
  | refused (state : ExecutorServerMetadata) (e : ResourceError)
      (hstate : s.executorStates.lookup executorId = some state)
      (hadd : (state.addContainer container).2 = .error e) :
      Registers s executorId container containerType now
        (s.swapState executorId state (state.addContainer container).1,.error (.resources e))
  | added (state : ExecutorServerMetadata)
      (hstate : s.executorStates.lookup executorId = some state)
      (hadd : (state.addContainer container).2 = .ok ()) :
      Registers s executorId container containerType now
        ((s.swapState executorId state (state.addContainer container).1).insertResourceIndex
            executorId (state.addContainer container).1.freeResources,
          .ok (registration container (registered executorId container containerType now)
            (state.addContainer container).1))

lemma registerContainer_outcome (s : ContainerScheduler) (executorId : ExecutorId)
    (container : Container) (containerType : ContainerType) (now : Instant) :
    Registers s executorId container containerType now
      (s.registerContainer executorId container containerType now) := by
  unfold registerContainer
  cases hstate : s.executorStates.lookup executorId with
  | none => exact .unknown hstate
  | some state =>
    dsimp only
    cases hadd : (state.addContainer container).2 with
    | error e => exact .refused state e hstate hadd
    | ok => exact .added state hstate hadd

variable [HashOrder ExecutorId]

/-- What a creation can do: nothing is placed, or a candidate executor registers the container. -/
inductive Creates (s : ContainerScheduler) (resources : FunctionResources) (container : Container)
    (containerType : ContainerType) (now : Instant) :
    ContainerScheduler × FeasibilityCache × Except CreateError (Option SchedulerUpdateRequest) → Prop
  | unplaced (cache : FeasibilityCache) (result : PlacementResult) :
      Creates s resources container containerType now
        ({s with lastPlacement := some result},cache,.ok none)
  | placed (cache : FeasibilityCache) (result : PlacementResult) (executorId : ExecutorId)
      (r : ContainerScheduler × Except CreateError SchedulerUpdateRequest)
      (hcandidate : Placement.Candidate s resources executorId)
      (hregisters : Registers {s with lastPlacement := some result} executorId container
        containerType now r) :
      Creates s resources container containerType now (r.1,cache,r.2.map some)

lemma createContainer_outcome (s : ContainerScheduler) (cache : FeasibilityCache) (w : Workload)
    (resources : FunctionResources) (container : Container) (containerType : ContainerType)
    (draw : Draw) : Creates s resources container containerType draw.now
      (s.createContainer cache w resources container containerType draw) := by
  unfold createContainer
  cases hselect : Placement.selectExecutor s w resources cache 2 draw.random with
  | mk cache' result =>
    dsimp only
    cases hid : result.executorId with
    | none => exact .unplaced cache' result
    | some executorId =>
      have hcandidate : Placement.Candidate s resources executorId := by
        apply Placement.selectExecutor_candidate
        rw [hselect]
        exact hid
      dsimp only
      split_ifs
      · have hout := registerContainer_outcome {s with lastPlacement := some result} executorId
          container containerType draw.now
        cases hr : registerContainer {s with lastPlacement := some result} executorId container
            containerType draw.now with
        | mk s' outcome =>
          rw [hr] at hout
          cases outcome with
          | ok update
          | error e => exact .placed cache' result executorId _ hcandidate hout
      · exact .unplaced cache' result

end
end ContainerScheduler
end Indexify
