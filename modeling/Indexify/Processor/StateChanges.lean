import Indexify.Processor.BufferReconciler
import Indexify.Processor.ContainerLifecycle
import Indexify.Processor.IdleContainers

/-! The container side of the handlers of state changes. A handler is a sequence of pieces of work,
each of which changes the scheduler and returns an update; the whole update is applied once more
when the handler is done. What the handlers do to function runs is left out. -/
namespace Indexify

def ContainerServerMetadata.new (executorId : ExecutorId) (container : Container)
    (desiredState : ContainerState) (now : Instant) : ContainerServerMetadata where
  executorId := executorId
  functionContainer := container
  desiredState := desiredState
  containerType := container.containerType
  allocations := ∅
  idleSince := some now

namespace ContainerReconciler
open ContainerScheduler
variable (m : SandboxState)

/-- A reported termination. The container stays in the table, and its executor no longer has it. -/
def reportTerminated (s : ContainerScheduler) (executorId : ExecutorId) (id : ContainerId)
    (reason : ContainerTerminationReason) (now : Instant) : ContainerScheduler × SchedulerUpdateRequest :=
  let update : SchedulerUpdateRequest := match s.functionContainers.lookup id with
    | none => {}
    | some existing =>
      let fc := {existing.functionContainer with state := .terminated reason}
      let update := containerUpdate id (.new executorId fc (.terminated reason) now)
      let update := match s.executorStates.lookup executorId with
        | none => update
        | some state =>
          match state.removeContainer fc with
          | (state,.ok ()) =>
            {update with
                updatedExecutorStates :=
                  (∅ : Dict ExecutorId ExecutorServerMetadata).insert executorId state}
          | (_,.error _) => update
      update.extend (terminateSandboxForContainer m fc)
  (s.applyContainerUpdate update,update)

def reportStarted (s : ContainerScheduler) (id : ContainerId) :
    ContainerScheduler × SchedulerUpdateRequest :=
  let update := promoteSandboxForStartedContainer m s id
  if !update.updatedSandboxes.entries.isEmpty || !update.containers.entries.isEmpty then
    (s.applyContainerUpdate update,update)
  else (s,{})

/-- What a container of the executor is for still exists. -/
def hasPurpose (state : InMemoryState) (s : ContainerScheduler)
    (fe : Container) : Bool :=
  let poolExists := match fe.poolKey with
    | some key => (s.getPool key).isSome
    | none => true
  let sandboxValid := match fe.sandboxId with
    | some id => (m.sandboxes.lookup (.new fe.namespace id.get)).any fun sandbox =>
        sandbox.status = .running || sandbox.status.isPending
    | none => true
  let appFnExists := fe.containerType = .sandbox ||
    (state.applicationVersions.lookup
      (ApplicationVersion.keyFrom fe.namespace fe.applicationName fe.version)).any
        fun av => decide (fe.functionName∈av.functions)
  poolExists && sandboxValid && appFnExists

/-- A container that only the executor has is taken over, or it is to be removed. -/
def adoptContainer (state : InMemoryState) (s : ContainerScheduler) (executorId : ExecutorId)
    (now : Instant) (acc : ExecutorServerMetadata × Dict ContainerId ContainerServerMetadata)
    (fe : Container) : ExecutorServerMetadata × Dict ContainerId ContainerServerMetadata :=
  if fe.state.isTerminated then acc
  else
    let desiredState := if hasPurpose m state s fe then fe.state
      else .terminated .desiredStateRemoved
    (acc.1.forceAddContainer fe,acc.2.insert fe.id (.new executorId fe desiredState now))

/-- The record of the executor, the containers to be removed and the update, so far. -/
structure Sync where
  state : ExecutorServerMetadata
  removals : List Container
  update : SchedulerUpdateRequest

def syncContainer (s : ContainerScheduler) (acc : Except ResourceError Sync)
    (e : Sigma fun _ : ContainerId => Container) : Except ResourceError Sync :=
  match acc,s.functionContainers.lookup e.1 with
  | .error err,_ => .error err
  | .ok acc,none => .ok acc
  | .ok acc,some server =>
    if e.2.state.isTerminated then
      match acc.state.removeContainer e.2 with
      | (state,.ok ()) => .ok {acc with state := state, removals := acc.removals++[e.2]}
      | (_,.error err) => .error err
    else if server.isTerminated then .ok acc
    else
      let containers := if e.2.state≠server.functionContainer.state then
          acc.update.containers.insert server.functionContainer.id
            {server with functionContainer := {server.functionContainer with state := e.2.state}}
        else acc.update.containers
      let update := {acc.update with containers := containers}
      .ok {acc with
        update := update.extend
          (promoteSandboxIfContainerRunning m server.functionContainer e.2.state)}

/-- The sandbox of a removed container ends, and later containers see that. -/
def endSandbox (acc : SandboxState × SchedulerUpdateRequest) (fe : Container) :
    SandboxState × SchedulerUpdateRequest :=
  let update := terminateSandboxForContainer acc.1 fe
  (acc.1.applySchedulerUpdate update,acc.2.extend update)

/-- A removed container is terminated in the update and leaves the record. -/
def removeFunctionContainer (now : Instant)
    (acc : Except ResourceError (ExecutorServerMetadata × SchedulerUpdateRequest))
    (fc : Container) : Except ResourceError (ExecutorServerMetadata × SchedulerUpdateRequest) :=
  match acc with
  | .error err => .error err
  | .ok (state,update) =>
    let desiredState := if fc.state.isTerminated then fc.state
      else .terminated .desiredStateRemoved
    match state.removeContainer fc with
    | (_,.error err) => .error err
    | (state',.ok ()) =>
      .ok (state',
        {update with
            containers := update.containers.insert fc.id (.new state.executorId fc desiredState now)})

def removeFunctionContainers (state : ExecutorServerMetadata)
    (containers : List Container) (now : Instant) : Except ResourceError SchedulerUpdateRequest :=
  if containers.isEmpty then .ok {}
  else
    let update := (containers.foldl endSandbox (m,{})).2
    match containers.foldl (removeFunctionContainer now) (.ok (state,update)) with
    | .error err => .error err
    | .ok (state,update) =>
      .ok {update with
        updatedExecutorStates := update.updatedExecutorStates.insert state.executorId state}

section
variable [HashOrder ContainerId]

def goneContainers (s : ContainerScheduler) (executor : ExecutorMetadata)
    (state : ExecutorServerMetadata) : List Container :=
  ((HashOrder.toList state.functionContainerIds).filter fun id =>
    id ∉ executor.containers).filterMap fun id =>
      (s.functionContainers.lookup id).bind fun fc =>
        if fc.isTerminated then some fc.functionContainer else none

/-- Containers are adopted, synchronised and removed. The update is applied to the scheduler at the
end, the adoptions before that. -/
def reconcileFunctionContainers (m : SandboxState) (state : InMemoryState) (s : ContainerScheduler)
    (executor : ExecutorMetadata) (now : Instant) :
    ContainerScheduler × Except ResourceError SchedulerUpdateRequest :=
  match s.executorStates.lookup executor.id with
  | none => (s,.ok {})
  | some record =>
    let gone := goneContainers s executor record
    let untracked := (executor.containers.entries.filter fun e =>
      e.1 ∉ record.functionContainerIds).map fun e => e.2
    let (adopting,containers) := untracked.foldl (adoptContainer m state s executor.id now) (record,∅)
    let adoption : SchedulerUpdateRequest := if containers.entries.isEmpty then {}
      else
        {containers := containers
         updatedExecutorStates :=
           (∅ : Dict ExecutorId ExecutorServerMetadata).insert adopting.executorId adopting}
    let s := if containers.entries.isEmpty then s else s.updateSchedulerUpdate adoption
    match executor.containers.entries.foldl (syncContainer m s) (.ok ⟨adopting,gone,adoption⟩) with
    | .error err => (s,.error err)
    | .ok sync =>
      match removeFunctionContainers m sync.state sync.removals now with
      | .error err => (s,.error err)
      | .ok removal =>
        let update := sync.update.extend removal
        (s.updateSchedulerUpdate update,.ok update)

def reconcileExecutorState (m : SandboxState) (state : InMemoryState) (s : ContainerScheduler)
    (executorId : ExecutorId) (now : Instant) :
    ContainerScheduler × Except ResourceError SchedulerUpdateRequest :=
  match s.executors.lookup executorId with
  | none => (s,.ok {})
  | some executor =>
    let first : SchedulerUpdateRequest := if executorId∈s.executorStates then {}
      else
        {updatedExecutorStates := (∅ : Dict ExecutorId ExecutorServerMetadata).insert executorId
            ⟨executorId,∅,executor.hostResources,∅⟩}
    let s := if executorId∈s.executorStates then s else s.updateSchedulerUpdate first
    match reconcileFunctionContainers m state s executor now with
    | (s,.ok update) => (s,.ok (first.extend update))
    | (s,.error err) => (s,.error err)

/-- The containers of a deregistered executor, one after the other. -/
def removeWithExecutor (acc : ContainerScheduler × SandboxState × SchedulerUpdateRequest)
    (id : ContainerId) : ContainerScheduler × SandboxState × SchedulerUpdateRequest :=
  match acc.1.functionContainers.lookup id with
  | none => acc
  | some fc =>
    let fc := {fc with
      desiredState := .terminated .executorRemoved
      functionContainer := {fc.functionContainer with state := .terminated .executorRemoved}}
    let sandboxUpdate := terminateSandboxForContainer acc.2.1 fc.functionContainer
    (acc.1.updateSchedulerUpdate (containerUpdate id fc),acc.2.1.applySchedulerUpdate sandboxUpdate,
      (acc.2.2.extend (containerUpdate id fc)).extend sandboxUpdate)

/-- Without a record of the executor its containers are those of its allocations. -/
def deregisterExecutor (m : SandboxState) (state : InMemoryState) (s : ContainerScheduler)
    (executorId : ExecutorId) : ContainerScheduler × SchedulerUpdateRequest :=
  let sandboxUpdate := terminateSandboxesForExecutor m executorId
  let ids := match s.executorStates.lookup executorId with
    | some record => HashOrder.toList record.functionContainerIds
    | none => ((state.allocationsByExecutor.lookup executorId).map AList.keys).getD []
  let (s,_,update) := ids.foldl removeWithExecutor (s,m.applySchedulerUpdate sandboxUpdate,{})
  (s,(({removeExecutors := [executorId]} : SchedulerUpdateRequest).extend sandboxUpdate).extend
    update)

end
end ContainerReconciler

inductive Work
  | allocate (state : InMemoryState) (cache : FeasibilityCache) (run : FunctionRun)
      (ctx : RequestCtx) (queueSize : ℕ) (draw : FunctionRunProcessor.AllocationDraw)
  | allocateSandbox (sandboxes : SandboxState) (cache : FeasibilityCache) (sandbox : Sandbox)
      (draw : ContainerScheduler.Draw)
  | terminateSandbox (sandboxes : SandboxState) («namespace» sandboxId : String)
  | ingest (id : ContainerId) (allocationId : AllocationId) (now : Instant)
  | started (sandboxes : SandboxState) (id : ContainerId)
  | terminated (sandboxes : SandboxState) (executorId : ExecutorId) (id : ContainerId)
      (reason : ContainerTerminationReason) (now : Instant)
  | reconcile (sandboxes : SandboxState) (state : InMemoryState) (executorId : ExecutorId)
      (now : Instant)
  | deregister (sandboxes : SandboxState) (state : InMemoryState) (executorId : ExecutorId)
  | place (state : InMemoryState) (cache : FeasibilityCache) (pool : ContainerPool)
      (draw : ContainerScheduler.Draw)
  | trim (id : ContainerId)

namespace ContainerScheduler
variable [HashOrder ContainerId] [HashOrder ExecutorId]

/-- The work, with nothing returned when the handler fails. A run whose function was disabled ends
its request, and a placement for a pool that fails leaves the pool short. -/
def perform (s : ContainerScheduler) : Work → ContainerScheduler × Option SchedulerUpdateRequest
  | .allocate state cache run ctx queueSize draw =>
    match FunctionRunProcessor.createAllocation state s cache run ctx queueSize draw with
    | (s,_,_,.ok update) => (s,some update)
    | (s,_,_,.error (.constraintUnsatisfiable ..)) => (s,some {})
    | (s,_,_,.error _) => (s,none)
  | .allocateSandbox sandboxes cache sandbox draw =>
    match SandboxProcessor.allocateSandbox sandboxes s cache sandbox draw with
    | (s,_,.ok update) => (s,some update)
    | (s,_,.error _) => (s,none)
  | .terminateSandbox sandboxes ns sandboxId =>
    let r := SandboxProcessor.terminateSandbox sandboxes s ns sandboxId
    (r.1,some r.2)
  | .ingest id allocationId now =>
    let r := s.ingestAllocation id allocationId now
    (r.1,some r.2)
  | .started sandboxes id =>
    let r := ContainerReconciler.reportStarted sandboxes s id
    (r.1,some r.2)
  | .terminated sandboxes executorId id reason now =>
    let r := ContainerReconciler.reportTerminated sandboxes s executorId id reason now
    (r.1,some r.2)
  | .reconcile sandboxes state executorId now =>
    match ContainerReconciler.reconcileExecutorState sandboxes state s executorId now with
    | (s,.ok update) => (s,some update)
    | (s,.error _) => (s,none)
  | .deregister sandboxes state executorId =>
    let r := ContainerReconciler.deregisterExecutor sandboxes state s executorId
    (r.1,some r.2)
  | .place state cache pool draw =>
    match BufferReconciler.createContainerForPool state s cache pool draw with
    | (s,_,.ok (some update)) => (s.applyContainerUpdate update,some update)
    | (s,_,.ok none) => (s,some {})
    | (s,_,.error _) => (s,some {})
  | .trim id =>
    let r := s.terminateContainer id
    (r.1,some (r.2.getD {}))

/-- A handler collects the updates of its work and stops at the first failure. -/
def handle : List Work → ContainerScheduler × SchedulerUpdateRequest →
    ContainerScheduler × Option SchedulerUpdateRequest
  | [],(s,update) => (s,some update)
  | w::ws,(s,update) =>
    match s.perform w with
    | (s,none) => (s,none)
    | (s,some u) => handle ws (s,update.extend u)

inductive Item
  | payload (payload : Payload)
  | change (work : List Work)
  | immediate (payload : Payload)

structure BatchState where
  scheduler : ContainerScheduler
  update : SchedulerUpdateRequest := {}

/-- The update of a handler is applied although its work has done so. An immediate payload is
written on its own. -/
def process (b : BatchState) : Item → BatchState
  | .payload p => {b with scheduler := (b.scheduler.updateWithIntents p).1}
  | .change work =>
    match handle work (b.scheduler,{}) with
    | (s,some update) => ⟨s.applyContainerUpdate update,b.update.extend update⟩
    | (s,none) => {b with scheduler := s}
  | .immediate p => {b with scheduler := (b.scheduler.updateWithIntents p).1}

/-- A batch of payloads begins with a reaping, the other batches do not. -/
def openBatch (s : ContainerScheduler) : Option Instant → BatchState
  | some now =>
    let r := s.reapIdleContainers 0 now
    ⟨r.1,r.2⟩
  | none => ⟨s,{}⟩

end ContainerScheduler
end Indexify
