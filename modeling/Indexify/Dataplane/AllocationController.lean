import Indexify.ExecutorApi.Messages

/-! The controller of the dataplane that runs allocations on function executors: its tables, the
tasks it has spawned and not heard of, and its handlers. Metrics, logs, cancellation tokens and
command acks are left out; the outcome of a task is part of its completion event. -/
namespace Indexify

def Proto.AllocationFailureReason.toI32 : Proto.AllocationFailureReason → Int
  | .unknown => 0
  | .internalError => 1
  | .functionError => 2
  | .functionTimeout => 3
  | .requestError => 4
  | .allocationCancelled => 5
  | .containerTerminated => 6
  | .oom => 7
  | .constraintUnsatisfiable => 8
  | .executorRemoved => 9
  | .startupFailedInternalError => 10
  | .startupFailedFunctionError => 11
  | .startupFailedFunctionTimeout => 12
  | .startupFailedBadImage => 13

namespace Dataplane
open Proto (AllocationFailureReason AllocationOutcomeCode)

structure ServerAllocation where
  allocationId : Option String
  function : Option Proto.FunctionRef
  functionCallId : Option String
  requestId : Option String
  deriving DecidableEq

def ServerAllocation.id (a : ServerAllocation) : String := a.allocationId.getD ""

structure AllocationResult where
  function : Option Proto.FunctionRef
  allocationId : Option String
  functionCallId : Option String
  requestId : Option String
  outcomeCode : Option AllocationOutcomeCode
  failureReason : Option AllocationFailureReason
  returnValue : Option Proto.ReturnValue
  requestError : Option Proto.DataPayload
  executionDurationMs : Option ℕ
  deriving DecidableEq

def terminationToFailureReason : ContainerTerminationReason → AllocationFailureReason
  | .startupFailedFunctionTimeout => .startupFailedFunctionTimeout
  | .startupFailedInternalError => .startupFailedInternalError
  | .startupFailedFunctionError => .startupFailedFunctionError
  | .startupFailedBadImage => .startupFailedBadImage
  | .unhealthy => .functionError
  | .internalError => .internalError
  | .functionTimeout => .functionTimeout
  | .oom => .oom
  | .processCrash => .functionError
  | _ => .containerTerminated

def makeFailureResult (a : ServerAllocation) (reason : AllocationFailureReason) : AllocationResult where
  function := a.function
  allocationId := a.allocationId
  functionCallId := a.functionCallId
  requestId := a.requestId
  outcomeCode := some .failure
  failureReason := some reason
  returnValue := none
  requestError := none
  executionDurationMs := none

def makeAllocationFailedOutcome (a : ServerAllocation) (reason : AllocationFailureReason)
    (requestError : Option Proto.DataPayload) (executionDurationMs : Option ℕ)
    (containerId : Option String) : Proto.AllocationOutcome :=
  .failed
    {allocationId := a.allocationId.getD ""
     reason := reason.toI32
     function := a.function
     functionCallId := a.functionCallId
     requestId := a.requestId
     requestError, executionDurationMs, containerId}

def allocationResultToOutcome (r : AllocationResult) (containerId : Option String) :
    Proto.AllocationOutcome :=
  if r.outcomeCode.getD .unknown = .success then
    .completed
      {allocationId := r.allocationId.getD ""
       function := r.function
       functionCallId := r.functionCallId
       requestId := r.requestId
       returnValue := r.returnValue
       executionDurationMs := r.executionDurationMs}
  else
    makeAllocationFailedOutcome ⟨r.allocationId,r.function,r.functionCallId,r.requestId⟩
      (r.failureReason.getD .internalError) r.requestError r.executionDurationMs containerId

structure MultipartUploadHandle where
  uri : String
  uploadId : String
  deriving DecidableEq

/-- A blob that the function executor reports, with the etags of its uploaded chunks. -/
structure FeBlob where
  id : Option String
  etags : List String
  deriving DecidableEq

/-- What the result of the function executor says about its blobs. -/
structure FeResult where
  requestErrorOutput : Bool
  uploadedRequestErrorBlob : Option FeBlob
  uploadedFunctionOutputsBlob : Option FeBlob
  deriving DecidableEq

structure FinalizationContext where
  requestErrorBlobHandle : Option MultipartUploadHandle
  outputBlobHandles : List MultipartUploadHandle
  feResult : Option FeResult
  deriving DecidableEq

namespace FinalizationContext

def empty : FinalizationContext where
  requestErrorBlobHandle := none
  outputBlobHandles := []
  feResult := none

def isEmpty (ctx : FinalizationContext) : Bool :=
  ctx.requestErrorBlobHandle.isNone && ctx.outputBlobHandles.isEmpty && ctx.feResult.isNone

def ofPrepared (handle : Option MultipartUploadHandle) : FinalizationContext where
  requestErrorBlobHandle := handle
  outputBlobHandles := []
  feResult := none

end FinalizationContext

inductive FEState
  | starting
  | running
  | terminated (reason : ContainerTerminationReason)
  deriving DecidableEq

structure ManagedFE where
  state : FEState
  maxConcurrency : ℕ
  deriving DecidableEq

inductive AllocationState
  | preparing
  | waitingForContainer
  | waitingForSlot
  | running (ctx : FinalizationContext)
  | finalizing (result : AllocationResult) (terminatedContainerId : Option String)
  | done
  deriving DecidableEq

namespace AllocationState

def isWaiting : AllocationState → Bool
  | waitingForContainer | waitingForSlot => true
  | _ => false

def isRunning : AllocationState → Bool
  | running _ => true
  | _ => false

def isReady : AllocationState → Bool
  | preparing | waitingForContainer | waitingForSlot => true
  | _ => false

end AllocationState

structure ManagedAllocation where
  allocation : ServerAllocation
  feId : String
  state : AllocationState
  deriving DecidableEq

/-- A spawned task that has not delivered its event, or a termination in the event channel. -/
inductive Pending
  | startup (feId : String)
  | prepare (allocationId : String)
  | execute (allocationId : String)
  | finalize (allocationId : String) (ctx : FinalizationContext)
  | terminated (feId : String) (reason : ContainerTerminationReason)
  deriving DecidableEq

structure ContainerDescription where
  id : Option String
  maxConcurrency : Option ℕ
  gpuCount : ℕ
  deriving DecidableEq

structure AllocationController where
  containers : Dict String ManagedFE
  allocations : Dict String ManagedAllocation
  waitingQueue : Dict String (List String)
  runningCount : Dict String ℕ
  preparedData : Dict String FinalizationContext
  pending : List Pending
  /-- The outcomes sent, in order. -/
  outcomes : List Proto.AllocationOutcome
  /-- The ids of the allocations taken into the table, in order. -/
  accepted : List String
  /-- The ids of the allocations given to a container, in order. -/
  executed : List String
  stopped : Bool

inductive StartupError
  | image
  | initFunction
  | initTimedOut
  | other
  deriving DecidableEq

def StartupError.reason : StartupError → ContainerTerminationReason
  | image => .startupFailedBadImage
  | initFunction => .startupFailedFunctionError
  | initTimedOut => .startupFailedFunctionTimeout
  | other => .startupFailedInternalError

/-- What the function executor reports of a finished allocation, besides its blobs. -/
structure FeReport where
  outcomeCode : AllocationOutcomeCode
  failureReason : Option AllocationFailureReason
  returnValue : Option Proto.ReturnValue
  requestError : Option Proto.DataPayload
  executionDurationMs : ℕ
  deriving DecidableEq

def convertFeResultToServer (a : ServerAllocation) (r : FeReport) : AllocationResult where
  function := a.function
  allocationId := a.allocationId
  functionCallId := a.functionCallId
  requestId := a.requestId
  outcomeCode := some r.outcomeCode
  failureReason := r.failureReason
  returnValue := r.returnValue
  requestError := r.requestError
  executionDurationMs := some r.executionDurationMs

inductive ExecutionOutcome
  | completed (report : FeReport) (feResult : Option FeResult)
      (outputBlobHandles : List MultipartUploadHandle)
  | cancelled (outputBlobHandles : List MultipartUploadHandle)
  | failed (reason : AllocationFailureReason) (outputBlobHandles : List MultipartUploadHandle)
      (likelyFeCrash : Bool) (terminationReason : Option ContainerTerminationReason)
  deriving DecidableEq

namespace AllocationController

def new (recovered : Dict String ManagedFE) : AllocationController where
  containers := recovered
  allocations := ∅
  waitingQueue := ∅
  runningCount := ∅
  preparedData := ∅
  pending := []
  outcomes := []
  accepted := []
  executed := []
  stopped := false

variable (s : AllocationController)
variable (feId : String)

def queueOf : List String :=
  (s.waitingQueue.lookup feId).getD []

def countOf : ℕ := (s.runningCount.lookup feId).getD 0

def terminationOf : Option AllocationFailureReason :=
  match s.containers.lookup feId with
  | some ⟨.terminated reason,_⟩ => some (terminationToFailureReason reason)
  | _ => none

def isAlive : Bool :=
  match s.containers.lookup feId with
  | some ⟨.terminated _,_⟩ | none => false
  | some _ => true

def put (id : String) (a : ManagedAllocation) : AllocationController :=
  {s with allocations := s.allocations.insert id a}

def send (outcome : Proto.AllocationOutcome) : AllocationController :=
  {s with outcomes := s.outcomes++[outcome]}

def spawn (task : Pending) : AllocationController :=
  {s with pending := s.pending++[task]}

def announce (notices : List Pending) : AllocationController :=
  {s with pending := s.pending++notices}

def releaseSlot : AllocationController :=
  {s with runningCount := s.runningCount.modify feId (· - 1)}

/-! ### Allocations -/

def cleanupDoneAllocations (currentIds : List String) : AllocationController :=
  {s with allocations := s.allocations.retain fun id a =>
    if a.state=.done then id ∈ currentIds else true}

def addAllocation (p : String × ServerAllocation) : AllocationController :=
  let id := p.2.id
  if id∈s.allocations then s
  else
    let s := {s with accepted := s.accepted++[id]}
    if s.isAlive p.1 then (s.put id ⟨p.2,p.1,.preparing⟩).spawn (.prepare id)
    else
      let reason := (s.terminationOf p.1).getD .containerTerminated
      (s.send (makeAllocationFailedOutcome p.2 reason none none (some p.1))).put id
        ⟨p.2,p.1,.done⟩

def addAllocations (new : List (String × ServerAllocation)) : AllocationController :=
  new.foldl addAllocation s

variable (id : String)

def startFinalization (result : AllocationResult)
    (ctx : FinalizationContext) (terminatedContainerId : Option String) : AllocationController :=
  match s.allocations.lookup id with
  | none => s
  | some a =>
    (s.put id {a with state := .finalizing result terminatedContainerId}).spawn (.finalize id ctx)

def scheduleCandidate (s : AllocationController) (id : String) : AllocationController :=
  match s.allocations.lookup id with
  | none => s
  | some a =>
    if a.state.isWaiting then
      match s.preparedData.lookup id with
      | none =>
        s.startFinalization id (makeFailureResult a.allocation .internalError) .empty none
      | some ctx =>
        let s := {s with
          preparedData := s.preparedData.erase id
          runningCount := s.runningCount.insert feId (s.countOf feId + 1)
          executed := s.executed++[id]}
        (s.put id {a with state := .running ctx}).spawn (.execute id)
    else s

def scheduleOn : AllocationController :=
  match s.containers.lookup feId with
  | some ⟨.running,maxConcurrency⟩ =>
    let slots := maxConcurrency - s.countOf feId
    ((s.queueOf feId).take slots).foldl (scheduleCandidate feId)
      {s with waitingQueue := s.waitingQueue.modify feId (List.drop slots)}
  | _ => s

def trySchedule : AllocationController :=
  s.containers.keys.foldl scheduleOn s

def enqueue (a : ManagedAllocation)
    (state : AllocationState) (ctx : FinalizationContext) : AllocationController :=
  ({s with
    waitingQueue := s.waitingQueue.insert a.feId (s.queueOf a.feId++[id])
    preparedData := s.preparedData.insert id ctx}).put id {a with state := state}

/-- A preparation ends with the handle of the request error blob, or fails. -/
def handleAllocationPrepared
    (result : Option (Option MultipartUploadHandle)) : AllocationController :=
  match s.allocations.lookup id with
  | none => s
  | some a =>
    if a.state=.preparing then
      match result with
      | some handle =>
        match s.containers.lookup a.feId with
        | some ⟨.running,_⟩ => (s.enqueue id a .waitingForSlot (.ofPrepared handle)).trySchedule
        | some ⟨.starting,_⟩ => s.enqueue id a .waitingForContainer (.ofPrepared handle)
        | some ⟨.terminated reason,_⟩ =>
          s.startFinalization id
            (makeFailureResult a.allocation (terminationToFailureReason reason))
            (.ofPrepared handle) (some a.feId)
        | none =>
          s.startFinalization id (makeFailureResult a.allocation .containerTerminated)
            (.ofPrepared handle) (some a.feId)
      | none => s.startFinalization id (makeFailureResult a.allocation .internalError) .empty none
    else s

/-- The result and the context with which an execution goes to its finalization. -/
def executionResult (a : ManagedAllocation) (ctx : FinalizationContext) :
    ExecutionOutcome → AllocationResult × FinalizationContext
  | .completed report feResult handles =>
    (convertFeResultToServer a.allocation report,
      {ctx with outputBlobHandles := handles, feResult := feResult})
  | .cancelled handles =>
    (makeFailureResult a.allocation ((s.terminationOf a.feId).getD .allocationCancelled),
      {ctx with outputBlobHandles := handles})
  | .failed reason handles _ _ =>
    (makeFailureResult a.allocation ((s.terminationOf a.feId).getD reason),
      {ctx with outputBlobHandles := handles})

def crashNotice : ExecutionOutcome → List Pending
  | .failed _ _ true reason => [.terminated feId (reason.getD .unhealthy)]
  | _ => []

def handleAllocationExecutionFinished (outcome : ExecutionOutcome) : AllocationController :=
  match s.allocations.lookup id with
  | none => s
  | some a =>
    match a.state with
    | .running ctx =>
      let s := s.releaseSlot a.feId
      let r := s.executionResult a ctx outcome
      ((s.startFinalization id r.1 r.2 none).announce (crashNotice a.feId outcome)).trySchedule
    | _ => s

def handleAllocationFinalizationFinished (isSuccess : Bool) : AllocationController :=
  match s.allocations.lookup id with
  | none => s
  | some a =>
    match a.state with
    | .finalizing result terminatedContainerId =>
      let result := if isSuccess then result
        else {makeFailureResult a.allocation .internalError with
          executionDurationMs := result.executionDurationMs}
      (s.send (allocationResultToOutcome result terminatedContainerId)).put id
        {a with state := .done}
    | _ => s

def takePrepared : FinalizationContext × AllocationController :=
  ((s.preparedData.lookup id).getD .empty,{s with preparedData := s.preparedData.erase id})

def unqueue (id feId : String) : AllocationController :=
  {s with waitingQueue := s.waitingQueue.modify feId fun queue => queue.filter (· ≠ id)}

/-- A running allocation is only signalled. -/
def cancelAllocation : AllocationController :=
  match s.allocations.lookup id with
  | none => s
  | some a =>
    if a.state.isReady then
      let p := (if a.state.isWaiting then s.unqueue id a.feId else s).takePrepared id
      p.2.startFinalization id (makeFailureResult a.allocation .allocationCancelled) p.1 none
    else s

/-! ### Containers -/

def isStartupFailure : AllocationFailureReason → Bool
  | .startupFailedInternalError | .startupFailedFunctionError | .startupFailedFunctionTimeout
  | .startupFailedBadImage => true
  | _ => false

/-- One allocation of a terminated container. A running one reports for itself; one without blobs is
answered at once. -/
def failAllocation (reason : AllocationFailureReason) (s : AllocationController)
    (id : String) : AllocationController :=
  match s.allocations.lookup id with
  | none => s
  | some a =>
    if a.state.isReady then
      let p := s.takePrepared id
      if p.1.isEmpty then
        (p.2.send (makeAllocationFailedOutcome a.allocation reason none none (some feId))).put id
          {a with state := .done}
      else p.2.startFinalization id (makeFailureResult a.allocation reason) p.1 (some feId)
    else s

def allocationsOf : List String :=
  (s.allocations.entries.filter fun e =>
    e.2.feId = feId && (e.2.state.isReady || e.2.state.isRunning)).map Sigma.fst

def failAllocationsForFe (reason : AllocationFailureReason) : AllocationController :=
  let reason := if isStartupFailure reason then reason else .containerTerminated
  (s.allocationsOf feId).foldl (failAllocation feId reason)
    {s with waitingQueue := s.waitingQueue.erase feId}

def terminate (fe : ManagedFE)
    (reason : ContainerTerminationReason) : AllocationController :=
  {s with containers := s.containers.insert feId {fe with state := .terminated reason}}

def removeContainer : AllocationController :=
  match s.containers.lookup feId with
  | none => s
  | some fe =>
    match fe.state with
    | .terminated _ =>
      {s with
        containers := s.containers.erase feId
        waitingQueue := s.waitingQueue.erase feId
        runningCount := s.runningCount.erase feId}
    | _ => (s.terminate feId fe .functionCancelled).failAllocationsForFe feId .containerTerminated

/-- A container that is not known is created. `gpuFails` are the containers that get no GPU. -/
def createContainer (gpuFails : List String) (s : AllocationController)
    (description : ContainerDescription) : AllocationController :=
  match description.id with
  | none => s
  | some feId =>
    if feId∈s.containers then s
    else
      let fe : ManagedFE := ⟨.starting,description.maxConcurrency.getD 1⟩
      if 0<description.gpuCount ∧ feId∈gpuFails then
        (s.terminate feId fe .startupFailedInternalError).failAllocationsForFe feId
          (terminationToFailureReason .startupFailedInternalError)
      else ({s with containers := s.containers.insert feId fe}).spawn (.startup feId)

def reconcileContainers (added : List ContainerDescription)
    (removed gpuFails : List String) : AllocationController :=
  added.foldl (createContainer gpuFails) (removed.foldl removeContainer s)

def handleContainerStartupComplete (feId : String)
    (result : Except StartupError Unit) : AllocationController :=
  match s.containers.lookup feId with
  | some ⟨.starting,maxConcurrency⟩ =>
    match result with
    | .ok _ =>
      ({s with containers := s.containers.insert feId ⟨.running,maxConcurrency⟩}).trySchedule
    | .error e =>
      (s.terminate feId ⟨.starting,maxConcurrency⟩ e.reason).failAllocationsForFe feId
        (terminationToFailureReason e.reason)
  -- a late startup only has its process killed
  | _ => s

def handleContainerTerminated (feId : String)
    (reason : ContainerTerminationReason) : AllocationController :=
  match s.containers.lookup feId with
  | none => s
  | some fe =>
    match fe.state with
    | .terminated _ => s
    | _ => (s.terminate feId fe reason).failAllocationsForFe feId (terminationToFailureReason reason)

/-! ### Commands and shutdown -/

def reconcile (added : List ContainerDescription) (removed gpuFails : List String)
    (new : List (String × ServerAllocation)) : AllocationController :=
  let s := if new.isEmpty then s else s.cleanupDoneAllocations (new.map fun p => p.2.id)
  ((s.reconcileContainers added removed gpuFails).addAllocations new).trySchedule

/-- One allocation at shutdown; a running one gives up its context. -/
def shutdownAllocation : AllocationController :=
  match s.allocations.lookup id with
  | none => s
  | some a =>
    match a.state with
    | .finalizing _ _ | .done => s
    | state =>
      let ctx := match s.preparedData.lookup id,state with
        | some ctx,_ => ctx
        | none,.running ctx => ctx
        | none,_ => .empty
      (s.takePrepared id).2.startFinalization id
        (makeFailureResult a.allocation .allocationCancelled) ctx none

/-- What an allocation still owes when the controller stops. -/
def lastOutcome (a : ManagedAllocation) : Option Proto.AllocationOutcome :=
  match a.state with
  | .finalizing result terminatedContainerId =>
    some (allocationResultToOutcome result (terminatedContainerId.or (some a.feId)))
  | _ => none

def drainAllocations : AllocationController :=
  {s with
    outcomes := s.outcomes++s.allocations.values.filterMap lastOutcome
    allocations := ∅
    stopped := true}

/-- `finished` are the finalizations that end before the deadline. -/
def shutdownAll (finished : List (String × Bool)) : AllocationController :=
  let s := s.allocations.keys.foldl shutdownAllocation s
  (finished.foldl (fun s p => s.handleAllocationFinalizationFinished p.1 p.2) s).drainAllocations

end AllocationController

inductive ControllerEvent
  | reconcile (added : List ContainerDescription) (removed gpuFails : List String)
      (new : List (String × ServerAllocation))
  | killAllocation (id : String)
  | startupComplete (feId : String) (result : Except StartupError Unit)
  | containerTerminated (feId : String) (reason : ContainerTerminationReason)
  | prepared (id : String) (result : Option (Option MultipartUploadHandle))
  | executionFinished (id : String) (outcome : ExecutionOutcome)
  | finalizationFinished (id : String) (ctx : FinalizationContext) (isSuccess : Bool)
  | shutdown (finished : List (String × Bool))

namespace AllocationController
variable (s : AllocationController)

/-- A task delivers its one event; nothing happens without the task. -/
def complete (task : Pending)
    (handler : AllocationController → AllocationController) : AllocationController :=
  if task∈s.pending then handler {s with pending := s.pending.erase task} else s

def handle : ControllerEvent → AllocationController
  | .reconcile added removed gpuFails new => s.reconcile added removed gpuFails new
  | .killAllocation id => s.cancelAllocation id
  | .startupComplete feId result =>
    s.complete (.startup feId) fun s => s.handleContainerStartupComplete feId result
  -- from the health checker at any time, or announced by a crash
  | .containerTerminated feId reason =>
    ({s with pending := s.pending.erase (.terminated feId reason)}).handleContainerTerminated feId
      reason
  | .prepared id result => s.complete (.prepare id) fun s => s.handleAllocationPrepared id result
  | .executionFinished id outcome =>
    s.complete (.execute id) fun s => s.handleAllocationExecutionFinished id outcome
  | .finalizationFinished id ctx isSuccess =>
    s.complete (.finalize id ctx) fun s => s.handleAllocationFinalizationFinished id isSuccess
  | .shutdown finished => s.shutdownAll finished

/-- The loop ends with a shutdown. -/
def step (e : ControllerEvent) : AllocationController :=
  if s.stopped then s else s.handle e

def run (es : List ControllerEvent) : AllocationController :=
  es.foldl step s

end AllocationController
end Dataplane
end Indexify
