import Indexify.Processor.RetryPolicy
import Indexify.StateStore.InMemoryState

/-! How a finished allocation and a blocking call change a request: new calls, runs whose
inputs are there, outputs handed back along tail calls, and the outcome of the request. The
parameter `hash` is the digest that names the intermediate calls of a reduce operation. -/
namespace Indexify

structure GraphUpdates where
  graphUpdates : List ComputeOp
  outputFunctionCallId : FunctionCallId
  deriving DecidableEq

structure AllocationOutputIngestedEvent where
  «namespace» : String
  application : String
  function : String
  requestId : String
  functionCallId : FunctionCallId
  dataPayload : Option DataPayload
  graphUpdates : Option GraphUpdates
  requestException : Option DataPayload
  allocationId : AllocationId
  allocationTarget : AllocationTarget
  allocationOutcome : FunctionRunOutcome
  executionDurationMs : Option ℕ
  deriving DecidableEq

structure FunctionCallEvent where
  «namespace» : String
  application : String
  requestId : String
  sourceFunctionCallId : FunctionCallId
  graphUpdates : GraphUpdates
  deriving DecidableEq

namespace FunctionRunCreator
variable (hash : String → String)

def createFunctionCallFromReduceOp (op : ReduceOperation) (firstArg secondArg : FunctionArgs)
    (parentFunctionCallId : Option FunctionCallId) (position : ℕ) : FunctionCall where
  functionCallId := ⟨hash (op.functionCallId.get++":reduce:"++toString position)⟩
  inputs := [firstArg,secondArg]
  fnName := op.fnName
  callMetadata := op.callMetadata
  parentFunctionCallId := parentFunctionCallId

/-- The calls of a reduce after the first one, each fed by the call before it. The last call of
the chain is returned. -/
def chainReduceCalls (op : ReduceOperation) :
    List FunctionArgs → ℕ → FunctionCall → SchedulerUpdateRequest × RequestCtx →
      FunctionCall × SchedulerUpdateRequest × RequestCtx
  | [],_,last,uc => (last,uc)
  | arg::rest,position,last,uc =>
    let call := createFunctionCallFromReduceOp hash op (.functionRunOutput last.functionCallId) arg
      none position
    chainReduceCalls op rest (position+1) call (uc.1.addFunctionCall call uc.2)

/-- The last call of the chain takes the id of the operation. -/
def createReduceCalls (op : ReduceOperation) (firstArg secondArg : FunctionArgs)
    (rest : List FunctionArgs) (uc : SchedulerUpdateRequest × RequestCtx) :
    SchedulerUpdateRequest × RequestCtx :=
  let first := createFunctionCallFromReduceOp hash op firstArg secondArg none 0
  let (last,u,ctx) := chainReduceCalls hash op rest 1 first (uc.1.addFunctionCall first uc.2)
  let ctx := {ctx with functionCalls := ctx.functionCalls.erase last.functionCallId}
  u.addFunctionCall {last with functionCallId := op.functionCallId} ctx

/-- A reduce over fewer than two items fails the request and stops. -/
def createReduceOps :
    List ComputeOp → SchedulerUpdateRequest × RequestCtx → SchedulerUpdateRequest × RequestCtx
  | [],uc => uc
  | .functionCall _::ops,uc => createReduceOps ops uc
  | .reduce op::ops,uc =>
    match op.collection with
    | firstArg::secondArg::rest =>
      createReduceOps ops (createReduceCalls hash op firstArg secondArg rest uc)
    | _ => (uc.1,{uc.2 with outcome := some (.failure .functionError)})

def addPlainCall (uc : SchedulerUpdateRequest × RequestCtx) :
    ComputeOp → SchedulerUpdateRequest × RequestCtx
  | .functionCall call => uc.1.addFunctionCall call uc.2
  | .reduce _ => uc

variable (ctx : RequestCtx)

def createFunctionCalls (update : GraphUpdates) : SchedulerUpdateRequest × RequestCtx :=
  createReduceOps hash update.graphUpdates (update.graphUpdates.foldl addPlainCall ({},ctx))

/-- An argument is available when it is a payload or the output of a finished run. -/
def resolveArg : FunctionArgs → Option InputArgs
  | .dataPayload payload => some ⟨none,payload⟩
  | .functionRunOutput id =>
    (ctx.functionRuns.lookup id).bind fun run => run.output.map fun output => ⟨some id,output⟩

def createFunctionRun (applicationVersion : ApplicationVersion) (uc : SchedulerUpdateRequest × RequestCtx)
    (id : FunctionCallId) : SchedulerUpdateRequest × RequestCtx :=
  match uc.2.functionCalls.lookup id with
  | none => uc
  | some call =>
    match call.inputs.mapM (resolveArg uc.2) with
    | none => uc
    | some inputArgs =>
      uc.1.addFunctionRun (applicationVersion.createFunctionRun call inputArgs uc.2.requestId) uc.2

def createFunctionRuns (pendingFunctionCalls : List FunctionCallId)
    (applicationVersion : ApplicationVersion) : SchedulerUpdateRequest × RequestCtx :=
  pendingFunctionCalls.foldl (createFunctionRun applicationVersion) ({},ctx)

/-- The run that waits for a child; one entry per child, a later run overwrites an earlier. -/
def childToParent : Dict FunctionCallId FunctionCallId :=
  Dict.insertPairs ∅ (ctx.functionRuns.values.filterMap fun run =>
    run.childFunctionCall.map fun child => (child,run.id))

/-- The walk from a finished run to the runs that wait for it. The map of waiting runs is
fixed before the walk; `fuel` bounds the number of runs visited. On a cycle of tail calls the source
walks for ever, where the fuel ends the walk. -/
def propagateLoop (parents : Dict FunctionCallId FunctionCallId) (key : RequestCtxKey) :
    ℕ → FunctionCallId → Option DataPayload → SchedulerUpdateRequest × RequestCtx →
      SchedulerUpdateRequest × RequestCtx
  | 0,_,_,uc => uc
  | fuel+1,currentId,currentOutput,uc =>
    match parents.lookup currentId with
    | none => uc
    | some parentId =>
      match uc.2.functionRuns.lookup parentId with
      | none => uc
      | some parentRun =>
        let parentRun := {parentRun with
          output := currentOutput
          outcome := some .success
          status := .completed}
        propagateLoop parents key fuel parentRun.id parentRun.output
          ({uc.1 with
            updatedFunctionRuns := uc.1.updatedFunctionRuns.insert key
              (((uc.1.updatedFunctionRuns.lookup key).getD []).insert parentRun.id)},
            {uc.2 with functionRuns := uc.2.functionRuns.insert parentId parentRun})

def propagateOutputToConsumers (run : FunctionRun) : SchedulerUpdateRequest × RequestCtx :=
  if run.output.isNone then ({},ctx)
  else propagateLoop (childToParent ctx) ctx.key (ctx.functionRuns.entries.length+1) run.id
    run.output ({},ctx)

def cancelRun (uc : SchedulerUpdateRequest × RequestCtx) (run : FunctionRun) :
    SchedulerUpdateRequest × RequestCtx :=
  if run.status=.completed then uc
  else uc.1.addFunctionRun
    {run with status := .completed, outcome := some (.failure .functionRunCancelled)} uc.2

/-- The run failed for good: the request fails and its other runs are cancelled. -/
def failRequest (u : SchedulerUpdateRequest) (ctx : RequestCtx) (run : FunctionRun)
    (allocation : Allocation) (reason : FunctionRunFailureReason)
    (requestException : Option DataPayload) : SchedulerUpdateRequest :=
  let run := {run with status := .completed, outcome := some allocation.outcome}
  let (run,ctx) :=
    match requestException with
    | some payload =>
      ({run with requestError := some payload}, {ctx with requestError := some ⟨run.name,payload⟩})
    | none => (run,ctx)
  let ctx := {ctx with outcome := some (.failure (.ofFunctionRun reason))}
  let (u,ctx) := u.addFunctionRun run ctx
  let (u,ctx) := ctx.functionRuns.values.foldl cancelRun (u,ctx)
  u.addRequestState ctx

/-- The run finished: its calls are added, and the request is complete or goes on. -/
def continueRequest (u : SchedulerUpdateRequest) (ctx : RequestCtx) (graphUpdates : Option GraphUpdates)
    (applicationVersion : ApplicationVersion) : SchedulerUpdateRequest :=
  let (u,ctx) :=
    match graphUpdates with
    | some updates =>
      let (v,ctx) := createFunctionCalls hash ctx updates
      (u.extend v,ctx)
    | none => (u,ctx)
  if ctx.isRequestCompleted then u.addRequestState {ctx with outcome := some .success}
  else
    let (v,ctx) := createFunctionRuns ctx ctx.pendingFunctionCalls applicationVersion
    (u.extend v).addRequestState ctx

def reportedRun (run : FunctionRun) (event : AllocationOutputIngestedEvent) : FunctionRun :=
  let run := {run with output := event.dataPayload}
  match event.graphUpdates with
  | some updates => {run with childFunctionCall := some updates.outputFunctionCallId}
  | none => run

/-- The run after the retry policy. The output of a tail call comes from the child, and the
outcome with it. -/
def decidedRun (run : FunctionRun) (allocation : Allocation)
    (applicationVersion : ApplicationVersion) : FunctionRun :=
  let run := FunctionRunRetryPolicy.handleAllocationOutcome run allocation applicationVersion
  if run.childFunctionCall.isSome && run.output.isNone then {run with outcome := none} else run

def ingestRunning (s : InMemoryState) (u : SchedulerUpdateRequest) (ctx : RequestCtx) (run : FunctionRun)
    (allocation : Allocation) (event : AllocationOutputIngestedEvent) : SchedulerUpdateRequest :=
  let u := {u with updatedAllocations := u.updatedAllocations++[allocation]}
  let run := reportedRun run event
  let (u,ctx) := u.addFunctionRun run ctx
  let (v,ctx) := propagateOutputToConsumers ctx run
  let u := u.extend v
  match s.getExistingApplicationVersion run with
  | none => u.addRequestState ctx
  | some applicationVersion =>
    let run := decidedRun run allocation applicationVersion
    let (u,ctx) := u.addFunctionRun run ctx
    let u := u.addRequestState ctx
    if run.status=.pending then u
    else
      match allocation.outcome with
      | .failure reason => failRequest u ctx run allocation reason event.requestException
      | _ => continueRequest hash u ctx event.graphUpdates applicationVersion

/-- `allocations` is the persisted table, `u` the update with the container of the allocation
released. Events of finished requests, of unknown runs, of unknown or terminal allocations and
of allocations the run is not on are ignored. -/
def handleAllocationIngestion (s : InMemoryState) (allocations : Dict String Allocation)
    (u : SchedulerUpdateRequest) (event : AllocationOutputIngestedEvent) : SchedulerUpdateRequest :=
  match s.requestCtx.lookup
    (RequestCtx.keyFrom event.namespace event.application event.requestId) with
  | none => u
  | some ctx =>
    if ctx.outcome.isSome then u
    else
      match ctx.functionRuns.lookup event.functionCallId with
      | none => u
      | some run =>
        match allocations.lookup (Allocation.keyFrom event.namespace event.application
          event.requestId event.allocationId.get) with
        | none => u
        | some allocation =>
          if allocation.isTerminal then u
          else
            let allocation := {allocation with
              outcome := event.allocationOutcome
              executionDurationMs := event.executionDurationMs}
            if run.status ≠ .running allocation.id then u
            else ingestRunning hash s u ctx run allocation event

def handleBlockingFunctionCall (s : InMemoryState) (event : FunctionCallEvent) : SchedulerUpdateRequest :=
  match s.requestCtx.lookup
    (RequestCtx.keyFrom event.namespace event.application event.requestId) with
  | none => {}
  | some ctx =>
    if ctx.outcome.isSome then {}
    else if event.sourceFunctionCallId∉ctx.functionCalls then {}
    else
      match s.applicationVersions.lookup (ApplicationVersion.keyFrom ctx.namespace
        ctx.applicationName ctx.applicationVersion) with
      | none => {}
      | some applicationVersion =>
        let (v,ctx) := createFunctionCalls hash ctx event.graphUpdates
        let u := SchedulerUpdateRequest.extend {} v
        let (v,ctx) := createFunctionRuns ctx ctx.pendingFunctionCalls applicationVersion
        (u.extend v).addRequestState ctx

end FunctionRunCreator
end Indexify
