import Indexify.StateStore.InMemoryState

/-! What the payloads about applications do to the in-memory state, and how it is rebuilt from the
rows of the store. -/
namespace Indexify

def FunctionRun.inVersion (r : FunctionRun) (version : String) : FunctionRun :=
  if r.version≠version then {r with version := version} else r

def RequestCtx.inVersion (ctx : RequestCtx) (version : String) : RequestCtx :=
  {ctx with
    applicationVersion := version
    functionRuns := ctx.functionRuns.entries.foldl (fun runs e =>
      if e.2.version≠version then runs.insert e.2.id {e.2 with version := version} else runs)
      ctx.functionRuns}

namespace InMemoryState
variable (s : InMemoryState)

/-- The requests whose key starts with the key of the application, as the ordered scan finds
them. -/
def requestsOfApplication («namespace» application : String) : List RequestCtx :=
  (s.requestCtx.retain fun k _ =>
    (RequestCtx.keyPrefixForApplication «namespace» application).toList.isPrefixOf
      k.get.toList).values

def replaceRun (r : FunctionRun) : InMemoryState :=
  {s with functionRuns := s.functionRuns.modify r.key fun _ => r}

def replaceRuns (version : String) (ctx : RequestCtx) : InMemoryState :=
  (ctx.functionRuns.values.map fun r => r.inVersion version).foldl replaceRun s

def putRequest (ctx : RequestCtx) : InMemoryState :=
  {s with requestCtx := s.requestCtx.insert ctx.key ctx}

/-- All requests of the application are moved to the version, with all their runs. -/
def upgradeRequests («namespace» application version : String) : InMemoryState :=
  let requests := s.requestsOfApplication «namespace» application
  (requests.map fun ctx => ctx.inVersion version).foldl putRequest
    (requests.foldl (fun s ctx => s.replaceRuns version ctx) s)

def putVersion (application : Application) : InMemoryState :=
  {s with
    applications := s.applications.insert application.key application
    applicationVersions :=
      s.applicationVersions.insert application.toVersion.key application.toVersion}

def createOrUpdateApplication (req : CreateOrUpdateApplicationRequest) : InMemoryState :=
  let s := s.putVersion req.application
  if req.upgradeRequestsToCurrentVersion then
    s.upgradeRequests req.namespace req.application.name req.application.version
  else s

/-- The versions go after the requests. -/
def dropVersions («namespace» name : String) : InMemoryState :=
  {s with applicationVersions := s.applicationVersions.retain fun k _ =>
    !(ApplicationVersion.keyPrefixFrom «namespace» name).toList.isPrefixOf k.toList}

def deleteApplication («namespace» name : String) : InMemoryState :=
  let requests := (s.requestsOfApplication «namespace» name).map fun ctx => ctx.requestId
  let s := {s with applications := s.applications.erase (Application.keyFrom «namespace» name)}
  let s := requests.foldl (fun s id => s.deleteRequest «namespace» name id) s
  s.dropVersions «namespace» name

/-- An allocation that an executor reports as ended leaves memory. A container without allocations
leaves with it. -/
def removeAllocation (executorId : ExecutorId) (s : InMemoryState)
    (ended : ContainerId × AllocationId) : InMemoryState :=
  {s with
    allocationsByExecutor := s.allocationsByExecutor.modify executorId fun byFe =>
      (Dict.modify byFe ended.1 fun allocations => allocations.erase ended.2).retain
        fun _ allocations => !allocations.entries.isEmpty}

/-- The payloads about sandboxes, executors and pools leave requests alone. -/
def updateState : Payload → InMemoryState
  | .invokeApplication ctx => s.invokeApplication ctx
  | .createOrUpdateApplication req => s.createOrUpdateApplication req
  | .deleteRequest ns application requestId => s.deleteRequest ns application requestId
  | .deleteApplication ns name => s.deleteApplication ns name
  | .schedulerUpdate u => s.applySchedulerUpdate u
  | _ => s

def loadRun (r : FunctionRun) : InMemoryState :=
  let s := if r.status=.pending then
      incrementPending {s with
        unallocatedFunctionRuns := insert r.key s.unallocatedFunctionRuns} r
    else s
  {s with functionRuns := s.functionRuns.insert r.key r}

/-- An allocation without an outcome is loaded, whatever its request. -/
def loadAllocation (a : Allocation) : InMemoryState :=
  if a.isTerminal then s
  else
    let byFe := (s.allocationsByExecutor.lookup a.target.executorId).getD ∅
    let allocations := (byFe.lookup a.target.containerId).getD ∅
    {s with
      allocationsByExecutor := s.allocationsByExecutor.insert a.target.executorId
        (byFe.insert a.target.containerId (allocations.insert a.id a))}

/-- The state rebuilt from the store: requests without an outcome, with the runs and calls that
were grouped under their keys. -/
def new (applications : Dict String Application) (versions : Dict String ApplicationVersion)
    (requests : Dict RequestCtxKey RequestCtx) (allocations : List Allocation) : InMemoryState :=
  let s : InMemoryState :=
    {applications := applications, applicationVersions := versions, requestCtx := requests}
  (requests.values.flatMap fun ctx => ctx.functionRuns.values).foldl loadRun
    (allocations.foldl loadAllocation s)

end InMemoryState
end Indexify
