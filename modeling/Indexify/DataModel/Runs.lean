import Indexify.Library.Dict

/-! Function calls, function runs, allocations and request contexts. Keys are the strings
the server formats, so two different requests may share one when a name contains the
separator. -/
namespace Indexify

structure ExecutorId where
  get : String
  deriving DecidableEq

structure ContainerId where
  get : String
  deriving DecidableEq

structure AllocationId where
  get : String
  deriving DecidableEq

structure FunctionCallId where
  get : String
  deriving DecidableEq

structure RequestCtxKey where
  get : String
  deriving DecidableEq

structure FunctionRunKey where
  get : String
  deriving DecidableEq

structure DataPayload where
  id : String
  path : String
  metadataSize : ℕ
  offset : ℕ
  size : ℕ
  sha256Hash : String
  encoding : String
  deriving DecidableEq

inductive FunctionRunFailureReason
  | unknown
  | internalError
  | functionError
  | functionTimeout
  | requestError
  | functionRunCancelled
  | functionExecutorTerminated
  | constraintUnsatisfiable
  | executorRemoved
  | containerStartupFunctionError
  | containerStartupFunctionTimeout
  | containerStartupInternalError
  | outOfMemory
  | containerStartupBadImage
  deriving DecidableEq

namespace FunctionRunFailureReason

def isRetriable : FunctionRunFailureReason → Bool
  | internalError | functionError | functionTimeout | functionExecutorTerminated
  | executorRemoved | outOfMemory | containerStartupFunctionError
  | containerStartupFunctionTimeout | containerStartupInternalError => true
  | _ => false

/-- Failures of the infrastructure alone (`executorRemoved`, `functionExecutorTerminated`)
give a free retry. -/
def shouldCountAgainstFunctionRunRetryAttempts : FunctionRunFailureReason → Bool
  | internalError | functionError | functionTimeout | outOfMemory
  | containerStartupFunctionError | containerStartupFunctionTimeout
  | containerStartupInternalError => true
  | _ => false

end FunctionRunFailureReason

inductive FunctionRunOutcome
  | unknown
  | success
  | failure (reason : FunctionRunFailureReason)
  deriving DecidableEq

inductive FunctionRunStatus
  | pending
  | running (allocationId : AllocationId)
  | completed
  deriving DecidableEq

inductive RequestFailureReason
  | unknown
  | internalError
  | functionError
  | functionTimeout
  | requestError
  | constraintUnsatisfiable
  | cancelled
  | outOfMemory
  deriving DecidableEq

def RequestFailureReason.ofFunctionRun : FunctionRunFailureReason → RequestFailureReason
  | .unknown => .unknown
  | .internalError => .internalError
  | .functionError => .functionError
  | .containerStartupFunctionError => .functionError
  | .containerStartupFunctionTimeout => .functionTimeout
  | .containerStartupInternalError => .internalError
  | .functionTimeout => .functionTimeout
  | .requestError => .requestError
  | .functionRunCancelled => .cancelled
  | .functionExecutorTerminated => .internalError
  | .executorRemoved => .internalError
  | .constraintUnsatisfiable => .constraintUnsatisfiable
  | .outOfMemory => .outOfMemory
  | .containerStartupBadImage => .internalError

inductive RequestOutcome
  | unknown
  | success
  | failure (reason : RequestFailureReason)
  deriving DecidableEq

def RequestOutcome.ofFunctionRun : FunctionRunOutcome → RequestOutcome
  | .success => .success
  | .failure reason => .failure (.ofFunctionRun reason)
  | .unknown => .unknown

inductive ContainerTerminationReason
  | unknown
  | startupFailedInternalError
  | startupFailedFunctionError
  | startupFailedFunctionTimeout
  | unhealthy
  | internalError
  | functionError
  | functionTimeout
  | functionCancelled
  | desiredStateRemoved
  | executorRemoved
  | oom
  | processCrash
  | startupFailedBadImage
  deriving DecidableEq

def FunctionRunFailureReason.ofTermination : ContainerTerminationReason → FunctionRunFailureReason
  | .unknown => .functionExecutorTerminated
  | .startupFailedInternalError => .containerStartupInternalError
  | .startupFailedFunctionError => .containerStartupFunctionError
  | .startupFailedFunctionTimeout => .containerStartupFunctionTimeout
  | .startupFailedBadImage => .containerStartupBadImage
  | .unhealthy => .functionTimeout
  | .internalError => .internalError
  | .functionError => .functionError
  | .functionTimeout => .functionTimeout
  | .functionCancelled => .functionRunCancelled
  | .desiredStateRemoved => .functionExecutorTerminated
  | .executorRemoved => .executorRemoved
  | .oom => .outOfMemory
  | .processCrash => .functionError

/-- An argument is a payload, or the output of another call of the same request. -/
inductive FunctionArgs
  | functionRunOutput (id : FunctionCallId)
  | dataPayload (payload : DataPayload)
  deriving DecidableEq

structure FunctionCall where
  functionCallId : FunctionCallId
  inputs : List FunctionArgs
  fnName : String
  callMetadata : List UInt8
  parentFunctionCallId : Option FunctionCallId
  deriving DecidableEq

structure ReduceOperation where
  functionCallId : FunctionCallId
  collection : List FunctionArgs
  fnName : String
  callMetadata : List UInt8
  deriving DecidableEq

inductive ComputeOp
  | reduce (op : ReduceOperation)
  | functionCall (call : FunctionCall)
  deriving DecidableEq

structure InputArgs where
  functionCallId : Option FunctionCallId
  dataPayload : DataPayload
  deriving DecidableEq

structure AllocationTarget where
  executorId : ExecutorId
  containerId : ContainerId
  deriving DecidableEq

structure Allocation where
  id : AllocationId
  target : AllocationTarget
  functionCallId : FunctionCallId
  «namespace» : String
  application : String
  applicationVersion : String
  function : String
  requestId : String
  outcome : FunctionRunOutcome
  attemptNumber : ℕ
  executionDurationMs : Option ℕ
  inputArgs : List InputArgs
  vectorClock : ℕ
  callMetadata : List UInt8
  deriving DecidableEq

namespace Allocation

def keyFrom («namespace» application requestId id : String) : String :=
  «namespace»++"|"++application++"|"++requestId++"|"++id

def key (a : Allocation) : String :=
  keyFrom a.namespace a.application a.requestId a.id.get

def isTerminal (a : Allocation) : Bool :=
  match a.outcome with
  | .success | .failure _ => true
  | .unknown => false

def functionRunKey (a : Allocation) : FunctionRunKey :=
  ⟨a.namespace++"|"++a.application++"|"++a.requestId++"|"++a.functionCallId.get⟩

end Allocation

structure FunctionRun where
  id : FunctionCallId
  requestId : String
  «namespace» : String
  application : String
  version : String
  name : String
  computeOp : ComputeOp
  inputArgs : List InputArgs
  childFunctionCall : Option FunctionCallId
  output : Option DataPayload
  status : FunctionRunStatus
  outcome : Option FunctionRunOutcome
  attemptNumber : ℕ
  callMetadata : List UInt8
  requestError : Option DataPayload
  deriving DecidableEq

namespace FunctionRun

def key (r : FunctionRun) : FunctionRunKey :=
  ⟨r.namespace++"|"++r.application++"|"++r.requestId++"|"++r.id.get⟩

def keyApplicationVersion (r : FunctionRun) (applicationName : String) : String :=
  r.namespace++"|"++applicationName++"|"++r.version

def keyPrefixForRequest («namespace» application requestId : String) : String :=
  «namespace»++"|"++application++"|"++requestId++"|"

def requestCtxKey (r : FunctionRun) : RequestCtxKey :=
  ⟨r.namespace++"|"++r.application++"|"++r.requestId⟩

/-- Two versions of one run: what its keys are made of agrees. -/
def SameIdentity (r r' : FunctionRun) : Prop :=
  r'.id = r.id ∧ r'.namespace=r.namespace ∧ r'.application=r.application ∧ r'.requestId = r.requestId

lemma SameIdentity.key_eq {r r' : FunctionRun} (h : r.SameIdentity r') : r'.key=r.key := by
  obtain ⟨hi,hn,ha,hr⟩ := h
  simp only [key,hi,hn,ha,hr]

lemma SameIdentity.requestCtxKey_eq {r r' : FunctionRun} (h : r.SameIdentity r') :
    r'.requestCtxKey = r.requestCtxKey := by
  obtain ⟨-,hn,ha,hr⟩ := h
  simp only [requestCtxKey,hn,ha,hr]

lemma key_eq_requestCtxKey_append (r : FunctionRun) : r.key = ⟨r.requestCtxKey.get++"|"++r.id.get⟩ := by
  simp only [key,requestCtxKey]

end FunctionRun

structure RequestError where
  functionName : String
  payload : DataPayload
  deriving DecidableEq

structure RequestCtx where
  «namespace» : String
  applicationName : String
  applicationVersion : String
  requestId : String
  outcome : Option RequestOutcome
  requestError : Option RequestError
  functionRuns : Dict FunctionCallId FunctionRun
  functionCalls : Dict FunctionCallId FunctionCall

namespace RequestCtx

def keyFrom (ns cg id : String) : RequestCtxKey := ⟨ns++"|"++cg++"|"++id⟩

def key (c : RequestCtx) : RequestCtxKey := keyFrom c.namespace c.applicationName c.requestId

def keyPrefixForApplication («namespace» application : String) : String :=
  «namespace»++"|"++application++"|"

def pendingFunctionCalls (c : RequestCtx) : List FunctionCallId :=
  c.functionCalls.keys.filter fun id => id∉c.functionRuns

def isRequestCompleted (c : RequestCtx) : Bool :=
  if c.outcome.isSome then true
  else if c.functionCalls.entries.length≠c.functionRuns.entries.length then false
  else c.functionRuns.values.all fun r => r.status=.completed

end RequestCtx
end Indexify
