import Indexify.Processor.FunctionRunCreator

/-! The messages of the executor protocol that carry reports, and their conversion to the data
model. Integers of enumerations are kept raw where the server keeps them raw. -/
namespace Indexify
namespace Proto

structure FunctionRef where
  «namespace» : Option String
  applicationName : Option String
  functionName : Option String
  applicationVersion : Option String
  deriving DecidableEq

structure DataPayload where
  uri : Option String
  encoding : Option Int
  contentType : Option String
  metadataSize : Option ℕ
  offset : Option ℕ
  size : Option ℕ
  sha256Hash : Option String
  id : Option String
  deriving DecidableEq

inductive FunctionArgSource
  | functionCallId (id : String)
  | inlineData (data : DataPayload)
  deriving DecidableEq

structure FunctionArg where
  source : Option FunctionArgSource
  deriving DecidableEq

structure FunctionCall where
  id : Option String
  target : Option FunctionRef
  args : List FunctionArg
  callMetadata : Option (List UInt8)
  deriving DecidableEq

structure ReduceOp where
  id : Option String
  collection : List FunctionArg
  reducer : Option FunctionRef
  callMetadata : Option (List UInt8)
  deriving DecidableEq

inductive Op
  | functionCall (call : FunctionCall)
  | reduce (op : ReduceOp)
  deriving DecidableEq

structure ExecutionPlanUpdate where
  op : Option Op
  deriving DecidableEq

structure ExecutionPlanUpdates where
  updates : List ExecutionPlanUpdate
  rootFunctionCallId : Option String
  deriving DecidableEq

structure FunctionCallRequest where
  «namespace» : Option String
  application : Option String
  requestId : Option String
  updates : Option ExecutionPlanUpdates
  sourceFunctionCallId : Option String
  deriving DecidableEq

inductive AllocationOutcomeCode
  | unknown
  | success
  | failure
  deriving DecidableEq

structure FunctionCallResult where
  «namespace» : Option String
  requestId : Option String
  functionCallId : Option String
  outcomeCode : Option AllocationOutcomeCode
  failureReason : Option Int
  returnValue : Option DataPayload
  requestError : Option DataPayload
  deriving DecidableEq

inductive LogEntry
  | callFunction (call : FunctionCallRequest)
  | functionCallResult (result : FunctionCallResult)
  deriving DecidableEq

structure AllocationLogEntry where
  allocationId : String
  clock : ℕ
  entry : Option LogEntry
  deriving DecidableEq

inductive ReturnValue
  | value (payload : DataPayload)
  | updates (updates : ExecutionPlanUpdates)
  deriving DecidableEq

structure AllocationCompleted where
  allocationId : String
  function : Option FunctionRef
  functionCallId : Option String
  requestId : Option String
  returnValue : Option ReturnValue
  executionDurationMs : Option ℕ
  deriving DecidableEq

structure AllocationFailed where
  allocationId : String
  reason : Int
  function : Option FunctionRef
  functionCallId : Option String
  requestId : Option String
  requestError : Option DataPayload
  executionDurationMs : Option ℕ
  containerId : Option String
  deriving DecidableEq

structure SequencedAllocationResult where
  seq : ℕ
  entry : Option AllocationLogEntry
  deriving DecidableEq

inductive AllocationOutcome
  | completed (completed : AllocationCompleted)
  | failed (failed : AllocationFailed)
  | empty
  deriving DecidableEq

inductive AllocationFailureReason
  | unknown
  | internalError
  | functionError
  | functionTimeout
  | requestError
  | allocationCancelled
  | containerTerminated
  | oom
  | constraintUnsatisfiable
  | executorRemoved
  | startupFailedInternalError
  | startupFailedFunctionError
  | startupFailedFunctionTimeout
  | startupFailedBadImage
  deriving DecidableEq

/-- A number outside the enumeration reads as unknown. -/
def AllocationFailureReason.ofI32 : Int → AllocationFailureReason
  | 1 => internalError
  | 2 => functionError
  | 3 => functionTimeout
  | 4 => requestError
  | 5 => allocationCancelled
  | 6 => containerTerminated
  | 7 => oom
  | 8 => constraintUnsatisfiable
  | 9 => executorRemoved
  | 10 => startupFailedInternalError
  | 11 => startupFailedFunctionError
  | 12 => startupFailedFunctionTimeout
  | 13 => startupFailedBadImage
  | _ => unknown

/-- The encoding name; a number outside the enumeration is refused. -/
def encodingName : Int → Except String String
  | 0 => .ok "application/octet-stream"
  | 1 => .ok "application/json"
  | 2 => .ok "text/plain"
  | 3 => .ok "application/python-pickle"
  | 4 => .ok "application/zip"
  | 5 => .ok "application/octet-stream"
  | n => .error ("unknown enumeration value "++toString n)

end Proto

def protoFailureReasonToInternal : Proto.AllocationFailureReason → FunctionRunFailureReason
  | .unknown => .unknown
  | .internalError => .internalError
  | .functionError => .functionError
  | .functionTimeout => .functionTimeout
  | .requestError => .requestError
  | .allocationCancelled => .functionRunCancelled
  | .containerTerminated => .functionExecutorTerminated
  | .oom => .outOfMemory
  | .constraintUnsatisfiable => .constraintUnsatisfiable
  | .executorRemoved => .executorRemoved
  | .startupFailedInternalError => .containerStartupInternalError
  | .startupFailedFunctionError => .containerStartupFunctionError
  | .startupFailedFunctionTimeout => .containerStartupFunctionTimeout
  | .startupFailedBadImage => .containerStartupBadImage

def protoFailureReasonToTerminationReason : Proto.AllocationFailureReason → ContainerTerminationReason
  | .startupFailedInternalError => .startupFailedInternalError
  | .startupFailedFunctionError => .startupFailedFunctionError
  | .startupFailedFunctionTimeout => .startupFailedFunctionTimeout
  | .startupFailedBadImage => .startupFailedBadImage
  | .oom => .oom
  | .functionTimeout => .functionTimeout
  | .functionError | .containerTerminated => .unhealthy
  | _ => .unknown

def require {α : Type} (message : String) : Option α → Except String α
  | some a => .ok a
  | none => .error message

lemma require_eq_ok {α : Type} {message : String} {o : Option α} {a : α} :
    require message o = .ok a ↔ o = some a := by
  cases o <;> simp [require]

structure BlobStore where
  urlScheme : String
  url : String
  deriving DecidableEq

/-- What the conversions read besides the message: the blob store of a namespace, the bucket
in an S3 url, and the ids that are generated for what has none, by its place in the message. -/
structure ConversionEnv where
  blobStore : String → BlobStore
  bucketNameFromS3Url : String → String
  nanoid : List ℕ → String

def stripStart (start url : String) : String :=
  if start.toList.isPrefixOf url.toList then
    String.ofList (url.toList.drop start.toList.length)
  else url

namespace ConversionEnv
variable (env : ConversionEnv)

def blobStoreUrlToPath (url : String) (store : BlobStore) : String :=
  if store.urlScheme = "file" then stripStart (store.urlScheme++":///") url
  else if store.urlScheme = "s3" then
    stripStart (store.urlScheme++"://"++env.bucketNameFromS3Url store.url++"/") url
  else "not supported blob store scheme: "++store.urlScheme

def prepareDataPayload (msg : Proto.DataPayload) (store : BlobStore) (place : List ℕ) :
    Except String DataPayload := do
  let uri ← require "uri is required" msg.uri
  let size ← require "size is required" msg.size
  let sha256Hash ← require "sha256_hash is required" msg.sha256Hash
  let outputEncoding ← require "encoding is required" msg.encoding
  let encoding ← Proto.encodingName outputEncoding
  let encoding :=
    match msg.contentType with
    | some contentType => if contentType = "" then encoding else contentType
    | none => encoding
  return {
    id := msg.id.getD (env.nanoid place)
    path := env.blobStoreUrlToPath uri store
    metadataSize := msg.metadataSize.getD 0
    offset := msg.offset.getD 0
    size := size
    sha256Hash := sha256Hash
    encoding := encoding }

def toInternalFunctionArg (arg : Proto.FunctionArg) (store : BlobStore) (place : List ℕ) :
    Except String FunctionArgs := do
  match ← require "source is required" arg.source with
  | .functionCallId id => return .functionRunOutput ⟨id⟩
  | .inlineData data => return .dataPayload (← env.prepareDataPayload data store place)

/-- The arguments in order, up to the first one that is refused. -/
def toInternalFunctionArgs (args : List Proto.FunctionArg) (store : BlobStore) (place : List ℕ) :
    Except String (List FunctionArgs) :=
  args.zipIdx.mapM fun (arg,i) => env.toInternalFunctionArg arg store (place++[i])

def toInternalFunctionCall (call : Proto.FunctionCall) (source : Option String)
    (place : List ℕ) : Except String FunctionCall := do
  let target ← require "target is required" call.target
  let ns ← require "namespace is required" target.namespace
  let id ← require "id is required" call.id
  let fnName ← require "function_name is required" target.functionName
  let inputs ← env.toInternalFunctionArgs call.args (env.blobStore ns) place
  return {
    functionCallId := ⟨id⟩
    inputs := inputs
    fnName := fnName
    callMetadata := call.callMetadata.getD []
    parentFunctionCallId := source.map FunctionCallId.mk }

def toInternalReduceOp (op : Proto.ReduceOp) (place : List ℕ) : Except String ReduceOperation := do
  let reducer ← require "reducer is required" op.reducer
  let ns ← require "namespace is required" reducer.namespace
  let id ← require "reduce op id is required" op.id
  let fnName ← require "function_name is required" reducer.functionName
  let callMetadata ← require "call_metadata is required" op.callMetadata
  let collection ← env.toInternalFunctionArgs op.collection (env.blobStore ns) place
  return {
    functionCallId := ⟨id⟩
    collection := collection
    fnName := fnName
    callMetadata := callMetadata }

def toInternalComputeOp (update : Proto.ExecutionPlanUpdate) (source : Option String)
    (place : List ℕ) : Except String ComputeOp := do
  match ← require "op is required" update.op with
  | .functionCall call => return .functionCall (← env.toInternalFunctionCall call source place)
  | .reduce op => return .reduce (← env.toInternalReduceOp op place)

def toGraphUpdates (updates : Proto.ExecutionPlanUpdates) (source : Option String) :
    Except String GraphUpdates := do
  let ops ← updates.updates.zipIdx.mapM fun (update,i) => env.toInternalComputeOp update source [i]
  return {
    graphUpdates := ops
    outputFunctionCallId := ⟨updates.rootFunctionCallId.getD (env.nanoid [])⟩ }

end ConversionEnv
end Indexify
