import Indexify.Dataplane.AllocationController

/-! The multipart uploads of allocations: what the preparation, the execution and the finalization
of an allocation ask of the blob store, next to the controller that spawns these tasks. The answers
of the store and the messages of the function executor are inputs. -/
namespace Indexify.Dataplane
open Proto (AllocationFailureReason)

inductive UploadOp
  | created
  | completed
  | aborted
  deriving DecidableEq

/-- One request about an upload of the allocation. A completion is entered when it succeeds. -/
structure UploadEntry where
  allocationId : String
  handle : MultipartUploadHandle
  op : UploadOp
  deriving DecidableEq

/-- The answer to the creation of an upload whose parts are then presigned. -/
inductive CreateAnswer
  | refused
  | unsigned (uploadId : String)
  | ready (uploadId : String)
  deriving DecidableEq

def completion (id : String) (handle : MultipartUploadHandle) (succeeds : Bool) : List UploadEntry :=
  if succeeds then [⟨id,handle,.completed⟩] else []

/-! ### Preparation -/

def prepareRequestErrorBlob (id uriPrefix : String) :
    CreateAnswer → List UploadEntry × Option MultipartUploadHandle
  | .refused => ([],none)
  | .unsigned uploadId =>
    let handle := ⟨uriPrefix++"."++id++".req_error",uploadId⟩
    ([⟨id,handle,.created⟩,⟨id,handle,.aborted⟩],none)
  | .ready uploadId =>
    let handle := ⟨uriPrefix++"."++id++".req_error",uploadId⟩
    ([⟨id,handle,.created⟩],some handle)

/-- The preparation fails if an argument cannot be presigned. -/
def prepareAllocation (id uriPrefix : String) (answer : CreateAnswer) (argsPresigned : Bool) :
    List UploadEntry × Option (Option MultipartUploadHandle) :=
  let blob := prepareRequestErrorBlob id uriPrefix answer
  (blob.1,if argsPresigned then some blob.2 else none)

/-! ### Execution -/

structure BlobRequest where
  id : Option String
  answer : CreateAnswer
  deriving DecidableEq

structure FunctionCallEntry where
  id : Option String
  argsBlob : Option FeBlob
  completes : Bool
  deriving DecidableEq

inductive StateOperation
  | prepareRead
  | prepareWrite (answer : CreateAnswer)
  | commitWrite (blob : Option FeBlob) (completes : Bool)
  deriving DecidableEq

structure StateOperationEntry where
  operationId : Option String
  stateKey : Option String
  operation : Option StateOperation
  deriving DecidableEq

/-- A state of the allocation that the function executor streams. -/
structure FeMessage where
  outputBlobRequests : List BlobRequest
  functionCalls : List FunctionCallEntry
  requestStateOperations : List StateOperationEntry
  deriving DecidableEq

def isUnreserved (b : UInt8) : Bool :=
  let c := Char.ofNat b.toNat
  b<128 && (c.isAlphanum || c == '-' || c == '_' || c == '.' || c == '~')

def hexDigit (n : ℕ) : Char := (Nat.digitChar n).toUpper

/-- The blob of a key of the request state; the key is percent-encoded. -/
def requestStateKeyBlobUri (uriPrefix stateKey : String) : String :=
  uriPrefix++"/state/"++String.ofList (stateKey.toUTF8.toList.flatMap fun b =>
    if isUnreserved b then [Char.ofNat b.toNat]
    else ['%',hexDigit (b.toNat / 16),hexDigit (b.toNat % 16)])

structure AllocationRunner where
  allocationId : String
  uriPrefix : String
  seenBlobIds : List String
  seenFunctionCallIds : List String
  pendingWriteOps : Dict String MultipartUploadHandle
  outputBlobHandles : List MultipartUploadHandle
  log : List UploadEntry

namespace AllocationRunner

def new (id uriPrefix : String) : AllocationRunner where
  allocationId := id
  uriPrefix := uriPrefix
  seenBlobIds := []
  seenFunctionCallIds := []
  pendingWriteOps := ∅
  outputBlobHandles := []
  log := []

variable (r : AllocationRunner)

def note (handle : MultipartUploadHandle) (op : UploadOp) : AllocationRunner :=
  {r with log := r.log++[⟨r.allocationId,handle,op⟩]}

def blobUri (blobId : String) : String :=
  r.uriPrefix++"."++r.allocationId++".output_"++blobId

/-- An upload whose parts cannot be presigned is not aborted here. -/
def createOutputBlob (blobId : String) : CreateAnswer → AllocationRunner
  | .refused => r
  | .unsigned uploadId => r.note ⟨r.blobUri blobId,uploadId⟩ .created
  | .ready uploadId =>
    {r.note ⟨r.blobUri blobId,uploadId⟩ .created with
      outputBlobHandles := r.outputBlobHandles++[⟨r.blobUri blobId,uploadId⟩]}

def reconcileOutputBlob (request : BlobRequest) : AllocationRunner :=
  let blobId := request.id.getD ""
  if blobId ≠ "" ∧ blobId∉r.seenBlobIds then
    ({r with seenBlobIds := r.seenBlobIds++[blobId]}).createOutputBlob blobId request.answer
  else r

/-- The args blob of a call is completed before the call is forwarded. -/
def completeArgsBlob (blob : FeBlob) (completes : Bool) : AllocationRunner :=
  match blob.id with
  | none => r
  | some blobId =>
    match r.outputBlobHandles.find? (fun h => h.uri = r.blobUri blobId) with
    | none => r
    | some handle =>
      if blob.etags.isEmpty then r
      else {r with log := r.log++completion r.allocationId handle completes}

def reconcileFunctionCall (call : FunctionCallEntry) : AllocationRunner :=
  let callId := call.id.getD ""
  if callId ≠ "" ∧ callId∉r.seenFunctionCallIds then
    let r := {r with seenFunctionCallIds := r.seenFunctionCallIds++[callId]}
    match call.argsBlob with
    | none => r
    | some blob => r.completeArgsBlob blob call.completes
  else r

def handlePrepareWrite (operationId stateUri : String) : CreateAnswer → AllocationRunner
  | .refused => r
  | .unsigned uploadId => (r.note ⟨stateUri,uploadId⟩ .created).note ⟨stateUri,uploadId⟩ .aborted
  | .ready uploadId =>
    {r.note ⟨stateUri,uploadId⟩ .created with
      pendingWriteOps := r.pendingWriteOps.insert operationId ⟨stateUri,uploadId⟩}

def handleCommitWrite (blob : Option FeBlob) (completes : Bool) : AllocationRunner :=
  match blob.bind FeBlob.id with
  | none => r
  | some writeOpId =>
    match r.pendingWriteOps.lookup writeOpId with
    | none => r
    | some handle =>
      {r with
        pendingWriteOps := r.pendingWriteOps.erase writeOpId
        log := r.log++completion r.allocationId handle completes}

def reconcileStateOperation (entry : StateOperationEntry) : AllocationRunner :=
  let operationId := entry.operationId.getD ""
  if operationId = "" then r
  else
    match entry.operation with
    | some (.prepareWrite answer) =>
      if operationId∈r.pendingWriteOps then r
      else
        r.handlePrepareWrite operationId
          (requestStateKeyBlobUri r.uriPrefix (entry.stateKey.getD "")) answer
    | some (.commitWrite blob completes) => r.handleCommitWrite blob completes
    | some .prepareRead | none => r

def reconcile (m : FeMessage) : AllocationRunner :=
  let r := m.outputBlobRequests.foldl reconcileOutputBlob r
  let r := m.functionCalls.foldl reconcileFunctionCall r
  m.requestStateOperations.foldl reconcileStateOperation r

def run (messages : List FeMessage) : AllocationRunner :=
  messages.foldl reconcile r

end AllocationRunner

inductive RunEnd
  | result (report : FeReport) (feResult : FeResult)
  | cancelled
  | failed (reason : AllocationFailureReason) (likelyFeCrash : Bool)
      (terminationReason : Option ContainerTerminationReason)

/-- The outcome takes the handles of the output blobs along; pending writes are dropped. -/
def RunEnd.outcome (handles : List MultipartUploadHandle) : RunEnd → ExecutionOutcome
  | .result report feResult => .completed report (some feResult) handles
  | .cancelled => .cancelled handles
  | .failed reason likelyFeCrash terminationReason =>
    .failed reason handles likelyFeCrash terminationReason

/-! ### Finalization -/

/-- The handle that a blob of the result is matched with, by the end of its URI. -/
def matchingHandle (handles : List MultipartUploadHandle) (blobId : String) :
    Option MultipartUploadHandle :=
  handles.find? fun h => (".output_"++blobId).toList <:+ h.uri.toList

def completeBlobFromFe (id : String) (blob : Option FeBlob) (handles : List MultipartUploadHandle)
    (completes : Bool) : List UploadEntry :=
  match blob with
  | none => []
  | some blob =>
    match blob.id with
    | none => []
    | some blobId =>
      match matchingHandle handles blobId with
      | none => []
      | some handle => if blob.etags.isEmpty then [] else completion id handle completes

/-- Output blobs that the result does not name are left as they are. -/
def completeOutputBlobs (id : String) (feResult : Option FeResult)
    (handles : List MultipartUploadHandle) (completes : Bool) : List UploadEntry :=
  match feResult with
  | none => handles.map fun h => ⟨id,h,.aborted⟩
  | some r => completeBlobFromFe id r.uploadedFunctionOutputsBlob handles completes

def finalizeRequestErrorBlob (id : String) (feResult : Option FeResult)
    (handle : MultipartUploadHandle) (completes : Bool) : List UploadEntry :=
  if feResult.any fun r => r.requestErrorOutput then
    let etags := (feResult.bind fun r => r.uploadedRequestErrorBlob).elim [] fun blob => blob.etags
    if etags.isEmpty then [⟨id,handle,.aborted⟩] else completion id handle completes
  else [⟨id,handle,.aborted⟩]

def finalizeAllocation (id : String) (ctx : FinalizationContext)
    (errorCompletes outputsCompletes : Bool) : List UploadEntry :=
  ctx.requestErrorBlobHandle.elim [] (fun handle =>
    finalizeRequestErrorBlob id ctx.feResult handle errorCompletes) ++
  completeOutputBlobs id ctx.feResult ctx.outputBlobHandles outputsCompletes

/-! ### The controller and its tasks -/

/-- The controller and the requests made to the blob store, in order. -/
structure Uploads where
  controller : AllocationController
  log : List UploadEntry

/-- A command or another event of the controller, or the work and the event of one of the three
tasks of an allocation. -/
inductive UploadEvent
  | command (e : ControllerEvent)
  | prepared (id uriPrefix : String) (answer : CreateAnswer) (argsPresigned : Bool)
  | executed (id uriPrefix : String) (messages : List FeMessage) (ending : RunEnd)
  | finalized (id : String) (ctx : FinalizationContext) (errorCompletes outputsCompletes : Bool)

namespace Uploads

def new (recovered : Dict String ManagedFE) : Uploads := ⟨.new recovered,[]⟩

/-- A task that is out does its work and delivers its event. -/
def deliver (u : Uploads) (task : Pending) (entries : List UploadEntry) (e : ControllerEvent) : Uploads :=
  if task∈u.controller.pending then ⟨u.controller.step e,u.log++entries⟩ else u

def step (u : Uploads) : UploadEvent → Uploads
  | .command (.prepared _ _) | .command (.executionFinished _ _)
  | .command (.finalizationFinished _ _ _) => u
  | .command e => {u with controller := u.controller.step e}
  | .prepared id uriPrefix answer argsPresigned =>
    let work := prepareAllocation id uriPrefix answer argsPresigned
    u.deliver (.prepare id) work.1 (.prepared id work.2)
  | .executed id uriPrefix messages ending =>
    let runner := (AllocationRunner.new id uriPrefix).run messages
    u.deliver (.execute id) runner.log
      (.executionFinished id (ending.outcome runner.outputBlobHandles))
  | .finalized id ctx errorCompletes outputsCompletes =>
    u.deliver (.finalize id ctx) (finalizeAllocation id ctx errorCompletes outputsCompletes)
      (.finalizationFinished id ctx true)

def run (u : Uploads) (es : List UploadEvent) : Uploads := es.foldl step u

end Uploads

/-! ### The books of the uploads -/

def opened (log : List UploadEntry) (id : String) (h : MultipartUploadHandle) : ℕ :=
  log.count ⟨id,h,.created⟩

def closed (log : List UploadEntry) (id : String) (h : MultipartUploadHandle) : ℕ :=
  log.count ⟨id,h,.completed⟩ + log.count ⟨id,h,.aborted⟩

end Indexify.Dataplane
