import Indexify.ExecutorApi.Reports

/-! What an executor answers to commands, and how a heartbeat processes the answers. -/
namespace Indexify
namespace Proto

inductive Response
  | containerStarted (containerId : String)
  | containerTerminated (containerId : String) (reason : Int)
  | allocationScheduled (allocationId : String)
  | snapshotCompleted (containerId snapshotId snapshotUri : String) (sizeBytes : ℕ)
  | snapshotFailed (containerId snapshotId errorMessage : String)
  deriving DecidableEq

structure CommandResponse where
  commandSeq : Option ℕ
  response : Option Response
  deriving DecidableEq

end Proto

/-- A number outside the enumeration reads as unknown. -/
def protoContainerTerminationToInternal : Int → ContainerTerminationReason
  | 1 => .startupFailedInternalError
  | 2 => .startupFailedFunctionError
  | 3 => .startupFailedFunctionTimeout
  | 4 => .unhealthy
  | 5 => .internalError
  | 6 => .functionTimeout
  | 7 => .functionCancelled
  | 8 => .oom
  | 9 => .processCrash
  | 10 => .startupFailedBadImage
  | _ => .unknown

inductive SnapshotRequest
  | completeSnapshot (snapshotId snapshotUri : String) (sizeBytes : ℕ)
  | failSnapshot (snapshotId error : String)
  deriving DecidableEq

def handleSnapshotCompleted (snapshotId snapshotUri : String) (sizeBytes : ℕ) :
    Except String SnapshotRequest :=
  if snapshotId = "" then .error "SnapshotCompleted: snapshot_id is empty"
  else if snapshotUri = "" then .error "SnapshotCompleted: snapshot_uri is empty"
  else .ok (.completeSnapshot snapshotId snapshotUri sizeBytes)

def handleSnapshotFailed (snapshotId errorMessage : String) : Except String SnapshotRequest :=
  if snapshotId = "" then .error "SnapshotFailed: snapshot_id is empty"
  else .ok (.failSnapshot snapshotId errorMessage)

/-- What the answers of a heartbeat amount to. Snapshots are written one by one, the events of
containers together at the end. -/
structure ResponseBatch where
  snapshots : List SnapshotRequest := []
  containerStateUpdates : List ContainerStateUpdateInfo := []
  containerStartedIds : List ContainerId := []
  failedItems : ℕ := 0
  deriving DecidableEq

namespace ResponseBatch

def addSnapshot (b : ResponseBatch) : Except String SnapshotRequest → ResponseBatch
  | .ok request => {b with snapshots := b.snapshots++[request]}
  | .error e =>
    if isMalformedPayloadError e then b else {b with failedItems := b.failedItems+1}

/-- An answer without content is skipped, and an allocation that was scheduled is only logged. -/
def add (b : ResponseBatch) (resp : Proto.CommandResponse) : ResponseBatch :=
  match resp.response with
  | none => b
  | some (.allocationScheduled _) => b
  | some (.containerTerminated containerId reason) =>
    {b with containerStateUpdates := b.containerStateUpdates ++
      [⟨⟨containerId⟩,some (protoContainerTerminationToInternal reason)⟩]}
  | some (.containerStarted containerId) =>
    {b with containerStartedIds := b.containerStartedIds++[⟨containerId⟩]}
  | some (.snapshotCompleted _ snapshotId snapshotUri sizeBytes) =>
    b.addSnapshot (handleSnapshotCompleted snapshotId snapshotUri sizeBytes)
  | some (.snapshotFailed _ snapshotId errorMessage) =>
    b.addSnapshot (handleSnapshotFailed snapshotId errorMessage)

end ResponseBatch

def processCommandResponses (s : ApiState) (executorId : ExecutorId)
    (responses : List Proto.CommandResponse) : ApiState × ResponseBatch :=
  let batch := responses.foldl ResponseBatch.add {}
  if batch.containerStateUpdates = [] ∧ batch.containerStartedIds = [] then (s,batch)
  else (s.write (.dataplaneResults
    ⟨executorId,[],batch.containerStateUpdates,batch.containerStartedIds⟩),batch)

/-- All reports of a heartbeat: the answers to commands come first. -/
def processHeartbeat (env : ApiEnv) (s : ApiState) (executorId : ExecutorId) (executorKnown : Bool)
    (responses : List Proto.CommandResponse) (outcomes : List Proto.AllocationOutcome)
    (entries : List Proto.AllocationLogEntry) : ApiState × List SnapshotRequest × Except String Unit :=
  if executorKnown then
    let (s,batch) := processCommandResponses s executorId responses
    let (s,n) := processAllocationLogEntries env executorId s entries
    let (s,k) := processAllocationOutcomes env executorId s outcomes
    let failedItems := batch.failedItems+n+k
    if 0<failedItems then
      (s,batch.snapshots,.error ("heartbeat ingestion failed for "++toString failedItems ++
        " report item(s)"))
    else (s,batch.snapshots,.ok ())
  else (s,[],.ok ())

end Indexify
