import Indexify.DataModel.Containers

/-! Sandboxes and filesystem snapshots. -/
namespace Indexify

structure SandboxKey where
  get : String
  deriving DecidableEq

structure SnapshotId where
  get : String
  deriving DecidableEq

structure SnapshotKey where
  get : String
  deriving DecidableEq

inductive SandboxPendingReason
  | scheduling
  | waitingForContainer
  | noExecutorsAvailable
  | noResourcesAvailable
  | poolAtCapacity
  deriving DecidableEq

inductive SandboxStatus
  | pending (reason : SandboxPendingReason)
  | running
  | terminated
  | snapshotting (snapshotId : SnapshotId)
  deriving DecidableEq

def SandboxStatus.isPending : SandboxStatus → Bool
  | pending _ => true
  | _ => false

inductive SandboxSuccessReason
  | unknown
  | userTerminated
  | timeout
  deriving DecidableEq

inductive SandboxFailureReason
  | unknown
  | internalError
  | constraintUnsatisfiable
  | executorRemoved
  | outOfMemory
  | containerStartupFailed
  | containerTerminated (reason : ContainerTerminationReason)
  | poolDeleted
  deriving DecidableEq

inductive SandboxOutcome
  | unknown
  | success (reason : SandboxSuccessReason)
  | failure (reason : SandboxFailureReason)
  deriving DecidableEq

structure Sandbox where
  id : SandboxId
  «namespace» : String
  image : String
  status : SandboxStatus := .pending .scheduling
  outcome : Option SandboxOutcome := none
  resources : ContainerResources
  secretNames : List String := []
  timeoutSecs : ℕ := 0
  executorId : Option ExecutorId := none
  entrypoint : Option (List String) := none
  networkPolicy : Option NetworkPolicy := none
  poolId : Option ContainerPoolId := none
  containerId : Option ContainerId := none
  snapshotId : Option SnapshotId := none
  deriving DecidableEq

inductive SnapshotStatus
  | inProgress
  | completed
  | failed (error : String)
  deriving DecidableEq

structure Snapshot where
  id : SnapshotId
  «namespace» : String
  sandboxId : SandboxId
  status : SnapshotStatus := .inProgress
  snapshotUri : Option String := none
  sizeBytes : Option ℕ := none
  uploadUri : Option String := none
  deriving DecidableEq

namespace SnapshotKey

def new («namespace» snapshotId : String) : SnapshotKey := ⟨«namespace»++"|"++snapshotId⟩

def fromSnapshot (snapshot : Snapshot) : SnapshotKey := new snapshot.namespace snapshot.id.get

end SnapshotKey

namespace SandboxKey

def new («namespace» sandboxId : String) : SandboxKey := ⟨«namespace»++"|"++sandboxId⟩

def fromSandbox (sandbox : Sandbox) : SandboxKey := new sandbox.namespace sandbox.id.get

end SandboxKey

/-- A scheduled sandbox waits for its container and is not placed again. -/
def Sandbox.hasScheduled (sandbox : Sandbox) : Bool := sandbox.containerId.isSome

/-- A direct sandbox and its container share one id. -/
def ContainerId.ofSandbox (id : SandboxId) : ContainerId := ⟨id.get⟩

end Indexify
