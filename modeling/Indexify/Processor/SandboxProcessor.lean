import Indexify.Processor.ContainerScheduler
import Indexify.StateStore.SandboxState

/-! Placement and termination of sandboxes. A sandbox is placed on a warm container of its pool, or
on a new container; one that could not be placed is recorded as blocked. -/
namespace Indexify

def SchedulerUpdateRequest.ofSandbox (key : SandboxKey) (sandbox : Sandbox) : SchedulerUpdateRequest :=
  {updatedSandboxes := (∅ : Dict SandboxKey Sandbox).insert key sandbox}

namespace SandboxProcessor

def setPendingReason (sandbox : Sandbox) (reason : SandboxPendingReason) : SchedulerUpdateRequest :=
  .ofSandbox (.fromSandbox sandbox) {sandbox with status := .pending reason}

def onContainer (sandbox : Sandbox) (status : SandboxStatus) (executorId : ExecutorId)
    (containerId : ContainerId) : Sandbox :=
  {sandbox with
    status := status
    executorId := some executorId
    containerId := some containerId}

def forgetBlocked (s : ContainerScheduler) (key : SandboxKey) : ContainerScheduler :=
  {s with blockedWork := s.blockedWork.removeSandbox key}

section
variable [HashOrder ContainerId] [HashOrder ExecutorId]

/-- A warm container that already runs makes the sandbox run at once. -/
def tryClaimFromPool (s : ContainerScheduler) (sandbox : Sandbox) (poolKey : ContainerPoolKey) :
    ContainerScheduler × Option SchedulerUpdateRequest :=
  match s.claimPoolContainer poolKey sandbox.id sandbox.timeoutSecs with
  | (s,none) => (s,none)
  | (s,some (containerId,executorId,containerUpdate)) =>
    let containerState := ((s.functionContainers.lookup containerId).map
      fun fc => fc.functionContainer.state).getD .unknown
    let status : SandboxStatus := if containerState=.running then .running
      else .pending .waitingForContainer
    let update := containerUpdate.extend (.ofSandbox (.fromSandbox sandbox)
      (onContainer sandbox status executorId containerId))
    (forgetBlocked s (.fromSandbox sandbox),some update)

end

section
variable [HashOrder ExecutorId]
variable (s : ContainerScheduler)

def blockSandbox (sandbox : Sandbox) (info : BlockingInfo) : ContainerScheduler :=
  {s with blockedWork := s.blockedWork.blockSandbox (.fromSandbox sandbox) info}

def recordBlockedSandbox (cache : FeasibilityCache) (sandbox : Sandbox) :
    ContainerScheduler × FeasibilityCache :=
  let (cache,eligible) := Placement.blockingClasses s (.ofSandbox sandbox.namespace) cache
  let s := {s with lastPlacement := none}
  (blockSandbox s sandbox ⟨eligible,eligible.isEmpty,sandbox.resources.memoryMb⟩,cache)

def poolAtCapacity (poolKey : ContainerPoolKey) : Bool :=
  match (s.getPool poolKey).bind fun pool => pool.maxContainers with
  | some max =>
    let (claimed,warm) := s.countPoolContainers poolKey
    max ≤ claimed+warm
  | none => false

/-- The container of the update that is not terminated; a creation always has one. -/
def placedContainer (update : SchedulerUpdateRequest) : Option (ExecutorId × ContainerId) :=
  (update.containers.values.find? fun fc => !fc.isTerminated).map
    fun fc => (fc.executorId,fc.functionContainer.id)

def createOnDemand (cache : FeasibilityCache) (sandbox : Sandbox)
    (snapshotUri : Option String) (draw : ContainerScheduler.Draw) :
    ContainerScheduler × FeasibilityCache × Except CreateError SchedulerUpdateRequest :=
  match s.createContainerForSandbox cache sandbox snapshotUri draw with
  | (s,cache,.ok (some containerUpdate)) =>
    let update := match placedContainer containerUpdate with
      | some (executorId,containerId) => SchedulerUpdateRequest.ofSandbox (.fromSandbox sandbox)
          (onContainer sandbox (.pending .waitingForContainer) executorId containerId)
      | none => {}
    let s := s.applyContainerUpdate containerUpdate
    (forgetBlocked s (.fromSandbox sandbox),cache,.ok (update.extend containerUpdate))
  | (s,cache,.ok none) =>
    let reason := if s.hasExecutors then .noResourcesAvailable else .noExecutorsAvailable
    let (s,cache) := recordBlockedSandbox s cache sandbox
    (s,cache,.ok (setPendingReason sandbox reason))
  | (s,cache,.error (.constraintUnsatisfiable ..)) =>
    (s,cache,.ok (.ofSandbox (.fromSandbox sandbox) {sandbox with
      status := .terminated, outcome := some (.failure .constraintUnsatisfiable)}))
  | (s,cache,.error e) => (s,cache,.error e)

variable [HashOrder ContainerId]

/-- The branch of a sandbox with a pool: a warm container, a full pool, or a container on demand. -/
def allocateFromPool (s : ContainerScheduler) (cache : FeasibilityCache) (sandbox : Sandbox)
    (poolKey : ContainerPoolKey) (snapshotUri : Option String) (draw : ContainerScheduler.Draw) :
    ContainerScheduler × FeasibilityCache × Except CreateError SchedulerUpdateRequest :=
  match tryClaimFromPool s sandbox poolKey with
  | (s,some update) => (s,cache,.ok update)
  | (s,none) =>
    if poolAtCapacity s poolKey then
      let s := {s with lastPlacement := none}
      let (s,cache) := recordBlockedSandbox s cache sandbox
      (s,cache,.ok (setPendingReason sandbox .poolAtCapacity))
    else createOnDemand s cache sandbox snapshotUri draw

def snapshotUri (m : SandboxState) (sandbox : Sandbox) : Option String :=
  sandbox.snapshotId.bind fun id =>
    (m.snapshots.lookup (.new sandbox.namespace id.get)).bind fun snapshot => snapshot.snapshotUri

def allocateSandbox (m : SandboxState) (s : ContainerScheduler) (cache : FeasibilityCache)
    (sandbox : Sandbox) (draw : ContainerScheduler.Draw) :
    ContainerScheduler × FeasibilityCache × Except CreateError SchedulerUpdateRequest :=
  if !sandbox.status.isPending || sandbox.hasScheduled then (s,cache,.ok {})
  else
    match sandbox.poolId with
    | some poolId => allocateFromPool s cache sandbox ⟨sandbox.namespace,poolId⟩
        (snapshotUri m sandbox) draw
    | none => createOnDemand s cache sandbox (snapshotUri m sandbox) draw

def allocateSandboxByKey (m : SandboxState) (s : ContainerScheduler) (cache : FeasibilityCache)
    («namespace» sandboxId : String) (draw : ContainerScheduler.Draw) :
    ContainerScheduler × FeasibilityCache × Except CreateError SchedulerUpdateRequest :=
  match m.sandboxes.lookup (.new «namespace» sandboxId) with
  | some sandbox => allocateSandbox m s cache sandbox draw
  | none => (s,cache,.ok {})

end

/-- The container of a running or pending sandbox is terminated too. -/
def terminateContainerOf (s : ContainerScheduler) (sandbox : Sandbox) :
    ContainerScheduler × Option SchedulerUpdateRequest :=
  match sandbox.containerId with
  | some id =>
    if sandbox.status=.running ∨ sandbox.status.isPending then s.terminateContainer id
    else (s,none)
  | none => (s,none)

def terminateSandbox (m : SandboxState) (s : ContainerScheduler) («namespace» sandboxId : String) :
    ContainerScheduler × SchedulerUpdateRequest :=
  let key := SandboxKey.new «namespace» sandboxId
  match m.sandboxes.lookup key with
  | none => (s,{})
  | some sandbox =>
    let (s,containerUpdate) := terminateContainerOf s sandbox
    (forgetBlocked s key,(containerUpdate.getD {}).extend (.ofSandbox key {sandbox with
      status := .terminated, outcome := some (.success .userTerminated)}))

/-- The sandboxes of the executor that have a snapshot in progress, with the snapshot failed. -/
def failSnapshotOn (m : SandboxState) (executorId : ExecutorId) (error : String)
    (update : SchedulerUpdateRequest) (snapshot : Snapshot) : SchedulerUpdateRequest :=
  let key := SandboxKey.new snapshot.namespace snapshot.sandboxId.get
  match m.sandboxes.lookup key with
  | none => update
  | some sandbox =>
    if sandbox.executorId = some executorId then
      {update with
        updatedSnapshots := update.updatedSnapshots.insert (.fromSnapshot snapshot)
          {snapshot with status := .failed error}
        updatedSandboxes := update.updatedSandboxes.insert key {sandbox with status := .terminated}}
    else update

def failInProgressSnapshotsForExecutor (m : SandboxState) (executorId : ExecutorId)
    (error : String) : SchedulerUpdateRequest :=
  (m.snapshots.values.filter fun snapshot => snapshot.status=.inProgress).foldl
    (failSnapshotOn m executorId error) {}

end SandboxProcessor
end Indexify
