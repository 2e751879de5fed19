import Indexify.Library.Index
import Indexify.Library.Tally
import Indexify.StateStore.InMemoryState

/-! The sandboxes of the in-memory state, the indexes kept beside them and the snapshots. Every
index is changed by hand, in the payload that changes a sandbox or in the loop that applies the
sandboxes of a scheduler update. -/
namespace Indexify

/-- Sandboxes have no placement constraints. -/
def ResourceProfile.fromContainerResources (resources : ContainerResources) : ResourceProfile where
  cpuMsPerSec := resources.cpuMsPerSec
  memoryMb := resources.memoryMb
  diskMb := resources.ephemeralDiskMb
  gpuCount := (resources.gpu.map fun g => g.count).getD 0
  gpuModel := resources.gpu.map fun g => g.model
  placementConstraints := []

namespace Sandbox
variable (sandbox : Sandbox)

/-- Pending, and not merely waiting for the container it already has. -/
def awaitsAllocation : Bool :=
  match sandbox.status with
  | .pending reason => reason≠.waitingForContainer
  | _ => false

def profile : ResourceProfile := .fromContainerResources sandbox.resources

def pendingProfile : Option ResourceProfile :=
  if sandbox.awaitsAllocation then some sandbox.profile else none

lemma pendingProfile_of_not_pending {sandbox : Sandbox} (h : sandbox.status.isPending=false) :
    sandbox.pendingProfile = none := by
  unfold pendingProfile awaitsAllocation
  cases hs : sandbox.status <;> simp [hs,SandboxStatus.isPending] at h ⊢

def liveExecutor : Option ExecutorId :=
  if sandbox.status=.terminated then none else sandbox.executorId

def liveContainer : Option ContainerId :=
  if sandbox.status=.terminated then none else sandbox.containerId

end Sandbox

structure SandboxState where
  sandboxes : Dict SandboxKey Sandbox := ∅
  sandboxesById : Index String SandboxKey := ∅
  sandboxByContainer : Dict ContainerId SandboxKey := ∅
  sandboxesByExecutor : Dict ExecutorId (Finset SandboxKey) := ∅
  pendingSandboxes : Finset SandboxKey := ∅
  pendingSandboxesByProfile : Index ResourceProfile SandboxKey := ∅
  pendingSandboxProfile : Dict SandboxKey ResourceProfile := ∅
  pendingResources : ResourceProfileHistogram := ∅
  snapshots : Dict SnapshotKey Snapshot := ∅

namespace SandboxState
variable (m : SandboxState)
variable (key : SandboxKey)

def addPendingSandbox (profile : ResourceProfile) : SandboxState :=
  {m with
    pendingSandboxes := insert key m.pendingSandboxes
    pendingSandboxesByProfile := m.pendingSandboxesByProfile.add profile key
    pendingSandboxProfile := m.pendingSandboxProfile.insert key profile
    pendingResources := m.pendingResources.increment profile}

def removePendingSandbox : SandboxState :=
  let m' := {m with pendingSandboxes := m.pendingSandboxes.erase key}
  match m.pendingSandboxProfile.lookup key with
  | some profile =>
    {m' with
      pendingSandboxProfile := m.pendingSandboxProfile.erase key
      pendingSandboxesByProfile := m.pendingSandboxesByProfile.remove profile key
      pendingResources := m.pendingResources.decrement profile}
  | none => m'

def onExecutor (id : ExecutorId) : Finset SandboxKey :=
  (m.sandboxesByExecutor.lookup id).getD ∅

def store (sandbox : Sandbox) : SandboxState :=
  {m with
    sandboxes := m.sandboxes.insert key sandbox
    sandboxesById := m.sandboxesById.add sandbox.id.get key}

def linkContainer : Option ContainerId → SandboxState
  | some id => {m with sandboxByContainer := m.sandboxByContainer.insert id key}
  | none => m

def linkExecutor : Option ExecutorId → SandboxState
  | some id => {m with
      sandboxesByExecutor := m.sandboxesByExecutor.insert id (insert key (m.onExecutor id))}
  | none => m

def link (sandbox : Sandbox) : SandboxState :=
  (m.linkContainer key sandbox.containerId).linkExecutor key sandbox.executorId

def unlinkContainer : Option ContainerId → SandboxState
  | some id => {m with sandboxByContainer := m.sandboxByContainer.erase id}
  | none => m

/-- The key leaves the set of the executor; `prune` says whether an empty set goes too. -/
def unlinkExecutor (prune : Bool) : Option ExecutorId → SandboxState
  | some id =>
    match m.sandboxesByExecutor.lookup id with
    | some keys => {m with
        sandboxesByExecutor :=
          if prune && keys.erase key = ∅ then m.sandboxesByExecutor.erase id
          else m.sandboxesByExecutor.insert id (keys.erase key)}
    | none => m
  | none => m

/-- A stored sandbox leaves the table and the indexes by container, executor and id. -/
def discard (old : Sandbox) (prune : Bool) : SandboxState :=
  let m := m.unlinkContainer old.containerId
  let m := m.unlinkExecutor key prune old.executorId
  {m with
    sandboxesById := m.sandboxesById.remove old.id.get key
    sandboxes := m.sandboxes.erase key}

def applySandbox (e : Sigma fun _ : SandboxKey => Sandbox) : SandboxState :=
  let wasPending := decide (e.1∈m.pendingSandboxes)
  match e.2.status with
  | .pending reason =>
    let m := m.store e.1 e.2
    let awaitingAlloc := decide (reason≠.waitingForContainer)
    let m := if wasPending && !awaitingAlloc then m.removePendingSandbox e.1
      else if !wasPending && awaitingAlloc then m.addPendingSandbox e.1 e.2.profile
      else m
    m.link e.1 e.2
  | .running =>
    let m := m.store e.1 e.2
    if wasPending then (m.removePendingSandbox e.1).link e.1 e.2 else m
  | .snapshotting _ => m.store e.1 e.2
  | .terminated =>
    let old := m.sandboxes.lookup e.1
    let m := if wasPending then m.removePendingSandbox e.1 else m
    match old with
    | some sandbox => m.discard e.1 sandbox true
    | none => m

def putSnapshot (e : Sigma fun _ : SnapshotKey => Snapshot) : SandboxState :=
  {m with snapshots := m.snapshots.insert e.1 e.2}

def applySchedulerUpdate (u : SchedulerUpdateRequest) : SandboxState :=
  u.updatedSnapshots.entries.foldl putSnapshot (u.updatedSandboxes.entries.foldl applySandbox m)

def createSandbox (sandbox : Sandbox) : SandboxState :=
  let key := SandboxKey.fromSandbox sandbox
  let m := m.store key sandbox
  if sandbox.status.isPending then m.addPendingSandbox key sandbox.profile else m

/-- The status is changed in place. -/
def snapshotSandbox (snapshot : Snapshot) : SandboxState :=
  let m := m.putSnapshot ⟨.fromSnapshot snapshot,snapshot⟩
  {m with sandboxes :=
    m.sandboxes.modify (.new snapshot.namespace snapshot.sandboxId.get) fun sandbox =>
      {sandbox with status := .snapshotting snapshot.id, snapshotId := some snapshot.id}}

/-- Snapshot ids are unique, so at most one entry is found. -/
def findSnapshot (id : SnapshotId) :
    Option (Sigma fun _ : SnapshotKey => Snapshot) := m.snapshots.entries.find? fun e => e.2.id=id

def completeSnapshot (id : SnapshotId) (uri : String) (sizeBytes : ℕ) : SandboxState :=
  match m.findSnapshot id with
  | none => m
  | some e =>
    let m := m.putSnapshot ⟨e.1,{e.2 with
      status := .completed, snapshotUri := some uri, sizeBytes := some sizeBytes}⟩
    let key := SandboxKey.new e.2.namespace e.2.sandboxId.get
    match m.sandboxes.lookup key with
    | none => m
    | some sandbox =>
      let m := if sandbox.status.isPending then m.removePendingSandbox key else m
      m.discard key sandbox false

/-- The sandbox is marked and stays in the table and in every index. -/
def failSnapshot (id : SnapshotId) (error : String) : SandboxState :=
  match m.findSnapshot id with
  | none => m
  | some e =>
    let m := m.putSnapshot ⟨e.1,{e.2 with status := .failed error}⟩
    {m with sandboxes := m.sandboxes.modify (.new e.2.namespace e.2.sandboxId.get) fun sandbox =>
      {sandbox with status := .terminated}}

def deleteSnapshot («namespace» : String) (id : SnapshotId) : SandboxState :=
  {m with snapshots := m.snapshots.erase (.new «namespace» id.get)}

/-- One row of the store: terminated sandboxes are left out. -/
def load (sandbox : Sandbox) : SandboxState :=
  if sandbox.status=.terminated then m
  else
    let key := SandboxKey.fromSandbox sandbox
    let m := if sandbox.awaitsAllocation then m.addPendingSandbox key sandbox.profile else m
    (m.link key sandbox).store key sandbox

/-- The state rebuilt from the rows of the store. -/
def new (sandboxes : List Sandbox) (snapshots : List Snapshot) : SandboxState :=
  snapshots.foldl (fun m snapshot => m.putSnapshot ⟨.fromSnapshot snapshot,snapshot⟩)
    (sandboxes.foldl load {})

end SandboxState
end Indexify
