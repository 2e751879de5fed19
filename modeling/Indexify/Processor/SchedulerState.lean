import Mathlib.Data.Prod.Lex
import Indexify.Scheduler.Blocked
import Indexify.StateStore.Requests

/-! The state of the container scheduler: containers and executors with the indexes kept beside
them. -/
namespace Indexify

instance : LinearOrder ContainerId :=
  LinearOrder.lift' ContainerId.get fun a b h => by cases a; cases b; cases h; rfl

instance : LinearOrder ExecutorId :=
  LinearOrder.lift' ExecutorId.get fun a b h => by cases a; cases b; cases h; rfl

/-- Result of executor selection. -/
structure PlacementResult where
  executorId : Option ExecutorId
  eligibleClasses : List ExecutorClass
  deriving DecidableEq

structure ContainerScheduler where
  executors : Dict ExecutorId ExecutorMetadata := ∅
  containersByFunctionUri : Index FunctionURI ContainerId := ∅
  functionContainers : Dict ContainerId ContainerServerMetadata := ∅
  executorStates : Dict ExecutorId ExecutorServerMetadata := ∅
  containersByPool : Index ContainerPoolKey ContainerId := ∅
  warmContainersByPool : Index ContainerPoolKey ContainerId := ∅
  functionPools : Dict ContainerPoolKey ContainerPool := ∅
  sandboxPools : Dict ContainerPoolKey ContainerPool := ∅
  dirtyPools : Finset ContainerPoolKey := ∅
  blockedPools : Finset ContainerPoolKey := ∅
  executorsByFreeMemory : Finset (ℕ ×ₗ ExecutorId) := ∅
  executorClasses : Dict ExecutorId ExecutorClass := ∅
  executorsByClass : Index ExecutorClass ExecutorId := ∅
  blockedWork : BlockedWorkTracker := {}
  idleContainers : Finset (Instant ×ₗ ContainerId) := ∅
  reapedContainers : Dict FunctionURI (List ContainerId) := ∅
  lastPlacement : Option PlacementResult := none

namespace ContainerScheduler
variable (s : ContainerScheduler)
variable (poolKey : ContainerPoolKey)

def markPoolDirty : ContainerScheduler :=
  {s with blockedPools := s.blockedPools.erase poolKey, dirtyPools := insert poolKey s.dirtyPools}

def getPool (key : ContainerPoolKey) : Option ContainerPool :=
  (s.functionPools.lookup key).or (s.sandboxPools.lookup key)

def poolContainerCount : ℕ :=
  (s.containersByPool.ids poolKey).card

def totalContainersForFunction (fnUri : FunctionURI) : ℕ :=
  (s.containersByFunctionUri.ids fnUri).card

/-- Claimed and warm containers of a pool. -/
def countPoolContainers : ℕ × ℕ :=
  let warm := (s.warmContainersByPool.ids poolKey).card
  (s.poolContainerCount poolKey-warm,warm)

def hasExecutors : Bool := !s.executorStates.entries.isEmpty

variable (id : ExecutorId)

/-- An executor is indexed while it has both memory and CPU left. -/
def insertResourceIndex (resources : HostResources) : ContainerScheduler :=
  if resources.memoryBytes > 0 ∧ resources.cpuMsPerSec > 0 then
    {s with executorsByFreeMemory :=
        insert (toLex (resources.memoryBytes,id)) s.executorsByFreeMemory}
  else s

def removeResourceIndex (resources : HostResources) : ContainerScheduler :=
  {s with executorsByFreeMemory :=
      s.executorsByFreeMemory.erase (toLex (resources.memoryBytes,id))}

/-- The state of an executor is changed in place: its index entry goes first, and whether a new
one follows is up to the caller. -/
def swapState (old new : ExecutorServerMetadata) : ContainerScheduler :=
  let s := s.removeResourceIndex id old.freeResources
  {s with executorStates := s.executorStates.insert id new}

def setExecutorState (state : ExecutorServerMetadata) : ContainerScheduler :=
  let s := match s.executorStates.lookup id with
    | some old => s.removeResourceIndex id old.freeResources
    | none => s
  let s := s.insertResourceIndex id state.freeResources
  {s with executorStates := s.executorStates.insert id state}

def removeExecutorState : ContainerScheduler :=
  match s.executorStates.lookup id with
  | some old =>
    let s := {s with executorStates := s.executorStates.erase id}
    s.removeResourceIndex id old.freeResources
  | none => s

def removeIdle (idleSince : Option Instant) (id : ContainerId) : ContainerScheduler :=
  match idleSince with
  | some t => {s with idleContainers := s.idleContainers.erase (toLex (t,id))}
  | none => s

def removeFromUri (fnUri : FunctionURI) (id : ContainerId) : ContainerScheduler :=
  {s with containersByFunctionUri := s.containersByFunctionUri.removeAt (some fnUri) id}

def removeFromPool (poolKey : Option ContainerPoolKey)
    (id : ContainerId) : ContainerScheduler :=
  {s with containersByPool := s.containersByPool.removeAt poolKey id}

def removeFromWarm (poolKey : Option ContainerPoolKey)
    (id : ContainerId) : ContainerScheduler :=
  {s with warmContainersByPool := s.warmContainersByPool.removeAt poolKey id}

def dropWarm : ContainerScheduler :=
  {s with warmContainersByPool := s.warmContainersByPool.drop poolKey}

def markDirty (poolKey : Option ContainerPoolKey) : ContainerScheduler :=
  match poolKey with
  | some key => s.markPoolDirty key
  | none => s

variable (id : ContainerId)

/-- A stored container is changed in place: no index is looked at. -/
def setContainer (fc : ContainerServerMetadata) : ContainerScheduler :=
  {s with functionContainers := s.functionContainers.insert id fc}

def wasWarm : Bool :=
  match s.functionContainers.lookup id with
  | some old => old.functionContainer.sandboxId.isNone && !old.isTerminated
  | none => false

variable (metadata : ContainerServerMetadata)

/-- The old idle entry goes, and a function container that is idle and alive gets a new one. -/
def reindexIdle : ContainerScheduler :=
  let s := s.removeIdle ((s.functionContainers.lookup id).bind ContainerServerMetadata.idleSince) id
  match metadata.idleSince with
  | some t =>
    if !metadata.isTerminated && metadata.containerType = .function then
      {s with idleContainers := insert (toLex (t,id)) s.idleContainers}
    else s
  | none => s

/-- The container is stored, and listed by function, by pool and among the warm containers of
its pool exactly while it is alive and, for the last, unclaimed. -/
def fileContainer : ContainerScheduler :=
  let poolKey := metadata.functionContainer.poolKey
  let fnUri := metadata.functionContainer.functionUri
  let unlisted := if s.wasWarm id then s.warmContainersByPool.removeAt poolKey id
    else s.warmContainersByPool
  if metadata.isTerminated then
    {s with
        functionContainers := s.functionContainers.insert id metadata
        containersByFunctionUri := s.containersByFunctionUri.removeAt (some fnUri) id
        containersByPool := s.containersByPool.removeAt poolKey id
        warmContainersByPool := unlisted}
  else
    {s with
        functionContainers := s.functionContainers.insert id metadata
        containersByFunctionUri := s.containersByFunctionUri.addAt (some fnUri) id
        containersByPool := s.containersByPool.addAt poolKey id
        warmContainersByPool :=
          if metadata.functionContainer.sandboxId.isNone then
            s.warmContainersByPool.addAt poolKey id
          else unlisted}

def updateContainerIndices : ContainerScheduler :=
  ((s.reindexIdle id metadata).fileContainer id metadata).markDirty
    metadata.functionContainer.poolKey

def removeContainerFromIndices : ContainerScheduler :=
  match s.functionContainers.lookup id with
  | some fc =>
    let s := {s with functionContainers := s.functionContainers.erase id}
    let s := s.removeIdle fc.idleSince id
    let s := s.removeFromUri fc.functionContainer.functionUri id
    let s := s.removeFromPool fc.functionContainer.poolKey id
    let s := s.removeFromWarm fc.functionContainer.poolKey id
    s.markDirty fc.functionContainer.poolKey
  | none => s

def updateEntry (e : Sigma fun _ : ContainerId => ContainerServerMetadata) : ContainerScheduler :=
  s.updateContainerIndices e.1 e.2

def setExecutorEntry
    (e : Sigma fun _ : ExecutorId => ExecutorServerMetadata) : ContainerScheduler :=
  s.setExecutorState e.1 e.2

def applyContainerUpdate (u : SchedulerUpdateRequest) : ContainerScheduler :=
  let s := u.containers.entries.foldl updateEntry s
  let s := u.updatedExecutorStates.entries.foldl setExecutorEntry s
  u.removeExecutors.foldl removeExecutorState s

/-- Tombstone, allowlist and, for a function, its label constraints. -/
def executorMatchesConstraints (executor : ExecutorMetadata) («namespace» application : String)
    (function : Option Function) : Bool :=
  if executor.tombstoned then false
  else
    match function with
    | some f =>
      executor.isFunctionAllowed «namespace» application f &&
        f.placementConstraints.matches executor.labels
    | none => executor.isNamespaceAllowed «namespace»

end ContainerScheduler
end Indexify
