import Indexify.DataModel.Application

/-! Containers, pools and the server's view of executors. -/
namespace Indexify

structure SandboxId where
  get : String
  deriving DecidableEq

structure ContainerPoolId where
  get : String
  deriving DecidableEq

def ContainerPoolId.forFunction (app function version : String) : ContainerPoolId :=
  ⟨app++"|"++function++"|"++version⟩

structure ContainerPoolKey where
  «namespace» : String
  poolId : ContainerPoolId
  deriving DecidableEq

structure FunctionURI where
  «namespace» : String
  application : String
  function : String
  version : String
  deriving DecidableEq

def FunctionURI.ofRun (r : FunctionRun) : FunctionURI :=
  ⟨r.namespace,r.application,r.name,r.version⟩

inductive ContainerState
  | unknown
  | pending
  | running
  | terminated (reason : ContainerTerminationReason)
  deriving DecidableEq

def ContainerState.isTerminated : ContainerState → Bool
  | terminated _ => true
  | _ => false

inductive ContainerType
  | sandbox
  | function
  deriving DecidableEq

structure NetworkPolicy where
  allowInternetAccess : Bool
  allowOut : List String
  denyOut : List String
  deriving DecidableEq

structure Container where
  id : ContainerId
  «namespace» : String
  applicationName : String
  functionName : String
  version : String
  state : ContainerState
  resources : ContainerResources
  maxConcurrency : ℕ
  containerType : ContainerType
  image : Option String := none
  secretNames : List String := []
  timeoutSecs : ℕ := 0
  entrypoint : List String := []
  networkPolicy : Option NetworkPolicy := none
  sandboxId : Option SandboxId := none
  poolId : Option ContainerPoolId := none
  snapshotUri : Option String := none
  deriving DecidableEq

namespace Container

/-- Standalone sandbox containers have no pool. -/
def poolKey (c : Container) : Option ContainerPoolKey :=
  c.poolId.map fun id => ⟨c.namespace,id⟩

def functionUri (c : Container) : FunctionURI :=
  ⟨c.namespace,c.applicationName,c.functionName,c.version⟩

end Container

/-- A point on the server's monotonic clock. -/
abbrev Instant := ℕ

structure ContainerServerMetadata where
  executorId : ExecutorId
  functionContainer : Container
  desiredState : ContainerState
  containerType : ContainerType
  allocations : Finset AllocationId
  idleSince : Option Instant
  deriving DecidableEq

namespace ContainerServerMetadata

def isTerminated (m : ContainerServerMetadata) : Bool := m.desiredState.isTerminated

/-- Only function containers without running allocations are vacuumed. -/
def canBeRemoved (m : ContainerServerMetadata) : Bool :=
  m.containerType = .function && m.allocations = ∅

end ContainerServerMetadata

structure ExecutorServerMetadata where
  executorId : ExecutorId
  functionContainerIds : Finset ContainerId
  freeResources : HostResources
  resourceClaims : Dict ContainerId ContainerResources

namespace ExecutorServerMetadata

/-- A failing release keeps the claim but has already dropped the container id. -/
def removeContainer (e : ExecutorServerMetadata) (c : Container) :
    ExecutorServerMetadata × Except ResourceError Unit :=
  let e := {e with functionContainerIds := e.functionContainerIds.erase c.id}
  match e.resourceClaims.lookup c.id with
  | none => ({e with resourceClaims := e.resourceClaims.erase c.id},.ok ())
  | some claim =>
    match e.freeResources.free claim with
    | (free,.error err) => ({e with freeResources := free},.error err)
    | (free,.ok ()) =>
      ({e with freeResources := free, resourceClaims := e.resourceClaims.erase c.id},.ok ())

/-- The id and the claim are recorded before the resources are consumed. -/
def addContainer (e : ExecutorServerMetadata) (c : Container) :
    ExecutorServerMetadata × Except ResourceError Unit :=
  let e := {e with functionContainerIds := insert c.id e.functionContainerIds}
  match e.resourceClaims.lookup c.id with
  | some _ => (e,.ok ())
  | none =>
    let r := e.freeResources.consumeFeResources c.resources
    ({e with resourceClaims := e.resourceClaims.insert c.id c.resources, freeResources := r.1},r.2)

def forceAddContainer (e : ExecutorServerMetadata) (c : Container) : ExecutorServerMetadata :=
  let e := {e with functionContainerIds := insert c.id e.functionContainerIds}
  match e.resourceClaims.lookup c.id with
  | some _ => e
  | none =>
    {e with
      resourceClaims := e.resourceClaims.insert c.id c.resources
      freeResources := e.freeResources.forceConsumeFeResources c.resources}

end ExecutorServerMetadata

structure FunctionAllowlist where
  «namespace» : Option String
  application : Option String
  function : Option String
  deriving DecidableEq

def FunctionAllowlist.matchesFunction (a : FunctionAllowlist) (ns app : String)
    (function : Function) : Bool :=
  a.namespace.all (· = ns) && a.application.all (· = app) && a.function.all (· = function.name)

structure ExecutorMetadata where
  id : ExecutorId
  functionAllowlist : Option (List FunctionAllowlist)
  labels : Dict String String
  containers : Dict ContainerId Container
  hostResources : HostResources
  tombstoned : Bool

namespace ExecutorMetadata

def isFunctionAllowed (e : ExecutorMetadata) (ns application : String) (function : Function) : Bool :=
  match e.functionAllowlist with
  | some list => list.any fun a => a.matchesFunction ns application function
  | none => true

def isNamespaceAllowed (e : ExecutorMetadata) (ns : String) : Bool :=
  match e.functionAllowlist with
  | some list => list.any fun a => a.namespace = some ns
  | none => true

end ExecutorMetadata

inductive ContainerPoolType
  | function
  | sandbox
  deriving DecidableEq

structure ContainerPool where
  id : ContainerPoolId
  «namespace» : String
  poolType : ContainerPoolType
  image : String
  resources : ContainerResources
  entrypoint : Option (List String)
  networkPolicy : Option NetworkPolicy
  secretNames : List String
  timeoutSecs : ℕ
  minContainers : Option ℕ
  maxContainers : Option ℕ
  bufferContainers : Option ℕ
  deriving DecidableEq

namespace ContainerPool

def key (p : ContainerPool) : ContainerPoolKey := ⟨p.namespace,p.id⟩

def isFunctionPool (p : ContainerPool) : Bool := p.poolType = .function

end ContainerPool
end Indexify
