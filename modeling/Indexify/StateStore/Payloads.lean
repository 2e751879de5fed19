import Indexify.StateStore.Requests

/-! The payloads that change applications, executors, sandboxes, pools and requests. -/
namespace Indexify

structure Application where
  «namespace» : String
  name : String
  version : String
  functions : Dict String Function
  state : ApplicationState

namespace Application

def keyFrom («namespace» name : String) : String := «namespace»++"|"++name

def key (a : Application) : String := keyFrom a.namespace a.name

def toVersion (a : Application) : ApplicationVersion where
  «namespace» := a.namespace
  name := a.name
  version := a.version
  functions := a.functions
  state := a.state

end Application

structure CreateOrUpdateApplicationRequest where
  «namespace» : String
  application : Application
  upgradeRequestsToCurrentVersion : Bool
  containerPools : List ContainerPool

inductive Payload
  | invokeApplication (ctx : RequestCtx)
  | createOrUpdateApplication (req : CreateOrUpdateApplicationRequest)
  | upsertExecutor (executor : ExecutorMetadata)
  | deregisterExecutor (executorId : ExecutorId)
  | createSandbox (sandbox : Sandbox)
  | createContainerPool (pool : ContainerPool)
  | updateContainerPool (pool : ContainerPool)
  | schedulerUpdate (update : SchedulerUpdateRequest)
  | deleteApplication («namespace» name : String)
  | deleteRequest («namespace» application requestId : String)
  | tombstoneContainerPool («namespace» : String) (poolId : ContainerPoolId)
  | deleteContainerPool («namespace» : String) (poolId : ContainerPoolId)

end Indexify
