import Indexify.Processor.ContainerScheduler

/-! Sequences of scheduler operations. A creation is followed by the update it returns, as its
callers do. -/
namespace Indexify.ContainerScheduler

inductive Op
  | payload (payload : Payload)
  | applyContainerUpdate (update : SchedulerUpdateRequest)
  | terminateContainer (id : ContainerId)
  | reapIdleContainers (minIdleAge now : ℕ)
  | restoreReapedContainer (fnUri : FunctionURI) (now : Instant)
  | claimPoolContainer (poolKey : ContainerPoolKey) (sandboxId : SandboxId) (timeoutSecs : ℕ)
  | createForFunction (cache : FeasibilityCache) («namespace» application version : String)
      (function : Function) (applicationState : ApplicationState) (draw : Draw)
  | createForSandbox (cache : FeasibilityCache) (sandbox : Sandbox) (snapshotUri : Option String)
      (draw : Draw)
  | createForPool (cache : FeasibilityCache) (pool : ContainerPool) (draw : Draw)

/-- A scheduler without containers and executors, with the pools the store holds. -/
def new (functionPools sandboxPools : Dict ContainerPoolKey ContainerPool) : ContainerScheduler :=
  {functionPools := functionPools, sandboxPools := sandboxPools}

def created (r : ContainerScheduler × FeasibilityCache ×
    Except CreateError (Option SchedulerUpdateRequest)) : Option SchedulerUpdateRequest :=
  match r.2.2 with
  | .ok update => update
  | .error _ => none

lemma created_eq_some_iff {r : ContainerScheduler × FeasibilityCache ×
    Except CreateError (Option SchedulerUpdateRequest)} {u : SchedulerUpdateRequest} :
    created r = some u ↔ r.2.2 = .ok (some u) := by
  unfold created
  split
  · rename_i update hupdate
    rw [hupdate,Except.ok.injEq]
  rename_i e he
  rw [he]
  simp

def applyCreated (r : ContainerScheduler × FeasibilityCache ×
    Except CreateError (Option SchedulerUpdateRequest)) : ContainerScheduler :=
  match created r with
  | some update => r.1.applyContainerUpdate update
  | none => r.1

section
variable [HashOrder ContainerId] [HashOrder ExecutorId]

def step (s : ContainerScheduler) : Op → ContainerScheduler
  | .payload p => (s.updateWithIntents p).1
  | .applyContainerUpdate u => s.applyContainerUpdate u
  | .terminateContainer id => (s.terminateContainer id).1
  | .reapIdleContainers minIdleAge now => (s.reapIdleContainers minIdleAge now).1
  | .restoreReapedContainer fnUri now => (s.restoreReapedContainer fnUri now).1
  | .claimPoolContainer key sandboxId timeout => (s.claimPoolContainer key sandboxId timeout).1
  | .createForFunction cache ns application version function state draw =>
    applyCreated (s.createContainerForFunction cache ns application version function state draw)
  | .createForSandbox cache sandbox snapshotUri draw =>
    applyCreated (s.createContainerForSandbox cache sandbox snapshotUri draw)
  | .createForPool cache pool draw => applyCreated (s.createContainerForPool cache pool draw)

def run (s : ContainerScheduler) (ops : List Op) : ContainerScheduler := ops.foldl step s

def Op.containers (s : ContainerScheduler) :
    Op → List (Sigma fun _ : ContainerId => ContainerServerMetadata)
  | .payload (.schedulerUpdate u) => u.containers.entries
  | .applyContainerUpdate u => u.containers.entries
  | .createForFunction cache ns application version function state draw =>
    ((created (s.createContainerForFunction cache ns application version function state
      draw)).map fun u => u.containers.entries).getD []
  | .createForSandbox cache sandbox snapshotUri draw =>
    ((created (s.createContainerForSandbox cache sandbox snapshotUri
      draw)).map fun u => u.containers.entries).getD []
  | .createForPool cache pool draw =>
    ((created (s.createContainerForPool cache pool draw)).map fun u => u.containers.entries).getD []
  | _ => []

end
end Indexify.ContainerScheduler
