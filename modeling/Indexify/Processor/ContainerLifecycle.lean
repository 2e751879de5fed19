import Indexify.Processor.SandboxProcessor

/-! What reports about containers and executors do to sandboxes. -/
namespace Indexify.ContainerReconciler

/-- The reported state comes beside the container the server has stored. -/
def promoteSandboxIfContainerRunning (m : SandboxState) (serverContainer : Container)
    (executorState : ContainerState) : SchedulerUpdateRequest :=
  match serverContainer.sandboxId with
  | none => {}
  | some sandboxId =>
    if executorState=.running then
      let key := SandboxKey.new serverContainer.namespace sandboxId.get
      match m.sandboxes.lookup key with
      | none => {}
      | some sandbox =>
        if sandbox.status.isPending then .ofSandbox key {sandbox with status := .running} else {}
    else {}

def promoteSandboxForStartedContainer (m : SandboxState) (s : ContainerScheduler)
    (id : ContainerId) : SchedulerUpdateRequest :=
  match s.functionContainers.lookup id with
  | none => {}
  | some fc =>
    let started : SchedulerUpdateRequest := if fc.functionContainer.state=.pending then
        ContainerScheduler.containerUpdate id
          {fc with functionContainer := {fc.functionContainer with state := .running}}
      else {}
    started.extend (promoteSandboxIfContainerRunning m fc.functionContainer .running)

/-- A timeout ends a sandbox as it should, any other reason is a failure. -/
def terminationOutcome : ContainerState → SandboxOutcome
  | .terminated .functionTimeout => .success .timeout
  | .terminated reason => .failure (.containerTerminated reason)
  | _ => .failure .unknown

def terminateSandboxForContainer (m : SandboxState) (container : Container) : SchedulerUpdateRequest :=
  match container.sandboxId with
  | none => {}
  | some sandboxId =>
    let key := SandboxKey.new container.namespace sandboxId.get
    match m.sandboxes.lookup key with
    | none => {}
    | some sandbox =>
      if sandbox.status=.running ∨ sandbox.status.isPending then
        .ofSandbox key {sandbox with
          status := .terminated, outcome := some (terminationOutcome container.state)}
      else {}

/-- All running and pending sandboxes of a deregistered executor. -/
def terminateSandboxesForExecutor (m : SandboxState) (executorId : ExecutorId) : SchedulerUpdateRequest :=
  {updatedSandboxes := (m.sandboxes.retain fun _ sandbox => sandbox.executorId = some executorId ∧
      (sandbox.status=.running ∨ sandbox.status.isPending)).mapValues fun _ sandbox =>
   {sandbox with status := .terminated, outcome := some (.failure .executorRemoved)}}

/-- Neither the executor nor the scheduler knows the container of the sandbox. -/
def orphaned (s : ContainerScheduler) (executor : ExecutorMetadata) (sandbox : Sandbox) : Bool :=
  (sandbox.status = .running || sandbox.status.isPending) &&
    match sandbox.containerId with
    | some id => !decide (id∈executor.containers) && !decide (id∈s.functionContainers)
    | none => false

variable [HashOrder SandboxKey]

def orphanedSandboxes (m : SandboxState) (s : ContainerScheduler) (executor : ExecutorMetadata) :
    List Sandbox :=
  ((HashOrder.toList (m.onExecutor executor.id)).filterMap m.sandboxes.lookup).filter
    (orphaned s executor)

def orphanUpdate (sandbox : Sandbox) : SchedulerUpdateRequest :=
  .ofSandbox (.fromSandbox sandbox) {sandbox with
    status := .terminated, outcome := some (.failure (.containerTerminated .unknown))}

end Indexify.ContainerReconciler
