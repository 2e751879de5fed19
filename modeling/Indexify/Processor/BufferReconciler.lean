import Indexify.Library.Separator
import Indexify.Processor.SchedulerOps
import Indexify.StateStore.SandboxState

/-! The sizes of the container pools: how a pool counts its containers, what a trim takes from it
and what it lacks. The histograms of missing containers are returned and not published here. -/
namespace Indexify

/-- The addition of two u32 numbers in a release build. -/
def wrappingAdd (a b : ℕ) : ℕ := (a+b)%2^32

namespace ContainerPool
variable (p : ContainerPool) (active idle : ℕ)

def min : ℕ := p.minContainers.getD 0

def max : ℕ := p.maxContainers.getD (2^32-1)

def buffer : ℕ := p.bufferContainers.getD 0

/-- What a pool may keep. Without a configured buffer it keeps what it has. -/
def effectiveLimit : ℕ :=
  let targetTotal := match p.bufferContainers with
    | some buffer => Nat.max (wrappingAdd active buffer) p.min
    | none => Nat.max (wrappingAdd active idle) p.min
  Nat.min targetTotal p.max

/-- How many idle containers a trim terminates. -/
def excess : ℕ :=
  let currentTotal := wrappingAdd active idle
  if p.effectiveLimit active idle < currentTotal ∧ 0 < idle then
    Nat.min (currentTotal-p.effectiveLimit active idle) idle
  else 0

def deficit : ℕ :=
  let deficitTarget := Nat.min (Nat.max (wrappingAdd active p.buffer) p.min) p.max
  deficitTarget-wrappingAdd active idle

end ContainerPool

def ResourceProfileHistogram.incrementBy (h : ResourceProfileHistogram) (profile : ResourceProfile)
    (count : ℕ) : ResourceProfileHistogram := h.insert profile ((h.lookup profile).getD 0+count)

namespace ContainerScheduler

def countActiveIdleContainers (s : ContainerScheduler) (fnUri : FunctionURI) : ℕ × ℕ :=
  let having (p : ContainerServerMetadata → Bool) : ℕ :=
    ((s.containersByFunctionUri.ids fnUri).filter fun id =>
      (s.functionContainers.lookup id).any p).card
  (having fun m => m.allocations ≠ ∅,having fun m => m.allocations = ∅)

section
variable [HashOrder ContainerId]

def selectIdleContainers (s : ContainerScheduler) (fnUri : FunctionURI) (count : ℕ) : List ContainerId :=
  ((HashOrder.toList (s.containersByFunctionUri.ids fnUri)).filter fun id =>
    (s.functionContainers.lookup id).any fun m => m.allocations = ∅).take count

def selectWarmPoolContainers (s : ContainerScheduler) (poolKey : ContainerPoolKey) (count : ℕ) :
    List ContainerId := (HashOrder.toList (s.warmContainersByPool.ids poolKey)).take count

end
end ContainerScheduler

namespace BufferReconciler
open ContainerScheduler

/-- The id of a function pool is split at its first two bars. -/
def parseFunctionPoolUri (pool : ContainerPool) : Option FunctionURI :=
  (Separator.cut '|' pool.id.get.toList).bind fun p =>
    (Separator.cut '|' p.2).map fun q =>
      ⟨pool.namespace,String.ofList p.1,String.ofList q.1,String.ofList q.2⟩

/-- Active and idle containers of a function pool, claimed and warm ones of a sandbox pool. -/
def countPoolContainers (s : ContainerScheduler) (pool : ContainerPool) : ℕ × ℕ :=
  if pool.isFunctionPool then
    match parseFunctionPoolUri pool with
    | some fnUri => s.countActiveIdleContainers fnUri
    | none => (0,0)
  else s.countPoolContainers pool.key

section
variable [HashOrder ExecutorId] (state : InMemoryState)

def createContainerForPool (s : ContainerScheduler) (cache : FeasibilityCache)
    (pool : ContainerPool) (draw : Draw) :
    ContainerScheduler × FeasibilityCache × Except CreateError (Option SchedulerUpdateRequest) :=
  if pool.isFunctionPool then
    match parseFunctionPoolUri pool with
    | none => (s,cache,.ok none)
    | some fnUri =>
      match state.applications.lookup (Application.keyFrom fnUri.namespace fnUri.application) with
      | none => (s,cache,.ok none)
      | some app =>
        match app.state with
        | .disabled _ => (s,cache,.ok none)
        | .active =>
          match app.functions.lookup fnUri.function with
          | none => (s,cache,.ok none)
          | some function => s.createContainerForFunction cache fnUri.namespace fnUri.application
              fnUri.version function app.state draw
  else s.createContainerForPool cache pool draw

end

section

def trimContainer (acc : ContainerScheduler × SchedulerUpdateRequest) (id : ContainerId) :
    ContainerScheduler × SchedulerUpdateRequest :=
  match acc.1.terminateContainer id with
  | (s,some u) => (s,acc.2.extend u)
  | (s,none) => (s,acc.2)

variable [HashOrder ContainerId]

def trimIdleContainers (s : ContainerScheduler) (pool : ContainerPool) (count : ℕ) :
    ContainerScheduler × SchedulerUpdateRequest :=
  let containers := if pool.isFunctionPool then
      match parseFunctionPoolUri pool with
      | some fnUri => s.selectIdleContainers fnUri count
      | none => []
    else s.selectWarmPoolContainers pool.key count
  containers.foldl trimContainer (s,{})

def trimPoolExcess (s : ContainerScheduler) (pool : ContainerPool) :
    ContainerScheduler × SchedulerUpdateRequest :=
  let (active,idle) := countPoolContainers s pool
  if 0 < pool.excess active idle then trimIdleContainers s pool (pool.excess active idle)
  else (s,{})

end

def poolDeficit (s : ContainerScheduler) (pool : ContainerPool) : ℕ :=
  let (active,idle) := countPoolContainers s pool
  pool.deficit active idle

/-- Containers that the function pools and the sandbox pools lack, by resource profile. -/
structure PoolDeficits where
  functionPools : ResourceProfileHistogram := ∅
  sandboxPools : ResourceProfileHistogram := ∅

def addPoolDeficit (s : ContainerScheduler) (d : PoolDeficits) (pool : ContainerPool) : PoolDeficits :=
  let deficit := poolDeficit s pool
  if deficit=0 then d
  else
    let profile := ResourceProfile.fromContainerResources pool.resources
    if pool.isFunctionPool then
      {d with functionPools := d.functionPools.incrementBy profile deficit}
    else {d with sandboxPools := d.sandboxPools.incrementBy profile deficit}

def accumulatePoolDeficits (s : ContainerScheduler) (pools : List ContainerPool)
    (d : PoolDeficits) : PoolDeficits := pools.foldl (addPoolDeficit s) d

end BufferReconciler
end Indexify
