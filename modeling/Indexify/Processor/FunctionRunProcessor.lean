import Mathlib.Data.List.MinMax
import Indexify.Processor.SchedulerOps
import Indexify.StateStore.InMemoryState

/-! Allocation of pending function runs. A pass over a list of runs keeps the scheduler, the
update, the contexts of the requests it met and the functions it found no room for. New ids, the
clock and the random starts of placements come from a supply. -/
namespace Indexify.FunctionRunProcessor
open ContainerScheduler

structure AllocationDraw where
  draw : Draw
  allocationId : AllocationId

section
variable [HashOrder ContainerId] [HashOrder ExecutorId]

def isAvailable (s : ContainerScheduler) (queueSize : ℕ) (c : ContainerServerMetadata) : Bool :=
  match s.executors.lookup c.executorId with
  | none => false
  | some executor =>
    if executor.tombstoned then false
    else if c.isTerminated then false
    else c.allocations.card<queueSize*c.functionContainer.maxConcurrency

def findAvailableContainer (s : ContainerScheduler) (fnUri : FunctionURI) (queueSize : ℕ) :
    Option AllocationTarget :=
  let containers :=
    (HashOrder.toList (s.containersByFunctionUri.ids fnUri)).filterMap s.functionContainers.lookup
  ((containers.filter (isAvailable s queueSize)).argmin fun c => c.allocations.card).map fun c =>
    ⟨c.executorId,c.functionContainer.id⟩

def poolAtCapacity (s : ContainerScheduler) (run : FunctionRun) : Bool :=
  let poolKey : ContainerPoolKey :=
    ⟨run.namespace,.forFunction run.application run.name run.version⟩
  match (s.getPool poolKey).bind ContainerPool.maxContainers with
  | some max => max ≤ s.totalContainersForFunction (.ofRun run)
  | none => false

def tryCreateContainer (state : InMemoryState) (s : ContainerScheduler) (cache : FeasibilityCache)
    (run : FunctionRun) (draw : Draw) :
    ContainerScheduler × FeasibilityCache × Except CreateError (Option SchedulerUpdateRequest) :=
  match state.getExistingApplicationVersion run with
  | none => (s,cache,.ok none)
  | some appVersion =>
    match appVersion.functions.lookup run.name with
    | none => (s,cache,.ok none)
    | some function =>
      if poolAtCapacity s run then (s,cache,.ok none)
      else s.createContainerForFunction cache run.namespace run.application run.version function
        appVersion.state draw

omit [HashOrder ContainerId] in
lemma tryCreateContainer_cases (state : InMemoryState) (s : ContainerScheduler)
    (cache : FeasibilityCache) (run : FunctionRun) (draw : Draw) :
    tryCreateContainer state s cache run draw = (s,cache,.ok none) ∨
      ∃ version function, state.getExistingApplicationVersion run = some version ∧
        version.functions.lookup run.name = some function ∧ ¬poolAtCapacity s run = true ∧
        tryCreateContainer state s cache run draw = s.createContainerForFunction cache
          run.namespace run.application run.version function version.state draw := by
  unfold tryCreateContainer
  cases hversion : state.getExistingApplicationVersion run with
  | none => exact .inl rfl
  | some version =>
    dsimp only
    cases hfunction : version.functions.lookup run.name with
    | none => exact .inl rfl
    | some function =>
      split_ifs with hcapacity
      · exact .inl rfl
      · exact .inr ⟨version,function,rfl,hfunction,hcapacity,rfl⟩

end

def newAllocation (run : FunctionRun) (ctx : RequestCtx) (target : AllocationTarget)
    (id : AllocationId) : Allocation where
  id := id
  target := target
  functionCallId := run.id
  «namespace» := run.namespace
  application := run.application
  applicationVersion := ctx.applicationVersion
  function := run.name
  requestId := run.requestId
  outcome := .unknown
  attemptNumber := run.attemptNumber
  executionDurationMs := none
  inputArgs := run.inputArgs
  vectorClock := 0
  callMetadata := run.callMetadata

/-- The container takes the allocation in place and is busy from now on. -/
def occupy (s : ContainerScheduler) (a : Allocation) : ContainerScheduler :=
  match s.functionContainers.lookup a.target.containerId with
  | some fc =>
    s.setContainer a.target.containerId
      {fc with allocations := insert a.id fc.allocations, idleSince := none}
  | none => s

def occupiedUpdate (s : ContainerScheduler) (a : Allocation) (u : SchedulerUpdateRequest) :
    SchedulerUpdateRequest :=
  match s.functionContainers.lookup a.target.containerId with
  | some fc =>
    let fc := {fc with allocations := insert a.id fc.allocations, idleSince := none}
    {u with containers := u.containers.insert fc.functionContainer.id fc}
  | none => u

def unblockRun (s : ContainerScheduler) (run : FunctionRun) : ContainerScheduler :=
  {s with blockedWork := s.blockedWork.removeFunctionRun run.key}

def startRun (s : ContainerScheduler) (u : SchedulerUpdateRequest) (run : FunctionRun)
    (ctx : RequestCtx) (target : AllocationTarget) (id : AllocationId) :
    ContainerScheduler × RequestCtx × SchedulerUpdateRequest :=
  let allocation := newAllocation run ctx target id
  let (u,ctx) := u.addFunctionRun {run with status := .running id} ctx
  let u := u.addRequestState ctx
  let u := {u with newAllocations := u.newAllocations++[allocation]}
  (unblockRun (occupy s allocation) run,ctx,occupiedUpdate s allocation u)

section
variable [HashOrder ContainerId] [HashOrder ExecutorId]

/-- An available container, or else a new one, whose update is applied at once. -/
def chooseTarget (state : InMemoryState) (s : ContainerScheduler) (cache : FeasibilityCache)
    (run : FunctionRun) (queueSize : ℕ) (draw : Draw) :
    ContainerScheduler × FeasibilityCache ×
      Except CreateError (Option AllocationTarget × SchedulerUpdateRequest) :=
  match findAvailableContainer s (.ofRun run) queueSize with
  | some target => (s,cache,.ok (some target,{}))
  | none =>
    match tryCreateContainer state s cache run draw with
    | (s,cache,.error e) => (s,cache,.error e)
    | (s,cache,.ok none) => (s,cache,.ok (none,{}))
    | (s,cache,.ok (some created)) =>
      let target := (created.containers.values.find? fun c => !c.isTerminated).map fun c =>
        (⟨c.executorId,c.functionContainer.id⟩ : AllocationTarget)
      (s.applyContainerUpdate created,cache, .ok (target,SchedulerUpdateRequest.extend {} created))

/-- An update without a new allocation means that there is no room. -/
def createAllocation (state : InMemoryState) (s : ContainerScheduler) (cache : FeasibilityCache)
    (run : FunctionRun) (ctx : RequestCtx) (queueSize : ℕ) (d : AllocationDraw) :
    ContainerScheduler × FeasibilityCache × RequestCtx × Except CreateError SchedulerUpdateRequest :=
  match chooseTarget state s cache run queueSize d.draw with
  | (s,cache,.error e) => (s,cache,ctx,.error e)
  | (s,cache,.ok (none,u)) => (s,cache,ctx,.ok u)
  | (s,cache,.ok (some target,u)) =>
    let (s,ctx,u) := startRun s u run ctx target d.allocationId
    (s,cache,ctx,.ok u)

def functionWorkload (state : InMemoryState) (run : FunctionRun) : Workload where
  key := .function run.namespace run.application run.name
  «namespace» := run.namespace
  application := run.application
  function := state.getFunction run

def blockRun (s : ContainerScheduler) (run : FunctionRun) (info : BlockingInfo) : ContainerScheduler :=
  {s with blockedWork := s.blockedWork.blockFunctionRun run.key info}

/-- Work without an eligible class is retried on any change of capacity. -/
def recordBlockedFunctionRun (state : InMemoryState) (s : ContainerScheduler) (cache : FeasibilityCache)
    (run : FunctionRun) (memoryMb : ℕ) : ContainerScheduler × FeasibilityCache :=
  let (cache,eligible) := Placement.blockingClasses s (functionWorkload state run) cache
  let s := {s with lastPlacement := none}
  (blockRun s run ⟨eligible,eligible.isEmpty,memoryMb⟩,cache)

structure Pass where
  scheduler : ContainerScheduler
  cache : FeasibilityCache
  update : SchedulerUpdateRequest := {}
  noResourcesForFn : Finset FunctionURI := ∅
  requestCtxCache : Dict RequestCtxKey RequestCtx := ∅
  terminalRequests : Finset RequestCtxKey := ∅
  /-- How often the supply was drawn from. -/
  drawn : ℕ := 0

namespace Pass

def recordBlocked (p : Pass) (state : InMemoryState) (run : FunctionRun) (memoryMb : ℕ) : Pass :=
  let (s,cache) := recordBlockedFunctionRun state p.scheduler p.cache run memoryMb
  {p with scheduler := s, cache := cache}

def ctxOf (p : Pass) (state : InMemoryState) (key : RequestCtxKey) : Option RequestCtx :=
  (p.requestCtxCache.lookup key).or (state.requestCtx.lookup key)

def clearPlacement (p : Pass) : Pass :=
  {p with scheduler := {p.scheduler with lastPlacement := none}}

/-- A disabled application fails the run and its request. -/
def failUnsatisfiable (p : Pass) (run : FunctionRun) (ctx : RequestCtx) : Pass :=
  let failed := {run with
    status := .completed
    outcome := some (.failure .constraintUnsatisfiable)}
  let ctx := {ctx with outcome := some (.failure .constraintUnsatisfiable)}
  let (u,ctx) := p.update.addFunctionRun failed ctx
  {p with
    update := u.addRequestState ctx
    noResourcesForFn := insert (.ofRun run) p.noResourcesForFn
    requestCtxCache := p.requestCtxCache.insert run.requestCtxKey ctx
    terminalRequests := insert run.requestCtxKey p.terminalRequests}

/-- The run is neither blocked nor skipped and its context is at hand. -/
def allocate (p : Pass) (state : InMemoryState) (queueSize : ℕ) (draws : ℕ → AllocationDraw)
    (run : FunctionRun) (memoryMb : ℕ) (ctx : RequestCtx) : Pass × Except CreateError Unit :=
  let p := p.clearPlacement
  match createAllocation state p.scheduler p.cache run ctx queueSize (draws p.drawn) with
  | (s,cache,ctx,r) =>
    let p := {p with
      scheduler := s
      cache := cache
      requestCtxCache := p.requestCtxCache.insert run.requestCtxKey ctx
      drawn := p.drawn+1}
    match r with
    | .ok u =>
      let p := if u.newAllocations.isEmpty then
          ({p with noResourcesForFn := insert (FunctionURI.ofRun run) p.noResourcesForFn}).recordBlocked
            state run memoryMb
        else p
      ({p with update := p.update.extend u},.ok ())
    | .error (.constraintUnsatisfiable _ _ _) => (p.failUnsatisfiable run ctx,.ok ())
    | .error e => (p,.error e)

def tryAllocateSingleRun (state : InMemoryState) (queueSize : ℕ) (draws : ℕ → AllocationDraw)
    (p : Pass) (run : FunctionRun) (memoryMb : ℕ) : Pass × Except CreateError Unit :=
  if FunctionURI.ofRun run ∈ p.noResourcesForFn then
    (p.clearPlacement.recordBlocked state run memoryMb,.ok ())
  else if run.requestCtxKey∈p.terminalRequests then (p,.ok ())
  else
    match p.ctxOf state run.requestCtxKey with
    | none => (p,.ok ())
    | some ctx => p.allocate state queueSize draws run memoryMb ctx

def allocateRuns (state : InMemoryState) (queueSize : ℕ) (draws : ℕ → AllocationDraw)
    (memoryMb : ℕ) : List FunctionRun → Pass → Pass × Except CreateError Unit
  | [],p => (p,.ok ())
  | run::runs,p =>
    match p.tryAllocateSingleRun state queueSize draws run memoryMb with
    | (p,.ok ()) => allocateRuns state queueSize draws memoryMb runs p
    | (p,.error e) => (p,.error e)

/-- Groups in order, until one of them finds no room for three more functions. The groups that
follow it are returned. -/
def allocateGroups (state : InMemoryState) (queueSize : ℕ) (draws : ℕ → AllocationDraw) :
    List (ResourceProfile × List FunctionRun) → Pass →
      Pass × Except CreateError (List (ResourceProfile × List FunctionRun))
  | [],p => (p,.ok [])
  | (profile,runs)::groups,p =>
    let failuresBefore := p.noResourcesForFn.card
    match allocateRuns state queueSize draws profile.memoryMb runs p with
    | (p,.error e) => (p,.error e)
    | (p,.ok ()) =>
      if 3 ≤ p.noResourcesForFn.card-failuresBefore then (p,.ok groups)
      else allocateGroups state queueSize draws groups p

/-- A run of a group that was not reached. The classes are computed once for each function. -/
def blockSkipped (state : InMemoryState) (memoryMb : ℕ)
    (acc : Pass × Dict FunctionURI (List ExecutorClass)) (run : FunctionRun) :
    Pass × Dict FunctionURI (List ExecutorClass) :=
  let (p,eligibleOf) := acc
  let (cache,eligible) := match eligibleOf.lookup (.ofRun run) with
    | some eligible => (p.cache,eligible)
    | none => Placement.computeEligibleClasses p.scheduler (functionWorkload state run) p.cache
  ({p with
      scheduler := blockRun p.scheduler run ⟨eligible,eligible.isEmpty,memoryMb⟩
      cache := cache},
    eligibleOf.insert (.ofRun run) eligible)

def blockSkippedGroups (state : InMemoryState) (groups : List (ResourceProfile × List FunctionRun))
    (p : Pass) : Pass :=
  (groups.foldl (fun acc g => g.2.foldl (blockSkipped state g.1.memoryMb) acc) (p,∅)).1

end Pass

/-- The profile of the run's function, if the version is in memory. One lookup for each function
is enough, as it depends on nothing else of the run. -/
def profileOf (state : InMemoryState) (run : FunctionRun) : Option ResourceProfile :=
  (state.getFunction run).map .fromFunction

def profileLe (a b : ResourceProfile) : Bool :=
  toLex (a.memoryMb,toLex (a.cpuMsPerSec,toLex (a.diskMb,a.gpuCount))) ≤
    toLex (b.memoryMb,toLex (b.cpuMsPerSec,toLex (b.diskMb,b.gpuCount)))

variable [HashOrder ResourceProfile]

def sortedGroups (state : InMemoryState) (runs : List FunctionRun) :
    List (ResourceProfile × List FunctionRun) :=
  let profiles := (runs.filterMap (profileOf state)).toFinset
  ((HashOrder.toList profiles).insertionSort fun a b => profileLe a b).map fun profile =>
    (profile,runs.filter fun r => profileOf state r = some profile)

def maxRuns : ℕ := 10000

/-- Without executors every run waits for the first one. -/
def blockAll (state : InMemoryState) (s : ContainerScheduler) (runs : List FunctionRun) :
    ContainerScheduler :=
  runs.foldl (fun s run => blockRun s run
    ⟨[],true,((state.getFunction run).map fun f => f.resources.memoryMb).getD 0⟩) s

def allocateFunctionRuns (state : InMemoryState) (queueSize : ℕ) (draws : ℕ → AllocationDraw)
    (s : ContainerScheduler) (cache : FeasibilityCache) (functionRuns : List FunctionRun) :
    Pass × Except CreateError SchedulerUpdateRequest :=
  if s.executors.entries.isEmpty then
    ({scheduler := blockAll state s functionRuns, cache := cache},.ok {})
  else
    let cappedRuns := functionRuns.take maxRuns
    let groups := sortedGroups state cappedRuns
    let fallbackRuns := cappedRuns.filter fun r => profileOf state r = none
    match Pass.allocateGroups state queueSize draws groups {scheduler := s, cache := cache} with
    | (p,.error e) => (p,.error e)
    | (p,.ok skipped) =>
      match Pass.allocateRuns state queueSize draws 0 fallbackRuns
        (Pass.blockSkippedGroups state skipped p) with
      | (p,.error e) => (p,.error e)
      | (p,.ok ()) => (p,.ok p.update)

end
end Indexify.FunctionRunProcessor
