import Indexify.StateStore.ExecutorConnection

/-! Routes of function call results. A parent that calls a function leaves a route under the id
of the call; the value of the call, or of the end of its chain of tail calls, is put into the
result buffer of the parent's executor. -/
namespace Indexify

structure PendingFunctionCall where
  parentAllocationId : String
  originalFunctionCallId : String
  executorId : ExecutorId
  deriving DecidableEq

structure ContainerStateUpdateInfo where
  containerId : ContainerId
  terminationReason : Option ContainerTerminationReason
  deriving DecidableEq

structure DataplaneResultsIngestedEvent where
  executorId : ExecutorId
  allocationEvents : List AllocationOutputIngestedEvent
  containerStateUpdates : List ContainerStateUpdateInfo
  containerStartedIds : List ContainerId
  deriving DecidableEq

/-- The payloads that reports leave in the queue of the scheduler. -/
inductive RequestPayload
  | createFunctionCall (event : FunctionCallEvent)
  | dataplaneResults (event : DataplaneResultsIngestedEvent)
  deriving DecidableEq

/-- What the report handlers read and write: persisted allocations and routes, the routes in
memory, the connections, and the queue with the number its next payload gets. -/
structure ApiState where
  allocations : Dict String Allocation := ∅
  routes : Dict String PendingFunctionCall := ∅
  pending : Dict String PendingFunctionCall := ∅
  connections : Dict ExecutorId ExecutorConnection := ∅
  queue : List (ℕ × RequestPayload) := []
  nextSeq : ℕ := 0

structure ApiEnv extends ConversionEnv where
  encodedLen : Proto.SequencedAllocationResult → ℕ

namespace ApiState
variable (s : ApiState) (id : String)

def write (payload : RequestPayload) : ApiState :=
  {s with
    queue := s.queue++[(s.nextSeq,payload)]
    nextSeq := s.nextSeq+1}

def isAllocationAlive (ns application requestId allocationId : String) : Bool :=
  match s.allocations.lookup (Allocation.keyFrom ns application requestId allocationId) with
  | some a => !a.isTerminal
  | none => false

/-- The route under an id: the one in memory, else the persisted one. -/
def route (id : String) : Option PendingFunctionCall :=
  (s.pending.lookup id).or (s.routes.lookup id)

def register (id : String) (r : PendingFunctionCall) : ApiState :=
  {s with routes := s.routes.insert id r, pending := s.pending.insert id r}

/-- A persisted route is loaded, a route in memory stays. -/
def load (id : String) (r : PendingFunctionCall) : ApiState :=
  if id∈s.pending then s else {s with pending := s.pending.insert id r}

def take (id : String) : ApiState × Option PendingFunctionCall :=
  match s.pending.lookup id with
  | some r => ({s with routes := s.routes.erase id, pending := s.pending.erase id},some r)
  | none =>
    match s.routes.lookup id with
    | some r => ({s with routes := s.routes.erase id},some r)
    | none => (s,none)

lemma route_register (i : String) (r : PendingFunctionCall) :
    (s.register id r).route i = if i=id then some r else s.route i := by
  unfold route register
  simp only [Dict.lookup_insert_if]
  split_ifs <;> rfl

lemma route_load {s : ApiState} {id : String} {r : PendingFunctionCall} (h : s.route id = some r)
    (i : String) : (s.load id r).route i = s.route i := by
  unfold load
  split_ifs with hid
  · rfl
  have hnone : s.pending.lookup id = none := AList.lookup_eq_none.mpr hid
  simp only [route,hnone] at h
  simp only [route,Dict.lookup_insert_if]
  split_ifs with hi
  · rw [hi,hnone,h]
    rfl
  · rfl

lemma take_snd : (s.take id).2 = s.route id := by
  unfold take route
  cases s.pending.lookup id with
  | some r => rfl
  | none =>
    cases s.routes.lookup id with
    | some r
    | none => rfl

lemma take_of_no_route {id : String} (h : s.route id = none) : s.take id = (s,none) := by
  obtain ⟨hp,hr⟩ := Option.or_eq_none_iff.mp h
  unfold take
  rw [hp]
  rw [hr]

lemma take_fst : ∃ routes pending, (s.take id).1 = {s with routes := routes, pending := pending} ∧
    ∀ i, (s.take id).1.route i = if i=id then none else s.route i := by
  unfold take
  cases hp : s.pending.lookup id with
  | some r =>
    refine ⟨_,_,rfl,?_⟩
    intro i
    simp only [route,Dict.lookup_erase_if]
    split_ifs <;> rfl
  | none =>
    cases hr : s.routes.lookup id with
    | some r =>
      refine ⟨_,_,rfl,?_⟩
      intro i
      simp only [route,Dict.lookup_erase_if]
      split_ifs with hi
      · rw [hi,hp]
        rfl
      · rfl
    | none =>
      refine ⟨_,_,rfl,?_⟩
      intro i
      split_ifs with hi
      · rw [hi,route,hp,hr]
        rfl
      · rfl

lemma connections_take (s : ApiState) (id : String) : (s.take id).1.connections = s.connections := by
  obtain ⟨routes,pending,he,-⟩ := s.take_fst id
  rw [he]

end ApiState

inductive RegistrationOutcome
  | inserted
  | replaced
  | unchanged
  deriving DecidableEq

/-- A route of the same owner is kept, and so is one that a tail call moved here for a parent
that is still alive. When that parent is dead its watched id is kept for the new owner. -/
def registerFromParent (s : ApiState) (id : String) (new : PendingFunctionCall)
    (ns application requestId : String) : ApiState × RegistrationOutcome :=
  match s.route id with
  | some existing =>
    if existing.parentAllocationId=new.parentAllocationId ∧
        existing.executorId = new.executorId then (s.load id existing,.unchanged)
    else if existing.originalFunctionCallId≠id then
      if s.isAllocationAlive ns application requestId existing.parentAllocationId then
        (s.load id existing,.unchanged)
      else
        (s.register id {new with originalFunctionCallId := existing.originalFunctionCallId}, .replaced)
    else (s.register id new,.replaced)
  | none => (s.register id new,.inserted)

def purgeExecutor (s : ApiState) (executorId : ExecutorId) : ApiState :=
  {s with
    pending := s.pending.retain fun _ r => r.executorId≠executorId
    routes := s.routes.retain fun _ r => r.executorId ≠ executorId}

/-- The ids of the plain calls among the updates, in order. Reduce operations are passed over. -/
def individualCallIds (updates : Proto.ExecutionPlanUpdates) : List String :=
  updates.updates.filterMap fun update =>
    match update.op with
    | some (.functionCall call) => call.id
    | _ => none

def registerCalls (executorId : ExecutorId) (allocationId ns application requestId : String)
    (s : ApiState) (ids : List String) : ApiState :=
  ids.foldl (fun s id =>
    (registerFromParent s id ⟨allocationId,id,executorId⟩ ns application requestId).1) s

def registerUpdates (executorId : ExecutorId) (allocationId ns application requestId : String)
    (s : ApiState) : Option Proto.ExecutionPlanUpdates → ApiState
  | some updates =>
    registerCalls executorId allocationId ns application requestId s (individualCallIds updates)
  | none => s

/-- A call enters the queue after its routes are registered; a refused one keeps the routes. -/
def handleCallFunction (env : ConversionEnv) (s : ApiState) (executorId : ExecutorId)
    (allocationId : String) (call : Proto.FunctionCallRequest) : ApiState × Except String Unit :=
  match require "CallFunction missing namespace" call.namespace with
  | .error e => (s,.error e)
  | .ok ns =>
    match require "CallFunction missing application" call.application with
    | .error e => (s,.error e)
    | .ok application =>
      match require "CallFunction missing request_id" call.requestId with
      | .error e => (s,.error e)
      | .ok requestId =>
        let s := registerUpdates executorId allocationId ns application requestId s call.updates
        match require "CallFunction missing source_function_call_id" call.sourceFunctionCallId with
        | .error e => (s,.error e)
        | .ok source =>
          match require "CallFunction missing updates" call.updates with
          | .error e => (s,.error e)
          | .ok updates =>
            match env.toGraphUpdates updates (some source) with
            | .error e => (s,.error e)
            | .ok graphUpdates =>
              (s.write (.createFunctionCall ⟨ns,application,requestId,⟨source⟩,graphUpdates⟩), .ok ())

/-- Results only travel to executors; one that comes from an executor is ignored. -/
def handleLogEntry (env : ConversionEnv) (s : ApiState) (executorId : ExecutorId)
    (logEntry : Proto.AllocationLogEntry) : ApiState × Except String Unit :=
  match logEntry.entry with
  | some (.callFunction call) => handleCallFunction env s executorId logEntry.allocationId call
  | some (.functionCallResult _) => (s,.ok ())
  | none => (s,.ok ())

def isParentAllocationAlive (s : ApiState) (parentAllocationId : String)
    (function : Option Proto.FunctionRef) (requestId : Option String) : Bool :=
  match function with
  | none => false
  | some f =>
    match f.namespace,f.applicationName,requestId with
    | some ns,some application,some requestId =>
      s.isAllocationAlive ns application requestId parentAllocationId
    | _,_,_ => false

inductive PushError
  | missingExecutorConnection
  | refused (message : String)
  deriving DecidableEq

def PushError.message : PushError → String
  | missingExecutorConnection => "executor connection not found"
  | refused message => message

def pushResultToExecutor (env : ApiEnv) (s : ApiState) (executorId : ExecutorId)
    (entry : Proto.AllocationLogEntry) : ApiState × Except PushError Unit :=
  match s.connections.lookup executorId with
  | none => (s,.error .missingExecutorConnection)
  | some conn =>
    match conn.pushResult env.encodedLen entry with
    | (conn',.ok ()) => ({s with connections := s.connections.insert executorId conn'},.ok ())
    | (_,.error e) => (s,.error (.refused e))

/-- A result for a missing connection is dropped; a refused one puts the route back. -/
def pushOrRestore (env : ApiEnv) (s : ApiState) (id : String) (r : PendingFunctionCall)
    (entry : Proto.AllocationLogEntry) : ApiState × Except String Unit :=
  match pushResultToExecutor env s r.executorId entry with
  | (s,.ok ()) => (s,.ok ())
  | (s,.error .missingExecutorConnection) => (s,.ok ())
  | (s,.error e) => (s.register id r,.error e.message)

def buildResultLogEntry (r : PendingFunctionCall) (completed : Proto.AllocationCompleted)
    (returnValue : Option Proto.DataPayload) : Proto.AllocationLogEntry where
  allocationId := r.parentAllocationId
  clock := 0
  entry := some (.functionCallResult {
    «namespace» := completed.function.bind fun f => f.namespace
    requestId := completed.requestId
    functionCallId := some r.originalFunctionCallId
    outcomeCode := some .success
    failureReason := none
    returnValue := returnValue
    requestError := none })

/-- A value goes to the parent; updates move the route to their root. -/
def tryRouteResult (env : ApiEnv) (s : ApiState) (functionCallId : String)
    (completed : Proto.AllocationCompleted) : ApiState × Except String Unit :=
  match s.take functionCallId with
  | (s,none) => (s,.ok ())
  | (s,some r) =>
    if isParentAllocationAlive s r.parentAllocationId completed.function completed.requestId then
      match completed.returnValue with
      | some (.value payload) =>
        pushOrRestore env s functionCallId r (buildResultLogEntry r completed (some payload))
      | some (.updates updates) =>
        match updates.rootFunctionCallId with
        | some downstream => (s.register downstream r,.ok ())
        | none => (s.register functionCallId r,
            .error "AllocationCompleted Updates missing root_function_call_id")
      | none => pushOrRestore env s functionCallId r (buildResultLogEntry r completed none)
    else (s,.ok ())

def failureLogEntry (r : PendingFunctionCall) (failed : Proto.AllocationFailed) :
    Proto.AllocationLogEntry where
  allocationId := r.parentAllocationId
  clock := 0
  entry := some (.functionCallResult {
    «namespace» := failed.function.bind fun f => f.namespace
    requestId := failed.requestId
    functionCallId := some r.originalFunctionCallId
    outcomeCode := some .failure
    failureReason := some failed.reason
    returnValue := none
    requestError := failed.requestError })

def tryRouteFailure (env : ApiEnv) (s : ApiState) (functionCallId : String)
    (failed : Proto.AllocationFailed) : ApiState × Except String Unit :=
  match s.take functionCallId with
  | (s,none) => (s,.ok ())
  | (s,some r) =>
    if isParentAllocationAlive s r.parentAllocationId failed.function failed.requestId then
      pushOrRestore env s functionCallId r (failureLogEntry r failed)
    else (s,.ok ())

/-- Two states with the same persisted allocations and the same queue. -/
structure ApiState.SameReports (s s' : ApiState) : Prop where
  allocations : s'.allocations=s.allocations
  queue : s'.queue=s.queue

namespace ApiState.SameReports
variable {s s' s'' : ApiState} (env : ApiEnv)

lemma refl (s : ApiState) : s.SameReports s := ⟨rfl,rfl⟩

lemma trans (h : s.SameReports s') (h' : s'.SameReports s'') : s.SameReports s'' :=
  ⟨h'.allocations.trans h.allocations,h'.queue.trans h.queue⟩

variable (s : ApiState)

lemma take (id : String) : s.SameReports (s.take id).1 := by
  obtain ⟨routes,pending,he,-⟩ := s.take_fst id
  rw [he]
  exact ⟨rfl,rfl⟩

lemma load (id : String) (r : PendingFunctionCall) : s.SameReports (s.load id r) := by
  unfold ApiState.load
  split_ifs <;> exact ⟨rfl,rfl⟩

lemma registerFromParent (id : String) (new : PendingFunctionCall) (ns application requestId : String) :
    s.SameReports (registerFromParent s id new ns application requestId).1 := by
  unfold Indexify.registerFromParent
  cases s.route id with
  | none => exact ⟨rfl,rfl⟩
  | some existing =>
    dsimp only
    split_ifs
    · exact load s id existing
    · exact load s id existing
    · exact ⟨rfl,rfl⟩
    · exact ⟨rfl,rfl⟩

lemma registerCalls (executorId : ExecutorId) (allocationId ns application requestId : String)
    (s : ApiState) (ids : List String) :
    s.SameReports (registerCalls executorId allocationId ns application requestId s ids) := by
  induction ids generalizing s with
  | nil => exact refl s
  | cons id ids ih => exact (registerFromParent s id _ ns application requestId).trans (ih _)

lemma registerUpdates (executorId : ExecutorId) (allocationId ns application requestId : String)
    (s : ApiState) (updates : Option Proto.ExecutionPlanUpdates) : s.SameReports
      (registerUpdates executorId allocationId ns application requestId s updates) := by
  cases updates with
  | none => exact refl s
  | some updates => exact registerCalls executorId allocationId ns application requestId s _

lemma pushOrRestore (id : String) (r : PendingFunctionCall)
    (entry : Proto.AllocationLogEntry) : s.SameReports (pushOrRestore env s id r entry).1 := by
  unfold Indexify.pushOrRestore pushResultToExecutor
  cases s.connections.lookup r.executorId with
  | none => exact ⟨rfl,rfl⟩
  | some conn =>
    dsimp only
    cases conn.pushResult env.encodedLen entry with
    | mk conn' result => cases result <;> exact ⟨rfl,rfl⟩

lemma tryRouteResult (functionCallId : String) (completed : Proto.AllocationCompleted) :
    s.SameReports (tryRouteResult env s functionCallId completed).1 := by
  have htake := take s functionCallId
  unfold Indexify.tryRouteResult
  split
  · rename_i s1 he
    rwa [he] at htake
  rename_i s1 r he
  rw [he] at htake
  split_ifs
  · split
    · exact htake.trans (pushOrRestore env s1 _ r _)
    · split <;> exact htake.trans ⟨rfl,rfl⟩
    · exact htake.trans (pushOrRestore env s1 _ r _)
  · exact htake

lemma tryRouteFailure (functionCallId : String) (failed : Proto.AllocationFailed) :
    s.SameReports (tryRouteFailure env s functionCallId failed).1 := by
  have htake := take s functionCallId
  unfold Indexify.tryRouteFailure
  split
  · rename_i s1 he
    rwa [he] at htake
  rename_i s1 r he
  rw [he] at htake
  split_ifs
  · exact htake.trans (pushOrRestore env s1 _ r _)
  · exact htake

end ApiState.SameReports

lemma tryRouteFailure_of_no_route (env : ApiEnv) {s : ApiState} {functionCallId : String}
    (h : s.route functionCallId = none) (failed : Proto.AllocationFailed) :
    (tryRouteFailure env s functionCallId failed).1 = s := by
  unfold tryRouteFailure
  rw [s.take_of_no_route h]

lemma tryRouteResult_of_no_route (env : ApiEnv) {s : ApiState} {functionCallId : String}
    (h : s.route functionCallId = none) (completed : Proto.AllocationCompleted) :
    (tryRouteResult env s functionCallId completed).1 = s := by
  unfold tryRouteResult
  rw [s.take_of_no_route h]

end Indexify
