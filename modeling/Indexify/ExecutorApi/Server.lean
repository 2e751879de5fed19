import Indexify.ExecutorApi.Reports
import Indexify.Processor.RequestRuns
import Indexify.Processor.RunProgress

/-! The server as a whole: executors report while the scheduler works through the queue of their
reports, starts runs and writes what it decided to the store. A report is one step, so the
reports of several heartbeats interleave freely. -/
namespace Indexify
open FunctionRunCreator Proto

/-- One attempt of a function call: its request, its id and the allocation. -/
abbrev Attempt := RequestCtxKey × FunctionCallId × AllocationId

/-- `unwritten` is what the scheduler has decided since its last write. `routedFailures` records
every attempt whose failure report took a route away or pushed a result. -/
structure Server where
  api : ApiState := {}
  store : RequestStore
  unwritten : SchedulerUpdateRequest := {}
  routedFailures : List Attempt := []

inductive ServerEvent
  | connect (executorId : ExecutorId)
  | disconnect (executorId : ExecutorId)
  | ackResults (executorId : ExecutorId) (ackedSeq : ℕ)
  | log (env : ConversionEnv) (executorId : ExecutorId) (entry : AllocationLogEntry)
  | outcome (env : ApiEnv) (executorId : ExecutorId) (outcome : AllocationOutcome)
  | invoke (av : ApplicationVersion) (f : Function) (requestId : String) (payload : DataPayload)
  | start (key : RequestCtxKey) (id : FunctionCallId) (allocation : Allocation)
  | terminate (executorId : ExecutorId) (containerId : ContainerId)
      (reason : ContainerTerminationReason)
  | ingest
  | commit

/-- A reported allocation leaves the index of running allocations. -/
def InMemoryState.removeReported (executorId : ExecutorId) (s : InMemoryState)
    (event : AllocationOutputIngestedEvent) : InMemoryState :=
  {s with allocationsByExecutor := s.allocationsByExecutor.modify executorId fun byFe =>
    (byFe.modify event.allocationTarget.containerId fun allocations =>
      allocations.erase event.allocationId).retain fun _ allocations =>
        !allocations.entries.isEmpty}

/-- A terminal record and a record with a newer clock stay. -/
def upsertAllocation (m : Dict String Allocation) (a : Allocation) : Dict String Allocation :=
  match m.lookup a.key with
  | none => m
  | some existing =>
    if existing.isTerminal then m
    else if a.vectorClock<existing.vectorClock then m
    else m.insert a.key a

def ReportFields.requestKey (f : ReportFields) : RequestCtxKey :=
  RequestCtx.keyFrom f.namespace f.application f.requestId

def FunctionRunOutcome.isFailure : FunctionRunOutcome → Bool
  | failure _ => true
  | _ => false

def reported (s : ApiState) : AllocationOutcome → Option (ReportFields × Allocation × FunctionRunOutcome)
  | .completed completed =>
    match reportFields "AllocationCompleted" completed.function completed.requestId
      completed.functionCallId with
    | .error _ => none
    | .ok f => (s.allocations.lookup (f.allocationKey completed.allocationId)).map fun a =>
        (f,a,.success)
  | .failed failed =>
    match reportFields "AllocationFailed" failed.function failed.requestId
      failed.functionCallId with
    | .error _ => none
    | .ok f => (s.allocations.lookup (f.allocationKey failed.allocationId)).map fun a =>
        (f,a,.failure (protoFailureReasonToInternal
          (AllocationFailureReason.ofI32 failed.reason)))
  | .empty => none

def routedFailure (s s' : ApiState) (outcome : AllocationOutcome) : List Attempt :=
  match reported s outcome with
  | some (f,a,.failure _) =>
    if s'.route f.functionCallId ≠ s.route f.functionCallId ∨ s'.connections≠s.connections then
      [(f.requestKey,⟨f.functionCallId⟩,a.id)]
    else []
  | _ => []

def AllocationOutputIngestedEvent.requestKey (e : AllocationOutputIngestedEvent) :
    RequestCtxKey := RequestCtx.keyFrom e.namespace e.application e.requestId

def RequestPayload.events : RequestPayload → List AllocationOutputIngestedEvent
  | createFunctionCall _ => []
  | dataplaneResults event => event.allocationEvents

def ApiState.queuedEvents (s : ApiState) : List AllocationOutputIngestedEvent :=
  s.queue.flatMap fun p => p.2.events

namespace ApiState
variable {s s' : ApiState}

lemma SameReports.queuedEvents (h : s.SameReports s') : s'.queuedEvents=s.queuedEvents := by
  unfold ApiState.queuedEvents
  rw [h.queue]

lemma queuedEvents_write (s : ApiState) (payload : RequestPayload) :
    (s.write payload).queuedEvents = s.queuedEvents++payload.events := by
  simp [ApiState.queuedEvents,ApiState.write]

end ApiState

lemma handleLogEntry_queuedEvents (env : ConversionEnv) (s : ApiState) (executorId : ExecutorId)
    (entry : AllocationLogEntry) :
    (handleLogEntry env s executorId entry).1.queuedEvents = s.queuedEvents := by
  unfold handleLogEntry
  split
  · rename_i call _
    unfold handleCallFunction
    split
    · rfl
    rename_i ns _
    split
    · rfl
    rename_i application _
    split
    · rfl
    rename_i requestId _
    have hsame := ApiState.SameReports.registerUpdates executorId entry.allocationId ns
      application requestId s call.updates
    rw [← hsame.queuedEvents]
    split
    · rfl
    split
    · rfl
    split
    · rfl
    · rw [ApiState.queuedEvents_write,RequestPayload.events,List.append_nil]
  · rfl
  · rfl

lemma processAllocationOutcome_event (env : ApiEnv) (executorId : ExecutorId) (s : ApiState)
    (outcome : AllocationOutcome) :
    (processAllocationOutcome env executorId s outcome).1 = s ∨
      ∃ f a out e, reported s outcome = some (f,a,out) ∧ e.requestKey=f.requestKey ∧
        e.functionCallId = ⟨f.functionCallId⟩ ∧ e.allocationOutcome=out ∧
        (out.isFailure → e.graphUpdates=none) ∧
        (processAllocationOutcome env executorId s outcome).1.queuedEvents = s.queuedEvents++[e] := by
  cases outcome with
  | empty => exact .inl rfl
  | completed completed =>
    refine (processAllocationOutcome_completed env executorId s completed).imp (·.1) ?_
    rintro ⟨f,a,value,updates,hf,ha,-,-,he⟩
    refine ⟨f,a,.success,{f.event a .success completed.executionDurationMs with
      dataPayload := value, graphUpdates := updates},?_,rfl,rfl,rfl,nofun,?_⟩
    · simp only [reported,hf,ha,Option.map_some]
    rw [he,(ApiState.SameReports.tryRouteResult env _ _ _).queuedEvents,ApiState.queuedEvents_write]
    rfl
  | failed failed =>
    refine (processAllocationOutcome_failed env executorId s failed).imp (·.1) ?_
    rintro ⟨f,a,ex,containers,hf,ha,-,-,he⟩
    refine ⟨f,a,_,{f.event a (.failure (protoFailureReasonToInternal
      (AllocationFailureReason.ofI32 failed.reason))) failed.executionDurationMs with
        requestException := ex},?_,rfl,rfl,rfl,fun _ => rfl,?_⟩
    · simp only [reported,hf,ha]
      rfl
    rw [he,(ApiState.SameReports.tryRouteFailure env _ _ _).queuedEvents,ApiState.queuedEvents_write]
    rfl

lemma mem_routedFailure {env : ApiEnv} {executorId : ExecutorId} {s : ApiState}
    {outcome : AllocationOutcome} {x : Attempt}
    (h : x ∈ routedFailure s (processAllocationOutcome env executorId s outcome).1 outcome) :
    ∃ f a reason, reported s outcome = some (f,a,.failure reason) ∧
      x = (f.requestKey,⟨f.functionCallId⟩,a.id) ∧ (s.route f.functionCallId).isSome := by
  unfold routedFailure at h
  split at h
  · rename_i f a reason hrep
    split_ifs at h with hchanged
    · refine ⟨f,a,reason,hrep,List.mem_singleton.mp h,?_⟩
      by_contra hnone
      rw [Bool.not_eq_true,Option.isSome_eq_false_iff,Option.isNone_iff_eq_none] at hnone
      cases outcome with
      | empty => cases hrep
      | completed completed =>
        simp only [reported] at hrep
        split at hrep
        · cases hrep
        · obtain ⟨b,-,hb⟩ := Option.map_eq_some_iff.mp hrep
          cases hb
      | failed failed =>
        rcases processAllocationOutcome_failed env executorId s failed with
          ⟨he,-⟩ | ⟨f',a',ex,containers,hf,ha,-,-,he⟩ <;> rw [he] at hchanged
        · simp at hchanged
        simp only [reported,hf,ha,Option.map_some,Option.some.injEq,Prod.mk.injEq] at hrep
        obtain ⟨rfl,-,-⟩ := hrep
        have hwrite : ∀ p, (s.write p).route f'.functionCallId = none := fun p => hnone
        rw [tryRouteFailure_of_no_route env (hwrite _)] at hchanged
        rcases hchanged with hne | hne
        · exact hne rfl
        · exact hne rfl
    · cases h
  · cases h

namespace Server
variable (hash : String → String)

def init (mem : InMemoryState) : Server := {store := ⟨mem,∅⟩}

def write (s : Server) (u : SchedulerUpdateRequest) : Server :=
  {s with store := s.store.write u, unwritten := s.unwritten.extend u}

def ingestEvent (s : Server) (event : AllocationOutputIngestedEvent) : Server :=
  s.write (handleAllocationIngestion hash s.store.mem s.api.allocations {} event)

def ingestPayload (s : Server) : RequestPayload → Server
  | .createFunctionCall event => s.write (handleBlockingFunctionCall hash s.store.mem event)
  | .dataplaneResults event =>
    event.allocationEvents.foldl (ingestEvent hash) {s with
      store.mem := event.allocationEvents.foldl (InMemoryState.removeReported event.executorId)
        s.store.mem}

lemma ingestPayload_api (s : Server) (payload : RequestPayload) :
    (ingestPayload hash s payload).api = s.api := by
  cases payload with
  | createFunctionCall event => rfl
  | dataplaneResults event =>
    have hall : ∀ (es : List AllocationOutputIngestedEvent) (s : Server),
        (es.foldl (ingestEvent hash) s).api = s.api := by
      intro es
      induction es with
      | nil => exact fun s => rfl
      | cons e es ih => exact fun s => ih (ingestEvent hash s e)
    exact hall event.allocationEvents _

def step (s : Server) : ServerEvent → Server
  | .connect executorId => {s with api.connections := s.api.connections.insert executorId {}}
  | .disconnect executorId =>
    {s with api := purgeExecutor {s.api with
      connections := s.api.connections.erase executorId} executorId}
  | .ackResults executorId ackedSeq =>
    {s with api.connections := s.api.connections.modify executorId fun conn =>
      conn.drainResultsUpTo ackedSeq}
  | .log env executorId entry => {s with api := (handleLogEntry env s.api executorId entry).1}
  | .outcome env executorId outcome =>
    let api := (processAllocationOutcome env executorId s.api outcome).1
    {s with api := api, routedFailures := s.routedFailures++routedFailure s.api api outcome}
  | .invoke av f requestId payload =>
    let ctx := newRequest av f requestId payload
    if ctx.key∈s.store.snapshots then s
    else {s with
      store := ⟨s.store.mem.invokeApplication ctx,s.store.snapshots.insert ctx.key ctx⟩}
  | .start key id allocation => s.write (startUpdate s.store.mem key id allocation)
  | .terminate executorId containerId reason =>
    s.write (ContainerReconciler.handleAllocationsForContainerTermination s.store.mem executorId
      containerId reason)
  | .ingest =>
    match s.api.queue with
    | [] => s
    | (_,payload)::rest => ingestPayload hash {s with api.queue := rest} payload
  | .commit => {s with
      api.allocations := s.unwritten.updatedAllocations.foldl upsertAllocation
        (s.unwritten.newAllocations.foldl (fun m a => m.insert a.key a) s.api.allocations)
      unwritten := {}}

def run (s : Server) (events : List ServerEvent) : Server := events.foldl (step hash) s

end Server

def heartbeatEvents (env : ApiEnv) (executorId : ExecutorId) (outcomes : List AllocationOutcome)
    (entries : List AllocationLogEntry) : List ServerEvent :=
  entries.map (.log env.toConversionEnv executorId)++outcomes.map (.outcome env executorId)

variable (hash : String → String)
include hash

lemma processAllocationLogEntries_run (env : ApiEnv)
    (executorId : ExecutorId) (entries : List AllocationLogEntry) (s : Server) :
    (processAllocationLogEntries env executorId s.api entries).1 =
      (s.run hash (entries.map (.log env.toConversionEnv executorId))).api := by
  unfold processAllocationLogEntries
  generalize 0 = n
  induction entries generalizing s n with
  | nil => rfl
  | cons entry entries ih =>
    rw [List.foldl_cons]
    dsimp only
    rw [countFailure_fst]
    exact ih (s.step hash (.log env.toConversionEnv executorId entry)) _

lemma processAllocationOutcomes_run (env : ApiEnv)
    (executorId : ExecutorId) (outcomes : List AllocationOutcome) (s : Server) :
    (processAllocationOutcomes env executorId s.api outcomes).1 =
      (s.run hash (outcomes.map (.outcome env executorId))).api := by
  unfold processAllocationOutcomes
  generalize 0 = n
  induction outcomes generalizing s n with
  | nil => rfl
  | cons outcome outcomes ih => exact ih (s.step hash (.outcome env executorId outcome)) _

/-- A heartbeat does what its reports do one after the other. -/
theorem processHeartbeatReports_run (env : ApiEnv) (s : Server) (executorId : ExecutorId)
    (outcomes : List AllocationOutcome) (entries : List AllocationLogEntry) :
    (processHeartbeatReports env s.api executorId true outcomes entries).1 =
      (s.run hash (heartbeatEvents env executorId outcomes entries)).api := by
  have hboth : (processHeartbeatReports env s.api executorId true outcomes entries).1 =
      (processAllocationOutcomes env executorId
        (processAllocationLogEntries env executorId s.api entries).1 outcomes).1 := by
    unfold processHeartbeatReports
    rw [if_pos rfl]
    dsimp only
    split_ifs <;> rfl
  rw [hboth,processAllocationLogEntries_run hash,processAllocationOutcomes_run hash]
  unfold Server.run heartbeatEvents
  rw [List.foldl_append]

omit hash

/-! A request on two executors: `plan` on executor-1 calls `answer`, which executor-2 runs. -/

def retryingVersion (maxRetries : ℕ) : ApplicationVersion :=
  {pipelineVersion with
    functions := pipelineVersion.functions.insert "answer"
      {pipelineFunction "answer" with retryPolicy := ⟨maxRetries⟩}}

def retryingMemory (maxRetries : ℕ) : InMemoryState where
  applicationVersions := AList.insert "default|pipeline|1" (retryingVersion maxRetries) ∅

def sampleEnv : ApiEnv where
  blobStore := fun _ => ⟨"file","file:///blobs"⟩
  bucketNameFromS3Url := fun url => url
  nanoid := fun _ => "generated"
  encodedLen := fun _ => 64

def answerRef : FunctionRef := ⟨some "default",some "pipeline",some "answer",some "1"⟩

def callAnswer : AllocationLogEntry where
  allocationId := "alloc-1"
  clock := 1
  entry := some (.callFunction {
    «namespace» := some "default"
    application := some "pipeline"
    requestId := some "request-1"
    updates := some ⟨[⟨some (.functionCall ⟨some "answer-1",some answerRef,[],none⟩)⟩],some "answer-1"⟩
    sourceFunctionCallId := some "request-1" })

def answerAllocation (id : String) : Allocation :=
  {pipelineAllocation id "answer-1" "answer" with
    target := ⟨⟨"executor-2"⟩,⟨"container-answer"⟩⟩}

def answerFailed (allocationId : String) : AllocationFailed where
  allocationId := allocationId
  reason := 2
  function := some answerRef
  functionCallId := some "answer-1"
  requestId := some "request-1"
  requestError := none
  executionDurationMs := some 5
  containerId := none

def awaitAnswer (maxRetries : ℕ) : List ServerEvent :=
  [.connect ⟨"executor-1"⟩,.invoke (retryingVersion maxRetries) (pipelineFunction "plan") "request-1"
      (pipelinePayload "input"),
    .start ⟨"default|pipeline|request-1"⟩ ⟨"request-1"⟩
      (pipelineAllocation "alloc-1" "request-1" "plan"),
    .commit,
    .log sampleEnv.toConversionEnv ⟨"executor-1"⟩ callAnswer,
    .ingest,
    .start ⟨"default|pipeline|request-1"⟩ ⟨"answer-1"⟩ (answerAllocation "alloc-2"),
    .commit]

end Indexify
