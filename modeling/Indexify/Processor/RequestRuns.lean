import Indexify.Processor.Ingestion

/-! Requests from their invocation on: runs start, call other functions and finish in any
order, and every update is applied before the next event. -/
namespace Indexify.FunctionRunCreator
open RequestCtx Dict
variable {s : InMemoryState} {allocation : Allocation}

/-- The request that an invocation of the entrypoint `f` creates; its first call carries the id
of the request. -/
def newRequest (av : ApplicationVersion) (f : Function) (requestId : String)
    (payload : DataPayload) : RequestCtx :=
  let call : FunctionCall := {
    functionCallId := ⟨requestId⟩
    inputs := [.dataPayload payload]
    fnName := f.name
    callMetadata := []
    parentFunctionCallId := none}
  let run := av.createFunctionRun call [⟨none,payload⟩] requestId
  { «namespace» := av.namespace
    applicationName := av.name
    applicationVersion := av.version
    requestId := requestId
    outcome := none
    requestError := none
    functionRuns := AList.insert run.id run ∅
    functionCalls := AList.insert call.functionCallId call ∅ }

/-- The server's memory, and of every request, finished ones too, the context that was written last.
Its row holds the context without its runs and calls. -/
structure RequestStore where
  mem : InMemoryState
  snapshots : Dict RequestCtxKey RequestCtx

inductive RequestEvent
  | invoke (av : ApplicationVersion) (f : Function) (requestId : String) (payload : DataPayload)
  | start (key : RequestCtxKey) (id : FunctionCallId) (allocation : Allocation)
  | call (event : FunctionCallEvent)
  | finish (allocations : Dict String Allocation)
      (containers : Dict ContainerId ContainerServerMetadata)
      (event : AllocationOutputIngestedEvent)

def startUpdate (s : InMemoryState) (key : RequestCtxKey) (id : FunctionCallId)
    (allocation : Allocation) : SchedulerUpdateRequest :=
  match s.requestCtx.lookup key with
  | none => {}
  | some ctx =>
    match ctx.functionRuns.lookup id with
    | none => {}
    | some run =>
      if ctx.outcome.isNone ∧ run.status=.pending then
        let u : SchedulerUpdateRequest := {newAllocations := [allocation]}
        let (u,ctx) := u.addFunctionRun {run with status := .running allocation.id} ctx
        u.addRequestState ctx
      else {}

def RequestStore.write (s : RequestStore) (u : SchedulerUpdateRequest) : RequestStore where
  mem := s.mem.applySchedulerUpdate u
  snapshots := u.updatedRequestStates ∪ s.snapshots

/-- A request whose key is taken is refused. -/
def RequestStore.step (hash : String → String) (s : RequestStore) : RequestEvent → RequestStore
  | .invoke av f requestId payload =>
    let ctx := newRequest av f requestId payload
    if ctx.key∈s.snapshots then s
    else ⟨s.mem.invokeApplication ctx,s.snapshots.insert ctx.key ctx⟩
  | .start key id allocation => s.write (startUpdate s.mem key id allocation)
  | .call event => s.write (handleBlockingFunctionCall hash s.mem event)
  | .finish allocations containers event =>
    s.write (handleAllocationIngestion hash s.mem allocations {containers := containers} event)

def RequestStore.run (hash : String → String) (s : RequestStore) (events : List RequestEvent) :
    RequestStore := events.foldl (RequestStore.step hash) s

def SuccessfulEvent (s : RequestStore) : RequestEvent → Prop
  | .finish allocations _ event => Reported event ∧ ∀ {c run allocation av},
      Ingests s.mem allocations event c run allocation →
        s.mem.getExistingApplicationVersion run = some av → Succeeds av run event
  | _ => True

/-- The version of a finishing run is in memory and the updates fit the tail calls of the
request. -/
def SafeEvent (hash : String → String) (s : RequestStore) : RequestEvent → Prop
  | .finish allocations _ event => ∀ {c run allocation}, Ingests s.mem allocations event c run allocation →
        (s.mem.getExistingApplicationVersion run).isSome ∧ SafeFinish hash c event.functionCallId event
  | .call event => ∀ {c}, s.mem.requestCtx.lookup
      (RequestCtx.keyFrom event.namespace event.application event.requestId) = some c →
        SafeUpdates hash c event.graphUpdates
  | _ => True

/-- A tail call has the output of the end of its chain as soon as that is finished, and a
successful request has no call without a run and no run without success. -/
structure Delivered (c : RequestCtx) : Prop where
  arrived : ∀ {id t r e}, c.functionRuns.lookup id = some r → r.childFunctionCall = some t →
    c.EndsAt t e → e.status=.completed →
    r.status = .completed ∧ r.outcome = some .success ∧ r.output=e.output
  complete : c.outcome = some .success → (∀ id, id∈c.functionCalls → id∈c.functionRuns) ∧
    ∀ {id r}, c.functionRuns.lookup id = some r → r.outcome = some .success ∧ ∃ e, c.EndsAt id e

lemma Sound.delivered {c : RequestCtx} (h : Sound c) : Delivered c where
  arrived hr ht he hdone := h.consistent.resolved hr ht he hdone
  complete ho := by
    obtain ⟨hruns,hdone⟩ := h.complete ho
    exact ⟨hruns,fun hr => h.consistent.all_success hruns hdone hr⟩

lemma newRequest_consistent (av : ApplicationVersion) (f : Function) (requestId : String)
    (payload : DataPayload) : (newRequest av f requestId payload).Consistent := by
  have hlook : ∀ {id r}, (newRequest av f requestId payload).functionRuns.lookup id = some r →
      id = ⟨requestId⟩ ∧ r.id = ⟨requestId⟩ ∧ r.status=.pending ∧ r.childFunctionCall=none ∧
        r.output = none ∧ r.outcome=none := by
    intro id r h
    rcases lookup_insert_cases h with ⟨hid,rfl⟩ | ⟨-,⟨⟩⟩
    exact ⟨hid,rfl,rfl,rfl,rfl,rfl⟩
  have hwaits : ∀ {id t}, ¬ (newRequest av f requestId payload).Waits id t := by
    rintro id t ⟨r,hr,ht⟩
    rw [(hlook hr).2.2.2.1] at ht
    cases ht
  constructor
  · intro id r h
    obtain ⟨rfl,hid,-⟩ := hlook h
    exact hid
  · intro id call h
    rcases lookup_insert_cases h with ⟨hid,rfl⟩ | ⟨-,⟨⟩⟩
    exact hid.symm
  · intro id h
    obtain ⟨r,hr⟩ := exists_of_mem h
    obtain ⟨rfl,-⟩ := hlook hr
    exact (AList.mem_insert _).mpr (.inl rfl)
  · intro id r h _
    obtain ⟨-,-,-,hchild,hout,hno⟩ := hlook h
    exact ⟨hchild,hout,hno⟩
  · intro id r h hdone
    obtain ⟨-,-,hpending,-⟩ := hlook h
    rw [hpending] at hdone
    cases hdone
  · intro id t h
    exact absurd h hwaits
  · intro id r t h ht
    exact absurd ⟨r,h,ht⟩ hwaits
  · intro id id' t h
    exact absurd h hwaits
  · exact ⟨fun _ => 0,fun h => absurd h hwaits⟩

/-- Contexts in memory are consistent and every snapshot is sound. -/
structure RequestStore.Good (s : RequestStore) : Prop where
  mem : ∀ {k c}, s.mem.requestCtx.lookup k = some c → c.Consistent
  snapshots : ∀ {k c}, s.snapshots.lookup k = some c → Sound c

lemma RequestStore.Good.write {s : RequestStore} (hs : s.Good) {u : SchedulerUpdateRequest}
    (hu : ∀ {k c}, u.updatedRequestStates.lookup k = some c → c.key=k ∧ Sound c) : (s.write u).Good where
  mem {k c} h := by
    rcases InMemoryState.requestCtx_applySchedulerUpdate_cases (fun h => (hu h).1) h with
      hc | ⟨-,hc⟩
    · exact (hu hc).2.consistent
    · exact hs.mem hc
  snapshots {k c} h := by
    rcases AList.mem_lookup_union.mp h with hc | ⟨-,hc⟩
    · exact (hu hc).2
    · exact hs.snapshots hc

lemma startUpdate_snapshot {key k : RequestCtxKey} {id : FunctionCallId} {c' : RequestCtx}
    (h : (startUpdate s key id allocation).updatedRequestStates.lookup k = some c') :
    ∃ c run, s.requestCtx.lookup key = some c ∧ c.functionRuns.lookup id = some run ∧
      c.outcome = none ∧ run.status=.pending ∧ k=c.key ∧
      c' = {c with functionRuns :=
        c.functionRuns.insert run.id {run with status := .running allocation.id}} := by
  unfold startUpdate at h
  split at h
  · cases h
  rename_i c hc
  split at h
  · cases h
  rename_i run hr
  split at h
  · rename_i hp
    simp only [SchedulerUpdateRequest.addRequestState,SchedulerUpdateRequest.addFunctionRun,
      SchedulerUpdateRequest.mergeRequestState,lookup_insert_if] at h
    split_ifs at h with hk
    · exact ⟨c,run,hc,hr,Option.isNone_iff_eq_none.mp hp.1,hp.2,hk,(Option.some.inj h).symm⟩
    · cases h
  · cases h

lemma startUpdate_sound (hs : ∀ {k c}, s.requestCtx.lookup k = some c → c.Consistent)
    {key k : RequestCtxKey} {id : FunctionCallId} {c' : RequestCtx}
    (h : (startUpdate s key id allocation).updatedRequestStates.lookup k = some c') :
    c'.key = k ∧ Sound c' := by
  obtain ⟨c,run,hc,hr,ho,hpending,rfl,rfl⟩ := startUpdate_snapshot h
  have hcons := hs hc
  have hopen : run.status≠.completed := by rw [hpending]; simp
  obtain ⟨hchild,hnoout,hno⟩ := hcons.blank hr hopen
  obtain rfl : run.id=id := hcons.runs_keyed hr
  set run' : FunctionRun := {run with status := .running allocation.id} with hrun'
  have hid : run'.id=run.id := rfl
  have hstatus : run'.status≠.completed := by simp [hrun']
  refine ⟨rfl,?_,?_⟩
  · refine hcons.blank_run hid rfl hno hnoout ?_ hstatus hchild rfl
      (hcons.called (mem_of_lookup hr))
    intro r hr'
    cases hr.symm.trans hr'
    exact hopen
  · intro hsucc
    cases ho.symm.trans hsucc

lemma RequestStore.Good.step {hash : String → String} {s : RequestStore} {e : RequestEvent}
    (hs : s.Good) (he : SuccessfulEvent s e ∧ SafeEvent hash s e) : (s.step hash e).Good := by
  cases e with
  | invoke av f requestId payload =>
    simp only [RequestStore.step]
    split_ifs with hk
    · exact hs
    have hnew := newRequest_consistent av f requestId payload
    constructor
    · intro k c h
      rw [(InMemoryState.invokeApplication_frame _ _).1] at h
      exact of_lookup_insert hs.mem hnew h
    · intro k c h
      exact of_lookup_insert hs.snapshots ⟨hnew,by rintro ⟨⟩⟩ h
  | start key id allocation => exact hs.write (startUpdate_sound hs.mem)
  | call event =>
    refine hs.write (handleBlockingFunctionCall_sound ?_)
    intro c hc
    exact ⟨hs.mem hc,he.2 hc⟩
  | finish allocations containers event =>
    obtain ⟨⟨hrep,hsucc⟩,hsafe⟩ := he
    refine hs.write (handleAllocationIngestion_sound rfl hrep ?_)
    intro c run allocation hi
    obtain ⟨hv,hfin⟩ := hsafe hi
    obtain ⟨av,hav⟩ := Option.isSome_iff_exists.mp hv
    exact ⟨hs.mem hi.ctx,⟨av,hav,hsucc hi hav⟩,hfin⟩

/-- When every run succeeds and every event is safe, all tail calls deliver: whatever the order
of the events and however long the chains. -/
theorem run_delivers {hash : String → String} {s : InMemoryState} (hempty : s.requestCtx = ∅)
    {events : List RequestEvent}
    (hsucc : Trace.Along (RequestStore.step hash) SuccessfulEvent ⟨s,∅⟩ events)
    (hsafe : Trace.Along (RequestStore.step hash) (SafeEvent hash) ⟨s,∅⟩ events)
    {k : RequestCtxKey} {c : RequestCtx}
    (h : (RequestStore.run hash ⟨s,∅⟩ events).snapshots.lookup k = some c) : Delivered c := by
  have hinit : RequestStore.Good ⟨s,∅⟩ := by
    constructor
    · intro k c hc
      rw [hempty] at hc
      cases hc
    · intro k c hc
      cases hc
  have hgood : (RequestStore.run hash ⟨s,∅⟩ events).Good :=
    (hsucc.and hsafe).invariant RequestStore.Good.step hinit
  exact (hgood.snapshots h).delivered

/-! A request of two functions: `plan` is invoked and `answer` is its tail call. -/

def pipelineFunction (name : String) : Function where
  name := name
  placementConstraints := []
  secretNames := none
  timeoutMs := 300000
  resources := ⟨1000,1024,1024,[]⟩
  retryPolicy := ⟨0⟩
  maxConcurrency := 1

def pipelineVersion : ApplicationVersion where
  «namespace» := "default"
  name := "pipeline"
  version := "1"
  functions := AList.insert "plan" (pipelineFunction "plan")
    (AList.insert "answer" (pipelineFunction "answer") ∅)
  state := .active

def pipelinePayload (id : String) : DataPayload where
  id := id
  path := "default/"++id
  metadataSize := 0
  offset := 0
  size := 16
  sha256Hash := id
  encoding := "application/json"

def pipelineMemory : InMemoryState where
  applicationVersions := AList.insert "default|pipeline|1" pipelineVersion ∅

def pipelineAllocation (id functionCallId function : String) : Allocation where
  id := ⟨id⟩
  target := ⟨⟨"executor-1"⟩,⟨"container-"++function⟩⟩
  functionCallId := ⟨functionCallId⟩
  «namespace» := "default"
  application := "pipeline"
  applicationVersion := "1"
  function := function
  requestId := "request-1"
  outcome := .unknown
  attemptNumber := 0
  executionDurationMs := none
  inputArgs := []
  vectorClock := 0
  callMetadata := []

def pipelineFinish (id functionCallId function : String) (value : Option DataPayload)
    (updates : Option GraphUpdates) : RequestEvent :=
  .finish (AList.insert ("default|pipeline|request-1|"++id)
      (pipelineAllocation id functionCallId function) ∅) ∅
    { «namespace» := "default"
      application := "pipeline"
      function := function
      requestId := "request-1"
      functionCallId := ⟨functionCallId⟩
      dataPayload := value
      graphUpdates := updates
      requestException := none
      allocationId := ⟨id⟩
      allocationTarget := ⟨⟨"executor-1"⟩,⟨"container-"++function⟩⟩
      allocationOutcome := .success
      executionDurationMs := some 5 }

def answerCall : FunctionCall where
  functionCallId := ⟨"answer-1"⟩
  inputs := [.dataPayload (pipelinePayload "question")]
  fnName := "answer"
  callMetadata := []
  parentFunctionCallId := none

def pipelineStart (id functionCallId function : String) : RequestEvent :=
  .start ⟨"default|pipeline|request-1"⟩ ⟨functionCallId⟩
    (pipelineAllocation id functionCallId function)

/-- `answer` is called while `plan` runs, finishes, and is then named as the tail call. -/
def lateTailCall : List RequestEvent :=
  [.invoke pipelineVersion (pipelineFunction "plan") "request-1" (pipelinePayload "input"),
    pipelineStart "alloc-1" "request-1" "plan",
    .call ⟨"default","pipeline","request-1",⟨"request-1"⟩,⟨[.functionCall answerCall],⟨"answer-1"⟩⟩⟩,
    pipelineStart "alloc-2" "answer-1" "answer",
    pipelineFinish "alloc-2" "answer-1" "answer" (some (pipelinePayload "value")) none,
    pipelineFinish "alloc-1" "request-1" "plan" none (some ⟨[],⟨"answer-1"⟩⟩)]

def earlyTailCall : List RequestEvent :=
  [.invoke pipelineVersion (pipelineFunction "plan") "request-1" (pipelinePayload "input"),
    pipelineStart "alloc-1" "request-1" "plan",
    pipelineFinish "alloc-1" "request-1" "plan" none
      (some ⟨[.functionCall answerCall],⟨"answer-1"⟩⟩),
    pipelineStart "alloc-2" "answer-1" "answer",
    pipelineFinish "alloc-2" "answer-1" "answer" (some (pipelinePayload "value")) none]

lemma pipelineFinish_successful (s : RequestStore) (id functionCallId function : String)
    {value : Option DataPayload} {updates : Option GraphUpdates} (h : value=none ∨ updates=none) :
    SuccessfulEvent s (pipelineFinish id functionCallId function value updates) := by
  refine ⟨⟨h,?_⟩,fun _ _ => .inl rfl⟩
  intro reason hfail
  cases hfail

/-- The request ends successful while `plan` has neither an outcome nor an output. -/
theorem lateTailCall_not_delivered : pipelineMemory.requestCtx = ∅ ∧
    Trace.Along (RequestStore.step id) SuccessfulEvent ⟨pipelineMemory,∅⟩ lateTailCall ∧
    ∃ c, (RequestStore.run id ⟨pipelineMemory,∅⟩ lateTailCall).snapshots.lookup
      ⟨"default|pipeline|request-1"⟩ = some c ∧ ¬ Delivered c := by
  refine ⟨rfl,⟨trivial,trivial,trivial,trivial,pipelineFinish_successful _ _ _ _ (.inr rfl),
    pipelineFinish_successful _ _ _ _ (.inl rfl),trivial⟩,?_⟩
  have hrun : ((RequestStore.run id ⟨pipelineMemory,∅⟩ lateTailCall).snapshots.lookup
      ⟨"default|pipeline|request-1"⟩).map (fun c => (c.outcome,
        (c.functionRuns.lookup ⟨"request-1"⟩).map FunctionRun.outcome)) =
      some (some .success,some none) := by decide
  obtain ⟨c,hc,he⟩ := Option.map_eq_some_iff.mp hrun
  obtain ⟨ho,hr⟩ := Prod.mk.inj he
  obtain ⟨r,hr,hno⟩ := Option.map_eq_some_iff.mp hr
  refine ⟨c,hc,?_⟩
  intro h
  have hsucc := ((h.complete ho).2 hr).1
  rw [hno] at hsucc
  cases hsucc

lemma SafeTailCall.of_new_call {hash : String → String} {c : RequestCtx} {id : FunctionCallId}
    {call : FunctionCall} (hwaits : ∀ q t, ¬ c.Waits q t) (hne : call.functionCallId≠id)
    (hnew : call.functionCallId∉c.functionRuns) :
    SafeTailCall hash c id ⟨[.functionCall call],call.functionCallId⟩ where
  pairs op h := by simp at h
  fresh h := by simp [renamedIds] at h
  known := .inr ⟨_,List.mem_singleton_self _,rfl⟩
  kept := by simp [renamedIds]
  other := hne
  forward h := by
    obtain ⟨r,t,hr,ht,-⟩ := h.lookup
    exact hwaits _ _ ⟨r,hr,ht⟩
  single q := hwaits q _
  unfinished r hr := absurd (mem_of_lookup hr) hnew

lemma Ingests.of_check {allocations : Dict String Allocation}
    {event : AllocationOutputIngestedEvent} {c : RequestCtx} {run : FunctionRun}
    (hi : Ingests s allocations event c run allocation) {p : RequestCtx → FunctionRun → Bool}
    (h : (s.requestCtx.lookup (RequestCtx.keyFrom event.namespace event.application
      event.requestId)).all fun c => (c.functionRuns.lookup event.functionCallId).all (p c)) :
    p c run := by
  rw [hi.ctx] at h
  simpa [hi.listed] using h

/-- The run of `plan` gets the value of `answer`. -/
theorem earlyTailCall_delivered :
    ∃ c, (RequestStore.run id ⟨pipelineMemory,∅⟩ earlyTailCall).snapshots.lookup
      ⟨"default|pipeline|request-1"⟩ = some c ∧ c.outcome = some .success ∧ Delivered c := by
  have hrun : ((RequestStore.run id ⟨pipelineMemory,∅⟩ earlyTailCall).snapshots.lookup
      ⟨"default|pipeline|request-1"⟩).map RequestCtx.outcome = some (some .success) := by decide
  obtain ⟨c,hc,ho⟩ := Option.map_eq_some_iff.mp hrun
  refine ⟨c,hc,ho,run_delivers rfl ?_ ?_ hc⟩
  · exact ⟨trivial,trivial,pipelineFinish_successful _ _ _ _ (.inl rfl),trivial,
      pipelineFinish_successful _ _ _ _ (.inr rfl),trivial⟩
  refine ⟨trivial,trivial,?_,trivial,?_,trivial⟩
  · intro c run allocation hi
    have hcheck := hi.of_check (p := fun c r =>
      (pipelineMemory.getExistingApplicationVersion r).isSome &&
        decide (answerCall.functionCallId∉c.functionRuns) &&
          c.functionRuns.values.all fun q => q.childFunctionCall.isNone) (by decide)
    simp only [Bool.and_eq_true,decide_eq_true_eq] at hcheck
    obtain ⟨⟨hv,hnew⟩,hblank⟩ := hcheck
    refine ⟨hv,⟨?_,?_⟩⟩
    · intro _ h
      cases h
    intro g hg
    cases hg
    refine SafeTailCall.of_new_call ?_ (by decide) hnew
    rintro q t ⟨r,hr,ht⟩
    have hnone := List.all_eq_true.mp hblank r ((mem_values_iff _ _).mpr ⟨q,hr⟩)
    rw [ht] at hnone
    cases hnone
  · intro c run allocation hi
    refine ⟨hi.of_check (p := fun _ r => (pipelineMemory.getExistingApplicationVersion r).isSome)
      (by decide),⟨?_,?_⟩⟩
    · intro _ _
      exact .inl rfl
    · intro g hg
      cases hg

end Indexify.FunctionRunCreator
