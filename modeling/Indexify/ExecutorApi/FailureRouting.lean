import Indexify.ExecutorApi.Server

/-! When a parent is told that a call failed. The report of one attempt is routed before the
retry policy has seen it, so the parent can be told of a failure that the server then retries. -/
namespace Indexify.Server
open FunctionRunCreator List InMemoryState ContainerReconciler
variable (s : Server)

/-- The last snapshot shows the run of the attempt terminally failed, or still on that attempt:
it was neither put back nor moved to another allocation. -/
def OnAttempt (x : Attempt) : Prop :=
  ∃ c ∈ s.store.snapshots.lookup x.1, ∃ r ∈ c.functionRuns.lookup x.2.1,
    r.Failed ∨ r.status = .running x.2.2
  deriving Decidable

/-- No routed failure is followed by a retry. -/
def FinalFailures : Prop := ∀ x∈s.routedFailures, s.OnAttempt x

/-- A report of the call with this outcome can only fail its run for good. -/
def Settles (k : RequestCtxKey) (id : FunctionCallId) (outcome : FunctionRunOutcome) : Prop :=
  ∀ c ∈ s.store.mem.requestCtx.lookup k, ∀ r ∈ c.functionRuns.lookup id,
    r.childFunctionCall = none ∧ (r.Failed ∨ FailsForGood s.store.mem outcome r)
  deriving Decidable

/-- The failure `out` of `attempt` is the last word on its call: the run is on that attempt, and
neither this report nor one that waits in the queue lets it go on. -/
def LastWord (attempt : Attempt) (out : FunctionRunOutcome) : Prop :=
  s.OnAttempt attempt ∧ s.Settles attempt.1 attempt.2.1 out ∧
    ∀ e∈s.api.queuedEvents, e.requestKey=attempt.1 → e.functionCallId=attempt.2.1 →
      s.Settles attempt.1 attempt.2.1 e.allocationOutcome
  deriving Decidable

/-- A failure that has a route is the last word on its call. A call whose failure was routed
gets no other report, and no container end puts its run back. -/
def FinalReport : ServerEvent → Prop
  | .outcome _ _ outcome => ∀ x ∈ reported s.api outcome,
      ((∃ y∈s.routedFailures, y.1=x.1.requestKey ∧ y.2.1 = ⟨x.1.functionCallId⟩) →
        s.Settles x.1.requestKey ⟨x.1.functionCallId⟩ x.2.2) ∧
      (x.2.2.isFailure → (s.api.route x.1.functionCallId).isSome →
        s.LastWord (x.1.requestKey,⟨x.1.functionCallId⟩,x.2.1.id) x.2.2)
  | .terminate executorId containerId reason => ∀ x∈s.routedFailures,
      ¬ freedBy s.store.mem executorId containerId reason x.1 x.2.1
  | _ => True

section

instance (e : ServerEvent) : Decidable (s.FinalReport e) := by
  unfold FinalReport
  split <;> infer_instance

end

/-- The invariant of a run with final reports; `events` are the reports still to be ingested. -/
structure Good (events : List AllocationOutputIngestedEvent) : Prop where
  keyed : ∀ {k c}, s.store.mem.requestCtx.lookup k = some c → c.key=k ∧ c.Keyed
  agree : ∀ {k c}, s.store.mem.requestCtx.lookup k = some c → s.store.snapshots.lookup k = some c
  plain : ∀ e∈events, e.allocationOutcome.isFailure → e.graphUpdates=none
  queued : ∀ x∈s.routedFailures, ∀ e∈events, e.requestKey=x.1 → e.functionCallId=x.2.1 →
    s.Settles x.1 x.2.1 e.allocationOutcome
  held : ∀ x∈s.routedFailures, s.OnAttempt x
  childless : ∀ x∈s.routedFailures, ∀ c ∈ s.store.mem.requestCtx.lookup x.1,
    ∀ r ∈ c.functionRuns.lookup x.2.1, r.childFunctionCall=none

def Steady : Prop := s.Good s.api.queuedEvents

variable {s} {events : List AllocationOutputIngestedEvent}

def Follows (s : Server) (u : SchedulerUpdateRequest) : Prop :=
  ∀ k c', u.updatedRequestStates.lookup k = some c' →
    ∃ c free, s.store.mem.requestCtx.lookup k = some c ∧ c.Advances free c' ∧
      ∀ x∈s.routedFailures, x.1=k → ∀ r, c.functionRuns.lookup x.2.1 = some r → ¬ free x.2.1 r

namespace Good
variable {hash : String → String}

lemma mono {events' : List AllocationOutputIngestedEvent} (hs : s.Good events)
    (h : ∀ e∈events', e∈events) : s.Good events' :=
  {hs with
    plain := fun e he => hs.plain e (h e he)
    queued := fun x hx e he => hs.queued x hx e (h e he)}

section
variable {u : SchedulerUpdateRequest} (hs : s.Good events) (hu : s.Follows u)
include hs hu

lemma key_of_update {k : RequestCtxKey} {c' : RequestCtx}
    (h : u.updatedRequestStates.lookup k = some c') : c'.key=k := by
  obtain ⟨c,free,hc,hadv,-⟩ := hu k c' h
  exact hadv.key.trans (hs.keyed hc).1

lemma run_write {x : Attempt} (hx : x∈s.routedFailures) {c' : RequestCtx}
    (h : u.updatedRequestStates.lookup x.1 = some c') {c : RequestCtx} {r : FunctionRun}
    (hc : s.store.snapshots.lookup x.1 = some c) (hr : c.functionRuns.lookup x.2.1 = some r) :
    ∃ r', c'.functionRuns.lookup x.2.1 = some r' ∧ r'.childFunctionCall=none ∧
      (r.SameAttempt r' ∨ r'.Failed) := by
  obtain ⟨c0,free,hc0,hadv,hfree⟩ := hu x.1 c' h
  cases (hs.agree hc0).symm.trans hc
  obtain ⟨r',hr',hm⟩ := hadv.runs hr
  exact ⟨r',hr',hm (hs.childless x hx c hc0 r hr) (hfree x hx rfl r hr)⟩

lemma settles_write {x : Attempt} (hx : x∈s.routedFailures) {outcome : FunctionRunOutcome}
    (h : s.Settles x.1 x.2.1 outcome) : (s.write u).Settles x.1 x.2.1 outcome := by
  intro c' hc' r' hr'
  rcases requestCtx_applySchedulerUpdate_cases (hs.key_of_update hu) hc' with
    hup | ⟨-,hold⟩
  · obtain ⟨c,free,hc,hadv,-⟩ := hu x.1 c' hup
    obtain ⟨c0,hc0,r,hr,-⟩ := hs.held x hx
    cases (hs.agree hc).symm.trans hc0
    obtain ⟨r2,hr2,hchild,hmove⟩ := hs.run_write hu hx hup hc0 hr
    cases hr2.symm.trans hr'
    refine ⟨hchild,?_⟩
    rcases hmove with hsame | hfailed
    · refine (h c hc r hr).2.imp (fun hf => hf.of_sameAttempt hsame) ?_
      intro hf
      exact hf.of_sameAttempt (s.store.mem.applySchedulerUpdate_applicationVersions u) hsame hchild
    · exact .inl hfailed
  · refine (h c' hold r' hr').imp id (Or.imp id ?_)
    intro hf
    exact hf.of_sameAttempt (s.store.mem.applySchedulerUpdate_applicationVersions u)
      (FunctionRun.SameAttempt.refl r') hf.1

theorem write : (s.write u).Good events where
  keyed {k c'} h := by
    rcases requestCtx_applySchedulerUpdate_cases (hs.key_of_update hu) h with
      hc | ⟨-,hc⟩
    · obtain ⟨c,free,-,hadv,-⟩ := hu k c' hc
      exact ⟨hs.key_of_update hu hc,hadv.keyed⟩
    · exact hs.keyed hc
  agree {k c'} h := by
    refine AList.mem_lookup_union.mpr ?_
    rcases requestCtx_applySchedulerUpdate_cases (hs.key_of_update hu) h with
      hc | ⟨hn,hc⟩
    · exact .inl hc
    · exact .inr ⟨AList.lookup_eq_none.mp hn,hs.agree hc⟩
  plain := hs.plain
  queued x hx e he hk hid := hs.settles_write hu hx (hs.queued x hx e he hk hid)
  held x hx := by
    obtain ⟨c,hc,r,hr,hor⟩ := hs.held x hx
    cases hup : u.updatedRequestStates.lookup x.1 with
    | none =>
      refine ⟨c,AList.mem_lookup_union.mpr (.inr ⟨?_,hc⟩),r,hr,hor⟩
      exact AList.lookup_eq_none.mp hup
    | some c' =>
      obtain ⟨r',hr',-,hmove⟩ := hs.run_write hu hx hup hc hr
      refine ⟨c',AList.mem_lookup_union.mpr (.inl hup),r',hr',?_⟩
      rcases hmove with hsame | hfailed
      · exact hor.imp (fun hf => hf.of_sameAttempt hsame) (fun ha => hsame.status.trans ha)
      · exact .inl hfailed
  childless x hx c' hc' r' hr' := by
    rcases requestCtx_applySchedulerUpdate_cases (hs.key_of_update hu) hc' with
      hup | ⟨-,hold⟩
    · obtain ⟨c,hc,r,hr,-⟩ := hs.held x hx
      obtain ⟨r2,hr2,hchild,-⟩ := hs.run_write hu hx hup hc hr
      cases hr2.symm.trans hr'
      exact hchild
    · exact hs.childless x hx c' hold r' hr'

end

lemma ingestEvent {e : AllocationOutputIngestedEvent}
    (hs : s.Good (e::events)) : (Server.ingestEvent hash s e).Good events := by
  refine (hs.write ?_).mono fun e' he' => mem_cons_of_mem _ he'
  intro k c' h
  obtain ⟨rfl,c,hc,hadv⟩ := handleAllocationIngestion_snapshots hash rfl hs.keyed h
  refine ⟨c,_,hc,hadv,?_⟩
  rintro x hx hk r hr ⟨hid,hopen,hbad⟩
  have hsettles := hs.queued x hx e mem_cons_self hk.symm hid.symm
  rw [hk] at hsettles
  rcases (hsettles c hc r hr).2 with hfailed | hgood
  · exact hopen hfailed.1
  have hplain : e.graphUpdates=none := by
    obtain ⟨-,reason,ho,-⟩ := hgood
    exact hs.plain e mem_cons_self (by rw [ho]; rfl)
  exact hbad ⟨hplain,hgood⟩

lemma foldl_ingestEvent {es : List AllocationOutputIngestedEvent}
    (hs : s.Good (es++events)) : (es.foldl (Server.ingestEvent hash) s).Good events := by
  induction es generalizing s with
  | nil => exact hs
  | cons e es ih => exact ih (ingestEvent hs)

lemma of_index (hs : s.Good events) {mem : InMemoryState} (hctx : mem.requestCtx=s.store.mem.requestCtx)
    (hversions : mem.applicationVersions=s.store.mem.applicationVersions) :
    ({s with store.mem := mem} : Server).Good events where
  keyed h := hs.keyed (hctx ▸ h)
  agree h := hs.agree (hctx ▸ h)
  plain := hs.plain
  queued x hx e he hk hid c hc r hr := by
    refine (hs.queued x hx e he hk hid c (hctx ▸ hc) r hr).imp id (Or.imp id ?_)
    intro hf
    exact hf.of_sameAttempt hversions (FunctionRun.SameAttempt.refl r) hf.1
  held := hs.held
  childless x hx c hc r hr := hs.childless x hx c (hctx ▸ hc) r hr

lemma ingestPayload {payload : RequestPayload} (hs : s.Good (payload.events++events)) :
    (Server.ingestPayload hash s payload).Good events := by
  cases payload with
  | createFunctionCall event =>
    refine hs.write ?_
    intro k c' h
    obtain ⟨c,hc,hquiet⟩ := handleBlockingFunctionCall_snapshots hash hs.keyed h
    exact ⟨c,_,hc,hquiet,fun x _ _ r _ hfalse => hfalse⟩
  | dataplaneResults event =>
    have hindex : ∀ (es : List AllocationOutputIngestedEvent) (m : InMemoryState),
        (es.foldl (removeReported event.executorId) m).requestCtx = m.requestCtx ∧
        (es.foldl (removeReported event.executorId) m).applicationVersions = m.applicationVersions := by
      intro es
      induction es with
      | nil => exact fun m => ⟨rfl,rfl⟩
      | cons e es ih => exact fun m => ih (m.removeReported event.executorId e)
    obtain ⟨hctx,hversions⟩ := hindex event.allocationEvents s.store.mem
    exact foldl_ingestEvent (hs.of_index hctx hversions)

variable (hs : s.Good events)
include hs

lemma start (key : RequestCtxKey) (id : FunctionCallId) (allocation : Allocation) :
    (s.write (startUpdate s.store.mem key id allocation)).Good events := by
  refine hs.write ?_
  intro k c' h
  obtain ⟨c,run,hc,hr,-,hpending,rfl,rfl⟩ := startUpdate_snapshot h
  obtain ⟨rfl,hkeyed⟩ := hs.keyed hc
  set run' : FunctionRun := {run with status := .running allocation.id} with hrun'
  have hrid : run.id=id := hkeyed.runs hr
  have hid : run'.id=id := hrid
  refine ⟨c,fun i r => r.status=.pending,hc,?_,?_⟩
  · refine RequestCtx.Advances.overwrite (RequestCtx.Advances.refl hkeyed) hr hid ?_ rfl ?_ rfl
    · exact fun _ hfree => absurd hpending hfree
    · rw [← hrid]
  -- a routed run is running or completed
  intro x hx hk r hrx hwaits
  obtain ⟨c0,hc0,r0,hr0,hor⟩ := hs.held x hx
  rw [hk] at hc0
  cases (hs.agree hc).symm.trans hc0
  cases hrx.symm.trans hr0
  rcases hor with hf | hf
  · cases hf.1.symm.trans hwaits
  · cases hf.symm.trans hwaits

lemma invoke {ctx : RequestCtx} (hkeyed : ctx.Keyed) (hnew : ctx.key∉s.store.snapshots) :
    ({s with store :=
      ⟨s.store.mem.invokeApplication ctx,s.store.snapshots.insert ctx.key ctx⟩} : Server).Good
        events := by
  have hother : ∀ x∈s.routedFailures, x.1≠ctx.key := by
    rintro x hx he
    obtain ⟨c,hc,-⟩ := hs.held x hx
    rw [he] at hc
    exact hnew (Dict.mem_of_lookup hc)
  have hlook : ∀ k, (s.store.mem.invokeApplication ctx).requestCtx.lookup k =
      if k=ctx.key then some ctx else s.store.mem.requestCtx.lookup k := by
    intro k
    rw [(invokeApplication_frame _ _).1,Dict.lookup_insert_if]
  constructor
  · intro k c h
    rw [hlook] at h
    split_ifs at h with hk
    · cases h
      exact ⟨hk.symm,hkeyed⟩
    · exact hs.keyed h
  · intro k c h
    rw [hlook] at h
    rw [Dict.lookup_insert_if]
    split_ifs at h with hk
    · rw [if_pos hk,h]
    · rw [if_neg hk,hs.agree h]
  · exact hs.plain
  · intro x hx e he hk hid c hc r hr
    rw [hlook,if_neg (hother x hx)] at hc
    refine (hs.queued x hx e he hk hid c hc r hr).imp id (Or.imp id ?_)
    intro hf
    exact hf.of_sameAttempt (invokeApplication_frame _ ctx).2
      (FunctionRun.SameAttempt.refl r) hf.1
  · intro x hx
    obtain ⟨c,hc,r,hr,hor⟩ := hs.held x hx
    refine ⟨c,?_,r,hr,hor⟩
    rw [Dict.lookup_insert_if,if_neg (hother x hx)]
    exact hc
  · intro x hx c hc r hr
    rw [hlook,if_neg (hother x hx)] at hc
    exact hs.childless x hx c hc r hr

lemma terminate {executorId : ExecutorId} {containerId : ContainerId}
    {reason : ContainerTerminationReason}
    (h : ∀ x∈s.routedFailures, ¬ freedBy s.store.mem executorId containerId reason x.1 x.2.1) :
    (s.write (handleAllocationsForContainerTermination s.store.mem executorId
      containerId reason)).Good events := by
  refine hs.write ?_
  intro k c' hup
  obtain ⟨c,hc,hadv⟩ := handleAllocations_snapshots hs.keyed hup
  refine ⟨c,_,hc,hadv,?_⟩
  rintro x hx rfl r -
  exact h x hx

lemma of_api (api : ApiState) : ({s with api := api} : Server).Good events :=
  ⟨hs.keyed,hs.agree,hs.plain,hs.queued,hs.held,hs.childless⟩

omit hs

lemma outcome (hs : s.Good s.api.queuedEvents) {env : ApiEnv} {executorId : ExecutorId}
    {outcome : Proto.AllocationOutcome} (h : s.FinalReport (.outcome env executorId outcome)) :
    ({s with
      api := (processAllocationOutcome env executorId s.api outcome).1
      routedFailures := s.routedFailures++routedFailure s.api
        (processAllocationOutcome env executorId s.api outcome).1 outcome} : Server).Good
      (processAllocationOutcome env executorId s.api outcome).1.queuedEvents := by
  rcases processAllocationOutcome_event env executorId s.api outcome with
    he | ⟨f,a,out,e,hrep,hkey,hid,hout,hplain,hqueue⟩
  · have hnone : routedFailure s.api s.api outcome = [] := by
      unfold routedFailure
      split
      · rw [if_neg (by simp)]
      · rfl
    rw [he,hnone,append_nil]
    exact hs
  obtain ⟨hagain,hfirst⟩ := h (f,a,out) hrep
  have hnew : ∀ x ∈ routedFailure s.api (processAllocationOutcome env executorId s.api
      outcome).1 outcome, x = (f.requestKey,⟨f.functionCallId⟩,a.id) ∧ s.LastWord x out := by
    intro x hx
    obtain ⟨f',a',reason,hrep',rfl,hroute⟩ := mem_routedFailure hx
    cases hrep.symm.trans hrep'
    exact ⟨rfl,hfirst rfl hroute⟩
  rw [hqueue]
  constructor
  · exact hs.keyed
  · exact hs.agree
  · intro e' he'
    rcases mem_append.mp he' with hmem | hmem
    · exact hs.plain e' hmem
    · rw [mem_singleton.mp hmem,hout]
      exact hplain
  · intro x hx e' he' hk hi
    rcases mem_append.mp hx with hold | hx
    · rcases mem_append.mp he' with hmem | hmem
      · exact hs.queued x hold e' hmem hk hi
      obtain rfl := mem_singleton.mp hmem
      rw [← hk,← hi,hkey,hid,hout]
      exact hagain ⟨x,hold,hk.symm.trans hkey,hi.symm.trans hid⟩
    obtain ⟨rfl,-,hsettles,hwaiting⟩ := hnew x hx
    rcases mem_append.mp he' with hmem | hmem
    · exact hwaiting e' hmem hk hi
    · rw [mem_singleton.mp hmem,hout]
      exact hsettles
  · intro x hx
    rcases mem_append.mp hx with hold | hx
    · exact hs.held x hold
    · obtain ⟨rfl,hon,-⟩ := hnew x hx
      exact hon
  · intro x hx c hc r hr
    rcases mem_append.mp hx with hold | hx
    · exact hs.childless x hold c hc r hr
    · obtain ⟨rfl,-,hsettles,-⟩ := hnew x hx
      exact (hsettles c hc r hr).1

theorem step {hash : String → String} {e : ServerEvent} (hs : s.Steady) (h : s.FinalReport e) :
    (s.step hash e).Steady := by
  unfold Steady at hs ⊢
  cases e with
  | connect executorId
  | disconnect executorId
  | ackResults executorId ackedSeq => exact hs.of_api _
  | log env executorId entry =>
    simp only [Server.step]
    rw [handleLogEntry_queuedEvents]
    exact hs.of_api _
  | outcome env executorId outcome => exact hs.outcome h
  | invoke av f requestId payload =>
    simp only [Server.step]
    split_ifs with hk
    · exact hs
    · have hcons := newRequest_consistent av f requestId payload
      exact hs.invoke ⟨hcons.runs_keyed,hcons.calls_keyed⟩ hk
  | start key id allocation => exact hs.start key id allocation
  | terminate executorId containerId reason => exact hs.terminate h
  | ingest =>
    simp only [Server.step]
    cases hq : s.api.queue with
    | nil =>
      exact hs
    | cons p rest =>
      obtain ⟨seq,payload⟩ := p
      rw [ingestPayload_api]
      apply ingestPayload
      have hqueued : s.api.queuedEvents = payload.events ++
          ({s.api with queue := rest} : ApiState).queuedEvents := by
        simp [ApiState.queuedEvents,hq]
      rw [← hqueued]
      exact hs.of_api _
  | commit => exact ⟨hs.keyed,hs.agree,hs.plain,hs.queued,hs.held,hs.childless⟩

end Good

/-- In every run whose failure reports are final, each routed failure belongs to a run that is
terminally failed or still on the attempt that failed: a run that the retry policy puts back
keeps its route, and its parent hears nothing. -/
theorem run_finalFailures {hash : String → String} {mem : InMemoryState} (hempty : mem.requestCtx = ∅)
    {events : List ServerEvent} (h : Trace.Along (step hash) FinalReport (init mem) events) :
    ((init mem).run hash events).FinalFailures := by
  have hinit : (init mem).Steady := by
    constructor
    · intro k c hc
      rw [init,hempty] at hc
      cases hc
    · intro k c hc
      rw [init,hempty] at hc
      cases hc
    · exact fun e he => by cases he
    · exact fun x hx => by cases hx
    · exact fun x hx => by cases hx
    · exact fun x hx => by cases hx
  have hgood : ((init mem).run hash events).Steady := h.invariant Good.step hinit
  exact hgood.held

def failedAnswer (maxRetries : ℕ) : List ServerEvent :=
  awaitAnswer maxRetries ++
    [.outcome sampleEnv ⟨"executor-2"⟩ (.failed (answerFailed "alloc-2")),.ingest]

/-- With one retry left the run of `answer` is pending again, while the parent's executor was
sent the failure and the route is gone. -/
theorem failedAnswer_retried : (retryingMemory 1).requestCtx = ∅ ∧
    (((init (retryingMemory 1)).run id (failedAnswer 1)).api.connections.lookup
      ⟨"executor-1"⟩).map ExecutorConnection.pendingResults =
        some [⟨1,some (failureLogEntry ⟨"alloc-1","answer-1",⟨"executor-1"⟩⟩
          (answerFailed "alloc-2"))⟩] ∧
    ((init (retryingMemory 1)).run id (failedAnswer 1)).api.route "answer-1" = none ∧
    ((((init (retryingMemory 1)).run id (failedAnswer 1)).store.mem.requestCtx.lookup
      ⟨"default|pipeline|request-1"⟩).bind fun c =>
        (c.functionRuns.lookup ⟨"answer-1"⟩).map FunctionRun.status) = some .pending ∧
    ¬ ((init (retryingMemory 1)).run id (failedAnswer 1)).FinalFailures := by
  refine ⟨rfl,by decide,by decide,by decide,?_⟩
  intro h
  have hrouted : (⟨"default|pipeline|request-1"⟩,⟨"answer-1"⟩,⟨"alloc-2"⟩) ∈
      ((init (retryingMemory 1)).run id (failedAnswer 1)).routedFailures := by decide
  have hoff : ¬ ((init (retryingMemory 1)).run id (failedAnswer 1)).OnAttempt
      (⟨"default|pipeline|request-1"⟩,⟨"answer-1"⟩,⟨"alloc-2"⟩) := by decide
  exact hoff (h _ hrouted)

/-- Without retries the failure is final. -/
theorem failedAnswer_final : ((init (retryingMemory 0)).run id (failedAnswer 0)).routedFailures =
    [(⟨"default|pipeline|request-1"⟩,⟨"answer-1"⟩,⟨"alloc-2"⟩)] ∧
    ((init (retryingMemory 0)).run id (failedAnswer 0)).FinalFailures :=
  ⟨by decide,run_finalFailures rfl (by decide)⟩

end Indexify.Server
