import Indexify.ExecutorApi.CommandResponses
import Indexify.ExecutorApi.ConversionErrors
import Indexify.ExecutorApi.Server
import Indexify.Library.Counting

/-! Heartbeats with reports that can never be converted. All that the well-formed reports of a
heartbeat bring is queued; its answer depends on what is wrong with the others. -/
namespace Indexify
open Errors List Proto.FunctionCallRequest Proto
namespace ApiState
variable {s s' : ApiState}

def payloads (s : ApiState) : List RequestPayload := s.queue.map Prod.snd

lemma payloads_write (s : ApiState) (payload : RequestPayload) :
    (s.write payload).payloads = s.payloads++[payload] := by
  simp [payloads,write]

lemma SameReports.payloads (h : s.SameReports s') : s'.payloads=s.payloads := by
  rw [ApiState.payloads,ApiState.payloads,h.queue]

end ApiState

lemma countFailure_ne_zero {r : ApiState × Except String Unit} (h : (countFailure r).2 ≠ 0) :
    ∃ e, r.2 = .error e ∧ Recognised false e := by
  obtain ⟨s,result⟩ := r
  unfold countFailure at h
  cases result with
  | ok u => exact absurd rfl h
  | error e =>
    refine ⟨e,rfl,isMalformedPayloadError_iff.mp (Bool.eq_false_iff.mpr fun he => h ?_)⟩
    dsimp only
    rw [if_pos he]

/-! ### Log entries -/

namespace Proto

def FunctionCallRequest.hasFields (call : FunctionCallRequest) : Bool :=
  call.namespace.isSome && call.application.isSome && call.requestId.isSome &&
    call.sourceFunctionCallId.isSome && call.updates.isSome

def FunctionCallRequest.planWellFormed (call : FunctionCallRequest) : Bool :=
  call.updates.all ExecutionPlanUpdates.wellFormed

def FunctionCallRequest.event (env : ConversionEnv) (call : FunctionCallRequest) :
    Option FunctionCallEvent :=
  match call.namespace,call.application,call.requestId,call.sourceFunctionCallId,call.updates with
  | some ns,some application,some requestId,some source,some updates =>
    (env.toGraphUpdates updates (some source)).toOption.map fun graphUpdates =>
      ⟨ns,application,requestId,⟨source⟩,graphUpdates⟩
  | _,_,_,_,_ => none

def AllocationLogEntry.call (entry : AllocationLogEntry) : Option FunctionCallRequest :=
  match entry.entry with
  | some (.callFunction call) => some call
  | _ => none

/-- The entry lacks a field of its own, or its plan can be converted. -/
def AllocationLogEntry.recognisable (entry : AllocationLogEntry) : Bool :=
  entry.call.all fun call => !call.hasFields || call.planWellFormed

def AllocationLogEntry.payloads (env : ConversionEnv) (entry : AllocationLogEntry) :
    List RequestPayload :=
  (entry.call.bind fun call => call.event env).toList.map .createFunctionCall

end Proto

section
variable (env : ConversionEnv) (s : ApiState) (executorId : ExecutorId)

/-- A call is queued if it is well formed. Else it is refused, and the refusal is recognised when
the call lacks a field of its own. -/
inductive Handled (call : FunctionCallRequest) : ApiState × Except String Unit → Prop
  | queued {s' : ApiState} {event : FunctionCallEvent} (hsame : s.SameReports s')
      (hevent : call.event env = some event) :
      Handled call (s'.write (.createFunctionCall event),.ok ())
  | refused {s' : ApiState} {e : String} (hsame : s.SameReports s') (hevent : call.event env = none)
      (hbad : (call.hasFields && call.planWellFormed) = false)
      (htext : Recognised (!call.hasFields) e) : Handled call (s',.error e)

lemma handled_handleCallFunction (allocationId : String) (call : FunctionCallRequest) :
    Handled env s call (handleCallFunction env s executorId allocationId call) := by
  have hlacks : ∀ {s' : ApiState} {text : String}, s.SameReports s' → call.hasFields=false →
      Recognised true text → Handled env s call (s',.error text) := by
    intro s' text hsame hfields htext
    refine .refused hsame ?_ ?_ ?_
    · unfold event
      split
      · simp_all [hasFields]
      · rfl
    · rw [hfields]
      rfl
    · rw [hfields]
      exact htext
  unfold handleCallFunction
  cases hns : call.namespace with
  | none => exact hlacks (.refl s) (by simp [hasFields,hns]) (by decide)
  | some ns =>
  cases happ : call.application with
  | none => exact hlacks (.refl s) (by simp [hasFields,happ]) (by decide)
  | some application =>
  cases hreq : call.requestId with
  | none => exact hlacks (.refl s) (by simp [hasFields,hreq]) (by decide)
  | some requestId =>
  have hsame := ApiState.SameReports.registerUpdates executorId allocationId ns application
    requestId s call.updates
  cases hsrc : call.sourceFunctionCallId with
  | none =>
    exact hlacks hsame (by simp [hasFields,hsrc]) (by decide)
  | some source =>
  cases hup : call.updates with
  | none =>
    rw [hup] at hsame
    exact hlacks hsame (by simp [hasFields,hup]) (by decide)
  | some updates =>
  rw [hup] at hsame
  have hfields : call.hasFields=true := by
    simp [hasFields,hns,happ,hreq,hsrc,hup]
  have hplan : call.planWellFormed=updates.wellFormed := by
    rw [planWellFormed,hup,Option.all_some]
  have hdecided := env.decided_toGraphUpdates updates (some source)
  dsimp only [require]
  cases hg : env.toGraphUpdates updates (some source) with
  | ok graphUpdates =>
    refine .queued hsame ?_
    simp [event,hns,happ,hreq,hsrc,hup,hg,Except.toOption]
  | error e =>
    rw [hg] at hdecided
    obtain ⟨hbad,htext⟩ := hdecided.of_error
    refine .refused hsame ?_ ?_ ?_
    · simp [event,hns,happ,hreq,hsrc,hup,hg,Except.toOption]
    · rw [hfields,hplan,hbad]
      rfl
    · rw [hfields]
      exact htext

lemma handleLogEntry_spec (entry : AllocationLogEntry) :
    let r := countFailure (handleLogEntry env s executorId entry)
    r.1.allocations = s.allocations ∧ r.1.payloads = s.payloads++entry.payloads env ∧
      (entry.recognisable=true → r.2=0) := by
  obtain ⟨allocationId,clock,entry⟩ := entry
  dsimp only
  rw [countFailure_fst]
  cases entry with
  | none => exact ⟨rfl,(append_nil _).symm,fun _ => rfl⟩
  | some entry =>
  cases entry with
  | functionCallResult result => exact ⟨rfl,(append_nil _).symm,fun _ => rfl⟩
  | callFunction call =>
  have hpayloads : AllocationLogEntry.payloads env
      ⟨allocationId,clock,some (.callFunction call)⟩ = (call.event env).toList.map .createFunctionCall := rfl
  rw [hpayloads,handleLogEntry]
  have hhandled := handled_handleCallFunction env s executorId allocationId call
  dsimp only
  generalize handleCallFunction env s executorId allocationId call = r at hhandled ⊢
  cases hhandled with
  | queued hsame hevent =>
    rw [hevent,ApiState.payloads_write,hsame.payloads]
    exact ⟨hsame.allocations,rfl,fun _ => rfl⟩
  | refused hsame hevent hbad htext =>
    rw [hevent]
    refine ⟨hsame.allocations,hsame.payloads.trans (append_nil _).symm,fun hrec => ?_⟩
    by_contra hcounted
    obtain ⟨e,⟨⟩,hfalse⟩ := countFailure_ne_zero hcounted
    have hfields : (!call.hasFields) = false := htext.symm.trans hfalse
    rw [Bool.not_eq_false'] at hfields
    have hplan : (!call.hasFields || call.planWellFormed) = true := hrec
    rw [hfields] at hbad hplan
    exact Bool.false_ne_true (hbad.symm.trans hplan)

end

/-! ### Outcomes -/

namespace Proto.AllocationOutcome

def hasFields : AllocationOutcome → Bool
  | .completed report => hasReportFields report.function report.requestId report.functionCallId
  | .failed report => hasReportFields report.function report.requestId report.functionCallId
  | .empty => true

def payloadWellFormed : AllocationOutcome → Bool
  | .completed report => report.returnValue.all ReturnValue.wellFormed
  | .failed report => report.requestError.all DataPayload.wellFormed
  | .empty => true

def recognisable (outcome : AllocationOutcome) : Bool :=
  !outcome.hasFields || outcome.payloadWellFormed

lemma recognisable_eq_false {outcome : AllocationOutcome} (hfields : outcome.hasFields=true)
    (hpayload : outcome.payloadWellFormed=false) : outcome.recognisable=false := by
  rw [recognisable,hfields,hpayload]
  rfl

def payload (env : ConversionEnv) (executorId : ExecutorId) (s : ApiState)
    (outcome : AllocationOutcome) : Option RequestPayload :=
  match reported s outcome,outcome with
  | some (f,a,out),.completed report =>
    (convertReturnValue env f report.returnValue).toOption.map fun (value,updates) =>
      .dataplaneResults ⟨executorId,[{f.event a out report.executionDurationMs with
        dataPayload := value
        graphUpdates := updates}],[],[]⟩
  | some (f,a,out),.failed report =>
    (convertRequestError env f report.requestError).toOption.map fun requestException =>
      .dataplaneResults ⟨executorId,[{f.event a out report.executionDurationMs with
        requestException := requestException}],
        report.containerId.toList.map fun id => ⟨⟨id⟩,some (protoFailureReasonToTerminationReason
          (AllocationFailureReason.ofI32 report.reason))⟩,[]⟩
  | _,_ => none

def callId : AllocationOutcome → Option String
  | .completed report => report.functionCallId
  | .failed report => report.functionCallId
  | .empty => none

end Proto.AllocationOutcome

def ingestOutcome (env : ConversionEnv) (s : ApiState) (executorId : ExecutorId) :
    AllocationOutcome → ApiState × Except String AllocationIngestDisposition
  | .completed completed => processAllocationCompleted env s executorId completed
  | .failed failed => processAllocationFailed env s executorId failed
  | .empty => (s,.ok .skippedNoop)

def routeOutcome (env : ApiEnv) (s : ApiState) (id : String) :
    AllocationOutcome → ApiState × Except String Unit
  | .completed completed => tryRouteResult env s id completed
  | .failed failed => tryRouteFailure env s id failed
  | .empty => (s,.ok ())

section
variable (env : ApiEnv) (s : ApiState) (executorId : ExecutorId)

lemma processAllocationOutcome_eq (outcome : AllocationOutcome) :
    processAllocationOutcome env executorId s outcome =
      ingestThenRoute (ingestOutcome env.toConversionEnv s executorId outcome) outcome.callId
        fun s id => routeOutcome env s id outcome := by
  cases outcome <;> rfl

/-- An outcome is queued if its allocation is recorded and it can be converted. Else it is passed
over, or refused with a text that is recognised when the outcome is recognisable. -/
inductive Ingested (env : ConversionEnv) (outcome : AllocationOutcome) :
    ApiState × Except String AllocationIngestDisposition → Prop
  | queued {payload : RequestPayload}
      (hpayload : outcome.payload env executorId s = some payload) :
      Ingested env outcome (s.write payload,.ok .applied)
  | skipped (hpayload : outcome.payload env executorId s = none) :
      Ingested env outcome (s,.ok .skippedNoop)
  | refused {e : String} (hpayload : outcome.payload env executorId s = none)
      (htext : Recognised true e ∨ outcome.recognisable=false) :
      Ingested env outcome (s,.error e)

lemma ingested_ingestOutcome (env : ConversionEnv) (outcome : AllocationOutcome) :
    Ingested s executorId env outcome (ingestOutcome env s executorId outcome) := by
  cases outcome with
  | empty => exact .skipped rfl
  | completed completed =>
    have hfields := decided_reportFields "AllocationCompleted" completed.function
      completed.requestId completed.functionCallId
    unfold ingestOutcome processAllocationCompleted
    dsimp only
    cases hf : reportFields "AllocationCompleted" completed.function completed.requestId
      completed.functionCallId with
    | error e =>
      rw [hf] at hfields
      exact .refused (by simp [AllocationOutcome.payload,reported,hf])
        (.inl hfields.of_error.2)
    | ok f =>
    dsimp only
    cases ha : s.allocations.lookup (f.allocationKey completed.allocationId) with
    | none => exact .skipped (by simp [AllocationOutcome.payload,reported,hf,ha])
    | some a =>
    have hvalue := decided_convertReturnValue env f completed.returnValue
    cases hv : convertReturnValue env f completed.returnValue with
    | error e =>
      rw [hf] at hfields
      rw [hv] at hvalue
      exact .refused (by simp [AllocationOutcome.payload,reported,hf,ha,hv,Except.toOption])
        (.inr (AllocationOutcome.recognisable_eq_false hfields.of_ok hvalue.of_error.1))
    | ok value =>
      exact .queued (by simp [AllocationOutcome.payload,reported,hf,ha,hv,Except.toOption])
  | failed failed =>
    have hfields := decided_reportFields "AllocationFailed" failed.function failed.requestId
      failed.functionCallId
    unfold ingestOutcome processAllocationFailed
    dsimp only
    cases hf : reportFields "AllocationFailed" failed.function failed.requestId
      failed.functionCallId with
    | error e =>
      rw [hf] at hfields
      exact .refused (by simp [AllocationOutcome.payload,reported,hf])
        (.inl hfields.of_error.2)
    | ok f =>
    dsimp only
    cases ha : s.allocations.lookup (f.allocationKey failed.allocationId) with
    | none => exact .skipped (by simp [AllocationOutcome.payload,reported,hf,ha])
    | some a =>
    have herror := decided_convertRequestError env f failed.requestError
    cases hv : convertRequestError env f failed.requestError with
    | error e =>
      rw [hf] at hfields
      rw [hv] at herror
      exact .refused (by simp [AllocationOutcome.payload,reported,hf,ha,hv,Except.toOption])
        (.inr (AllocationOutcome.recognisable_eq_false hfields.of_ok herror.of_error.1))
    | ok ex =>
      exact .queued (by simp [AllocationOutcome.payload,reported,hf,ha,hv,Except.toOption])

/-- The outcome was queued, but its result could not be passed on to the waiting parent. -/
def RouteFails (outcome : AllocationOutcome) : Prop := ∃ payload id e,
  outcome.payload env.toConversionEnv executorId s = some payload ∧ outcome.callId = some id ∧
    (routeOutcome env (s.write payload) id outcome).2 = .error e

lemma routeOutcome_sameReports (id : String) (outcome : AllocationOutcome) :
    s.SameReports (routeOutcome env s id outcome).1 := by
  cases outcome with
  | completed completed => exact .tryRouteResult env s id completed
  | failed failed => exact .tryRouteFailure env s id failed
  | empty => exact .refl s

lemma processAllocationOutcome_spec (outcome : AllocationOutcome) :
    let r := processAllocationOutcome env executorId s outcome
    r.1.allocations = s.allocations ∧
      r.1.payloads = s.payloads++(outcome.payload env.toConversionEnv executorId s).toList ∧
      (outcome.recognisable=true → r.2=0 ∨ RouteFails env s executorId outcome) := by
  rw [processAllocationOutcome_eq]
  have hingested := ingested_ingestOutcome s executorId env.toConversionEnv outcome
  generalize ingestOutcome env.toConversionEnv s executorId outcome = r at hingested ⊢
  unfold ingestThenRoute RouteFails
  cases hingested with
  | @queued payload hpayload =>
    rw [hpayload,Option.toList_some,← ApiState.payloads_write]
    dsimp only
    cases outcome.callId with
    | none => exact ⟨rfl,rfl,fun _ => .inl rfl⟩
    | some id =>
      have hsame := routeOutcome_sameReports env (s.write payload) id outcome
      rw [countFailure_fst]
      refine ⟨hsame.allocations,hsame.payloads,fun _ => or_iff_not_imp_left.mpr fun hne => ?_⟩
      obtain ⟨e,he,-⟩ := countFailure_ne_zero hne
      exact ⟨payload,id,e,rfl,rfl,he⟩
  | skipped hpayload =>
    rw [hpayload]
    exact ⟨rfl,(append_nil _).symm,fun _ => .inl rfl⟩
  | refused hpayload htext =>
    rw [hpayload]
    dsimp only
    rw [countFailure_fst]
    refine ⟨rfl,(append_nil _).symm,fun hrec => .inl ?_⟩
    by_contra hcounted
    obtain ⟨e,⟨⟩,hfalse⟩ := countFailure_ne_zero hcounted
    rcases htext with htrue | hbad
    · exact Bool.false_ne_true (hfalse.symm.trans htrue)
    · exact Bool.false_ne_true (hbad.symm.trans hrec)

end

/-! ### Answers to commands -/

namespace Proto.CommandResponse

def snapshotRequest (resp : CommandResponse) : Option SnapshotRequest :=
  match resp.response with
  | some (.snapshotCompleted _ snapshotId snapshotUri sizeBytes) =>
    (handleSnapshotCompleted snapshotId snapshotUri sizeBytes).toOption
  | some (.snapshotFailed _ snapshotId errorMessage) =>
    (handleSnapshotFailed snapshotId errorMessage).toOption
  | _ => none

def terminated (resp : CommandResponse) : Option ContainerStateUpdateInfo :=
  match resp.response with
  | some (.containerTerminated containerId reason) =>
    some ⟨⟨containerId⟩,some (protoContainerTerminationToInternal reason)⟩
  | _ => none

def started (resp : CommandResponse) : Option ContainerId :=
  match resp.response with
  | some (.containerStarted containerId) => some ⟨containerId⟩
  | _ => none

end Proto.CommandResponse

namespace ResponseBatch
variable (b : ResponseBatch)

lemma addSnapshot_eq {r : Except String SnapshotRequest} (h : ∀ e, r = .error e → Recognised true e) :
    b.addSnapshot r = {b with snapshots := b.snapshots++r.toOption.toList} := by
  cases r with
  | ok request => rfl
  | error e =>
    rw [addSnapshot,if_pos (isMalformedPayloadError_iff.mpr (h e rfl))]
    exact congrArg (ResponseBatch.mk · _ _ _) (append_nil _).symm

lemma add_eq (resp : CommandResponse) : b.add resp =
    ⟨b.snapshots++resp.snapshotRequest.toList,b.containerStateUpdates++resp.terminated.toList,
      b.containerStartedIds++resp.started.toList,b.failedItems⟩ := by
  obtain ⟨seq,response⟩ := resp
  unfold add CommandResponse.snapshotRequest CommandResponse.terminated
    CommandResponse.started
  cases response with
  | none => simp
  | some response =>
  cases response with
  | containerStarted containerId
  | containerTerminated containerId reason
  | allocationScheduled allocationId => simp
  | snapshotCompleted containerId snapshotId snapshotUri sizeBytes =>
    dsimp only
    rw [addSnapshot_eq b]
    · simp
    intro e he
    unfold handleSnapshotCompleted at he
    split_ifs at he <;> cases he <;> decide
  | snapshotFailed containerId snapshotId errorMessage =>
    dsimp only
    rw [addSnapshot_eq b]
    · simp
    intro e he
    unfold handleSnapshotFailed at he
    split_ifs at he
    cases he
    decide

lemma foldl_add (responses : List CommandResponse) :
    responses.foldl add b = ⟨b.snapshots++responses.flatMap (·.snapshotRequest.toList),
      b.containerStateUpdates++responses.flatMap (·.terminated.toList),
      b.containerStartedIds++responses.flatMap (·.started.toList),b.failedItems⟩ := by
  induction responses generalizing b with
  | nil => simp
  | cons resp responses ih =>
    rw [foldl_cons,ih,add_eq]
    simp only [flatMap_cons,append_assoc]

end ResponseBatch

/-! ### Heartbeats -/

/-- The reports that a heartbeat of a known executor brings. -/
structure HeartbeatReports where
  executorId : ExecutorId
  commandResponses : List CommandResponse
  allocationOutcomes : List AllocationOutcome
  allocationLogEntries : List AllocationLogEntry
  deriving DecidableEq

namespace HeartbeatReports
variable (env : ApiEnv) (s : ApiState) (h : HeartbeatReports) (executorId : ExecutorId)

def process : ApiState × List SnapshotRequest × Except String Unit :=
  processHeartbeat env s h.executorId true h.commandResponses h.allocationOutcomes
    h.allocationLogEntries

def recognisable (h : HeartbeatReports) : Bool :=
  h.allocationLogEntries.all AllocationLogEntry.recognisable &&
    h.allocationOutcomes.all AllocationOutcome.recognisable

def containerEvents (h : HeartbeatReports) : List RequestPayload :=
  let updates := h.commandResponses.flatMap (·.terminated.toList)
  let started := h.commandResponses.flatMap (·.started.toList)
  if updates = [] ∧ started = [] then []
  else [.dataplaneResults ⟨h.executorId,[],updates,started⟩]

def payloads : List RequestPayload :=
  h.containerEvents++h.allocationLogEntries.flatMap (·.payloads env.toConversionEnv) ++
    h.allocationOutcomes.flatMap fun outcome =>
      (outcome.payload env.toConversionEnv h.executorId s).toList

variable (outcomes : List AllocationOutcome)

def afterOutcomes : ApiState :=
  (processAllocationOutcomes env h.executorId (processAllocationLogEntries env h.executorId
    (processCommandResponses s h.executorId h.commandResponses).1 h.allocationLogEntries).1
    outcomes).1

/-- All that the well-formed reports bring is processed in order, and the heartbeat is answered well
unless the result of an outcome that was queued could not be passed on. -/
structure Tolerated : Prop where
  snapshots : (h.process env s).2.1 = h.commandResponses.flatMap (·.snapshotRequest.toList)
  queued : (h.process env s).1.payloads = s.payloads++h.payloads env s
  answer : (h.process env s).2.2 = .ok () ∨ ∃ before outcome after,
    h.allocationOutcomes = before++outcome::after ∧
      RouteFails env (afterOutcomes env s h before) h.executorId outcome

lemma processCommandResponses_spec :
    let r := processCommandResponses s h.executorId h.commandResponses
    r.1.allocations = s.allocations ∧ r.1.payloads = s.payloads++h.containerEvents ∧
      r.2.snapshots = h.commandResponses.flatMap (·.snapshotRequest.toList) ∧
      r.2.failedItems = 0 := by
  unfold processCommandResponses containerEvents
  rw [ResponseBatch.foldl_add]
  dsimp only [nil_append]
  split_ifs
  · exact ⟨rfl,(append_nil _).symm,rfl,rfl⟩
  · exact ⟨rfl,ApiState.payloads_write _ _,rfl,rfl⟩

lemma processAllocationLogEntries_eq (entries : List AllocationLogEntry) :
    processAllocationLogEntries env executorId s entries = Counting.run (fun s entry =>
      countFailure (handleLogEntry env.toConversionEnv s executorId entry)) s entries := rfl

lemma processAllocationOutcomes_eq : processAllocationOutcomes env executorId s outcomes =
    Counting.run (processAllocationOutcome env executorId) s outcomes := rfl

lemma reported_congr {s s' : ApiState} (he : s'.allocations=s.allocations) :
    reported s' = reported s := by
  funext outcome
  unfold reported
  rw [he]

lemma processAllocationLogEntries_spec (entries : List AllocationLogEntry) :
    let r := processAllocationLogEntries env executorId s entries
    (r.1.allocations=s.allocations ∧
      r.1.payloads = s.payloads++entries.flatMap (·.payloads env.toConversionEnv)) ∧
      (entries.all AllocationLogEntry.recognisable = true → r.2=0) := by
  have hspec := fun s => handleLogEntry_spec env.toConversionEnv s executorId
  refine ⟨Counting.run_log (fun s' => s'.allocations=s.allocations) ApiState.payloads
    (fun s' entry hs' => ⟨(hspec s' entry).1.trans hs',(hspec s' entry).2.1⟩) rfl entries,?_⟩
  intro hrec
  by_contra hcounted
  rw [processAllocationLogEntries_eq] at hcounted
  obtain ⟨before,entry,after,rfl,hne⟩ := Counting.exists_counted hcounted
  exact hne ((hspec _ entry).2.2 (all_eq_true.mp hrec entry (by simp)))

lemma processAllocationOutcomes_spec :
    let r := processAllocationOutcomes env executorId s outcomes
    (r.1.allocations=s.allocations ∧ r.1.payloads = s.payloads++outcomes.flatMap
      fun outcome => (outcome.payload env.toConversionEnv executorId s).toList) ∧
      (outcomes.all AllocationOutcome.recognisable = true → r.2=0 ∨
        ∃ before outcome after, outcomes = before++outcome::after ∧ RouteFails env
          (processAllocationOutcomes env executorId s before).1 executorId outcome) := by
  have hspec := fun s => processAllocationOutcome_spec env s executorId
  refine ⟨Counting.run_log (fun s' => s'.allocations=s.allocations) ApiState.payloads
    (fun s' outcome hs' => ⟨(hspec s' outcome).1.trans hs',?_⟩) rfl outcomes,?_⟩
  · have hqueued := (hspec s' outcome).2.1
    unfold AllocationOutcome.payload at hqueued ⊢
    rwa [reported_congr hs'] at hqueued
  intro hrec
  refine or_iff_not_imp_left.mpr fun hcounted => ?_
  rw [processAllocationOutcomes_eq] at hcounted
  obtain ⟨before,outcome,after,rfl,hne⟩ := Counting.exists_counted hcounted
  have hgood := all_eq_true.mp hrec outcome (by simp)
  exact ⟨before,outcome,after,rfl,((hspec _ outcome).2.2 hgood).resolve_left hne⟩

lemma process_eq :
    let r := processAllocationLogEntries env h.executorId
      (processCommandResponses s h.executorId h.commandResponses).1 h.allocationLogEntries
    let r' := processAllocationOutcomes env h.executorId r.1 h.allocationOutcomes
    (h.process env s).1 = r'.1 ∧ (h.process env s).2.1 =
      (processCommandResponses s h.executorId h.commandResponses).2.snapshots ∧
      (r.2=0 → r'.2=0 → (h.process env s).2.2 = .ok ()) := by
  have hfailed := (processCommandResponses_spec s h).2.2.2
  unfold process processHeartbeat
  rw [if_pos rfl]
  dsimp only
  split_ifs with hcount
  · exact ⟨rfl,rfl,by omega⟩
  · exact ⟨rfl,rfl,fun _ _ => rfl⟩

lemma tolerated (hrec : h.recognisable=true) : h.Tolerated env s := by
  obtain ⟨hentries,houtcomes⟩ := Bool.and_eq_true_iff.mp hrec
  obtain ⟨hstate,hsnapshots,hok⟩ := process_eq env s h
  obtain ⟨halloc,hqueued,hrequests,-⟩ := processCommandResponses_spec s h
  obtain ⟨⟨halloc',hqueued'⟩,hzero⟩ := processAllocationLogEntries_spec env
    (processCommandResponses s h.executorId h.commandResponses).1 h.executorId
    h.allocationLogEntries
  obtain ⟨⟨-,hqueued''⟩,hanswer⟩ := processAllocationOutcomes_spec env _ h.executorId
    h.allocationOutcomes
  refine ⟨hsnapshots.trans hrequests,?_,(hanswer houtcomes).imp_left (hok (hzero hentries))⟩
  rw [hstate,hqueued'',hqueued',hqueued,payloads]
  simp only [AllocationOutcome.payload,reported_congr (halloc'.trans halloc),append_assoc]

end HeartbeatReports

/-! ### Streams of heartbeats -/

/-- The heartbeats of a stream, each in the state in which it arrives. Before each of them the rest
of the server takes any steps. -/
def arrivals (env : ApiEnv) :
    ApiState → List ((ApiState → ApiState) × HeartbeatReports) → List (ApiState × HeartbeatReports)
  | _,[] => []
  | s,(others,h)::stream => (others s,h)::arrivals env (h.process env (others s)).1 stream

/-- In every stream whose reports lack a field of their own when they cannot be converted, all that
the well-formed reports bring is processed and no heartbeat fails because of the others. -/
theorem stream_tolerated (env : ApiEnv) (s : ApiState)
    (stream : List ((ApiState → ApiState) × HeartbeatReports)) (h : ∀ x∈stream, x.2.recognisable=true) :
    ∀ x ∈ arrivals env s stream, x.2.Tolerated env x.1 := by
  induction stream generalizing s with
  | nil => exact forall_mem_nil _
  | cons x stream ih =>
    obtain ⟨hx,hrest⟩ := forall_mem_cons.mp h
    exact forall_mem_cons.mpr ⟨x.2.tolerated env _ hx,ih _ hrest⟩

def skipThenCall : HeartbeatReports :=
  ⟨⟨"executor-1"⟩,[],[],[⟨"alloc-1",1,some (.callFunction ⟨some "default",some "pipeline",none,
    none,none⟩)⟩,callAnswer]⟩

theorem skipThenCall_tolerated : skipThenCall.recognisable=true ∧
    (skipThenCall.process sampleEnv {}).2.2 = .ok () := by
  have hrec : skipThenCall.recognisable=true := by decide
  refine ⟨hrec,?_⟩
  rcases (stream_tolerated sampleEnv {} [(id,skipThenCall)] (by simpa using hrec) ({},skipThenCall)
    (by simp [arrivals])).answer with hok | ⟨before,outcome,after,he,-⟩
  · exact hok
  · exact absurd he (by simp [skipThenCall])

def callNothing : AllocationLogEntry where
  allocationId := "alloc-1"
  clock := 2
  entry := some (.callFunction {
    «namespace» := some "default"
    application := some "pipeline"
    requestId := some "request-1"
    updates := some ⟨[⟨some (.functionCall ⟨some "answer-2",none,[],none⟩)⟩],some "answer-2"⟩
    sourceFunctionCallId := some "request-1" })

/-- Whatever the server does in between, the heartbeat fails each time it is sent. -/
theorem missing_target_fails_always : ¬∃ s : ApiState,
    (HeartbeatReports.process sampleEnv s ⟨⟨"executor-1"⟩,[],[],[callNothing]⟩).2.2 = .ok () := by
  rintro ⟨s,hok⟩
  obtain ⟨s',hs'⟩ : ∃ s', handleLogEntry sampleEnv.toConversionEnv s ⟨"executor-1"⟩ callNothing =
    (s',.error "target is required") := ⟨_,rfl⟩
  have htext : isMalformedPayloadError "target is required" = false :=
    isMalformedPayloadError_iff.mpr (by decide)
  have hentries : processAllocationLogEntries sampleEnv ⟨"executor-1"⟩ s [callNothing] = (s',1) := by
    simp [processAllocationLogEntries,hs',countFailure,htext]
  have hresponses : processCommandResponses s ⟨"executor-1"⟩ [] = (s,{}) := rfl
  have houtcomes : processAllocationOutcomes sampleEnv ⟨"executor-1"⟩ s' [] = (s',0) := rfl
  simp [HeartbeatReports.process,processHeartbeat,hresponses,hentries,houtcomes] at hok

end Indexify
