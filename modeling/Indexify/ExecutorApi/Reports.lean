import Indexify.ExecutorApi.ResultRouting
import Indexify.Library.Errors

/-! Reports of a heartbeat: each outcome enters the queue of the scheduler and is then routed to
the waiting parent. -/
namespace Indexify

inductive AllocationIngestDisposition
  | applied
  | skippedNoop
  deriving DecidableEq

/-- The fields every report has to carry. -/
structure ReportFields where
  «namespace» : String
  application : String
  fnName : String
  requestId : String
  functionCallId : String
  deriving DecidableEq

def reportFields (kind : String) (function : Option Proto.FunctionRef)
    (requestId functionCallId : Option String) : Except String ReportFields := do
  let f ← require (kind++" missing function") function
  let ns ← require (kind++" missing namespace") f.namespace
  let application ← require (kind++" missing application_name") f.applicationName
  let fnName ← require (kind++" missing function_name") f.functionName
  let requestId ← require (kind++" missing request_id") requestId
  let functionCallId ← require (kind++" missing function_call_id") functionCallId
  return ⟨ns,application,fnName,requestId,functionCallId⟩

lemma reportFields_eq_ok {kind : String} {function : Option Proto.FunctionRef}
    {requestId functionCallId : Option String} {f : ReportFields} :
    reportFields kind function requestId functionCallId = .ok f ↔
      ∃ fr, function = some fr ∧ fr.namespace = some f.namespace ∧
        fr.applicationName = some f.application ∧ fr.functionName = some f.fnName ∧
        requestId = some f.requestId ∧ functionCallId = some f.functionCallId := by
  unfold reportFields
  simp only [Errors.bind_eq_ok,require_eq_ok,pure,Except.pure,Except.ok.injEq]
  constructor
  · rintro ⟨fr,hf,ns,hns,app,happ,fn,hfn,rid,hrid,cid,hcid,rfl⟩
    exact ⟨fr,hf,hns,happ,hfn,hrid,hcid⟩
  · rintro ⟨fr,hf,hns,happ,hfn,hrid,hcid⟩
    exact ⟨fr,hf,_,hns,_,happ,_,hfn,_,hrid,_,hcid,rfl⟩

def ReportFields.allocationKey (f : ReportFields) (allocationId : String) : String :=
  Allocation.keyFrom f.namespace f.application f.requestId allocationId

def ReportFields.event (f : ReportFields) (allocation : Allocation) (outcome : FunctionRunOutcome)
    (executionDurationMs : Option ℕ) : AllocationOutputIngestedEvent where
  «namespace» := f.namespace
  application := f.application
  function := f.fnName
  requestId := f.requestId
  functionCallId := ⟨f.functionCallId⟩
  dataPayload := none
  graphUpdates := none
  requestException := none
  allocationId := allocation.id
  allocationTarget := allocation.target
  allocationOutcome := outcome
  executionDurationMs := executionDurationMs

def convertReturnValue (env : ConversionEnv) (f : ReportFields) :
    Option Proto.ReturnValue → Except String (Option DataPayload × Option GraphUpdates)
  | some (.value payload) => do
    return (some (← env.prepareDataPayload payload (env.blobStore f.namespace) []),none)
  | some (.updates updates) => do
    return (none,some (← env.toGraphUpdates updates (some f.functionCallId)))
  | none => return (none,none)

def processAllocationCompleted (env : ConversionEnv) (s : ApiState) (executorId : ExecutorId)
    (completed : Proto.AllocationCompleted) : ApiState × Except String AllocationIngestDisposition :=
  match reportFields "AllocationCompleted" completed.function completed.requestId
    completed.functionCallId with
  | .error e => (s,.error e)
  | .ok f =>
    match s.allocations.lookup (f.allocationKey completed.allocationId) with
    | none => (s,.ok .skippedNoop)
    | some allocation =>
      match convertReturnValue env f completed.returnValue with
      | .error e => (s,.error e)
      | .ok (dataPayload,graphUpdates) =>
        (s.write (.dataplaneResults ⟨executorId,[{f.event allocation .success
            completed.executionDurationMs with
          dataPayload := dataPayload
          graphUpdates := graphUpdates}],[],[]⟩),.ok .applied)

def convertRequestError (env : ConversionEnv) (f : ReportFields) :
    Option Proto.DataPayload → Except String (Option DataPayload)
  | some payload => do
    return some (← env.prepareDataPayload payload (env.blobStore f.namespace) [])
  | none => return none

/-- With a container id the container is reported terminated in the same payload. -/
def processAllocationFailed (env : ConversionEnv) (s : ApiState) (executorId : ExecutorId)
    (failed : Proto.AllocationFailed) : ApiState × Except String AllocationIngestDisposition :=
  let reason := Proto.AllocationFailureReason.ofI32 failed.reason
  match reportFields "AllocationFailed" failed.function failed.requestId failed.functionCallId with
  | .error e => (s,.error e)
  | .ok f =>
    match s.allocations.lookup (f.allocationKey failed.allocationId) with
    | none => (s,.ok .skippedNoop)
    | some allocation =>
      match convertRequestError env f failed.requestError with
      | .error e => (s,.error e)
      | .ok requestException =>
        let containers := failed.containerId.toList.map fun id =>
          (⟨⟨id⟩,some (protoFailureReasonToTerminationReason reason)⟩ : ContainerStateUpdateInfo)
        (s.write (.dataplaneResults ⟨executorId,[{f.event allocation
            (.failure (protoFailureReasonToInternal reason)) failed.executionDurationMs with
          requestException := requestException}],containers,[]⟩),.ok .applied)

def occurs (text : List Char) : List Char → Bool
  | [] => text.isEmpty
  | c::cs => text.isPrefixOf (c::cs) || occurs text cs

def isMalformedPayloadError (message : String) : Bool :=
  ["missing "," is empty","invalid","malformed"].any fun text =>
    occurs text.toList message.toLower.toList

/-- A malformed item is skipped, any other refused one is counted. -/
def countFailure (r : ApiState × Except String Unit) : ApiState × ℕ :=
  match r with
  | (s,.ok ()) => (s,0)
  | (s,.error e) => if isMalformedPayloadError e then (s,0) else (s,1)

@[simp] lemma countFailure_fst (r : ApiState × Except String Unit) : (countFailure r).1 = r.1 := by
  obtain ⟨s,result⟩ := r
  cases result with
  | ok u => rfl
  | error e =>
    unfold countFailure
    dsimp only
    split_ifs <;> rfl

def ingestThenRoute (r : ApiState × Except String AllocationIngestDisposition)
    (functionCallId : Option String) (tryRoute : ApiState → String → ApiState × Except String Unit) :
    ApiState × ℕ :=
  match r with
  | (s,.ok .applied) =>
    match functionCallId with
    | some id => countFailure (tryRoute s id)
    | none => (s,0)
  | (s,.ok .skippedNoop) => (s,0)
  | (s,.error e) => countFailure (s,.error e)

lemma ingestThenRoute_of_refused (s : ApiState)
    {r : Except String AllocationIngestDisposition} (hr : r ≠ .ok .applied)
    (functionCallId : Option String) (tryRoute : ApiState → String → ApiState × Except String Unit) :
    (ingestThenRoute (s,r) functionCallId tryRoute).1 = s := by
  cases r with
  | error e => exact countFailure_fst (s,.error e)
  | ok d =>
    cases d with
    | applied => exact absurd rfl hr
    | skippedNoop => rfl

def processAllocationOutcome (env : ApiEnv) (executorId : ExecutorId) (s : ApiState) :
    Proto.AllocationOutcome → ApiState × ℕ
  | .completed completed =>
    ingestThenRoute (processAllocationCompleted env.toConversionEnv s executorId completed)
      completed.functionCallId fun s id => tryRouteResult env s id completed
  | .failed failed =>
    ingestThenRoute (processAllocationFailed env.toConversionEnv s executorId failed)
      failed.functionCallId fun s id => tryRouteFailure env s id failed
  | .empty => (s,0)

section
variable (env : ApiEnv) (executorId : ExecutorId) (s : ApiState)

lemma processAllocationOutcome_completed (completed : Proto.AllocationCompleted) :
    ((processAllocationOutcome env executorId s (.completed completed)).1 = s ∧
      ∀ f v, reportFields "AllocationCompleted" completed.function completed.requestId
          completed.functionCallId = .ok f →
        f.allocationKey completed.allocationId ∈ s.allocations →
        convertReturnValue env.toConversionEnv f completed.returnValue ≠ .ok v) ∨
      ∃ f a value updates, reportFields "AllocationCompleted" completed.function completed.requestId
          completed.functionCallId = .ok f ∧
        s.allocations.lookup (f.allocationKey completed.allocationId) = some a ∧
        convertReturnValue env.toConversionEnv f completed.returnValue = .ok (value,updates) ∧
        completed.functionCallId = some f.functionCallId ∧
        (processAllocationOutcome env executorId s (.completed completed)).1 =
          (tryRouteResult env (s.write (.dataplaneResults ⟨executorId,[{f.event a .success
            completed.executionDurationMs with
              dataPayload := value, graphUpdates := updates}],[],[]⟩)) f.functionCallId
            completed).1 := by
  simp only [processAllocationOutcome,processAllocationCompleted]
  cases hf : reportFields "AllocationCompleted" completed.function completed.requestId
    completed.functionCallId with
  | error e => exact .inl ⟨ingestThenRoute_of_refused s (by simp) _ _,nofun⟩
  | ok f =>
    obtain ⟨fr,-,-,-,-,-,hid⟩ := reportFields_eq_ok.mp hf
    dsimp only
    cases ha : s.allocations.lookup (f.allocationKey completed.allocationId) with
    | none =>
      refine .inl ⟨rfl,?_⟩
      rintro _ _ ⟨⟩ hmem
      exact absurd hmem (AList.lookup_eq_none.mp ha)
    | some a =>
      cases hv : convertReturnValue env.toConversionEnv f completed.returnValue with
      | error e =>
        refine .inl ⟨ingestThenRoute_of_refused s (by simp) _ _,?_⟩
        rintro _ _ ⟨⟩ -
        simp [hv]
      | ok value =>
        simp only [hid,ingestThenRoute,countFailure_fst]
        exact .inr ⟨f,a,value.1,value.2,rfl,ha,hv,rfl,rfl⟩

lemma processAllocationOutcome_failed (failed : Proto.AllocationFailed) :
    ((processAllocationOutcome env executorId s (.failed failed)).1 = s ∧
      ∀ f v, reportFields "AllocationFailed" failed.function failed.requestId
          failed.functionCallId = .ok f →
        f.allocationKey failed.allocationId ∈ s.allocations →
        convertRequestError env.toConversionEnv f failed.requestError ≠ .ok v) ∨
      ∃ f a ex containers, reportFields "AllocationFailed" failed.function failed.requestId
          failed.functionCallId = .ok f ∧
        s.allocations.lookup (f.allocationKey failed.allocationId) = some a ∧
        convertRequestError env.toConversionEnv f failed.requestError = .ok ex ∧
        failed.functionCallId = some f.functionCallId ∧
        (processAllocationOutcome env executorId s (.failed failed)).1 =
          (tryRouteFailure env (s.write (.dataplaneResults ⟨executorId,[{f.event a (.failure
            (protoFailureReasonToInternal (Proto.AllocationFailureReason.ofI32 failed.reason)))
              failed.executionDurationMs with requestException := ex}],containers,[]⟩))
            f.functionCallId failed).1 := by
  simp only [processAllocationOutcome,processAllocationFailed]
  cases hf : reportFields "AllocationFailed" failed.function failed.requestId
    failed.functionCallId with
  | error e => exact .inl ⟨ingestThenRoute_of_refused s (by simp) _ _,nofun⟩
  | ok f =>
    obtain ⟨fr,-,-,-,-,-,hid⟩ := reportFields_eq_ok.mp hf
    dsimp only
    cases ha : s.allocations.lookup (f.allocationKey failed.allocationId) with
    | none =>
      refine .inl ⟨rfl,?_⟩
      rintro _ _ ⟨⟩ hmem
      exact absurd hmem (AList.lookup_eq_none.mp ha)
    | some a =>
      cases hv : convertRequestError env.toConversionEnv f failed.requestError with
      | error e =>
        refine .inl ⟨ingestThenRoute_of_refused s (by simp) _ _,?_⟩
        rintro _ _ ⟨⟩ -
        simp [hv]
      | ok ex =>
        simp only [hid,ingestThenRoute,countFailure_fst]
        exact .inr ⟨f,a,ex,_,rfl,ha,hv,rfl,rfl⟩

end

def processAllocationOutcomes (env : ApiEnv) (executorId : ExecutorId) (s : ApiState)
    (outcomes : List Proto.AllocationOutcome) : ApiState × ℕ :=
  outcomes.foldl (fun (s,n) outcome =>
    let (s,k) := processAllocationOutcome env executorId s outcome
    (s,n+k)) (s,0)

def processAllocationLogEntries (env : ApiEnv) (executorId : ExecutorId) (s : ApiState)
    (entries : List Proto.AllocationLogEntry) : ApiState × ℕ :=
  entries.foldl (fun (s,n) entry =>
    let (s,k) := countFailure (handleLogEntry env.toConversionEnv s executorId entry)
    (s,n+k)) (s,0)

/-- Log entries go first; reports of an unknown executor are dropped. -/
def processHeartbeatReports (env : ApiEnv) (s : ApiState) (executorId : ExecutorId)
    (executorKnown : Bool) (outcomes : List Proto.AllocationOutcome)
    (entries : List Proto.AllocationLogEntry) : ApiState × Except String Unit :=
  if executorKnown then
    let (s,n) := processAllocationLogEntries env executorId s entries
    let (s,k) := processAllocationOutcomes env executorId s outcomes
    if 0<n+k then
      (s,.error ("heartbeat ingestion failed for "++toString (n+k)++" report item(s)"))
    else (s,.ok ())
  else (s,.ok ())

end Indexify
