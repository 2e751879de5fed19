import Indexify.ExecutorApi.Server

/-! Reports of allocations that are already terminal. A report is a no-op when the record of its
allocation is gone, but records stay stored after they are terminal: a duplicate or a late
report of a replaced attempt is routed like the first one. -/
namespace Indexify
namespace ApiState

def NoEffect (s s' : ApiState) : Prop :=
  (∀ id, s'.route id = s.route id) ∧ s'.connections=s.connections

/-- The result does not fit into a poll response of the executor it is for. -/
def Oversized (env : ApiEnv) (s : ApiState) (executorId : ExecutorId)
    (entry : Proto.AllocationLogEntry) : Prop :=
  ∃ conn ∈ s.connections.lookup executorId,
    maxPollResponseBytes<env.encodedLen ⟨conn.nextResultSeq,some entry⟩

variable {s : ApiState} {id : String} {r : PendingFunctionCall}

lemma not_noEffect_of_taken (h : s.route id = some r) {s' : ApiState} (h' : s'.route id = none) :
    ¬ NoEffect s s' := by
  rintro ⟨hroutes,-⟩
  have he := hroutes id
  rw [h,h'] at he
  cases he

lemma route_take_self (s : ApiState) (id : String) : (s.take id).1.route id = none := by
  obtain ⟨routes,pending,-,hroute⟩ := s.take_fst id
  rw [hroute,if_pos rfl]

lemma route_register_take (s : ApiState) (id i j : String) (r : PendingFunctionCall) :
    ((s.take id).1.register j r).route i = if i=j then some r else if i=id then none else s.route i := by
  obtain ⟨routes,pending,-,hroute⟩ := s.take_fst id
  rw [route_register,hroute]

lemma noEffect_register_take (h : s.route id = some r) : NoEffect s ((s.take id).1.register id r) := by
  refine ⟨?_,connections_take s id⟩
  intro i
  rw [route_register_take]
  split_ifs with hi
  · rw [hi,h]
  · rfl

lemma noEffect_pushOrRestore (env : ApiEnv) (h : s.route id = some r) (entry : Proto.AllocationLogEntry) :
    NoEffect s (pushOrRestore env (s.take id).1 id r entry).1 ↔ Oversized env s r.executorId entry := by
  have htaken := route_take_self s id
  unfold pushOrRestore pushResultToExecutor Oversized
  rw [connections_take]
  cases hconn : s.connections.lookup r.executorId with
  | none =>
    constructor
    · intro hno
      exact absurd hno (not_noEffect_of_taken h htaken)
    · rintro ⟨conn,hc,-⟩
      cases hc
  | some conn =>
    dsimp only
    unfold ExecutorConnection.pushResult
    by_cases hlen : maxPollResponseBytes<env.encodedLen ⟨conn.nextResultSeq,some entry⟩
    · rw [if_pos hlen]
      exact iff_of_true (noEffect_register_take h) ⟨conn,rfl,hlen⟩
    rw [if_neg hlen]
    refine iff_of_false (not_noEffect_of_taken h htaken) ?_
    rintro ⟨conn',hc,hlen'⟩
    cases hc
    exact hlen hlen'

lemma isParentAllocationAlive_take (s : ApiState) (id parentAllocationId : String)
    (function : Option Proto.FunctionRef) (requestId : Option String) :
    isParentAllocationAlive (s.take id).1 parentAllocationId function requestId =
      isParentAllocationAlive s parentAllocationId function requestId := by
  unfold isParentAllocationAlive isAllocationAlive
  rw [(SameReports.take s id).allocations]

end ApiState

open ApiState

/-- The completion leaves the route of its call in place: the parent is alive, and the value
does not fit into a response or the updates have no other root. -/
def LeavesRoute (env : ApiEnv) (s : ApiState) (id : String) (r : PendingFunctionCall)
    (completed : Proto.AllocationCompleted) : Prop :=
  isParentAllocationAlive s r.parentAllocationId completed.function completed.requestId ∧
    match completed.returnValue with
    | some (.value payload) =>
      Oversized env s r.executorId (buildResultLogEntry r completed (some payload))
    | some (.updates updates) => ∀ root∈updates.rootFunctionCallId, root=id
    | none => Oversized env s r.executorId (buildResultLogEntry r completed none)

/-- A report changes no route and pushes nothing when it is malformed or has no record, when no
route is registered under its call, or when routing puts the route back. -/
def Harmless (env : ApiEnv) (s : ApiState) : Proto.AllocationOutcome → Prop
  | .completed completed => ∀ f value,
      reportFields "AllocationCompleted" completed.function completed.requestId
        completed.functionCallId = .ok f →
      f.allocationKey completed.allocationId ∈ s.allocations →
      convertReturnValue env.toConversionEnv f completed.returnValue = .ok value →
      ∀ r ∈ s.route f.functionCallId, LeavesRoute env s f.functionCallId r completed
  | .failed failed => ∀ f exception, reportFields "AllocationFailed" failed.function failed.requestId
        failed.functionCallId = .ok f →
      f.allocationKey failed.allocationId ∈ s.allocations →
      convertRequestError env.toConversionEnv f failed.requestError = .ok exception →
      ∀ r ∈ s.route f.functionCallId,
        isParentAllocationAlive s r.parentAllocationId failed.function failed.requestId ∧
          Oversized env s r.executorId (failureLogEntry r failed)
  | .empty => True

section
variable {env : ApiEnv} {s : ApiState} {id : String} {r : PendingFunctionCall}

lemma noEffect_tryRouteFailure (h : s.route id = some r) (failed : Proto.AllocationFailed) :
    NoEffect s (tryRouteFailure env s id failed).1 ↔
      isParentAllocationAlive s r.parentAllocationId failed.function failed.requestId ∧
        Oversized env s r.executorId (failureLogEntry r failed) := by
  have hpair : s.take id = ((s.take id).1,some r) := by
    rw [← h,← s.take_snd id]
  unfold tryRouteFailure
  rw [hpair]
  dsimp only
  rw [isParentAllocationAlive_take]
  by_cases halive : isParentAllocationAlive s r.parentAllocationId failed.function failed.requestId
  · rw [if_pos halive,noEffect_pushOrRestore env h]
    simp [halive]
  · rw [if_neg halive]
    exact iff_of_false (not_noEffect_of_taken h (route_take_self s id)) fun hand => halive hand.1

lemma noEffect_tryRouteResult (h : s.route id = some r) (completed : Proto.AllocationCompleted) :
    NoEffect s (tryRouteResult env s id completed).1 ↔ LeavesRoute env s id r completed := by
  have hpair : s.take id = ((s.take id).1,some r) := by
    rw [← h,← s.take_snd id]
  unfold tryRouteResult LeavesRoute
  rw [hpair]
  dsimp only
  rw [isParentAllocationAlive_take]
  by_cases halive : isParentAllocationAlive s r.parentAllocationId completed.function completed.requestId
  · rw [if_pos halive,and_iff_right halive]
    cases completed.returnValue with
    | none => exact noEffect_pushOrRestore env h _
    | some value =>
      cases value with
      | value payload => exact noEffect_pushOrRestore env h _
      | updates updates =>
        dsimp only
        cases updates.rootFunctionCallId with
        | none => exact iff_of_true (noEffect_register_take h) (by simp)
        | some root =>
          by_cases hroot : root=id
          · rw [hroot]
            exact iff_of_true (noEffect_register_take h) (by simp)
          · refine iff_of_false (not_noEffect_of_taken h ?_) (by simpa using hroot)
            rw [route_register_take,if_neg (Ne.symm hroot),if_pos rfl]
  · rw [if_neg halive]
    exact iff_of_false (not_noEffect_of_taken h (route_take_self s id)) fun hand => halive hand.1

variable (env s) (executorId : ExecutorId)

lemma noEffect_completed (completed : Proto.AllocationCompleted) :
    NoEffect s (processAllocationOutcome env executorId s (.completed completed)).1 ↔
      Harmless env s (.completed completed) := by
  have hself : NoEffect s s := ⟨fun _ => rfl,rfl⟩
  rcases processAllocationOutcome_completed env executorId s completed with
    ⟨he,hrefused⟩ | ⟨f,a,value,updates,hf,ha,hv,-,he⟩ <;> rw [he]
  · exact iff_of_true hself fun f v hf hmem hval => absurd hval (hrefused f v hf hmem)
  cases hroute : s.route f.functionCallId with
  | none =>
    rw [tryRouteResult_of_no_route env (s := s.write _) hroute]
    refine iff_of_true hself fun f' v hf' _ _ r hr => ?_
    cases hf.symm.trans hf'
    cases hroute.symm.trans hr
  | some r =>
    refine Iff.trans (noEffect_tryRouteResult (s := s.write _) hroute completed) ⟨?_,fun h => ?_⟩
    · intro hleaves f' v hf' _ _ r' hr'
      cases hf.symm.trans hf'
      cases hroute.symm.trans hr'
      exact hleaves
    · exact h f _ hf (Dict.mem_of_lookup ha) hv r hroute

lemma noEffect_failed (failed : Proto.AllocationFailed) :
    NoEffect s (processAllocationOutcome env executorId s (.failed failed)).1 ↔
      Harmless env s (.failed failed) := by
  have hself : NoEffect s s := ⟨fun _ => rfl,rfl⟩
  rcases processAllocationOutcome_failed env executorId s failed with
    ⟨he,hrefused⟩ | ⟨f,a,ex,containers,hf,ha,hv,-,he⟩ <;> rw [he]
  · exact iff_of_true hself fun f v hf hmem hval => absurd hval (hrefused f v hf hmem)
  cases hroute : s.route f.functionCallId with
  | none =>
    rw [tryRouteFailure_of_no_route env (s := s.write _) hroute]
    refine iff_of_true hself fun f' v hf' _ _ r hr => ?_
    cases hf.symm.trans hf'
    cases hroute.symm.trans hr
  | some r =>
    refine Iff.trans (noEffect_tryRouteFailure (s := s.write _) hroute failed) ⟨?_,fun h => ?_⟩
    · intro hleaves f' v hf' _ _ r' hr'
      cases hf.symm.trans hf'
      cases hroute.symm.trans hr'
      exact hleaves
    · exact h f _ hf (Dict.mem_of_lookup ha) hv r hroute

end

/-- The record of the allocation, terminal or not, has no part in it: a report leaves all routes
and connections as they are exactly when it is harmless. -/
theorem noEffect_iff_harmless (env : ApiEnv) (executorId : ExecutorId) (s : ApiState)
    (outcome : Proto.AllocationOutcome) :
    NoEffect s (processAllocationOutcome env executorId s outcome).1 ↔ Harmless env s outcome := by
  cases outcome with
  | completed completed => exact noEffect_completed env s executorId completed
  | failed failed => exact noEffect_failed env s executorId failed
  | empty => exact iff_of_true ⟨fun _ => rfl,rfl⟩ trivial

/-- The container of the first attempt of `answer` ends, and a second attempt is started. -/
def replacedAnswer : Server := (Server.init (retryingMemory 1)).run id (awaitAnswer 1 ++
  [.terminate ⟨"executor-2"⟩ ⟨"container-answer"⟩ .unhealthy,
    .commit,
    .start ⟨"default|pipeline|request-1"⟩ ⟨"answer-1"⟩ (answerAllocation "alloc-3"),
    .commit])

/-- The late report of the first attempt, whose record is terminal, takes the route away and
sends a failure to the parent while the second attempt is running. -/
theorem replacedAnswer_late_report :
    (replacedAnswer.api.allocations.lookup "default|pipeline|request-1|alloc-2").map
      Allocation.isTerminal = some true ∧
    ((replacedAnswer.store.mem.requestCtx.lookup ⟨"default|pipeline|request-1"⟩).bind fun c =>
      (c.functionRuns.lookup ⟨"answer-1"⟩).map FunctionRun.status) = some (.running ⟨"alloc-3"⟩) ∧
    ¬ NoEffect replacedAnswer.api (processAllocationOutcome sampleEnv ⟨"executor-2"⟩
      replacedAnswer.api (.failed (answerFailed "alloc-2"))).1 := by
  refine ⟨by decide,by decide,?_⟩
  have hbefore : replacedAnswer.api.route "answer-1" =
      some ⟨"alloc-1","answer-1",⟨"executor-1"⟩⟩ := by decide
  apply not_noEffect_of_taken hbefore
  decide

end Indexify
