import Indexify.ExecutorApi.Server

/-! A route from the call that asks for a result to the completion that carries it. The call
leaves a route under the id of each plain call it makes, every tail call hands the route on to
the next id, and the value at the end goes where the route points. -/
namespace Indexify
open ApiState FunctionRunCreator
variable {s : ApiState} {executorId : ExecutorId} {env : ApiEnv}
  {completed : Proto.AllocationCompleted} {hash : String → String} {r : PendingFunctionCall}

/-- The route under `id` after `caller` asked for it: that of the same owner and one that a tail
call moved here for a live parent stay, and a dead parent leaves its watched id to the caller. -/
def routeAfterCall (s : ApiState) (id : String) (caller : PendingFunctionCall)
    (ns application requestId : String) : PendingFunctionCall :=
  match s.route id with
  | none => caller
  | some existing =>
    if existing.parentAllocationId=caller.parentAllocationId ∧
        existing.executorId = caller.executorId then existing
    else if existing.originalFunctionCallId=id then caller
    else if s.isAllocationAlive ns application requestId existing.parentAllocationId then existing
    else {caller with originalFunctionCallId := existing.originalFunctionCallId}

section
variable {s : ApiState} {ns application requestId : String}

lemma registerFromParent_route (s : ApiState) (id i : String) (caller : PendingFunctionCall)
    (ns application requestId : String) :
    (registerFromParent s id caller ns application requestId).1.route i =
      if i=id then some (routeAfterCall s id caller ns application requestId)
      else s.route i := by
  unfold registerFromParent routeAfterCall
  cases hroute : s.route id with
  | none =>
    rw [route_register]
  | some existing =>
    have hkept : (s.load id existing).route i = if i=id then some existing else s.route i := by
      rw [route_load hroute]
      split_ifs with hi
      · rw [hi,hroute]
      · rfl
    dsimp only
    by_cases hsame : existing.parentAllocationId=caller.parentAllocationId ∧
        existing.executorId = caller.executorId
    · rw [if_pos hsame,if_pos hsame]
      exact hkept
    rw [if_neg hsame,if_neg hsame,ite_not]
    by_cases horig : existing.originalFunctionCallId=id
    · rw [if_pos horig,if_pos horig]
      exact route_register _ _ _ _
    rw [if_neg horig,if_neg horig]
    by_cases halive : s.isAllocationAlive ns application requestId existing.parentAllocationId
    · rw [if_pos halive,if_pos halive]
      exact hkept
    · rw [if_neg halive,if_neg halive]
      exact route_register _ _ _ _

lemma isAllocationAlive_of_sameReports {s' : ApiState} (h : s.SameReports s')
    (ns application requestId allocationId : String) :
    s'.isAllocationAlive ns application requestId allocationId =
      s.isAllocationAlive ns application requestId allocationId := by
  unfold isAllocationAlive
  rw [h.allocations]

lemma routeAfterCall_again {s' : ApiState} (h : s.SameReports s') {id : String}
    {caller : PendingFunctionCall}
    (hroute : s'.route id = some (routeAfterCall s id caller ns application requestId)) :
    routeAfterCall s' id caller ns application requestId =
      routeAfterCall s id caller ns application requestId := by
  have hcase : ∀ existing : PendingFunctionCall, s'.route id = some existing →
      existing.parentAllocationId = caller.parentAllocationId ∧ existing.executorId = caller.executorId →
      routeAfterCall s' id caller ns application requestId = existing := by
    intro existing he hsame
    simp only [routeAfterCall,he]
    rw [if_pos hsame]
  cases hs : s.route id with
  | none =>
    simp only [routeAfterCall,hs,hroute]
    split_ifs <;> rfl
  | some existing =>
    simp only [routeAfterCall,hs] at hroute ⊢
    split_ifs at hroute ⊢ with hsame horig halive
    · exact hcase existing hroute hsame
    · exact hcase caller hroute ⟨rfl,rfl⟩
    · rw [hroute]
      dsimp only
      rw [if_neg hsame,if_neg horig,isAllocationAlive_of_sameReports h,if_pos halive]
    · exact hcase _ hroute ⟨rfl,rfl⟩

lemma registerCalls_route (executorId : ExecutorId) (allocationId : String) (s : ApiState)
    (ids : List String) (i : String) :
    (registerCalls executorId allocationId ns application requestId s ids).route i = if i∈ids then
        some (routeAfterCall s i ⟨allocationId,i,executorId⟩ ns application requestId)
      else s.route i := by
  induction ids generalizing s with
  | nil => rfl
  | cons id ids ih =>
    have hstep := registerFromParent_route s id i ⟨allocationId,id,executorId⟩ ns application
      requestId
    have hsame := SameReports.registerFromParent s id ⟨allocationId,id,executorId⟩ ns application
      requestId
    change (registerCalls executorId allocationId ns application requestId
      (registerFromParent s id ⟨allocationId,id,executorId⟩ ns application requestId).1 ids).route
        i = _
    rw [ih]
    by_cases hi : i=id
    · subst hi
      rw [if_pos rfl] at hstep
      rw [if_pos List.mem_cons_self]
      split_ifs
      · rw [routeAfterCall_again hsame hstep]
      · exact hstep
    rw [if_neg hi] at hstep
    have hcaller : routeAfterCall
        (registerFromParent s id ⟨allocationId,id,executorId⟩ ns application requestId).1 i
          ⟨allocationId,i,executorId⟩ ns application requestId =
        routeAfterCall s i ⟨allocationId,i,executorId⟩ ns application requestId := by
      simp only [routeAfterCall,hstep,isAllocationAlive_of_sameReports hsame]
    rw [hcaller,hstep]
    simp only [List.mem_cons,hi,false_or]

end

def calledIds (entry : Proto.AllocationLogEntry) : List String :=
  match entry.entry with
  | some (.callFunction call) => (call.updates.map individualCallIds).getD []
  | _ => []

lemma handleCallFunction_ok {env : ConversionEnv} {allocationId : String}
    {call : Proto.FunctionCallRequest}
    (h : (handleCallFunction env s executorId allocationId call).2 = .ok ()) :
    ∃ ns application requestId payload, call.namespace = some ns ∧
      call.application = some application ∧ call.requestId = some requestId ∧
      (handleCallFunction env s executorId allocationId call).1 =
        (registerUpdates executorId allocationId ns application requestId s call.updates).write
          payload := by
  unfold handleCallFunction at h ⊢
  split at h
  · cases h
  rename_i ns hns
  split at h
  · cases h
  rename_i application happ
  split at h
  · cases h
  rename_i requestId hreq
  split at h
  · cases h
  split at h
  · cases h
  split at h
  · cases h
  exact ⟨ns,application,requestId,_,require_eq_ok.mp hns,require_eq_ok.mp happ,require_eq_ok.mp hreq,rfl⟩

lemma handleLogEntry_route (env : ConversionEnv) (s : ApiState) (executorId : ExecutorId)
    {entry : Proto.AllocationLogEntry} {i : String} (hi : i ∉ calledIds entry) :
    (handleLogEntry env s executorId entry).1.route i = s.route i := by
  unfold handleLogEntry
  unfold calledIds at hi
  split
  · rename_i call hcall
    rw [hcall] at hi
    dsimp only at hi
    have hreg : ∀ ns application requestId, (registerUpdates executorId entry.allocationId ns
        application requestId s call.updates).route i = s.route i := by
      intro ns application requestId
      cases hup : call.updates with
      | none => rfl
      | some updates =>
        rw [hup] at hi
        have hnot : i ∉ individualCallIds updates := hi
        rw [registerUpdates,registerCalls_route,if_neg hnot]
    unfold handleCallFunction
    split
    · rfl
    split
    · rfl
    split
    · rfl
    split
    · exact hreg _ _ _
    split
    · exact hreg _ _ _
    split
    · exact hreg _ _ _
    · exact hreg _ _ _
  · rfl
  · rfl

/-- A completion that is accepted in this state, with the fields of its report. -/
structure Accepted (env : ConversionEnv) (s : ApiState) (completed : Proto.AllocationCompleted)
    (f : ReportFields) : Prop where
  fields : reportFields "AllocationCompleted" completed.function completed.requestId
    completed.functionCallId = .ok f
  record : f.allocationKey completed.allocationId ∈ s.allocations
  converted : ∃ value, convertReturnValue env f completed.returnValue = .ok value

lemma processAllocationOutcome_of_accepted (executorId : ExecutorId) {f : ReportFields}
    (h : Accepted env.toConversionEnv s completed f) :
    ∃ payload, (processAllocationOutcome env executorId s (.completed completed)).1 =
      (tryRouteResult env (s.write payload) f.functionCallId completed).1 := by
  obtain ⟨a,ha⟩ := Dict.exists_of_mem h.record
  obtain ⟨value,hv⟩ := h.converted
  obtain ⟨fr,-,-,-,-,-,hid⟩ := reportFields_eq_ok.mp h.fields
  simp only [processAllocationOutcome,processAllocationCompleted,h.fields,ha,hv]
  rw [hid]
  simp only [ingestThenRoute,countFailure_fst]
  exact ⟨_,rfl⟩

/-- The completion of `id` returns a tail call to `next`, and the parent is alive. -/
structure TailCalls (s : ApiState) (r : PendingFunctionCall) (id next : String)
    (env : ConversionEnv) (completed : Proto.AllocationCompleted) : Prop where
  accepted : ∃ f, Accepted env s completed f ∧ f.functionCallId=id
  alive : isParentAllocationAlive s r.parentAllocationId completed.function completed.requestId
  updates : ∃ updates, completed.returnValue = some (.updates updates) ∧
    updates.rootFunctionCallId = some next

/-- An event that is not about the call `id`, whose route is `r`. -/
def Bystander (r : PendingFunctionCall) (id : String) : ServerEvent → Prop
  | .disconnect executorId => executorId≠r.executorId
  | .log _ _ entry => id ∉ calledIds entry
  | .outcome _ _ (.completed completed) => completed.functionCallId ≠ some id ∧
      ∀ updates, completed.returnValue = some (.updates updates) → updates.rootFunctionCallId ≠ some id
  | .outcome _ _ (.failed failed) => failed.functionCallId ≠ some id
  | _ => True

/-- A run in which the route `r` goes from `id` to `last` by tail calls, with any events about
other calls between them. -/
def Chain (hash : String → String) (r : PendingFunctionCall) :
    Server → String → List ServerEvent → String → Prop
  | _,id,[],last => last=id
  | s,id,e::es,last =>
    (Bystander r id e ∧ Chain hash r (s.step hash e) id es last) ∨
      ∃ next env executorId completed, e = .outcome env executorId (.completed completed) ∧
        TailCalls s.api r id next env.toConversionEnv completed ∧ Chain hash r (s.step hash e) next es last

section
variable {s : ApiState} {env : ApiEnv} {i id : String}
variable (s)

lemma pushOrRestore_route_other (hi : i≠id) (r : PendingFunctionCall) (entry : Proto.AllocationLogEntry) :
    (pushOrRestore env s id r entry).1.route i = s.route i := by
  unfold pushOrRestore pushResultToExecutor
  cases s.connections.lookup r.executorId with
  | none => rfl
  | some conn =>
    dsimp only
    cases conn.pushResult env.encodedLen entry with
    | mk conn' result =>
      cases result with
      | ok u => rfl
      | error e =>
        rw [route_register,if_neg hi]

lemma route_take_other (hi : i≠id) : (s.take id).1.route i = s.route i := by
  obtain ⟨routes,pending,-,hroute⟩ := s.take_fst id
  rw [hroute,if_neg hi]

lemma tryRouteFailure_route_other (hi : i≠id) (failed : Proto.AllocationFailed) :
    (tryRouteFailure env s id failed).1.route i = s.route i := by
  have htake := route_take_other s hi
  unfold tryRouteFailure
  split
  · rename_i s1 he
    rwa [he] at htake
  rename_i s1 r he
  rw [he] at htake
  split_ifs
  · rw [pushOrRestore_route_other s1 hi,htake]
  · exact htake

lemma tryRouteResult_route_other (hi : i≠id) {completed : Proto.AllocationCompleted}
    (hroot : ∀ updates, completed.returnValue = some (.updates updates) →
      updates.rootFunctionCallId ≠ some i) :
    (tryRouteResult env s id completed).1.route i = s.route i := by
  have htake := route_take_other s hi
  unfold tryRouteResult
  split
  · rename_i s1 he
    rwa [he] at htake
  rename_i s1 r he
  rw [he] at htake
  split_ifs
  · split
    · rw [pushOrRestore_route_other s1 hi,htake]
    · rename_i updates hup
      have hne := hroot updates hup
      split
      · rename_i next hnext
        have hin : i≠next := by
          rintro rfl
          exact hne hnext
        rw [route_register,if_neg hin,htake]
      · rw [route_register,if_neg hi,htake]
    · rw [pushOrRestore_route_other s1 hi,htake]
  · exact htake

variable {s}

lemma route_purgeExecutor {executorId : ExecutorId} {r : PendingFunctionCall} (h : s.route i = some r)
    (hne : executorId≠r.executorId) : (purgeExecutor s executorId).route i = some r := by
  have hkeep : ∀ m : Dict String PendingFunctionCall, m.lookup i = some r →
      (m.retain fun _ r => r.executorId≠executorId).lookup i = some r := by
    intro m hm
    rw [Dict.lookup_retain_eq_some]
    exact ⟨hm,by simpa using Ne.symm hne⟩
  unfold route purgeExecutor at *
  cases hp : s.pending.lookup i with
  | some r' =>
    rw [hp] at h
    cases h
    rw [hkeep _ hp,Option.some_or]
  | none =>
    rw [hp] at h
    have hgone : (s.pending.retain fun _ r => r.executorId≠executorId).lookup i = none := by
      cases hr : (s.pending.retain fun _ r => r.executorId≠executorId).lookup i with
      | none => rfl
      | some q =>
        have hq := ((Dict.lookup_retain_eq_some _ _ _ _).mp hr).1
        cases hp.symm.trans hq
    rw [hgone]
    exact hkeep _ h

end

lemma Bystander.route {s : Server} {id : String} {e : ServerEvent} (h : Bystander r id e)
    (hr : s.api.route id = some r) : (s.step hash e).api.route id = some r := by
  cases e with
  | connect executorId
  | ackResults executorId ackedSeq
  | start key id allocation
  | terminate executorId containerId reason
  | commit => exact hr
  | disconnect executorId => exact route_purgeExecutor hr h
  | log env executorId entry =>
    rw [← hr]
    exact handleLogEntry_route env s.api executorId h
  | outcome env executorId outcome =>
    simp only [Server.step]
    cases outcome with
    | empty => exact hr
    | completed completed =>
      obtain ⟨hid,hroot⟩ := h
      rcases processAllocationOutcome_completed env executorId s.api completed with
        ⟨he,-⟩ | ⟨f,a,value,updates,-,-,-,hfid,he⟩
      · rw [he]
        exact hr
      have hne : id≠f.functionCallId := by
        rintro rfl
        exact hid hfid
      rw [he,tryRouteResult_route_other _ hne hroot]
      exact hr
    | failed failed =>
      rcases processAllocationOutcome_failed env executorId s.api failed with
        ⟨he,-⟩ | ⟨f,a,ex,containers,-,-,-,hfid,he⟩
      · rw [he]
        exact hr
      have hne : id≠f.functionCallId := by
        rintro rfl
        exact h hfid
      rw [he,tryRouteFailure_route_other _ hne]
      exact hr
  | invoke av f requestId payload =>
    simp only [Server.step]
    split_ifs <;> exact hr
  | ingest =>
    simp only [Server.step]
    cases hq : s.api.queue with
    | nil => exact hr
    | cons p rest =>
      rw [Server.ingestPayload_api]
      exact hr

lemma tryRouteResult_of_alive {id : String} (hr : s.route id = some r)
    (halive : isParentAllocationAlive s r.parentAllocationId completed.function completed.requestId) :
    tryRouteResult env s id completed = match completed.returnValue with
        | some (.value payload) =>
          pushOrRestore env (s.take id).1 id r (buildResultLogEntry r completed (some payload))
        | some (.updates updates) =>
          match updates.rootFunctionCallId with
          | some downstream => ((s.take id).1.register downstream r,.ok ())
          | none => ((s.take id).1.register id r,
              .error "AllocationCompleted Updates missing root_function_call_id")
        | none => pushOrRestore env (s.take id).1 id r (buildResultLogEntry r completed none) := by
  have hpair : s.take id = ((s.take id).1,some r) := by
    rw [← hr,← s.take_snd]
  have halive' : isParentAllocationAlive (s.take id).1 r.parentAllocationId completed.function
      completed.requestId := by
    unfold isParentAllocationAlive isAllocationAlive at halive ⊢
    rw [(SameReports.take s id).allocations]
    exact halive
  unfold tryRouteResult
  rw [hpair]
  exact if_pos halive'

lemma TailCalls.route {s : Server} {id next : String}
    (h : TailCalls s.api r id next env.toConversionEnv completed) (hr : s.api.route id = some r) :
    (s.step hash (.outcome env executorId (.completed completed))).api.route next = some r := by
  obtain ⟨f,haccepted,rfl⟩ := h.accepted
  obtain ⟨payload,he⟩ := processAllocationOutcome_of_accepted executorId haccepted
  obtain ⟨updates,hup,hroot⟩ := h.updates
  simp only [Server.step]
  rw [he]
  have hr' : (s.api.write payload).route f.functionCallId = some r := hr
  rw [tryRouteResult_of_alive hr' h.alive,hup]
  dsimp only
  rw [hroot]
  rw [route_register,if_pos rfl]

/-- Along a chain the route arrives under the last id. -/
theorem Chain.route {hash : String → String} {r : PendingFunctionCall} {s : Server}
    {id last : String} {events : List ServerEvent} (h : Chain hash r s id events last)
    (hr : s.api.route id = some r) : (s.run hash events).api.route last = some r := by
  induction events generalizing s id with
  | nil =>
    obtain rfl : last=id := h
    exact hr
  | cons e es ih =>
    rcases h with ⟨hby,hrest⟩ | ⟨next,env,executorId,completed,rfl,htail,hrest⟩
    · exact ih hrest (hby.route hr)
    · exact ih hrest (htail.route hr)

def returnedPayload (completed : Proto.AllocationCompleted) : Option Proto.DataPayload :=
  match completed.returnValue with
  | some (.value payload) => some payload
  | _ => none

/-- The completion of `id` ends the chain, and its result can reach the waiting parent: the
parent is alive, its executor is connected, and the result fits into a poll response. -/
structure Ends (s : ApiState) (r : PendingFunctionCall) (id : String) (env : ApiEnv)
    (completed : Proto.AllocationCompleted) (conn : ExecutorConnection) : Prop where
  accepted : ∃ f, Accepted env.toConversionEnv s completed f ∧ f.functionCallId=id
  value : ∀ updates, completed.returnValue ≠ some (.updates updates)
  alive : isParentAllocationAlive s r.parentAllocationId completed.function completed.requestId
  connected : s.connections.lookup r.executorId = some conn
  fits : env.encodedLen ⟨conn.nextResultSeq,
    some (buildResultLogEntry r completed (returnedPayload completed))⟩ ≤ maxPollResponseBytes

lemma pushOrRestore_of_fits {conn : ExecutorConnection}
    (hconn : s.connections.lookup r.executorId = some conn) {entry : Proto.AllocationLogEntry}
    (hfits : env.encodedLen ⟨conn.nextResultSeq,some entry⟩ ≤ maxPollResponseBytes) (id : String) :
    (pushOrRestore env s id r entry).1.connections.lookup r.executorId =
      some {conn with
        pendingResults := conn.pendingResults++[⟨conn.nextResultSeq,some entry⟩]
        nextResultSeq := saturatingSucc conn.nextResultSeq} := by
  have hnot : ¬ maxPollResponseBytes<env.encodedLen ⟨conn.nextResultSeq,some entry⟩ := by omega
  unfold pushOrRestore pushResultToExecutor
  rw [hconn]
  dsimp only
  unfold ExecutorConnection.pushResult
  rw [if_neg hnot]
  exact AList.lookup_insert _

lemma Ends.delivered {s : Server} {id : String} {conn : ExecutorConnection}
    (h : Ends s.api r id env completed conn) (hr : s.api.route id = some r) :
    (s.step hash (.outcome env executorId (.completed completed))).api.connections.lookup
      r.executorId = some {conn with
        pendingResults := conn.pendingResults++[⟨conn.nextResultSeq,
          some (buildResultLogEntry r completed (returnedPayload completed))⟩]
        nextResultSeq := saturatingSucc conn.nextResultSeq} := by
  obtain ⟨f,haccepted,rfl⟩ := h.accepted
  obtain ⟨payload,he⟩ := processAllocationOutcome_of_accepted executorId haccepted
  have hr' : (s.api.write payload).route f.functionCallId = some r := hr
  have hconn : ((s.api.write payload).take f.functionCallId).1.connections.lookup r.executorId =
      some conn := by
    obtain ⟨routes,pending,htake,-⟩ := (s.api.write payload).take_fst f.functionCallId
    rw [htake]
    exact h.connected
  have hfits := h.fits
  simp only [Server.step]
  rw [he,tryRouteResult_of_alive hr' h.alive]
  unfold returnedPayload at hfits ⊢
  cases hv : completed.returnValue with
  | none =>
    rw [hv] at hfits
    exact pushOrRestore_of_fits hconn hfits _
  | some value =>
    rw [hv] at hfits
    cases value with
    | value payload => exact pushOrRestore_of_fits hconn hfits _
    | updates updates => exact absurd hv (h.value updates)

/-- After an accepted call the router holds the route that `routeAfterCall` says under every
plain call of the entry, so under its root when that is one, and when the run of that call completes,
after any chain of tail calls, its value is pushed to the executor of the route under the id that its
parent watches. -/
theorem call_delivered (hash : String → String) (env : ConversionEnv) (s : Server)
    (executorId : ExecutorId) (entry : Proto.AllocationLogEntry)
    {call : Proto.FunctionCallRequest} {updates : Proto.ExecutionPlanUpdates} {root : String}
    (hcall : entry.entry = some (.callFunction call)) (hupdates : call.updates = some updates)
    (hop : root ∈ individualCallIds updates)
    (hok : (handleLogEntry env s.api executorId entry).2 = .ok ()) :
    ∃ ns application requestId r, call.namespace = some ns ∧
      call.application = some application ∧ call.requestId = some requestId ∧
      r = routeAfterCall s.api root ⟨entry.allocationId,root,executorId⟩ ns application
        requestId ∧
      (s.step hash (.log env executorId entry)).api.route root = some r ∧
      ∀ {events : List ServerEvent} {last : String} {env' : ApiEnv}
        {completed : Proto.AllocationCompleted} {conn : ExecutorConnection}
        (executorId' : ExecutorId),
        Chain hash r (s.step hash (.log env executorId entry)) root events last →
        Ends ((s.step hash (.log env executorId entry)).run hash events).api r last env' completed
          conn →
        (((s.step hash (.log env executorId entry)).run hash events).step hash
          (.outcome env' executorId' (.completed completed))).api.connections.lookup
            r.executorId = some {conn with
              pendingResults := conn.pendingResults++[⟨conn.nextResultSeq,
                some (buildResultLogEntry r completed (returnedPayload completed))⟩]
              nextResultSeq := saturatingSucc conn.nextResultSeq} := by
  have hlog : handleLogEntry env s.api executorId entry =
      handleCallFunction env s.api executorId entry.allocationId call := by
    unfold handleLogEntry
    rw [hcall]
  rw [hlog] at hok
  obtain ⟨ns,application,requestId,payload,hns,happ,hreq,hstate⟩ := handleCallFunction_ok hok
  have hrouted : (s.step hash (.log env executorId entry)).api.route root =
      some (routeAfterCall s.api root ⟨entry.allocationId,root,executorId⟩ ns application
        requestId) := by
    change (handleLogEntry env s.api executorId entry).1.route root = _
    rw [hlog,hstate,hupdates]
    change (registerCalls executorId entry.allocationId ns application requestId s.api
      (individualCallIds updates)).route root = _
    rw [registerCalls_route,if_pos hop]
  refine ⟨ns,application,requestId,_,hns,happ,hreq,rfl,hrouted,?_⟩
  intro events last env' completed conn executorId' hchain hends
  exact hends.delivered (hchain.route hrouted)

/-! `answer` returns the tail call `inner`, and its own log entry for `inner` arrives later. -/

def innerUpdates : Proto.ExecutionPlanUpdates :=
  ⟨[⟨some (.functionCall ⟨some "inner-1",some answerRef,[],none⟩)⟩],some "inner-1"⟩

def answerCompleted (allocationId functionCallId : String)
    (returnValue : Option Proto.ReturnValue) : Proto.AllocationCompleted where
  allocationId := allocationId
  function := some answerRef
  functionCallId := some functionCallId
  requestId := some "request-1"
  returnValue := returnValue
  executionDurationMs := some 5

def valuePayload : Proto.DataPayload where
  uri := some "file:///blobs/value"
  encoding := some 1
  contentType := none
  metadataSize := some 0
  offset := some 0
  size := some 16
  sha256Hash := some "value"
  id := some "value"

def innerAllocation : Allocation :=
  {pipelineAllocation "alloc-3" "inner-1" "answer" with
    target := ⟨⟨"executor-2"⟩,⟨"container-answer"⟩⟩}

def innerCompleted : Proto.AllocationCompleted :=
  answerCompleted "alloc-3" "inner-1" (some (.value valuePayload))

def untilInner : List ServerEvent :=
  [.ingest,
    .start ⟨"default|pipeline|request-1"⟩ ⟨"answer-1"⟩ (answerAllocation "alloc-2"),
    .commit,
    .outcome sampleEnv ⟨"executor-2"⟩
      (.completed (answerCompleted "alloc-2" "answer-1" (some (.updates innerUpdates)))),
    .ingest,
    .start ⟨"default|pipeline|request-1"⟩ ⟨"inner-1"⟩ innerAllocation,
    .commit]

def planRunning : Server := (Server.init (retryingMemory 0)).run id
  (.connect ⟨"executor-2"⟩::(awaitAnswer 0).take 4)

def callInner : Proto.AllocationLogEntry where
  allocationId := "alloc-2"
  clock := 1
  entry := some (.callFunction {
    «namespace» := some "default"
    application := some "pipeline"
    requestId := some "request-1"
    updates := some innerUpdates
    sourceFunctionCallId := some "answer-1" })

def innerRunning : Server :=
  (planRunning.step id (.log sampleEnv.toConversionEnv ⟨"executor-1"⟩ callAnswer)).run id
    untilInner

/-- The accepted call of `answer` on executor-2 gets no route: the value of `inner` goes to
executor-1, for the call of `plan`. -/
theorem innerRunning_keeps_route :
    (handleLogEntry sampleEnv.toConversionEnv innerRunning.api ⟨"executor-2"⟩ callInner).2.isOk ∧
    innerUpdates.rootFunctionCallId = some "inner-1" ∧
    "inner-1" ∈ individualCallIds innerUpdates ∧
    ((innerRunning.run id [.log sampleEnv.toConversionEnv ⟨"executor-2"⟩ callInner,
      .outcome sampleEnv ⟨"executor-2"⟩ (.completed innerCompleted)]).api.connections.lookup
        ⟨"executor-2"⟩).map ExecutorConnection.pendingResults = some [] ∧
    ((innerRunning.run id [.log sampleEnv.toConversionEnv ⟨"executor-2"⟩ callInner,
      .outcome sampleEnv ⟨"executor-2"⟩ (.completed innerCompleted)]).api.connections.lookup
        ⟨"executor-1"⟩).map ExecutorConnection.pendingResults =
          some [⟨1,some (buildResultLogEntry ⟨"alloc-1","answer-1",⟨"executor-1"⟩⟩
            innerCompleted (some valuePayload))⟩] :=
  ⟨by decide,rfl,by decide,by decide,by decide⟩

lemma untilInner_chain : Chain id ⟨"alloc-1","answer-1",⟨"executor-1"⟩⟩
    (planRunning.step id (.log sampleEnv.toConversionEnv ⟨"executor-1"⟩ callAnswer)) "answer-1"
    untilInner "inner-1" := by
  refine .inl ⟨trivial,.inl ⟨trivial,.inl ⟨trivial,.inr ⟨"inner-1",_,_,_,rfl,?_,
    .inl ⟨trivial,.inl ⟨trivial,.inl ⟨trivial,rfl⟩⟩⟩⟩⟩⟩⟩
  exact {
    accepted := ⟨⟨"default","pipeline","answer","request-1","answer-1"⟩,⟨rfl,by decide,⟨_,rfl⟩⟩,rfl⟩
    alive := by decide
    updates := ⟨innerUpdates,rfl,rfl⟩ }

/-- The value at the end of the chain reaches `plan` under the id of its call. -/
theorem untilInner_delivered : ((innerRunning.step id (.outcome sampleEnv ⟨"executor-2"⟩
    (.completed innerCompleted))).api.connections.lookup ⟨"executor-1"⟩).map
      ExecutorConnection.pendingResults =
    some [⟨1,some (buildResultLogEntry ⟨"alloc-1","answer-1",⟨"executor-1"⟩⟩ innerCompleted
      (some valuePayload))⟩] := by
  obtain ⟨ns,application,requestId,r,hns,happ,hreq,hr,-,hdelivered⟩ :=
    call_delivered id sampleEnv.toConversionEnv planRunning ⟨"executor-1"⟩ callAnswer rfl rfl
      (show "answer-1" ∈ individualCallIds _ by decide) (by decide)
  cases hns
  cases happ
  cases hreq
  have hcaller : r = ⟨"alloc-1","answer-1",⟨"executor-1"⟩⟩ := hr.trans (by decide)
  subst hcaller
  have hends : Ends innerRunning.api ⟨"alloc-1","answer-1",⟨"executor-1"⟩⟩ "inner-1" sampleEnv
      innerCompleted {} := {
    accepted := ⟨⟨"default","pipeline","answer","request-1","inner-1"⟩,⟨rfl,by decide,⟨_,rfl⟩⟩,rfl⟩
    value := fun updates h => by cases h
    alive := by decide
    connected := by decide
    fits := by decide }
  have hpushed := hdelivered ⟨"executor-2"⟩ untilInner_chain hends
  rw [innerRunning,hpushed]
  rfl

end Indexify
