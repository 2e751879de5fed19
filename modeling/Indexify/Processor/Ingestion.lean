import Indexify.Processor.OutputPropagation

/-! What one finished allocation or one blocking call leaves of a request whose runs all
succeed. -/
namespace Indexify.FunctionRunCreator
open RequestCtx Dict FunctionRunRetryPolicy SchedulerUpdateRequest.Snapshots
variable {c : RequestCtx} (hash : String → String)

lemma propagateLoop_frame (parents : Dict FunctionCallId FunctionCallId) (key : RequestCtxKey) (fuel : ℕ)
    (id : FunctionCallId) (output : Option DataPayload) (uc : SchedulerUpdateRequest × RequestCtx) :
    (propagateLoop parents key fuel id output uc).1.updatedRequestStates = uc.1.updatedRequestStates ∧
      (propagateLoop parents key fuel id output uc).2.outcome = uc.2.outcome := by
  induction fuel generalizing id output uc with
  | zero => exact ⟨rfl,rfl⟩
  | succ fuel ih =>
    unfold propagateLoop
    cases parents.lookup id with
    | none => exact ⟨rfl,rfl⟩
    | some p =>
      dsimp only
      cases uc.2.functionRuns.lookup p with
      | none => exact ⟨rfl,rfl⟩
      | some r => exact ih _ _ _

lemma propagateOutputToConsumers_frame (c : RequestCtx) (run : FunctionRun) :
    (propagateOutputToConsumers c run).1.updatedRequestStates = ∅ ∧
      (propagateOutputToConsumers c run).2.outcome = c.outcome := by
  unfold propagateOutputToConsumers
  split_ifs
  · exact ⟨rfl,rfl⟩
  · exact propagateLoop_frame _ _ _ _ _ _

lemma chainReduceCalls_states (op : ReduceOperation) (rest : List FunctionArgs) (position : ℕ)
    (last : FunctionCall) (uc : SchedulerUpdateRequest × RequestCtx) :
    (chainReduceCalls hash op rest position last uc).2.1.updatedRequestStates =
      uc.1.updatedRequestStates := by
  induction rest generalizing position last uc with
  | nil => rfl
  | cons arg rest ih => exact ih _ _ _

lemma createReduceOps_states (ops : List ComputeOp) (uc : SchedulerUpdateRequest × RequestCtx) :
    (createReduceOps hash ops uc).1.updatedRequestStates = uc.1.updatedRequestStates := by
  induction ops generalizing uc with
  | nil => rfl
  | cons o ops ih =>
    cases o with
    | functionCall call => exact ih uc
    | reduce op =>
      unfold createReduceOps
      split
      · rw [ih]
        exact chainReduceCalls_states hash op _ _ _ _
      · rfl

lemma createFunctionCalls_states (c : RequestCtx) (g : GraphUpdates) :
    (createFunctionCalls hash c g).1.updatedRequestStates = ∅ := by
  rw [createFunctionCalls,createReduceOps_states]
  refine Trace.frame addPlainCall (fun uc => uc.1.updatedRequestStates) (fun uc o => ?_) ({},c) _
  cases o <;> rfl

lemma createFunctionRuns_frame (c : RequestCtx) (ids : List FunctionCallId)
    (av : ApplicationVersion) : (createFunctionRuns c ids av).1.updatedRequestStates = ∅ ∧
      (createFunctionRuns c ids av).2.key = c.key ∧
      (createFunctionRuns c ids av).2.outcome = c.outcome := by
  have h := Trace.frame (createFunctionRun av) (fun uc =>
    (uc.1.updatedRequestStates,uc.2.key,uc.2.outcome)) (fun uc id => ?_) ({},c) ids
  · obtain ⟨hstates,hctx⟩ := Prod.mk.inj h
    exact ⟨hstates,Prod.mk.inj hctx⟩
  unfold createFunctionRun
  cases uc.2.functionCalls.lookup id with
  | none => rfl
  | some call =>
    dsimp only
    cases call.inputs.mapM (resolveArg uc.2) <;> rfl

/-- The snapshot a step may leave: linked tail calls, and success only when every call has a
completed run. -/
structure Sound (c : RequestCtx) : Prop where
  consistent : c.Consistent
  complete : c.outcome = some .success → (∀ id, id∈c.functionCalls → id∈c.functionRuns) ∧
    ∀ {id r}, c.functionRuns.lookup id = some r → r.status=.completed

lemma complete_of_isRequestCompleted (hc : c.Consistent) (ho : c.outcome=none)
    (h : c.isRequestCompleted=true) : (∀ id, id∈c.functionCalls → id∈c.functionRuns) ∧
      ∀ {id r}, c.functionRuns.lookup id = some r → r.status=.completed := by
  unfold isRequestCompleted at h
  simp only [ho,Option.isSome_none,Bool.false_eq_true,if_false] at h
  split_ifs at h with hlen
  rw [not_not] at hlen
  constructor
  · have hsub : c.functionRuns.keys ⊆ c.functionCalls.keys := by
      intro id hid
      exact AList.mem_keys.mp (hc.called (AList.mem_keys.mpr hid))
    have hperm : c.functionRuns.keys.Perm c.functionCalls.keys := by
      refine (c.functionRuns.nodupKeys.subperm hsub).perm_of_length_le ?_
      simp only [AList.keys,List.keys,List.length_map]
      exact hlen.le
    intro id hid
    exact AList.mem_keys.mpr (hperm.mem_iff.mpr (AList.mem_keys.mp hid))
  · intro id r hr
    have hr' := (List.all_eq_true.mp h) r ((mem_values_iff _ _).mpr ⟨id,hr⟩)
    simpa using hr'

section
variable {u : SchedulerUpdateRequest} {av : ApplicationVersion} {k : RequestCtxKey}
  {c' : RequestCtx} (hc : c.Consistent) (ho : c.outcome=none) (hu : u.OnlyOpen c.key)
include hc ho hu

lemma runs_sound (h : ((u.extend (createFunctionRuns c c.pendingFunctionCalls av).1).addRequestState
    (createFunctionRuns c c.pendingFunctionCalls av).2).updatedRequestStates.lookup k = some c') :
    c'.key = k ∧ Sound c' := by
  obtain ⟨hstates,hkey,-⟩ := createFunctionRuns_frame c c.pendingFunctionCalls av
  obtain ⟨hcons,hout⟩ := createFunctionRuns_consistent av hc
  have hu' : (u.extend (createFunctionRuns c c.pendingFunctionCalls av).1).OnlyOpen
      (createFunctionRuns c c.pendingFunctionCalls av).2.key := by
    rw [hkey]
    exact hu.extend hstates
  obtain ⟨rfl,rfl⟩ := hu'.addRequestState_iff.mp h
  refine ⟨rfl,hcons,fun hs => ?_⟩
  rw [hout,ho] at hs
  cases hs

lemma continue_sound (h : (if c.isRequestCompleted then u.addRequestState {c with outcome := some .success}
    else (u.extend (createFunctionRuns c c.pendingFunctionCalls av).1).addRequestState
      (createFunctionRuns c c.pendingFunctionCalls av).2).updatedRequestStates.lookup k =
        some c') : c'.key=k ∧ Sound c' := by
  split_ifs at h with hdone
  · have hcomp := complete_of_isRequestCompleted hc ho hdone
    have hu' : u.OnlyOpen ({c with outcome := some .success} : RequestCtx).key := hu
    obtain ⟨rfl,rfl⟩ := hu'.addRequestState_iff.mp h
    exact ⟨rfl,hc.of_calls hc.calls_keyed rfl hc.called hc.target,fun _ => hcomp⟩
  · exact runs_sound hc ho hu h

end

lemma finish_value (hc : c.Consistent) {run : FunctionRun} {id : FunctionCallId}
    (hr : c.functionRuns.lookup id = some run) (hopen : run.status≠.completed)
    (output : Option DataPayload) (hout : output.isSome ∨ ∀ q, ¬ c.Waits q id) :
    ∃ m, (propagateOutputToConsumers
        {c with functionRuns := c.functionRuns.insert run.id {run with output := output}}
        {run with output := output}).2 = {c with functionRuns := m} ∧
      ({c with functionRuns := m.insert run.id {run with
        output := output, status := .completed, outcome := some .success}} :
          RequestCtx).Consistent := by
  obtain rfl : run.id=id := hc.runs_keyed hr
  have hblank := hc.blank hr hopen
  set run1 : FunctionRun := {run with output := output} with hrun1
  set c1 : RequestCtx := {c with functionRuns := c.functionRuns.insert run.id run1} with hc1
  set run2 : FunctionRun :=
    {run with output := output, status := .completed, outcome := some .success} with hrun2
  have hlook : ∀ i, c1.functionRuns.lookup i = if i=run.id then some run1 else c.functionRuns.lookup i :=
    fun i => lookup_insert_if _ _ _ _
  have hwaits : ∀ {i t}, c1.Waits i t ↔ c.Waits i t := by
    intro i t
    by_cases hi : i=run.id
    · subst hi
      rw [Waits,Waits,hlook,if_pos rfl,hr]
      constructor
      · rintro ⟨q,hq,hqt⟩
        cases hq
        exact ⟨run,rfl,hqt⟩
      rintro ⟨q,hq,hqt⟩
      cases hq
      exact ⟨run1,rfl,hqt⟩
    · rw [Waits,Waits,hlook,if_neg hi]
  have hdepends : ∀ {i t}, c1.Depends i t ↔ c.Depends i t := by
    have heq : c1.Waits=c.Waits := by
      funext i t
      exact propext hwaits
    intro i t
    rw [Depends,Depends,heq]
  have hid : run2.id=run.id := rfl
  cases houtput : output with
  | none =>
    refine ⟨c1.functionRuns,by simp [propagateOutputToConsumers,houtput,hc1,hrun1],?_⟩
    have hnone : ∀ q, ¬ c.Waits q run.id := by
      rcases hout with h | h
      · rw [houtput] at h; cases h
      · exact h
    have hnodep : ∀ i, ¬ c.Depends i run.id := by
      intro i h
      obtain ⟨q,-,hq⟩ := Relation.TransGen.tail'_iff.mp h
      exact hnone q hq
    refine hc.finish hr hopen rfl hid hblank.1 rfl rfl (.inr hnone) (AList.lookup_insert _) ?_ ?_
    · intro i hi
      exact absurd hi (hnodep i)
    · intro i hi _
      rw [lookup_insert_if,if_neg hi,hlook,if_neg hi]
  | some v =>
    have hkeyed : ∀ {i q}, c1.functionRuns.lookup i = some q → q.id=i :=
      of_lookup_insert (k := run.id) (v := run1) hc.runs_keyed rfl
    have hsome : run1.output.isSome := by simp [hrun1,houtput]
    obtain ⟨rank,hrank⟩ := hc.ranked
    obtain ⟨m,hm,hdep,hrest⟩ := propagateOutputToConsumers_ctx hkeyed
      (fun h h' => hc.single (hwaits.mp h) (hwaits.mp h'))
      ⟨rank,fun h => hrank (hwaits.mp h)⟩ hsome
    refine ⟨m,hm,hc.finish hr hopen rfl hid hblank.1 rfl rfl (.inl hsome)
      (AList.lookup_insert _) ?_ ?_⟩
    · intro i hi
      have hne : i≠run.id := by
        rintro rfl
        exact Nat.lt_irrefl _ (hi.rank_lt hrank)
      rw [lookup_insert_if,if_neg hne,hdep i (hdepends.mpr hi),hlook,if_neg hne]
    · intro i hi hd
      rw [lookup_insert_if,if_neg hi,hrest i (fun h => hd (hdepends.mp h)),hlook,if_neg hi]

/-- An event as the report handlers build it: a value or graph updates, and neither of them
with a failure. -/
structure Reported (event : AllocationOutputIngestedEvent) : Prop where
  one : event.dataPayload=none ∨ event.graphUpdates=none
  failed : ∀ {reason}, event.allocationOutcome = .failure reason →
    event.dataPayload = none ∧ event.graphUpdates=none

def Succeeds (av : ApplicationVersion) (run : FunctionRun)
    (event : AllocationOutputIngestedEvent) : Prop :=
  event.allocationOutcome = .success ∨ ∃ reason, event.allocationOutcome = .failure reason ∧
    retries run reason av

/-- Every reduce has two items, and the ids a reduce gives up are neither run nor awaited. -/
structure SafeUpdates (hash : String → String) (c : RequestCtx) (g : GraphUpdates) : Prop where
  pairs : ∀ op, ComputeOp.reduce op ∈ g.graphUpdates → 2 ≤ op.collection.length
  fresh : ∀ {x}, x ∈ renamedIds hash g.graphUpdates → x∉c.functionRuns ∧ ∀ q, ¬ c.Waits q x

/-- The tail call of run `id` names a call of the request that is not finished, that no other
run waits for and that does not lead back to the run. -/
structure SafeTailCall (hash : String → String) (c : RequestCtx) (id : FunctionCallId)
    (g : GraphUpdates) : Prop extends SafeUpdates hash c g where
  known : g.outputFunctionCallId∈c.functionCalls ∨ ∃ o∈g.graphUpdates, opId o = g.outputFunctionCallId
  kept : g.outputFunctionCallId ∉ renamedIds hash g.graphUpdates
  other : g.outputFunctionCallId≠id
  forward : ¬ c.Depends g.outputFunctionCallId id
  single : ∀ q, ¬ c.Waits q g.outputFunctionCallId
  unfinished : ∀ r, c.functionRuns.lookup g.outputFunctionCallId = some r → r.outcome ≠ some .success

/-- What the tail calls of the request need of a finished allocation. -/
structure SafeFinish (hash : String → String) (c : RequestCtx) (id : FunctionCallId)
    (event : AllocationOutputIngestedEvent) : Prop where
  value : event.allocationOutcome=.success → event.graphUpdates=none →
    event.dataPayload.isSome ∨ ∀ q, ¬ c.Waits q id
  tail : ∀ {g}, event.graphUpdates = some g → SafeTailCall hash c id g

section
variable {hash : String → String} {s : InMemoryState} {u : SchedulerUpdateRequest}
  {c c' : RequestCtx} {run : FunctionRun} {id : FunctionCallId} {allocation : Allocation}
  {event : AllocationOutputIngestedEvent} {av : ApplicationVersion} {k : RequestCtxKey}

lemma tail_call_consistent (hc : c.Consistent) (hr : c.functionRuns.lookup id = some run)
    (hopen : run.status≠.completed) {g : GraphUpdates} (hg : SafeTailCall hash c id g)
    {run' : FunctionRun} (hid : run'.id=id)
    (hchild : run'.childFunctionCall = some g.outputFunctionCallId)
    (hstatus : run'.status=.completed) (hno : run'.outcome=none) (hnoout : run'.output=none) :
    (createFunctionCalls hash {c with functionRuns := c.functionRuns.insert id run'} g).2.Consistent ∧
      ∃ m, (createFunctionCalls hash {c with functionRuns := c.functionRuns.insert id run'} g).2 =
        {c with functionRuns := c.functionRuns.insert id run', functionCalls := m} := by
  obtain ⟨hadd,hin⟩ := createFunctionCalls_spec hash
    {c with functionRuns := c.functionRuns.insert id run'} g hg.pairs
  obtain ⟨m,hm⟩ := hadd.frame
  have htarget : g.outputFunctionCallId ∈ (createFunctionCalls hash
      {c with functionRuns := c.functionRuns.insert id run'} g).2.functionCalls := by
    rcases hg.known with h | ⟨o,ho,he⟩
    · exact hadd.kept hg.kept h
    · rw [← he]
      exact hin o ho (by rw [he]; exact hg.kept)
  refine ⟨?_,m,hm⟩
  refine hc.tail_call (hadd.keyed hc.calls_keyed) hid (by rw [hm]) hno hnoout hr hopen hchild hstatus
    ?_ ?_ htarget hg.other hg.forward hg.single hg.unfinished
  · intro i hi
    exact hadd.kept (fun h => (hg.fresh h).1 hi) (hc.called hi)
  · intro i t hw
    exact hadd.kept (fun h => (hg.fresh h).2 i hw) (hc.target hw)

def propagated (c : RequestCtx) (run : FunctionRun) : RequestCtx :=
  (propagateOutputToConsumers {c with functionRuns := c.functionRuns.insert run.id run} run).2

def decidedCtx (c : RequestCtx) (run run' : FunctionRun) : RequestCtx :=
  {propagated c run with
    functionRuns := (propagated c run).functionRuns.insert run'.id run'}

variable (hash c allocation) in
lemma ingestRunning_eq (hu : u.updatedRequestStates = ∅)
    (hv : s.getExistingApplicationVersion (reportedRun run event) = some av) :
    ∃ u', u'.updatedRequestStates = ∅ ∧ ingestRunning hash s u c run allocation event =
      let run' := decidedRun (reportedRun run event) allocation av
      let c' := decidedCtx c (reportedRun run event) run'
      let u'' := SchedulerUpdateRequest.addRequestState u' c'
      if run'.status=.pending then u''
      else
        match allocation.outcome with
        | .failure reason => failRequest u'' c' run' allocation reason event.requestException
        | _ => continueRequest hash u'' c' event.graphUpdates av := by
  set run1 := reportedRun run event with hrun1
  set u1 := (SchedulerUpdateRequest.addFunctionRun
    {u with updatedAllocations := u.updatedAllocations++[allocation]} run1 c).1 with hu1
  set v := (propagateOutputToConsumers
    {c with functionRuns := c.functionRuns.insert run1.id run1} run1).1 with hv1
  refine ⟨((u1.extend v).addFunctionRun (decidedRun run1 allocation av) (propagated c run1)).1,?_,?_⟩
  · have hvs : v.updatedRequestStates = ∅ := (propagateOutputToConsumers_frame _ _).1
    have hus : u1.updatedRequestStates = ∅ := hu
    simp [SchedulerUpdateRequest.addFunctionRun,SchedulerUpdateRequest.extend,hvs,hus,absorb]
  unfold ingestRunning
  simp only [← hrun1,hv]
  rfl

lemma decidedCtx_of_no_output {run' : FunctionRun} (hout : run.output=none) (hid : run'.id=run.id) :
    decidedCtx c run run' = {c with functionRuns := c.functionRuns.insert run.id run'} := by
  have hprop : propagated c run = {c with functionRuns := c.functionRuns.insert run.id run} := by
    simp [propagated,propagateOutputToConsumers,hout]
  rw [decidedCtx,hprop]
  simp only [hid,AList.insert_insert]

lemma decidedRun_of_retry {reason : FunctionRunFailureReason} (hchild : run.childFunctionCall=none)
    (halloc : allocation.outcome = .failure reason) (hretry : retries run reason av) :
    decidedRun run allocation av = {run with
      status := .pending
      attemptNumber := if reason.shouldCountAgainstFunctionRunRetryAttempts then
        run.attemptNumber+1 else run.attemptNumber} := by
  simp only [decidedRun,handleAllocationOutcome,halloc,handleAllocationFailure,if_pos hretry]
  simp [hchild]

lemma decidedRun_of_value (hchild : run.childFunctionCall=none) (halloc : allocation.outcome=.success) :
    decidedRun run allocation av = {run with status := .completed, outcome := some .success} := by
  simp [decidedRun,handleAllocationOutcome,halloc,hchild]

lemma decidedRun_of_tail_call {t : FunctionCallId} (hchild : run.childFunctionCall = some t)
    (hout : run.output=none) (halloc : allocation.outcome=.success) :
    decidedRun run allocation av = {run with status := .completed, outcome := none} := by
  simp [decidedRun,handleAllocationOutcome,halloc,hchild,hout]

lemma getExistingApplicationVersion_reportedRun :
    s.getExistingApplicationVersion (reportedRun run event) = s.getExistingApplicationVersion run := by
  unfold reportedRun
  cases event.graphUpdates with
  | none
  | some g => rfl

variable (hc : c.Consistent) (ho : c.outcome=none)
    (hr : c.functionRuns.lookup id = some run) (hopen : run.status≠.completed)
    (hu : u.updatedRequestStates = ∅) (hv : s.getExistingApplicationVersion run = some av)
    (h : (ingestRunning hash s u c run allocation event).updatedRequestStates.lookup k = some c')
include hc ho hr hopen hu hv h

lemma retry_sound (hrep : Reported event) (halloc : allocation.outcome=event.allocationOutcome)
    {reason : FunctionRunFailureReason} (hfail : event.allocationOutcome = .failure reason)
    (hretry : retries run reason av) : c'.key=k ∧ Sound c' := by
  obtain ⟨hpay,hgr⟩ := hrep.failed hfail
  obtain rfl : run.id=id := hc.runs_keyed hr
  obtain ⟨hchild,hnoout,hno⟩ := hc.blank hr hopen
  have hrun1 : reportedRun run event = {run with output := none} := by
    simp only [reportedRun,hpay,hgr]
  obtain ⟨u',hu',he⟩ := ingestRunning_eq hash c allocation hu
    (getExistingApplicationVersion_reportedRun.trans hv)
  rw [he] at h
  set run2 := decidedRun (reportedRun run event) allocation av with hrun2
  have hdecided : run2 = {run with
      output := none
      status := .pending
      attemptNumber := if reason.shouldCountAgainstFunctionRunRetryAttempts then
        run.attemptNumber+1 else run.attemptNumber} := by
    have hretry' : retries {run with output := none} reason av := hretry
    have hchild' : ({run with output := none} : FunctionRun).childFunctionCall = none := hchild
    rw [hrun2,hrun1,decidedRun_of_retry hchild' (halloc.trans hfail) hretry']
  have hpending : run2.status=.pending := by rw [hdecided]
  have hid : run2.id=run.id := by rw [hdecided]
  have hctx : decidedCtx c (reportedRun run event) run2 =
      {c with functionRuns := c.functionRuns.insert run.id run2} := by
    rw [hrun1]
    exact decidedCtx_of_no_output rfl hid
  simp only [hctx,if_pos hpending] at h
  have honly : u'.OnlyOpen
      ({c with functionRuns := c.functionRuns.insert run.id run2} : RequestCtx).key :=
    of_no_states hu'
  obtain ⟨rfl,rfl⟩ := honly.addRequestState_iff.mp h
  refine ⟨rfl,?_,?_⟩
  · refine hc.blank_run hid rfl (by rw [hdecided]; exact hno) (by rw [hdecided]) ?_
      (by rw [hpending]; simp) (by rw [hdecided]; exact hchild) rfl (hc.called (mem_of_lookup hr))
    intro r hr'
    cases hr.symm.trans hr'
    exact hopen
  · exact fun hs => absurd (ho.symm.trans hs) (by simp)

lemma value_sound (halloc : allocation.outcome=.success) (hgr : event.graphUpdates=none)
    (hval : event.dataPayload.isSome ∨ ∀ q, ¬ c.Waits q id) : c'.key=k ∧ Sound c' := by
  obtain ⟨hchild,-,-⟩ := hc.blank hr hopen
  have hrun1 : reportedRun run event = {run with output := event.dataPayload} := by
    simp only [reportedRun,hgr]
  obtain ⟨u',hu',he⟩ := ingestRunning_eq hash c allocation hu
    (getExistingApplicationVersion_reportedRun.trans hv)
  have hchild' : ({run with output := event.dataPayload} : FunctionRun).childFunctionCall = none :=
    hchild
  rw [he,hrun1,decidedRun_of_value hchild' halloc] at h
  obtain ⟨m,hm,hcons⟩ := finish_value hc hr hopen event.dataPayload hval
  have hctx : decidedCtx c {run with output := event.dataPayload} {run with
      output := event.dataPayload, status := .completed, outcome := some .success} =
      {c with functionRuns := m.insert run.id {run with
        output := event.dataPayload, status := .completed, outcome := some .success}} := by
    rw [decidedCtx,propagated,hm]
  simp only [hctx,halloc,hgr] at h
  have honly : u'.OnlyOpen c.key := of_no_states hu'
  refine continue_sound hcons ho ?_ h
  refine honly.addRequestState ?_ ?_
  · rfl
  · exact ho

lemma tail_sound (halloc : allocation.outcome=.success) {g : GraphUpdates}
    (hgr : event.graphUpdates = some g) (hpay : event.dataPayload=none)
    (hg : SafeTailCall hash c id g) : c'.key=k ∧ Sound c' := by
  obtain rfl : run.id=id := hc.runs_keyed hr
  have hrun1 : reportedRun run event =
      {run with output := none, childFunctionCall := some g.outputFunctionCallId} := by
    simp only [reportedRun,hgr,hpay]
  obtain ⟨u',hu',he⟩ := ingestRunning_eq hash c allocation hu
    (getExistingApplicationVersion_reportedRun.trans hv)
  rw [he,hrun1,decidedRun_of_tail_call rfl rfl halloc] at h
  set run2 : FunctionRun := {run with
    output := none
    childFunctionCall := some g.outputFunctionCallId
    status := .completed
    outcome := none} with hrun2
  have hctx : decidedCtx c
      {run with output := none, childFunctionCall := some g.outputFunctionCallId} run2 =
      {c with functionRuns := c.functionRuns.insert run.id run2} :=
    decidedCtx_of_no_output rfl rfl
  have hid : run2.id=run.id := rfl
  obtain ⟨hcons,m,hm⟩ := tail_call_consistent hc hr hopen hg hid rfl rfl rfl rfl
  simp only [hctx,halloc,hgr] at h
  have hkey : (createFunctionCalls hash
      {c with functionRuns := c.functionRuns.insert run.id run2} g).2.key = c.key := by
    rw [hm]; rfl
  have honly : u'.OnlyOpen c.key := of_no_states hu'
  refine continue_sound hcons (by rw [hm]; exact ho) ?_ h
  rw [hkey]
  refine extend ?_ (createFunctionCalls_states hash _ g)
  refine honly.addRequestState ?_ ?_
  · rfl
  · exact ho

theorem ingestRunning_sound (hrep : Reported event)
    (halloc : allocation.outcome=event.allocationOutcome) (hsucc : Succeeds av run event)
    (hsafe : SafeFinish hash c id event) : c'.key=k ∧ Sound c' := by
  rcases hsucc with hs | ⟨reason,hfail,hretry⟩
  · cases hg : event.graphUpdates with
    | none => exact value_sound hc ho hr hopen hu hv h (halloc.trans hs) hg (hsafe.value hs hg)
    | some g =>
      have hpay : event.dataPayload=none := by
        rcases hrep.one with hp | hn
        · exact hp
        · rw [hg] at hn; cases hn
      exact tail_sound hc ho hr hopen hu hv h (halloc.trans hs) hg hpay (hsafe.tail hg)
  · exact retry_sound hc ho hr hopen hu hv h hrep halloc hfail hretry

end

/-- The event is about a run of an open request that is running the reported allocation. -/
structure Ingests (s : InMemoryState) (allocations : Dict String Allocation)
    (event : AllocationOutputIngestedEvent) (c : RequestCtx) (run : FunctionRun)
    (allocation : Allocation) : Prop where
  ctx : s.requestCtx.lookup
    (RequestCtx.keyFrom event.namespace event.application event.requestId) = some c
  opened : c.outcome=none
  listed : c.functionRuns.lookup event.functionCallId = some run
  stored : allocations.lookup (Allocation.keyFrom event.namespace event.application
    event.requestId event.allocationId.get) = some allocation
  live : allocation.isTerminal=false
  running : run.status = .running allocation.id

lemma handleAllocationIngestion_cases (s : InMemoryState) (allocations : Dict String Allocation)
    (u : SchedulerUpdateRequest) (event : AllocationOutputIngestedEvent) :
    handleAllocationIngestion hash s allocations u event = u ∨
      ∃ c run allocation, Ingests s allocations event c run allocation ∧
        handleAllocationIngestion hash s allocations u event =
          ingestRunning hash s u c run {allocation with
            outcome := event.allocationOutcome
            executionDurationMs := event.executionDurationMs} event := by
  unfold handleAllocationIngestion
  split
  · exact .inl rfl
  rename_i c hc
  split_ifs with ho
  · exact .inl rfl
  split
  · exact .inl rfl
  rename_i run hr
  split
  · exact .inl rfl
  rename_i allocation ha
  dsimp only
  split_ifs with hterm hrun
  · exact .inl rfl
  · exact .inl rfl
  · refine .inr ⟨c,run,allocation,⟨hc,?_,hr,ha,?_,?_⟩,rfl⟩
    · simpa using ho
    · simpa using hterm
    · simpa using hrun

theorem handleAllocationIngestion_sound {hash : String → String} {s : InMemoryState}
    {allocations : Dict String Allocation} {u : SchedulerUpdateRequest}
    {event : AllocationOutputIngestedEvent} (hu : u.updatedRequestStates = ∅) (hrep : Reported event)
    (hctx : ∀ {c run allocation}, Ingests s allocations event c run allocation →
      c.Consistent ∧ (∃ av, s.getExistingApplicationVersion run = some av ∧
        Succeeds av run event) ∧ SafeFinish hash c event.functionCallId event)
    {k : RequestCtxKey} {c' : RequestCtx}
    (h : (handleAllocationIngestion hash s allocations u event).updatedRequestStates.lookup k =
      some c') : c'.key=k ∧ Sound c' := by
  rcases handleAllocationIngestion_cases hash s allocations u event with
    he | ⟨c,run,allocation,hi,he⟩
  · rw [he,hu] at h
    cases h
  obtain ⟨hc,⟨av,hv,hsucc⟩,hsafe⟩ := hctx hi
  rw [he] at h
  refine ingestRunning_sound hc hi.opened hi.listed ?_ hu hv h hrep rfl hsucc hsafe
  rw [hi.running]
  simp

/-- What a blocking call, or a finished run that returns operations, does to a request that goes
on. -/
def createCallsAndRuns (hash : String → String) (av : ApplicationVersion) (c : RequestCtx)
    (g : GraphUpdates) : RequestCtx :=
  let ctx := (createFunctionCalls hash c g).2
  (createFunctionRuns ctx ctx.pendingFunctionCalls av).2

/-- The source of the call is known to the open request, and so is the version. -/
structure Accepts (s : InMemoryState) (event : FunctionCallEvent) (c : RequestCtx)
    (av : ApplicationVersion) : Prop where
  ctx : s.requestCtx.lookup
    (RequestCtx.keyFrom event.namespace event.application event.requestId) = some c
  opened : c.outcome=none
  source : event.sourceFunctionCallId∈c.functionCalls
  version : s.applicationVersions.lookup (ApplicationVersion.keyFrom c.namespace
    c.applicationName c.applicationVersion) = some av

lemma createCallsAndRuns_key (av : ApplicationVersion) (g : GraphUpdates) :
    (createCallsAndRuns hash av c g).key = c.key := by
  rw [createCallsAndRuns,(createFunctionRuns_frame _ _ _).2.1,createFunctionCalls_eq]
  rfl

lemma handleBlockingFunctionCall_iff {s : InMemoryState} {event : FunctionCallEvent}
    {k : RequestCtxKey} {c' : RequestCtx} :
    (handleBlockingFunctionCall hash s event).updatedRequestStates.lookup k = some c' ↔
      ∃ c av, Accepts s event c av ∧ k=c.key ∧ c' = createCallsAndRuns hash av c event.graphUpdates := by
  by_cases h : ∃ c av, Accepts s event c av
  · obtain ⟨c,av,ha⟩ := h
    have hstates : ((({} : SchedulerUpdateRequest).extend
        (createFunctionCalls hash c event.graphUpdates).1).extend
        (createFunctionRuns (createFunctionCalls hash c event.graphUpdates).2
          (createFunctionCalls hash c event.graphUpdates).2.pendingFunctionCalls
          av).1).OnlyOpen (createCallsAndRuns hash av c event.graphUpdates).key :=
      ((of_no_states rfl).extend
        (createFunctionCalls_states hash _ _)).extend (createFunctionRuns_frame _ _ _).1
    have heq := hstates.addRequestState_iff (k := k) (c := c')
    rw [createCallsAndRuns_key] at heq
    simp only [handleBlockingFunctionCall,ha.ctx,ha.opened,ha.source,ha.version]
    refine heq.trans ⟨fun he => ⟨c,av,ha,he⟩,?_⟩
    rintro ⟨c2,av2,ha2,he⟩
    obtain rfl : c2=c := Option.some.inj (ha2.ctx.symm.trans ha.ctx)
    obtain rfl : av2=av := Option.some.inj (ha2.version.symm.trans ha.version)
    exact he
  · have hnone : (handleBlockingFunctionCall hash s event).updatedRequestStates = ∅ := by
      unfold handleBlockingFunctionCall
      split
      · rfl
      rename_i c hc
      split_ifs with ho hsource
      · rfl
      · split
        · rfl
        · rename_i av hv
          exact absurd ⟨c,av,hc,by simpa using ho,hsource,hv⟩ h
      · rfl
    rw [hnone]
    exact ⟨nofun,fun ⟨c,av,ha,_⟩ => absurd ⟨c,av,ha⟩ h⟩

theorem handleBlockingFunctionCall_sound {hash : String → String} {s : InMemoryState}
    {event : FunctionCallEvent} (hctx : ∀ {c}, s.requestCtx.lookup
      (RequestCtx.keyFrom event.namespace event.application event.requestId) = some c →
      c.Consistent ∧ SafeUpdates hash c event.graphUpdates) {k : RequestCtxKey} {c' : RequestCtx}
    (h : (handleBlockingFunctionCall hash s event).updatedRequestStates.lookup k = some c') :
    c'.key = k ∧ Sound c' := by
  obtain ⟨c,av,ha,rfl,rfl⟩ := (handleBlockingFunctionCall_iff hash).mp h
  obtain ⟨hc,hsafe⟩ := hctx ha.ctx
  obtain ⟨hadd,-⟩ := createFunctionCalls_spec hash c event.graphUpdates hsafe.pairs
  obtain ⟨m,hm⟩ := hadd.frame
  have hcons : (createFunctionCalls hash c event.graphUpdates).2.Consistent := by
    refine hc.of_calls (hadd.keyed hc.calls_keyed) (by rw [hm]) ?_ ?_
    · intro i hi
      exact hadd.kept (fun hx => (hsafe.fresh hx).1 hi) (hc.called hi)
    · intro i t hw
      exact hadd.kept (fun hx => (hsafe.fresh hx).2 i hw) (hc.target hw)
  obtain ⟨hruns,hout⟩ := createFunctionRuns_consistent av hcons
  refine ⟨createCallsAndRuns_key hash av _,hruns,fun hs => ?_⟩
  rw [createCallsAndRuns,hout,hm,ha.opened] at hs
  cases hs

end Indexify.FunctionRunCreator
