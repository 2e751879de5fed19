import Indexify.Processor.ContainerReconciler
import Indexify.Processor.Ingestion

/-! What the handlers do to a run, whatever was reported: it stays on its attempt or it fails,
unless the report lets it succeed or the retry policy puts it back. -/
namespace Indexify
open Dict FunctionRunRetryPolicy SchedulerUpdateRequest.Snapshots

structure FunctionRun.SameAttempt (r r' : FunctionRun) : Prop where
  status : r'.status=r.status
  outcome : r'.outcome=r.outcome
  name : r'.name=r.name
  attemptNumber : r'.attemptNumber=r.attemptNumber
  «namespace» : r'.namespace=r.namespace
  application : r'.application=r.application
  version : r'.version=r.version

namespace FunctionRun.SameAttempt
variable {r r' r'' : FunctionRun}

lemma refl (r : FunctionRun) : r.SameAttempt r := ⟨rfl,rfl,rfl,rfl,rfl,rfl,rfl⟩

lemma trans (h : r.SameAttempt r') (h' : r'.SameAttempt r'') : r.SameAttempt r'' :=
  ⟨h'.status.trans h.status,h'.outcome.trans h.outcome,h'.name.trans h.name,
    h'.attemptNumber.trans h.attemptNumber,h'.namespace.trans h.namespace,
    h'.application.trans h.application,h'.version.trans h.version⟩

lemma retries_eq (h : r.SameAttempt r') (reason : FunctionRunFailureReason)
    (av : ApplicationVersion) : retries r' reason av = retries r reason av := by
  unfold retries ApplicationVersion.functionRunMaxRetries
  rw [h.name,h.attemptNumber]

lemma getExistingApplicationVersion_eq (h : r.SameAttempt r') (s : InMemoryState) :
    s.getExistingApplicationVersion r' = s.getExistingApplicationVersion r := by
  unfold InMemoryState.getExistingApplicationVersion FunctionRun.keyApplicationVersion
  rw [h.namespace,h.application,h.version]

end FunctionRun.SameAttempt

def FunctionRun.Failed (r : FunctionRun) : Prop :=
  r.status = .completed ∧ ∃ reason, r.outcome = some (.failure reason)

instance (r : FunctionRun) : Decidable r.Failed :=
  match h : r.outcome with
  | some (.failure _) => decidable_of_iff (r.status=.completed) (by simp [FunctionRun.Failed,h])
  | none | some .success | some .unknown => isFalse (by simp [FunctionRun.Failed,h])

lemma FunctionRun.Failed.of_sameAttempt {r r' : FunctionRun} (hr : r.Failed)
    (h : r.SameAttempt r') : r'.Failed := by
  obtain ⟨hs,reason,ho⟩ := hr
  exact ⟨h.status.trans hs,reason,h.outcome.trans ho⟩

/-- An allocation that ends with `outcome` fails the run for good: the run has no tail call and
the retry policy does not put it back. -/
def FailsForGood (s : InMemoryState) (outcome : FunctionRunOutcome) (r : FunctionRun) : Prop :=
  r.childFunctionCall = none ∧ ∃ reason, outcome = .failure reason ∧
    ∀ av ∈ s.getExistingApplicationVersion r, ¬ retries r reason av

instance (s : InMemoryState) (outcome : FunctionRunOutcome) (r : FunctionRun) :
    Decidable (FailsForGood s outcome r) :=
  match outcome with
  | .failure reason => decidable_of_iff (r.childFunctionCall=none ∧
      ∀ av ∈ s.getExistingApplicationVersion r, ¬ retries r reason av)
      (by simp [FailsForGood])
  | .success | .unknown => isFalse (by simp [FailsForGood])

lemma FailsForGood.of_sameAttempt {s s' : InMemoryState} {outcome : FunctionRunOutcome}
    {r r' : FunctionRun} (hf : FailsForGood s outcome r)
    (hs : s'.applicationVersions=s.applicationVersions) (h : r.SameAttempt r')
    (hchild : r'.childFunctionCall=none) : FailsForGood s' outcome r' := by
  obtain ⟨-,reason,ho,hno⟩ := hf
  refine ⟨hchild,reason,ho,?_⟩
  intro av hv
  rw [h.retries_eq]
  apply hno av
  rw [h.getExistingApplicationVersion_eq] at hv
  unfold InMemoryState.getExistingApplicationVersion at hv ⊢
  rwa [hs] at hv

/-- How one step may change a run without a tail call; `free` lifts every restriction. -/
def FunctionRun.Moves (free : Prop) (r r' : FunctionRun) : Prop :=
  r.childFunctionCall = none → ¬ free → r'.childFunctionCall=none ∧ (r.SameAttempt r' ∨ r'.Failed)

namespace FunctionRun.Moves
variable {free : Prop} {r r' r'' : FunctionRun}

lemma refl (r : FunctionRun) : r.Moves free r :=
  fun hchild _ => ⟨hchild,.inl (SameAttempt.refl r)⟩

lemma trans_quiet (h : r.Moves free r') (h' : r'.Moves False r'') : r.Moves free r'' := by
  intro hchild hfree
  obtain ⟨hchild',hr'⟩ := h hchild hfree
  obtain ⟨hchild'',hr''⟩ := h' hchild' not_false
  refine ⟨hchild'',?_⟩
  rcases hr'' with hr'' | hr''
  · exact hr'.imp (fun hs => hs.trans hr'') (fun hs => hs.of_sameAttempt hr'')
  · exact .inr hr''

end FunctionRun.Moves

namespace RequestCtx

/-- Runs and calls sit under their own ids. -/
structure Keyed (c : RequestCtx) : Prop where
  runs : ∀ {id r}, c.functionRuns.lookup id = some r → r.id=id
  calls : ∀ {id f}, c.functionCalls.lookup id = some f → f.functionCallId=id

/-- The runs of `c` have moved to those of `c'`, freely where `free` says so. -/
structure Advances (free : FunctionCallId → FunctionRun → Prop) (c c' : RequestCtx) : Prop where
  key : c'.key=c.key
  keyed : c'.Keyed
  runs : ∀ {id r}, c.functionRuns.lookup id = some r →
    ∃ r', c'.functionRuns.lookup id = some r' ∧ r.Moves (free id r) r'

/-- No run moves freely. -/
abbrev Quiet : RequestCtx → RequestCtx → Prop := Advances fun _ _ => False

namespace Advances
variable {free : FunctionCallId → FunctionRun → Prop} {c c' c'' : RequestCtx}
  {id : FunctionCallId} {r' : FunctionRun}

lemma of_runs_eq (hc : c.Keyed) (hkey : c'.key=c.key) (hruns : c'.functionRuns=c.functionRuns)
    (hcalls : ∀ {id f}, c'.functionCalls.lookup id = some f → f.functionCallId=id) :
    Advances free c c' where
  key := hkey
  keyed := ⟨fun h => hc.runs (hruns ▸ h),hcalls⟩
  runs h := ⟨_,hruns ▸ h,FunctionRun.Moves.refl _⟩

lemma refl (hc : c.Keyed) : Advances free c c := of_runs_eq hc rfl rfl hc.calls

lemma trans_quiet (h : Advances free c c') (h' : Quiet c' c'') : Advances free c c'' where
  key := h'.key.trans h.key
  keyed := h'.keyed
  runs hr := by
    obtain ⟨r',hr',hm⟩ := h.runs hr
    obtain ⟨r'',hr'',hm'⟩ := h'.runs hr'
    exact ⟨r'',hr'',hm.trans_quiet hm'⟩

lemma keyed_insert (hc : c.Keyed) (hid : r'.id=id)
    (hruns : c'.functionRuns = c.functionRuns.insert id r')
    (hcalls : c'.functionCalls=c.functionCalls) : c'.Keyed := by
  constructor
  · exact fun hq => of_lookup_insert hc.runs hid (hruns ▸ hq)
  intro i f hf
  rw [hcalls] at hf
  exact hc.calls hf

lemma overwrite (h : Quiet c c') {r : FunctionRun}
    (hr : c.functionRuns.lookup id = some r) (hid : r'.id=id) (hm : r.Moves (free id r) r')
    (hkey : c''.key=c'.key) (hruns : c''.functionRuns = c'.functionRuns.insert id r')
    (hcalls : c''.functionCalls=c'.functionCalls) : Advances free c c'' where
  key := hkey.trans h.key
  keyed := keyed_insert h.keyed hid hruns hcalls
  runs {i q} hq := by
    rw [hruns,lookup_insert_if]
    by_cases hi : i=id
    · subst hi
      cases hr.symm.trans hq
      exact ⟨r',by rw [if_pos rfl],hm⟩
    rw [if_neg hi]
    obtain ⟨q',hq',hm'⟩ := h.runs hq
    exact ⟨q',hq',fun hchild _ => hm' hchild not_false⟩

lemma new_run (hc : c.Keyed) (hnew : id∉c.functionRuns) (hid : r'.id=id) (hkey : c'.key=c.key)
    (hruns : c'.functionRuns = c.functionRuns.insert id r')
    (hcalls : c'.functionCalls=c.functionCalls) : Advances free c c' where
  key := hkey
  keyed := keyed_insert hc hid hruns hcalls
  runs {i q} hq := by
    have hi : i≠id := by
      rintro rfl
      exact hnew (mem_of_lookup hq)
    exact ⟨q,by rw [hruns,lookup_insert_if,if_neg hi,hq],FunctionRun.Moves.refl q⟩

end Advances
end RequestCtx

namespace FunctionRunCreator
open RequestCtx
variable {c : RequestCtx} (hash : String → String)

lemma propagateLoop_quiet (parents : Dict FunctionCallId FunctionCallId) (key : RequestCtxKey)
    (fuel : ℕ) (id : FunctionCallId) (output : Option DataPayload)
    (uc : SchedulerUpdateRequest × RequestCtx) (hc : uc.2.Keyed)
    (hparents : ∀ {a p r}, parents.lookup a = some p → uc.2.functionRuns.lookup p = some r →
      r.childFunctionCall ≠ none) :
    Quiet uc.2 (propagateLoop parents key fuel id output uc).2 := by
  induction fuel generalizing id output uc with
  | zero => exact Advances.refl hc
  | succ fuel ih =>
    unfold propagateLoop
    cases hp : parents.lookup id with
    | none => exact Advances.refl hc
    | some p =>
      dsimp only
      cases hr : uc.2.functionRuns.lookup p with
      | none => exact Advances.refl hc
      | some r =>
        set c1 : RequestCtx :=
          {uc.2 with functionRuns := uc.2.functionRuns.insert p (resolveWith output r)}
        have hrp : r.id=p := hc.runs hr
        have hid : (resolveWith output r).id = p := hrp
        have hchild := hparents hp hr
        have hstep : Quiet uc.2 c1 := Advances.overwrite (Advances.refl hc) hr hid
          (fun hnone _ => absurd hnone hchild) rfl rfl rfl
        refine hstep.trans_quiet (ih _ _ (_,c1) hstep.keyed ?_)
        intro a q r' hq hr'
        rcases lookup_insert_cases hr' with ⟨-,rfl⟩ | ⟨-,hr'⟩
        · exact hchild
        · exact hparents hq hr'

lemma propagateOutputToConsumers_quiet (hc : c.Keyed) (run : FunctionRun) :
    Quiet c (propagateOutputToConsumers c run).2 := by
  unfold propagateOutputToConsumers
  split_ifs
  · exact Advances.refl hc
  refine propagateLoop_quiet _ _ _ _ _ ({},c) hc ?_
  intro a p r hp hr
  obtain ⟨q,hq,hchild⟩ := waits_of_lookup_childToParent hc.runs hp
  cases hq.symm.trans hr
  rw [hchild]
  exact Option.some_ne_none a

lemma createFunctionCalls_quiet (hc : c.Keyed) (g : GraphUpdates) :
    Quiet c (createFunctionCalls hash c g).2 := by
  refine Advances.of_runs_eq hc ?_ ?_ (createFunctionCalls_keyed hash g hc.calls)
  · rw [createFunctionCalls_eq]
    rfl
  · rw [createFunctionCalls_eq]

lemma createFunctionRuns_quiet (hc : c.Keyed) (av : ApplicationVersion) :
    Quiet c (createFunctionRuns c c.pendingFunctionCalls av).2 := by
  refine createFunctionRuns_induction av (fun h => h.keyed.calls) (fun h hcall hnot => ?_)
    (Advances.refl hc)
  exact h.trans_quiet (Advances.new_run h.keyed hnot (h.keyed.calls hcall) rfl rfl rfl)

lemma foldl_cancelRun_quiet (runs : List FunctionRun) (uc : SchedulerUpdateRequest × RequestCtx)
    (hc : uc.2.Keyed) (hruns : ∀ r∈runs, ∃ q, uc.2.functionRuns.lookup r.id = some q ∧
      q.childFunctionCall = r.childFunctionCall) :
    Quiet uc.2 (runs.foldl cancelRun uc).2 := by
  induction runs generalizing uc with
  | nil => exact Advances.refl hc
  | cons r runs ih =>
    rw [List.foldl_cons]
    obtain ⟨q,hq,hchild⟩ := hruns r List.mem_cons_self
    have hrest : ∀ r2∈runs, ∃ q, uc.2.functionRuns.lookup r2.id = some q ∧
        q.childFunctionCall = r2.childFunctionCall :=
      fun r2 hr2 => hruns r2 (List.mem_cons_of_mem _ hr2)
    unfold cancelRun
    split_ifs
    · exact ih uc hc hrest
    set r' : FunctionRun :=
      {r with status := .completed, outcome := some (.failure .functionRunCancelled)}
    have hid : r'.id=r.id := rfl
    have hfailed : r'.Failed := ⟨rfl,_,rfl⟩
    have hstep : Quiet uc.2 (uc.1.addFunctionRun r' uc.2).2 := by
      refine Advances.overwrite (Advances.refl hc) hq hid ?_ rfl rfl rfl
      exact fun hnone _ => ⟨hchild.symm.trans hnone,.inr hfailed⟩
    refine hstep.trans_quiet (ih _ hstep.keyed ?_)
    intro r2 hr2
    obtain ⟨q2,hq2,hchild2⟩ := hrest r2 hr2
    by_cases he : r2.id=r.id
    · rw [he] at hq2
      cases hq.symm.trans hq2
      refine ⟨r',?_,hchild.symm.trans hchild2⟩
      rw [he]
      exact AList.lookup_insert _
    · refine ⟨q2,?_,hchild2⟩
      rw [← hq2]
      exact AList.lookup_insert_ne he

lemma failRequest_snapshots {u : SchedulerUpdateRequest} {c0 : RequestCtx}
    {free : FunctionCallId → FunctionRun → Prop} (h : Advances free c0 c) {run : FunctionRun}
    (hr : c.functionRuns.lookup run.id = some run) (hu : u.Snapshots c0.key (Advances free c0))
    {allocation : Allocation} {reason : FunctionRunFailureReason}
    (ho : allocation.outcome = .failure reason) (requestException : Option DataPayload) :
    (failRequest u c run allocation reason requestException).Snapshots c0.key
      (Advances free c0) := by
  have hall : ∀ (run' : FunctionRun) (c1 : RequestCtx), run'.id=run.id → run'.Failed →
      run'.childFunctionCall = run.childFunctionCall → c1.key=c.key →
      c1.functionRuns = c.functionRuns → c1.functionCalls=c.functionCalls →
      Advances free c0 (((u.addFunctionRun run' c1).2.functionRuns.values.foldl cancelRun
        (u.addFunctionRun run' c1)).2) := by
    intro run' c1 hid hfailed hchild hkey hruns hcalls
    have hwrite : Quiet c (u.addFunctionRun run' c1).2 := by
      refine Advances.overwrite (Advances.refl h.keyed) hr hid ?_ hkey ?_ hcalls
      · exact fun hnone _ => ⟨hchild.trans hnone,.inr hfailed⟩
      · rw [← hruns,← hid]
        rfl
    refine (h.trans_quiet hwrite).trans_quiet (foldl_cancelRun_quiet _ _ hwrite.keyed ?_)
    intro r hmem
    obtain ⟨i,hi⟩ := (mem_values_iff _ _).mp hmem
    rw [hwrite.keyed.runs hi]
    exact ⟨r,hi,rfl⟩
  have hstates := Trace.frame cancelRun (fun uc => uc.1.updatedRequestStates) fun uc r => by
    unfold cancelRun
    split_ifs <;> rfl
  cases requestException with
  | none =>
    have hadv := hall {run with status := .completed, outcome := some allocation.outcome}
      {c with outcome := some (.failure (.ofFunctionRun reason))} rfl ⟨rfl,reason,congrArg some ho⟩
      rfl rfl rfl rfl
    exact (hu.of_states_eq (hstates _ _)).addRequestState hadv.key hadv
  | some payload =>
    have hadv := hall {run with
        status := .completed
        outcome := some allocation.outcome
        requestError := some payload}
      {c with
        requestError := some ⟨run.name,payload⟩
        outcome := some (.failure (.ofFunctionRun reason))} rfl ⟨rfl,reason,congrArg some ho⟩
      rfl rfl rfl rfl
    exact (hu.of_states_eq (hstates _ _)).addRequestState hadv.key hadv

lemma continueRequest_snapshots {u : SchedulerUpdateRequest}
    {c0 : RequestCtx} {free : FunctionCallId → FunctionRun → Prop} (h : Advances free c0 c)
    (hu : u.Snapshots c0.key (Advances free c0)) (updates : Option GraphUpdates)
    (av : ApplicationVersion) :
    (continueRequest hash u c updates av).Snapshots c0.key (Advances free c0) := by
  have hrest : ∀ (v : SchedulerUpdateRequest) (c1 : RequestCtx), Advances free c0 c1 →
      v.Snapshots c0.key (Advances free c0) →
      (if c1.isRequestCompleted then v.addRequestState {c1 with outcome := some .success}
        else (v.extend (createFunctionRuns c1 c1.pendingFunctionCalls av).1).addRequestState
          (createFunctionRuns c1 c1.pendingFunctionCalls av).2).Snapshots c0.key
            (Advances free c0) := by
    intro v c1 h1 hv
    split_ifs
    · have hadv : Advances free c0 {c1 with outcome := some .success} :=
        h1.trans_quiet (Advances.of_runs_eq h1.keyed rfl rfl h1.keyed.calls)
      exact hv.addRequestState hadv.key hadv
    have hadv := h1.trans_quiet (createFunctionRuns_quiet h1.keyed av)
    exact (hv.extend (createFunctionRuns_frame c1 c1.pendingFunctionCalls av).1).addRequestState
      hadv.key hadv
  cases updates with
  | none => exact hrest u c h hu
  | some g =>
    exact hrest _ _ (h.trans_quiet (createFunctionCalls_quiet hash h.keyed g))
      (hu.extend (createFunctionCalls_states hash c g))

/-- The runs that an event may move freely: its own, unless it fails that run for good. -/
def freedBy (s : InMemoryState) (event : AllocationOutputIngestedEvent) (id : FunctionCallId)
    (r : FunctionRun) : Prop :=
  id = event.functionCallId ∧ r.status≠.completed ∧
    ¬ (event.graphUpdates=none ∧ FailsForGood s event.allocationOutcome r)

variable (run)

lemma reportedRun_id (event : AllocationOutputIngestedEvent) : (reportedRun run event).id = run.id := by
  unfold reportedRun
  cases event.graphUpdates <;> rfl

lemma reportedRun_same {event : AllocationOutputIngestedEvent}
    (h : event.graphUpdates=none) : run.SameAttempt (reportedRun run event) ∧
      (reportedRun run event).childFunctionCall = run.childFunctionCall := by
  unfold reportedRun
  rw [h]
  exact ⟨⟨rfl,rfl,rfl,rfl,rfl,rfl,rfl⟩,rfl⟩

lemma decidedRun_id (allocation : Allocation) (av : ApplicationVersion) :
    (decidedRun run allocation av).id = run.id := by
  have hid := (handleAllocationOutcome_sameIdentity run allocation av).1
  unfold decidedRun
  dsimp only
  split_ifs <;> exact hid

variable {run}

lemma decidedRun_of_failure {run : FunctionRun} {allocation : Allocation}
    {av : ApplicationVersion} {reason : FunctionRunFailureReason}
    (hchild : run.childFunctionCall=none) (ho : allocation.outcome = .failure reason)
    (hno : ¬ retries run reason av) : decidedRun run allocation av =
      {run with status := .completed, outcome := some (.failure reason)} := by
  simp only [decidedRun,handleAllocationOutcome,ho,handleAllocationFailure]
  rw [if_neg hno]
  simp [hchild]

section
variable {hash : String → String} {s : InMemoryState} {u : SchedulerUpdateRequest}
  {c : RequestCtx} {run : FunctionRun} {id : FunctionCallId} {allocation : Allocation}
  {event : AllocationOutputIngestedEvent}

lemma decidedRun_moves (hopen : run.status≠.completed)
    (halloc : allocation.outcome=event.allocationOutcome) {av : ApplicationVersion}
    (hv : s.getExistingApplicationVersion (reportedRun run event) = some av) :
    run.Moves (freedBy s event event.functionCallId run)
      (decidedRun (reportedRun run event) allocation av) := by
  intro hchild hfree
  have hgood : event.graphUpdates=none ∧ FailsForGood s event.allocationOutcome run := by
    by_contra hbad
    exact hfree ⟨rfl,hopen,hbad⟩
  obtain ⟨hg,-,reason,ho,hno⟩ := hgood
  obtain ⟨hsame,hchild'⟩ := reportedRun_same run hg
  rw [hsame.getExistingApplicationVersion_eq] at hv
  have hno' := hno av hv
  rw [← hsame.retries_eq] at hno'
  rw [decidedRun_of_failure (hchild'.trans hchild) (halloc.trans ho) hno']
  exact ⟨hchild'.trans hchild,.inr ⟨rfl,reason,rfl⟩⟩

variable (hc : c.Keyed) (hr : c.functionRuns.lookup event.functionCallId = some run)
  (hopen : run.status≠.completed)
include hc hr hopen

lemma propagated_advances : Advances (freedBy s event) c (propagated c (reportedRun run event)) := by
  have hid : (reportedRun run event).id = event.functionCallId :=
    (reportedRun_id run event).trans (hc.runs hr)
  have hmoves : run.Moves (freedBy s event event.functionCallId run) (reportedRun run event) := by
    intro hchild hfree
    have hg : event.graphUpdates=none := by
      by_contra hbad
      exact hfree ⟨rfl,hopen,fun h => hbad h.1⟩
    obtain ⟨hsame,hchild'⟩ := reportedRun_same run hg
    exact ⟨hchild'.trans hchild,.inl hsame⟩
  have hwrite : Advances (freedBy s event) c {c with
      functionRuns := c.functionRuns.insert event.functionCallId (reportedRun run event)} :=
    Advances.overwrite (Advances.refl hc) hr hid hmoves rfl rfl rfl
  rw [propagated,hid]
  exact hwrite.trans_quiet (propagateOutputToConsumers_quiet hwrite.keyed _)

lemma decidedCtx_advances
    {run2 : FunctionRun} (hid : run2.id=event.functionCallId)
    (hm : run.Moves (freedBy s event event.functionCallId run) run2) :
    Advances (freedBy s event) c (decidedCtx c (reportedRun run event) run2) := by
  have hprop := propagated_advances (s := s) hc hr hopen
  refine ⟨hprop.key,Advances.keyed_insert hprop.keyed rfl rfl rfl,?_⟩
  intro i q hq
  have hlook : ∀ i, (decidedCtx c (reportedRun run event) run2).functionRuns.lookup i =
      if i=run2.id then some run2 else (propagated c (reportedRun run event)).functionRuns.lookup i :=
    fun i => lookup_insert_if _ _ _ _
  rw [hlook,hid]
  split_ifs with hi
  · subst hi
    cases hr.symm.trans hq
    exact ⟨run2,rfl,hm⟩
  · exact hprop.runs hq

lemma ingestRunning_snapshots
    (halloc : allocation.outcome=event.allocationOutcome) (hu : u.updatedRequestStates = ∅) :
    (ingestRunning hash s u c run allocation event).Snapshots c.key
      (Advances (freedBy s event) c) := by
  cases hv : s.getExistingApplicationVersion (reportedRun run event) with
  | none =>
    have hprop := propagated_advances (s := s) hc hr hopen
    unfold ingestRunning
    simp only [hv]
    refine addRequestState ?_ hprop.key hprop
    refine extend ?_ (propagateOutputToConsumers_frame _ _).1
    exact of_no_states hu
  | some av =>
    obtain ⟨u',hu',he⟩ := ingestRunning_eq hash c allocation hu hv
    rw [he]
    have hmoves := decidedRun_moves hopen halloc hv
    have hid : (decidedRun (reportedRun run event) allocation av).id = event.functionCallId :=
      (decidedRun_id _ allocation av).trans ((reportedRun_id run event).trans (hc.runs hr))
    have hadv := decidedCtx_advances hc hr hopen hid hmoves
    set run2 := decidedRun (reportedRun run event) allocation av
    have hsnap : (u'.addRequestState (decidedCtx c (reportedRun run event) run2)).Snapshots c.key
        (Advances (freedBy s event) c) :=
      (of_no_states hu').addRequestState hadv.key hadv
    dsimp only
    split_ifs
    · exact hsnap
    split
    · rename_i reason ho
      refine failRequest_snapshots hadv ?_ hsnap ho _
      exact AList.lookup_insert _
    · exact continueRequest_snapshots hash hadv hsnap _ _

omit hc hr hopen

lemma handleAllocationIngestion_snapshots (hash : String → String)
    {allocations : Dict String Allocation} (hu : u.updatedRequestStates = ∅) {k : RequestCtxKey}
    {c' : RequestCtx} (hs : ∀ {k c}, s.requestCtx.lookup k = some c → c.key=k ∧ c.Keyed)
    (h : (handleAllocationIngestion hash s allocations u event).updatedRequestStates.lookup k =
      some c') : k = RequestCtx.keyFrom event.namespace event.application event.requestId ∧
      ∃ c, s.requestCtx.lookup k = some c ∧ Advances (freedBy s event) c c' := by
  rcases handleAllocationIngestion_cases hash s allocations u event with
    he | ⟨c,run,allocation,hi,he⟩
  · rw [he,hu] at h
    cases h
  obtain ⟨hkey,hc⟩ := hs hi.ctx
  rw [he] at h
  have hopen : run.status≠.completed := by
    rw [hi.running]
    simp
  obtain ⟨rfl,hadv⟩ := ingestRunning_snapshots hc hi.listed hopen rfl hu k c' h
  rw [hkey]
  exact ⟨rfl,c,hi.ctx,hadv⟩

lemma handleBlockingFunctionCall_snapshots (hash : String → String) {event : FunctionCallEvent}
    {k : RequestCtxKey} {c' : RequestCtx}
    (hs : ∀ {k c}, s.requestCtx.lookup k = some c → c.key=k ∧ c.Keyed)
    (h : (handleBlockingFunctionCall hash s event).updatedRequestStates.lookup k = some c') :
    ∃ c, s.requestCtx.lookup k = some c ∧ Quiet c c' := by
  obtain ⟨c,av,ha,rfl,rfl⟩ := (handleBlockingFunctionCall_iff hash).mp h
  obtain ⟨hkey,hc⟩ := hs ha.ctx
  have hcalls := createFunctionCalls_quiet hash hc event.graphUpdates
  rw [hkey]
  exact ⟨c,ha.ctx,hcalls.trans_quiet (createFunctionRuns_quiet hcalls.keyed av)⟩

end
end FunctionRunCreator

namespace ContainerReconciler
open RequestCtx

/-- The runs that the end of a container does not fail for good. -/
def freedBy (s : InMemoryState) (executorId : ExecutorId) (containerId : ContainerId)
    (reason : ContainerTerminationReason) (k : RequestCtxKey) (id : FunctionCallId) : Prop :=
  ∃ a ∈ allocationsOf s executorId containerId, ∃ r ∈ s.functionRuns.lookup a.functionRunKey,
    r.status = .running a.id ∧ r.requestCtxKey=k ∧ r.id=id ∧
      ¬ FailsForGood s (.failure (.ofTermination reason)) r
  deriving Decidable

lemma handleAllocations_snapshots {s : InMemoryState} {executorId : ExecutorId}
    {containerId : ContainerId} {reason : ContainerTerminationReason} {k : RequestCtxKey}
    {c' : RequestCtx} (hs : ∀ {k c}, s.requestCtx.lookup k = some c → c.key=k ∧ c.Keyed)
    (h : (handleAllocationsForContainerTermination s executorId containerId
      reason).updatedRequestStates.lookup k = some c') :
    ∃ c, s.requestCtx.lookup k = some c ∧
      Advances (fun id _ => freedBy s executorId containerId reason k id) c c' := by
  obtain ⟨a,ha,r,r',hacts,rfl⟩ :=
    (processed_handleAllocations s executorId containerId reason).snapshot h
  obtain ⟨c,hc,hkey,hruns⟩ := hacts.ctx
  obtain ⟨av,hv,hdec⟩ := hacts.decided
  obtain ⟨hckey,hkeyed⟩ := hs hc
  have hk : c'.key=r.requestCtxKey := hkey.trans hckey
  refine ⟨c,hk ▸ hc,?_⟩
  have hmoves : ∀ q : FunctionRun, q.Moves (freedBy s executorId containerId reason c'.key r'.id) r' := by
    intro q _ hfree
    have hgood : FailsForGood s (.failure (.ofTermination reason)) r := by
      by_contra hbad
      exact hfree ⟨a,ha,r,hacts.running.1,hacts.running.2,hk.symm,hacts.same.1.symm,hbad⟩
    obtain ⟨hchild,reason',ho,hno⟩ := hgood
    cases ho
    rw [hdec]
    simp only [handleAllocationOutcome,handleAllocationFailure]
    rw [if_neg (hno av hv)]
    exact ⟨hchild,.inr ⟨rfl,_,rfl⟩⟩
  cases hq : c.functionRuns.lookup r'.id with
  | some q =>
    exact Advances.overwrite (Advances.refl hkeyed) hq rfl (hmoves q) hkey hruns (hacts.calls hc)
  | none =>
    exact Advances.new_run hkeyed (AList.lookup_eq_none.mp hq) rfl hkey hruns (hacts.calls hc)

end ContainerReconciler
end Indexify
