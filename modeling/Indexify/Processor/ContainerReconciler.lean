import Indexify.Processor.RetryPolicy
import Indexify.StateStore.InMemoryState

/-! What the server does with the allocations of a container that terminated. Every
allocation is handled against the state before the loop, so each snapshot of a request
carries the change of one run only. -/
namespace Indexify.ContainerReconciler
open List Dict SchedulerUpdateRequest FunctionRunRetryPolicy
variable (s : InMemoryState)

def allocationsOf (s : InMemoryState) (executorId : ExecutorId) (containerId : ContainerId) :
    List Allocation :=
  (((s.allocationsByExecutor.lookup executorId).bind fun byFe => byFe.lookup containerId).map
    Dict.values).getD []

def handleTerminatedAllocation (s : InMemoryState) (reason : ContainerTerminationReason)
    (u : SchedulerUpdateRequest) (alloc : Allocation) : SchedulerUpdateRequest :=
  match s.functionRuns.lookup alloc.functionRunKey with
  | none => u.cancelAllocation alloc
  | some functionRun =>
    match s.requestCtx.lookup functionRun.requestCtxKey with
    | none => u.cancelAllocation alloc
    | some ctx =>
      -- only the allocation the run is on may change it
      if functionRun.status ≠ .running alloc.id then u.cancelAllocation alloc
      else
        match s.getExistingApplicationVersion functionRun with
        | none => u.cancelAllocation alloc
        | some applicationVersion =>
          let updatedAlloc := {alloc with outcome := .failure (.ofTermination reason)}
          let functionRun := handleAllocationOutcome functionRun
            updatedAlloc applicationVersion
          let u := {u with updatedAllocations := u.updatedAllocations++[updatedAlloc]}
          let isCompleted := decide (functionRun.status=.completed)
          let (u,ctx) := u.addFunctionRun functionRun ctx
          let ctx := if isCompleted then
              {ctx with outcome := functionRun.outcome.map .ofFunctionRun}
            else ctx
          u.addRequestState ctx

def handleAllocationsForContainerTermination (s : InMemoryState) (executorId : ExecutorId)
    (containerId : ContainerId) (reason : ContainerTerminationReason) : SchedulerUpdateRequest :=
  (allocationsOf s executorId containerId).foldl (handleTerminatedAllocation s reason) {}

def RunningOn (s : InMemoryState) (a : Allocation) (r : FunctionRun) : Prop :=
  s.functionRuns.lookup a.functionRunKey = some r ∧ r.status = .running a.id

/-- The allocation passes every guard: `r` is its run, `r'` the run after the retry decision
and `c'` the snapshot of the request that is handed on. -/
structure Acts (s : InMemoryState) (reason : ContainerTerminationReason) (a : Allocation)
    (r r' : FunctionRun) (c' : RequestCtx) : Prop where
  running : RunningOn s a r
  version : (s.getExistingApplicationVersion r).isSome
  settled : r'.Settled
  same : r.SameIdentity r'
  ctx : ∃ c, s.requestCtx.lookup r.requestCtxKey = some c ∧ c'.key=c.key ∧
    c'.functionRuns = c.functionRuns.insert r'.id r'
  calls : ∀ {c}, s.requestCtx.lookup r.requestCtxKey = some c → c'.functionCalls=c.functionCalls
  decided : ∃ av, s.getExistingApplicationVersion r = some av ∧ r' = handleAllocationOutcome r
      {a with outcome := .failure (.ofTermination reason)} av

/-- One step of the loop: the allocation is cancelled, or its run is listed and a snapshot
with that one run changed is merged. -/
lemma handleTerminatedAllocation_cases (reason : ContainerTerminationReason)
    (u : SchedulerUpdateRequest) (a : Allocation) :
    (handleTerminatedAllocation s reason u a = u.cancelAllocation a ∧
      ∀ r, RunningOn s a r → s.requestCtx.lookup r.requestCtxKey = none ∨
        s.getExistingApplicationVersion r = none) ∨
      ∃ r r' c', ∃ u' : SchedulerUpdateRequest, Acts s reason a r r' c' ∧
        handleTerminatedAllocation s reason u a = u'.mergeRequestState c'.key c' ∧
        u'.updatedRequestStates = u.updatedRequestStates ∧
        u'.updatedFunctionRuns = u.updatedFunctionRuns.insert c'.key
          (((u.updatedFunctionRuns.lookup c'.key).getD []).insert r'.id) := by
  unfold handleTerminatedAllocation
  cases hr : s.functionRuns.lookup a.functionRunKey with
  | none =>
    refine .inl ⟨rfl,?_⟩
    rintro r ⟨hr',-⟩
    cases hr.symm.trans hr'
  | some r =>
    dsimp only
    cases hc : s.requestCtx.lookup r.requestCtxKey with
    | none =>
      refine .inl ⟨rfl,?_⟩
      rintro r2 ⟨hr',-⟩
      cases hr.symm.trans hr'
      exact .inl hc
    | some c =>
      dsimp only
      by_cases hs : r.status = .running a.id
      · rw [if_neg (not_not.mpr hs)]
        cases hv : s.getExistingApplicationVersion r with
        | none =>
          refine .inl ⟨rfl,?_⟩
          rintro r2 ⟨hr',-⟩
          cases hr.symm.trans hr'
          exact .inr hv
        | some av =>
          right
          set r' := handleAllocationOutcome r
            {a with outcome := .failure (.ofTermination reason)} av with hr'
          have hsettled : r'.Settled :=
            handleAllocationOutcome_settled r _ av _ rfl
          have hsame : r.SameIdentity r' :=
            handleAllocationOutcome_sameIdentity r _ av
          have hav : (s.getExistingApplicationVersion r).isSome := by rw [hv]; rfl
          set x := addFunctionRun {u with
            updatedAllocations := u.updatedAllocations ++
              [{a with outcome := .failure (.ofTermination reason)}]} r' c with hx
          set c' := if decide (r'.status=.completed) = true then
            {x.2 with outcome := r'.outcome.map .ofFunctionRun} else x.2 with hc'
          have hkey : c'.key=c.key := by
            rw [hc']; split_ifs <;> rfl
          have hins : c'.functionRuns = c.functionRuns.insert r'.id r' := by
            rw [hc']; split_ifs <;> rfl
          have hcalls : ∀ {c1}, s.requestCtx.lookup r.requestCtxKey = some c1 →
              c'.functionCalls = c1.functionCalls := by
            intro c1 hc1
            cases hc.symm.trans hc1
            rw [hc']; split_ifs <;> rfl
          refine ⟨r,r',c',x.1,⟨⟨hr,hs⟩,hav,hsettled,hsame,⟨c,hc,hkey,hins⟩,hcalls,⟨av,hv,hr'⟩⟩,rfl,rfl,?_⟩
          rw [hkey]
          rfl
      · rw [if_pos hs]
        refine .inl ⟨rfl,?_⟩
        rintro r2 ⟨hr',hs'⟩
        cases hr.symm.trans hr'
        exact absurd hs' hs

/-- What the update holds after the allocations in `done`: every snapshot and every listed run
stems from one of them, and every one that passed the guards left its mark. -/
structure Processed (s : InMemoryState) (reason : ContainerTerminationReason)
    (done : List Allocation) (u : SchedulerUpdateRequest) : Prop where
  snapshot : ∀ {k c'}, u.updatedRequestStates.lookup k = some c' →
    ∃ a∈done, ∃ r r', Acts s reason a r r' c' ∧ c'.key=k
  listed : ∀ {k id}, u.listsRun k id → ∃ a∈done, ∃ r r' c', Acts s reason a r r' c' ∧ c'.key=k ∧ r'.id=id
  acted : ∀ {a r c}, a∈done → RunningOn s a r →
    s.requestCtx.lookup r.requestCtxKey = some c → (s.getExistingApplicationVersion r).isSome →
    u.listsRun c.key r.id ∧ (u.updatedRequestStates.lookup c.key).isSome

lemma Processed.cancel {s : InMemoryState} {reason : ContainerTerminationReason}
    {done : List Allocation} {u : SchedulerUpdateRequest} (h : Processed s reason done u)
    {a : Allocation} (ha : ∀ r, RunningOn s a r → s.requestCtx.lookup r.requestCtxKey = none ∨
      s.getExistingApplicationVersion r = none) :
    Processed s reason (done++[a]) (u.cancelAllocation a) where
  snapshot hc := by
    obtain ⟨b,hb,rest⟩ := h.snapshot hc
    exact ⟨b,mem_append_left _ hb,rest⟩
  listed hl := by
    obtain ⟨b,hb,rest⟩ := h.listed hl
    exact ⟨b,mem_append_left _ hb,rest⟩
  acted {b r c} hb hr hc hv := by
    rcases mem_append.mp hb with hb | hb
    · exact h.acted hb hr hc hv
    cases mem_singleton.mp hb
    rcases ha r hr with hn | hn
    · cases hn.symm.trans hc
    · rw [hn] at hv; cases hv

lemma Processed.act {s : InMemoryState} {reason : ContainerTerminationReason}
    {done : List Allocation} {u u' : SchedulerUpdateRequest} (h : Processed s reason done u)
    {a : Allocation} {r r' : FunctionRun} {c' : RequestCtx} (ha : Acts s reason a r r' c')
    (hstates : u'.updatedRequestStates=u.updatedRequestStates)
    (hruns : u'.updatedFunctionRuns = u.updatedFunctionRuns.insert c'.key
      (((u.updatedFunctionRuns.lookup c'.key).getD []).insert r'.id)) :
    Processed s reason (done++[a]) (u'.mergeRequestState c'.key c') := by
  have hlists : ∀ k id, (u'.mergeRequestState c'.key c').listsRun k id ↔
      u.listsRun k id ∨ k=c'.key ∧ id=r'.id := by
    intro k id
    simp only [listsRun,mergeRequestState,hruns]
    by_cases hk : k=c'.key
    · subst hk
      simp [or_comm]
    · simp [hk]
  constructor
  · intro k c hc
    simp only [mergeRequestState,hstates,lookup_insert_if] at hc
    split_ifs at hc with hk
    · -- the merged entry is the new snapshot or the one that was there
      subst hk
      rcases keepTerminal_cases
        (u.updatedRequestStates.lookup c'.key) c' with he | he
      · cases he.symm.trans hc
        exact ⟨a,by simp,r,r',ha,rfl⟩
      · obtain ⟨b,hb,rest⟩ := h.snapshot (he.trans hc)
        exact ⟨b,mem_append_left _ hb,rest⟩
    · obtain ⟨b,hb,rest⟩ := h.snapshot hc
      exact ⟨b,mem_append_left _ hb,rest⟩
  · intro k id hl
    rcases (hlists k id).mp hl with hl | ⟨rfl,rfl⟩
    · obtain ⟨b,hb,rest⟩ := h.listed hl
      exact ⟨b,mem_append_left _ hb,rest⟩
    · exact ⟨a,by simp,r,r',c',ha,rfl,rfl⟩
  · intro b rb c hb hr hc hv
    have hstay : (u.updatedRequestStates.lookup c.key).isSome →
        ((u'.mergeRequestState c'.key c').updatedRequestStates.lookup c.key).isSome := by
      intro hsome
      simp only [mergeRequestState,hstates,lookup_insert_if]
      split_ifs
      · rfl
      · exact hsome
    rcases mem_append.mp hb with hb | hb
    · obtain ⟨hl,hsome⟩ := h.acted hb hr hc hv
      exact ⟨(hlists _ _).mpr (.inl hl),hstay hsome⟩
    cases mem_singleton.mp hb
    cases ha.running.1.symm.trans hr.1
    obtain ⟨c0,hc0,hkey,-⟩ := ha.ctx
    cases hc0.symm.trans hc
    refine ⟨(hlists _ _).mpr (.inr ⟨hkey.symm,ha.same.1.symm⟩),?_⟩
    simp [mergeRequestState,hkey]

lemma processed_foldl (reason : ContainerTerminationReason)
    (allocs done : List Allocation) (u : SchedulerUpdateRequest) (h : Processed s reason done u) :
    Processed s reason (done++allocs) (allocs.foldl (handleTerminatedAllocation s reason) u) := by
  induction allocs generalizing done u with
  | nil => simpa using h
  | cons a allocs ih =>
    have hstep : Processed s reason (done++[a]) (handleTerminatedAllocation s reason u a) := by
      rcases handleTerminatedAllocation_cases s reason u a with
        ⟨he,hn⟩ | ⟨r,r',c',u',ha,he,hstates,hruns⟩
      · rw [he]
        exact h.cancel hn
      · rw [he]
        exact h.act ha hstates hruns
    have hrest := ih _ _ hstep
    rwa [append_assoc] at hrest

lemma processed_handleAllocations (executorId : ExecutorId)
    (containerId : ContainerId) (reason : ContainerTerminationReason) :
    Processed s reason (allocationsOf s executorId containerId)
      (handleAllocationsForContainerTermination s executorId containerId reason) := by
  refine processed_foldl s reason _ [] {} ?_
  constructor
  · intro k c' hc
    cases hc
  · intro k id hl
    simp [listsRun] at hl
  · intro a r c hb
    simp at hb

section
variable {s : InMemoryState} {executorId : ExecutorId} {containerId : ContainerId}
  {a : Allocation} {r r' : FunctionRun}
  {reason : ContainerTerminationReason}
variable (hs : s.WellFormed)
include hs

lemma Acts.snapshot_eq {c' : RequestCtx} (ha : Acts s reason a r r' c') :
    c'.key = r.requestCtxKey ∧ ∃ c, s.requestCtx.lookup r.requestCtxKey = some c ∧
      c'.functionRuns = c.functionRuns.insert r.id r' := by
  obtain ⟨c,hc,hkey,hins⟩ := ha.ctx
  exact ⟨hkey.trans (hs.ctx_keyed hc),c,hc,by rw [hins,ha.same.1]⟩

lemma run_eq_of_id_eq {k k' : FunctionRunKey}
    (hr : s.functionRuns.lookup k = some r) (hr' : s.functionRuns.lookup k' = some r')
    (hreq : r.requestCtxKey=r'.requestCtxKey) (hid : r.id=r'.id) : r=r' := by
  have hkey : k=k' := by
    rw [← hs.runs_keyed hr,← hs.runs_keyed hr',r.key_eq_requestCtxKey_append,
      r'.key_eq_requestCtxKey_append,hreq,hid]
  rw [hkey,hr'] at hr
  exact (Option.some.inj hr).symm

theorem coherent_handleAllocations :
    (handleAllocationsForContainerTermination s executorId containerId reason).Coherent s := by
  have hp := processed_handleAllocations s executorId containerId reason
  constructor
  · intro k c' hc'
    obtain ⟨a,-,r,r',-,hk⟩ := hp.snapshot hc'
    exact hk
  · intro k c' id r0 hc' hr0
    obtain ⟨a,-,r,r',ha,rfl⟩ := hp.snapshot hc'
    obtain ⟨hkey,c,hc,hins⟩ := ha.snapshot_eq hs
    rw [hins] at hr0
    rcases lookup_insert_cases hr0 with ⟨hid,rfl⟩ | ⟨-,hr0⟩
    · exact ⟨by rw [hid,ha.same.1],by rw [hkey,ha.same.requestCtxKey_eq]⟩
    · rw [hkey]
      exact hs.ctx_runs hc hr0
  · intro k r0 c' hr0 hc'
    obtain ⟨a,hmem,r,r',ha,hk⟩ := hp.snapshot hc'
    obtain ⟨hkey,c,hc,hins⟩ := ha.snapshot_eq hs
    have hreq : r.requestCtxKey=r0.requestCtxKey := hkey.symm.trans hk
    rw [hins]
    by_cases hid : r0.id=r.id
    · refine ⟨r',by rw [lookup_insert_if,if_pos hid],?_⟩
      intro hn
      obtain ⟨hl,-⟩ := hp.acted hmem ha.running hc ha.version
      rw [hs.ctx_keyed hc,hreq,← hid] at hl
      exact absurd hl hn
    · refine ⟨r0,?_,fun _ => rfl⟩
      rw [lookup_insert_if,if_neg hid]
      rw [hreq] at hc
      exact hs.agree hr0 hc

/-- The handled termination keeps the two copies of every run in step. -/
theorem wellFormed_handleAllocations : (s.applySchedulerUpdate
    (handleAllocationsForContainerTermination s executorId containerId reason)).WellFormed :=
  hs.applySchedulerUpdate (coherent_handleAllocations hs)

omit hs

variable (s executorId containerId reason) in
/-- Every run that was running on one of the allocations is listed, its final snapshot waits
for a retry or failed, and so does what memory holds of it once the update is applied. -/
def SettlesRunningRuns : Prop :=
  ∀ a ∈ allocationsOf s executorId containerId, ∀ r, RunningOn s a r →
    (handleAllocationsForContainerTermination s executorId containerId reason).listsRun
      r.requestCtxKey r.id ∧
    (∃ r', (handleAllocationsForContainerTermination s executorId containerId reason).snapshotRun
      r.requestCtxKey r.id = some r' ∧ r'.Settled) ∧
    ∀ r', (s.applySchedulerUpdate
      (handleAllocationsForContainerTermination s executorId containerId reason)).functionRuns.lookup
        r.key = some r' → r'.Settled

variable (s executorId containerId) in
/-- The running runs of the container have their request and application version in memory,
and no two of them belong to one request. -/
structure OneRunPerRequest : Prop where
  present : ∀ a ∈ allocationsOf s executorId containerId, ∀ r, RunningOn s a r →
    (s.requestCtx.lookup r.requestCtxKey).isSome ∧ (s.getExistingApplicationVersion r).isSome
  single : ∀ a ∈ allocationsOf s executorId containerId,
    ∀ b ∈ allocationsOf s executorId containerId, ∀ r r', RunningOn s a r → RunningOn s b r' →
      r.requestCtxKey = r'.requestCtxKey → r.id=r'.id

variable (hs : s.WellFormed)
include hs

lemma Acts.id_eq_of_settled {r0 r1 : FunctionRun}
    {c' : RequestCtx} {k : FunctionRunKey} {id : AllocationId} (ha : Acts s reason a r0 r1 c')
    (hr : s.functionRuns.lookup k = some r) (hrun : r.status = .running id)
    (hreq : r.requestCtxKey=c'.key) (hr' : c'.functionRuns.lookup r.id = some r')
    (hset : r'.Settled) : r.id=r0.id := by
  obtain ⟨hkey,c,hc,hins⟩ := ha.snapshot_eq hs
  by_contra hid
  rw [hins,lookup_insert_if,if_neg hid] at hr'
  rw [← hkey,← hreq] at hc
  cases hr'.symm.trans (hs.agree hr hc)
  exact FunctionRun.not_settled_of_running hrun hset

lemma oneRunPerRequest_of_settles (h : SettlesRunningRuns s executorId containerId reason) :
    OneRunPerRequest s executorId containerId := by
  have hp := processed_handleAllocations s executorId containerId reason
  constructor
  · intro a hmem r hr
    obtain ⟨-,⟨r',hsnap,hset⟩,-⟩ := h a hmem r hr
    obtain ⟨c',hc',hr'⟩ := Option.bind_eq_some_iff.mp hsnap
    obtain ⟨b,-,r0,r1,hb,hk⟩ := hp.snapshot hc'
    have hid := hb.id_eq_of_settled hs hr.1 hr.2 hk.symm hr' hset
    obtain ⟨hkey,c,hc,-⟩ := hb.snapshot_eq hs
    cases run_eq_of_id_eq hs hr.1 hb.running.1 (hk.symm.trans hkey) hid
    exact ⟨by rw [hc]; rfl,hb.version⟩
  intro a ha b hb r r' hr hr' hreq
  obtain ⟨-,⟨x,hsnap,hset⟩,-⟩ := h a ha r hr
  obtain ⟨-,⟨x',hsnap',hset'⟩,-⟩ := h b hb r' hr'
  rw [hreq] at hsnap
  obtain ⟨c',hc',hx⟩ := Option.bind_eq_some_iff.mp hsnap
  obtain ⟨c'',hc'',hx'⟩ := Option.bind_eq_some_iff.mp hsnap'
  cases hc'.symm.trans hc''
  -- one snapshot of the request, written for one run
  obtain ⟨d,-,r0,r1,hd,hk⟩ := hp.snapshot hc'
  rw [hd.id_eq_of_settled hs hr.1 hr.2 (hreq.trans hk.symm) hx hset,
    hd.id_eq_of_settled hs hr'.1 hr'.2 hk.symm hx' hset']

variable (reason) in
lemma settled_snapshot_of_oneRunPerRequest (h : OneRunPerRequest s executorId containerId)
    (ha : a ∈ allocationsOf s executorId containerId) (hr : RunningOn s a r) :
    (handleAllocationsForContainerTermination s executorId containerId reason).listsRun
      r.requestCtxKey r.id ∧
    ∃ r', (handleAllocationsForContainerTermination s executorId containerId reason).snapshotRun
      r.requestCtxKey r.id = some r' ∧ r'.Settled ∧ r'.key=r.key := by
  have hp := processed_handleAllocations s executorId containerId reason
  obtain ⟨hctx,hver⟩ := h.present a ha r hr
  obtain ⟨c,hc⟩ := Option.isSome_iff_exists.mp hctx
  obtain ⟨hl,hsome⟩ := hp.acted ha hr hc hver
  rw [hs.ctx_keyed hc] at hl hsome
  refine ⟨hl,?_⟩
  obtain ⟨c',hc'⟩ := Option.isSome_iff_exists.mp hsome
  obtain ⟨b,hb,r0,r1,hact,hk⟩ := hp.snapshot hc'
  obtain ⟨hkey,c0,hc0,hins⟩ := hact.snapshot_eq hs
  have hreq : r.requestCtxKey=r0.requestCtxKey := hk.symm.trans hkey
  have hid : r.id=r0.id := h.single a ha b hb r r0 hr hact.running hreq
  cases run_eq_of_id_eq hs hr.1 hact.running.1 hreq hid
  refine ⟨r1,?_,hact.settled,hact.same.key_eq⟩
  rw [snapshotRun,hc',Option.bind_some,hins,lookup_insert_if,if_pos rfl]

lemma settles_of_oneRunPerRequest (h : OneRunPerRequest s executorId containerId) :
    SettlesRunningRuns s executorId containerId reason := by
  have hp := processed_handleAllocations s executorId containerId reason
  intro a ha r hr
  obtain ⟨hl,r',hsnap,hset,hkey⟩ :=
    settled_snapshot_of_oneRunPerRequest reason hs h ha hr
  refine ⟨hl,⟨r',hsnap,hset⟩,?_⟩
  intro r'' hr''
  rcases InMemoryState.lookup_functionRuns_applySchedulerUpdate hr'' with ⟨hmem,-⟩ | ⟨-,hn⟩
  · -- every listed run is one of the settled ones
    obtain ⟨k,id,hl',hsnap'⟩ := (mem_listedRuns _ _).mp hmem
    obtain ⟨b,hb,r0,r1,c',hact,rfl,rfl⟩ := hp.listed hl'
    obtain ⟨-,x,hx,hxset,-⟩ :=
      settled_snapshot_of_oneRunPerRequest reason hs h hb hact.running
    rw [(hact.snapshot_eq hs).1,hact.same.1] at hsnap'
    cases hx.symm.trans hsnap'
    exact hxset
  · exact absurd hkey (hn r' ((mem_listedRuns _ _).mpr ⟨_,_,hl,hsnap⟩))

omit hs

/-- The termination of a container settles all its running runs exactly when each of them is
the only running run of its request there. -/
theorem handleAllocations_settles_iff (hs : s.WellFormed) :
    SettlesRunningRuns s executorId containerId reason ↔ OneRunPerRequest s executorId containerId :=
  ⟨oneRunPerRequest_of_settles hs,settles_of_oneRunPerRequest hs⟩

end

/-- A running run of the function, by its request and its id. -/
def mapRun (p : String × String) : FunctionRun where
  id := ⟨p.2⟩
  requestId := p.1
  «namespace» := "default"
  application := "map-reduce"
  version := "1"
  name := "mapper"
  computeOp := .functionCall ⟨⟨p.2⟩,[],"mapper",[],none⟩
  inputArgs := []
  childFunctionCall := none
  output := none
  status := .running ⟨p.2⟩
  outcome := none
  attemptNumber := 0
  callMetadata := []
  requestError := none

def mapAllocation (p : String × String) : Allocation where
  id := ⟨p.2⟩
  target := ⟨⟨"executor-1"⟩,⟨"container-1"⟩⟩
  functionCallId := ⟨p.2⟩
  «namespace» := "default"
  application := "map-reduce"
  applicationVersion := "1"
  function := "mapper"
  requestId := p.1
  outcome := .unknown
  attemptNumber := 0
  executionDurationMs := none
  inputArgs := []
  vectorClock := 0
  callMetadata := []

def mapCtx (runs : List (String × String)) (request : String) : RequestCtx where
  «namespace» := "default"
  applicationName := "map-reduce"
  applicationVersion := "1"
  requestId := request
  outcome := none
  requestError := none
  functionRuns := Dict.insertAll FunctionRun.id ∅ ((runs.filter fun p => p.1=request).map mapRun)
  functionCalls := ∅

def mapVersion : ApplicationVersion where
  «namespace» := "default"
  name := "map-reduce"
  version := "1"
  functions := AList.insert "mapper" ⟨"mapper",[],none,60000,⟨100,64,64,[]⟩,⟨3⟩,2⟩ ∅
  state := .active

def mapState (runs : List (String × String)) : InMemoryState where
  applicationVersions := AList.insert "default|map-reduce|1" mapVersion ∅
  allocationsByExecutor := AList.insert ⟨"executor-1"⟩ (AList.insert ⟨"container-1"⟩
    (Dict.insertAll Allocation.id ∅ (runs.map mapAllocation)) ∅) ∅
  functionRuns := Dict.insertAll FunctionRun.key ∅ (runs.map mapRun)
  requestCtx := Dict.insertAll RequestCtx.key ∅ (runs.map fun p => mapCtx runs p.1)

section
variable {runs : List (String × String)}

lemma mapState_lookup_run {k : FunctionRunKey} {r : FunctionRun}
    (h : (mapState runs).functionRuns.lookup k = some r) : ∃ p∈runs, mapRun p = r ∧ r.key=k := by
  rcases lookup_insertAll FunctionRun.key ∅ (runs.map mapRun) k with
    ⟨v,hv,hk,hl⟩ | ⟨-,hl⟩
  · cases hl.symm.trans h
    obtain ⟨p,hp,rfl⟩ := mem_map.mp hv
    exact ⟨p,hp,rfl,hk⟩
  · cases hl.symm.trans h

lemma mapState_lookup_ctx {k : RequestCtxKey} {c : RequestCtx}
    (h : (mapState runs).requestCtx.lookup k = some c) :
    ∃ request, mapCtx runs request = c ∧ c.key=k := by
  rcases lookup_insertAll RequestCtx.key ∅ (runs.map fun p => mapCtx runs p.1) k with
    ⟨v,hv,hk,hl⟩ | ⟨-,hl⟩
  · cases hl.symm.trans h
    obtain ⟨p,-,rfl⟩ := mem_map.mp hv
    exact ⟨p.1,rfl,hk⟩
  · cases hl.symm.trans h

lemma mapKey_inj {request request' : String} (h : RequestCtx.keyFrom "default" "map-reduce" request =
    RequestCtx.keyFrom "default" "map-reduce" request') : request=request' := by
  simpa [RequestCtx.keyFrom] using h

lemma mapState_wellFormed (runs : List (String × String)) : (mapState runs).WellFormed where
  runs_keyed h := by
    obtain ⟨p,-,rfl,hk⟩ := mapState_lookup_run h
    exact hk
  ctx_keyed h := by
    obtain ⟨request,rfl,hk⟩ := mapState_lookup_ctx h
    exact hk
  ctx_runs {k c id r} h hr := by
    obtain ⟨request,rfl,rfl⟩ := mapState_lookup_ctx h
    rcases lookup_insertAll FunctionRun.id ∅ ((runs.filter fun p => p.1=request).map mapRun) id with
      ⟨v,hv,hk,hl⟩ | ⟨-,hl⟩
    · cases hl.symm.trans hr
      obtain ⟨p,hp,rfl⟩ := mem_map.mp hv
      obtain rfl : p.1=request := by simpa using (mem_filter.mp hp).2
      exact ⟨hk,rfl⟩
    · cases hl.symm.trans hr
  agree {k r c} h hc := by
    obtain ⟨p,hp,rfl,-⟩ := mapState_lookup_run h
    obtain ⟨request,rfl,hkey⟩ := mapState_lookup_ctx hc
    obtain rfl : request=p.1 := mapKey_inj hkey
    rcases lookup_insertAll FunctionRun.id ∅ ((runs.filter fun q => q.1=p.1).map mapRun)
      (mapRun p).id with ⟨v,hv,hk,hl⟩ | ⟨hn,-⟩
    · obtain ⟨q,hq,rfl⟩ := mem_map.mp hv
      have hrequest : q.1=p.1 := by simpa using (mem_filter.mp hq).2
      have hid : q.2=p.2 := FunctionCallId.mk.inj hk
      obtain rfl : q=p := Prod.ext hrequest hid
      exact hl
    · exact absurd rfl (hn _ (mem_map_of_mem (mem_filter.mpr ⟨hp,by simp⟩)))

lemma mapState_oneRunPerRequest (h : (runs.map Prod.fst).Nodup) :
    OneRunPerRequest (mapState runs) ⟨"executor-1"⟩ ⟨"container-1"⟩ := by
  constructor
  · rintro a - r ⟨hr,-⟩
    obtain ⟨p,hp,rfl,-⟩ := mapState_lookup_run hr
    refine ⟨?_,rfl⟩
    rcases lookup_insertAll RequestCtx.key ∅ (runs.map fun p => mapCtx runs p.1)
      (mapRun p).requestCtxKey with ⟨v,-,-,hl⟩ | ⟨hn,-⟩
    · exact Option.isSome_iff_exists.mpr ⟨v,hl⟩
    · have hkey : (mapCtx runs p.1).key = (mapRun p).requestCtxKey := rfl
      exact absurd hkey (hn (mapCtx runs p.1) (mem_map.mpr ⟨p,hp,rfl⟩))
  · rintro a - b - r r' ⟨hr,-⟩ ⟨hr',-⟩ hkey
    obtain ⟨p,hp,rfl,-⟩ := mapState_lookup_run hr
    obtain ⟨q,hq,rfl,-⟩ := mapState_lookup_run hr'
    rw [inj_on_of_nodup_map h hp hq (mapKey_inj hkey)]

end

/-- Three runs of three requests are settled. -/
theorem handleAllocations_settles_requests :
    SettlesRunningRuns (mapState [("request-1","map-1"),("request-2","map-2"),("request-3","map-3")])
      ⟨"executor-1"⟩ ⟨"container-1"⟩ .desiredStateRemoved :=
  (handleAllocations_settles_iff (mapState_wellFormed _)).mpr
    (mapState_oneRunPerRequest (by decide))

def twoRuns : List (String × String) := [("request-1","map-1"),("request-1","map-2")]

/-- With two runs of one request on the container the snapshot written last replaces the other
one, and the run handled first stays running on the dead container. -/
theorem handleAllocations_loses_one_of_two :
    (mapState twoRuns).WellFormed ∧
    ¬ SettlesRunningRuns (mapState twoRuns) ⟨"executor-1"⟩ ⟨"container-1"⟩
      .desiredStateRemoved := by
  refine ⟨mapState_wellFormed _,?_⟩
  intro h
  have hmem : mapAllocation ("request-1","map-2") ∈
      allocationsOf (mapState twoRuns) ⟨"executor-1"⟩ ⟨"container-1"⟩ :=
    mem_cons_self
  have hlost : (handleAllocationsForContainerTermination (mapState twoRuns)
      ⟨"executor-1"⟩ ⟨"container-1"⟩ .desiredStateRemoved).snapshotRun
      (mapRun ("request-1","map-2")).requestCtxKey (mapRun ("request-1","map-2")).id = some (mapRun ("request-1","map-2")) := rfl
  obtain ⟨-,⟨r',hsnap,hset⟩,-⟩ := h _ hmem (mapRun ("request-1","map-2")) ⟨rfl,rfl⟩
  cases hlost.symm.trans hsnap
  exact FunctionRun.not_settled_of_running rfl hset

/-- However many containers end, the run of a request in its context is the run in the table. -/
theorem terminations_keep_copies (s : InMemoryState) (hs : s.WellFormed)
    (ends : List (ExecutorId × ContainerId × ContainerTerminationReason)) :
    (ends.foldl (fun s e => s.applySchedulerUpdate
      (handleAllocationsForContainerTermination s e.1 e.2.1 e.2.2)) s).WellFormed :=
  Trace.invariant (fun _ hs => wellFormed_handleAllocations hs) hs ends

/-- Also where one of two runs was lost. -/
theorem lost_run_keeps_copies : (InMemoryState.applySchedulerUpdate (mapState twoRuns)
    (handleAllocationsForContainerTermination (mapState twoRuns) ⟨"executor-1"⟩
      ⟨"container-1"⟩ .desiredStateRemoved)).WellFormed :=
  terminations_keep_copies (mapState twoRuns) (mapState_wellFormed _)
    [(⟨"executor-1"⟩,⟨"container-1"⟩,.desiredStateRemoved)]

end Indexify.ContainerReconciler
