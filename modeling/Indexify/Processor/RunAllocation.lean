import Indexify.Processor.ContainerIndices
import Indexify.Processor.FunctionRunProcessor
import Indexify.Scheduler.WakeUps

/-! Where the runs of an allocation pass end up. -/
namespace Indexify
open List Dict
namespace SchedulerUpdateRequest
variable {v : SchedulerUpdateRequest} (u : SchedulerUpdateRequest)

/-- An update about containers and executors, without runs and requests. -/
structure OnlyContainers (u : SchedulerUpdateRequest) : Prop where
  newAllocations : u.newAllocations = []
  updatedFunctionRuns : u.updatedFunctionRuns = ∅
  updatedRequestStates : u.updatedRequestStates = ∅

def FailsRequest (u : SchedulerUpdateRequest) (key : RequestCtxKey) : Prop :=
  ∃ c, u.updatedRequestStates.lookup key = some c ∧ c.outcome = some (.failure .constraintUnsatisfiable)

lemma onlyContainers_empty : OnlyContainers {} := ⟨rfl,rfl,rfl⟩

lemma OnlyContainers.extend {u : SchedulerUpdateRequest} (hu : u.OnlyContainers)
    (hv : v.OnlyContainers) : (u.extend v).OnlyContainers where
  newAllocations := by simp [SchedulerUpdateRequest.extend,hu.newAllocations,hv.newAllocations]
  updatedFunctionRuns := by
    simp [SchedulerUpdateRequest.extend,hu.updatedFunctionRuns,hv.updatedFunctionRuns,Dict.absorb]
  updatedRequestStates := by
    simp [SchedulerUpdateRequest.extend,hu.updatedRequestStates,hv.updatedRequestStates,Dict.absorb]

lemma newAllocations_extend (hv : v.OnlyContainers) : (u.extend v).newAllocations = u.newAllocations := by
  simp [SchedulerUpdateRequest.extend,hv.newAllocations]

lemma updatedFunctionRuns_extend (hv : v.OnlyContainers) :
    (u.extend v).updatedFunctionRuns = u.updatedFunctionRuns := by
  simp [SchedulerUpdateRequest.extend,hv.updatedFunctionRuns,Dict.absorb]

lemma updatedRequestStates_extend (hv : v.OnlyContainers) :
    (u.extend v).updatedRequestStates = u.updatedRequestStates := by
  simp [SchedulerUpdateRequest.extend,hv.updatedRequestStates,Dict.absorb]

lemma keepTerminal_eq {existing : Option RequestCtx} {c : RequestCtx}
    (h : ∀ e, existing = some e → e.outcome=none ∨ c.outcome.isSome) : keepTerminal existing c = c := by
  cases existing with
  | none => rfl
  | some e =>
    unfold keepTerminal
    rcases h e rfl with he | hc
    · simp [he]
    · simp [Option.isSome_iff_ne_none.mp hc]

end SchedulerUpdateRequest

namespace ContainerScheduler
variable {s : ContainerScheduler} {u : SchedulerUpdateRequest}

lemma onlyContainers_restoreUpdate (s : ContainerScheduler) (id : ContainerId)
    (executorId : ExecutorId) : (s.restoreUpdate id executorId).OnlyContainers := by
  unfold restoreUpdate
  cases s.functionContainers.lookup id <;> cases s.executorStates.lookup executorId <;>
    exact ⟨rfl,rfl,rfl⟩

lemma Creation.onlyContainers {s' : ContainerScheduler} {fnUri : FunctionURI} {c : Container}
    {now : Instant} (h : Creation s fnUri c now s' (some u)) : u.OnlyContainers := by
  cases h with
  | restored => exact onlyContainers_restoreUpdate _ _ _
  | added => exact ⟨rfl,rfl,rfl⟩

end ContainerScheduler

def RequestCtx.withRunning (c : RequestCtx) (run : FunctionRun) (id : AllocationId) : RequestCtx :=
  {c with functionRuns := c.functionRuns.insert run.id {run with status := .running id}}

namespace FunctionRunProcessor
open ContainerScheduler SchedulerUpdateRequest
section
variable (state : InMemoryState) [HashOrder ExecutorId]

lemma background_tryCreateContainer (s : ContainerScheduler)
    (cache : FeasibilityCache) (run : FunctionRun) (draw : Draw) :
    (tryCreateContainer state s cache run draw).1.background = s.background := by
  rcases tryCreateContainer_cases state s cache run draw with hr | ⟨_,_,-,-,-,hr⟩ <;> rw [hr]
  exact (creation_of_created rfl).background

lemma onlyContainers_tryCreateContainer {state : InMemoryState} {s : ContainerScheduler}
    {cache : FeasibilityCache} {run : FunctionRun} {draw : Draw} {u : SchedulerUpdateRequest}
    (h : (tryCreateContainer state s cache run draw).2.2 = .ok (some u)) : u.OnlyContainers := by
  rcases tryCreateContainer_cases state s cache run draw with hr | ⟨_,_,-,-,-,hr⟩ <;> rw [hr] at h
  · cases h
  · exact (creation_of_created (created_eq_some_iff.mpr h)).onlyContainers

variable [HashOrder ContainerId]

lemma chooseTarget_spec (s : ContainerScheduler) (cache : FeasibilityCache)
    (run : FunctionRun) (queueSize : ℕ) (draw : Draw) :
    (chooseTarget state s cache run queueSize draw).1.background = s.background ∧
      ∀ target u, (chooseTarget state s cache run queueSize draw).2.2 = .ok (target,u) →
        u.OnlyContainers := by
  unfold chooseTarget
  cases findAvailableContainer s (.ofRun run) queueSize with
  | some target =>
    refine ⟨rfl,?_⟩
    rintro target' u ⟨⟩
    exact onlyContainers_empty
  | none =>
    have hcreate := background_tryCreateContainer state s cache run draw
    rcases hr : tryCreateContainer state s cache run draw with ⟨s',cache',e | _ | created⟩ <;>
      rw [hr] at hcreate
    · refine ⟨hcreate,?_⟩
      rintro target u ⟨⟩
    · refine ⟨hcreate,?_⟩
      rintro target u ⟨⟩
      exact onlyContainers_empty
    · refine ⟨(background_applyContainerUpdate s' created).trans hcreate,?_⟩
      rintro target u ⟨⟩
      exact onlyContainers_empty.extend (onlyContainers_tryCreateContainer (by rw [hr]))

structure Starts (run : FunctionRun) (ctx : RequestCtx) (a : Allocation)
    (u : SchedulerUpdateRequest) : Prop where
  key : a.functionRunKey=run.key
  newAllocations : u.newAllocations = [a]
  updatedFunctionRuns : u.updatedFunctionRuns =
    (∅ : Dict RequestCtxKey (List FunctionCallId)).insert ctx.key [run.id]
  updatedRequestStates : u.updatedRequestStates =
    (∅ : Dict RequestCtxKey RequestCtx).insert ctx.key (ctx.withRunning run a.id)

omit [HashOrder ContainerId] [HashOrder ExecutorId] in
lemma starts_startRun {s : ContainerScheduler} {u : SchedulerUpdateRequest} (hu : u.OnlyContainers)
    (run : FunctionRun) (ctx : RequestCtx) (target : AllocationTarget) (id : AllocationId) :
    Starts run ctx (newAllocation run ctx target id) (startRun s u run ctx target id).2.2 := by
  have hstates : ∀ (a : Allocation) (v : SchedulerUpdateRequest),
      (occupiedUpdate s a v).newAllocations = v.newAllocations ∧
        (occupiedUpdate s a v).updatedFunctionRuns = v.updatedFunctionRuns ∧
        (occupiedUpdate s a v).updatedRequestStates = v.updatedRequestStates := by
    intro a v
    unfold occupiedUpdate
    cases s.functionContainers.lookup a.target.containerId <;> exact ⟨rfl,rfl,rfl⟩
  refine ⟨rfl,?_,?_,?_⟩
  · refine (hstates _ _).1.trans ?_
    simp [addRequestState,mergeRequestState,hu.newAllocations]
  · refine (hstates _ _).2.1.trans ?_
    simp [addRequestState,mergeRequestState,hu.updatedFunctionRuns,RequestCtx.key]
  · refine (hstates _ _).2.2.trans ?_
    simp [addRequestState,mergeRequestState,hu.updatedRequestStates,RequestCtx.key,
      keepTerminal,RequestCtx.withRunning,newAllocation]

/-- What comes of an attempt to allocate: an error, no room, or a started run, which is no longer
tracked as blocked. -/
inductive Attempt (s : ContainerScheduler) (run : FunctionRun) (ctx : RequestCtx) :
    ContainerScheduler → RequestCtx → Except CreateError SchedulerUpdateRequest → Prop
  | refused {s'} (e : CreateError) (hs : s'.background=s.background) : Attempt s run ctx s' ctx (.error e)
  | full {s' u} (hs : s'.background=s.background) (hu : u.OnlyContainers) :
    Attempt s run ctx s' ctx (.ok u)
  | started {s' u} (a : Allocation) (hs : s'.blockedWork = s.blockedWork.removeFunctionRun run.key)
    (hu : Starts run ctx a u) : Attempt s run ctx s' (ctx.withRunning run a.id) (.ok u)

lemma attempt_createAllocation (s : ContainerScheduler) (cache : FeasibilityCache) (run : FunctionRun)
    (ctx : RequestCtx) (queueSize : ℕ) (d : AllocationDraw) :
    let r := createAllocation state s cache run ctx queueSize d
    Attempt s run ctx r.1 r.2.2.1 r.2.2.2 := by
  obtain ⟨hs,hu⟩ := chooseTarget_spec state s cache run queueSize d.draw
  unfold createAllocation
  rcases hr : chooseTarget state s cache run queueSize d.draw with
    ⟨s',cache',e | ⟨_ | target,u⟩⟩ <;> rw [hr] at hs hu
  · exact .refused e hs
  · exact .full hs (hu _ _ rfl)
  · refine .started (newAllocation run ctx target d.allocationId) ?_
      (starts_startRun (hu _ _ rfl) run ctx target d.allocationId)
    have hoccupy : (occupy s' (newAllocation run ctx target d.allocationId)).blockedWork =
        s'.blockedWork := by
      unfold occupy
      cases s'.functionContainers.lookup _ <;> rfl
    have hwork : s'.blockedWork=s.blockedWork := congrArg Background.blockedWork hs
    change (occupy s' _).blockedWork.removeFunctionRun run.key = _
    rw [hoccupy,hwork]

end

/-- The ways a listed run may have ended up when a pass returns. -/
inductive Situation
  | allocated
  | blocked
  | unsatisfiable
  | skipped

def InSituation (u : SchedulerUpdateRequest) (t : BlockedWorkTracker) (run : FunctionRun) :
    Situation → Prop
  | .allocated =>
    u.listsRun run.requestCtxKey run.id ∧ run.key∉t.functionRuns.blocked ∧
      ∃ a∈u.newAllocations, a.functionRunKey=run.key ∧
        u.snapshotRun run.requestCtxKey run.id = some {run with status := .running a.id}
  | .blocked =>
    ¬u.listsRun run.requestCtxKey run.id ∧ run.key∈t.functionRuns.blocked ∧
      ∀ a∈u.newAllocations, a.functionRunKey≠run.key
  | .unsatisfiable =>
    u.listsRun run.requestCtxKey run.id ∧ u.FailsRequest run.requestCtxKey ∧
      u.snapshotRun run.requestCtxKey run.id =
        some {run with status := .completed, outcome := some (.failure .constraintUnsatisfiable)} ∧
      ∀ a∈u.newAllocations, a.functionRunKey≠run.key
  | .skipped =>
    ¬u.listsRun run.requestCtxKey run.id ∧ run.key∉t.functionRuns.blocked ∧
      u.FailsRequest run.requestCtxKey ∧ ∀ a∈u.newAllocations, a.functionRunKey≠run.key

lemma InSituation.unique {u : SchedulerUpdateRequest} {t : BlockedWorkTracker} {run : FunctionRun}
    {x y : Situation} (hx : InSituation u t run x) (hy : InSituation u t run y) : x=y := by
  cases x <;> cases y
  case allocated.allocated | blocked.blocked | unsatisfiable.unsatisfiable | skipped.skipped => rfl
  case allocated.blocked | allocated.skipped | unsatisfiable.blocked | unsatisfiable.skipped =>
    exact absurd hx.1 hy.1
  case blocked.allocated | skipped.allocated | blocked.unsatisfiable | skipped.unsatisfiable =>
    exact absurd hy.1 hx.1
  case allocated.unsatisfiable =>
    obtain ⟨-,-,a,ha,hkey,-⟩ := hx
    exact absurd hkey (hy.2.2.2 a ha)
  case unsatisfiable.allocated =>
    obtain ⟨-,-,a,ha,hkey,-⟩ := hy
    exact absurd hkey (hx.2.2.2 a ha)
  case blocked.skipped => exact absurd hx.2.1 hy.2.1
  case skipped.blocked => exact absurd hy.2.1 hx.2.1

structure SameFor (run : FunctionRun) (u u' : SchedulerUpdateRequest) (t t' : BlockedWorkTracker) :
    Prop where
  lists : u'.listsRun run.requestCtxKey run.id ↔ u.listsRun run.requestCtxKey run.id
  snapshot : ∀ r, u.snapshotRun run.requestCtxKey run.id = some r →
    u'.snapshotRun run.requestCtxKey run.id = some r
  fails : u.FailsRequest run.requestCtxKey → u'.FailsRequest run.requestCtxKey
  blocked : run.key∈t'.functionRuns.blocked ↔ run.key∈t.functionRuns.blocked
  kept : ∀ a∈u.newAllocations, a∈u'.newAllocations
  added : ∀ a∈u'.newAllocations, a∈u.newAllocations ∨ a.functionRunKey≠run.key

lemma SameFor.inSituation {run : FunctionRun} {u u' : SchedulerUpdateRequest}
    {t t' : BlockedWorkTracker} (h : SameFor run u u' t t') {x : Situation}
    (hx : InSituation u t run x) : InSituation u' t' run x := by
  have hadded : (∀ a∈u.newAllocations, a.functionRunKey≠run.key) →
      ∀ a∈u'.newAllocations, a.functionRunKey≠run.key := by
    intro hnone a ha
    rcases h.added a ha with hold | hother
    · exact hnone a hold
    · exact hother
  cases x with
  | allocated =>
    obtain ⟨hlist,hblocked,a,ha,hkey,hrun⟩ := hx
    exact ⟨h.lists.mpr hlist,mt h.blocked.mp hblocked,a,h.kept a ha,hkey,h.snapshot _ hrun⟩
  | blocked => exact ⟨mt h.lists.mp hx.1,h.blocked.mpr hx.2.1,hadded hx.2.2⟩
  | unsatisfiable =>
    exact ⟨h.lists.mpr hx.1,h.fails hx.2.1,h.snapshot _ hx.2.2.1,hadded hx.2.2.2⟩
  | skipped =>
    exact ⟨mt h.lists.mp hx.1,mt h.blocked.mp hx.2.1,h.fails hx.2.2.1,hadded hx.2.2.2⟩

/-- The books of a pass over the runs done so far: contexts are cached under their keys, written
snapshots are the cached contexts, only requests found unsatisfiable have an outcome, and every
run that was done is in a situation. -/
structure Ledger (done : List FunctionRun) (p : Pass) : Prop where
  cached : ∀ {k c}, p.requestCtxCache.lookup k = some c →
    c.key = k ∧ (k∉p.terminalRequests → c.outcome=none)
  snapshot : ∀ {k c}, p.update.updatedRequestStates.lookup k = some c → p.requestCtxCache.lookup k = some c
  terminal : ∀ {k}, k∈p.terminalRequests → p.update.FailsRequest k
  listed : ∀ {k id}, p.update.listsRun k id → ∃ r∈done, r.requestCtxKey=k ∧ r.id=id
  allocated : ∀ a∈p.update.newAllocations, ∃ r∈done, a.functionRunKey=r.key
  settled : ∀ r∈done, ∃ x, InSituation p.update p.scheduler.blockedWork r x

section
variable {state : InMemoryState} {done : List FunctionRun} {p p' : Pass} {run : FunctionRun}

lemma ledger_start (s : ContainerScheduler) (cache : FeasibilityCache) :
    Ledger [] {scheduler := s, cache := cache} where
  cached h := by cases h
  snapshot h := by cases h
  terminal h := absurd h (Finset.notMem_empty _)
  listed h := absurd h not_mem_nil
  allocated _ h := absurd h not_mem_nil
  settled _ h := absurd h not_mem_nil

lemma key_eq_of_ids {r : FunctionRun} (hk : r.requestCtxKey=run.requestCtxKey)
    (hid : r.id=run.id) : r.key=run.key := by
  rw [FunctionRun.key_eq_requestCtxKey_append,FunctionRun.key_eq_requestCtxKey_append,hk,hid]

lemma Ledger.fresh (h : Ledger done p) (hfresh : ∀ r∈done, r.key≠run.key) :
    ¬p.update.listsRun run.requestCtxKey run.id ∧
      ∀ a∈p.update.newAllocations, a.functionRunKey≠run.key := by
  constructor
  · intro hlist
    obtain ⟨r,hr,hk,hid⟩ := h.listed hlist
    exact hfresh r hr (key_eq_of_ids hk hid)
  intro a ha hkey
  obtain ⟨r,hr,hkey'⟩ := h.allocated a ha
  exact hfresh r hr (hkey'.symm.trans hkey)

lemma exists_mem_snoc {P : FunctionRun → Prop} (h : ∃ r∈done, P r) : ∃ r ∈ done++[run], P r :=
  h.imp fun _ => And.imp_left (mem_append_left _)

lemma Ledger.snoc_settled (h : Ledger done p)
    (hsame : ∀ r∈done, SameFor r p.update p'.update p.scheduler.blockedWork p'.scheduler.blockedWork)
    {x : Situation} (hx : InSituation p'.update p'.scheduler.blockedWork run x) :
    ∀ r ∈ done++[run], ∃ x, InSituation p'.update p'.scheduler.blockedWork r x := by
  intro r hr
  rcases mem_append.mp hr with hr | hr
  · obtain ⟨y,hy⟩ := h.settled r hr
    exact ⟨y,(hsame r hr).inSituation hy⟩
  · rw [mem_singleton.mp hr]
    exact ⟨x,hx⟩

lemma Ledger.skip (h : Ledger done p) (hfresh : ∀ r∈done, r.key≠run.key)
    (hterminal : run.requestCtxKey∈p.terminalRequests) : Ledger (done++[run]) p where
  cached := h.cached
  snapshot := h.snapshot
  terminal := h.terminal
  listed hl := exists_mem_snoc (h.listed hl)
  allocated a ha := exists_mem_snoc (h.allocated a ha)
  settled := by
    obtain ⟨hlist,hnew⟩ := h.fresh hfresh
    have hsame : ∀ r∈done, SameFor r p.update p.update p.scheduler.blockedWork
        p.scheduler.blockedWork := fun r _ =>
      ⟨Iff.rfl,fun _ hr => hr,id,Iff.rfl,fun _ ha => ha,fun _ ha => .inl ha⟩
    by_cases hb : run.key∈p.scheduler.blockedWork.functionRuns.blocked
    · exact h.snoc_settled hsame (x := .blocked) ⟨hlist,hb,hnew⟩
    · exact h.snoc_settled hsame (x := .skipped) ⟨hlist,hb,h.terminal hterminal,hnew⟩

/-- The run is blocked: no run or request is written, and a context may have been cached. -/
structure Blocks (p p' : Pass) (run : FunctionRun) : Prop where
  states : p'.update.updatedRequestStates=p.update.updatedRequestStates
  lists : p'.update.updatedFunctionRuns=p.update.updatedFunctionRuns
  new : p'.update.newAllocations=p.update.newAllocations
  tracker : ∃ info, p'.scheduler.blockedWork = p.scheduler.blockedWork.blockFunctionRun run.key info
  terminal : p'.terminalRequests=p.terminalRequests
  keeps : ∀ {k c}, p.requestCtxCache.lookup k = some c → p'.requestCtxCache.lookup k = some c
  adds : ∀ {k c}, p'.requestCtxCache.lookup k = some c →
    p.requestCtxCache.lookup k = some c ∨ c.key=k ∧ c.outcome=none

lemma mem_blocked_blockFunctionRun (t : BlockedWorkTracker) (key key' : FunctionRunKey)
    (info : BlockingInfo) :
    key' ∈ (t.blockFunctionRun key info).functionRuns.blocked ↔
      key' = key ∨ key'∈t.functionRuns.blocked := by
  rw [← AList.lookup_isSome,← AList.lookup_isSome]
  unfold BlockedWorkTracker.blockFunctionRun
  rw [BlockedWork.lookup_block]
  split_ifs with hk <;> simp [hk]

lemma mem_blocked_removeFunctionRun (t : BlockedWorkTracker) (key key' : FunctionRunKey) :
    key' ∈ (t.removeFunctionRun key).functionRuns.blocked ↔ key' ≠ key ∧ key'∈t.functionRuns.blocked := by
  rw [← AList.lookup_isSome,← AList.lookup_isSome]
  unfold BlockedWorkTracker.removeFunctionRun
  rw [BlockedWork.lookup_remove]
  split_ifs with hk <;> simp [hk]

lemma Ledger.block (h : Ledger done p) (hfresh : ∀ r∈done, r.key≠run.key)
    (hb : Blocks p p' run) : Ledger (done++[run]) p' := by
  obtain ⟨info,htracker⟩ := hb.tracker
  have hlists : ∀ k id, p'.update.listsRun k id ↔ p.update.listsRun k id := by
    intro k id
    rw [listsRun,listsRun,hb.lists]
  have hsnapshot : ∀ k id, p'.update.snapshotRun k id = p.update.snapshotRun k id := by
    intro k id
    rw [snapshotRun,snapshotRun,hb.states]
  have hfails : ∀ k, p'.update.FailsRequest k ↔ p.update.FailsRequest k := by
    intro k
    rw [FailsRequest,FailsRequest,hb.states]
  constructor
  · intro k c hc
    rw [hb.terminal]
    rcases hb.adds hc with hold | hnew
    · exact h.cached hold
    · exact ⟨hnew.1,fun _ => hnew.2⟩
  · intro k c hc
    rw [hb.states] at hc
    exact hb.keeps (h.snapshot hc)
  · intro k hk
    rw [hb.terminal] at hk
    exact (hfails k).mpr (h.terminal hk)
  · exact fun hl => exists_mem_snoc (h.listed ((hlists _ _).mp hl))
  · intro a ha
    exact exists_mem_snoc (h.allocated a (hb.new ▸ ha))
  · obtain ⟨hlist,hnew⟩ := h.fresh hfresh
    refine h.snoc_settled ?_ (x := .blocked) ⟨mt (hlists _ _).mp hlist,?_,?_⟩
    · intro r hr
      refine ⟨hlists _ _,fun x hx => (hsnapshot _ _).trans hx,(hfails _).mpr,?_,?_,?_⟩
      · rw [htracker,mem_blocked_blockFunctionRun]
        exact or_iff_right (hfresh r hr)
      · exact fun a ha => hb.new ▸ ha
      · exact fun a ha => .inl (hb.new ▸ ha)
    · rw [htracker,mem_blocked_blockFunctionRun]
      exact .inl rfl
    · rw [hb.new]
      exact hnew

/-- One run of an open request is written, with the context of the request. -/
structure Writes (p p' : Pass) (run : FunctionRun) (ctx ctx' : RequestCtx) (r' : FunctionRun) : Prop where
  known : ∀ c, p.requestCtxCache.lookup run.requestCtxKey = some c → c=ctx
  isOpen : run.requestCtxKey∉p.terminalRequests
  key : ctx'.key=run.requestCtxKey
  runs : ctx'.functionRuns = ctx.functionRuns.insert run.id r'
  cache : ∀ k, p'.requestCtxCache.lookup k =
    if k=run.requestCtxKey then some ctx' else p.requestCtxCache.lookup k
  states : ∀ k, p'.update.updatedRequestStates.lookup k =
    if k=run.requestCtxKey then some ctx' else p.update.updatedRequestStates.lookup k
  lists : ∀ k id, p'.update.listsRun k id ↔ p.update.listsRun k id ∨ k=run.requestCtxKey ∧ id=run.id

section
variable {ctx ctx' : RequestCtx} {r' : FunctionRun}

lemma Writes.snapshotRun_self (hw : Writes p p' run ctx ctx' r') :
    p'.update.snapshotRun run.requestCtxKey run.id = some r' := by
  rw [snapshotRun,hw.states,if_pos rfl,Option.bind_some,hw.runs]
  exact AList.lookup_insert _

variable (h : Ledger done p) (hw : Writes p p' run ctx ctx' r')
include h hw

lemma Writes.sameFor {r : FunctionRun} (hne : r.key≠run.key)
    (hblocked : r.key∈p'.scheduler.blockedWork.functionRuns.blocked ↔
      r.key ∈ p.scheduler.blockedWork.functionRuns.blocked)
    (hkept : ∀ a∈p.update.newAllocations, a∈p'.update.newAllocations)
    (hadded : ∀ a∈p'.update.newAllocations, a ∈ p.update.newAllocations ∨ a.functionRunKey≠r.key) :
    SameFor r p.update p'.update p.scheduler.blockedWork p'.scheduler.blockedWork where
  lists := by
    rw [hw.lists]
    exact or_iff_left fun hids => hne (key_eq_of_ids hids.1 hids.2)
  snapshot x hx := by
    rw [snapshotRun,hw.states]
    split_ifs with hk
    · obtain ⟨c,hc,hcr⟩ := Option.bind_eq_some_iff.mp hx
      rw [hk] at hc
      obtain rfl := hw.known c (h.snapshot hc)
      have hid : r.id≠run.id := fun hid => hne (key_eq_of_ids hk hid)
      rw [Option.bind_some,hw.runs,AList.lookup_insert_ne hid]
      exact hcr
    · exact hx
  fails := by
    rintro ⟨c,hc,ho⟩
    have hk : r.requestCtxKey≠run.requestCtxKey := by
      intro hk
      rw [hk] at hc
      cases ho.symm.trans ((h.cached (h.snapshot hc)).2 hw.isOpen)
    refine ⟨c,?_,ho⟩
    rw [hw.states,if_neg hk]
    exact hc
  blocked := hblocked
  kept := hkept
  added := hadded

lemma Ledger.listed_write {k : RequestCtxKey} {id : FunctionCallId}
    (hl : p'.update.listsRun k id) : ∃ r ∈ done++[run], r.requestCtxKey=k ∧ r.id=id := by
  rcases (hw.lists k id).mp hl with hold | ⟨rfl,rfl⟩
  · exact exists_mem_snoc (h.listed hold)
  · exact ⟨run,mem_append_right _ (mem_singleton_self run),rfl,rfl⟩

lemma Ledger.snapshot_write {k : RequestCtxKey} {c : RequestCtx}
    (hc : p'.update.updatedRequestStates.lookup k = some c) : p'.requestCtxCache.lookup k = some c := by
  rw [hw.states] at hc
  rw [hw.cache]
  split_ifs at hc ⊢
  · exact hc
  · exact h.snapshot hc

omit hw

lemma Ledger.start (hfresh : ∀ r∈done, r.key≠run.key) {a : Allocation}
    (hw : Writes p p' run ctx ctx' {run with status := .running a.id})
    (hopen : ctx'.outcome=none) (hkey : a.functionRunKey=run.key)
    (hnew : p'.update.newAllocations = p.update.newAllocations++[a])
    (htracker : p'.scheduler.blockedWork = p.scheduler.blockedWork.removeFunctionRun run.key)
    (hterminal : p'.terminalRequests=p.terminalRequests) : Ledger (done++[run]) p' := by
  constructor
  · intro k c hc
    rw [hw.cache] at hc
    rw [hterminal]
    split_ifs at hc with hk
    · cases hc
      exact ⟨hw.key.trans hk.symm,fun _ => hopen⟩
    · exact h.cached hc
  · exact h.snapshot_write hw
  · intro k hk
    rw [hterminal] at hk
    obtain ⟨c,hc,ho⟩ := h.terminal hk
    have hne : k≠run.requestCtxKey := fun he => hw.isOpen (he ▸ hk)
    refine ⟨c,?_,ho⟩
    rw [hw.states,if_neg hne]
    exact hc
  · exact h.listed_write hw
  · intro b hb
    rw [hnew] at hb
    rcases mem_append.mp hb with hb | hb
    · exact exists_mem_snoc (h.allocated b hb)
    · rw [mem_singleton.mp hb]
      exact ⟨run,mem_append_right _ (mem_singleton_self run),hkey⟩
  · refine h.snoc_settled ?_ (x := .allocated) ⟨(hw.lists _ _).mpr (.inr ⟨rfl,rfl⟩),?_,a,?_,hkey,
      hw.snapshotRun_self⟩
    · intro r hr
      refine hw.sameFor h (hfresh r hr) ?_ ?_ ?_
      · rw [htracker,mem_blocked_removeFunctionRun]
        exact and_iff_right (hfresh r hr)
      · intro b hb
        rw [hnew]
        exact mem_append_left _ hb
      · intro b hb
        rw [hnew] at hb
        rcases mem_append.mp hb with hb | hb
        · exact .inl hb
        · rw [mem_singleton.mp hb,hkey]
          exact .inr (hfresh r hr).symm
    · rw [htracker,mem_blocked_removeFunctionRun]
      exact fun hb => hb.1 rfl
    · rw [hnew]
      exact mem_append_right _ (mem_singleton_self a)

lemma Ledger.fail (hfresh : ∀ r∈done, r.key≠run.key) (hw : Writes p p' run ctx ctx'
      {run with status := .completed, outcome := some (.failure .constraintUnsatisfiable)})
    (hfailed : ctx'.outcome = some (.failure .constraintUnsatisfiable))
    (hnew : p'.update.newAllocations=p.update.newAllocations)
    (htracker : p'.scheduler.blockedWork=p.scheduler.blockedWork)
    (hterminal : p'.terminalRequests = insert run.requestCtxKey p.terminalRequests) :
    Ledger (done++[run]) p' := by
  have hfails : p'.update.FailsRequest run.requestCtxKey :=
    ⟨ctx',by rw [hw.states,if_pos rfl],hfailed⟩
  constructor
  · intro k c hc
    rw [hw.cache] at hc
    rw [hterminal]
    split_ifs at hc with hk
    · cases hc
      exact ⟨hw.key.trans hk.symm,fun hn => absurd (hk ▸ Finset.mem_insert_self _ _) hn⟩
    · obtain ⟨hkey,ho⟩ := h.cached hc
      exact ⟨hkey,fun hn => ho fun hm => hn (Finset.mem_insert_of_mem hm)⟩
  · exact h.snapshot_write hw
  · intro k hk
    rw [hterminal] at hk
    by_cases hne : k=run.requestCtxKey
    · exact hne ▸ hfails
    obtain ⟨c,hc,ho⟩ := h.terminal ((Finset.mem_insert.mp hk).resolve_left hne)
    refine ⟨c,?_,ho⟩
    rw [hw.states,if_neg hne]
    exact hc
  · exact h.listed_write hw
  · intro a ha
    exact exists_mem_snoc (h.allocated a (hnew ▸ ha))
  · refine h.snoc_settled ?_ (x := .unsatisfiable) ⟨(hw.lists _ _).mpr (.inr ⟨rfl,rfl⟩),hfails,
      hw.snapshotRun_self,?_⟩
    · intro r hr
      refine hw.sameFor h (hfresh r hr) (by rw [htracker]) ?_ ?_
      · exact fun a ha => hnew ▸ ha
      · exact fun a ha => .inl (hnew ▸ ha)
    · rw [hnew]
      exact (h.fresh hfresh).2

omit h
end

def OpenRequest (state : InMemoryState) (run : FunctionRun) : Prop :=
  ∃ c, state.requestCtx.lookup run.requestCtxKey = some c ∧ c.key=run.requestCtxKey ∧ c.outcome = none

instance (state : InMemoryState) (run : FunctionRun) : Decidable (OpenRequest state run) :=
  inferInstanceAs (Decidable (∃ c ∈ state.requestCtx.lookup run.requestCtxKey, _ ∧ _))

lemma Ledger.ctxOf (h : Ledger done p) (hopen : OpenRequest state run)
    (hk : run.requestCtxKey∉p.terminalRequests) :
    ∃ ctx, p.ctxOf state run.requestCtxKey = some ctx ∧ ctx.key=run.requestCtxKey ∧
      ctx.outcome = none ∧ ∀ c, p.requestCtxCache.lookup run.requestCtxKey = some c → c=ctx := by
  unfold Pass.ctxOf
  cases hcache : p.requestCtxCache.lookup run.requestCtxKey with
  | none =>
    obtain ⟨c,hc,hkey,hout⟩ := hopen
    exact ⟨c,hc,hkey,hout,by rintro c ⟨⟩⟩
  | some ctx =>
    obtain ⟨hkey,hout⟩ := h.cached hcache
    exact ⟨ctx,rfl,hkey,hout hk,by rintro c ⟨⟩; rfl⟩

section
variable {ctx : RequestCtx} {runs : List FunctionRun}
  (hkey : ctx.key=run.requestCtxKey) (hopen : run.requestCtxKey∉p.terminalRequests)
  (hknown : ∀ c, p.requestCtxCache.lookup run.requestCtxKey = some c → c=ctx)
include hkey hopen hknown

lemma writes_start {u : SchedulerUpdateRequest} {a : Allocation} (h : Ledger done p)
    (hout : ctx.outcome=none) (hu : Starts run ctx a u)
    (hcache : p'.requestCtxCache = p.requestCtxCache.insert run.requestCtxKey (ctx.withRunning run a.id))
    (hupdate : p'.update = p.update.extend u) :
    Writes p p' run ctx (ctx.withRunning run a.id) {run with status := .running a.id} where
  known := hknown
  isOpen := hopen
  key := hkey
  runs := rfl
  cache k := by rw [hcache,lookup_insert_if]
  states k := by
    rw [hupdate]
    unfold SchedulerUpdateRequest.extend
    rw [lookup_absorb,hu.updatedRequestStates,lookup_insert_if,hkey]
    split_ifs with hk
    · refine congrArg some (keepTerminal_eq ?_)
      intro e he
      rw [hk] at he
      rw [hknown e (h.snapshot he)]
      exact .inl hout
    · rfl
  lists k id := by
    rw [hupdate,listsRun,listsRun]
    unfold SchedulerUpdateRequest.extend
    rw [lookup_absorb,hu.updatedFunctionRuns,lookup_insert_if,hkey]
    split_ifs with hk
    · simp [unionIds,hk]
    · simp [hk]

lemma writes_failUnsatisfiable (hupdate : p'.update=p.update)
    (hcache : p'.requestCtxCache = p.requestCtxCache.insert run.requestCtxKey ctx) :
    let failed : FunctionRun := {run with
      status := .completed, outcome := some (.failure .constraintUnsatisfiable)}
    Writes p (p'.failUnsatisfiable run ctx) run ctx
      {ctx with
        outcome := some (.failure .constraintUnsatisfiable)
        functionRuns := ctx.functionRuns.insert run.id failed} failed where
  known := hknown
  isOpen := hopen
  key := hkey
  runs := rfl
  cache k := by
    change (p'.requestCtxCache.insert run.requestCtxKey _).lookup k = _
    rw [hcache,lookup_insert_if,lookup_insert_if]
    split_ifs <;> rfl
  states k := by
    change (p'.update.updatedRequestStates.insert ctx.key (keepTerminal _ _)).lookup k = _
    rw [lookup_insert_if,hkey,hupdate,keepTerminal_eq fun _ _ => .inr rfl]
  lists k id := by
    change id ∈ ((p'.update.updatedFunctionRuns.insert ctx.key
      (((p'.update.updatedFunctionRuns.lookup ctx.key).getD []).insert run.id)).lookup k).getD [] ↔ _
    rw [hupdate,hkey,lookup_insert_if,listsRun]
    split_ifs with hk
    · subst hk
      simp [or_comm]
    · simp [hk]

omit hkey hopen hknown

lemma fresh_of_nodup (h : ((done++run::runs).map FunctionRun.key).Nodup) : ∀ r∈done, r.key≠run.key := by
  intro r hr
  rw [map_append,map_cons] at h
  exact (nodup_append.mp h).2.2 _ (mem_map_of_mem hr) _ mem_cons_self

lemma nodup_left {more : List FunctionRun}
    (h : ((runs++more).map FunctionRun.key).Nodup) : (runs.map FunctionRun.key).Nodup := by
  rw [map_append] at h
  exact (nodup_append.mp h).1

variable [HashOrder ExecutorId]

lemma Ledger.blockSkipped {memoryMb : ℕ} {acc : Pass × Dict FunctionURI (List ExecutorClass)}
    (h : Ledger done acc.1) (hnodup : ((done++runs).map FunctionRun.key).Nodup) :
    Ledger (done++runs) (runs.foldl (Pass.blockSkipped state memoryMb) acc).1 := by
  induction runs generalizing done acc with
  | nil =>
    rw [append_nil]
    exact h
  | cons run runs ih =>
    have hrun : Ledger (done++[run]) (Pass.blockSkipped state memoryMb acc run).1 :=
      h.block (fresh_of_nodup hnodup) ⟨rfl,rfl,rfl,⟨_,rfl⟩,rfl,fun hc => hc,.inl⟩
    rw [append_cons] at hnodup ⊢
    exact ih hrun hnodup

variable [HashOrder ContainerId]

include hkey hopen hknown in
lemma Ledger.allocate (h : Ledger done p) (hfresh : ∀ r∈done, r.key≠run.key)
    (hout : ctx.outcome=none) (queueSize : ℕ) (draws : ℕ → AllocationDraw) (memoryMb : ℕ)
    (hok : (p.allocate state queueSize draws run memoryMb ctx).2 = .ok ()) :
    Ledger (done++[run]) (p.allocate state queueSize draws run memoryMb ctx).1 := by
  revert hok
  have hattempt := attempt_createAllocation state p.clearPlacement.scheduler
    p.clearPlacement.cache run ctx queueSize (draws p.clearPlacement.drawn)
  unfold Pass.allocate
  dsimp only
  rcases hr : createAllocation state p.clearPlacement.scheduler p.clearPlacement.cache run ctx
    queueSize (draws p.clearPlacement.drawn) with ⟨s',cache',ctx',r⟩
  rw [hr] at hattempt
  dsimp only at hattempt ⊢
  cases hattempt with
  | refused e hs =>
    have hwork : s'.blockedWork=p.scheduler.blockedWork :=
      congrArg Background.blockedWork hs
    cases e with
    | constraintUnsatisfiable reason version functionName =>
      intro _
      exact h.fail hfresh (writes_failUnsatisfiable hkey hopen hknown rfl rfl) rfl rfl hwork rfl
    | executorStateNotFound executorId
    | resources error => rintro ⟨⟩
  | full hs hu =>
    intro _
    have hwork : s'.blockedWork=p.scheduler.blockedWork :=
      congrArg Background.blockedWork hs
    simp only [hu.newAllocations]
    refine h.block hfresh ⟨updatedRequestStates_extend _ hu,updatedFunctionRuns_extend _ hu,
      newAllocations_extend _ hu,⟨_,congrArg (BlockedWorkTracker.blockFunctionRun · run.key _) hwork⟩,
      rfl,?_,?_⟩
    · intro k c hc
      change (p.requestCtxCache.insert run.requestCtxKey ctx).lookup k = some c
      rw [lookup_insert_if]
      split_ifs with hk
      · rw [hk] at hc
        rw [hknown c hc]
      · exact hc
    · intro k c hc
      rcases lookup_insert_cases hc with ⟨hk,rfl⟩ | ⟨-,hc⟩
      · exact .inr ⟨hkey.trans hk.symm,hout⟩
      · exact .inl hc
  | started a hs hu =>
    intro _
    simp only [hu.newAllocations]
    refine h.start hfresh (writes_start hkey hopen hknown h hout hu rfl rfl) hout hu.key ?_ hs rfl
    exact congrArg (p.update.newAllocations++·) hu.newAllocations

lemma Ledger.tryAllocateSingleRun (h : Ledger done p) (hfresh : ∀ r∈done, r.key≠run.key)
    (hopen : OpenRequest state run) (queueSize : ℕ) (draws : ℕ → AllocationDraw) (memoryMb : ℕ)
    (hok : (p.tryAllocateSingleRun state queueSize draws run memoryMb).2 = .ok ()) :
    Ledger (done++[run]) (p.tryAllocateSingleRun state queueSize draws run memoryMb).1 := by
  revert hok
  unfold Pass.tryAllocateSingleRun
  split_ifs with hfn hterminal
  · intro _
    exact h.block hfresh ⟨rfl,rfl,rfl,⟨_,rfl⟩,rfl,fun hc => hc,.inl⟩
  · intro _
    exact h.skip hfresh hterminal
  · obtain ⟨ctx,hctx,hkey,hout,hknown⟩ := h.ctxOf hopen hterminal
    rw [hctx]
    exact h.allocate hkey hterminal hknown hfresh hout queueSize draws memoryMb

lemma Ledger.allocateRuns (queueSize : ℕ) (draws : ℕ → AllocationDraw) (memoryMb : ℕ) (h : Ledger done p)
    (hopen : ∀ r∈runs, OpenRequest state r) (hnodup : ((done++runs).map FunctionRun.key).Nodup)
    (hok : (Pass.allocateRuns state queueSize draws memoryMb runs p).2 = .ok ()) :
    Ledger (done++runs) (Pass.allocateRuns state queueSize draws memoryMb runs p).1 := by
  induction runs generalizing done p with
  | nil =>
    rw [append_nil]
    exact h
  | cons run runs ih =>
    have hrun := h.tryAllocateSingleRun (fresh_of_nodup hnodup) (hopen run mem_cons_self)
      queueSize draws memoryMb
    revert hok hrun
    unfold Pass.allocateRuns
    rcases p.tryAllocateSingleRun state queueSize draws run memoryMb with ⟨p',e | _⟩
    · rintro ⟨⟩
    intro hok hrun
    rw [append_cons] at hnodup ⊢
    exact ih (hrun rfl) (fun r hr => hopen r (mem_cons_of_mem _ hr)) hnodup hok

def groupRuns (groups : List (ResourceProfile × List FunctionRun)) : List FunctionRun :=
  groups.flatMap Prod.snd

lemma Ledger.allocateGroups (queueSize : ℕ) (draws : ℕ → AllocationDraw)
    {groups rest : List (ResourceProfile × List FunctionRun)} (h : Ledger done p)
    (hopen : ∀ r ∈ groupRuns groups, OpenRequest state r)
    (hnodup : ((done++groupRuns groups).map FunctionRun.key).Nodup)
    (hok : (Pass.allocateGroups state queueSize draws groups p).2 = .ok rest) :
    ∃ tried, groups = tried++rest ∧ Ledger (done++groupRuns tried)
      (Pass.allocateGroups state queueSize draws groups p).1 := by
  induction groups generalizing done p with
  | nil =>
    cases hok
    refine ⟨[],rfl,?_⟩
    change Ledger (done++[]) p
    rw [append_nil]
    exact h
  | cons group groups ih =>
    obtain ⟨profile,runs⟩ := group
    have hruns : groupRuns ((profile,runs)::groups) = runs++groupRuns groups := rfl
    rw [hruns,← append_assoc] at hnodup
    have hopen' : ∀ r∈runs, OpenRequest state r := fun r hr =>
      hopen r (mem_append_left _ hr)
    have hgroup := h.allocateRuns queueSize draws profile.memoryMb hopen' (nodup_left hnodup)
    revert hok hgroup
    unfold Pass.allocateGroups
    rcases Pass.allocateRuns state queueSize draws profile.memoryMb runs p with ⟨p',e | _⟩
    · rintro ⟨⟩
    dsimp only
    split_ifs
    · rintro ⟨⟩ hgroup
      exact ⟨[(profile,runs)],rfl,by simpa [groupRuns] using hgroup⟩
    intro hok hgroup
    obtain ⟨tried,rfl,hledger⟩ := ih (hgroup rfl)
      (fun r hr => hopen r (mem_append_right _ hr)) hnodup hok
    refine ⟨(profile,runs)::tried,rfl,?_⟩
    rw [append_assoc] at hledger
    exact hledger

omit [HashOrder ContainerId] in
lemma Ledger.blockSkippedGroups {groups : List (ResourceProfile × List FunctionRun)}
    (h : Ledger done p) (hnodup : ((done++groupRuns groups).map FunctionRun.key).Nodup) :
    Ledger (done++groupRuns groups) (Pass.blockSkippedGroups state groups p) := by
  unfold Pass.blockSkippedGroups
  generalize hacc : (p,(∅ : Dict FunctionURI (List ExecutorClass))) = acc
  replace h : Ledger done acc.1 := by
    rw [← hacc]
    exact h
  clear hacc
  induction groups generalizing done acc with
  | nil => simpa [groupRuns] using h
  | cons group groups ih =>
    have hruns : groupRuns (group::groups) = group.2++groupRuns groups := rfl
    rw [hruns,← append_assoc] at hnodup ⊢
    exact ih hnodup _ (h.blockSkipped (nodup_left hnodup))

omit [HashOrder ContainerId] [HashOrder ExecutorId] in
lemma Ledger.blockAll {s : ContainerScheduler} {cache : FeasibilityCache}
    (h : Ledger done {scheduler := s, cache := cache})
    (hnodup : ((done++runs).map FunctionRun.key).Nodup) :
    Ledger (done++runs) {scheduler := blockAll state s runs, cache := cache} := by
  induction runs generalizing done s with
  | nil =>
    rw [append_nil]
    exact h
  | cons run runs ih =>
    rw [append_cons] at hnodup ⊢
    refine ih (h.block ?_ ⟨rfl,rfl,rfl,⟨_,rfl⟩,rfl,fun hc => hc,.inl⟩) hnodup
    rw [← append_cons] at hnodup
    exact fresh_of_nodup hnodup

end

section
variable [HashOrder ResourceProfile] (state : InMemoryState) {runs : List FunctionRun}

/-- The order in which the groups and then the runs without a profile are taken. -/
def passOrder (runs : List FunctionRun) : List FunctionRun :=
  groupRuns (sortedGroups state runs)++runs.filter fun r => profileOf state r = none

lemma mem_passOrder {run : FunctionRun} : run ∈ passOrder state runs ↔ run∈runs := by
  unfold passOrder groupRuns sortedGroups
  simp only [mem_append,mem_flatMap,mem_map,mem_insertionSort,
    HashOrder.mem_toList,mem_toFinset,mem_filterMap,mem_filter]
  constructor
  · rintro (⟨_,⟨profile,-,rfl⟩,hr⟩ | hr)
    · exact (mem_filter.mp hr).1
    · exact hr.1
  intro hr
  cases hp : profileOf state run with
  | none => exact .inr ⟨hr,rfl⟩
  | some profile =>
    exact .inl ⟨_,⟨profile,⟨run,hr,hp⟩,rfl⟩,by simp [hr,hp]⟩

lemma nodup_passOrder (h : runs.Nodup) : (passOrder state runs).Nodup := by
  unfold passOrder groupRuns sortedGroups
  rw [nodup_append,nodup_flatMap]
  refine ⟨⟨?_,?_⟩,h.filter _,?_⟩
  · intro g hg
    obtain ⟨profile,-,rfl⟩ := mem_map.mp hg
    exact h.filter _
  · rw [pairwise_map]
    have hnodup : ((HashOrder.toList (runs.filterMap (profileOf state)).toFinset).insertionSort
        fun a b => profileLe a b).Nodup :=
      (perm_insertionSort _ _).nodup_iff.mpr (HashOrder.nodup_toList _)
    refine hnodup.imp fun {a b} hne => ?_
    intro r hra hrb
    have ha := (mem_filter.mp hra).2
    have hb := (mem_filter.mp hrb).2
    simp only [decide_eq_true_eq] at ha hb
    exact hne (Option.some.inj (ha.symm.trans hb))
  · intro r hr r' hr' he
    subst he
    obtain ⟨g,hg,hrg⟩ := mem_flatMap.mp hr
    obtain ⟨profile,-,rfl⟩ := mem_map.mp hg
    have hsome := (mem_filter.mp hrg).2
    have hnone := (mem_filter.mp hr').2
    simp only [decide_eq_true_eq] at hsome hnone
    cases hsome.symm.trans hnone

lemma nodup_keys_passOrder (h : (runs.map FunctionRun.key).Nodup) :
    ((passOrder state runs).map FunctionRun.key).Nodup := by
  refine (nodup_passOrder state h.of_map).map_on fun r hr r' hr' he => ?_
  exact inj_on_of_nodup_map h ((mem_passOrder state).mp hr) ((mem_passOrder state).mp hr') he

variable {state} [HashOrder ContainerId] [HashOrder ExecutorId]

lemma allocateFunctionRuns_ok (queueSize : ℕ) (draws : ℕ → AllocationDraw) (s : ContainerScheduler)
    (cache : FeasibilityCache) (runs : List FunctionRun)
    (h : (allocateFunctionRuns state queueSize draws s cache runs).2.isOk = true) :
    (allocateFunctionRuns state queueSize draws s cache runs).2 =
      .ok (allocateFunctionRuns state queueSize draws s cache runs).1.update := by
  revert h
  unfold allocateFunctionRuns
  split_ifs
  · exact fun _ => rfl
  dsimp only
  rcases Pass.allocateGroups state queueSize draws (sortedGroups state (runs.take maxRuns))
    {scheduler := s, cache := cache} with ⟨p,e | rest⟩
  · rintro ⟨⟩
  dsimp only
  rcases Pass.allocateRuns state queueSize draws 0
    ((runs.take maxRuns).filter fun r => profileOf state r = none)
    (Pass.blockSkippedGroups state rest p) with ⟨p',e | _⟩
  · rintro ⟨⟩
  · exact fun _ => rfl

lemma ledger_allocateFunctionRuns (queueSize : ℕ) (draws : ℕ → AllocationDraw) (s : ContainerScheduler)
    (cache : FeasibilityCache) (hlength : runs.length ≤ maxRuns)
    (hnodup : (runs.map FunctionRun.key).Nodup) (hopen : ∀ r∈runs, OpenRequest state r)
    (hok : (allocateFunctionRuns state queueSize draws s cache runs).2.isOk = true) :
    ∃ done, (∀ r, r∈done ↔ r∈runs) ∧
      Ledger done (allocateFunctionRuns state queueSize draws s cache runs).1 := by
  have hkeys := nodup_keys_passOrder state hnodup
  have hopen' : ∀ r ∈ passOrder state runs, OpenRequest state r := fun r hr =>
    hopen r ((mem_passOrder state).mp hr)
  unfold passOrder at hkeys hopen'
  revert hok
  unfold allocateFunctionRuns
  split_ifs
  · exact fun _ => ⟨runs,fun _ => Iff.rfl,(ledger_start s cache).blockAll hnodup⟩
  rw [take_of_length_le hlength]
  dsimp only
  rcases hg : Pass.allocateGroups state queueSize draws (sortedGroups state runs)
    {scheduler := s, cache := cache} with ⟨p,e | rest⟩
  · rintro ⟨⟩
  obtain ⟨tried,htried,hledger⟩ := (ledger_start s cache).allocateGroups queueSize draws
    (fun r hr => hopen' r (mem_append_left _ hr)) (nodup_left hkeys)
    (congrArg Prod.snd hg)
  rw [hg] at hledger
  have hsplit : groupRuns (sortedGroups state runs) = groupRuns tried++groupRuns rest := by
    rw [htried,groupRuns,flatMap_append]
    rfl
  rw [hsplit] at hkeys
  have hskipped : Ledger (groupRuns tried++groupRuns rest)
      (Pass.blockSkippedGroups state rest p) :=
    hledger.blockSkippedGroups (nodup_left hkeys)
  have hfallback := hskipped.allocateRuns queueSize draws 0
    (fun r hr => hopen' r (mem_append_right _ hr)) hkeys
  revert hfallback
  dsimp only
  rcases Pass.allocateRuns state queueSize draws 0
    (runs.filter fun r => profileOf state r = none)
    (Pass.blockSkippedGroups state rest p) with ⟨p',e | _⟩
  · rintro - ⟨⟩
  intro hfallback _
  refine ⟨passOrder state runs,fun _ => mem_passOrder state,?_⟩
  unfold passOrder
  rw [hsplit]
  exact hfallback rfl

/-- After a pass that returns, every listed run is in exactly one situation: it runs on a new
allocation, it waits as blocked, it failed with its request because no constraint can be met, or
its request failed that way earlier in the pass. -/
theorem allocateFunctionRuns_situation (queueSize : ℕ) (draws : ℕ → AllocationDraw)
    (s : ContainerScheduler) (cache : FeasibilityCache) (runs : List FunctionRun)
    (hlength : runs.length ≤ maxRuns) (hnodup : (runs.map FunctionRun.key).Nodup)
    (hopen : ∀ r∈runs, OpenRequest state r) (u : SchedulerUpdateRequest)
    (hok : (allocateFunctionRuns state queueSize draws s cache runs).2 = .ok u) :
    ∀ run∈runs, ∃! x, InSituation u
      (allocateFunctionRuns state queueSize draws s cache runs).1.scheduler.blockedWork run x := by
  intro run hrun
  have hisOk : (allocateFunctionRuns state queueSize draws s cache runs).2.isOk = true := by
    rw [hok]
    rfl
  obtain ⟨done,hmem,hledger⟩ := ledger_allocateFunctionRuns queueSize draws s cache hlength
    hnodup hopen hisOk
  obtain ⟨x,hx⟩ := hledger.settled run ((hmem run).mpr hrun)
  cases hok.symm.trans (allocateFunctionRuns_ok queueSize draws s cache runs hisOk)
  exact ⟨x,hx,fun y hy => hy.unique hx⟩

end
end

instance : LinearOrder ResourceProfile :=
  LinearOrder.lift' (fun p => toLex (p.cpuMsPerSec,toLex (p.memoryMb,toLex (p.diskMb,
    toLex (p.gpuCount,toLex (p.gpuModel.toList,p.placementConstraints)))))) (by
    rintro ⟨c,m,d,g,model,ps⟩ ⟨c',m',d',g',model',ps'⟩ h
    simp only [EmbeddingLike.apply_eq_iff_eq,Prod.mk.injEq] at h
    obtain ⟨rfl,rfl,rfl,rfl,hmodel,rfl⟩ := h
    cases model <;> cases model' <;> simp_all)

def waitingRun (name : String) : FunctionRun where
  id := ⟨name++"-1"⟩
  requestId := "request-1"
  «namespace» := "default"
  application := "app"
  version := "1"
  name := name
  computeOp := .functionCall ⟨⟨name++"-1"⟩,[],name,[],none⟩
  inputArgs := []
  childFunctionCall := none
  output := none
  status := .pending
  outcome := none
  attemptNumber := 0
  callMetadata := []
  requestError := none

def waitingRuns : List FunctionRun := [waitingRun "answer",waitingRun "train"]

def waitingCtx : RequestCtx where
  «namespace» := "default"
  applicationName := "app"
  applicationVersion := "1"
  requestId := "request-1"
  outcome := none
  requestError := none
  functionRuns := Dict.insertAll FunctionRun.id ∅ waitingRuns
  functionCalls := ∅

def waitingVersion (state : ApplicationState) : ApplicationVersion where
  «namespace» := "default"
  name := "app"
  version := "1"
  functions := AList.insert "answer" smallFunction (AList.insert "train"
    ⟨"train",[],none,1000,⟨1000,4096,1024,[]⟩,⟨0⟩,1⟩ ∅)
  state := state

def waitingState (state : ApplicationState) : InMemoryState where
  applicationVersions := AList.insert "default|app|1" (waitingVersion state) ∅
  functionRuns := Dict.insertAll FunctionRun.key ∅ waitingRuns
  requestCtx := AList.insert ⟨"default|app|request-1"⟩ waitingCtx ∅

def waitingDraws (n : ℕ) : AllocationDraw :=
  if n=0 then ⟨⟨⟨"container-1"⟩,0,10⟩,⟨"alloc-1"⟩⟩ else ⟨⟨⟨"container-2"⟩,0,20⟩,⟨"alloc-2"⟩⟩

attribute [local instance] HashOrder.ascending

def waitingPass (state : ApplicationState) : Pass × Except CreateError SchedulerUpdateRequest :=
  allocateFunctionRuns (waitingState state) 2 waitingDraws (run (new ∅ ∅) joinOps) ∅ waitingRuns

/-- The first run starts and the second waits for memory. -/
theorem waitingRuns_situations : (waitingPass .active).1.scheduler.blockedWork.functionRuns.blocked.keys =
    [(waitingRun "train").key] ∧
    ∃ u, (waitingPass .active).2 = .ok u ∧
      u.newAllocations.map Allocation.functionRunKey = [(waitingRun "answer").key] ∧
      ∀ run∈waitingRuns, ∃! x, InSituation u
        (waitingPass .active).1.scheduler.blockedWork run x := by
  have hok := @allocateFunctionRuns_ok _ (waitingState .active) _ _ 2 waitingDraws
    (run (new ∅ ∅) joinOps) ∅ waitingRuns (by decide +kernel)
  refine ⟨by decide +kernel,_,hok,by decide +kernel,?_⟩
  exact @allocateFunctionRuns_situation _ (waitingState .active) _ _ 2 waitingDraws _ ∅
    waitingRuns (by decide) (by decide) (by decide) _ hok

/-- In a disabled application the first run fails the request. The second one, of another
function, is then neither started, tracked as blocked nor failed. -/
theorem waitingRuns_leave_one_pending :
    (∀ run∈waitingRuns, run.status=.pending ∧ OpenRequest (waitingState (.disabled "")) run) ∧
      ∃ u, (waitingPass (.disabled "")).2 = .ok u ∧ u.newAllocations = [] ∧
        ¬u.listsRun (waitingRun "train").requestCtxKey (waitingRun "train").id ∧
        u.snapshotRun (waitingRun "train").requestCtxKey (waitingRun "train").id = some (waitingRun "train") ∧
        (waitingRun "train").key ∉
          (waitingPass (.disabled "")).1.scheduler.blockedWork.functionRuns.blocked := by
  have hok := @allocateFunctionRuns_ok _ (waitingState (.disabled "")) _ _ 2 waitingDraws
    (run (new ∅ ∅) joinOps) ∅ waitingRuns (by decide +kernel)
  refine ⟨by decide,_,hok,?_,?_,?_,by decide +kernel⟩
  · exact eq_nil_of_length_eq_zero (by decide +kernel)
  · unfold listsRun
    decide +kernel
  · decide +kernel

end FunctionRunProcessor
end Indexify
