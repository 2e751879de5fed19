import Indexify.Library.Trace
import Indexify.StateStore.Payloads

/-! The in-memory state of function runs, request contexts and allocations, and how a
scheduler update is applied to it. A run is held twice: in `functionRuns` under its own key
and inside the context of its request. `WellFormed` says that the two copies agree. -/
namespace Indexify
open List Dict

structure ResourceProfile where
  cpuMsPerSec : ℕ
  memoryMb : ℕ
  diskMb : ℕ
  gpuCount : ℕ
  gpuModel : Option String
  placementConstraints : List String
  deriving DecidableEq

def ResourceProfile.fromFunction (function : Function) : ResourceProfile where
  cpuMsPerSec := function.resources.cpuMsPerSec
  memoryMb := function.resources.memoryMb
  diskMb := function.resources.ephemeralDiskMb
  gpuCount := (function.resources.gpuConfigs.head?.map fun g => g.count).getD 0
  gpuModel := function.resources.gpuConfigs.head?.map fun g => g.model
  placementConstraints :=
    (function.placementConstraints.map Expression.toString).mergeSort fun a b => decide (a ≤ b)

abbrev ResourceProfileHistogram := Dict ResourceProfile ℕ

namespace ResourceProfileHistogram

def increment (h : ResourceProfileHistogram) (profile : ResourceProfile) :
    ResourceProfileHistogram := h.insert profile ((h.lookup profile).getD 0+1)

/-- A profile whose count reaches zero is dropped, an unknown one is only logged. -/
def decrement (h : ResourceProfileHistogram) (profile : ResourceProfile) : ResourceProfileHistogram :=
  match h.lookup profile with
  | some count => if count-1 = 0 then h.erase profile else h.insert profile (count-1)
  | none => h

end ResourceProfileHistogram

structure PendingResources where
  functionRuns : ResourceProfileHistogram := ∅

structure InMemoryState where
  applications : Dict String Application := ∅
  applicationVersions : Dict String ApplicationVersion := ∅
  allocationsByExecutor : Dict ExecutorId (Dict ContainerId (Dict AllocationId Allocation)) := ∅
  unallocatedFunctionRuns : Finset FunctionRunKey := ∅
  functionRuns : Dict FunctionRunKey FunctionRun := ∅
  requestCtx : Dict RequestCtxKey RequestCtx := ∅
  pendingResources : PendingResources := {}

namespace InMemoryState
variable (s : InMemoryState)
variable (r : FunctionRun)

def getExistingApplicationVersion : Option ApplicationVersion :=
  s.applicationVersions.lookup (r.keyApplicationVersion r.application)

def getFunction : Option Function :=
  (s.getExistingApplicationVersion r).bind fun av => av.functions.lookup r.name

def incrementPending : InMemoryState :=
  match s.getFunction r with
  | some f => {s with pendingResources.functionRuns :=
      s.pendingResources.functionRuns.increment (.fromFunction f)}
  | none => s

def decrementPending : InMemoryState :=
  match s.getFunction r with
  | some f => {s with pendingResources.functionRuns :=
      s.pendingResources.functionRuns.decrement (.fromFunction f)}
  | none => s

/-- The pending set and the histogram follow the status of the run being written. -/
def trackPending : InMemoryState :=
  match decide (r.key∈s.unallocatedFunctionRuns),decide (r.status=.pending) with
  | false,true =>
    incrementPending {s with unallocatedFunctionRuns := insert r.key s.unallocatedFunctionRuns} r
  | true,false =>
    decrementPending {s with unallocatedFunctionRuns := s.unallocatedFunctionRuns.erase r.key} r
  | true,true => {s with unallocatedFunctionRuns := insert r.key s.unallocatedFunctionRuns}
  | false,false => {s with unallocatedFunctionRuns := s.unallocatedFunctionRuns.erase r.key}

def upsertFunctionRun : InMemoryState :=
  let s := s.trackPending r
  {s with functionRuns := s.functionRuns.insert r.key r}

def deleteFunctionRun : InMemoryState :=
  let wasPending := decide (r.key∈s.unallocatedFunctionRuns)
  let s := {s with
    functionRuns := s.functionRuns.erase r.key
    unallocatedFunctionRuns := s.unallocatedFunctionRuns.erase r.key}
  if wasPending then s.decrementPending r else s

/-- Allocations are matched by function call id alone. -/
def deleteFunctionRuns (runs : List FunctionRun) : InMemoryState :=
  let s := runs.foldl deleteFunctionRun s
  {s with allocationsByExecutor := s.allocationsByExecutor.mapValues fun _ byFe =>
    byFe.mapValues fun _ allocations =>
      allocations.retain fun _ a => runs.all fun r => r.id ≠ a.functionCallId}

/-- The runs whose key starts with the key of the request, as the ordered scan finds them. -/
def functionRunsOfRequest («namespace» application requestId : String) : List FunctionRun :=
  (s.functionRuns.retain fun k _ =>
    (FunctionRun.keyPrefixForRequest «namespace» application requestId).toList.isPrefixOf
      k.get.toList).values

def deleteRequest («namespace» application requestId : String) : InMemoryState :=
  let s := {s with
    requestCtx := s.requestCtx.erase (RequestCtx.keyFrom «namespace» application requestId)}
  s.deleteFunctionRuns (s.functionRunsOfRequest «namespace» application requestId)

end InMemoryState

/-- The listed runs that the snapshots of the update contain, in the order of the loop. -/
def SchedulerUpdateRequest.listedRuns (u : SchedulerUpdateRequest) : List FunctionRun :=
  u.updatedFunctionRuns.entries.flatMap fun e => e.2.filterMap (u.snapshotRun e.1)

namespace InMemoryState
variable (s : InMemoryState)

/-- A finished request leaves memory, any other snapshot replaces the context. -/
def writeRequestState (e : Sigma fun _ : RequestCtxKey => RequestCtx) : InMemoryState :=
  if e.2.outcome.isSome then
    s.deleteRequest e.2.namespace e.2.applicationName e.2.requestId
  else {s with requestCtx := s.requestCtx.insert e.1 e.2}

def insertAllocation (a : Allocation) : InMemoryState :=
  if a.functionRunKey∈s.functionRuns then
    let byFe := (s.allocationsByExecutor.lookup a.target.executorId).getD ∅
    let allocations := (byFe.lookup a.target.containerId).getD ∅
    {s with
      allocationsByExecutor := s.allocationsByExecutor.insert a.target.executorId
        (byFe.insert a.target.containerId (allocations.insert a.id a))}
  else s

def removeExecutorAllocations (id : ExecutorId) : InMemoryState :=
  {s with allocationsByExecutor := s.allocationsByExecutor.erase id}

def applyRuns (u : SchedulerUpdateRequest) : InMemoryState :=
  u.updatedRequestStates.entries.foldl writeRequestState (u.listedRuns.foldl upsertFunctionRun s)

def applySchedulerUpdate (u : SchedulerUpdateRequest) : InMemoryState :=
  u.removeExecutors.foldl removeExecutorAllocations
    (u.newAllocations.foldl insertAllocation (s.applyRuns u))

/-- An invoked request is stored with its runs, all of them waiting for an allocation. -/
def invokeApplication (ctx : RequestCtx) : InMemoryState :=
  ctx.functionRuns.values.foldl (fun s r => incrementPending {s with
    functionRuns := s.functionRuns.insert r.key r
    unallocatedFunctionRuns := insert r.key s.unallocatedFunctionRuns} r)
    {s with requestCtx := s.requestCtx.insert ctx.key ctx}

def changedExecutors (u : SchedulerUpdateRequest) : Finset ExecutorId :=
  (u.updatedAllocations.map fun a => a.target.executorId).toFinset ∪
    ((u.newAllocations.filter fun a => a.functionRunKey ∈ (s.applyRuns u).functionRuns).map
      fun a => a.target.executorId).toFinset ∪
    u.removeExecutors.toFinset

section
variable (s : InMemoryState) (r : FunctionRun)

lemma incrementPending_eq : ∃ p, s.incrementPending r = {s with pendingResources := p} := by
  unfold incrementPending
  cases s.getFunction r with
  | some f => exact ⟨_,rfl⟩
  | none => exact ⟨s.pendingResources,rfl⟩

lemma decrementPending_eq : ∃ p, s.decrementPending r = {s with pendingResources := p} := by
  unfold decrementPending
  cases s.getFunction r with
  | some f => exact ⟨_,rfl⟩
  | none => exact ⟨s.pendingResources,rfl⟩

lemma upsertFunctionRun_eq : ∃ q p, s.upsertFunctionRun r =
    {s with
      functionRuns := s.functionRuns.insert r.key r
      unallocatedFunctionRuns := q
      pendingResources := p} := by
  simp only [upsertFunctionRun,trackPending]
  split
  · obtain ⟨p,hp⟩ := incrementPending_eq {s with unallocatedFunctionRuns := _} r
    exact ⟨_,p,by rw [hp]⟩
  · obtain ⟨p,hp⟩ := decrementPending_eq {s with unallocatedFunctionRuns := _} r
    exact ⟨_,p,by rw [hp]⟩
  · exact ⟨_,_,rfl⟩
  · exact ⟨_,_,rfl⟩

lemma deleteFunctionRun_eq : ∃ p, s.deleteFunctionRun r =
    {s with
      functionRuns := s.functionRuns.erase r.key
      unallocatedFunctionRuns := s.unallocatedFunctionRuns.erase r.key
      pendingResources := p} := by
  simp only [deleteFunctionRun]
  split_ifs
  · exact decrementPending_eq _ r
  · exact ⟨_,rfl⟩

end

lemma foldl_upsertFunctionRun (runs : List FunctionRun) : ∃ q p, runs.foldl upsertFunctionRun s =
    {s with
      functionRuns := insertAll FunctionRun.key s.functionRuns runs
      unallocatedFunctionRuns := q
      pendingResources := p} := by
  induction runs generalizing s with
  | nil => exact ⟨_,_,rfl⟩
  | cons r runs ih =>
    obtain ⟨q,p,h⟩ := upsertFunctionRun_eq s r
    rw [foldl_cons,h]
    exact ih _

lemma foldl_deleteFunctionRun (runs : List FunctionRun) : ∃ p, runs.foldl deleteFunctionRun s =
    {s with
      functionRuns := runs.foldl (fun m r => m.erase r.key) s.functionRuns
      unallocatedFunctionRuns := s.unallocatedFunctionRuns \ (runs.map FunctionRun.key).toFinset
      pendingResources := p} := by
  induction runs generalizing s with
  | nil => exact ⟨s.pendingResources,by simp⟩
  | cons r runs ih =>
    obtain ⟨p,h⟩ := deleteFunctionRun_eq s r
    obtain ⟨p',h'⟩ := ih (s.deleteFunctionRun r)
    rw [h] at h'
    refine ⟨p',?_⟩
    rw [foldl_cons,h,h',map_cons,toFinset_cons,Finset.sdiff_insert,Finset.erase_sdiff_comm]
    rfl

lemma invokeApplication_frame (ctx : RequestCtx) :
    (s.invokeApplication ctx).requestCtx = s.requestCtx.insert ctx.key ctx ∧
      (s.invokeApplication ctx).applicationVersions = s.applicationVersions := by
  have hfree : ∀ (s : InMemoryState) r, (s.incrementPending r).requestCtx = s.requestCtx ∧
      (s.incrementPending r).applicationVersions = s.applicationVersions := by
    intro s r
    obtain ⟨p,hp⟩ := incrementPending_eq s r
    rw [hp]
    exact ⟨rfl,rfl⟩
  constructor
  · refine Trace.frame _ requestCtx (fun s r => ?_) _ _
    exact (hfree _ r).1
  · refine Trace.frame _ applicationVersions (fun s r => ?_) _ _
    exact (hfree _ r).2

lemma deleteRequest_eq (ns app req : String) :
    let runs := s.functionRunsOfRequest ns app req
    ∃ p, s.deleteRequest ns app req = {s with
      requestCtx := s.requestCtx.erase (RequestCtx.keyFrom ns app req)
      functionRuns := runs.foldl (fun m r => m.erase r.key) s.functionRuns
      unallocatedFunctionRuns := s.unallocatedFunctionRuns \ (runs.map FunctionRun.key).toFinset
      pendingResources := p
      allocationsByExecutor := s.allocationsByExecutor.mapValues fun _ byFe =>
        byFe.mapValues fun _ allocations =>
          allocations.retain fun _ a => runs.all fun r => r.id ≠ a.functionCallId} := by
  intro runs
  obtain ⟨p,he⟩ := foldl_deleteFunctionRun
    {s with requestCtx := s.requestCtx.erase (RequestCtx.keyFrom ns app req)} runs
  have hruns : functionRunsOfRequest
      {s with requestCtx := s.requestCtx.erase (RequestCtx.keyFrom ns app req)} ns app req = runs := rfl
  exact ⟨p,by simp only [deleteRequest,deleteFunctionRuns,hruns,he]⟩

lemma lookup_of_lookup_deleteRequest {s : InMemoryState} {ns app req : String} {k : FunctionRunKey}
    {r : FunctionRun} (h : (s.deleteRequest ns app req).functionRuns.lookup k = some r) :
    s.functionRuns.lookup k = some r := by
  obtain ⟨p,he⟩ := s.deleteRequest_eq ns app req
  rw [he] at h
  exact lookup_of_lookup_foldl_erase h

lemma deleteRequest_requestCtx (ns app req : String) : (s.deleteRequest ns app req).requestCtx =
    s.requestCtx.erase (RequestCtx.keyFrom ns app req) := by
  obtain ⟨p,he⟩ := s.deleteRequest_eq ns app req
  rw [he]

/-- Runs and contexts sit under their own keys, and the run table agrees with the contexts. -/
structure WellFormed (s : InMemoryState) : Prop where
  runs_keyed : ∀ {k r}, s.functionRuns.lookup k = some r → r.key=k
  ctx_keyed : ∀ {k c}, s.requestCtx.lookup k = some c → c.key=k
  ctx_runs : ∀ {k c id r}, s.requestCtx.lookup k = some c → c.functionRuns.lookup id = some r →
    r.id = id ∧ r.requestCtxKey=k
  agree : ∀ {k r c}, s.functionRuns.lookup k = some r →
    s.requestCtx.lookup r.requestCtxKey = some c → c.functionRuns.lookup r.id = some r

end InMemoryState

/-- The snapshots of the update are contexts of the state with some runs replaced, and every
replaced run is listed. -/
structure SchedulerUpdateRequest.Coherent (u : SchedulerUpdateRequest) (s : InMemoryState) : Prop where
  ctx_keyed : ∀ {k c}, u.updatedRequestStates.lookup k = some c → c.key=k
  ctx_runs : ∀ {k c id r}, u.updatedRequestStates.lookup k = some c →
    c.functionRuns.lookup id = some r → r.id=id ∧ r.requestCtxKey=k
  keeps : ∀ {k r c}, s.functionRuns.lookup k = some r →
    u.updatedRequestStates.lookup r.requestCtxKey = some c →
    ∃ r', c.functionRuns.lookup r.id = some r' ∧ (¬ u.listsRun r.requestCtxKey r.id → r'=r)

lemma SchedulerUpdateRequest.mem_listedRuns (u : SchedulerUpdateRequest) (r : FunctionRun) :
    r ∈ u.listedRuns ↔ ∃ k id, u.listsRun k id ∧ u.snapshotRun k id = some r := by
  simp only [listedRuns,mem_flatMap,mem_filterMap]
  constructor
  · rintro ⟨⟨k,ids⟩,he,id,hid,hr⟩
    refine ⟨k,id,?_,hr⟩
    rw [listsRun,(mem_entries_iff _ k ids).mp he]
    exact hid
  rintro ⟨k,id,hid,hr⟩
  unfold listsRun at hid
  cases hk : u.updatedFunctionRuns.lookup k with
  | none => simp [hk] at hid
  | some ids =>
    rw [hk] at hid
    exact ⟨⟨k,ids⟩,(mem_entries_iff _ k ids).mpr hk,id,hid,hr⟩

namespace InMemoryState
variable {s : InMemoryState} {u : SchedulerUpdateRequest}

lemma lookup_of_lookup_foldl_writeRequestState
    {es : List (Sigma fun _ : RequestCtxKey => RequestCtx)} {k : FunctionRunKey} {r : FunctionRun}
    (h : (es.foldl writeRequestState s).functionRuns.lookup k = some r) :
    s.functionRuns.lookup k = some r := by
  induction es generalizing s with
  | nil => exact h
  | cons e es ih =>
    have he := ih h
    unfold writeRequestState at he
    split_ifs at he
    · exact lookup_of_lookup_deleteRequest he
    · exact he

lemma lookup_requestCtx_foldl_writeRequestState (es : List (Sigma fun _ : RequestCtxKey => RequestCtx))
    (hes : es.NodupKeys) (hkey : ∀ e∈es, e.2.key=e.1) (s : InMemoryState) (k : RequestCtxKey) :
    (es.foldl writeRequestState s).requestCtx.lookup k = match es.dlookup k with
        | some c => if c.outcome.isSome then none else some c
        | none => s.requestCtx.lookup k := by
  induction es generalizing s with
  | nil => rfl
  | cons e es ih =>
    obtain ⟨k',c⟩ := e
    obtain ⟨hn,hes'⟩ := nodupKeys_cons.mp hes
    have hk' : c.key=k' := hkey ⟨k',c⟩ mem_cons_self
    rw [foldl_cons,ih hes' (fun e he => hkey e (mem_cons_of_mem _ he))]
    by_cases hk : k=k'
    · subst hk
      rw [dlookup_eq_none.mpr hn,dlookup_cons_eq]
      unfold writeRequestState
      dsimp only
      split_ifs
      · rw [deleteRequest_requestCtx,← hk']
        exact AList.lookup_erase _ _
      · exact AList.lookup_insert _
    rw [dlookup_cons_ne _ _ hk]
    have hctx : (writeRequestState s ⟨k',c⟩).requestCtx.lookup k = s.requestCtx.lookup k := by
      unfold writeRequestState
      split_ifs
      · rw [deleteRequest_requestCtx,← RequestCtx.key,hk']
        exact AList.lookup_erase_ne hk
      · exact AList.lookup_insert_ne hk
    rw [hctx]

variable (s)

lemma foldl_insertAllocation (as : List Allocation) :
    ∃ m, as.foldl insertAllocation s = {s with allocationsByExecutor := m} := by
  induction as generalizing s with
  | nil => exact ⟨_,rfl⟩
  | cons a as ih =>
    obtain ⟨m,hm⟩ : ∃ m, s.insertAllocation a = {s with allocationsByExecutor := m} := by
      unfold insertAllocation
      split_ifs
      · exact ⟨_,rfl⟩
      · exact ⟨s.allocationsByExecutor,rfl⟩
    rw [foldl_cons,hm]
    exact ih _

lemma foldl_removeExecutorAllocations (ids : List ExecutorId) :
    ∃ m, ids.foldl removeExecutorAllocations s = {s with allocationsByExecutor := m} := by
  induction ids generalizing s with
  | nil => exact ⟨_,rfl⟩
  | cons id ids ih => exact ih (s.removeExecutorAllocations id)

lemma applySchedulerUpdate_eq (u : SchedulerUpdateRequest) :
    ∃ m, s.applySchedulerUpdate u = {s.applyRuns u with allocationsByExecutor := m} := by
  obtain ⟨m,hm⟩ := foldl_insertAllocation (s.applyRuns u) u.newAllocations
  obtain ⟨m',hm'⟩ := foldl_removeExecutorAllocations
    {s.applyRuns u with allocationsByExecutor := m} u.removeExecutors
  exact ⟨m',by rw [applySchedulerUpdate,hm,hm']⟩

lemma applySchedulerUpdate_applicationVersions (u : SchedulerUpdateRequest) :
    (s.applySchedulerUpdate u).applicationVersions = s.applicationVersions := by
  have hwrite : ∀ (es : List (Sigma fun _ : RequestCtxKey => RequestCtx)) (s : InMemoryState),
      (es.foldl writeRequestState s).applicationVersions = s.applicationVersions := by
    intro es
    induction es with
    | nil => exact fun s => rfl
    | cons e es ih =>
      intro s
      rw [foldl_cons,ih]
      unfold writeRequestState
      split_ifs
      · obtain ⟨p,he⟩ := s.deleteRequest_eq e.2.namespace e.2.applicationName e.2.requestId
        rw [he]
      · rfl
  obtain ⟨m,hm⟩ := s.applySchedulerUpdate_eq u
  obtain ⟨q,p,he⟩ := foldl_upsertFunctionRun s u.listedRuns
  rw [hm]
  rw [applyRuns,hwrite,he]

variable {s}

lemma lookup_functionRuns_applySchedulerUpdate {k : FunctionRunKey} {r : FunctionRun}
    (h : (s.applySchedulerUpdate u).functionRuns.lookup k = some r) :
    (r∈u.listedRuns ∧ r.key=k) ∨ s.functionRuns.lookup k = some r ∧ ∀ r'∈u.listedRuns, r'.key≠k := by
  obtain ⟨m,hm⟩ := s.applySchedulerUpdate_eq u
  rw [hm] at h
  have h1 := lookup_of_lookup_foldl_writeRequestState h
  obtain ⟨q,p,he⟩ := foldl_upsertFunctionRun s u.listedRuns
  rw [he] at h1
  rcases lookup_insertAll FunctionRun.key s.functionRuns u.listedRuns k with
    ⟨v,hv,hk,hl⟩ | ⟨hn,hl⟩
  · cases hl.symm.trans h1
    exact .inl ⟨hv,hk⟩
  · exact .inr ⟨hl.symm.trans h1,hn⟩

lemma lookup_requestCtx_applySchedulerUpdate
    (hkey : ∀ {k c}, u.updatedRequestStates.lookup k = some c → c.key=k) (k : RequestCtxKey) :
    (s.applySchedulerUpdate u).requestCtx.lookup k = match u.updatedRequestStates.lookup k with
        | some c => if c.outcome.isSome then none else some c
        | none => s.requestCtx.lookup k := by
  obtain ⟨m,hm⟩ := s.applySchedulerUpdate_eq u
  obtain ⟨q,p,he⟩ := foldl_upsertFunctionRun s u.listedRuns
  rw [hm]
  rw [applyRuns,he,lookup_requestCtx_foldl_writeRequestState _ u.updatedRequestStates.nodupKeys]
  · rfl
  · intro e hmem
    exact hkey ((mem_entries_iff _ e.1 e.2).mp hmem)

lemma requestCtx_applySchedulerUpdate_cases
    (hkey : ∀ {k c}, u.updatedRequestStates.lookup k = some c → c.key=k) {k : RequestCtxKey}
    {c : RequestCtx} (h : (s.applySchedulerUpdate u).requestCtx.lookup k = some c) :
    u.updatedRequestStates.lookup k = some c ∨
      u.updatedRequestStates.lookup k = none ∧ s.requestCtx.lookup k = some c := by
  rw [lookup_requestCtx_applySchedulerUpdate hkey] at h
  cases hu : u.updatedRequestStates.lookup k with
  | none => rw [hu] at h; exact .inr ⟨rfl,h⟩
  | some c' =>
    rw [hu] at h
    dsimp only at h
    split_ifs at h
    exact .inl h

theorem WellFormed.applySchedulerUpdate (hs : s.WellFormed) (hu : u.Coherent s) :
    (s.applySchedulerUpdate u).WellFormed where
  runs_keyed h := by
    rcases lookup_functionRuns_applySchedulerUpdate h with ⟨-,hk⟩ | ⟨hr,-⟩
    · exact hk
    · exact hs.runs_keyed hr
  ctx_keyed h := by
    rcases requestCtx_applySchedulerUpdate_cases hu.ctx_keyed h with hc | ⟨-,hc⟩
    · exact hu.ctx_keyed hc
    · exact hs.ctx_keyed hc
  ctx_runs h hr := by
    rcases requestCtx_applySchedulerUpdate_cases hu.ctx_keyed h with hc | ⟨-,hc⟩
    · exact hu.ctx_runs hc hr
    · exact hs.ctx_runs hc hr
  agree {k r c} h hc := by
    rcases lookup_functionRuns_applySchedulerUpdate h with ⟨hl,hk⟩ | ⟨hr,hn⟩
    · -- a listed run comes from the snapshot of its own request
      obtain ⟨k',id,-,hsnap⟩ := (u.mem_listedRuns r).mp hl
      obtain ⟨c',hc',hr'⟩ := Option.bind_eq_some_iff.mp hsnap
      obtain ⟨rfl,rfl⟩ := hu.ctx_runs hc' hr'
      rcases requestCtx_applySchedulerUpdate_cases hu.ctx_keyed hc with hcc | ⟨hcn,-⟩
      · cases hc'.symm.trans hcc
        exact hr'
      · cases hc'.symm.trans hcn
    rcases requestCtx_applySchedulerUpdate_cases hu.ctx_keyed hc with hcc | ⟨-,hcc⟩
    · obtain ⟨r',hr',hsame⟩ := hu.keeps hr hcc
      by_cases hl : u.listsRun r.requestCtxKey r.id
      · exfalso
        obtain ⟨hid,hreq⟩ := hu.ctx_runs hcc hr'
        have hmem : r'∈u.listedRuns := by
          refine (u.mem_listedRuns r').mpr ⟨_,_,hl,?_⟩
          rw [SchedulerUpdateRequest.snapshotRun,hcc]
          exact hr'
        apply hn r' hmem
        rw [← hs.runs_keyed hr,r'.key_eq_requestCtxKey_append,r.key_eq_requestCtxKey_append,hid,hreq]
      · rw [hsame hl] at hr'
        exact hr'
    · exact hs.agree hr hcc

end InMemoryState
end Indexify
