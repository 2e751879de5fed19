import Indexify.DataModel.Sandboxes

/-! The update a scheduling step hands to the in-memory state, the container scheduler and
the store. Request contexts travel as whole snapshots: the ids listed as updated say which
runs of a snapshot are to be written. -/
namespace Indexify
open Dict

structure SchedulerUpdateRequest where
  newAllocations : List Allocation := []
  updatedAllocations : List Allocation := []
  updatedFunctionRuns : Dict RequestCtxKey (List FunctionCallId) := ∅
  updatedFunctionCalls : Dict RequestCtxKey (List FunctionCallId) := ∅
  updatedRequestStates : Dict RequestCtxKey RequestCtx := ∅
  removeExecutors : List ExecutorId := []
  updatedExecutorStates : Dict ExecutorId ExecutorServerMetadata := ∅
  containers : Dict ContainerId ContainerServerMetadata := ∅
  updatedSandboxes : Dict SandboxKey Sandbox := ∅
  updatedSnapshots : Dict SnapshotKey Snapshot := ∅
  newlyBlockedPools : Finset ContainerPoolKey := ∅

namespace SchedulerUpdateRequest
variable {u : SchedulerUpdateRequest} {key : RequestCtxKey} {p : RequestCtx → Prop}

/-- A terminal snapshot is kept against a later snapshot without an outcome. -/
def keepTerminal (existing : Option RequestCtx) (requestCtx : RequestCtx) : RequestCtx :=
  match existing with
  | some e => if e.outcome.isSome && requestCtx.outcome.isNone then e else requestCtx
  | none => requestCtx

lemma keepTerminal_cases (existing : Option RequestCtx) (requestCtx : RequestCtx) :
    some (keepTerminal existing requestCtx) = some requestCtx ∨
      existing = some (keepTerminal existing requestCtx) := by
  cases existing with
  | none => exact .inl rfl
  | some e =>
    unfold keepTerminal
    dsimp only
    split_ifs
    · exact .inr rfl
    · exact .inl rfl

def mergeRequestState (u : SchedulerUpdateRequest) (ctxKey : RequestCtxKey)
    (requestCtx : RequestCtx) : SchedulerUpdateRequest :=
  {u with
    updatedRequestStates := u.updatedRequestStates.insert ctxKey
      (keepTerminal (u.updatedRequestStates.lookup ctxKey) requestCtx)}

/-- Union of the id sets, as `entry(key).or_default().extend(ids)`. -/
def unionIds (existing : Option (List FunctionCallId)) (ids : List FunctionCallId) :
    List FunctionCallId := existing.getD [] ∪ ids

def extend (u other : SchedulerUpdateRequest) : SchedulerUpdateRequest where
  newAllocations := u.newAllocations++other.newAllocations
  updatedAllocations := u.updatedAllocations++other.updatedAllocations
  updatedFunctionRuns := absorb unionIds u.updatedFunctionRuns other.updatedFunctionRuns.entries
  updatedFunctionCalls :=
    absorb unionIds u.updatedFunctionCalls other.updatedFunctionCalls.entries
  updatedRequestStates :=
    absorb keepTerminal u.updatedRequestStates other.updatedRequestStates.entries
  removeExecutors := u.removeExecutors++other.removeExecutors
  updatedExecutorStates := other.updatedExecutorStates ∪ u.updatedExecutorStates
  containers := other.containers ∪ u.containers
  updatedSandboxes := other.updatedSandboxes ∪ u.updatedSandboxes
  updatedSnapshots := other.updatedSnapshots ∪ u.updatedSnapshots
  newlyBlockedPools := u.newlyBlockedPools ∪ other.newlyBlockedPools

def cancelAllocation (u : SchedulerUpdateRequest) (a : Allocation) : SchedulerUpdateRequest :=
  {u with updatedAllocations :=
    u.updatedAllocations++[{a with outcome := .failure .functionRunCancelled}]}

def addFunctionRun (u : SchedulerUpdateRequest) (run : FunctionRun) (ctx : RequestCtx) :
    SchedulerUpdateRequest × RequestCtx :=
  ({u with
      updatedFunctionRuns := u.updatedFunctionRuns.insert ctx.key
        (((u.updatedFunctionRuns.lookup ctx.key).getD []).insert run.id)},
    {ctx with functionRuns := ctx.functionRuns.insert run.id run})

def addRequestState (u : SchedulerUpdateRequest) (ctx : RequestCtx) : SchedulerUpdateRequest :=
  u.mergeRequestState ctx.key ctx

/-- All snapshots of the update are of the request with this key and satisfy `p`. -/
def Snapshots (u : SchedulerUpdateRequest) (key : RequestCtxKey) (p : RequestCtx → Prop) : Prop :=
  ∀ k c, u.updatedRequestStates.lookup k = some c → k=key ∧ p c

lemma Snapshots.of_states_eq {v : SchedulerUpdateRequest} (hu : u.Snapshots key p)
    (h : v.updatedRequestStates=u.updatedRequestStates) : v.Snapshots key p := by
  intro k c hc
  rw [h] at hc
  exact hu k c hc

lemma Snapshots.of_no_states (h : u.updatedRequestStates = ∅) : u.Snapshots key p := by
  intro k c hc
  rw [h] at hc
  cases hc

lemma Snapshots.extend {v : SchedulerUpdateRequest} (hu : u.Snapshots key p)
    (h : v.updatedRequestStates = ∅) : (u.extend v).Snapshots key p :=
  hu.of_states_eq (by simp [SchedulerUpdateRequest.extend,h,absorb])

lemma Snapshots.addRequestState {ctx : RequestCtx} (hu : u.Snapshots key p) (hkey : ctx.key=key)
    (hp : p ctx) : (u.addRequestState ctx).Snapshots key p := by
  intro k c hc
  simp only [SchedulerUpdateRequest.addRequestState,mergeRequestState,lookup_insert_if] at hc
  split_ifs at hc with hk
  · refine ⟨hk.trans hkey,?_⟩
    rcases keepTerminal_cases (u.updatedRequestStates.lookup ctx.key) ctx with he | he
    · cases he.symm.trans hc
      exact hp
    · exact (hu _ _ (he.trans hc)).2
  · exact hu _ _ hc

/-- The update carries at most one snapshot, of the request with this key, without an outcome. -/
def OnlyOpen (u : SchedulerUpdateRequest) (key : RequestCtxKey) : Prop :=
  u.Snapshots key fun c => c.outcome=none

lemma OnlyOpen.addRequestState_iff {ctx : RequestCtx} (hu : u.OnlyOpen ctx.key)
    {k : RequestCtxKey} {c : RequestCtx} :
    (u.addRequestState ctx).updatedRequestStates.lookup k = some c ↔ k=ctx.key ∧ c=ctx := by
  have hkeep : keepTerminal (u.updatedRequestStates.lookup ctx.key) ctx = ctx := by
    cases he : u.updatedRequestStates.lookup ctx.key with
    | none => rfl
    | some e => simp [keepTerminal,(hu _ _ he).2]
  simp only [addRequestState,mergeRequestState,lookup_insert_if,hkeep]
  split_ifs with hk
  · simp [hk,eq_comm]
  · exact ⟨fun h => absurd (hu _ _ h).1 hk,fun h => absurd h.1 hk⟩

def addFunctionCall (u : SchedulerUpdateRequest) (call : FunctionCall) (ctx : RequestCtx) :
    SchedulerUpdateRequest × RequestCtx :=
  ({u with
      updatedFunctionCalls := u.updatedFunctionCalls.insert ctx.key
        (((u.updatedFunctionCalls.lookup ctx.key).getD []).insert call.functionCallId)},
    {ctx with functionCalls := ctx.functionCalls.insert call.functionCallId call})

def snapshotRun (u : SchedulerUpdateRequest) (key : RequestCtxKey) (id : FunctionCallId) :
    Option FunctionRun :=
  (u.updatedRequestStates.lookup key).bind fun ctx => ctx.functionRuns.lookup id

def listsRun (u : SchedulerUpdateRequest) (key : RequestCtxKey) (id : FunctionCallId) : Prop :=
  id ∈ (u.updatedFunctionRuns.lookup key).getD []

end SchedulerUpdateRequest
end Indexify
