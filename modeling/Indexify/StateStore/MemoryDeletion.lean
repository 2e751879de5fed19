import Indexify.StateStore.InMemoryState

/-! What the deletion of a request leaves of the other requests in memory. Runs are found by the
first characters of their keys, and allocations by the ids of the function calls of those runs,
which clients choose. -/
namespace Indexify

abbrev RequestName := String × String × String

def FunctionRun.requestName (r : FunctionRun) : RequestName := (r.namespace,r.application,r.requestId)

def RequestCtx.requestName (c : RequestCtx) : RequestName :=
  (c.namespace,c.applicationName,c.requestId)

def Allocation.requestName (a : Allocation) : RequestName := (a.namespace,a.application,a.requestId)

namespace InMemoryState
open Dict List

def allocation (s : InMemoryState) (e : ExecutorId) (fe : ContainerId) (id : AllocationId) :
    Option Allocation :=
  ((s.allocationsByExecutor.lookup e).bind fun byFe => byFe.lookup fe).bind fun as => as.lookup id

/-- Requests of other names have the same runs, pending runs, contexts and allocations. -/
structure OthersKept (name : RequestName) (s s' : InMemoryState) : Prop where
  runs : ∀ k r, s.functionRuns.lookup k = some r → r.requestName≠name → s'.functionRuns.lookup k = some r
  pending : ∀ k r, s.functionRuns.lookup k = some r → r.requestName≠name →
    (k∈s'.unallocatedFunctionRuns ↔ k∈s.unallocatedFunctionRuns)
  contexts : ∀ k c, s.requestCtx.lookup k = some c → c.requestName≠name → s'.requestCtx.lookup k = some c
  allocations : ∀ e fe id a, s.allocation e fe id = some a → a.requestName≠name →
    s'.allocation e fe id = some a

lemma allocation_deleteRequest {s : InMemoryState} {ns app req : String} {e : ExecutorId}
    {fe : ContainerId} {id : AllocationId} {a : Allocation} :
    (s.deleteRequest ns app req).allocation e fe id = some a ↔ s.allocation e fe id = some a ∧
      ∀ d ∈ s.functionRunsOfRequest ns app req, d.id≠a.functionCallId := by
  obtain ⟨p,hdelete⟩ := s.deleteRequest_eq ns app req
  simp only [hdelete,allocation,Option.bind_eq_some_iff,lookup_mapValues_eq_some]
  constructor
  · rintro ⟨_,⟨_,⟨byFe,he,rfl⟩,hfe⟩,ha⟩
    obtain ⟨as,has,rfl⟩ := (lookup_mapValues_eq_some _ _ _ _).mp hfe
    obtain ⟨ha,hall⟩ := (lookup_retain_eq_some _ _ _ _).mp ha
    exact ⟨⟨as,⟨byFe,he,has⟩,ha⟩,by simpa using hall⟩
  · rintro ⟨⟨as,⟨byFe,he,has⟩,ha⟩,hall⟩
    exact ⟨_,⟨_,⟨byFe,he,rfl⟩,(lookup_mapValues_eq_some _ _ _ _).mpr ⟨as,has,rfl⟩⟩,
      (lookup_retain_eq_some _ _ _ _).mpr ⟨ha,by simpa using hall⟩⟩

/-- The other requests keep what they have exactly when none of them has a run or its context under
a deleted key, or an allocation for a function call with the id of a deleted run. -/
theorem deleteRequest_frame_iff (s : InMemoryState) (ns app req : String) :
    OthersKept (ns,app,req) s (s.deleteRequest ns app req) ↔
      (∀ d ∈ s.functionRunsOfRequest ns app req, ∀ r, s.functionRuns.lookup d.key = some r →
        r.requestName = (ns,app,req)) ∧
      (∀ c, s.requestCtx.lookup (RequestCtx.keyFrom ns app req) = some c → c.requestName = (ns,app,req)) ∧
      ∀ d ∈ s.functionRunsOfRequest ns app req, ∀ e fe id a, s.allocation e fe id = some a →
        d.id = a.functionCallId → a.requestName = (ns,app,req) := by
  obtain ⟨p,hdelete⟩ := s.deleteRequest_eq ns app req
  have hruns : ∀ k, (s.deleteRequest ns app req).functionRuns.lookup k =
      if ∃ d ∈ s.functionRunsOfRequest ns app req, d.key=k then none
      else s.functionRuns.lookup k := by
    rw [hdelete]
    exact lookup_foldl_erase FunctionRun.key _ _
  constructor
  · intro h
    refine ⟨fun d hd r hr => ?_,fun c hc => ?_,fun d hd e fe id a ha hid => ?_⟩ <;>
      by_contra hother
    · have hkept := h.runs d.key r hr hother
      rw [hruns,if_pos ⟨d,hd,rfl⟩] at hkept
      cases hkept
    · have hkept := h.contexts _ c hc hother
      rw [deleteRequest_requestCtx,AList.lookup_erase] at hkept
      cases hkept
    · exact (allocation_deleteRequest.mp (h.allocations e fe id a ha hother)).2 d hd hid
  rintro ⟨hkeys,hctx,hids⟩
  have hfree : ∀ k r, s.functionRuns.lookup k = some r → r.requestName ≠ (ns,app,req) →
      ¬∃ d ∈ s.functionRunsOfRequest ns app req, d.key=k := by
    rintro _ r hr hother ⟨d,hd,rfl⟩
    exact hother (hkeys d hd r hr)
  refine ⟨fun k r hr hother => ?_,fun k r hr hother => ?_,fun k c hc hother => ?_,
    fun e fe id a ha hother => ?_⟩
  · rw [hruns,if_neg (hfree k r hr hother),hr]
  · rw [hdelete]
    simpa using fun _ => hfree k r hr hother
  · rw [deleteRequest_requestCtx,AList.lookup_erase_ne (by rintro rfl; exact hother (hctx c hc)),hc]
  · exact allocation_deleteRequest.mpr ⟨ha,fun d hd hid => hother (hids d hd e fe id a ha hid)⟩

/-- A run of the request `r` of an application, for the same function call id in each of them. -/
def callRun (app : String) : FunctionRun :=
  ⟨⟨"call"⟩,"r","default",app,"1","answer",.functionCall ⟨⟨"call"⟩,[],"answer",[],none⟩,[],none,none,
    .pending,none,0,[],none⟩

def callAllocation (app : String) : Allocation :=
  ⟨⟨app⟩,⟨⟨"executor"⟩,⟨"container"⟩⟩,⟨"call"⟩,"default",app,"1","answer","r",.unknown,0,none,[],0,[]⟩

def twoCalls : InMemoryState where
  functionRuns := insertAll FunctionRun.key ∅ [callRun "a",callRun "b"]

theorem twoCalls_othersKept :
    OthersKept ("default","a","r") twoCalls (twoCalls.deleteRequest "default" "a" "r") := by
  refine (deleteRequest_frame_iff twoCalls "default" "a" "r").mpr ⟨?_,?_,?_⟩
  · decide +kernel
  · rintro c ⟨⟩
  · rintro d hd e fe id a ⟨⟩

/-- The request of the other application is running, and loses its allocation. -/
theorem shared_call_id_loses_allocation :
    let s : InMemoryState := {twoCalls with
      allocationsByExecutor := AList.insert ⟨"executor"⟩ (AList.insert ⟨"container"⟩
        (AList.insert ⟨"b"⟩ (callAllocation "b") ∅) ∅) ∅}
    s.allocation ⟨"executor"⟩ ⟨"container"⟩ ⟨"b"⟩ = some (callAllocation "b") ∧
      (s.deleteRequest "default" "a" "r").allocation ⟨"executor"⟩ ⟨"container"⟩ ⟨"b"⟩ = none := by
  decide +kernel

end InMemoryState
end Indexify
