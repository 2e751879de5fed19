import Indexify.DataModel.Application

/-! The decision between retrying a run and completing it, taken from one allocation. -/
namespace Indexify
namespace FunctionRunRetryPolicy

def retries (run : FunctionRun) (reason : FunctionRunFailureReason)
    (applicationVersion : ApplicationVersion) : Bool :=
  match applicationVersion.functionRunMaxRetries run with
  | some maxRetries =>
    reason.isRetriable &&
      (run.attemptNumber < maxRetries || !reason.shouldCountAgainstFunctionRunRetryAttempts)
  | none => false

def handleAllocationFailure (run : FunctionRun) (reason : FunctionRunFailureReason)
    (applicationVersion : ApplicationVersion) : FunctionRun :=
  if retries run reason applicationVersion then
    {run with
      status := .pending
      attemptNumber :=
        if reason.shouldCountAgainstFunctionRunRetryAttempts then run.attemptNumber+1
        else run.attemptNumber}
  else {run with status := .completed, outcome := some (.failure reason)}

/-- An allocation without a final outcome leaves the run as it is. -/
def handleAllocationOutcome (run : FunctionRun) (allocation : Allocation)
    (applicationVersion : ApplicationVersion) : FunctionRun :=
  match allocation.outcome with
  | .success => {run with status := .completed, outcome := some allocation.outcome}
  | .failure reason => handleAllocationFailure run reason applicationVersion
  | .unknown => run

end FunctionRunRetryPolicy

namespace FunctionRun

def Settled (r : FunctionRun) : Prop :=
  r.status = .pending ∨ r.status=.completed ∧ ∃ reason, r.outcome = some (.failure reason)

lemma not_settled_of_running {r : FunctionRun} {id : AllocationId}
    (h : r.status = .running id) : ¬ r.Settled := by
  rintro (hp | ⟨hc,-⟩)
  · rw [h] at hp; cases hp
  · rw [h] at hc; cases hc

end FunctionRun

namespace FunctionRunRetryPolicy

lemma handleAllocationOutcome_sameIdentity (run : FunctionRun) (a : Allocation)
    (av : ApplicationVersion) : run.SameIdentity (handleAllocationOutcome run a av) := by
  unfold handleAllocationOutcome handleAllocationFailure
  cases a.outcome with
  | success
  | unknown => exact ⟨rfl,rfl,rfl,rfl⟩
  | failure reason => dsimp only; split_ifs <;> exact ⟨rfl,rfl,rfl,rfl⟩

lemma handleAllocationOutcome_settled (run : FunctionRun) (a : Allocation)
    (av : ApplicationVersion) (reason : FunctionRunFailureReason)
    (h : a.outcome = .failure reason) : (handleAllocationOutcome run a av).Settled := by
  simp only [handleAllocationOutcome,h,handleAllocationFailure]
  by_cases hr : retries run reason av
  · rw [if_pos hr]
    exact Or.inl rfl
  · rw [if_neg hr]
    exact Or.inr ⟨rfl,reason,rfl⟩

end FunctionRunRetryPolicy
end Indexify
