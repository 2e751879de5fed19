import Mathlib.Data.String.Basic
import Indexify.Library.Enumeration
import Indexify.Library.Index
import Indexify.DataModel.Sandboxes
import Indexify.Scheduler.ExecutorClass

/-! Work whose placement failed, with the executor classes that could take it. Sandboxes and
function runs are tracked by two copies of one structure. -/
namespace Indexify

structure BlockingInfo where
  eligibleClasses : List ExecutorClass
  /-- Retried on any capacity change. -/
  escaped : Bool
  memoryMb : ℕ

structure BlockedWork (κ : Type) [DecidableEq κ] where
  blocked : Dict κ BlockingInfo := ∅
  byClass : Index ExecutorClass κ := ∅
  escaped : Finset κ := ∅

namespace BlockedWork
variable {κ : Type} [DecidableEq κ]

def removeFromIndexes (b : BlockedWork κ) (key : κ) : BlockedWork κ :=
  match b.blocked.lookup key with
  | some info =>
    {b with byClass := info.eligibleClasses.foldl (fun x c => x.remove c key) b.byClass}
  | none => b

def remove (b : BlockedWork κ) (key : κ) : BlockedWork κ :=
  let b := b.removeFromIndexes key
  {b with blocked := b.blocked.erase key, escaped := b.escaped.erase key}

/-- Blocking a key again replaces its earlier classes. -/
def block (b : BlockedWork κ) (key : κ) (info : BlockingInfo) : BlockedWork κ :=
  let b := b.remove key
  {blocked := b.blocked.insert key info
   byClass := info.eligibleClasses.foldl (fun x c => x.add c key) b.byClass
   escaped := if info.escaped then insert key b.escaped else b.escaped}

/-- The tracker, the budget that is left and the keys unblocked so far. -/
structure Unblocking (κ : Type) [DecidableEq κ] where
  tracker : BlockedWork κ
  remaining : ℕ
  keys : List κ := []

def takeEscaped (u : Unblocking κ) (key : κ) : Unblocking κ :=
  let memory := ((u.tracker.blocked.lookup key).map BlockingInfo.memoryMb).getD 0
  if u.remaining=0 then u
  else if memory ≤ u.remaining then
    let b := {u.tracker with escaped := u.tracker.escaped.erase key}
    let b := b.removeFromIndexes key
    {tracker := {b with blocked := b.blocked.erase key}
     remaining := u.remaining-memory
     keys := u.keys++[key]}
  else u

def takeWithinBudget (b : BlockedWork κ) (acc : ℕ × List κ) (key : κ) : ℕ × List κ :=
  if acc.1=0 then acc
  else
    match b.blocked.lookup key with
    | some info => if info.memoryMb ≤ acc.1 then (acc.1-info.memoryMb,acc.2++[key]) else acc
    | none => acc

def forget (b : BlockedWork κ) (key : κ) : BlockedWork κ :=
  let b := b.removeFromIndexes key
  {b with blocked := b.blocked.erase key}

variable [HashOrder κ]

def unblockEscaped (b : BlockedWork κ) (budget : ℕ) : Unblocking κ :=
  (HashOrder.toList b.escaped).foldl takeEscaped ⟨b,budget,[]⟩

def unblockClass (b : BlockedWork κ) (executorClass : ExecutorClass) (budget : ℕ) : Unblocking κ :=
  let taken := (HashOrder.toList (b.byClass.ids executorClass)).foldl b.takeWithinBudget (budget,[])
  ⟨taken.2.foldl forget b,taken.1,taken.2⟩

end BlockedWork

structure UnblockedWork where
  sandboxKeys : List SandboxKey := []
  functionRunKeys : List FunctionRunKey := []
  deriving DecidableEq

structure BlockedWorkTracker where
  sandboxes : BlockedWork SandboxKey := {}
  functionRuns : BlockedWork FunctionRunKey := {}

namespace BlockedWorkTracker
variable (t : BlockedWorkTracker)

def isEmpty : Bool :=
  t.sandboxes.blocked.entries.isEmpty && t.functionRuns.blocked.entries.isEmpty

def blockSandbox (key : SandboxKey) (info : BlockingInfo) :
    BlockedWorkTracker := {t with sandboxes := t.sandboxes.block key info}

def blockFunctionRun (key : FunctionRunKey) (info : BlockingInfo) :
    BlockedWorkTracker := {t with functionRuns := t.functionRuns.block key info}

def removeSandbox (key : SandboxKey) : BlockedWorkTracker :=
  {t with sandboxes := t.sandboxes.remove key}

def removeFunctionRun (key : FunctionRunKey) : BlockedWorkTracker :=
  {t with functionRuns := t.functionRuns.remove key}

variable [HashOrder SandboxKey] [HashOrder FunctionRunKey]

/-- Escaped work first, then the work of the class, within one budget. -/
def unblock (t : BlockedWorkTracker) (executorClass : ExecutorClass) (budgetMb : ℕ) :
    BlockedWorkTracker × UnblockedWork :=
  if t.isEmpty || budgetMb = 0 then (t,{})
  else
    let escapedSandboxes := t.sandboxes.unblockEscaped budgetMb
    let escapedRuns := t.functionRuns.unblockEscaped escapedSandboxes.remaining
    let sandboxes :=
      escapedSandboxes.tracker.unblockClass executorClass escapedRuns.remaining
    let functionRuns := escapedRuns.tracker.unblockClass executorClass sandboxes.remaining
    (⟨sandboxes.tracker,functionRuns.tracker⟩,
      {sandboxKeys := escapedSandboxes.keys++sandboxes.keys
       functionRunKeys := escapedRuns.keys++functionRuns.keys})

def unblockForClass (t : BlockedWorkTracker) (executorClass : ExecutorClass) (budgetMb : ℕ) :
    BlockedWorkTracker × UnblockedWork := t.unblock executorClass budgetMb

def unblockForFreedResources (t : BlockedWorkTracker) (executorClass : ExecutorClass)
    (freedMb : ℕ) : BlockedWorkTracker × UnblockedWork := t.unblock executorClass freedMb

end BlockedWorkTracker

-- for the iteration order of sample runs
instance : LinearOrder FunctionRunKey :=
  LinearOrder.lift' FunctionRunKey.get fun a b h => by cases a; cases b; cases h; rfl

instance : LinearOrder SandboxKey :=
  LinearOrder.lift' SandboxKey.get fun a b h => by cases a; cases b; cases h; rfl

end Indexify
