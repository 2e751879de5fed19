import Mathlib.Data.List.Nodup

/-! Forwarding of function calls. An id of an op counts as seen from the moment its call is looked
at, also if the call is then refused or cannot be sent. -/
namespace Indexify.Dataplane.FunctionCallReconciler
open List

structure ExecutionPlanUpdate where
  /-- The id of the function call or of the reduce. -/
  opId : Option String
  content : List UInt8
  deriving DecidableEq

/-- The id of an op. The empty text is no id. -/
def ExecutionPlanUpdate.id? (u : ExecutionPlanUpdate) : Option String :=
  u.opId.filter (·≠"")

def opIds (updates : Option (List ExecutionPlanUpdate)) : List String :=
  (updates.getD []).filterMap ExecutionPlanUpdate.id?

structure AllocationFunctionCall where
  id : Option String
  updates : Option (List ExecutionPlanUpdate)

inductive Status
  | ok
  | error (code : ℕ) (message : String)
  deriving DecidableEq

/-- An answer, with the call that it answers and the updates that were left of the call. -/
structure CreationResult where
  call : AllocationFunctionCall
  updates : Option (List ExecutionPlanUpdate)
  status : Status

structure State where
  seenFunctionCallIds : List String := []
  seenOpIds : List String := []
  /-- The updates of the log entries that the channel took. -/
  handed : List (Option (List ExecutionPlanUpdate)) := []
  results : List CreationResult := []

def retain (seen : List String) : List ExecutionPlanUpdate → List ExecutionPlanUpdate × List String
  | [] => ([],seen)
  | u::us =>
    match u.id? with
    | none => ((retain seen us).1.cons u,(retain seen us).2)
    | some id =>
      if id∈seen then retain seen us
      else ((retain (seen++[id]) us).1.cons u,(retain (seen++[id]) us).2)

def send (size : ℕ) (updates : Option (List ExecutionPlanUpdate)) (taken : Bool) :
    Status × List (Option (List ExecutionPlanUpdate)) :=
  let count := (updates.getD []).length
  if updates = some [] then (.ok,[])
  else if 1024*1024<size then
    (.error 8 s!"Function call size {size} exceeds limit {1024*1024} bytes",[])
  else if 1000<count then
    (.error 8 s!"Execution plan update count {count} exceeds limit {1000}",[])
  else if taken then (.ok,[updates])
  else (.error 13 "Failed to send via allocation stream channel: channel closed",[])

variable (encodedLen : Option (List ExecutionPlanUpdate) → ℕ)

def reconcileFunctionCall (s : State) (e : AllocationFunctionCall × Bool) : State :=
  let fcId := e.1.id.getD ""
  if fcId="" ∨ fcId∈s.seenFunctionCallIds then s
  else
    let r := retain s.seenOpIds (e.1.updates.getD [])
    let updates := e.1.updates.map fun _ => r.1
    let sent := send (encodedLen updates) updates e.2
    { seenFunctionCallIds := s.seenFunctionCallIds++[fcId]
      seenOpIds := r.2
      handed := s.handed++sent.2
      results := s.results++[⟨e.1,updates,sent.1⟩] }

def reconcileFunctionCalls (s : State) (snapshot : List (AllocationFunctionCall × Bool)) : State :=
  snapshot.foldl (reconcileFunctionCall encodedLen) s

lemma retain_spec (seen : List String) (us : List ExecutionPlanUpdate) :
    (retain seen us).2 = seen++opIds (some (retain seen us).1) ∧
      (seen.Nodup → (retain seen us).2.Nodup) ∧ opIds (some us)⊆(retain seen us).2 := by
  induction us generalizing seen with
  | nil => exact ⟨(append_nil seen).symm,id,nil_subset _⟩
  | cons u us ih =>
    unfold retain
    cases hid : u.id? with
    | none =>
      have hids (us) : opIds (some (u::us)) = opIds (some us) := by simp [opIds,hid]
      rw [hids,hids]
      exact ih seen
    | some id =>
      have hids (us) : opIds (some (u::us)) = id::opIds (some us) := by simp [opIds,hid]
      dsimp only
      rw [hids,cons_subset]
      split_ifs with hseen
      · obtain ⟨happend,hnodup,hall⟩ := ih seen
        refine ⟨happend,hnodup,?_,hall⟩
        rw [happend]
        exact mem_append_left _ hseen
      · obtain ⟨happend,hnodup,hall⟩ := ih (seen++[id])
        refine ⟨?_,fun h => hnodup (concat_eq_append ▸ h.concat hseen),by simp [happend],hall⟩
        rw [hids,happend]
        exact (append_cons _ _ _).symm

lemma send_ids (size : ℕ) (updates : Option (List ExecutionPlanUpdate)) (taken : Bool) :
    (send size updates taken).2.flatMap opIds=
      if (send size updates taken).1=.ok then opIds updates else [] := by
  unfold send
  dsimp only
  split_ifs <;> simp_all [opIds]

def CreationResult.lost (r : CreationResult) : List String :=
  if r.status=.ok then [] else opIds r.updates

/-- Each id seen was handed over once or is lost. -/
structure Accounted (s : State) : Prop where
  seen : s.seenOpIds.Perm (s.handed.flatMap opIds++s.results.flatMap CreationResult.lost)
  nodup : s.seenOpIds.Nodup
  calls : ∀ r∈s.results, opIds r.call.updates⊆s.seenOpIds

variable {encodedLen}

lemma Accounted.step {s : State} (h : Accounted s) (e : AllocationFunctionCall × Bool) :
    Accounted (reconcileFunctionCall encodedLen s e) := by
  unfold reconcileFunctionCall
  dsimp only
  split
  · exact h
  have hids : opIds (e.1.updates.map fun _ => (retain s.seenOpIds (e.1.updates.getD [])).1)=
      opIds (some (retain s.seenOpIds (e.1.updates.getD [])).1) := by
    cases e.1.updates <;> rfl
  obtain ⟨hseen,hnodup,hall⟩ := retain_spec s.seenOpIds (e.1.updates.getD [])
  refine ⟨?_,hnodup h.nodup,?_⟩
  · rw [hseen,flatMap_append,flatMap_append,send_ids,flatMap_singleton,CreationResult.lost,hids]
    -- The new ids go to one of the two sides.
    split
    · rw [append_nil,append_assoc]
      refine (h.seen.append_right _).trans ?_
      rw [append_assoc]
      exact perm_append_comm.append_left _
    · rw [append_nil,← append_assoc]
      exact h.seen.append_right _
  · intro r hr
    obtain hr | hr := mem_append.1 hr
    · rw [hseen]
      exact Subset.trans (h.calls r hr) (subset_append_left _ _)
    · obtain rfl := mem_singleton.1 hr
      exact hall

lemma accounted_run (snapshots : List (List (AllocationFunctionCall × Bool))) :
    Accounted (snapshots.foldl (reconcileFunctionCalls encodedLen) {}) :=
  foldlRecOn snapshots _ ⟨.nil,nodup_nil,fun _ hr => nomatch hr⟩ fun _ h snapshot _ =>
    foldlRecOn snapshot _ h fun _ h e _ => h.step e

/-- In every run each id is handed over at most once, and the ids of a call that was answered with
success were all handed over exactly if none of them was first listed by a call that failed. -/
theorem ok_handed_over_iff (encodedLen : Option (List ExecutionPlanUpdate) → ℕ)
    (snapshots : List (List (AllocationFunctionCall × Bool))) :
    let s := snapshots.foldl (reconcileFunctionCalls encodedLen) {}
    (s.handed.flatMap opIds).Nodup ∧ ∀ r∈s.results, r.status=.ok →
      ((∀ id∈opIds r.call.updates, id∈s.handed.flatMap opIds) ↔
        ∀ r'∈s.results, r'.status≠.ok → ∀ id∈opIds r'.updates, id∉opIds r.call.updates) := by
  intro s
  have h : Accounted s := accounted_run snapshots
  obtain ⟨hnodup,-,hdisjoint⟩ := List.nodup_append'.1 (h.seen.nodup_iff.1 h.nodup)
  refine ⟨hnodup,fun r hr _ => ⟨fun hall r' hr' herror id hid hown => ?_,fun hnone id hid => ?_⟩⟩
  · refine hdisjoint (hall id hown) (mem_flatMap.2 ⟨r',hr',?_⟩)
    rwa [CreationResult.lost,if_neg herror]
  · obtain hhanded | hlost := mem_append.1 (h.seen.mem_iff.1 (h.calls r hr hid))
    · exact hhanded
    obtain ⟨r',hr',hid'⟩ := mem_flatMap.1 hlost
    unfold CreationResult.lost at hid'
    split at hid'
    · cases hid'
    next herror => exact absurd hid (hnone r' hr' herror id hid')

def oneOp (id op : String) : AllocationFunctionCall := ⟨id,some [⟨op,[]⟩]⟩

/-- The entry of the first call is not taken. The second call lists the same op and is answered with
success, although no entry was ever handed over. -/
theorem failed_op_answered_ok :
    let s := [[(oneOp "a" "op",false)],[(oneOp "b" "op",true)]].foldl
        (reconcileFunctionCalls fun _ => 0) {}
    s.results.map (·.status)=
      [.error 13 "Failed to send via allocation stream channel: channel closed",.ok] ∧
      s.handed=[] := by
  decide

end Indexify.Dataplane.FunctionCallReconciler
