import Indexify.Dataplane.AllocationProgress
import Mathlib.Algebra.BigOperators.Group.List.Basic

/-! The outcomes of the allocations: the tasks that report without a further command come to an end,
and then every allocation has its outcome, unless its container takes no allocation at all. -/
namespace Indexify.Dataplane
open List
namespace AllocationController
variable {s s' : AllocationController} {a : ManagedAllocation} (feId : String)

def taskWeight : Pending → ℕ
  | .startup _ => 1
  | .prepare _ => 5
  | .execute _ => 4
  | .finalize _ _ => 1
  | .terminated _ _ => 1

def stateWeight (a : ManagedAllocation) : ℕ :=
  match a.state with
  | .preparing => 1
  | .waitingForContainer | .waitingForSlot => 5
  | _ => 0

def potential (s : AllocationController) : ℕ :=
  (s.pending.map taskWeight).sum + s.allocations.total stateWeight

def taskOf : ControllerEvent → Option Pending
  | .startupComplete feId _ => some (.startup feId)
  | .containerTerminated feId reason => some (.terminated feId reason)
  | .prepared id _ => some (.prepare id)
  | .executionFinished id _ => some (.execute id)
  | .finalizationFinished id ctx _ => some (.finalize id ctx)
  | _ => none

def Completes (s : AllocationController) (e : ControllerEvent) : Prop :=
  s.stopped = false ∧ ∃ task, taskOf e = some task ∧ task∈s.pending

lemma potential_put (s : AllocationController) (id : String) (a : ManagedAllocation) :
    (s.put id a).potential + (s.allocations.lookup id).elim 0 stateWeight =
      s.potential + stateWeight a := by
  have hwrite := Dict.total_write s.allocations id stateWeight a
  unfold potential put
  dsimp only
  omega

lemma potential_announce (s : AllocationController) (notices : List Pending) :
    (s.announce notices).potential = s.potential + (notices.map taskWeight).sum := by
  unfold potential announce
  simp only [map_append,sum_append]
  omega

lemma potential_erase {task : Pending} (h : task∈s.pending) :
    ({s with pending := s.pending.erase task} : AllocationController).potential + taskWeight task =
      s.potential := by
  have herase := sum_map_erase taskWeight h
  unfold potential
  dsimp only
  omega

lemma potential_startFinalization {id : String} (ha : s.allocations.lookup id = some a)
    (result : AllocationResult) (ctx : FinalizationContext) (t : Option String) :
    (s.startFinalization id result ctx t).potential + stateWeight a = s.potential + 1 := by
  have hput := potential_put s id {a with state := .finalizing result t}
  rw [ha,Option.elim_some] at hput
  rw [startFinalization,ha]
  change ((s.put id {a with state := .finalizing result t}).announce [.finalize id ctx]).potential +
    _ = _
  rw [potential_announce]
  simp only [stateWeight,map_cons,map_nil,sum_cons,sum_nil,taskWeight] at hput ⊢
  omega

lemma stateWeight_of_isWaiting (h : a.state.isWaiting=true) : stateWeight a = 5 := by
  unfold stateWeight
  cases hst : a.state <;> rw [hst] at h <;> first | rfl | cases h

lemma stateWeight_of_isReady (h : a.state.isReady=true) : 1 ≤ stateWeight a := by
  unfold stateWeight
  cases hst : a.state <;> rw [hst] at h <;> first | decide | cases h

lemma potential_foldl {α : Type} {f : AllocationController → α → AllocationController}
    (hf : ∀ s x, (f s x).potential ≤ s.potential) (xs : List α) (s : AllocationController) :
    (xs.foldl f s).potential ≤ s.potential := by
  induction xs generalizing s with
  | nil => exact le_rfl
  | cons x xs ih => exact (ih (f s x)).trans (hf s x)

lemma potential_scheduleCandidate (s : AllocationController) (id : String) :
    (s.scheduleCandidate feId id).potential ≤ s.potential := by
  unfold scheduleCandidate
  cases ha : s.allocations.lookup id with
  | none => exact le_rfl
  | some a =>
    dsimp only
    split_ifs with hw
    · have hweight := stateWeight_of_isWaiting hw
      split
      · have hfin := potential_startFinalization ha
          (makeFailureResult a.allocation .internalError) .empty none
        omega
      next ctx hctx =>
        have hput := potential_put s id {a with state := .running ctx}
        rw [ha,Option.elim_some] at hput
        have hrun := potential_announce (s.put id {a with state := .running ctx}) [.execute id]
        refine hrun.trans_le ?_
        simp only [stateWeight,map_cons,map_nil,sum_cons,sum_nil,taskWeight]
          at hput hweight ⊢
        omega
    · exact le_rfl

variable (s)

lemma potential_trySchedule : s.trySchedule.potential ≤ s.potential := by
  refine potential_foldl (fun s feId => ?_) _ s
  unfold scheduleOn
  split
  · exact potential_foldl (potential_scheduleCandidate feId) _ _
  · exact le_rfl

lemma potential_done (s : AllocationController) (id : String) (a : ManagedAllocation) :
    (s.put id {a with state := .done}).potential ≤ s.potential := by
  have hput := potential_put s id {a with state := .done}
  have hdone : stateWeight {a with state := .done} = 0 := rfl
  omega

lemma potential_failAllocation (reason : Proto.AllocationFailureReason) (s : AllocationController)
    (id : String) : (failAllocation feId reason s id).potential ≤ s.potential := by
  unfold failAllocation
  cases ha : s.allocations.lookup id with
  | none => exact le_rfl
  | some a =>
    dsimp only
    split_ifs with hready
    · exact potential_done s id a
    · have hweight := stateWeight_of_isReady hready
      have hfin := potential_startFinalization (s := (s.takePrepared id).2) ha
        (makeFailureResult a.allocation reason) (s.takePrepared id).1 (some feId)
      change _ = s.potential + 1 at hfin
      omega
    · exact le_rfl

lemma potential_fail (feId : String) (fe : ManagedFE)
    (reason : ContainerTerminationReason) (failure : Proto.AllocationFailureReason) :
    ((s.terminate feId fe reason).failAllocationsForFe feId failure).potential ≤ s.potential :=
  potential_foldl (potential_failAllocation feId _) _ _

lemma potential_handleAllocationPrepared (id : String)
    (result : Option (Option MultipartUploadHandle)) :
    (s.handleAllocationPrepared id result).potential ≤ s.potential + 4 := by
  unfold handleAllocationPrepared
  cases ha : s.allocations.lookup id with
  | none => exact Nat.le_add_right _ _
  | some a =>
    dsimp only
    split_ifs with hst
    · have hfin : ∀ result ctx t, (s.startFinalization id result ctx t).potential ≤ s.potential + 4 := by
        intro result ctx t
        have hweight := potential_startFinalization ha result ctx t
        omega
      have henqueue : ∀ st ctx, st.isWaiting=true →
          (s.enqueue id a st ctx).potential ≤ s.potential + 4 := by
        intro st ctx hw
        have hput := potential_put s id {a with state := st}
        have hold : stateWeight a = 1 := by simp [stateWeight,hst]
        have hnew : stateWeight {a with state := st} = 5 := stateWeight_of_isWaiting hw
        rw [ha,Option.elim_some] at hput
        change (s.put id {a with state := st}).potential ≤ _
        omega
      cases result with
      | none => exact hfin _ _ _
      | some handle =>
        dsimp only
        split
        · exact (potential_trySchedule _).trans (henqueue _ _ rfl)
        · exact henqueue _ _ rfl
        · exact hfin _ _ _
        · exact hfin _ _ _
    · exact Nat.le_add_right _ _

lemma sum_crashNotice_le (outcome : ExecutionOutcome) :
    ((crashNotice feId outcome).map taskWeight).sum ≤ 1 := by
  unfold crashNotice
  split <;> simp [taskWeight]

lemma potential_handleAllocationExecutionFinished (id : String) (outcome : ExecutionOutcome) :
    (s.handleAllocationExecutionFinished id outcome).potential ≤ s.potential + 2 := by
  unfold handleAllocationExecutionFinished
  cases ha : s.allocations.lookup id with
  | none => exact Nat.le_add_right _ _
  | some a =>
    dsimp only
    split
    next ctx hst =>
      refine (potential_trySchedule _).trans ?_
      rw [potential_announce]
      have hcrash := sum_crashNotice_le a.feId outcome
      have hfin := potential_startFinalization (s := s.releaseSlot a.feId) ha
        ((s.releaseSlot a.feId).executionResult a ctx outcome).1
        ((s.releaseSlot a.feId).executionResult a ctx outcome).2 none
      change _ = s.potential + 1 at hfin
      omega
    next => exact Nat.le_add_right _ _

lemma potential_handleAllocationFinalizationFinished (id : String) (isSuccess : Bool) :
    (s.handleAllocationFinalizationFinished id isSuccess).potential ≤ s.potential := by
  unfold handleAllocationFinalizationFinished
  split
  · exact le_rfl
  next a ha =>
    split
    · exact potential_done s id a
    · exact le_rfl

lemma potential_handleContainerStartupComplete (feId : String) (result : Except StartupError Unit) :
    (s.handleContainerStartupComplete feId result).potential ≤ s.potential := by
  unfold handleContainerStartupComplete
  split
  · cases result with
    | ok => exact potential_trySchedule _
    | error e => exact potential_fail _ _ _ _ _
  · exact le_rfl

lemma potential_handleContainerTerminated (feId : String) (reason : ContainerTerminationReason) :
    (s.handleContainerTerminated feId reason).potential ≤ s.potential := by
  unfold handleContainerTerminated
  split
  · exact le_rfl
  split
  · exact le_rfl
  · exact potential_fail _ _ _ _ _

variable {s}

lemma potential_complete {task : Pending} {handler : AllocationController → AllocationController} {n : ℕ}
    (hmem : task∈s.pending) (hn : n<taskWeight task) (hh : ∀ s, (handler s).potential ≤ s.potential + n) :
    (s.complete task handler).potential + 1 ≤ s.potential := by
  have herase := potential_erase hmem
  have hhandler := hh {s with pending := s.pending.erase task}
  unfold complete
  rw [if_pos hmem]
  omega

lemma potential_step {e : ControllerEvent} (h : Completes s e) :
    (s.step e).potential + 1 ≤ s.potential := by
  obtain ⟨hst,task,htask,hmem⟩ := h
  unfold step
  rw [if_neg (by simp [hst])]
  cases e with
  | reconcile
  | killAllocation
  | shutdown => cases htask
  | startupComplete feId result =>
    cases htask
    exact potential_complete hmem Nat.one_pos
      fun s => potential_handleContainerStartupComplete s feId result
  | containerTerminated feId reason =>
    cases htask
    have herase := potential_erase hmem
    have hhandler := potential_handleContainerTerminated
      {s with pending := s.pending.erase (.terminated feId reason)} feId reason
    simp only [taskWeight] at herase
    unfold handle
    dsimp only
    omega
  | prepared id result =>
    cases htask
    exact potential_complete hmem (by simp [taskWeight]) fun s => potential_handleAllocationPrepared s id result
  | executionFinished id outcome =>
    cases htask
    exact potential_complete hmem (by simp [taskWeight])
      fun s => potential_handleAllocationExecutionFinished s id outcome
  | finalizationFinished id ctx isSuccess =>
    cases htask
    exact potential_complete hmem Nat.one_pos
      fun s => potential_handleAllocationFinalizationFinished s id isSuccess

lemma length_le_potential {es : List ControllerEvent} (h : Trace.Along step Completes s es) :
    es.length ≤ s.potential := by
  induction es generalizing s with
  | nil => exact Nat.zero_le _
  | cons e es ih =>
    have hstep := potential_step h.1
    have hrest := ih h.2
    rw [length_cons]
    omega

lemma orderly_run {recovered : Dict String ManagedFE}
    (h : ∀ feId fe, recovered.lookup feId = some fe → fe.state=.running)
    (es : List ControllerEvent) : ((new recovered).run es).Orderly := by
  have hnew : (new recovered).Orderly := .inr ⟨rfl,sound_new h⟩
  exact Trace.invariant (fun e h => h.step e) hnew es

lemma sent_of_idle {recovered : Dict String ManagedFE}
    (h : ∀ feId fe, recovered.lookup feId = some fe → fe.state=.running) (es : List ControllerEvent)
    (hidle : ((new recovered).run es).stopped = true ∨ ((new recovered).run es).pending = [])
    (id : String) :
    ((new recovered).run es).sent id = ((new recovered).run es).accepted.count id ∨
      ∃ a, ((new recovered).run es).allocations.lookup id = some a ∧ a.state.isWaiting=true ∧
        ((new recovered).run es).containers.lookup a.feId = some ⟨.running,0⟩ := by
  have horderly := orderly_run h es
  have hbalance := (ledger_run recovered es).balance id
  generalize (new recovered).run es = s at *
  have hsent : s.live id = 0 → s.sent id = s.accepted.count id := by omega
  cases ha : s.allocations.lookup id with
  | none => exact .inl (hsent (by simp [live,ha]))
  | some a =>
    rcases horderly with ⟨-,hnone⟩ | ⟨hst,hsound⟩
    · rw [hnone id] at ha
      cases ha
    have hpending : s.pending = [] := hidle.resolve_left (by simp [hst])
    rcases hsound.idle hpending ha with hd | hw
    · exact .inl (hsent (by simp [live_of_lookup ha,hd]))
    · exact .inr ⟨a,rfl,hw⟩

/-- Every acceptance has one outcome. Never more outcomes than acceptances are sent, and what has
its outcome is left as it is until it is dropped; the tasks that are out come to an end; and then
every acceptance has its outcome, unless its container takes no allocation. -/
theorem one_outcome_per_acceptance (recovered : Dict String ManagedFE)
    (h : ∀ feId fe, recovered.lookup feId = some fe → fe.state=.running) (es : List ControllerEvent) :
    (∀ id, ((new recovered).run es).sent id + ((new recovered).run es).live id =
      ((new recovered).run es).accepted.count id) ∧
    (∀ id a e, ((new recovered).run es).allocations.lookup id = some a → a.state=.done →
      (((new recovered).run (es++[e])).allocations.lookup id = some a ∨
        ((new recovered).run (es++[e])).allocations.lookup id = none) ∧
      ((new recovered).run (es++[e])).sent id = ((new recovered).run es).sent id) ∧
    (∀ es', Trace.Along step Completes ((new recovered).run es) es' →
      es'.length ≤ ((new recovered).run es).potential) ∧
    (((new recovered).run es).stopped = true ∨ ((new recovered).run es).pending = [] → ∀ id,
      ((new recovered).run es).sent id = ((new recovered).run es).accepted.count id ∨
        ∃ a, ((new recovered).run es).allocations.lookup id = some a ∧ a.state.isWaiting=true ∧
          ((new recovered).run es).containers.lookup a.feId = some ⟨.running,0⟩) := by
  refine ⟨(ledger_run recovered es).balance,?_,fun es' => length_le_potential,sent_of_idle h es⟩
  intro id a e ha hd
  have hrun : (new recovered).run (es++[e]) = ((new recovered).run es).step e :=
    foldl_concat _ _ _ _
  rw [hrun]
  exact ⟨(step_of_done ha hd e).1,sent_step_of_done (ledger_run recovered es) ha hd e⟩

end AllocationController

open AllocationController

/-- An allocation that ran has its one outcome, and the delivery of another one adds none. -/
theorem ranThrough_one_outcome : ((new oneContainer).run (ranThrough "a"++[deliver "b"])).sent "a" +
    ((new oneContainer).run (ranThrough "a"++[deliver "b"])).live "a" = 1 ∧
    ((new oneContainer).run (ranThrough "a")).sent "a" = 1 := by
  have hrunning : ∀ feId fe, oneContainer.lookup feId = some fe → fe.state=.running := by
    intro feId fe hfe
    rcases Dict.lookup_insert_cases hfe with ⟨-,rfl⟩ | ⟨-,⟨⟩⟩
    rfl
  refine ⟨?_,?_⟩
  · exact (one_outcome_per_acceptance oneContainer hrunning _).1 "a"
  refine ((one_outcome_per_acceptance oneContainer hrunning (ranThrough "a")).2.2.2
    (.inr (by decide)) "a").resolve_right ?_
  rintro ⟨a,ha,hw,-⟩
  have hdone : (((new oneContainer).run (ranThrough "a")).allocations.lookup "a").any
      (fun a => a.state.isWaiting) = false := by decide
  rw [ha,Option.any_some,hw] at hdone
  cases hdone

/-- The commands and completions that start container `c` without a slot and prepare an allocation
for it. -/
def slotless : List ControllerEvent :=
  [.reconcile [⟨some "c",some 0,0⟩] [] [] [],.startupComplete "c" (.ok ()),deliver "a",
    .prepared "a" (some none)]

/-- No task is out, and the allocation is accepted and has no outcome. -/
theorem slotless_without_outcome :
    ((new ∅).run slotless).accepted = ["a"] ∧ ((new ∅).run slotless).outcomes = [] ∧
      ((new ∅).run slotless).pending = [] ∧ ((new ∅).run slotless).stopped = false := by decide

/-- Until the controller stops, no slot stays free while an allocation waits for it: the queue of a
container holds exactly the allocations that wait for it, once each, and if it is running with such a
queue then as many allocations run on it as it takes. -/
theorem AllocationController.run_slots_filled (recovered : Dict String ManagedFE)
    (h : ∀ feId fe, recovered.lookup feId = some fe → fe.state=.running) (es : List ControllerEvent)
    (hrun : ((new recovered).run es).stopped=false) (feId : String) :
    (((new recovered).run es).queueOf feId).Nodup ∧
    (∀ id, id ∈ ((new recovered).run es).queueOf feId ↔ ((new recovered).run es).Waits feId id) ∧
    ∀ m id, ((new recovered).run es).containers.lookup feId = some ⟨.running,m⟩ →
      ((new recovered).run es).Waits feId id → m ≤ ((new recovered).run es).runningOn feId := by
  have horderly := orderly_run h es
  generalize (new recovered).run es = s at *
  rcases horderly with ⟨hst,-⟩ | ⟨-,hs⟩
  · cases hrun.symm.trans hst
  refine ⟨hs.sound.nodup feId,fun id => hs.sound.mem_queueOf,fun m id hfe hwaits => ?_⟩
  have hqueue : s.queueOf feId ≠ [] := ne_nil_of_mem (hs.sound.mem_queueOf.mpr hwaits)
  exact ((hs.full feId m hfe).resolve_left hqueue).trans (hs.sound.counted feId)

/-- A second allocation waits while the first one runs on the only slot. -/
theorem second_waits_for_slot : 1 ≤ ((new oneContainer).run [deliver "a",deliver "b",
    .prepared "a" (some none),.prepared "b" (some none)]).runningOn "c" := by
  refine (run_slots_filled oneContainer ?_ _ (by decide) "c").2.2 1 "b" (by decide) ?_
  · intro feId fe hfe
    rcases Dict.lookup_insert_cases hfe with ⟨-,rfl⟩ | ⟨-,⟨⟩⟩
    rfl
  · exact ⟨_,rfl,rfl,rfl⟩

end Indexify.Dataplane
