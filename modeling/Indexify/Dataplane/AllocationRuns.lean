import Indexify.Dataplane.AllocationController

/-! What the handlers of the allocation controller can do to one allocation: a few moves, of which
every handler is a sequence. From the moves follow the ledger of acceptances, executions and
outcomes, and that an allocation that is done stays as it is. -/
namespace Indexify.Dataplane
open List Dict AllocationState

def outcomeId : Proto.AllocationOutcome → Option String
  | .completed c => some c.allocationId
  | .failed f => some f.allocationId
  | .empty => none

lemma outcomeId_result (r : AllocationResult) (containerId : Option String) :
    outcomeId (allocationResultToOutcome r containerId) = some (r.allocationId.getD "") := by
  unfold allocationResultToOutcome
  split_ifs <;> rfl

namespace AllocationController
variable {a : ManagedAllocation} {id x : String} {result : AllocationResult}

structure SameBooks (s s' : AllocationController) : Prop where
  allocations : s'.allocations=s.allocations
  outcomes : s'.outcomes=s.outcomes
  accepted : s'.accepted=s.accepted
  executed : s'.executed=s.executed
  stopped : s'.stopped=s.stopped

def Names (a : ManagedAllocation) (id : String) : Prop :=
  a.allocation.id = id ∧ ∀ result t, a.state = .finalizing result t → result.allocationId.getD "" = id

/-- One thing that happens to one allocation. Only the ids in `B` may be accepted. -/
inductive Move (B : List String) : AllocationController → AllocationController → Prop
  /-- Nothing of the books changes. -/
  | frame {s s'} (h : s.SameBooks s') : Move B s s'
  /-- The allocation gets a later state and is not done. -/
  | advance {s s' id a a'} (ha : s.allocations.lookup id = some a) (hlive : a.state≠.done)
      (hlive' : a'.state≠.done) (hready : a'.state.isReady=true → a.state.isReady=true)
      (hnames : Names a id → Names a' id) (h : SameBooks (s.put id a') s') : Move B s s'
  /-- The allocation is given to a container. -/
  | start {s s' id a ctx} (ha : s.allocations.lookup id = some a)
      (hready : a.state.isReady=true)
      (h : SameBooks ({s with executed := s.executed++[id]}.put id {a with state := .running ctx})
        s') : Move B s s'
  /-- The outcome of the allocation is sent. -/
  | finish {s s' id a outcome} (ha : s.allocations.lookup id = some a) (hlive : a.state≠.done)
      (hid : Names a id → outcomeId outcome = some id)
      (h : SameBooks ((s.send outcome).put id {a with state := .done}) s') : Move B s s'
  /-- A new allocation is accepted. -/
  | accept {s s' id a} (hB : id∈B) (ha : s.allocations.lookup id = none)
      (hid : a.allocation.id=id) (hstate : a.state=.preparing)
      (h : SameBooks ({s with accepted := s.accepted++[id]}.put id a) s') : Move B s s'
  /-- A new allocation is accepted and answered. -/
  | refuse {s s' id a outcome} (hB : id∈B) (ha : s.allocations.lookup id = none)
      (hid : a.allocation.id=id) (hstate : a.state=.done)
      (ho : outcomeId outcome = some id)
      (h : SameBooks ((({s with accepted := s.accepted++[id]}).send outcome).put id a) s') :
      Move B s s'

def Moves (B : List String) : AllocationController → AllocationController → Prop :=
  Relation.ReflTransGen (Move B)

variable {B : List String} {s s' s'' : AllocationController}

lemma Moves.refl (s : AllocationController) : Moves B s s := Relation.ReflTransGen.refl

lemma Moves.trans (h : Moves B s s') (h' : Moves B s' s'') : Moves B s s'' :=
  Relation.ReflTransGen.trans h h'

lemma Move.moves (h : Move B s s') : Moves B s s' := .single h

lemma moves_of_sameBooks (ha : s'.allocations=s.allocations) (ho : s'.outcomes=s.outcomes)
    (hacc : s'.accepted=s.accepted) (hex : s'.executed=s.executed)
    (hst : s'.stopped=s.stopped) : Moves B s s' :=
  (Move.frame ⟨ha,ho,hacc,hex,hst⟩).moves

lemma Moves.after (h : Moves B s' s'') (ha : s'.allocations=s.allocations)
    (ho : s'.outcomes=s.outcomes) (hacc : s'.accepted=s.accepted)
    (hex : s'.executed=s.executed) (hst : s'.stopped=s.stopped) : Moves B s s'' :=
  (moves_of_sameBooks ha ho hacc hex hst).trans h

lemma moves_foldl {α : Type} {f : AllocationController → α → AllocationController}
    (hf : ∀ s x, Moves B s (f s x)) (xs : List α) (s : AllocationController) :
    Moves B s (xs.foldl f s) := by
  induction xs generalizing s with
  | nil => exact .refl s
  | cons x xs ih => exact (hf s x).trans (ih (f s x))

/-! ### The handlers -/

lemma names_finalizing {t : Option String} (hr : result.allocationId=a.allocation.allocationId)
    (h : Names a id) : Names {a with state := .finalizing result t} id := by
  refine ⟨h.1,?_⟩
  rintro _ _ ⟨⟩
  rw [hr]
  exact h.1

lemma moves_startFinalization (ha : s.allocations.lookup id = some a) (hlive : a.state≠.done)
    (hr : result.allocationId=a.allocation.allocationId) (ctx : FinalizationContext)
    (t : Option String) : Moves B s (s.startFinalization id result ctx t) := by
  rw [startFinalization,ha]
  exact Move.moves (.advance ha hlive (by simp) (by simp [isReady])
    (names_finalizing hr) ⟨rfl,rfl,rfl,rfl,rfl⟩)

lemma isReady_ne_done {st : AllocationState} (h : st.isReady=true) : st≠.done := by
  rintro rfl
  cases h

lemma isReady_of_isWaiting {st : AllocationState} (h : st.isWaiting=true) : st.isReady=true := by
  cases st <;> first | rfl | cases h

lemma moves_scheduleCandidate (feId : String) (s : AllocationController) (id : String) :
    Moves B s (s.scheduleCandidate feId id) := by
  unfold scheduleCandidate
  cases ha : s.allocations.lookup id with
  | none => exact .refl s
  | some a =>
    dsimp only
    split_ifs with hw
    · have hready := isReady_of_isWaiting hw
      cases hp : s.preparedData.lookup id with
      | none => exact moves_startFinalization ha (isReady_ne_done hready) rfl _ _
      | some ctx => exact Move.moves (.start ha hready ⟨rfl,rfl,rfl,rfl,rfl⟩)
    · exact .refl s

variable (s)
variable (feId)

lemma moves_scheduleOn : Moves B s (s.scheduleOn feId) := by
  unfold scheduleOn
  split
  · exact (moves_foldl (moves_scheduleCandidate feId) _ _).after rfl rfl rfl rfl rfl
  · exact .refl s

lemma moves_trySchedule : Moves B s s.trySchedule :=
  moves_foldl moves_scheduleOn _ s

lemma moves_handleAllocationPrepared (id : String) (result : Option (Option MultipartUploadHandle)) :
    Moves B s (s.handleAllocationPrepared id result) := by
  unfold handleAllocationPrepared
  cases ha : s.allocations.lookup id with
  | none => exact .refl s
  | some a =>
    dsimp only
    split_ifs with hst
    · have hlive : a.state≠.done := by simp [hst]
      have henqueue : ∀ st ctx, st.isWaiting=true → Moves B s (s.enqueue id a st ctx) := by
        intro st ctx hw
        refine Move.moves (.advance ha hlive ?_ ?_ ?_ ⟨rfl,rfl,rfl,rfl,rfl⟩)
        · exact isReady_ne_done (isReady_of_isWaiting hw)
        · simp [hst,isReady]
        · intro hn
          refine ⟨hn.1,fun r t he => ?_⟩
          obtain rfl : st = .finalizing r t := he
          cases hw
      cases result with
      | none => exact moves_startFinalization ha hlive rfl _ _
      | some handle =>
        dsimp only
        split
        · exact (henqueue _ _ rfl).trans (moves_trySchedule _)
        · exact henqueue _ _ rfl
        · exact moves_startFinalization ha hlive rfl _ _
        · exact moves_startFinalization ha hlive rfl _ _
    · exact .refl s

lemma executionResult_allocationId (a : ManagedAllocation)
    (ctx : FinalizationContext) (outcome : ExecutionOutcome) :
    (s.executionResult a ctx outcome).1.allocationId = a.allocation.allocationId := by
  cases outcome <;> rfl

lemma moves_handleAllocationExecutionFinished (id : String)
    (outcome : ExecutionOutcome) : Moves B s (s.handleAllocationExecutionFinished id outcome) := by
  unfold handleAllocationExecutionFinished
  cases ha : s.allocations.lookup id with
  | none => exact .refl s
  | some a =>
    dsimp only
    split
    next ctx hst =>
      have hlive : a.state≠.done := by simp [hst]
      have hfin := moves_startFinalization (B := B) (s := s.releaseSlot a.feId) ha hlive
        (executionResult_allocationId (s.releaseSlot a.feId) a ctx outcome)
        ((s.releaseSlot a.feId).executionResult a ctx outcome).2 none
      have hrelease : Moves B s (s.releaseSlot a.feId) := moves_of_sameBooks rfl rfl rfl rfl rfl
      refine (hrelease.trans hfin).trans ?_
      exact Moves.after (moves_trySchedule _) rfl rfl rfl rfl rfl
    next => exact .refl s

lemma moves_handleAllocationFinalizationFinished (id : String)
    (isSuccess : Bool) : Moves B s (s.handleAllocationFinalizationFinished id isSuccess) := by
  unfold handleAllocationFinalizationFinished
  cases ha : s.allocations.lookup id with
  | none => exact .refl s
  | some a =>
    dsimp only
    split
    next result t hst =>
      refine Move.moves (.finish ha (by simp [hst]) (fun hn => ?_) ⟨rfl,rfl,rfl,rfl,rfl⟩)
      rw [outcomeId_result]
      split_ifs
      · rw [hn.2 result t hst]
      · exact congrArg some hn.1
    next => exact .refl s

lemma moves_takePrepared (id : String) :
    Moves B s (s.takePrepared id).2 := moves_of_sameBooks rfl rfl rfl rfl rfl

lemma moves_cancelAllocation (id : String) : Moves B s (s.cancelAllocation id) := by
  unfold cancelAllocation
  cases ha : s.allocations.lookup id with
  | none => exact .refl s
  | some a =>
    dsimp only
    split_ifs with hready hw
    · exact (moves_startFinalization (s := ((s.unqueue id a.feId).takePrepared id).2) ha
        (isReady_ne_done hready) rfl _ _).after rfl rfl rfl rfl rfl
    · exact (moves_takePrepared s id).trans (moves_startFinalization (s := (s.takePrepared id).2) ha
        (isReady_ne_done hready) rfl _ _)
    · exact .refl s

lemma moves_failAllocation (reason : Proto.AllocationFailureReason)
    (s : AllocationController) (id : String) : Moves B s (failAllocation feId reason s id) := by
  unfold failAllocation
  cases ha : s.allocations.lookup id with
  | none => exact .refl s
  | some a =>
    dsimp only
    split_ifs with hready hempty
    · refine (moves_takePrepared s id).trans ?_
      refine Move.moves (.finish ha (isReady_ne_done hready) ?_ ⟨rfl,rfl,rfl,rfl,rfl⟩)
      intro hn
      exact congrArg some hn.1
    · exact (moves_takePrepared s id).trans (moves_startFinalization (s := (s.takePrepared id).2) ha
        (isReady_ne_done hready) rfl _ _)
    · exact .refl s

lemma moves_failAllocationsForFe
    (reason : Proto.AllocationFailureReason) : Moves B s (s.failAllocationsForFe feId reason) :=
  (moves_foldl (moves_failAllocation feId _) _ _).after rfl rfl rfl rfl rfl

lemma moves_terminate (fe : ManagedFE)
    (reason : ContainerTerminationReason) : Moves B s (s.terminate feId fe reason) :=
  moves_of_sameBooks rfl rfl rfl rfl rfl

lemma moves_removeContainer : Moves B s (s.removeContainer feId) := by
  unfold removeContainer
  split
  · exact .refl s
  split
  · exact moves_of_sameBooks rfl rfl rfl rfl rfl
  · exact (moves_terminate s _ _ _).trans (moves_failAllocationsForFe _ _ _)

lemma moves_createContainer (gpuFails : List String) (s : AllocationController)
    (description : ContainerDescription) : Moves B s (s.createContainer gpuFails description) := by
  unfold createContainer
  split
  · exact .refl s
  split_ifs
  · exact .refl s
  · exact (moves_terminate s _ _ _).trans (moves_failAllocationsForFe _ _ _)
  · exact moves_of_sameBooks rfl rfl rfl rfl rfl

lemma moves_reconcileContainers (added : List ContainerDescription) (removed gpuFails : List String) :
    Moves B s (s.reconcileContainers added removed gpuFails) :=
  (moves_foldl moves_removeContainer removed s).trans
    (moves_foldl (moves_createContainer gpuFails) added _)

lemma moves_handleContainerStartupComplete (result : Except StartupError Unit) :
    Moves B s (s.handleContainerStartupComplete feId result) := by
  unfold handleContainerStartupComplete
  split
  · cases result with
    | ok => exact (moves_trySchedule _).after rfl rfl rfl rfl rfl
    | error e => exact (moves_terminate s _ _ _).trans (moves_failAllocationsForFe _ _ _)
  · exact .refl s

lemma moves_handleContainerTerminated (reason : ContainerTerminationReason) :
    Moves B s (s.handleContainerTerminated feId reason) := by
  unfold handleContainerTerminated
  split
  · exact .refl s
  split
  · exact .refl s
  · exact (moves_terminate s _ _ _).trans (moves_failAllocationsForFe _ _ _)

variable {feId}

lemma moves_addAllocation {p : String × ServerAllocation} (hB : p.2.id∈B)
    (s : AllocationController) : Moves B s (s.addAllocation p) := by
  unfold addAllocation
  dsimp only
  split_ifs with hmem halive
  · exact .refl s
  · exact Move.moves (.accept hB (AList.lookup_eq_none.mpr hmem) rfl rfl ⟨rfl,rfl,rfl,rfl,rfl⟩)
  · exact Move.moves (.refuse hB (AList.lookup_eq_none.mpr hmem) rfl rfl rfl ⟨rfl,rfl,rfl,rfl,rfl⟩)

lemma moves_addAllocations (new : List (String × ServerAllocation)) :
    Moves (new.map fun p => p.2.id) s (s.addAllocations new) :=
  List.foldlRecOn new _ (.refl s) fun s' hs p hp =>
    hs.trans (moves_addAllocation (mem_map.mpr ⟨p,hp,rfl⟩) s')

lemma moves_shutdownAllocation (id : String) : Moves B s (s.shutdownAllocation id) := by
  unfold shutdownAllocation
  cases ha : s.allocations.lookup id with
  | none => exact .refl s
  | some a =>
    dsimp only
    split
    · exact .refl s
    · exact .refl s
    next hst =>
      exact (moves_takePrepared s id).trans
        (moves_startFinalization (s := (s.takePrepared id).2) ha hst rfl _ _)

variable {s}

/-! ### The ledger -/

def sent (s : AllocationController) (id : String) : ℕ :=
  s.outcomes.countP fun o => outcomeId o = some id

def live (s : AllocationController) (id : String) : ℕ :=
  if (s.allocations.lookup id).any (fun a => a.state≠.done) then 1 else 0

def ready (s : AllocationController) (id : String) : ℕ :=
  if (s.allocations.lookup id).any (fun a => a.state.isReady) then 1 else 0

/-- Every acceptance has sent its one outcome, or its allocation is not done; and every execution
has its own acceptance. -/
structure Ledger (s : AllocationController) : Prop where
  names : ∀ {id a}, s.allocations.lookup id = some a → Names a id
  balance : ∀ id, s.sent id + s.live id = s.accepted.count id
  starts : ∀ id, s.executed.count id + s.ready id ≤ s.accepted.count id

lemma ledger_new (recovered : Dict String ManagedFE) : (new recovered).Ledger where
  names := by
    intro id a h
    cases h
  balance _ := rfl
  starts _ := le_rfl

lemma Ledger.of_sameBooks (h : s.Ledger) (hs : s.SameBooks s') : s'.Ledger where
  names := by
    rw [hs.allocations]
    exact h.names
  balance := by
    unfold sent live
    rw [hs.allocations,hs.outcomes,hs.accepted]
    exact h.balance
  starts := by
    unfold ready
    rw [hs.allocations,hs.executed,hs.accepted]
    exact h.starts

variable (s)

lemma live_put (id x : String) (a : ManagedAllocation) :
    (s.put id a).live x = if x=id then (if a.state≠.done then 1 else 0) else s.live x := by
  unfold live put
  rw [lookup_insert_if]
  split_ifs <;> simp_all

lemma ready_put (id x : String) (a : ManagedAllocation) :
    (s.put id a).ready x = if x=id then (if a.state.isReady then 1 else 0) else s.ready x := by
  unfold ready put
  rw [lookup_insert_if]
  split_ifs <;> simp_all

variable {s}

lemma live_of_lookup (h : s.allocations.lookup id = some a) :
    s.live id = if a.state≠.done then 1 else 0 := by
  simp [live,h]

lemma ready_of_lookup (h : s.allocations.lookup id = some a) :
    s.ready id = if a.state.isReady then 1 else 0 := by
  simp [ready,h]

lemma count_append_same {l accs : List String} (h : ∀ x∈accs, x=id)
    (x : String) : (l++accs).count x = l.count x + if x=id then accs.length else 0 := by
  rw [count_append]
  congr 1
  split_ifs with hx
  · subst hx
    exact count_eq_length.mpr fun y hy => (h y hy).symm
  · exact count_eq_zero.mpr fun hm => hx (h x hm)

lemma countP_append_same {l outs : List Proto.AllocationOutcome}
    (h : ∀ o∈outs, outcomeId o = some id) (x : String) :
    (l++outs).countP (fun o => outcomeId o = some x) =
      l.countP (fun o => outcomeId o = some x) + if x=id then outs.length else 0 := by
  rw [countP_append]
  congr 1
  split_ifs with hx
  · subst hx
    exact countP_eq_length.mpr fun o ho => decide_eq_true (h o ho)
  · refine countP_eq_zero.mpr fun o ho => ?_
    simp [h o ho,Ne.symm hx]

lemma Ledger.update (h : s.Ledger) (outs : List Proto.AllocationOutcome) (accs exs : List String)
    (ha : s'.allocations = s.allocations.insert id a) (ho : s'.outcomes = s.outcomes++outs)
    (hacc : s'.accepted = s.accepted++accs) (hex : s'.executed = s.executed++exs)
    (houts : ∀ o∈outs, outcomeId o = some id) (haccs : ∀ x∈accs, x=id)
    (hexs : ∀ x∈exs, x=id) (hnames : Names a id)
    (hbalance : outs.length + (if a.state≠.done then 1 else 0) = s.live id + accs.length)
    (hstarts : exs.length + (if a.state.isReady then 1 else 0) ≤ s.ready id + accs.length) :
    s'.Ledger where
  names hx := of_lookup_insert h.names hnames (ha ▸ hx)
  balance := by
    intro x
    have hb := h.balance x
    have hlive : s'.live x = (s.put id a).live x := by rw [live,live,put,ha]
    rw [sent,ho,countP_append_same houts,hacc,count_append_same haccs,hlive,live_put]
    unfold sent at hb
    split_ifs with hx <;> simp_all <;> omega
  starts := by
    intro x
    have hb := h.starts x
    have hready : s'.ready x = (s.put id a).ready x := by rw [ready,ready,put,ha]
    rw [hex,count_append_same hexs,hacc,count_append_same haccs,hready,ready_put]
    split_ifs with hx <;> simp_all <;> omega

lemma Ledger.move (h : s.Ledger) (hm : Move B s s') : s'.Ledger := by
  cases hm with
  | frame hs => exact h.of_sameBooks hs
  | advance ha hlive hlive' hready hnames hs =>
    refine Ledger.of_sameBooks (h.update [] [] [] rfl ?_ ?_ ?_ ?_ ?_ ?_ (hnames (h.names ha)) ?_ ?_) hs
    iterate 6 simp [put]
    · simp [live_of_lookup ha,hlive,hlive']
    · rw [ready_of_lookup ha]
      split_ifs <;> simp_all
  | @start id a ctx ha hready hs =>
    refine Ledger.of_sameBooks (h.update (a := {a with state := .running ctx}) [] [] [id] rfl
      ?_ ?_ ?_ ?_ ?_ ?_ ⟨(h.names ha).1,fun _ _ he => nomatch he⟩ ?_ ?_) hs
    iterate 6 simp [put]
    · simp [live_of_lookup ha,isReady_ne_done hready]
    · rw [ready_of_lookup ha,if_pos hready]
      simp [isReady]
  | @finish id a outcome ha hlive hid hs =>
    refine Ledger.of_sameBooks (h.update (a := {a with state := .done}) [outcome] [] [] rfl
      ?_ ?_ ?_ ?_ ?_ ?_ ⟨(h.names ha).1,fun _ _ he => nomatch he⟩ ?_ ?_) hs
    iterate 6 simp [put,send,hid (h.names ha)]
    · simp [live_of_lookup ha,hlive]
    · simp [isReady]
  | @accept id a hB ha hid hstate hs =>
    refine Ledger.of_sameBooks (h.update [] [id] [] rfl ?_ ?_ ?_ ?_ ?_ ?_
      ⟨hid,fun _ _ he => by rw [hstate] at he; cases he⟩ ?_ ?_) hs
    iterate 6 simp [put]
    · simp [live,ha,hstate]
    · simp [hstate,isReady]
  | @refuse id a outcome hB ha hid hstate ho hs =>
    refine Ledger.of_sameBooks (h.update [outcome] [id] [] rfl ?_ ?_ ?_ ?_ ?_ ?_
      ⟨hid,fun _ _ he => by rw [hstate] at he; cases he⟩ ?_ ?_) hs
    iterate 6 simp [put,send,ho]
    · simp [live,ha,hstate]
    · simp [hstate,isReady]

lemma Ledger.moves (h : s.Ledger) (hm : Moves B s s') : s'.Ledger := by
  induction hm with
  | refl => exact h
  | tail _ hstep ih => exact ih.move hstep

/-! ### What is done stays done -/

/-- Of the allocations, only those of `B` may be new; the others are kept, and what is done is kept
as it is, without a further outcome. -/
structure Tame (B : List String) (s s' : AllocationController) : Prop where
  kept : ∀ {id}, id∈s.allocations → id∈s'.allocations
  done : ∀ {id a}, s.allocations.lookup id = some a → a.state=.done → s'.allocations.lookup id = some a
  fresh : ∀ {id}, id∉B → id∉s.allocations → id∉s'.allocations
  accepted : ∀ {id}, id∉B ∨ id∈s.allocations → s'.accepted.count id = s.accepted.count id

lemma Tame.trans (h : Tame B s s') (h' : Tame B s' s'') : Tame B s s'' where
  kept hid := h'.kept (h.kept hid)
  done ha hd := h'.done (h.done ha hd) hd
  fresh hB hid := h'.fresh hB (h.fresh hB hid)
  accepted hid := (h'.accepted (hid.imp_right h.kept)).trans (h.accepted hid)

lemma Tame.put {a' : ManagedAllocation} (ha : s'.allocations = s.allocations.insert id a')
    (hdone : ∀ a, s.allocations.lookup id = some a → a.state≠.done) (hB : id∈B ∨ id∈s.allocations)
    (hacc : ∀ x, x≠id ∨ id∈s.allocations → s'.accepted.count x = s.accepted.count x) : Tame B s s' where
  kept hx := by
    rw [ha,AList.mem_insert]
    exact .inr hx
  done := by
    intro x a hx hd
    rw [ha,lookup_insert_if,if_neg]
    · exact hx
    · rintro rfl
      exact hdone a hx hd
  fresh := by
    intro x hxB hx hm
    rw [ha,AList.mem_insert] at hm
    rcases hm with rfl | hm
    · exact hB.elim hxB hx
    · exact hx hm
  accepted := by
    intro x hx
    refine hacc x ?_
    by_cases hid : x=id
    · subst hid
      exact .inr (hx.elim (fun hn => hB.resolve_left hn) fun hm => hm)
    · exact .inl hid

lemma Move.tame (hm : Move B s s') : Tame B s s' := by
  have hold : ∀ {id a a'}, s.allocations.lookup id = some a → a.state≠.done →
      s'.allocations = s.allocations.insert id a' → s'.accepted=s.accepted → Tame B s s' := by
    intro id a a' ha hlive hins hacc
    refine Tame.put hins (fun b hb => ?_) (.inr (mem_of_lookup ha)) fun x _ => by rw [hacc]
    cases ha.symm.trans hb
    exact hlive
  have hnew : ∀ {id a'}, id∈B → s.allocations.lookup id = none →
      s'.allocations = s.allocations.insert id a' → s'.accepted = s.accepted++[id] →
      Tame B s s' := by
    intro id a' hB ha hins hacc
    refine Tame.put hins (fun b hb => ?_) (.inl hB) fun x hx => ?_
    · rw [ha] at hb
      cases hb
    have hne : x≠id := hx.resolve_right (AList.lookup_eq_none.mp ha)
    rw [hacc]
    simp [count_eq_zero,hne]
  cases hm with
  | frame hs =>
    refine ⟨?_,?_,?_,fun _ => by rw [hs.accepted]⟩ <;> rw [hs.allocations]
    · exact id
    · exact fun ha _ => ha
    · exact fun _ => id
  | advance ha hlive _ _ _ hs
  | finish ha hlive _ hs => exact hold ha hlive hs.allocations hs.accepted
  | start ha hready hs => exact hold ha (isReady_ne_done hready) hs.allocations hs.accepted
  | accept hB ha _ _ hs
  | refuse hB ha _ _ _ hs => exact hnew hB ha hs.allocations hs.accepted

lemma Moves.tame (hm : Moves B s s') : Tame B s s' := by
  induction hm with
  | refl => exact ⟨id,fun h _ => h,fun _ => id,fun _ => rfl⟩
  | tail _ hstep ih => exact ih.trans hstep.tame

lemma Moves.stopped (hm : Moves B s s') : s'.stopped=s.stopped := by
  induction hm with
  | refl => rfl
  | tail _ hstep ih =>
    rw [← ih]
    cases hstep with
    | frame hs
    | advance _ _ _ _ _ hs
    | start _ _ hs
    | finish _ _ _ hs
    | accept _ _ _ _ hs
    | refuse _ _ _ _ _ hs => exact hs.stopped

/-! ### Cleanup and shutdown -/

lemma lookup_cleanup {ids : List String} : (s.cleanupDoneAllocations ids).allocations.lookup id = some a ↔
    s.allocations.lookup id = some a ∧ (a.state=.done → id∈ids) := by
  rw [cleanupDoneAllocations,lookup_retain_eq_some]
  split_ifs with hd <;> simp [hd]

lemma lookup_cleanup_any {p : ManagedAllocation → Bool} (hp : ∀ a, a.state=.done → p a = false)
    (s : AllocationController) (ids : List String) (id : String) :
    ((s.cleanupDoneAllocations ids).allocations.lookup id).any p = (s.allocations.lookup id).any p := by
  rw [Bool.eq_iff_iff]
  simp only [Option.any_eq_true,lookup_cleanup]
  refine exists_congr fun a => and_congr_left fun hpa => and_iff_left fun hd => ?_
  rw [hp a hd] at hpa
  cases hpa

lemma Ledger.cleanup (h : s.Ledger) (ids : List String) : (s.cleanupDoneAllocations ids).Ledger where
  names ha := h.names (lookup_cleanup.mp ha).1
  balance id := by
    rw [live,lookup_cleanup_any (by simp)]
    exact h.balance id
  starts id := by
    rw [ready,lookup_cleanup_any (by simp +contextual [isReady])]
    exact h.starts id

def LeavesAt (s : AllocationController) (id : String) : Prop :=
  ∀ a, s.allocations.lookup id = some a → a.state.isReady=false ∧ a.state.isRunning=false

lemma lookup_startFinalization (s : AllocationController) (id : String) (result : AllocationResult)
    (ctx : FinalizationContext) (t : Option String) (x : String) :
    (s.startFinalization id result ctx t).allocations.lookup x =
      if x=id then (s.allocations.lookup id).map fun a => {a with state := .finalizing result t}
      else s.allocations.lookup x := by
  unfold startFinalization
  cases ha : s.allocations.lookup id with
  | none =>
    split_ifs with hx
    · rw [hx]
      exact ha
    · rfl
  | some a => exact lookup_insert_if _ _ _ _

lemma leavesAt_startFinalization {ctx : FinalizationContext} {t : Option String}
    (h : x=id ∨ s.LeavesAt x) : (s.startFinalization id result ctx t).LeavesAt x := by
  intro a ha
  rw [lookup_startFinalization] at ha
  split_ifs at ha with hx
  · obtain ⟨b,-,rfl⟩ := Option.map_eq_some_iff.mp ha
    exact ⟨rfl,rfl⟩
  · exact h.resolve_left hx a ha

lemma leavesAt_shutdownAllocation (h : x=id ∨ s.LeavesAt x) : (s.shutdownAllocation id).LeavesAt x := by
  have hsame : s.LeavesAt id → s.LeavesAt x := fun hid => h.elim (fun hx => hx ▸ hid) (fun hl => hl)
  unfold shutdownAllocation
  cases ha : s.allocations.lookup id with
  | none => exact hsame (by simp [LeavesAt,ha])
  | some a =>
    dsimp only
    split
    next hst => exact hsame (by simp [LeavesAt,ha,hst,isReady,isRunning])
    next hst => exact hsame (by simp [LeavesAt,ha,hst,isReady,isRunning])
    next => exact leavesAt_startFinalization h

lemma leavesAt_shutdownLoop {ids : List String} (h : x∈ids ∨ s.LeavesAt x) :
    (ids.foldl shutdownAllocation s).LeavesAt x := by
  induction ids generalizing s with
  | nil => exact h.resolve_left (by simp)
  | cons id ids ih =>
    refine ih ?_
    by_cases hx : x∈ids
    · exact .inl hx
    · refine .inr (leavesAt_shutdownAllocation (h.imp_left fun hm => ?_))
      exact (mem_cons.mp hm).resolve_right hx

lemma leavesAt_handleAllocationFinalizationFinished (h : s.LeavesAt x)
    (p : String × Bool) : (s.handleAllocationFinalizationFinished p.1 p.2).LeavesAt x := by
  unfold handleAllocationFinalizationFinished
  split
  · exact h
  split
  next =>
    intro b hb
    rcases lookup_insert_cases hb with ⟨-,rfl⟩ | ⟨-,hb⟩
    · exact ⟨rfl,rfl⟩
    · exact h b hb
  next => exact h

lemma lastOutcome_eq_some (hn : Names a id) (hl : a.state.isReady=false ∧ a.state.isRunning=false) :
    (lastOutcome a).bind outcomeId = if a.state≠.done then some id else none := by
  unfold lastOutcome
  cases hst : a.state with
  | finalizing result t => simp [outcomeId_result,hn.2 result t hst]
  | done => simp
  | preparing
  | waitingForContainer
  | waitingForSlot => simp [hst,isReady] at hl
  | running => simp [hst,isRunning] at hl

lemma count_lastOutcomes (h : s.Ledger) (hl : ∀ x, s.LeavesAt x) (x : String) :
    (s.allocations.values.filterMap lastOutcome).countP (fun o => outcomeId o = some x) = s.live x := by
  have hlast : ∀ {k a}, s.allocations.lookup k = some a →
      (((lastOutcome a).any fun o => outcomeId o = some x) = true ↔ k=x ∧ a.state≠.done) := by
    intro k a ha
    have ho := lastOutcome_eq_some (h.names ha) (hl k a ha)
    cases hlo : lastOutcome a <;> rw [hlo] at ho <;> split_ifs at ho with hd <;> simp_all
  have howes : ∀ k, k ∈ (if s.live x = 1 then {x} else ∅ : Finset String) ↔
      ∃ a, s.allocations.lookup k = some a ∧ ((lastOutcome a).any fun o => outcomeId o = some x) = true := by
    intro k
    constructor
    · intro hk
      split_ifs at hk with hx
      · obtain rfl := Finset.mem_singleton.mp hk
        cases ha : s.allocations.lookup k with
        | none => simp [live,ha] at hx
        | some a =>
          refine ⟨a,rfl,(hlast ha).mpr ⟨rfl,fun hd => ?_⟩⟩
          simp [live_of_lookup ha,hd] at hx
      · simp at hk
    · rintro ⟨a,ha,ho⟩
      obtain ⟨rfl,hd⟩ := (hlast ha).mp ho
      simp [live_of_lookup ha,hd]
  have hcard := card_eq_countP howes
  rw [countP_filterMap]
  refine Eq.trans (countP_congr fun a _ => ?_) (hcard.symm.trans ?_)
  · cases lastOutcome a <;> simp
  · unfold live
    split_ifs <;> simp_all

lemma Ledger.drain (h : s.Ledger) (hl : ∀ x, s.LeavesAt x) : s.drainAllocations.Ledger where
  names := by
    intro id a ha
    cases ha
  balance := by
    intro id
    have hsent : s.drainAllocations.sent id = s.sent id + s.live id := by
      rw [sent,drainAllocations,countP_append,count_lastOutcomes h hl]
      rfl
    rw [hsent]
    exact h.balance id
  starts id := (Nat.le_add_right _ _).trans (h.starts id)

def atDeadline (s : AllocationController) (finished : List (String × Bool)) : AllocationController :=
  finished.foldl (fun s p => s.handleAllocationFinalizationFinished p.1 p.2)
    (s.allocations.keys.foldl shutdownAllocation s)

variable (s)

lemma moves_atDeadline (finished : List (String × Bool)) : Moves [] s (s.atDeadline finished) :=
  (moves_foldl moves_shutdownAllocation _ s).trans
    (moves_foldl (fun s p => moves_handleAllocationFinalizationFinished s p.1 p.2) finished _)

lemma leavesAt_atDeadline (finished : List (String × Bool)) (x : String) :
    (s.atDeadline finished).LeavesAt x := by
  have hstart : (s.allocations.keys.foldl shutdownAllocation s).LeavesAt x := by
    refine leavesAt_shutdownLoop ?_
    by_cases hx : x∈s.allocations
    · exact .inl hx
    right
    intro a ha
    exact absurd (mem_of_lookup ha) hx
  exact @Trace.invariant _ _ _ (LeavesAt · x)
    (fun p hs => leavesAt_handleAllocationFinalizationFinished hs p) _ hstart finished

variable {s}

/-! ### Runs -/

def newIds : ControllerEvent → List String
  | .reconcile _ _ _ new => new.map fun p => p.2.id
  | _ => []

lemma moves_complete (task : Pending) {handler : AllocationController → AllocationController}
    (hh : ∀ s, Moves B s (handler s)) (s : AllocationController) :
    Moves B s (s.complete task handler) := by
  unfold complete
  split_ifs
  · exact (hh _).after rfl rfl rfl rfl rfl
  · exact .refl s

def beforeMoves (s : AllocationController) : ControllerEvent → AllocationController
  | .reconcile _ _ _ new =>
    if new.isEmpty then s else s.cleanupDoneAllocations (new.map fun p => p.2.id)
  | _ => s

lemma moves_handle (s : AllocationController) (e : ControllerEvent) :
    (∃ finished, e = .shutdown finished) ∨ Moves (newIds e) (s.beforeMoves e) (s.handle e) := by
  cases e with
  | reconcile added removed gpuFails new =>
    right
    exact ((moves_reconcileContainers _ added removed gpuFails).trans
      (moves_addAllocations _ new)).trans (moves_trySchedule _)
  | killAllocation id => exact .inr (moves_cancelAllocation s id)
  | startupComplete feId result =>
    exact .inr (moves_complete _ (moves_handleContainerStartupComplete · feId result) s)
  | containerTerminated feId reason =>
    exact .inr ((moves_handleContainerTerminated _ feId reason).after rfl rfl rfl rfl rfl)
  | prepared id result =>
    exact .inr (moves_complete _ (moves_handleAllocationPrepared · id result) s)
  | executionFinished id outcome =>
    exact .inr (moves_complete _ (moves_handleAllocationExecutionFinished · id outcome) s)
  | finalizationFinished id ctx isSuccess =>
    exact .inr (moves_complete _ (moves_handleAllocationFinalizationFinished · id isSuccess) s)
  | shutdown finished => exact .inl ⟨finished,rfl⟩

lemma Ledger.beforeMoves (h : s.Ledger) (e : ControllerEvent) : (s.beforeMoves e).Ledger := by
  unfold AllocationController.beforeMoves
  split
  · split_ifs
    · exact h
    · exact h.cleanup _
  · exact h

lemma Ledger.step (h : s.Ledger) (e : ControllerEvent) : (s.step e).Ledger := by
  unfold AllocationController.step
  split_ifs
  · exact h
  rcases moves_handle s e with ⟨finished,rfl⟩ | hm
  · exact (h.moves (moves_atDeadline s finished)).drain (leavesAt_atDeadline s finished)
  · exact (h.beforeMoves e).moves hm

lemma ledger_run (recovered : Dict String ManagedFE) (es : List ControllerEvent) :
    ((new recovered).run es).Ledger :=
  Trace.invariant (fun e h => h.step e) (ledger_new recovered) es

variable (s)

lemma lookup_beforeMoves (e : ControllerEvent) (id : String) :
    (s.beforeMoves e).allocations.lookup id = s.allocations.lookup id ∨
      (s.beforeMoves e).allocations.lookup id = none ∧ id ∉ newIds e := by
  unfold beforeMoves
  split
  next added removed gpuFails new =>
    split_ifs
    · exact .inl rfl
    by_cases hid : id ∈ new.map fun p => p.2.id
    · left
      refine lookup_retain_of_pos fun a _ => ?_
      simp [hid]
    cases hl : (s.cleanupDoneAllocations (new.map fun p => p.2.id)).allocations.lookup id with
    | none => exact .inr ⟨rfl,hid⟩
    | some a => exact .inl (lookup_cleanup.mp hl).1.symm
  next => exact .inl rfl

lemma accepted_beforeMoves (e : ControllerEvent) : (s.beforeMoves e).accepted = s.accepted := by
  unfold beforeMoves
  split
  · split_ifs <;> rfl
  · rfl

variable {s}

lemma step_of_done (ha : s.allocations.lookup id = some a) (hd : a.state=.done) (e : ControllerEvent) :
    ((s.step e).allocations.lookup id = some a ∨ (s.step e).allocations.lookup id = none) ∧
      (s.step e).accepted.count id = s.accepted.count id := by
  unfold step
  split_ifs
  · exact ⟨.inl ha,rfl⟩
  rcases moves_handle s e with ⟨finished,rfl⟩ | hm
  · exact ⟨.inr rfl,(moves_atDeadline s finished).tame.accepted (.inl not_mem_nil)⟩
  rw [← accepted_beforeMoves s e]
  rcases lookup_beforeMoves s e id with hl | ⟨hl,hB⟩
  · rw [ha] at hl
    exact ⟨.inl (hm.tame.done hl hd),hm.tame.accepted (.inr (mem_of_lookup hl))⟩
  · refine ⟨.inr ?_,hm.tame.accepted (.inl hB)⟩
    exact AList.lookup_eq_none.mpr (hm.tame.fresh hB (AList.lookup_eq_none.mp hl))

lemma sent_step_of_done (h : s.Ledger) (ha : s.allocations.lookup id = some a) (hd : a.state=.done)
    (e : ControllerEvent) : (s.step e).sent id = s.sent id := by
  have hbefore := h.balance id
  have hafter := (h.step e).balance id
  obtain ⟨hl,hacc⟩ := step_of_done ha hd e
  have hlive : (s.step e).live id = 0 := by
    rcases hl with hl | hl
    · simp [live_of_lookup hl,hd]
    · simp [live,hl]
  rw [live_of_lookup ha] at hbefore
  simp only [hd,ne_eq,not_true_eq_false,if_false] at hbefore
  omega

/-! ### One execution for every id -/

/-- Every id of `B` that was accepted before is still tracked, and no id was accepted twice. -/
structure Once (B : List String) (s : AllocationController) : Prop where
  nodup : s.accepted.Nodup
  tracked : ∀ {id}, id∈B → id∈s.accepted → id∈s.allocations

lemma Once.accept (h : Once B s) (hB : id∈B) (hid : id∉s.allocations)
    (hacc : s'.accepted = s.accepted++[id])
    (hkept : ∀ {x}, x=id ∨ x∈s.allocations → x∈s'.allocations) : Once B s' := by
  have hnew : id∉s.accepted := fun hm => hid (h.tracked hB hm)
  refine ⟨?_,?_⟩
  · rw [hacc]
    refine nodup_append.mpr ⟨h.nodup,nodup_singleton id,fun x hx y hy hxy => ?_⟩
    rw [hxy,mem_singleton.mp hy] at hx
    exact hnew hx
  · intro x hxB hx
    rw [hacc,mem_append,mem_singleton] at hx
    exact hkept (hx.symm.imp_right (h.tracked hxB))

lemma Once.move (h : Once B s) (hm : Move B s s') : Once B s' := by
  have hkept : ∀ {id}, id∈s.allocations → id∈s'.allocations := hm.tame.kept
  cases hm with
  | frame hs
  | advance _ _ _ _ _ hs
  | start _ _ hs
  | finish _ _ _ hs =>
    refine ⟨?_,?_⟩
    · rw [hs.accepted]
      exact h.nodup
    · rw [hs.accepted]
      exact fun hB hid => hkept (h.tracked hB hid)
  | accept hB ha _ _ hs | refuse hB ha _ _ _ hs =>
    refine h.accept hB (AList.lookup_eq_none.mp ha) hs.accepted fun hx => ?_
    rw [hs.allocations]
    exact (AList.mem_insert _).mpr hx

lemma Once.moves (h : Once B s) (hm : Moves B s s') : Once B s' := by
  induction hm with
  | refl => exact h
  | tail _ hstep ih => exact ih.move hstep

/-- A delivery of an id that was accepted before finds the id in the table. -/
def Redelivers (s : AllocationController) (e : ControllerEvent) : Prop :=
  ∀ id ∈ newIds e, id∈s.accepted → id∈s.allocations
  deriving Decidable

lemma nodup_accepted_step {e : ControllerEvent} (h : s.accepted.Nodup) (hr : Redelivers s e) :
    (s.step e).accepted.Nodup := by
  unfold step
  split_ifs
  · exact h
  rcases moves_handle s e with ⟨finished,rfl⟩ | hm
  · exact (Once.moves ⟨h,fun hB => absurd hB not_mem_nil⟩ (moves_atDeadline s finished)).nodup
  refine (Once.moves ⟨?_,fun hB hid => ?_⟩ hm).nodup
  · rw [accepted_beforeMoves]
    exact h
  rw [accepted_beforeMoves] at hid
  unfold beforeMoves
  split
  · split_ifs
    · exact (hr _ hB hid)
    · obtain ⟨a,ha⟩ := exists_of_mem (hr _ hB hid)
      exact mem_of_lookup (lookup_cleanup.mpr ⟨ha,fun _ => hB⟩)
  · exact (hr _ hB hid)

/-- An id is given to a container once, if no delivery repeats an id that was cleaned up. -/
theorem executed_at_most_once (recovered : Dict String ManagedFE) (es : List ControllerEvent)
    (h : Trace.Along step Redelivers (new recovered) es) (id : String) :
    ((new recovered).run es).executed.count id ≤ 1 := by
  have hnodup : ((new recovered).run es).accepted.Nodup :=
    @Trace.Along.invariant _ _ step Redelivers (fun s => s.accepted.Nodup)
      (fun hn hr => nodup_accepted_step hn hr) _ es nodup_nil h
  calc ((new recovered).run es).executed.count id
      ≤ ((new recovered).run es).accepted.count id :=
        (Nat.le_add_right _ _).trans ((ledger_run recovered es).starts id)
    _ ≤ 1 := nodup_iff_count_le_one.mp hnodup id

end AllocationController

open AllocationController

/-- The commands and the task completions with which an allocation is run on container `c`. -/
def deliver (id : String) : ControllerEvent :=
  .reconcile [] [] [] [("c",⟨some id,none,none,none⟩)]

def ranThrough (id : String) : List ControllerEvent :=
  [deliver id,.prepared id (some none),
    .executionFinished id (.completed ⟨.success,none,none,none,0⟩ none []),
    .finalizationFinished id ⟨none,[],none⟩ true]

def oneContainer : Dict String ManagedFE := (∅ : Dict String ManagedFE).insert "c" ⟨.running,1⟩

theorem redelivered_at_once_executed_once :
    ((new oneContainer).run (ranThrough "a"++[deliver "a"])).executed.count "a" ≤ 1 :=
  executed_at_most_once oneContainer (ranThrough "a"++[deliver "a"]) (by decide) "a"

/-- The delivery of another allocation cleans the finished one up, and then it is run again. -/
theorem redelivered_after_cleanup_executed_twice :
    ((new oneContainer).run (ranThrough "a"++[deliver "b"]++ranThrough "a")).executed =
      ["a","a"] := by decide

end Indexify.Dataplane
