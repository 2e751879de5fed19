import Indexify.Processor.ContainerIndices

/-! What the creation of a container does to the table of containers and to the reaped ones: a
reaped container of the function comes back, or one new container is registered. -/
namespace Indexify
open ContainerServerMetadata
namespace ContainerScheduler

structure Holdings where
  containers : Dict ContainerId ContainerServerMetadata
  reaped : Dict FunctionURI (List ContainerId)

def holdings (s : ContainerScheduler) : Holdings := ⟨s.functionContainers,s.reapedContainers⟩

lemma holdings_frame : HostFree holdings := fun _ _ _ _ => rfl

section
variable (s : ContainerScheduler) (id : ExecutorId)

@[simp] lemma holdings_markDirty (key : Option ContainerPoolKey) :
    (s.markDirty key).holdings = s.holdings := by
  cases key <;> rfl

@[simp] lemma holdings_removeIdle (t : Option Instant) (id : ContainerId) :
    (s.removeIdle t id).holdings = s.holdings := by
  cases t <;> rfl

@[simp] lemma holdings_reindexIdle (id : ContainerId) (m : ContainerServerMetadata) :
    (s.reindexIdle id m).holdings = s.holdings := by
  unfold reindexIdle
  cases m.idleSince with
  | none => exact holdings_removeIdle s _ id
  | some t =>
    split_ifs
    · exact holdings_removeIdle s _ id
    · exact holdings_removeIdle s _ id

@[simp] lemma holdings_updateContainerIndices (id : ContainerId) (m : ContainerServerMetadata) :
    (s.updateContainerIndices id m).holdings = ⟨s.functionContainers.insert id m,s.reapedContainers⟩ := by
  have hreaped : (s.updateContainerIndices id m).reapedContainers = s.reapedContainers := by
    have hidle := congrArg Holdings.reaped (holdings_reindexIdle s id m)
    refine (congrArg Holdings.reaped (holdings_markDirty _ _)).trans (Eq.trans ?_ hidle)
    unfold fileContainer
    split_ifs <;> rfl
  unfold holdings
  rw [functionContainers_updateContainerIndices,hreaped]

lemma functionContainers_foldl_updateEntry
    (es : List (Sigma fun _ : ContainerId => ContainerServerMetadata)) :
    (es.foldl updateEntry s).functionContainers =
      es.foldl (fun m e => m.insert e.1 e.2) s.functionContainers := by
  induction es generalizing s with
  | nil => rfl
  | cons e es ih =>
    rw [List.foldl_cons,ih,List.foldl_cons,updateEntry,functionContainers_updateContainerIndices]

lemma functionContainers_applyContainerUpdate (u : SchedulerUpdateRequest) :
    (s.applyContainerUpdate u).functionContainers =
      u.containers.entries.foldl (fun m e => m.insert e.1 e.2) s.functionContainers := by
  unfold applyContainerUpdate
  rw [containers_hosts.foldl_removeExecutorState,containers_hosts.foldl_setExecutorEntry,
    functionContainers_foldl_updateEntry]

lemma holdings_applyContainerUpdate_single {u : SchedulerUpdateRequest} {id : ContainerId}
    {fc : ContainerServerMetadata} (hu : u.containers.entries = [⟨id,fc⟩]) :
    (s.applyContainerUpdate u).holdings = ⟨s.functionContainers.insert id fc,s.reapedContainers⟩ := by
  unfold applyContainerUpdate
  rw [holdings_frame.foldl_removeExecutorState,holdings_frame.foldl_setExecutorEntry,hu]
  exact holdings_updateContainerIndices s id fc

@[simp] lemma holdings_terminateContainer (id : ContainerId) : (s.terminateContainer id).1.holdings =
    ⟨s.functionContainers.modify id ContainerServerMetadata.terminate,s.reapedContainers⟩ := by
  unfold terminateContainer Dict.modify
  cases s.functionContainers.lookup id with
  | none => rfl
  | some fc =>
    have hidle : ∀ t : ContainerScheduler, (t.removeIdle fc.idleSince id).holdings = t.holdings :=
      fun t => holdings_removeIdle t _ id
    simp only [holdings,Holdings.mk.injEq] at hidle
    simp only [setContainer,(hidle _).1,(hidle _).2]
    rfl

end

lemma holdings_popReaped (s : ContainerScheduler) (fnUri : FunctionURI) : (s.popReaped fnUri).1.holdings =
    ⟨s.functionContainers,(s.popReaped fnUri).1.reapedContainers⟩ := by
  rcases popReaped_eq s fnUri with hpop | ⟨ids,id,-,-,hpop⟩ <;> simp only [hpop,holdings]

lemma entries_revived (s : ContainerScheduler) (id : ContainerId) (fc : ContainerServerMetadata) :
    ((s.revived id fc).2.map fun u => u.containers.entries) = some [⟨id,fc⟩] := by
  have hstored : ((s.setContainer id fc).updateContainerIndices id fc).functionContainers.lookup id =
      some fc := by
    rw [functionContainers_updateContainerIndices]
    exact AList.lookup_insert _
  unfold revived restoreUpdate
  dsimp only
  rw [hstored]
  split <;> rfl

/-- Of the reaped containers of each function some, the last ones, were forgotten. -/
def Forgets (old new : Dict FunctionURI (List ContainerId)) : Prop :=
  ∀ {uri ids}, new.lookup uri = some ids → ∃ ids', old.lookup uri = some ids' ∧ ids.Sublist ids'

lemma Forgets.refl (reaped : Dict FunctionURI (List ContainerId)) : Forgets reaped reaped :=
  fun h => ⟨_,h,List.Sublist.refl _⟩

lemma forgets_popReaped (s : ContainerScheduler) (fnUri : FunctionURI) :
    Forgets s.reapedContainers (s.popReaped fnUri).1.reapedContainers := by
  rcases popReaped_eq s fnUri with hpop | ⟨ids,id,hids,-,hpop⟩ <;> rw [hpop]
  · exact Forgets.refl _
  intro uri ids' hids'
  split_ifs at hids' with hempty
  · exact ⟨ids',(Dict.lookup_of_erase hids').2,List.Sublist.refl _⟩
  rcases Dict.lookup_insert_cases hids' with ⟨rfl,rfl⟩ | ⟨-,hids'⟩
  · exact ⟨ids,hids,List.dropLast_sublist ids⟩
  · exact ⟨ids',hids',List.Sublist.refl _⟩

section

variable [HashOrder ExecutorId] {s : ContainerScheduler} {cache : FeasibilityCache} {w : Workload}
  {resources : FunctionResources} {container : Container} {containerType : ContainerType}
  {draw : Draw} {u : SchedulerUpdateRequest}

lemma entries_createContainer
    (h : (s.createContainer cache w resources container containerType draw).2.2 = .ok (some u)) :
    ∃ executorId, u.containers.entries =
      [⟨container.id,registered executorId container containerType draw.now⟩] := by
  have hcreated := created_eq_some_iff.mpr h
  rcases created_createContainer s cache w resources container containerType draw with
    hnone | ⟨executorId,state,hsome⟩
  · cases hcreated.symm.trans hnone
  · cases hcreated.symm.trans hsome
    exact ⟨executorId,rfl⟩

/-- The container that a creation for a function hands on: the last reaped one of the function,
alive again, or a new one. -/
inductive Arrives (s : ContainerScheduler) (fnUri : FunctionURI) (container : Container)
    (now : Instant) : ContainerId → ContainerServerMetadata → Prop
  | restored (id : ContainerId) (old : ContainerServerMetadata)
      (hpop : (s.popReaped fnUri).2 = some id) (hold : s.functionContainers.lookup id = some old) :
      Arrives s fnUri container now id (old.revive now)
  | created (executorId : ExecutorId) :
      Arrives s fnUri container now container.id (registered executorId container .function now)

structure Arrival (s s' : ContainerScheduler) (fnUri : FunctionURI) (container : Container)
    (now : Instant) (u : SchedulerUpdateRequest) : Prop where
  arrives : ∃ id fc, u.containers.entries = [⟨id,fc⟩] ∧ Arrives s fnUri container now id fc ∧
    (s'.applyContainerUpdate u).functionContainers = s.functionContainers.insert id fc
  reaped : (s'.applyContainerUpdate u).reapedContainers = (s.popReaped fnUri).1.reapedContainers

omit [HashOrder ExecutorId] in
lemma arrival_revived {fnUri : FunctionURI} {now : Instant} {id : ContainerId}
    {fc : ContainerServerMetadata} {s' : ContainerScheduler} (container : Container)
    (hs' : core s' = core (s.popReaped fnUri).1) (hpop : (s.popReaped fnUri).2 = some id)
    (hfc : s.functionContainers.lookup id = some fc) (hu : (s'.revived id (fc.revive now)).2 = some u) :
    Arrival s (s'.revived id (fc.revive now)).1 fnUri container now u := by
  have he := entries_revived s' id (fc.revive now)
  rw [hu] at he
  have happly := holdings_applyContainerUpdate_single (s'.revived id (fc.revive now)).1
    (Option.some.inj he)
  have hrevived : (s'.revived id (fc.revive now)).1.holdings = _ :=
    holdings_updateContainerIndices (s'.setContainer id (fc.revive now)) id (fc.revive now)
  have hframe := (holdings_frame.of_core hs').trans (holdings_popReaped s fnUri)
  simp only [holdings,Holdings.mk.injEq,setContainer,AList.insert_insert] at happly hrevived hframe
  rw [hrevived.1,hframe.1,AList.insert_insert] at happly
  exact ⟨⟨id,fc.revive now,Option.some.inj he,.restored id fc hpop hfc,happly.1⟩,
    happly.2.trans (hrevived.2.trans hframe.2)⟩

omit [HashOrder ExecutorId]
variable {s' : ContainerScheduler} {fnUri : FunctionURI} {now : Instant}

lemma Creation.holdings (h : Creation s fnUri container now s' none) :
    s'.functionContainers = s.functionContainers ∧ Forgets s.reapedContainers s'.reapedContainers := by
  cases h with
  | unchanged => exact ⟨rfl,Forgets.refl _⟩
  | refused hs =>
    have hframe := (holdings_frame.of_core hs).trans (holdings_popReaped s _)
    simp only [ContainerScheduler.holdings,Holdings.mk.injEq] at hframe
    exact ⟨hframe.1,hframe.2 ▸ forgets_popReaped s _⟩

lemma Creation.arrival (h : Creation s fnUri container now s' (some u)) :
    Arrival s s' fnUri container now u := by
  cases h with
  | restored hs' hpop hfc => exact arrival_revived container hs' hpop hfc rfl
  | added executorId state hs =>
    have he : (registration container (registered executorId container .function now)
      state).containers.entries = [⟨container.id,registered executorId container .function now⟩] := rfl
    have happly := holdings_applyContainerUpdate_single s' he
    have hframe := (holdings_frame.of_core hs).trans (holdings_popReaped s _)
    simp only [ContainerScheduler.holdings,Holdings.mk.injEq] at happly hframe
    rw [hframe.1,hframe.2] at happly
    exact ⟨⟨_,_,he,.created executorId,happly.1⟩,happly.2⟩

end
end ContainerScheduler
end Indexify
