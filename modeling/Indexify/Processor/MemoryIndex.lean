import Indexify.Processor.ContainerIndices

/-! The index of executors by free memory. An entry is due to every executor that has a state,
is not deregistered and has memory and CPU left. Entries are removed before a state changes and
inserted after it, so the index stays exact only where the insertion is reached and is wanted. -/
namespace Indexify.ContainerScheduler
open List Dict

structure Hosts where
  executors : Dict ExecutorId ExecutorMetadata
  states : Dict ExecutorId ExecutorServerMetadata
  index : Finset (ℕ ×ₗ ExecutorId)

def hosts (s : ContainerScheduler) : Hosts := ⟨s.executors,s.executorStates,s.executorsByFreeMemory⟩

lemma hosts_frame : ContainerFree hosts := fun _ _ _ _ _ _ _ _ _ => rfl

def Hosts.deregistered (h : Hosts) (id : ExecutorId) : Bool :=
  ((h.executors.lookup id).map ExecutorMetadata.tombstoned).getD false

lemma deregistered_hosts (id : ExecutorId) : HostFree (fun s => s.hosts.deregistered id) :=
  fun _ _ _ _ => rfl

namespace Hosts
variable {h h' : Hosts} {id : ExecutorId}

def Due (h : Hosts) (memory : ℕ) (id : ExecutorId) : Prop :=
  ∃ state, h.states.lookup id = some state ∧ h.deregistered id = false ∧
    0<state.freeResources.memoryBytes ∧ 0<state.freeResources.cpuMsPerSec ∧
    state.freeResources.memoryBytes = memory

/-- No entry is stale: it names the memory its executor has. -/
def Current (h : Hosts) (id : ExecutorId) : Prop :=
  ∀ memory, toLex (memory,id) ∈ h.index → ∃ state, h.states.lookup id = some state ∧
    state.freeResources.memoryBytes = memory

def ExactAt (h : Hosts) (id : ExecutorId) : Prop :=
  ∀ memory, toLex (memory,id) ∈ h.index ↔ h.Due memory id

lemma ExactAt.current (he : h.ExactAt id) : h.Current id := by
  intro memory hm
  obtain ⟨state,hs,-,-,-,hmem⟩ := (he memory).mp hm
  exact ⟨state,hs,hmem⟩

lemma not_due (hnone : h.states.lookup id = none) (memory : ℕ) : ¬h.Due memory id := by
  rintro ⟨state,hs,-⟩
  cases hnone.symm.trans hs

lemma Current.notMem (hc : h.Current id) (hnone : h.states.lookup id = none) (memory : ℕ) :
    toLex (memory,id) ∉ h.index := by
  intro hm
  obtain ⟨state,hs,-⟩ := hc memory hm
  cases hnone.symm.trans hs

/-- Exact, apart from executors whose entry is current but not due. -/
structure ExactBut (h : Hosts) (late : ExecutorId → Prop) : Prop where
  current : ∀ id, h.Current id
  exactAt : ∀ id, ¬late id → h.ExactAt id

def Exact (h : Hosts) : Prop := ∀ id, h.ExactAt id

lemma Exact.exactBut (he : h.Exact) (late : ExecutorId → Prop) : h.ExactBut late :=
  ⟨fun id => (he id).current,fun id _ => he id⟩

structure SameAt (h h' : Hosts) (id : ExecutorId) : Prop where
  state : h'.states.lookup id = h.states.lookup id
  deregistered : h'.deregistered id = h.deregistered id
  index : ∀ memory, toLex (memory,id) ∈ h'.index ↔ toLex (memory,id) ∈ h.index

lemma SameAt.trans {h'' : Hosts} (hs : SameAt h h' id) (hs' : SameAt h' h'' id) : SameAt h h'' id where
  state := hs'.state.trans hs.state
  deregistered := hs'.deregistered.trans hs.deregistered
  index memory := (hs'.index memory).trans (hs.index memory)

lemma SameAt.exactAt (hs : SameAt h h' id) (he : h.ExactAt id) : h'.ExactAt id := by
  intro memory
  rw [hs.index,he memory]
  unfold Due
  rw [hs.state,hs.deregistered]

lemma SameAt.current (hs : SameAt h h' id) (hc : h.Current id) : h'.Current id := by
  intro memory hm
  rw [hs.state]
  exact hc memory ((hs.index memory).mp hm)

lemma ExactBut.change {late late' : ExecutorId → Prop} (he : h.ExactBut late)
    (hothers : ∀ {id'}, id'≠id → SameAt h h' id') (hcurrent : h'.Current id)
    (hself : ¬late' id → h'.ExactAt id) (hlate : ∀ {id'}, id'≠id → late id' → late' id') :
    h'.ExactBut late' := by
  constructor
  · intro id'
    by_cases hne : id'=id
    · exact hne ▸ hcurrent
    · exact (hothers hne).current (he.current id')
  intro id' hl
  by_cases hne : id'=id
  · subst hne
    exact hself hl
  · exact (hothers hne).exactAt (he.exactAt id' fun h => hl (hlate hne h))

/-- The executor is filed by what its state has left, deregistered or not. -/
def Entered (h : Hosts) (id : ExecutorId) : Prop :=
  ∀ memory, toLex (memory,id) ∈ h.index ↔ ∃ state, h.states.lookup id = some state ∧
    0<state.freeResources.memoryBytes ∧ 0<state.freeResources.cpuMsPerSec ∧
    state.freeResources.memoryBytes = memory

lemma Entered.current (he : h.Entered id) : h.Current id := by
  intro memory hm
  obtain ⟨state,hs,-,-,hmem⟩ := (he memory).mp hm
  exact ⟨state,hs,hmem⟩

lemma Entered.exactAt (he : h.Entered id) (hd : h.deregistered id = false) : h.ExactAt id := by
  intro memory
  rw [he memory]
  simp [Due,hd]

end Hosts

section
variable (s : ContainerScheduler) (id : ExecutorId) {id' : ExecutorId} (r : HostResources)

lemma hosts_insertResourceIndex_states : (s.insertResourceIndex id r).hosts.states = s.hosts.states := by
  unfold insertResourceIndex
  split_ifs <;> rfl

lemma mem_index_insertResourceIndex (memory : ℕ) (id' : ExecutorId) :
    toLex (memory,id') ∈ (s.insertResourceIndex id r).hosts.index ↔ toLex (memory,id') ∈ s.hosts.index ∨
        (0<r.memoryBytes ∧ 0<r.cpuMsPerSec ∧ memory=r.memoryBytes ∧ id'=id) := by
  unfold insertResourceIndex
  split_ifs with hr
  · simp [hosts,hr.1,hr.2,or_comm]
  have : ¬(0<r.memoryBytes ∧ 0<r.cpuMsPerSec ∧ memory=r.memoryBytes ∧ id'=id) :=
    fun h => hr ⟨h.1,h.2.1⟩
  simp only [this,or_false]

lemma mem_index_removeResourceIndex (memory : ℕ) (id' : ExecutorId) :
    toLex (memory,id') ∈ (s.removeResourceIndex id r).hosts.index ↔
      toLex (memory,id') ∈ s.hosts.index ∧ ¬(memory=r.memoryBytes ∧ id'=id) := by
  simp [removeResourceIndex,hosts,and_comm]

open Hosts

lemma sameAt_insertResourceIndex (hne : id'≠id) :
    SameAt s.hosts (s.insertResourceIndex id r).hosts id' where
  state := by rw [hosts_insertResourceIndex_states]
  deregistered := (deregistered_hosts id').insertResourceIndex s id r
  index memory := by simp [mem_index_insertResourceIndex,hne]

lemma sameAt_swapState (old new : ExecutorServerMetadata) (hne : id'≠id) :
    SameAt s.hosts (s.swapState id old new).hosts id' where
  state := AList.lookup_insert_ne hne
  deregistered := rfl
  index memory := (mem_index_removeResourceIndex s id old.freeResources memory id').trans
    (by simp [hne])

lemma entered_swapState {s : ContainerScheduler} {id : ExecutorId} {old : ExecutorServerMetadata}
    (hc : s.hosts.Current id) (hold : s.executorStates.lookup id = some old)
    (new : ExecutorServerMetadata) :
    ((s.swapState id old new).insertResourceIndex id new.freeResources).hosts.Entered id := by
  intro memory
  have hstate : (s.swapState id old new).hosts.states.lookup id = some new := AList.lookup_insert _
  have hgone : toLex (memory,id) ∉ (s.swapState id old new).hosts.index := by
    intro hm
    obtain ⟨hm,hne⟩ := (mem_index_removeResourceIndex s id old.freeResources memory id).mp hm
    obtain ⟨state,hs,hmem⟩ := hc memory hm
    cases hold.symm.trans hs
    exact hne ⟨hmem.symm,rfl⟩
  rw [mem_index_insertResourceIndex,hosts_insertResourceIndex_states,hstate]
  simp [hgone,eq_comm]

/-- A state is set as it is swapped, without an entry to remove where there was none. -/
lemma setExecutorState_spec (new : ExecutorServerMetadata) :
    ∃ s' : ContainerScheduler, (s.setExecutorState id new).hosts =
        (s'.insertResourceIndex id new.freeResources).hosts ∧
      (∀ id', id'≠id → SameAt s.hosts s'.hosts id') ∧
      (s.hosts.Current id → (s'.insertResourceIndex id new.freeResources).hosts.Entered id) := by
  cases hold : s.executorStates.lookup id with
  | some old =>
    refine ⟨s.swapState id old new,?_,fun _ => sameAt_swapState s id old new,
      fun hc => entered_swapState hc hold new⟩
    rw [setExecutorState,hold]
    unfold insertResourceIndex
    split_ifs <;> rfl
  | none =>
    refine ⟨{s with executorStates := s.executorStates.insert id new},?_,
      fun _ hne => ⟨AList.lookup_insert_ne hne,rfl,fun _ => Iff.rfl⟩,fun hc memory => ?_⟩
    · rw [setExecutorState,hold]
      unfold insertResourceIndex
      split_ifs <;> rfl
    rw [mem_index_insertResourceIndex,hosts_insertResourceIndex_states]
    have hsame := hc.notMem hold memory
    simp only [hosts] at hsame ⊢
    simp [hsame,eq_comm]

lemma sameAt_setExecutorState (new : ExecutorServerMetadata) (hne : id'≠id) :
    SameAt s.hosts (s.setExecutorState id new).hosts id' := by
  obtain ⟨s',hs',hsame,-⟩ := setExecutorState_spec s id new
  exact hs' ▸ (hsame id' hne).trans (sameAt_insertResourceIndex _ id _ hne)

lemma entered_setExecutorState {s : ContainerScheduler} {id : ExecutorId} (hc : s.hosts.Current id)
    (new : ExecutorServerMetadata) : (s.setExecutorState id new).hosts.Entered id := by
  obtain ⟨s',hs',-,hentered⟩ := setExecutorState_spec s id new
  exact hs' ▸ hentered hc

lemma sameAt_removeExecutorState (hne : id'≠id) :
    SameAt s.hosts (s.removeExecutorState id).hosts id' := by
  unfold removeExecutorState
  cases hold : s.executorStates.lookup id with
  | none => exact ⟨rfl,rfl,fun _ => Iff.rfl⟩
  | some old =>
    refine ⟨AList.lookup_erase_ne hne,rfl,fun memory => ?_⟩
    refine (mem_index_removeResourceIndex _ id old.freeResources memory id').trans ?_
    simp [hne,hosts]

lemma exactAt_removeExecutorState {s : ContainerScheduler} {id : ExecutorId}
    (hc : s.hosts.Current id) : (s.removeExecutorState id).hosts.ExactAt id := by
  unfold removeExecutorState
  cases hold : s.executorStates.lookup id with
  | none => exact fun memory => iff_of_false (hc.notMem hold memory) (not_due hold memory)
  | some old =>
    refine fun memory => iff_of_false (fun hm => ?_) (not_due (AList.lookup_erase id _) memory)
    obtain ⟨hm,hne⟩ := (mem_index_removeResourceIndex _ id old.freeResources memory id).mp hm
    obtain ⟨state,hs,hmem⟩ := hc memory hm
    cases hold.symm.trans hs
    exact hne ⟨hmem.symm,rfl⟩

end

section
variable {s : ContainerScheduler} {late : ExecutorId → Prop}

open Hosts
variable {id : ExecutorId}

lemma Hosts.ExactBut.setExecutorState (h : s.hosts.ExactBut late)
    (hid : late id ∨ s.hosts.deregistered id = false) (new : ExecutorServerMetadata) :
    (s.setExecutorState id new).hosts.ExactBut late := by
  have hentered := entered_setExecutorState (h.current id) new
  refine h.change (sameAt_setExecutorState s id new) hentered.current (fun hl => ?_) fun _ hl => hl
  exact hentered.exactAt (((deregistered_hosts id).setExecutorState s id new).trans
    (hid.resolve_left hl))

lemma Hosts.ExactBut.foldl_remove {remove : ContainerScheduler → ExecutorId → ContainerScheduler}
    (hremove : ∀ s id, (remove s id).hosts = (s.removeExecutorState id).hosts) {ids : List ExecutorId}
    (h : s.hosts.ExactBut (· ∈ ids)) : (ids.foldl remove s).hosts.Exact := by
  induction ids generalizing s with
  | nil => exact fun id => h.exactAt id not_mem_nil
  | cons id ids ih =>
    refine ih ?_
    rw [hremove]
    have hself := exactAt_removeExecutorState (h.current id)
    exact h.change (sameAt_removeExecutorState s id) hself.current (fun _ => hself)
      fun hne hm => (mem_cons.mp hm).resolve_left hne

/-- States of deregistered executors come only with updates that remove these executors. -/
def UpdatesLiveExecutors (s : ContainerScheduler) (u : SchedulerUpdateRequest) : Prop :=
  ∀ id∈u.updatedExecutorStates.keys, s.hosts.deregistered id = true → id∈u.removeExecutors
  deriving Decidable

lemma UpdatesLiveExecutors.live {u : SchedulerUpdateRequest} (hu : UpdatesLiveExecutors s u) :
    ∀ e∈u.updatedExecutorStates.entries, e.1 ∈ u.removeExecutors ∨ s.hosts.deregistered e.1 = false := by
  intro e he
  cases hd : s.hosts.deregistered e.1 with
  | true => exact .inl (hu e.1 (mem_keys_of_mem he) hd)
  | false => exact .inr rfl

lemma Hosts.ExactBut.foldl_set {σ : Type}
    {step : σ → (Sigma fun _ : ExecutorId => ExecutorServerMetadata) → σ} {view : σ → ContainerScheduler}
    (hstep : ∀ acc e, ∃ new, view (step acc e) = (view acc).setExecutorState e.1 new) {acc : σ}
    (h : (view acc).hosts.ExactBut late) {es : List (Sigma fun _ : ExecutorId => ExecutorServerMetadata)}
    (hes : ∀ e∈es, late e.1 ∨ (view acc).hosts.deregistered e.1 = false) :
    (view (es.foldl step acc)).hosts.ExactBut late := by
  induction es generalizing acc with
  | nil => exact h
  | cons e es ih =>
    obtain ⟨new,hnew⟩ := hstep acc e
    refine ih (hnew ▸ h.setExecutorState (hes e mem_cons_self) new) ?_
    intro e' he'
    rw [hnew]
    exact (hes e' (mem_cons_of_mem _ he')).imp_right
      ((deregistered_hosts e'.1).setExecutorState (view acc) e.1 new).trans

lemma Hosts.Exact.applyContainerUpdate (h : s.hosts.Exact) {u : SchedulerUpdateRequest}
    (hu : UpdatesLiveExecutors s u) : (s.applyContainerUpdate u).hosts.Exact := by
  have hframe := hosts_frame.foldl_updateEntry s u.containers.entries
  refine Hosts.ExactBut.foldl_remove (fun _ _ => rfl) ?_
  refine @Hosts.ExactBut.foldl_set _ _ setExecutorEntry id (fun _ e => ⟨e.2,rfl⟩) _ ?_ _ ?_ <;>
    dsimp only [id] <;> rw [hframe]
  · exact h.exactBut _
  · exact hu.live

section
variable [HashOrder ContainerId]

lemma hosts_removeExecutor (s : ContainerScheduler) (id : ExecutorId) :
    (s.removeExecutor id).hosts = (s.removeExecutorState id).hosts := by
  have hcongr : ∀ {s s' : ContainerScheduler}, s'.hosts=s.hosts →
      (s'.removeExecutorState id).hosts = (s.removeExecutorState id).hosts := by
    intro s s' hs
    have hstates : s'.executorStates=s.executorStates := congrArg Hosts.states hs
    have hexecutors : s'.executors=s.executors := congrArg Hosts.executors hs
    have hindex : s'.executorsByFreeMemory=s.executorsByFreeMemory := congrArg Hosts.index hs
    unfold removeExecutorState
    rw [hstates]
    cases s.executorStates.lookup id with
    | none => exact hs
    | some old => simp only [removeResourceIndex,hosts,hexecutors,hindex]
  refine hcongr ?_
  cases s.executorStates.lookup id with
  | none => rfl
  | some old =>
    exact Trace.frame removeContainerFromIndices hosts hosts_frame.removeContainerFromIndices s _

lemma Hosts.Exact.updateSchedulerUpdate (h : s.hosts.Exact) {u : SchedulerUpdateRequest}
    (hu : UpdatesLiveExecutors s u) : (s.updateSchedulerUpdate u).hosts.Exact := by
  have hmerged : (u.updatedExecutorStates.entries.foldl (mergeExecutorState u) (s,[])).1.hosts.ExactBut
      (· ∈ u.removeExecutors) := by
    exact @Hosts.ExactBut.foldl_set _ _ (mergeExecutorState u) Prod.fst (fun _ _ => ⟨_,rfl⟩) (s,[])
      (h.exactBut _) _ hu.live
  unfold ContainerScheduler.updateSchedulerUpdate
  rcases hacc : u.updatedExecutorStates.entries.foldl (mergeExecutorState u) (s,[]) with ⟨s',dropped⟩
  rw [hacc] at hmerged
  refine Hosts.ExactBut.foldl_remove hosts_removeExecutor ?_
  rw [Trace.frame removeContainerFromIndices hosts hosts_frame.removeContainerFromIndices,
    hosts_frame.foldl_updateEntry]
  exact hmerged

end

lemma Hosts.Exact.upsertExecutor (h : s.hosts.Exact) {executor : ExecutorMetadata}
    (hid : executor.id∈s.executorStates → executor.tombstoned = s.hosts.deregistered executor.id) :
    (s.upsertExecutor executor).hosts.Exact := by
  intro id
  by_cases hne : id=executor.id
  · subst hne
    intro memory
    have hold := h executor.id memory
    by_cases hs : executor.id∈s.executorStates
    · have hd : (s.upsertExecutor executor).hosts.deregistered executor.id =
          s.hosts.deregistered executor.id := by
        rw [← hid hs]
        simp [deregistered,hosts,ContainerScheduler.upsertExecutor]
      refine hold.trans ?_
      unfold Due
      rw [hd]
      rfl
    · have hnone : s.executorStates.lookup executor.id = none := AList.lookup_eq_none.mpr hs
      exact hold.trans (iff_of_false (not_due hnone memory) (not_due hnone memory))
  · refine SameAt.exactAt (h := s.hosts) ⟨rfl,?_,fun _ => Iff.rfl⟩ (h id)
    simp [deregistered,hosts,ContainerScheduler.upsertExecutor,AList.lookup_insert_ne hne]

lemma hosts_deregisterExecutor (s : ContainerScheduler) (id : ExecutorId) :
    (s.deregisterExecutor id).hosts =
      ⟨s.executors.modify id fun e => {e with tombstoned := true},s.executorStates,
        match s.executorStates.lookup id with
        | some state => s.executorsByFreeMemory.erase (toLex (state.freeResources.memoryBytes,id))
        | none => s.executorsByFreeMemory⟩ := by
  unfold ContainerScheduler.deregisterExecutor
  dsimp only
  cases s.executorStates.lookup id with
  | none =>
    cases s.executorClasses.lookup id <;> rfl
  | some state =>
    dsimp only [removeResourceIndex]
    cases s.executorClasses.lookup id <;> rfl

lemma Hosts.Exact.deregisterExecutor (h : s.hosts.Exact) (hid : id∈s.executorStates → id∈s.executors) :
    (s.deregisterExecutor id).hosts.Exact := by
  rw [hosts_deregisterExecutor]
  intro id'
  by_cases hne : id'=id
  · subst hne
    intro memory
    cases hst : s.executorStates.lookup id' with
    | none => exact (h id' memory).trans (iff_of_false (not_due hst memory) (not_due hst memory))
    | some state =>
      have hknown : id'∈s.executors := hid (mem_of_lookup hst)
      obtain ⟨e,he⟩ := exists_of_mem hknown
      refine iff_of_false ?_ ?_
      · intro hm
        obtain ⟨hne,hm⟩ := Finset.mem_erase.mp hm
        obtain ⟨state',hs,hmem⟩ := (h id').current memory hm
        cases hst.symm.trans hs
        exact hne (by rw [hmem])
      · rintro ⟨state',-,hd,-⟩
        simp [deregistered,lookup_modify,he] at hd
  · refine SameAt.exactAt (h := s.hosts) ⟨rfl,?_,?_⟩ (h id')
    · simp [deregistered,hosts,lookup_modify,hne]
    intro memory
    cases s.executorStates.lookup id with
    | none => rfl
    | some state => simp [hosts,hne]

lemma Hosts.Exact.of_entered {s' : ContainerScheduler} (h : s.hosts.Exact)
    (hentered : s'.hosts.Entered id) (hd : s'.hosts.deregistered id = false)
    (hother : ∀ id', id'≠id → SameAt s.hosts s'.hosts id') : s'.hosts.Exact := by
  intro id'
  by_cases hne : id'=id
  · exact hne ▸ hentered.exactAt hd
  · exact (hother id' hne).exactAt (h id')

lemma Hosts.Exact.swapState (h : s.hosts.Exact) {old : ExecutorServerMetadata}
    (hold : s.executorStates.lookup id = some old) (hd : s.hosts.deregistered id = false)
    (new : ExecutorServerMetadata) :
    ((s.swapState id old new).insertResourceIndex id new.freeResources).hosts.Exact := by
  refine h.of_entered (entered_swapState (h id).current hold new)
    (((deregistered_hosts id).insertResourceIndex _ id _).trans hd) ?_
  exact fun id' hne => (sameAt_swapState s id old new hne).trans
    (sameAt_insertResourceIndex _ id _ hne)

/-- A container's executor that still has a state is not deregistered. -/
def HostLive (s : ContainerScheduler) (fc : ContainerServerMetadata) : Prop :=
  fc.executorId ∈ s.executorStates → s.hosts.deregistered fc.executorId = false
  deriving Decidable

lemma Hosts.Exact.freeReaped (h : s.hosts.Exact) {executorId : ExecutorId}
    (hd : executorId∈s.executorStates → s.hosts.deregistered executorId = false) (c : Container) :
    (s.freeReaped executorId c).hosts.Exact := by
  unfold ContainerScheduler.freeReaped
  cases hst : s.executorStates.lookup executorId with
  | none => exact h
  | some state =>
    exact h.swapState hst (hd (mem_of_lookup hst)) _

structure Reapable (s : ContainerScheduler) : Prop where
  exact : s.hosts.Exact
  live : ∀ id fc, s.functionContainers.lookup id = some fc → HostLive s fc

variable (s)

lemma freeReaped_states (executorId id : ExecutorId) (c : Container) :
    id ∈ (s.freeReaped executorId c).executorStates ↔ id∈s.executorStates := by
  have hins : ∀ (s : ContainerScheduler) (r : HostResources),
      (s.insertResourceIndex executorId r).executorStates = s.executorStates :=
    fun s r => hosts_insertResourceIndex_states s executorId r
  unfold freeReaped
  cases hst : s.executorStates.lookup executorId with
  | none => rfl
  | some state =>
    rw [hins]
    change id ∈ s.executorStates.insert executorId _ ↔ _
    rw [AList.mem_insert]
    exact or_iff_right_of_imp fun he => he ▸ mem_of_lookup hst

variable {s}

lemma Reapable.reapContainer {r : Reaping} (h : Reapable r.scheduler) (id : ContainerId) :
    Reapable (ContainerScheduler.reapContainer r id).scheduler := by
  unfold ContainerScheduler.reapContainer
  cases hfc : r.scheduler.functionContainers.lookup id with
  | none => exact h
  | some fc =>
    dsimp only
    split_ifs
    iterate 3 exact h
    · have hhosts := hosts_frame.terminateContainer r.scheduler id
      have hcontainers : (r.scheduler.terminateContainer id).1.functionContainers =
          r.scheduler.functionContainers.insert id fc.terminate := by
        unfold terminateContainer
        rw [hfc]
        dsimp only [setContainer]
        cases fc.idleSince <;> rfl
      have hstates : (r.scheduler.terminateContainer id).1.executorStates =
          r.scheduler.executorStates := congrArg Hosts.states hhosts
      constructor
      · refine Hosts.Exact.freeReaped (by rw [hhosts]; exact h.exact) ?_ _
        rw [hstates,hhosts]
        exact h.live id fc hfc
      intro id' fc' hfc'
      change (freeReaped _ fc.executorId fc.functionContainer).functionContainers.lookup id' =
        some fc' at hfc'
      rw [containers_hosts.freeReaped,hcontainers,lookup_insert_if] at hfc'
      intro hmem
      change fc'.executorId ∈ (freeReaped _ fc.executorId fc.functionContainer).executorStates at hmem
      rw [freeReaped_states,hstates] at hmem
      refine ((deregistered_hosts fc'.executorId).freeReaped _ fc.executorId _).trans ?_
      rw [hhosts]
      split_ifs at hfc'
      · cases hfc'
        exact h.live id fc hfc hmem
      · exact h.live id' fc' hfc' hmem

lemma Hosts.Exact.reapIdleContainers (h : s.hosts.Exact)
    (hlive : ∀ fc∈s.functionContainers.values, HostLive s fc) (minIdleAge now : ℕ) :
    (s.reapIdleContainers minIdleAge now).1.hosts.Exact := by
  have hreapable : Reapable {s with reapedContainers := ∅} :=
    ⟨h,fun id fc hfc => hlive fc ((mem_values_iff _ fc).mpr ⟨id,hfc⟩)⟩
  exact (@Trace.invariant _ _ ContainerScheduler.reapContainer (fun r => Reapable r.scheduler)
    (fun id hr => hr.reapContainer id) ⟨_,{},[]⟩ hreapable _).exact

end

section
variable {s : ContainerScheduler}

open Hosts
variable {state : ExecutorServerMetadata}

def Fits (state : ExecutorServerMetadata) (c : Container) : Prop :=
  c.id ∈ state.resourceClaims ∨ (state.freeResources.canHandleFeResources c.resources).isOk = true
  deriving Decidable

lemma addContainer_of_fits {c : Container} (h : Fits state c) : (state.addContainer c).2 = .ok () := by
  unfold ExecutorServerMetadata.addContainer
  dsimp only
  cases hclaim : state.resourceClaims.lookup c.id with
  | some claim => rfl
  | none =>
    have hok := h.resolve_left (AList.lookup_eq_none.mp hclaim)
    dsimp only [HostResources.consumeFeResources]
    cases hcan : state.freeResources.canHandleFeResources c.resources with
    | ok _ => rfl
    | error e =>
      rw [hcan] at hok
      cases hok

lemma freeResources_addContainer {c : Container}
    {e : ResourceError} (h : (state.addContainer c).2 = .error e) :
    (state.addContainer c).1.freeResources = state.freeResources := by
  unfold ExecutorServerMetadata.addContainer at h ⊢
  dsimp only at h ⊢
  cases hclaim : state.resourceClaims.lookup c.id with
  | some claim => rfl
  | none =>
    rw [hclaim] at h
    dsimp only [HostResources.consumeFeResources] at h ⊢
    cases hcan : state.freeResources.canHandleFeResources c.resources with
    | ok _ =>
      rw [hcan] at h
      cases h
    | error e => rfl

/-- The executor of a reaped container is registered, and has room for it or at least memory and
CPU left. -/
def Readmissible (s : ContainerScheduler) (id : ContainerId) : Prop :=
  ∀ fc ∈ s.functionContainers.lookup id, ∀ state ∈ s.executorStates.lookup fc.executorId,
    s.hosts.deregistered fc.executorId = false ∧ (Fits state fc.functionContainer ∨
        (0<state.freeResources.memoryBytes ∧ 0<state.freeResources.cpuMsPerSec))
  deriving Decidable

def Restorable (s : ContainerScheduler) (fnUri : FunctionURI) : Prop :=
  ∀ id ∈ (s.reapedContainers.lookup fnUri).bind List.getLast?, Readmissible s id
  deriving Decidable

/-- What a restore leaves: the index, and the free resources a creation that follows looks at. -/
structure Restored (s s' : ContainerScheduler) : Prop where
  exact : s'.hosts.Exact
  executors : s'.executors=s.executors
  free : ∀ id state', s'.executorStates.lookup id = some state' →
    ∃ state, s.executorStates.lookup id = some state ∧ state'.freeResources=state.freeResources

lemma Restored.of_hosts {s' : ContainerScheduler} (h : s.hosts.Exact) (hs : s'.hosts=s.hosts) :
    Restored s s' where
  exact := hs ▸ h
  executors := congrArg Hosts.executors hs
  free id state' hst := by
    have hstates : s'.executorStates=s.executorStates := congrArg Hosts.states hs
    exact ⟨state',hstates ▸ hst,rfl⟩

lemma Restored.refused (h : s.hosts.Exact) {id : ExecutorId} {state' : ExecutorServerMetadata}
    (hst : s.executorStates.lookup id = some state)
    (hfree : state'.freeResources=state.freeResources) (hd : s.hosts.deregistered id = false) :
    Restored s ((s.swapState id state state').insertResourceIndex id state'.freeResources) := by
  refine ⟨h.swapState hst hd state',
    @HostFree.insertResourceIndex _ ContainerScheduler.executors (fun _ _ _ _ => rfl) _ _ _,?_⟩
  intro id' state'' hst'
  have hstates : ((s.swapState id state state').insertResourceIndex id
      state'.freeResources).executorStates = s.executorStates.insert id state' :=
    hosts_insertResourceIndex_states _ _ _
  rw [hstates] at hst'
  rcases lookup_insert_cases hst' with ⟨rfl,rfl⟩ | ⟨-,hst'⟩
  · exact ⟨state,hst,hfree⟩
  · exact ⟨state'',hst',rfl⟩

lemma updatesLiveExecutors_restoreUpdate {executorId : ExecutorId}
    (hd : s.hosts.deregistered executorId = false) (id : ContainerId) :
    UpdatesLiveExecutors s (s.restoreUpdate id executorId) := by
  have hkeys : ∀ id' ∈ (s.restoreUpdate id executorId).updatedExecutorStates.keys, id' = executorId := by
    intro id' hid
    unfold restoreUpdate at hid
    revert hid
    cases s.functionContainers.lookup id <;> cases s.executorStates.lookup executorId <;> intro hid
    · exact (not_mem_nil hid).elim
    · exact mem_singleton.mp hid
    · exact (not_mem_nil hid).elim
    · exact mem_singleton.mp hid
  intro id' hid hd'
  rw [hkeys id' hid,hd] at hd'
  cases hd'

lemma reinstate_spec (h : s.hosts.Exact) {id : ContainerId} {fc : ContainerServerMetadata}
    (hfc : s.functionContainers.lookup id = some fc)
    (hst : s.executorStates.lookup fc.executorId = some state) (hr : Readmissible s id) (now : Instant) :
    (∃ s', s.reinstate id fc state now = (s',none) ∧ Restored s s') ∨
      ∃ s' u, s.reinstate id fc state now = (s',some u) ∧ s'.hosts.Exact ∧ UpdatesLiveExecutors s' u := by
  obtain ⟨hd,hroom⟩ := hr fc hfc state hst
  unfold reinstate
  dsimp only
  cases hadd : (state.addContainer fc.functionContainer).2 with
  | error e =>
    have hpos := hroom.resolve_left fun hf => by
      rw [addContainer_of_fits hf] at hadd
      cases hadd
    have hfree := freeResources_addContainer hadd
    have hrefused := Restored.refused h hst hfree hd
    -- the old entry is put back, which is the entry of the new state
    rw [insertResourceIndex,hfree,if_pos hpos] at hrefused
    exact .inl ⟨_,rfl,hrefused⟩
  | ok _ =>
    have hexact := h.swapState hst hd (state.addContainer fc.functionContainer).1
    refine .inr ⟨_,_,rfl,?_,?_⟩
    · rw [hosts_frame.updateContainerIndices]
      exact hexact
    refine updatesLiveExecutors_restoreUpdate ?_ id
    rw [hosts_frame.updateContainerIndices]
    exact ((deregistered_hosts _).insertResourceIndex _ _ _).trans hd

lemma restoreReapedContainer_spec (h : s.hosts.Exact) {fnUri : FunctionURI}
    (hr : Restorable s fnUri) (now : Instant) :
    (∃ s', s.restoreReapedContainer fnUri now = (s',none) ∧ Restored s s') ∨
      ∃ s' u, s.restoreReapedContainer fnUri now = (s',some u) ∧ s'.hosts.Exact ∧
        UpdatesLiveExecutors s' u := by
  unfold restoreReapedContainer
  rcases popReaped_eq s fnUri with hpop | ⟨ids,id,hids,hlast,hpop⟩ <;> rw [hpop]
  · exact .inl ⟨s,rfl,.of_hosts h rfl⟩
  have hready : Readmissible s id := hr id (by simp [hids,hlast])
  generalize (if ids.dropLast.isEmpty then s.reapedContainers.erase fnUri
    else s.reapedContainers.insert fnUri ids.dropLast) = reaped
  dsimp only
  cases hfc : s.functionContainers.lookup id with
  | none => exact .inl ⟨_,rfl,.of_hosts h rfl⟩
  | some fc =>
    dsimp only
    cases hst : s.executorStates.lookup fc.executorId with
    | none => exact .inl ⟨_,rfl,.of_hosts h rfl⟩
    | some state =>
      rcases reinstate_spec (s := {s with reapedContainers := reaped}) h hfc hst hready now with
        ⟨s',hs',hrestored⟩ | hrevived
      · exact .inl ⟨s',hs',hrestored.exact,hrestored.executors,hrestored.free⟩
      · exact .inr hrevived

end

section
variable {s : ContainerScheduler}

open Hosts
variable {state : ExecutorServerMetadata} {c : Container} {resources : FunctionResources}
  {id : ExecutorId}

/-- A host that accepts one of the GPU configurations accepts the first. -/
def FirstGpuFits (r : FunctionResources) (h : HostResources) : Prop :=
  (h.canHandleFunctionResources r).isOk = true →
    (h.canHandleFeResources (r.withGpu r.gpuConfigs.head?)).isOk = true
  deriving Decidable

lemma firstGpuFits_requirements (r : ContainerResources) (h : HostResources) :
    FirstGpuFits (requirements r) h := by
  unfold FirstGpuFits requirements HostResources.canHandleFunctionResources
  cases r.gpu with
  | none => exact id
  | some gpu =>
    intro hok
    simp only [Option.toList_some,HostResources.canHandleFunctionResources.go,List.head?_cons] at hok ⊢
    split at hok
    · next hcan =>
      rw [hcan]
      rfl
    · cases hok

lemma requirements_withGpu (r : ContainerResources) :
    (requirements r).withGpu (requirements r).gpuConfigs.head? = r := by
  cases r with
  | mk cpu memory disk gpu => cases gpu <;> rfl

lemma addContainer_of_firstGpuFits (hfits : FirstGpuFits resources state.freeResources)
    (hc : c.resources = resources.withGpu resources.gpuConfigs.head?)
    (hok : (state.freeResources.canHandleFunctionResources resources).isOk = true) :
    (state.addContainer c).2 = .ok () :=
  addContainer_of_fits (.inr (hc ▸ hfits hok))

lemma hasResources_canHandle (hst : s.executorStates.lookup id = some state)
    (h : Placement.hasResources s id resources = true) :
    (state.freeResources.canHandleFunctionResources resources).isOk = true := by
  unfold Placement.hasResources at h
  rw [hst] at h
  dsimp only at h
  split_ifs at h
  exact h

lemma deregistered_of_candidate (h : Placement.Candidate s resources id) :
    s.hosts.deregistered id = false := by
  obtain ⟨executor,he,ht⟩ := h.known
  simp [deregistered,hosts,he,ht]

lemma registerContainer_spec (h : s.hosts.Exact) (hst : s.executorStates.lookup id = some state)
    (hd : s.hosts.deregistered id = false) (hadd : (state.addContainer c).2 = .ok ())
    (containerType : ContainerType) (now : Instant) :
    ∃ s' u, s.registerContainer id c containerType now = (s',.ok u) ∧ s'.hosts.Exact ∧
      UpdatesLiveExecutors s' u := by
  unfold registerContainer
  rw [hst]
  dsimp only
  rw [hadd]
  refine ⟨_,_,rfl,h.swapState hst hd _,?_⟩
  intro id' hid hd'
  obtain rfl : id'=id := mem_singleton.mp hid
  cases (((deregistered_hosts id').insertResourceIndex _ id' _).symm.trans hd').symm.trans hd

variable [HashOrder ExecutorId]

lemma Hosts.Exact.create (h : s.hosts.Exact)
    (hc : c.resources = resources.withGpu resources.gpuConfigs.head?)
    (hfits : ∀ id state, s.executorStates.lookup id = some state →
      FirstGpuFits resources state.freeResources)
    (cache : FeasibilityCache) (w : Workload) (containerType : ContainerType) (draw : Draw) :
    (applyCreated (s.createContainer cache w resources c containerType draw)).hosts.Exact := by
  unfold createContainer
  rcases hsel : Placement.selectExecutor s w resources cache 2 draw.random with ⟨cache',result⟩
  dsimp only
  cases hid : result.executorId with
  | none => exact h
  | some id =>
    have hchosen : (Placement.selectExecutor s w resources cache 2 draw.random).2.executorId = some id := by
      rw [hsel]
      exact hid
    have hcandidate := Placement.selectExecutor_candidate hchosen
    dsimp only
    split_ifs with hmem
    · obtain ⟨state,hst⟩ := exists_of_mem hmem
      have hd := deregistered_of_candidate hcandidate
      have hadd := addContainer_of_firstGpuFits (hfits id state hst) hc
        (hasResources_canHandle hst hcandidate.resources)
      obtain ⟨s',u,hs',hexact,hlive⟩ := registerContainer_spec
        (s := {s with lastPlacement := some result}) h hst hd hadd
        containerType draw.now
      rw [hs']
      exact hexact.applyContainerUpdate hlive
    · exact h

@[mk_iff] structure Placeable (s : ContainerScheduler) (fnUri : FunctionURI) (resources : FunctionResources) :
    Prop where
  restorable : Restorable s fnUri
  fits : ∀ state∈s.executorStates.values, FirstGpuFits resources state.freeResources

instance (fnUri : FunctionURI) (resources : FunctionResources) :
    Decidable (Placeable s fnUri resources) :=
  decidable_of_iff' _ (placeable_iff s fnUri resources)

lemma Hosts.Exact.createForFunction (h : s.hosts.Exact) (cache : FeasibilityCache)
    (ns application version : String) (function : Function) (state : ApplicationState) (draw : Draw)
    (hp : state=.active → Placeable s ⟨ns,application,function.name,version⟩ function.resources) :
    (applyCreated (s.createContainerForFunction cache ns application version function state
      draw)).hosts.Exact := by
  unfold createContainerForFunction
  cases state with
  | disabled reason => exact h
  | active =>
    dsimp only
    rcases restoreReapedContainer_spec h (hp rfl).restorable draw.now with
      ⟨s',hs',hrestored⟩ | ⟨s',u,hs',hexact,hlive⟩ <;> rw [hs']
    · refine hrestored.exact.create rfl ?_ _ _ _ _
      intro id state' hst'
      obtain ⟨state,hst,hfree⟩ := hrestored.free id state' hst'
      rw [hfree]
      exact (hp rfl).fits state ((mem_values_iff _ state).mpr ⟨id,hst⟩)
    · exact hexact.applyContainerUpdate hlive

end

section
variable [HashOrder ContainerId] (s : ContainerScheduler)

lemma hosts_deleteApplication (ns name : String) : (s.deleteApplication ns name).1.hosts = s.hosts := by
  unfold deleteApplication removeFunctionPoolsOf
  rw [Trace.frame removeFunctionPool hosts (fun _ _ => rfl)]
  exact hosts_frame.foldl_dropDeleted s _

lemma Hosts.Exact.updateWithIntents {s : ContainerScheduler} (h : s.hosts.Exact) {p : Payload}
    (hupsert : ∀ e, p = .upsertExecutor e → e.id∈s.executorStates →
      e.tombstoned = s.hosts.deregistered e.id)
    (hderegister : ∀ id, p = .deregisterExecutor id → id∈s.executorStates → id∈s.executors)
    (hupdate : ∀ u, p = .schedulerUpdate u → UpdatesLiveExecutors s u) :
    (s.updateWithIntents p).1.hosts.Exact := by
  have hpools := s.updateWithIntents_pools hosts (fun _ _ _ _ _ => rfl) (p := p)
  cases p with
  | upsertExecutor e => exact h.upsertExecutor (hupsert e rfl)
  | deregisterExecutor id => exact h.deregisterExecutor (hderegister id rfl)
  | schedulerUpdate u => exact h.updateSchedulerUpdate (hupdate u rfl)
  | deleteApplication ns name =>
    change (s.deleteApplication ns name).1.hosts.Exact
    rwa [hosts_deleteApplication]
  | deleteContainerPool ns poolId =>
    change (s.deleteContainerPool ns poolId).1.hosts.Exact
    rwa [hosts_frame.deleteContainerPool]
  | createContainerPool pool
  | updateContainerPool pool
  | createOrUpdateApplication req => rwa [hpools trivial]
  | _ => exact h

/-- An operation that reaches its insertions into the index, and for registered executors
only. -/
def Reindexes (s : ContainerScheduler) : Op → Prop
  | .payload (.upsertExecutor e) =>
    e.id ∈ s.executorStates → e.tombstoned = s.hosts.deregistered e.id
  | .payload (.deregisterExecutor id) => id∈s.executorStates → id∈s.executors
  | .payload (.schedulerUpdate u) => UpdatesLiveExecutors s u
  | .applyContainerUpdate u => UpdatesLiveExecutors s u
  | .reapIdleContainers _ _ => ∀ fc∈s.functionContainers.values, HostLive s fc
  | .restoreReapedContainer fnUri _ => Restorable s fnUri
  | .createForFunction _ ns application version function state _ =>
    state = .active → Placeable s ⟨ns,application,function.name,version⟩ function.resources
  | _ => True

instance (s : ContainerScheduler) (op : Op) : Decidable (Reindexes s op) := by
  unfold Reindexes
  split <;> infer_instance

variable [HashOrder ExecutorId]

lemma Hosts.Exact.step {s : ContainerScheduler} (h : s.hosts.Exact) {op : Op}
    (hop : Reindexes s op) : (ContainerScheduler.step s op).hosts.Exact := by
  cases op with
  | payload p =>
    refine h.updateWithIntents ?_ ?_ ?_ <;> rintro _ rfl <;> exact hop
  | applyContainerUpdate u => exact h.applyContainerUpdate hop
  | terminateContainer id =>
    change (s.terminateContainer id).1.hosts.Exact
    rwa [hosts_frame.terminateContainer]
  | reapIdleContainers minIdleAge now => exact h.reapIdleContainers hop minIdleAge now
  | restoreReapedContainer fnUri now =>
    change (s.restoreReapedContainer fnUri now).1.hosts.Exact
    rcases restoreReapedContainer_spec h hop now with ⟨s',hs',hr⟩ | ⟨s',u,hs',hexact,-⟩ <;> rw [hs']
    · exact hr.exact
    · exact hexact
  | claimPoolContainer key sandboxId timeout =>
    change (s.claimPoolContainer key sandboxId timeout).1.hosts.Exact
    rwa [hosts_frame.claimPoolContainer]
  | createForFunction cache ns application version function state draw =>
    exact h.createForFunction cache ns application version function state draw hop
  | createForSandbox cache sandbox snapshotUri draw =>
    refine h.create ?_ (fun _ _ _ => firstGpuFits_requirements _ _) _ _ _ _
    exact (requirements_withGpu sandbox.resources).symm
  | createForPool cache pool draw =>
    refine h.create ?_ (fun _ _ _ => firstGpuFits_requirements _ _) _ _ _ _
    exact (requirements_withGpu pool.resources).symm

/-- In every state of such a run the index holds one entry for each registered executor with
memory and CPU left, under the memory its state has, and no other. -/
theorem run_memory_index_exact (functionPools sandboxPools : Dict ContainerPoolKey ContainerPool)
    (ops : List Op)
    (hrun : Trace.Along ContainerScheduler.step Reindexes (new functionPools sandboxPools) ops)
    (memory : ℕ) (id : ExecutorId) :
    let s := run (new functionPools sandboxPools) ops
    toLex (memory,id) ∈ s.executorsByFreeMemory ↔ ∃ state, s.executorStates.lookup id = some state ∧
        (∀ executor, s.executors.lookup id = some executor → executor.tombstoned=false) ∧
        0<state.freeResources.memoryBytes ∧ 0<state.freeResources.cpuMsPerSec ∧
        state.freeResources.memoryBytes = memory := by
  intro s
  have hnew : (new functionPools sandboxPools).hosts.Exact := by
    exact fun id memory => iff_of_false (Finset.notMem_empty _) (Hosts.not_due rfl memory)
  have h : s.hosts.Exact := @Trace.Along.invariant _ _ ContainerScheduler.step Reindexes
    (fun t => t.hosts.Exact) (fun ht hop => ht.step hop) _ _ hnew hrun
  have hregistered : s.hosts.deregistered id = false ↔
      ∀ executor, s.executors.lookup id = some executor → executor.tombstoned=false := by
    simp only [Hosts.deregistered,hosts]
    cases s.executors.lookup id <;> simp
  refine (h id memory).trans ?_
  simp only [Hosts.Due,hregistered]
  rfl

end

attribute [local instance] HashOrder.ascending

/-- A container is created, reaped and restored: the one entry has the memory without it. -/
theorem churnOps_memory_index_exact :
    let ops := churnOps.take 6
    Trace.Along ContainerScheduler.step Reindexes (new ∅ ∅) ops ∧ toLex (1536*1024*1024,⟨"executor"⟩) ∈
        (run (new ∅ ∅) ops).executorsByFreeMemory := by
  have hrun : Trace.Along ContainerScheduler.step Reindexes (new ∅ ∅) (churnOps.take 6) := by decide
  refine ⟨hrun,?_⟩
  exact (run_memory_index_exact ∅ ∅ _ hrun (1536*1024*1024) ⟨"executor"⟩).mpr (by decide)

def gpuState : ExecutorServerMetadata := ⟨⟨"executor"⟩,∅,{smallHost with gpu := some ⟨1,"A100"⟩},∅⟩

def gpuFunction : Function := ⟨"train",[],none,1000,⟨1000,512,1024,[⟨1,"H100"⟩,⟨1,"A100"⟩]⟩,⟨0⟩,1⟩

def gpuOps : List Op :=
  [.payload (.upsertExecutor smallExecutor),
    .applyContainerUpdate {updatedExecutorStates :=
      (∅ : Dict ExecutorId ExecutorServerMetadata).insert ⟨"executor"⟩ gpuState},
    .createForFunction ∅ "default" "app" "1" gpuFunction .active ⟨⟨"c1"⟩,0,10⟩]

/-- The creation fails, and the executor with all its memory and CPU free is no longer found. -/
theorem gpuOps_lose_entry :
    let s := run (new ∅ ∅) gpuOps
    toLex (smallHost.memoryBytes,⟨"executor"⟩) ∈
        (run (new ∅ ∅) (gpuOps.take 2)).executorsByFreeMemory ∧
      s.executorsByFreeMemory = ∅ ∧
      (s.executors.lookup ⟨"executor"⟩).map ExecutorMetadata.tombstoned = some false ∧
      (s.executorStates.lookup ⟨"executor"⟩).map ExecutorServerMetadata.freeResources =
        some {smallHost with gpu := some ⟨1,"A100"⟩} ∧
      0<smallHost.memoryBytes ∧ 0<smallHost.cpuMsPerSec := by
  decide

end Indexify.ContainerScheduler
