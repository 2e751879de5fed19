import Indexify.Processor.ContainerVersions

/-! Where pending containers come from. A handler leaves a container pending, in the table or in its
update, only if it was pending before or if the work of the handler brought it in: as a new
container, or as one that an executor reports as pending. -/
namespace Indexify
open ContainerServerMetadata List

def Work.brings (s : ContainerScheduler) : Work → List ContainerId
  | .allocate _ _ _ _ _ draw => [draw.draw.containerId]
  | .allocateSandbox _ _ sandbox _ => [.ofSandbox sandbox.id]
  | .reconcile _ _ executorId _ =>
    match s.executors.lookup executorId with
    | none => []
    | some executor => (executor.containers.entries.filter fun e => e.2.state=.pending).flatMap
        fun e => [e.1,e.2.id]
  | .place _ _ _ draw => [draw.containerId]
  | _ => []

namespace ContainerScheduler

/-- The entry has its own id as its key, and the ids of pending entries are in `P`. -/
structure PendingIn (P : ContainerId → Prop) (id : ContainerId) (fc : ContainerServerMetadata) :
    Prop where
  keyed : fc.functionContainer.id=id
  pending : fc.functionContainer.state=.pending → P id

section
variable {P : ContainerId → Prop} {id : ContainerId} {fc : ContainerServerMetadata}

lemma stable_pendingIn : Stable (PendingIn P) := fun _ _ _ hold hversion =>
  ⟨hversion.container.trans hold.keyed,fun h => hold.pending (hversion.pending h)⟩

lemma pendingIn_registered {c : Container} (hid : c.id=id) (hP : P id) (e : ExecutorId)
    (type : ContainerType) (now : Instant) : PendingIn P id (registered e c type now) :=
  ⟨hid,fun _ => hP⟩

lemma pendingIn_new {c : Container} (hc : c.state=.pending → P c.id) (e : ExecutorId)
    (desired : ContainerState) (now : Instant) : PendingIn P c.id (.new e c desired now) := ⟨rfl,hc⟩

end

section
variable {P : ContainerId → Prop} {s : ContainerScheduler}

lemma containers_terminateSandboxForContainer (m : SandboxState) (c : Container) :
    (ContainerReconciler.terminateSandboxForContainer m c).containers = ∅ := by
  unfold ContainerReconciler.terminateSandboxForContainer
  split
  · rfl
  dsimp only
  split
  · rfl
  · split_ifs <;> rfl

lemma pendingIn_reportTerminated (h : Every (PendingIn P) s.functionContainers) (m : SandboxState)
    (executorId : ExecutorId) (id : ContainerId) (reason : ContainerTerminationReason) (now : Instant) :
    Keeps (PendingIn P) (ContainerReconciler.reportTerminated m s executorId id reason now) := by
  suffices hu : Every (PendingIn P)
      (ContainerReconciler.reportTerminated m s executorId id reason now).2.containers from
    ⟨h.applyContainerUpdate hu,hu⟩
  unfold ContainerReconciler.reportTerminated
  cases hfc : s.functionContainers.lookup id with
  | none => exact every_empty
  | some existing =>
    have hnew : PendingIn P id (.new executorId
        {existing.functionContainer with state := .terminated reason} (.terminated reason) now) :=
      ⟨(h id existing hfc).keyed,by rintro ⟨⟩⟩
    refine Every.union ?_ (by rw [containers_terminateSandboxForContainer]; exact every_empty)
    split
    · exact every_containerUpdate hnew
    · split <;> exact every_containerUpdate hnew

variable [HashOrder ContainerId]

lemma pendingIn_deregisterExecutor (h : Every (PendingIn P) s.functionContainers)
    (m : SandboxState) (state : InMemoryState) (executorId : ExecutorId) :
    Keeps (PendingIn P) (ContainerReconciler.deregisterExecutor m state s executorId) := by
  have hrun := @Trace.invariant _ _ ContainerReconciler.removeWithExecutor
    (fun acc => Keeps (PendingIn P) (acc.1,acc.2.2)) ?_
    (s,m.applySchedulerUpdate (ContainerReconciler.terminateSandboxesForExecutor m executorId),{})
    ⟨h,every_empty⟩
  · exact ⟨(hrun _).1,(every_empty.union every_empty).union (hrun _).2⟩
  intro acc id hacc
  unfold ContainerReconciler.removeWithExecutor
  cases hfc : acc.1.functionContainers.lookup id with
  | none => exact hacc
  | some fc =>
    have hremoved : Every (PendingIn P) (containerUpdate id
        {fc with
            desiredState := .terminated .executorRemoved
            functionContainer := {fc.functionContainer with
              state := .terminated .executorRemoved}}).containers :=
      every_containerUpdate ⟨(hacc.1 id fc hfc).keyed,by rintro ⟨⟩⟩
    refine ⟨hacc.1.updateSchedulerUpdate stable_pendingIn hremoved,(hacc.2.union hremoved).union ?_⟩
    rw [containers_terminateSandboxForContainer]
    exact every_empty

end

section
variable {P : ContainerId → Prop} {s : ContainerScheduler} {executor : ExecutorMetadata}
  {m : SandboxState}

lemma pendingIn_adoptContainer {state : InMemoryState} {executorId : ExecutorId}
    {now : Instant} {fe : Container} (hfe : fe.state=.pending → P fe.id)
    {acc : ExecutorServerMetadata × Dict ContainerId ContainerServerMetadata}
    (h : Every (PendingIn P) acc.2) :
    Every (PendingIn P) (ContainerReconciler.adoptContainer m state s executorId now acc fe).2 := by
  unfold ContainerReconciler.adoptContainer
  by_cases hterminated : fe.state.isTerminated=true
  · rwa [if_pos hterminated]
  · rw [if_neg hterminated]
    exact h.insert (pendingIn_new hfe _ _ _)

/-- The update of a synchronisation, and the containers it is about to remove. -/
structure SyncPending (P : ContainerId → Prop) (sync : ContainerReconciler.Sync) : Prop where
  update : Every (PendingIn P) sync.update.containers
  removals : ∀ c∈sync.removals, c.state=.pending → P c.id

lemma syncPending_syncContainer (hs : Every (PendingIn P) s.functionContainers)
    {e : Sigma fun _ : ContainerId => Container} (he : e.2.state=.pending → P e.1)
    {acc : Except ResourceError ContainerReconciler.Sync}
    (h : ∀ sync, acc = .ok sync → SyncPending P sync) :
    ∀ sync, ContainerReconciler.syncContainer m s acc e = .ok sync → SyncPending P sync := by
  unfold ContainerReconciler.syncContainer
  cases acc with
  | error err => rintro _ ⟨⟩
  | ok old =>
    have hold := h old rfl
    cases hserver : s.functionContainers.lookup e.1 with
    | none =>
      rintro _ ⟨⟩
      exact hold
    | some server =>
      dsimp only
      split_ifs with hterminated hserver' hstate
      · split
        · rintro _ ⟨⟩
          refine ⟨hold.update,fun c hc hpending => ?_⟩
          rcases mem_append.mp hc with hc | hc
          · exact hold.removals c hc hpending
          rw [mem_singleton.mp hc] at hpending
          rw [hpending] at hterminated
          cases hterminated
        · rintro _ ⟨⟩
      · rintro _ ⟨⟩
        exact hold
      · rintro _ ⟨⟩
        have hkeyed := (hs e.1 server hserver).keyed
        refine ⟨Every.union (hold.update.insert ⟨rfl,fun hpending => ?_⟩) ?_,hold.removals⟩
        · rw [hkeyed]
          exact he hpending
        · rw [containers_promoteSandboxIfContainerRunning]
          exact every_empty
      · rintro _ ⟨⟩
        refine ⟨Every.union hold.update ?_,hold.removals⟩
        rw [containers_promoteSandboxIfContainerRunning]
        exact every_empty

lemma syncPending_foldl (hs : Every (PendingIn P) s.functionContainers) (m : SandboxState)
    {es : List (Sigma fun _ : ContainerId => Container)} (hes : ∀ e∈es, e.2.state=.pending → P e.1)
    (acc : Except ResourceError ContainerReconciler.Sync)
    (h : ∀ sync, acc = .ok sync → SyncPending P sync) :
    ∀ sync, es.foldl (ContainerReconciler.syncContainer m s) acc = .ok sync → SyncPending P sync :=
  List.foldlRecOn (motive := fun acc => ∀ sync, acc = Except.ok sync → SyncPending P sync) es _ h
    fun _ hacc e he => syncPending_syncContainer hs (hes e he) hacc

lemma containers_foldl_endSandbox (cs : List Container) (m : SandboxState) :
    Every (PendingIn P) (cs.foldl ContainerReconciler.endSandbox (m,{})).2.containers := by
  refine @Trace.invariant _ _ ContainerReconciler.endSandbox
    (fun acc => Every (PendingIn P) acc.2.containers) ?_ (m,{}) every_empty cs
  intro acc c hacc
  refine Every.union hacc ?_
  rw [containers_terminateSandboxForContainer]
  exact every_empty

lemma pendingIn_removeFunctionContainers {record : ExecutorServerMetadata} {cs : List Container}
    {now : Instant} {u : SchedulerUpdateRequest} (hcs : ∀ c∈cs, c.state=.pending → P c.id)
    (h : ContainerReconciler.removeFunctionContainers m record cs now = .ok u) :
    Every (PendingIn P) u.containers := by
  have hrun : ∀ r, cs.foldl (ContainerReconciler.removeFunctionContainer now)
      (.ok (record,(cs.foldl ContainerReconciler.endSandbox (m,{})).2)) = .ok r →
        Every (PendingIn P) r.2.containers := by
    refine List.foldlRecOn cs (ContainerReconciler.removeFunctionContainer now)
      (motive := fun acc => ∀ r, acc = .ok r → Every (PendingIn P) r.2.containers) ?_
      fun acc hacc c hc => ?_
    · rintro _ ⟨⟩
      exact containers_foldl_endSandbox cs m
    unfold ContainerReconciler.removeFunctionContainer
    cases acc with
    | error err => rintro _ ⟨⟩
    | ok r =>
      dsimp only
      split <;> rintro _ ⟨⟩
      exact (hacc r rfl).insert (pendingIn_new (hcs c hc) _ _ _)
  unfold ContainerReconciler.removeFunctionContainers at h
  split_ifs at h
  · cases h
    exact every_empty
  dsimp only at h
  generalize List.foldl (ContainerReconciler.removeFunctionContainer now) _ cs = r at h hrun
  cases r with
  | error err => cases h
  | ok r =>
    cases h
    exact hrun r rfl

variable [HashOrder ContainerId]

/-- What an executor reports as pending has an id in `P`. -/
def ReportsIn (P : ContainerId → Prop) (executor : ExecutorMetadata) : Prop :=
  ∀ e∈executor.containers.entries, e.2.state=.pending → P e.1 ∧ P e.2.id

variable (h : Every (PendingIn P) s.functionContainers)
include h

lemma pendingIn_goneContainers (executor : ExecutorMetadata) (record : ExecutorServerMetadata) :
    ∀ c ∈ ContainerReconciler.goneContainers s executor record, c.state=.pending → P c.id := by
  intro c hc hpending
  obtain ⟨id,-,hid⟩ := mem_filterMap.mp hc
  obtain ⟨fc,hfc,hfc'⟩ := Option.bind_eq_some_iff.mp hid
  split_ifs at hfc'
  cases hfc'
  have hentry := h id fc hfc
  rw [hentry.keyed]
  exact hentry.pending hpending

lemma pendingIn_reconcileFunctionContainers
    (m : SandboxState) (state : InMemoryState) (now : Instant) (hreports : ReportsIn P executor) :
    let r := ContainerReconciler.reconcileFunctionContainers m state s executor now
    Leaves (PendingIn P) r.1 r.2 := by
  unfold ContainerReconciler.reconcileFunctionContainers
  cases s.executorStates.lookup executor.id with
  | none => exact Keeps.leaves ⟨h,every_empty⟩
  | some record =>
    dsimp only
    have hgone := pendingIn_goneContainers h executor record
    have hadopt := List.foldlRecOn (b := (record,∅))
      (motive := fun acc => Every (PendingIn P) acc.2)
      ((executor.containers.entries.filter fun e => e.1∉record.functionContainerIds).map
        fun e => e.2) (ContainerReconciler.adoptContainer m state s executor.id now) every_empty
      fun acc hacc fe hfe => by
        obtain ⟨e,he,rfl⟩ := mem_map.mp hfe
        exact pendingIn_adoptContainer
          (fun hpending => (hreports e (mem_of_mem_filter he) hpending).2) hacc
    generalize List.foldl (ContainerReconciler.adoptContainer m state s executor.id now)
      (record,∅) _ = adopted at hadopt
    obtain ⟨adopting,containers⟩ := adopted
    set adoption : SchedulerUpdateRequest := if containers.entries.isEmpty then {}
      else
        {containers := containers
         updatedExecutorStates :=
           (∅ : Dict ExecutorId ExecutorServerMetadata).insert adopting.executorId adopting}
      with hadoption
    have hupdate : Every (PendingIn P) adoption.containers := by
      rw [hadoption]
      split_ifs
      · exact every_empty
      · exact hadopt
    have htable : Every (PendingIn P) (if containers.entries.isEmpty then s
        else s.updateSchedulerUpdate adoption).functionContainers := by
      split_ifs
      · exact h
      · exact h.updateSchedulerUpdate stable_pendingIn hupdate
    have hsync := syncPending_foldl htable m (fun e he hpending => (hreports e he hpending).1)
      (.ok ⟨adopting,ContainerReconciler.goneContainers s executor record,adoption⟩)
      (by rintro _ ⟨⟩; exact ⟨hupdate,hgone⟩)
    split
    · exact .error htable
    rename_i sync hfold
    have hfinal := hsync sync hfold
    split
    · exact .error htable
    rename_i removal hremoval
    have hall := hfinal.update.union (pendingIn_removeFunctionContainers hfinal.removals hremoval)
    exact Keeps.leaves ⟨htable.updateSchedulerUpdate stable_pendingIn hall,hall⟩

lemma pendingIn_reconcileExecutorState
    (m : SandboxState) (state : InMemoryState) (executorId : ExecutorId) (now : Instant)
    (hbrings : ∀ id ∈ Work.brings s (.reconcile m state executorId now), P id) :
    let r := ContainerReconciler.reconcileExecutorState m state s executorId now
    Leaves (PendingIn P) r.1 r.2 := by
  unfold ContainerReconciler.reconcileExecutorState
  dsimp only [Work.brings] at hbrings
  cases hexecutor : s.executors.lookup executorId with
  | none => exact Keeps.leaves ⟨h,every_empty⟩
  | some executor =>
    rw [hexecutor] at hbrings
    have hreports : ReportsIn P executor := by
      intro e he hpending
      have hreported : e ∈ executor.containers.entries.filter fun e => e.2.state=.pending :=
        mem_filter.mpr ⟨he,by simpa using hpending⟩
      exact ⟨hbrings _ (mem_flatMap.mpr ⟨e,hreported,by simp⟩),
        hbrings _ (mem_flatMap.mpr ⟨e,hreported,by simp⟩)⟩
    dsimp only
    set first : SchedulerUpdateRequest := if executorId∈s.executorStates then {}
      else
        {updatedExecutorStates := (∅ : Dict ExecutorId ExecutorServerMetadata).insert executorId
            ⟨executorId,∅,executor.hostResources,∅⟩} with hfirst
    have hfirst : Every (PendingIn P) first.containers := by
      rw [hfirst]
      split_ifs <;> exact every_empty
    have htable : Every (PendingIn P) (if executorId∈s.executorStates then s
        else s.updateSchedulerUpdate first).functionContainers := by
      split_ifs
      · exact h
      · exact h.updateSchedulerUpdate stable_pendingIn hfirst
    have hrun := pendingIn_reconcileFunctionContainers htable m state now hreports
    generalize ContainerReconciler.reconcileFunctionContainers m state _ executor now = r at hrun
    obtain ⟨s',err | update⟩ := r
    · exact .error hrun.1
    · exact Keeps.leaves ⟨hrun.1,hfirst.union (hrun.2 update rfl)⟩

omit h
end

section
variable [HashOrder ContainerId] [HashOrder ExecutorId] {P : ContainerId → Prop}
  {s : ContainerScheduler}

def BringsIn (P : ContainerId → Prop) (s : ContainerScheduler) (w : Work) : Prop :=
  ∀ id ∈ w.brings s, P id

instance [DecidablePred P] (w : Work) : Decidable (BringsIn P s w) :=
  inferInstanceAs (Decidable (∀ id ∈ w.brings s, P id))

lemma pendingIn_perform (h : Every (PendingIn P) s.functionContainers) {w : Work} (hw : BringsIn P s w) :
    Every (PendingIn P) (s.perform w).1.functionContainers ∧
      ∀ u, (s.perform w).2 = some u → Every (PendingIn P) u.containers := by
  have hsome : ∀ r, Keeps (PendingIn P) r → Every (PendingIn P) r.1.functionContainers ∧
      ∀ u, some r.2 = some u → Every (PendingIn P) u.containers := by
    rintro r ⟨htable,hupdate⟩
    exact ⟨htable,by rintro _ ⟨⟩; exact hupdate⟩
  unfold perform
  cases w with
  | allocate state cache run ctx queueSize draw =>
    have hrun := every_createAllocation stable_pendingIn h (fun _ _ h => h.keyed) state cache run ctx
      queueSize (d := draw) fun c e type hid => pendingIn_registered hid (hw _ mem_cons_self) e
        type _
    dsimp only at hrun ⊢
    generalize FunctionRunProcessor.createAllocation state s cache run ctx queueSize draw = r at hrun
    obtain ⟨s',cache',ctx',e | update⟩ := r
    · cases e with
      | constraintUnsatisfiable reason version functionName =>
        exact hsome (s',{}) ⟨hrun.1,every_empty⟩
      | executorStateNotFound id
      | resources e => exact ⟨hrun.1,by rintro _ ⟨⟩⟩
    · exact hsome (s',update) ⟨hrun.1,hrun.2 update rfl⟩
  | allocateSandbox sandboxes cache sandbox draw =>
    have hrun := every_allocateSandbox stable_pendingIn h sandboxes cache draw
      fun c e type hid => pendingIn_registered hid (hw _ mem_cons_self) e type _
    dsimp only at hrun ⊢
    generalize SandboxProcessor.allocateSandbox sandboxes s cache sandbox draw = r at hrun
    obtain ⟨s',cache',e | update⟩ := r
    · exact ⟨hrun.1,by rintro _ ⟨⟩⟩
    · exact hsome (s',update) ⟨hrun.1,hrun.2 update rfl⟩
  | terminateSandbox sandboxes ns sandboxId =>
    exact hsome _ (h.terminateSandbox stable_pendingIn sandboxes ns sandboxId)
  | ingest id allocationId now =>
    exact hsome _ (h.ingestAllocation stable_pendingIn id allocationId now)
  | started sandboxes id => exact hsome _ (h.reportStarted stable_pendingIn sandboxes id)
  | terminated sandboxes executorId id reason now =>
    exact hsome _ (pendingIn_reportTerminated h sandboxes executorId id reason now)
  | reconcile sandboxes state executorId now =>
    have hrun := pendingIn_reconcileExecutorState h sandboxes state executorId now hw
    dsimp only at hrun ⊢
    generalize ContainerReconciler.reconcileExecutorState sandboxes state s executorId now = r
      at hrun
    obtain ⟨s',err | update⟩ := r
    · exact ⟨hrun.1,by rintro _ ⟨⟩⟩
    · exact hsome (s',update) ⟨hrun.1,hrun.2 update rfl⟩
  | deregister sandboxes state executorId =>
    exact hsome _ (pendingIn_deregisterExecutor h sandboxes state executorId)
  | place state cache pool draw =>
    have hrun := yields_createContainerForPool stable_pendingIn h
      (fun c e type hid => pendingIn_registered hid (hw _ mem_cons_self) e type _) state cache pool
    dsimp only
    generalize BufferReconciler.createContainerForPool state s cache pool draw = r at hrun
    obtain ⟨s',cache',e | _ | update⟩ := r
    · exact hsome (s',{}) ⟨hrun.1,every_empty⟩
    · exact hsome (s',{}) ⟨hrun.1,every_empty⟩
    · exact hsome (s'.applyContainerUpdate update,update) ⟨hrun.1,hrun.2 update rfl⟩
  | trim id => exact hsome (_,_) (h.terminateContainer stable_pendingIn id)

def WorkIn (P : ContainerId → Prop) (s : ContainerScheduler) (work : List Work) : Prop :=
  Trace.Along (fun s w => (perform s w).1) (BringsIn P) s work

instance [DecidablePred P] (work : List Work) : Decidable (WorkIn P s work) :=
  inferInstanceAs (Decidable (Trace.Along _ _ s work))

lemma pendingIn_handle {work : List Work} {update : SchedulerUpdateRequest}
    (h : Every (PendingIn P) s.functionContainers) (hu : Every (PendingIn P) update.containers)
    (hwork : WorkIn P s work) :
    Every (PendingIn P) (handle work (s,update)).1.functionContainers ∧
      ∀ u, (handle work (s,update)).2 = some u → Every (PendingIn P) u.containers := by
  induction work generalizing s update with
  | nil =>
    refine ⟨h,?_⟩
    rintro _ ⟨⟩
    exact hu
  | cons w work ih =>
    obtain ⟨hw,hwork⟩ := hwork
    obtain ⟨htable,hupdate⟩ := pendingIn_perform h hw
    dsimp only at hwork
    unfold handle
    generalize s.perform w = r at htable hupdate hwork
    obtain ⟨s',_ | u⟩ := r
    · exact ⟨htable,by rintro _ ⟨⟩⟩
    · exact ih htable (hu.union (hupdate u rfl)) hwork

/-- The item is no update of the scheduler's own, and what its work brings in has ids in `P`. -/
def ItemIn (P : ContainerId → Prop) (b : BatchState) : Item → Prop
  | .payload p => p.isSchedulerUpdate=false
  | .change work => WorkIn P b.scheduler work
  | .immediate p => p.isSchedulerUpdate=false

instance [DecidablePred P] (b : BatchState) (item) : Decidable (ItemIn P b item) := by
  unfold ItemIn
  split <;> infer_instance

def BatchIn (P : ContainerId → Prop) (b : BatchState) : Prop :=
  Every (PendingIn P) b.scheduler.functionContainers ∧ Every (PendingIn P) b.update.containers

lemma BatchIn.process {b : BatchState} {item : Item} (h : BatchIn P b) (hitem : ItemIn P b item) :
    BatchIn P (process b item) := by
  unfold ContainerScheduler.process
  cases item with
  | payload p
  | immediate p =>
    exact ⟨(h.1.updateWithIntents stable_pendingIn hitem).1,h.2⟩
  | change work =>
    obtain ⟨htable,hupdate⟩ :=
      @pendingIn_handle _ _ _ _ work {} h.1 every_empty hitem
    dsimp only
    generalize handle work (b.scheduler,{}) = r at htable hupdate
    obtain ⟨s',_ | u⟩ := r
    · exact ⟨htable,h.2⟩
    · exact ⟨htable.applyContainerUpdate (hupdate u rfl),h.2.union (hupdate u rfl)⟩

omit [HashOrder ContainerId] [HashOrder ExecutorId] in
lemma batchIn_openBatch (h : Every (PendingIn P) s.functionContainers) (reapAt : Option Instant) :
    BatchIn P (s.openBatch reapAt) := by
  cases reapAt with
  | none => exact ⟨h,every_empty⟩
  | some now => exact h.reapIdleContainers stable_pendingIn 0 now

end
end ContainerScheduler
end Indexify
