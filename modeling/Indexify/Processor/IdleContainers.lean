import Mathlib.Data.List.TakeWhile
import Indexify.Processor.RunAllocation

/-! The set of idle containers, ordered by the time they became idle. The set is corrected by
comparison with the stored container, so a container whose idle time was changed in place leaves
an entry behind. Allocation and ingestion change it in place. -/
namespace Indexify
open List Listing.Lists
namespace ContainerServerMetadata
variable {m : ContainerServerMetadata}

/-- The time under which the container is to be found among the idle ones. -/
def idleFrom (m : ContainerServerMetadata) : Option Instant :=
  if !m.isTerminated && m.containerType = .function then m.idleSince else none

lemma idleFrom_cases (m : ContainerServerMetadata) : m.idleFrom = none ∨ m.idleFrom=m.idleSince := by
  unfold idleFrom
  split_ifs
  · exact .inr rfl
  · exact .inl rfl

lemma idleFrom_of_terminated (h : m.isTerminated=true) : m.idleFrom=none := by
  simp [idleFrom,h]

lemma idleFrom_of_idleSince_eq_none (h : m.idleSince=none) : m.idleFrom=none := by
  simp [idleFrom,h]

lemma idleSince_of_idleFrom {t : Instant} (h : m.idleFrom = some t) : m.idleSince = some t := by
  rcases m.idleFrom_cases with hn | hs
  · cases hn.symm.trans h
  · exact hs.symm.trans h

end ContainerServerMetadata

namespace ContainerScheduler
open ContainerServerMetadata

structure IdleTable where
  containers : Dict ContainerId ContainerServerMetadata
  idle : Finset (Instant ×ₗ ContainerId)

def idleTable (s : ContainerScheduler) : IdleTable := ⟨s.functionContainers,s.idleContainers⟩

lemma idleTable_frame : HostFree idleTable := fun _ _ _ _ => rfl

/-- The entries are the idle times of the live function containers. -/
def IdleTable.Exact (t : IdleTable) : Prop :=
  Listing.Lists (fun time id => toLex (time,id) ∈ t.idle) t.containers idleFrom

section
variable (s : ContainerScheduler)

lemma mem_removeIdle (time : Option Instant) (id : ContainerId) (time' : Instant)
    (id' : ContainerId) : toLex (time',id') ∈ (s.removeIdle time id).idleContainers ↔
      toLex (time',id') ∈ s.idleContainers ∧ ¬(id'=id ∧ time = some time') := by
  cases time with
  | none => simp [removeIdle]
  | some t =>
    simp only [removeIdle,Finset.mem_erase,ne_eq,EmbeddingLike.apply_eq_iff_eq,Prod.mk.injEq,
      Option.some.injEq]
    rw [and_comm (a := id' = id),eq_comm,and_comm]

lemma mem_foldl_removeIdle {E : Type} (time : E → Option Instant) (id : E → ContainerId)
    (es : List E) (time' : Instant) (id' : ContainerId) :
    toLex (time',id') ∈ (es.foldl (fun s e => s.removeIdle (time e) (id e)) s).idleContainers ↔
      toLex (time',id') ∈ s.idleContainers ∧ ∀ e∈es, ¬(id' = id e ∧ time e = some time') := by
  induction es generalizing s with
  | nil => simp
  | cons e es ih =>
    rw [foldl_cons,ih,mem_removeIdle,forall_mem_cons,and_assoc]

lemma mem_reindexIdle (id : ContainerId) (m : ContainerServerMetadata) (time : Instant)
    (id' : ContainerId) : toLex (time,id') ∈ (s.reindexIdle id m).idleContainers ↔
      toLex (time,id') ∈ s.idleContainers ∧
          ¬(id'=id ∧ (s.functionContainers.lookup id).bind idleSince = some time) ∨
        id' = id ∧ m.idleFrom = some time := by
  rw [← mem_removeIdle]
  unfold reindexIdle idleFrom
  cases hm : m.idleSince with
  | none => simp
  | some t =>
    split_ifs
    · simp only [Finset.mem_insert,EmbeddingLike.apply_eq_iff_eq,Prod.mk.injEq,Option.some.injEq]
      rw [or_comm,and_comm (a := time = t),eq_comm (a := time)]
    · simp

lemma idleTable_updateContainerIndices (id : ContainerId) (m : ContainerServerMetadata) :
    (s.updateContainerIndices id m).idleTable =
      ⟨s.functionContainers.insert id m,(s.reindexIdle id m).idleContainers⟩ := by
  have hcontainers := functionContainers_updateContainerIndices id m (s := s)
  have hidle : (s.updateContainerIndices id m).idleContainers = (s.reindexIdle id m).idleContainers := by
    unfold updateContainerIndices fileContainer
    cases m.functionContainer.poolKey <;> dsimp only [markDirty] <;> split_ifs <;> rfl
  unfold idleTable
  rw [hcontainers,hidle]

lemma idleTable_removeContainerFromIndices {id : ContainerId} {fc : ContainerServerMetadata}
    (hfc : s.functionContainers.lookup id = some fc) :
    (s.removeContainerFromIndices id).idleTable =
      ⟨s.functionContainers.erase id,(s.removeIdle fc.idleSince id).idleContainers⟩ := by
  unfold removeContainerFromIndices
  rw [hfc]
  dsimp only
  cases fc.idleSince <;> cases fc.functionContainer.poolKey <;> rfl

lemma idleTable_terminateContainer {id : ContainerId} {fc : ContainerServerMetadata}
    (hfc : s.functionContainers.lookup id = some fc) :
    (s.terminateContainer id).1.idleTable = ⟨s.functionContainers.insert id fc.terminate,
        (s.removeIdle fc.idleSince id).idleContainers⟩ := by
  unfold terminateContainer
  rw [hfc]
  dsimp only
  cases fc.idleSince <;> rfl

end

section
variable (s : ContainerScheduler) (id : ExecutorId)

@[simp] lemma idleTable_markDirty (key : Option ContainerPoolKey) :
    (s.markDirty key).idleTable = s.idleTable := by
  cases key <;> rfl

@[simp] lemma idleTable_popReaped (fnUri : FunctionURI) :
    (s.popReaped fnUri).1.idleTable = s.idleTable := by
  rcases popReaped_eq s fnUri with hpop | ⟨ids,id,-,-,hpop⟩ <;> simp only [hpop,idleTable]

@[simp] lemma idleTable_deregisterExecutor : (s.deregisterExecutor id).idleTable = s.idleTable := by
  unfold deregisterExecutor
  dsimp only
  split <;> split <;> rfl

lemma idleTable_removeFunctionPoolsOf (ns name : String) :
    (s.removeFunctionPoolsOf ns name).idleTable = s.idleTable :=
  Trace.frame removeFunctionPool idleTable (fun _ _ => rfl) s _

end

section
variable {s : ContainerScheduler} {id : ContainerId} {fc m : ContainerServerMetadata}

lemma onlyIdle_stored (hfc : s.functionContainers.lookup id = some fc) :
    ∀ v, s.functionContainers.lookup id = some v → v.idleFrom=none ∨ v.idleFrom=fc.idleSince := by
  intro v hv
  cases hfc.symm.trans hv
  exact fc.idleFrom_cases

variable (h : s.idleTable.Exact)
include h

lemma IdleTable.Exact.updateContainerIndices (id : ContainerId)
    (m : ContainerServerMetadata) : (s.updateContainerIndices id m).idleTable.Exact := by
  rw [idleTable_updateContainerIndices]
  refine insert_moved ?_ h fun time id' => mem_reindexIdle s id m time id'
  intro old hold
  rw [hold]
  exact old.idleFrom_cases

lemma exact_refiled_iff (hfc : s.functionContainers.lookup id = some fc) :
    ((s.setContainer id m).updateContainerIndices id m).idleTable.Exact ↔
      fc.idleFrom = none ∨ fc.idleFrom=m.idleSince := by
  rw [idleTable_updateContainerIndices]
  have hstored : (s.setContainer id m).functionContainers.lookup id = some m :=
    AList.lookup_insert _
  have hmem : ∀ time id', toLex (time,id') ∈
      ((s.setContainer id m).reindexIdle id m).idleContainers ↔
        toLex (time,id') ∈ s.idleContainers ∧ ¬(id'=id ∧ m.idleSince = some time) ∨
          id' = id ∧ m.idleFrom = some time := by
    intro time id'
    rw [mem_reindexIdle,hstored]
    rfl
  have htwice : (s.setContainer id m).functionContainers.insert id m =
      s.functionContainers.insert id m := AList.insert_insert _
  rw [htwice]
  constructor
  · intro hnew
    cases ht : fc.idleFrom with
    | none => exact .inl rfl
    | some time =>
      right
      by_contra hne
      have hold : toLex (time,id) ∈ s.idleContainers := (h time id).mpr ⟨fc,hfc,ht⟩
      obtain ⟨m',hm',htime⟩ := (hnew time id).mp
        ((hmem time id).mpr (.inl ⟨hold,fun hsame => hne hsame.2.symm⟩))
      cases (AList.lookup_insert _).symm.trans hm'
      exact hne (idleSince_of_idleFrom htime).symm
  · intro hkeep
    refine insert_moved ?_ h hmem
    intro old hold
    cases hfc.symm.trans hold
    exact hkeep

lemma exact_setContainer_iff : (s.setContainer id m).idleTable.Exact ↔
    (s.functionContainers.lookup id).bind idleFrom = m.idleFrom :=
  insert_iff h

lemma IdleTable.Exact.removeContainerFromIndices (id : ContainerId) :
    (s.removeContainerFromIndices id).idleTable.Exact := by
  cases hfc : s.functionContainers.lookup id with
  | none =>
    unfold ContainerScheduler.removeContainerFromIndices
    rw [hfc]
    exact h
  | some fc =>
    rw [idleTable_removeContainerFromIndices s hfc]
    exact erase_unlisted (onlyIdle_stored hfc) h (mem_removeIdle s fc.idleSince id)

lemma IdleTable.Exact.terminateContainer (id : ContainerId) :
    (s.terminateContainer id).1.idleTable.Exact := by
  cases hfc : s.functionContainers.lookup id with
  | none =>
    unfold ContainerScheduler.terminateContainer
    rw [hfc]
    exact h
  | some fc =>
    rw [idleTable_terminateContainer s hfc]
    refine insert_moved (onlyIdle_stored hfc) h fun time id' => ?_
    rw [mem_removeIdle,idleFrom_of_terminated fc.isTerminated_terminate]
    simp [idleTable]

lemma IdleTable.Exact.foldl_updateEntry
    (es : List (Sigma fun _ : ContainerId => ContainerServerMetadata)) :
    (es.foldl updateEntry s).idleTable.Exact :=
  @Trace.invariant _ _ _ (fun s : ContainerScheduler => s.idleTable.Exact)
    (fun e hs => hs.updateContainerIndices e.1 e.2) _ h es

omit h in
lemma idleTable_kept : Kept (fun s => s.idleTable.Exact) where
  hosts _ _ _ _ := rfl
  note _ _ hs := hs
  drop id hs := hs.removeContainerFromIndices id
  terminate id hs := hs.terminateContainer id

lemma IdleTable.Exact.applyContainerUpdate (u : SchedulerUpdateRequest) :
    (s.applyContainerUpdate u).idleTable.Exact :=
  idleTable_kept.applyContainerUpdate (h.foldl_updateEntry _)

lemma IdleTable.Exact.revived {s' : ContainerScheduler}
    (hs' : s'.idleTable=s.idleTable) (hfc : s.functionContainers.lookup id = some fc)
    {now : Instant} (hkeep : fc.idleFrom=none ∨ fc.idleFrom = some now) :
    (s'.revived id (fc.revive now)).1.idleTable.Exact := by
  have hstored := congrArg (fun t => t.containers.lookup id) hs'
  exact (exact_refiled_iff (by rwa [hs']) (hstored.trans hfc)).mpr hkeep

/-- The container that is restored for the function is not among the idle ones. -/
def RestoresUnlisted (s : ContainerScheduler) (fnUri : FunctionURI) (now : Instant) : Prop :=
  ∀ id ∈ (s.popReaped fnUri).2, ∀ fc ∈ s.functionContainers.lookup id,
    fc.idleFrom = none ∨ fc.idleFrom = some now
  deriving Decidable

lemma IdleTable.Exact.restoreReapedContainer {fnUri : FunctionURI} {now : Instant}
    (hu : RestoresUnlisted s fnUri now) : (s.restoreReapedContainer fnUri now).1.idleTable.Exact := by
  have hpop := idleTable_popReaped s fnUri
  rcases restoreReapedContainer_cases s fnUri now with
    ⟨s',hr,hs'⟩ | ⟨id,fc,s',hr,hs',hid,hfc⟩ <;> rw [hr]
  · rwa [(idleTable_frame.of_core hs').trans hpop]
  · exact h.revived ((idleTable_frame.of_core hs').trans hpop) hfc (hu id hid fc hfc)

end

section
variable {s : ContainerScheduler}

lemma reapContainer_cases (r : Reaping) (id : ContainerId) :
    (reapContainer r id).scheduler.idleTable = r.scheduler.idleTable ∨
      ∃ fc, r.scheduler.functionContainers.lookup id = some fc ∧ fc.canBeRemoved=true ∧
        (reapContainer r id).scheduler.idleTable = (r.scheduler.terminateContainer id).1.idleTable := by
  unfold reapContainer
  cases hfc : r.scheduler.functionContainers.lookup id with
  | none => exact .inl rfl
  | some fc =>
    dsimp only
    split_ifs with ht hr hf
    · exact .inl rfl
    · exact .inl rfl
    · exact .inl rfl
    · refine .inr ⟨fc,rfl,by simpa using hr,?_⟩
      exact idleTable_frame.freeReaped (r.scheduler.terminateContainer id).1 fc.executorId
        fc.functionContainer

lemma lookup_foldl_reapContainer (r : Reaping) (ids : List ContainerId) (id : ContainerId) :
    (ids.foldl reapContainer r).scheduler.functionContainers.lookup id =
        r.scheduler.functionContainers.lookup id ∨
      id ∈ ids ∧ ∃ fc, r.scheduler.functionContainers.lookup id = some fc ∧ fc.canBeRemoved = true := by
  induction ids generalizing r with
  | nil => exact .inl rfl
  | cons id' ids ih =>
    have hrest := ih (reapContainer r id')
    have hkeep : (reapContainer r id').scheduler.idleTable.containers.lookup id =
        r.scheduler.functionContainers.lookup id ∨ id=id' ∧
          ∃ fc, r.scheduler.functionContainers.lookup id = some fc ∧ fc.canBeRemoved=true := by
      rcases reapContainer_cases r id' with hsame | ⟨fc,hfc,hremovable,hterm⟩
      · exact .inl (by rw [hsame]; rfl)
      rw [hterm,idleTable_terminateContainer r.scheduler hfc]
      by_cases hid : id=id'
      · exact .inr ⟨hid,fc,hid ▸ hfc,hremovable⟩
      · exact .inl (AList.lookup_insert_ne hid)
    rcases hkeep with hsame | ⟨rfl,hremovable⟩
    · rw [show (reapContainer r id').scheduler.functionContainers.lookup id = _ from hsame] at hrest
      exact hrest.imp_right fun h => ⟨mem_cons_of_mem _ h.1,h.2⟩
    · exact .inr ⟨mem_cons_self,hremovable⟩

lemma mem_dueIdle {minIdleAge now : ℕ} {id : ContainerId} (h : id ∈ s.dueIdle minIdleAge now) :
    ∃ time, toLex (time,id) ∈ s.idleContainers ∧ minIdleAge ≤ now-time := by
  obtain ⟨e,he,rfl⟩ := mem_map.mp h
  have hage := mem_takeWhile_imp he
  have hmem := Enumeration.mem_ascending.mp ((List.takeWhile_prefix _).subset he)
  simp only [decide_eq_true_eq,not_lt] at hage
  exact ⟨(ofLex e).1,hmem,hage⟩

lemma IdleTable.Exact.reap_old (h : s.idleTable.Exact)
    {minIdleAge now : ℕ} {id : ContainerId} {fc fc' : ContainerServerMetadata}
    (hfc : s.functionContainers.lookup id = some fc) (halive : fc.isTerminated=false)
    (hfc' : (s.reapIdleContainers minIdleAge now).1.functionContainers.lookup id = some fc')
    (hterm : fc'.isTerminated=true) :
    fc.allocations = ∅ ∧ ∃ time, fc.idleSince = some time ∧ minIdleAge ≤ now-time := by
  rcases lookup_foldl_reapContainer ⟨{s with reapedContainers := ∅},{},[]⟩
    (s.dueIdle minIdleAge now) id with hsame | ⟨hdue,old,hold,hremovable⟩
  · cases hfc.symm.trans (hsame.symm.trans hfc')
    cases halive.symm.trans hterm
  cases hfc.symm.trans hold
  obtain ⟨time,hmem,hage⟩ := mem_dueIdle hdue
  obtain ⟨v,hv,htime⟩ := (h time id).mp hmem
  cases hfc.symm.trans hv
  refine ⟨?_,time,idleSince_of_idleFrom htime,hage⟩
  simp only [canBeRemoved,Bool.and_eq_true,decide_eq_true_eq] at hremovable
  exact hremovable.2

end

section
variable [HashOrder ContainerId] {s : ContainerScheduler}

lemma IdleTable.Exact.claimPoolContainer (h : s.idleTable.Exact) (key : ContainerPoolKey)
    (sandboxId : SandboxId) (timeout : ℕ) :
    (s.claimPoolContainer key sandboxId timeout).1.idleTable.Exact := by
  unfold ContainerScheduler.claimPoolContainer
  split
  · exact h
  rename_i id fc hfound
  obtain ⟨id',-,hid'⟩ := exists_of_findSome?_eq_some hfound
  obtain ⟨fc',hfc,he⟩ := Option.map_eq_some_iff.mp hid'
  cases he
  refine (exact_setContainer_iff h).mpr ?_
  rw [hfc]
  rfl

lemma idleTable_deleteContainerPool (s : ContainerScheduler) (ns : String) (poolId : ContainerPoolId) :
    let removals := s.warmRemovals (HashOrder.toList (s.warmContainersByPool.ids ⟨ns,poolId⟩))
    (s.deleteContainerPool ns poolId).1.idleTable =
      ⟨(removals.foldl terminateWarm (s,{})).1.functionContainers,
        (removals.foldl (fun s e => s.removeIdle e.2.2 e.1) s).idleContainers⟩ := by
  intro removals
  have hterminate : (removals.foldl terminateWarm (s,{})).1.idleContainers = s.idleContainers := by
    refine Trace.frame terminateWarm (fun acc => acc.1.idleContainers) ?_ (s,{}) removals
    intro acc e
    unfold terminateWarm
    cases acc.1.functionContainers.lookup e.1 <;> rfl
  have hidle : ∀ s' : ContainerScheduler, s'.idleContainers=s.idleContainers →
      (removals.foldl (fun s e => s.removeIdle e.2.2 e.1) s').idleTable = ⟨s'.functionContainers,
          (removals.foldl (fun s e => s.removeIdle e.2.2 e.1) s).idleContainers⟩ := by
    intro s' hs'
    have hcontainers := congrArg Tables.containers (tables_foldl_removeIdle s' removals)
    have hset : (removals.foldl (fun s e => s.removeIdle e.2.2 e.1) s').idleContainers =
        (removals.foldl (fun s e => s.removeIdle e.2.2 e.1) s).idleContainers := by
      ext e
      obtain ⟨time,id⟩ := e
      refine (mem_foldl_removeIdle s' _ _ removals time id).trans ?_
      rw [hs']
      exact (mem_foldl_removeIdle s _ _ removals time id).symm
    unfold idleTable
    rw [hset]
    exact congrArg (IdleTable.mk · _) hcontainers
  refine (Trace.frame (fun s (e : ContainerId × FunctionURI × Option Instant) =>
    removeFromUri s e.2.1 e.1) idleTable (fun _ _ => rfl) _ _).trans ?_
  refine (Trace.frame (removeFromPool · _) idleTable (fun _ _ => rfl) _ _).trans ?_
  exact hidle _ hterminate

lemma IdleTable.Exact.deleteContainerPool (h : s.idleTable.Exact) (ns : String)
    (poolId : ContainerPoolId) : (s.deleteContainerPool ns poolId).1.idleTable.Exact := by
  rw [idleTable_deleteContainerPool]
  obtain ⟨containers,ht,hout,hin⟩ := foldl_terminateWarm (s,{})
    (s.warmRemovals (HashOrder.toList (s.warmContainersByPool.ids ⟨ns,poolId⟩)))
  have hcontainers := congrArg Tables.containers ht
  change ContainerScheduler.functionContainers _ = containers at hcontainers
  rw [hcontainers]
  refine unlist_all h (mem_foldl_removeIdle s _ _ _) hout ?_ ?_
  · exact fun e he v hv => idleFrom_of_terminated (hin e he v hv)
  intro e he v hv
  obtain ⟨-,fc,hfc,-,hrest⟩ := mem_warmRemovals.mp he
  rw [hrest]
  exact onlyIdle_stored hfc v hv

/-- While containers are marked, the entries that are not to be dropped are exact. -/
structure Deletion.Pending (s : ContainerScheduler) (d : Deletion) : Prop where
  idle : d.scheduler.idleContainers=s.idleContainers
  exact : Listing.Lists (fun time id => toLex (time,id) ∈ s.idleContainers ∧
    ∀ r∈d.removals, ¬(id=r.containerId ∧ r.idleSince = some time))
    d.scheduler.functionContainers idleFrom

omit [HashOrder ContainerId] in
lemma Deletion.Pending.markDeleted {d : Deletion} (h : d.Pending s) (uri : FunctionURI)
    (id : ContainerId) : (ContainerScheduler.markDeleted uri d id).Pending s := by
  unfold ContainerScheduler.markDeleted
  cases hfc : d.scheduler.functionContainers.lookup id with
  | none => exact h
  | some fc =>
    refine ⟨h.idle,?_⟩
    dsimp only
    split_ifs with ht
    · refine h.exact.insert_iff.mpr ?_
      rw [hfc]
      exact (idleFrom_of_terminated ht).trans (idleFrom_of_terminated fc.isTerminated_terminate).symm
    refine insert_moved (onlyIdle_stored hfc) h.exact fun time id' => ?_
    rw [idleFrom_of_terminated fc.isTerminated_terminate,forall_mem_append]
    simp [and_assoc]

omit [HashOrder ContainerId] in
lemma foldl_dropDeleted (s : ContainerScheduler) (rs : List Removal) :
    (rs.foldl dropDeleted s).functionContainers = s.functionContainers ∧
      ∀ time id, toLex (time,id) ∈ (rs.foldl dropDeleted s).idleContainers ↔
        toLex (time,id) ∈ s.idleContainers ∧ ∀ r∈rs, ¬(id=r.containerId ∧ r.idleSince = some time) := by
  have hdrop : ∀ (s : ContainerScheduler) (r : Removal),
      (s.dropDeleted r).idleTable = (s.removeIdle r.idleSince r.containerId).idleTable := by
    intro s r
    unfold dropDeleted
    rw [idleTable_markDirty]
    cases r.wasWarm <;> rfl
  refine ⟨congrArg Tables.containers (tables_foldl_dropDeleted s rs),fun time id => ?_⟩
  induction rs generalizing s with
  | nil => simp
  | cons r rs ih =>
    have hidle : (s.dropDeleted r).idleContainers =
        (s.removeIdle r.idleSince r.containerId).idleContainers := congrArg IdleTable.idle (hdrop s r)
    rw [foldl_cons,ih,hidle,mem_removeIdle,forall_mem_cons,and_assoc]

lemma IdleTable.Exact.deleteApplication (h : s.idleTable.Exact) (ns name : String) :
    (s.deleteApplication ns name).1.idleTable.Exact := by
  have hstart : Deletion.Pending s ⟨s,{},[]⟩ := by
    refine ⟨rfl,fun time id => ?_⟩
    exact (and_iff_left fun r hr => absurd hr not_mem_nil).trans (h time id)
  have huri : ∀ {d : Deletion} (uri : FunctionURI), d.Pending s → (markDeletedUri d uri).Pending s :=
    fun uri hd => Trace.invariant (fun id hd => hd.markDeleted uri id) hd _
  have hmarked := Trace.invariant huri hstart
    (s.containersByFunctionUri.keys.filter fun uri =>
      uri.namespace = ns && uri.application = name)
  unfold ContainerScheduler.deleteApplication
  rw [idleTable_removeFunctionPoolsOf]
  generalize List.foldl markDeletedUri ⟨s,{},[]⟩ _ = d at hmarked
  obtain ⟨hcontainers,hidle⟩ := foldl_dropDeleted d.scheduler d.removals
  intro time id
  refine (hidle time id).trans ?_
  change _ ↔ ∃ v, (List.foldl dropDeleted d.scheduler d.removals).functionContainers.lookup id = some v ∧ _
  rw [hcontainers,hmarked.idle]
  exact hmarked.exact time id

lemma IdleTable.Exact.updateWithIntents (h : s.idleTable.Exact) (p : Payload) :
    (s.updateWithIntents p).1.idleTable.Exact := by
  have hpools := s.updateWithIntents_pools idleTable (fun _ _ _ _ _ => rfl) (p := p)
  cases p with
  | schedulerUpdate u =>
    exact idleTable_kept.updateSchedulerUpdate (fun _ _ _ hs' => hs'.foldl_updateEntry _) h
  | deleteApplication ns name => exact h.deleteApplication ns name
  | deleteContainerPool ns poolId => exact h.deleteContainerPool ns poolId
  | createOrUpdateApplication req
  | createContainerPool pool
  | updateContainerPool pool => rwa [hpools trivial]
  | deregisterExecutor id =>
    change (s.deregisterExecutor id).idleTable.Exact
    rwa [idleTable_deregisterExecutor]
  | _ => exact h

end

section
variable {s : ContainerScheduler}

lemma IdleTable.Exact.applyCreated {r : ContainerScheduler × FeasibilityCache ×
    Except CreateError (Option SchedulerUpdateRequest)} (h : r.1.idleTable.Exact) :
    (applyCreated r).idleTable.Exact := by
  unfold ContainerScheduler.applyCreated
  cases created r with
  | none => exact h
  | some u => exact h.applyContainerUpdate u

section
variable {s' : ContainerScheduler} {fnUri : FunctionURI} {c : Container} {now : Instant}

lemma Creation.idleTable (h : Creation s fnUri c now s' none) : s'.idleTable=s.idleTable := by
  cases h with
  | unchanged => rfl
  | refused hs => exact (idleTable_frame.of_core hs).trans (idleTable_popReaped s _)

lemma IdleTable.Exact.creation (h : s.idleTable.Exact) (hu : RestoresUnlisted s fnUri now)
    {u : Option SchedulerUpdateRequest} (hc : Creation s fnUri c now s' u) : s'.idleTable.Exact := by
  have hpop := idleTable_popReaped s fnUri
  cases hc with
  | unchanged => exact h
  | refused hs
  | added executorId state hs => rwa [(idleTable_frame.of_core hs).trans hpop]
  | restored hs hid hfc =>
    exact h.revived ((idleTable_frame.of_core hs).trans hpop) hfc (hu _ hid _ hfc)

end

variable [HashOrder ExecutorId]

lemma IdleTable.Exact.create (h : s.idleTable.Exact) (cache : FeasibilityCache) (w : Workload)
    (resources : FunctionResources) (c : Container) (containerType : ContainerType) (draw : Draw) :
    (ContainerScheduler.applyCreated (s.createContainer cache w resources c containerType
      draw)).idleTable.Exact := by
  refine IdleTable.Exact.applyCreated ?_
  rwa [idleTable_frame.createContainer]

lemma IdleTable.Exact.createForFunction (h : s.idleTable.Exact) (cache : FeasibilityCache)
    (ns application version : String) (function : Function) (state : ApplicationState) (draw : Draw)
    (hu : RestoresUnlisted s ⟨ns,application,function.name,version⟩ draw.now) :
    (ContainerScheduler.applyCreated (s.createContainerForFunction cache ns application version
      function state draw)).idleTable.Exact :=
  .applyCreated (h.creation hu (creation_of_created rfl))

end

/-- The finished allocation leaves its container, which is idle from now on when it was the last
one. The container is changed in place and then filed. -/
def ingestAllocation (s : ContainerScheduler) (containerId : ContainerId)
    (allocationId : AllocationId) (now : Instant) : ContainerScheduler × SchedulerUpdateRequest :=
  match s.functionContainers.lookup containerId with
  | none => (s.applyContainerUpdate {},{})
  | some fc =>
    let allocations := fc.allocations.erase allocationId
    let fc := {fc with
      allocations := allocations
      idleSince := if allocations = ∅ then some now else fc.idleSince}
    let update := containerUpdate containerId fc
    ((s.setContainer containerId fc).applyContainerUpdate update,update)

/-- The report finds a busy container, or the entry of the container does not move. -/
def IngestsBusy (s : ContainerScheduler) (containerId : ContainerId) (allocationId : AllocationId)
    (now : Instant) : Prop :=
  ∀ fc ∈ s.functionContainers.lookup containerId,
    fc.allocations.erase allocationId ≠ ∅ ∨ fc.idleFrom=none ∨ fc.idleFrom = some now
  deriving Decidable

lemma exact_ingestAllocation_iff {s : ContainerScheduler} (h : s.idleTable.Exact)
    (containerId : ContainerId) (allocationId : AllocationId) (now : Instant) :
    (s.ingestAllocation containerId allocationId now).1.idleTable.Exact ↔
      IngestsBusy s containerId allocationId now := by
  unfold ingestAllocation IngestsBusy
  cases hfc : s.functionContainers.lookup containerId with
  | none => exact iff_of_true h fun fc hmem => by cases hmem
  | some fc =>
    refine (exact_refiled_iff h hfc).trans ?_
    split_ifs with hempty
    · simp [hempty]
    · simp [hempty,fc.idleFrom_cases]

end ContainerScheduler

open ContainerScheduler FunctionRunProcessor ContainerServerMetadata

/-- The steps that change containers: the operations of the scheduler, the allocation of a run
and the report of a finished allocation. -/
inductive SchedulingOp
  | scheduler (op : ContainerScheduler.Op)
  | createAllocation (state : InMemoryState) (cache : FeasibilityCache) (run : FunctionRun)
      (ctx : RequestCtx) (queueSize : ℕ) (draw : AllocationDraw)
  | ingestAllocation (containerId : ContainerId) (allocationId : AllocationId) (now : Instant)

namespace SchedulingOp
section
variable [HashOrder ContainerId] [HashOrder ExecutorId] {s : ContainerScheduler}

def step (s : ContainerScheduler) : SchedulingOp → ContainerScheduler
  | .scheduler op => s.step op
  | .createAllocation state cache run ctx queueSize d =>
    (FunctionRunProcessor.createAllocation state s cache run ctx queueSize d).1
  | .ingestAllocation containerId allocationId now =>
    (s.ingestAllocation containerId allocationId now).1

def run (s : ContainerScheduler) (ops : List SchedulingOp) : ContainerScheduler := ops.foldl step s

/-- The run starts on a container that is busy already: the least loaded available one is not
idle, and when there is none no container is created, which would be idle. -/
def StartsOnBusy (state : InMemoryState) (s : ContainerScheduler) (cache : FeasibilityCache)
    (run : FunctionRun) (queueSize : ℕ) (draw : Draw) : Prop :=
  match findAvailableContainer s (.ofRun run) queueSize with
  | some target => (s.functionContainers.lookup target.containerId).bind idleFrom = none
  | none => created (tryCreateContainer state s cache run draw) = none

instance (state : InMemoryState) (s : ContainerScheduler) (cache : FeasibilityCache)
    (run : FunctionRun) (queueSize : ℕ) (draw : Draw) :
    Decidable (StartsOnBusy state s cache run queueSize draw) := by
  unfold StartsOnBusy
  exact match findAvailableContainer s (.ofRun run) queueSize with
    | some target => inferInstanceAs (Decidable (_=_))
    | none => decidable_of_iff (Option.isNone (created (tryCreateContainer state s cache run draw)))
        Option.isNone_iff_eq_none

/-- The step changes the idle time of no container behind its entry. -/
def KeepsEntries (s : ContainerScheduler) : SchedulingOp → Prop
  | .scheduler (.restoreReapedContainer fnUri now) => RestoresUnlisted s fnUri now
  | .scheduler (.createForFunction _ ns application version function _ draw) =>
    RestoresUnlisted s ⟨ns,application,function.name,version⟩ draw.now
  | .scheduler _ => True
  | .createAllocation state cache run _ queueSize d =>
    StartsOnBusy state s cache run queueSize d.draw
  | .ingestAllocation containerId allocationId now => IngestsBusy s containerId allocationId now

instance (s : ContainerScheduler) (op : SchedulingOp) : Decidable (KeepsEntries s op) := by
  unfold KeepsEntries
  split <;> infer_instance

omit [HashOrder ContainerId] in
lemma idleTable_tryCreateContainer {state : InMemoryState} {cache : FeasibilityCache} {run : FunctionRun}
    {draw : Draw} (h : created (tryCreateContainer state s cache run draw) = none) :
    (tryCreateContainer state s cache run draw).1.idleTable = s.idleTable := by
  rcases tryCreateContainer_cases state s cache run draw with hr | ⟨_,_,-,-,-,hr⟩ <;> rw [hr] at h ⊢
  exact (creation_of_created h).idleTable

omit [HashOrder ContainerId] [HashOrder ExecutorId] in
lemma exact_startRun_iff (h : s.idleTable.Exact) (u : SchedulerUpdateRequest) (run : FunctionRun)
    (ctx : RequestCtx) (target : AllocationTarget) (id : AllocationId) :
    (startRun s u run ctx target id).1.idleTable.Exact ↔
      (s.functionContainers.lookup target.containerId).bind idleFrom = none := by
  change (occupy s (newAllocation run ctx target id)).idleTable.Exact ↔ _
  unfold occupy newAllocation
  dsimp only
  cases hfc : s.functionContainers.lookup target.containerId with
  | none => exact iff_of_true h rfl
  | some fc =>
    refine (exact_setContainer_iff h).trans ?_
    rw [hfc,idleFrom_of_idleSince_eq_none rfl]

lemma exact_createAllocation (h : s.idleTable.Exact)
    {state : InMemoryState} {cache : FeasibilityCache} {run : FunctionRun} {ctx : RequestCtx}
    {queueSize : ℕ} {d : AllocationDraw} (hbusy : StartsOnBusy state s cache run queueSize d.draw) :
    (FunctionRunProcessor.createAllocation state s cache run ctx queueSize d).1.idleTable.Exact := by
  unfold StartsOnBusy at hbusy
  unfold FunctionRunProcessor.createAllocation chooseTarget
  cases hfind : findAvailableContainer s (.ofRun run) queueSize with
  | some target =>
    rw [hfind] at hbusy
    exact (exact_startRun_iff h {} run ctx target d.allocationId).mpr hbusy
  | none =>
    rw [hfind] at hbusy
    have htable := idleTable_tryCreateContainer hbusy
    rcases hr : tryCreateContainer state s cache run d.draw with ⟨s',cache',e | _ | u⟩ <;>
      rw [hr] at htable hbusy
    · exact htable ▸ h
    · exact htable ▸ h
    · cases hbusy

lemma exact_step (h : s.idleTable.Exact) {op : SchedulingOp}
    (hkeep : KeepsEntries s op) : (step s op).idleTable.Exact := by
  cases op with
  | scheduler op =>
    cases op with
    | payload p => exact h.updateWithIntents p
    | applyContainerUpdate u => exact h.applyContainerUpdate u
    | terminateContainer id => exact h.terminateContainer id
    | reapIdleContainers minIdleAge now => exact idleTable_kept.reapIdleContainers h minIdleAge now
    | restoreReapedContainer fnUri now => exact h.restoreReapedContainer hkeep
    | claimPoolContainer key sandboxId timeout => exact h.claimPoolContainer key sandboxId timeout
    | createForFunction cache ns application version function state draw =>
      exact h.createForFunction cache ns application version function state draw hkeep
    | createForSandbox cache sandbox snapshotUri draw
    | createForPool cache pool draw => exact h.create _ _ _ _ _ _
  | createAllocation state cache run ctx queueSize d => exact exact_createAllocation h hkeep
  | ingestAllocation containerId allocationId now =>
    exact (exact_ingestAllocation_iff h containerId allocationId now).mpr hkeep

/-- As long as no step changes an idle time behind its entry, the entries are those of the live
idle function containers, and a container is reaped only when it is idle for long enough and runs
nothing. -/
theorem run_idle_exact (functionPools sandboxPools : Dict ContainerPoolKey ContainerPool)
    (ops : List SchedulingOp) (h : Trace.Along step KeepsEntries (.new functionPools sandboxPools) ops) :
    let s := run (.new functionPools sandboxPools) ops
    (∀ time id, toLex (time,id) ∈ s.idleContainers ↔ ∃ fc, s.functionContainers.lookup id = some fc ∧
      fc.isTerminated = false ∧ fc.containerType=.function ∧ fc.idleSince = some time) ∧
    ∀ minIdleAge now id fc fc', s.functionContainers.lookup id = some fc → fc.isTerminated=false →
      (s.reapIdleContainers minIdleAge now).1.functionContainers.lookup id = some fc' →
      fc'.isTerminated = true →
      fc.allocations = ∅ ∧ ∃ time, fc.idleSince = some time ∧ minIdleAge ≤ now-time := by
  have hnew : (ContainerScheduler.new functionPools sandboxPools).idleTable.Exact := by
    intro time id
    simp [ContainerScheduler.new,idleTable]
  have hexact : (run (.new functionPools sandboxPools) ops).idleTable.Exact :=
    @Trace.Along.invariant _ _ step KeepsEntries (fun s => s.idleTable.Exact)
      (fun hs hop => exact_step hs hop) _ _ hnew h
  refine ⟨fun time id => (hexact time id).trans ?_,?_⟩
  · refine exists_congr fun fc => and_congr_right fun _ => ?_
    unfold idleFrom
    cases fc.isTerminated <;> simp
  · intro minIdleAge now id fc fc' hfc halive hfc' hterm
    exact hexact.reap_old hfc halive hfc' hterm

end

def busyContainer : ContainerServerMetadata where
  executorId := ⟨"executor"⟩
  functionContainer := functionContainer "default" "app" "1" smallFunction ⟨"container-1"⟩
  desiredState := .running
  containerType := .function
  allocations := {⟨"alloc-0"⟩}
  idleSince := none

def sharedOps : List SchedulingOp := joinOps.map .scheduler ++
  [.scheduler (.createForFunction ∅ "default" "app" "1" smallFunction .active
      (waitingDraws 0).draw),
    .scheduler (.applyContainerUpdate (containerUpdate ⟨"container-1"⟩ busyContainer)),
    .createAllocation (waitingState .active) ∅ (waitingRun "answer") waitingCtx 2 (waitingDraws 0),
    .ingestAllocation ⟨"container-1"⟩ ⟨"alloc-0"⟩ 500,
    .ingestAllocation ⟨"container-1"⟩ ⟨"alloc-1"⟩ 1000]

attribute [local instance] HashOrder.ascending

theorem sharedOps_reaped_when_old :
    let s := run (.new ∅ ∅) sharedOps
    (s.functionContainers.lookup ⟨"container-1"⟩).bind idleSince = some 1000 ∧
    toLex (1000,⟨"container-1"⟩) ∈ s.idleContainers ∧
    ∀ minIdleAge now id fc fc', s.functionContainers.lookup id = some fc → fc.isTerminated=false →
      (s.reapIdleContainers minIdleAge now).1.functionContainers.lookup id = some fc' →
      fc'.isTerminated = true →
      fc.allocations = ∅ ∧ ∃ time, fc.idleSince = some time ∧ minIdleAge ≤ now-time := by
  have h := run_idle_exact ∅ ∅ sharedOps (by decide +kernel)
  exact ⟨by decide +kernel,by decide +kernel,h.2⟩

def firstOps : List SchedulingOp := joinOps.map .scheduler ++
  [.createAllocation (waitingState .active) ∅ (waitingRun "answer") waitingCtx 2 (waitingDraws 0),
    .ingestAllocation ⟨"container-1"⟩ ⟨"alloc-1"⟩ 1000]

/-- The entry of the creation stays. The container is reaped as idle for 995 although it became
idle 5 before. -/
theorem firstOps_reaped_too_early :
    let s := run (.new ∅ ∅) firstOps
    s.idleContainers = {toLex (10,⟨"container-1"⟩),toLex (1000,⟨"container-1"⟩)} ∧
    (s.functionContainers.lookup ⟨"container-1"⟩).map (fun fc => (fc.isTerminated,fc.idleSince)) =
      some (false,some 1000) ∧
    ((s.reapIdleContainers 300 1005).1.functionContainers.lookup ⟨"container-1"⟩).map
      isTerminated = some true := by
  decide +kernel

end SchedulingOp
end Indexify
