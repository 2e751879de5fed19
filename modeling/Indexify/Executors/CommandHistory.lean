import Indexify.Executors.CommandEmission
import Indexify.Processor.PendingContainers

/-! The commands of a whole history of batches. An addition is repeated whenever a later batch
writes a container that is still pending, and only then: when no batch does, every container is
added at most once, and before its runs, until it is removed or its executor registers again. -/
namespace Indexify
open List

/-- What a history tells the executors, and what makes earlier commands void: a registration of the
executor, and the end of a container in the scheduler. -/
inductive Notice
  | registered (executorId : ExecutorId)
  | dropped (id : ContainerId)
  | sent (intent : SchedulerCommandIntent)

def SchedulerCommand.uses : SchedulerCommand → Option ContainerId
  | addContainer container => some container.id
  | runAllocation a => some a.target.containerId
  | _ => none

namespace Notice

/-- The additions and runs of a container that still hold after one more notice. -/
def tell (id : ContainerId) (told : List SchedulerCommandIntent) : Notice → List SchedulerCommandIntent
  | registered executorId => told.filter fun i => i.executorId≠executorId
  | dropped id' => if id'=id then [] else told
  | sent ⟨_,.removeContainer id'⟩ => if id'=id then [] else told
  | sent i => if i.command.uses = some id then told++[i] else told

/-- The additions and runs of a container since its last removal and the last registration of its
executor. -/
def since (id : ContainerId) (log : List Notice) : List SchedulerCommandIntent :=
  log.foldl (tell id) []

def Single (told : List SchedulerCommandIntent) : Prop :=
  told.Pairwise fun _ i => i.command.isAdd=false

/-- At no time of the history a container was added twice, or after one of its runs. -/
def Once (log : List Notice) : Prop := ∀ l, l <+: log → ∀ id, Single (since id l)

def use (id : ContainerId) : Notice → Option SchedulerCommandIntent
  | sent i => if i.command.uses = some id then some i else none
  | _ => none

section
variable {id : ContainerId} {log ns : List Notice}

lemma tell_sublist (told : List SchedulerCommandIntent) (n : Notice) :
    (tell id told n).Sublist (told++(use id n).toList) := by
  cases n with
  | registered executorId =>
    simp [tell]
  | dropped id' =>
    dsimp only [tell]
    split_ifs <;> simp
  | sent i =>
    obtain ⟨executorId,command⟩ := i
    cases command with
    | removeContainer id' =>
      dsimp only [tell]
      split_ifs <;> simp
    | _ =>
      dsimp only [tell,use]
      split_ifs <;> simp

lemma foldl_tell_sublist (told : List SchedulerCommandIntent) (ns : List Notice) :
    (ns.foldl (tell id) told).Sublist (told++ns.filterMap (use id)) := by
  induction ns generalizing told with
  | nil => simp
  | cons n ns ih =>
    refine (ih (tell id told n)).trans ?_
    have hone := (@tell_sublist id told n).append_right (ns.filterMap (use id))
    cases huse : use id n with
    | none
    | some i => simpa [huse] using hone

lemma since_append_sublist (log ns : List Notice) :
    (since id (log++ns)).Sublist (since id log++ns.filterMap (use id)) := by
  unfold since
  rw [foldl_append]
  exact foldl_tell_sublist _ ns

lemma since_append_eq_nil (hlog : since id log = []) (hns : ns.filterMap (use id) = []) :
    since id (log++ns) = [] := by
  have hsub := @since_append_sublist id log ns
  rw [hlog,hns] at hsub
  exact sublist_nil.mp hsub

lemma Once.append (h : Once log)
    (hns : ∀ id, Single (since id log++ns.filterMap (use id))) : Once (log++ns) := by
  intro l hl id
  rcases List.prefix_or_prefix_of_prefix hl (prefix_append log ns) with hold | ⟨ns',rfl⟩
  · exact h l hold id
  have hpre := (prefix_append_right_inj log).mp hl
  refine (hns id).sublist ((since_append_sublist log ns').trans ?_)
  exact (hpre.sublist.filterMap _).append_left _

lemma Once.append_quiet (h : Once log) (hns : ∀ id, ns.filterMap (use id) = []) : Once (log++ns) := by
  refine h.append fun id => ?_
  rw [hns,append_nil]
  exact h log (prefix_refl log) id

lemma filterMap_use_dropped (ids : List ContainerId) : (ids.map dropped).filterMap (use id) = [] := by
  rw [filterMap_map,filterMap_eq_nil_iff]
  exact fun _ _ => rfl

lemma since_dropped {ids : List ContainerId} (hid : id∈ids) : since id (log++ids.map dropped) = [] := by
  unfold since
  rw [foldl_append]
  generalize List.foldl (tell id) [] log = told
  induction ids generalizing told with
  | nil => cases hid
  | cons id' ids ih =>
    rcases mem_cons.mp hid with rfl | hid
    · have hsub := @foldl_tell_sublist id (tell id told (dropped id)) (ids.map dropped)
      rw [filterMap_use_dropped] at hsub
      simpa [tell] using hsub
    · exact ih hid _

lemma filterMap_use_sent (is : List SchedulerCommandIntent) :
    (is.map sent).filterMap (use id) = is.filter fun i => i.command.uses = some id := by
  induction is with
  | nil => rfl
  | cons i is ih =>
    rw [map_cons,filterMap_cons,ih]
    by_cases huses : i.command.uses = some id <;> simp [use,huses]

end
end Notice

open ContainerScheduler Notice ExecutorManager
section
variable {u : SchedulerUpdateRequest} {sandboxes : Dict SandboxKey Sandbox}
  {versions : Dict String ApplicationVersion} {i : SchedulerCommandIntent} {id : ContainerId}
  (hkeyed : Every (fun id fc => fc.functionContainer.id=id) u.containers)
include hkeyed

lemma add_of_containerIntent {ids e} (he : e∈u.containers.entries)
    (hi : containerIntent versions ids e = some i) (huses : i.command.uses = some id) :
    i.command.isAdd = true ∧ e.1=id ∧ e.2.isTerminated=false ∧ e.2.functionContainer.state = .pending := by
  obtain ⟨-,hcommands⟩ := containerIntent_commands hi
  generalize i.command = c at huses hcommands
  cases hcommands with
  | remove hterminated
  | claim metadata hlive => cases huses
  | add container hid hlive hpending =>
    refine ⟨rfl,?_,hlive,hpending⟩
    rw [← hkeyed e.1 e.2 ((Dict.mem_entries_iff _ _ _).mp he),← hid]
    exact Option.some.inj huses

lemma uses_rebuildSchedulerCommandIntents (hi : i ∈ rebuildSchedulerCommandIntents u sandboxes versions)
    (huses : i.command.uses = some id) :
    (i.command.isAdd=true ∧ ∃ fc, u.containers.lookup id = some fc ∧ fc.isTerminated=false ∧
        fc.functionContainer.state = .pending) ∨
      (i.command.isAdd=false ∧ ∃ a∈u.newAllocations, a.target.containerId=id) := by
  unfold rebuildSchedulerCommandIntents at hi
  rw [mem_append,mem_append] at hi
  rcases hi with (hi | hi) | hi
  · obtain ⟨e,he,hintent⟩ := mem_filterMap.mp hi
    rw [mem_insertionSort] at he
    obtain ⟨hadd,rfl,hlive,hpending⟩ := add_of_containerIntent hkeyed he hintent huses
    exact Or.inl ⟨hadd,e.2,(Dict.mem_entries_iff _ _ _).mp he,hlive,hpending⟩
  · obtain ⟨a,ha,rfl⟩ := mem_map.mp hi
    exact Or.inr ⟨rfl,a,ha,Option.some.inj huses⟩
  · obtain ⟨snapshot,-,hsnapshot⟩ := mem_filterMap.mp hi
    obtain ⟨hadd,-,hrun⟩ := snapshotIntent_spec hsnapshot
    generalize i.command = c at huses hadd hrun
    cases c with
    | addContainer container => cases hadd
    | runAllocation a => cases hrun
    | _ => cases huses

lemma pairwise_adds (id : ContainerId) :
    (rebuildSchedulerCommandIntents u sandboxes versions).Pairwise fun a b =>
      ¬(a.command.isAdd=true ∧ a.command.uses = some id ∧ b.command.isAdd=true ∧
        b.command.uses = some id) := by
  unfold rebuildSchedulerCommandIntents
  set updatedIds := u.updatedSandboxes.values.filterMap Sandbox.containerId
  rw [append_assoc]
  refine pairwise_append_of_right ?_ fun a b hb h => ?_
  · have hperm := perm_insertionSort (commandLe updatedIds) u.containers.entries
    have hnodup : (u.containers.entries.insertionSort (commandLe updatedIds)).Pairwise
        fun a b => a.1≠b.1 :=
      (nodupKeys_iff_pairwise.mp u.containers.nodupKeys).perm hperm.symm fun h => h.symm
    rw [pairwise_filterMap]
    refine hnodup.imp_of_mem ?_
    rintro a b ha hb hne i hi j hj ⟨hai,hui,haj,huj⟩
    rw [mem_insertionSort] at ha hb
    exact hne ((add_of_containerIntent hkeyed ha hi hui).2.1.trans
      (add_of_containerIntent hkeyed hb hj huj).2.1.symm)
  · rw [(later_intents hb).1] at h
    cases h.2.2.1

lemma single_rebuildSchedulerCommandIntents (id : ContainerId) :
    Single ((rebuildSchedulerCommandIntents u sandboxes versions).filter
      fun i => i.command.uses = some id) := by
  have hordered := ordered_rebuildSchedulerCommandIntents u sandboxes versions
  refine pairwise_filter.mpr ((hordered.addsFirst.and (@pairwise_adds u sandboxes versions hkeyed
    id)).imp ?_)
  rintro a b ⟨hrun,hadd⟩ ha hb
  have ha : a.command.uses = some id := by simpa using ha
  have hb : b.command.uses = some id := by simpa using hb
  by_contra hisAdd
  rw [Bool.not_eq_false] at hisAdd
  cases hcommand : a.command with
  | addContainer container =>
    refine hadd ⟨?_,ha,hisAdd,hb⟩
    rw [hcommand]
    rfl
  | runAllocation allocation =>
    refine hrun ⟨?_,hisAdd⟩
    rw [hcommand]
    rfl
  | _ =>
    rw [hcommand] at ha
    cases ha

def OnlyEnds (u : SchedulerUpdateRequest) : Prop :=
  Every (fun _ fc => fc.isTerminated=true) u.containers ∧ u.newAllocations = []

lemma uses_of_onlyEnds (hends : OnlyEnds u) : (rebuildSchedulerCommandIntents u sandboxes versions).filter
    (fun i => i.command.uses = some id) = [] := by
  rw [filter_eq_nil_iff]
  intro i hi huses
  rcases uses_rebuildSchedulerCommandIntents hkeyed hi (by simpa using huses) with
    ⟨-,fc,hfc,hlive,-⟩ | ⟨-,a,ha,-⟩
  · rw [show fc.isTerminated = true from hends.1 id fc hfc] at hlive
    cases hlive
  · rw [hends.2] at ha
    cases ha

end

/-- A batch of the processor, with the sandboxes and versions that its commands are built from. -/
structure SchedulerBatch where
  reapAt : Option Instant
  items : List Item
  sandboxes : Dict SandboxKey Sandbox
  versions : Dict String ApplicationVersion

def Payload.notices : Payload → List Notice
  | .upsertExecutor executor => [.registered executor.id]
  | _ => []

namespace SchedulerBatch
variable [HashOrder ContainerId] [HashOrder ExecutorId]

/-- The commands of an immediate payload are written with it, those of handlers at the end. -/
def itemNotices (b : SchedulerBatch) (s : ContainerScheduler) : Item → List Notice
  | .payload p => p.notices
  | .change _ => []
  | .immediate p => p.notices++(rebuildSchedulerCommandIntents (s.updateWithIntents p).2 b.sandboxes
      b.versions).map .sent

def notices (b : SchedulerBatch) : BatchState → List Item → List Notice
  | _,[] => []
  | x,item::items => b.itemNotices x.scheduler item++b.notices (process x item) items

def final (b : SchedulerBatch) (s : ContainerScheduler) : BatchState :=
  b.items.foldl process (s.openBatch b.reapAt)

/-- Containers that the scheduler knew, or that commands are about, and that are not in its table
after the batch. -/
def leavers (b : SchedulerBatch) (s : ContainerScheduler) : List ContainerId :=
  (s.functionContainers.keys++(b.final s).update.containers.keys ++
    (b.final s).update.newAllocations.map fun a => a.target.containerId).filter
      fun id => id ∉ (b.final s).scheduler.functionContainers

end SchedulerBatch

structure History where
  scheduler : ContainerScheduler
  log : List Notice := []

def NewOrPending (s : ContainerScheduler) (id : ContainerId) : Prop :=
  (s.functionContainers.lookup id).all fun fc => fc.functionContainer.state=.pending

instance (s : ContainerScheduler) : DecidablePred (NewOrPending s) := fun _ =>
  inferInstanceAs (Decidable (_=true))

/-- No live entry of an update that is pending was so in the table already. -/
def RenewsNoPending (s : ContainerScheduler) (u : SchedulerUpdateRequest) : Prop :=
  ∀ e∈u.containers.entries, e.2.isTerminated=false → e.2.functionContainer.state=.pending →
    ((s.functionContainers.lookup e.1).all fun fc => fc.functionContainer.state≠.pending) = true
  deriving Decidable

namespace History
variable [HashOrder ContainerId] [HashOrder ExecutorId]

def batch (h : History) (b : SchedulerBatch) : History where
  scheduler := (b.final h.scheduler).scheduler
  log := h.log++b.notices (h.scheduler.openBatch b.reapAt) b.items ++
    (rebuildSchedulerCommandIntents (b.final h.scheduler).update b.sandboxes b.versions).map .sent ++
    (b.leavers h.scheduler).map .dropped

/-- What the batch brings in as pending was not in the table or was pending there, and no pending
container of the update was pending in the table. -/
def Allowed (h : History) (b : SchedulerBatch) : Prop :=
  Trace.Along process (ItemIn (NewOrPending h.scheduler)) (h.scheduler.openBatch b.reapAt) b.items ∧
    RenewsNoPending h.scheduler (b.final h.scheduler).update
  deriving Decidable

structure Orderly (h : History) : Prop where
  keyed : Every (fun id fc => fc.functionContainer.id=id) h.scheduler.functionContainers
  untold : ∀ id, id∉h.scheduler.functionContainers → since id h.log = []
  once : Once h.log

section
variable {s : ContainerScheduler} {b : SchedulerBatch} {h : History}

omit [HashOrder ExecutorId] in
lemma ends_updateWithIntents (s : ContainerScheduler) (p : Payload) :
    OnlyEnds (s.updateWithIntents p).2 := by
  have hdelete : ∀ ns name, OnlyEnds (s.deleteApplication ns name).2 := by
    intro ns name
    refine @Trace.invariant _ _ markDeletedUri (fun d => OnlyEnds d.update) (fun fnUri hd => ?_)
      {scheduler := s} ⟨every_empty,rfl⟩ _
    refine @Trace.invariant _ _ (markDeleted fnUri) (fun d => OnlyEnds d.update) ?_ _ hd _
    intro d id hd
    unfold markDeleted
    split
    · exact hd
    · exact ⟨hd.1.insert rfl,hd.2⟩
  have hpool : ∀ ns poolId, OnlyEnds (s.deleteContainerPool ns poolId).2 := by
    intro ns poolId
    refine @Trace.invariant _ _ terminateWarm (fun acc => OnlyEnds acc.2) ?_ (s,{}) ⟨every_empty,rfl⟩ _
    intro acc e hacc
    unfold terminateWarm
    split
    · exact hacc
    · exact ⟨hacc.1.insert rfl,hacc.2⟩
  unfold ContainerScheduler.updateWithIntents
  cases p with
  | deleteApplication ns name => exact ⟨every_empty.union (hdelete ns name).1,(hdelete ns name).2⟩
  | deleteContainerPool ns poolId =>
    exact ⟨every_empty.union (hpool ns poolId).1,(hpool ns poolId).2⟩
  | createOrUpdateApplication req =>
    dsimp only
    split_ifs <;> exact ⟨every_empty,rfl⟩
  | _ => exact ⟨every_empty,rfl⟩

lemma filterMap_use_notices {P : ContainerId → Prop} {x : BatchState} {items : List Item}
    (hx : BatchIn P x) (hitems : Trace.Along process (ItemIn P) x items) (id : ContainerId) :
    (b.notices x items).filterMap (use id) = [] := by
  induction items generalizing x with
  | nil => rfl
  | cons item items ih =>
    obtain ⟨hitem,hitems⟩ := hitems
    have hpayload : ∀ p : Payload, p.notices.filterMap (use id) = [] := by
      intro p
      cases p <;> rfl
    unfold SchedulerBatch.notices
    rw [filterMap_append,ih (hx.process hitem) hitems,append_nil]
    cases item with
    | payload p => exact hpayload p
    | change work => rfl
    | immediate p =>
      have hkeyed := (hx.1.updateWithIntents stable_pendingIn hitem).2
      dsimp only [SchedulerBatch.itemNotices]
      rw [filterMap_append,hpayload,filterMap_use_sent]
      exact uses_of_onlyEnds (fun id fc hfc => (hkeyed id fc hfc).keyed)
        (ends_updateWithIntents x.scheduler p)

lemma Orderly.batch (horderly : h.Orderly) (hb : h.Allowed b) : (h.batch b).Orderly := by
  obtain ⟨hitems,hadvances⟩ := hb
  have hstart : Every (PendingIn (NewOrPending h.scheduler)) h.scheduler.functionContainers := by
    intro id fc hfc
    refine ⟨horderly.keyed id fc hfc,fun hpending => ?_⟩
    unfold NewOrPending
    rw [hfc]
    simpa using hpending
  have hopen := batchIn_openBatch hstart b.reapAt
  have hfinal : BatchIn (NewOrPending h.scheduler) (b.final h.scheduler) :=
    Trace.Along.invariant BatchIn.process hopen hitems
  set u := (b.final h.scheduler).update
  have hkeyed : Every (fun id fc => fc.functionContainer.id=id) u.containers :=
    fun id fc hfc => (hfinal.2 id fc hfc).keyed
  have hquiet := fun id => @filterMap_use_notices _ _ b _ _ _ hopen hitems id
  have hbefore : Once (h.log++b.notices (h.scheduler.openBatch b.reapAt) b.items) :=
    horderly.once.append_quiet hquiet
  have huntold : ∀ id, id∉h.scheduler.functionContainers →
      since id (h.log++b.notices (h.scheduler.openBatch b.reapAt) b.items) = [] :=
    fun id hid => since_append_eq_nil (horderly.untold id hid) (hquiet id)
  -- a container that is added was not in the table, so that nothing was told about it
  have hnew : ∀ id, ∀ i ∈ rebuildSchedulerCommandIntents u b.sandboxes b.versions,
      i.command.uses = some id → i.command.isAdd=true → id∉h.scheduler.functionContainers := by
    intro id i hi huses hadd hmem
    rcases uses_rebuildSchedulerCommandIntents hkeyed hi huses with
      ⟨-,fc,hfc,hlive,hpending⟩ | ⟨hadd',-⟩
    · obtain ⟨old,hold⟩ := Dict.exists_of_mem hmem
      have hwas := (hfinal.2 id fc hfc).pending hpending
      have hnot := hadvances ⟨id,fc⟩ ((Dict.mem_entries_iff _ _ _).mpr hfc) hlive hpending
      unfold NewOrPending at hwas
      rw [hold] at hwas hnot
      simp only [Option.all_some,decide_eq_true_eq] at hwas hnot
      exact hnot hwas
    · rw [hadd] at hadd'
      cases hadd'
  have honce : Once (h.log++b.notices (h.scheduler.openBatch b.reapAt) b.items ++
      (rebuildSchedulerCommandIntents u b.sandboxes b.versions).map .sent) := by
    refine hbefore.append fun id => ?_
    rw [filterMap_use_sent]
    refine pairwise_append.mpr ⟨hbefore _ (prefix_refl _) id,
      single_rebuildSchedulerCommandIntents hkeyed id,fun a ha i hi => ?_⟩
    obtain ⟨hi,huses⟩ := mem_filter.mp hi
    by_contra hadd
    rw [huntold id (hnew id i hi (by simpa using huses) (by simpa using hadd))] at ha
    cases ha
  refine ⟨fun id fc hfc => (hfinal.1 id fc hfc).keyed,fun id hid => ?_,
    honce.append_quiet fun id => filterMap_use_dropped _⟩
  by_cases hleaves : id ∈ b.leavers h.scheduler
  · exact since_dropped hleaves
  have hlist : id ∉ h.scheduler.functionContainers.keys++u.containers.keys ++
      u.newAllocations.map fun a => a.target.containerId :=
    fun hmem => hleaves (mem_filter.mpr ⟨hmem,decide_eq_true hid⟩)
  rw [mem_append,mem_append,← AList.mem_keys,not_or,not_or] at hlist
  refine since_append_eq_nil (since_append_eq_nil (huntold id hlist.1.1) ?_)
    (filterMap_use_dropped _)
  rw [filterMap_use_sent,filter_eq_nil_iff]
  intro i hi huses
  rcases uses_rebuildSchedulerCommandIntents hkeyed hi (by simpa using huses) with
    ⟨-,fc,hfc,-⟩ | ⟨-,a,ha,hid⟩
  · exact hlist.1.2 (AList.mem_keys.mp (Dict.mem_of_lookup hfc))
  · exact hlist.2 (mem_map.mpr ⟨a,ha,hid⟩)

end

/-- In a history whose batches write no pending container that was so before, a container is added
at most once, and before its runs, between a registration of its executor and its removal.
Every call gives removals before additions, additions before runs, and one run for each new
allocation. -/
theorem allowed_batches_add_once (functionPools sandboxPools : Dict ContainerPoolKey ContainerPool)
    (bs : List SchedulerBatch)
    (hbs : Trace.Along History.batch History.Allowed ⟨.new functionPools sandboxPools,[]⟩ bs) :
    Once (bs.foldl History.batch ⟨.new functionPools sandboxPools,[]⟩).log ∧ ∀ update sandboxes versions,
        Ordered update (rebuildSchedulerCommandIntents update sandboxes versions) := by
  have hstart : Orderly ⟨.new functionPools sandboxPools,[]⟩ := by
    refine ⟨every_empty,fun _ _ => rfl,fun l hl id => ?_⟩
    rw [prefix_nil.mp hl]
    exact List.Pairwise.nil
  exact ⟨(Trace.Along.invariant Orderly.batch hstart hbs).once,ordered_rebuildSchedulerCommandIntents⟩

end History

section
open FunctionRunProcessor

def firstBatch : SchedulerBatch where
  reapAt := some 5
  items :=
    [.payload (.upsertExecutor smallExecutor),.change [.reconcile {} {} ⟨"executor"⟩ 5],
      .change [.allocate (waitingState .active) ∅ (waitingRun "answer") waitingCtx 2 (waitingDraws 0)]]
  sandboxes := ∅
  versions := (waitingState .active).applicationVersions

def secondBatch : SchedulerBatch where
  reapAt := some 20
  items :=
    [.change [.allocate (waitingState .active) ∅ {waitingRun "answer" with id := ⟨"answer-2"⟩}
      waitingCtx 2 (waitingDraws 1)]]
  sandboxes := ∅
  versions := (waitingState .active).applicationVersions

def startedBatch : SchedulerBatch :=
  ⟨some 15,[.change [.started {} ⟨"container-1"⟩]],∅,∅⟩

attribute [local instance] HashOrder.ascending

def commandLog (bs : List SchedulerBatch) : List Notice :=
  (bs.foldl History.batch ⟨.new ∅ ∅,[]⟩).log

def toldAdds (bs : List SchedulerBatch) (id : ContainerId) : List Bool :=
  (since id (commandLog bs)).map fun i => i.command.isAdd

theorem startedBatch_adds_once : Once (commandLog [firstBatch,startedBatch,secondBatch]) ∧
    toldAdds [firstBatch,startedBatch,secondBatch] ⟨"container-1"⟩ = [true,false,false] := by
  refine ⟨(History.allowed_batches_add_once ∅ ∅
    [firstBatch,startedBatch,secondBatch] ?_).1,by decide +kernel⟩
  decide +kernel

/-- Without the report the container is still pending, and it is added once more after its first
run. -/
theorem secondBatch_adds_again :
    toldAdds [firstBatch,secondBatch] ⟨"container-1"⟩ = [true,false,true,false] ∧
      ¬Once (commandLog [firstBatch,secondBatch]) := by
  have htold : toldAdds [firstBatch,secondBatch] ⟨"container-1"⟩ = [true,false,true,false] := by
    decide +kernel
  refine ⟨htold,fun honce => ?_⟩
  have hsingle := honce _ (prefix_refl _) ⟨"container-1"⟩
  have hadds : (toldAdds [firstBatch,secondBatch] ⟨"container-1"⟩).Pairwise fun _ a => a=false :=
    pairwise_map.mpr hsingle
  revert hadds
  decide

end
end Indexify
