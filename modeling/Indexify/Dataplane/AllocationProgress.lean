import Indexify.Dataplane.AllocationRuns

/-! Progress of the allocation controller. An allocation that is not done has a task that will
report, or waits in the queue of a container that is starting or full. -/
namespace Indexify.Dataplane
open List Dict AllocationState

/-- The task reports the end of the phase that the allocation is in. -/
def Pending.Serves : Pending → String → AllocationState → Prop
  | .prepare x,id,.preparing => x=id
  | .execute x,id,.running _ => x=id
  | .finalize x _,id,.finalizing _ _ => x=id
  | _,_,_ => False

lemma Pending.Serves.ne_waiting {task : Pending} {id : String} {st : AllocationState}
    (h : task.Serves id st) : st.isWaiting=false := by
  cases task <;> cases st <;> first | rfl | cases h

namespace AllocationController
variable {s s' s'' : AllocationController} {X : List String}
  {p : List Pending} {id x feId feId' : String} {st : AllocationState} {task : Pending}
  {a : ManagedAllocation} {m : ℕ} {ctx : FinalizationContext}

def HasTask (pending : List Pending) (id : String) (st : AllocationState) : Prop :=
  st.isWaiting = true ∨ st=.done ∨ ∃ task∈pending, task.Serves id st

def Waits (s : AllocationController) (feId id : String) : Prop :=
  ∃ a, s.allocations.lookup id = some a ∧ a.feId=feId ∧ a.state.isWaiting=true

def runningOn (s : AllocationController) (feId : String) : ℕ :=
  s.allocations.values.countP fun a => a.feId = feId && a.state.isRunning

/-- The queues hold exactly what waits, tasks are out for the rest, and the counters do not exceed
what runs. The allocations in `X` are between two states. -/
structure SoundBut (X : List String) (s : AllocationController) : Prop where
  queued : ∀ {feId id}, id ∈ s.queueOf feId ↔ id∉X ∧ s.Waits feId id
  nodup : ∀ feId, (s.queueOf feId).Nodup
  hosted : ∀ {feId id}, id∉X → s.Waits feId id → s.isAlive feId = true
  tasked : ∀ {id a}, id∉X → s.allocations.lookup id = some a → HasTask s.pending id a.state
  data : ∀ {feId id}, s.Waits feId id → id∈s.preparedData
  started : ∀ {feId m}, s.containers.lookup feId = some ⟨.starting,m⟩ → .startup feId ∈ s.pending
  counted : ∀ feId, s.countOf feId ≤ s.runningOn feId

lemma HasTask.imp {p' : List Pending} (h : HasTask p id st)
    (hp : ∀ task∈p, task.Serves id st → task∈p') : HasTask p' id st :=
  h.imp_right fun h => h.imp_right fun ⟨task,hm,hs⟩ => ⟨task,hp task hm hs,hs⟩

lemma HasTask.mono {p' : List Pending} (h : HasTask p id st) (hp : p ⊆ p') : HasTask p' id st :=
  h.imp fun _ hm _ => hp hm

lemma hasTask_spawn (h : task.Serves id st) : HasTask (p++[task]) id st :=
  .inr (.inr ⟨task,mem_append_right _ (mem_singleton_self _),h⟩)

lemma HasTask.erase (h : HasTask p id st) (ht : ¬task.Serves id st) : HasTask
    (p.erase task) id st := by
  refine h.imp fun task' hm hs => (mem_erase_of_ne ?_).mpr hm
  rintro rfl
  exact ht hs

lemma runningOn_put (s : AllocationController) (id : String) (a : ManagedAllocation) (feId : String) :
    (s.put id a).runningOn feId +
        (if (s.allocations.lookup id).any (fun a => a.feId = feId && a.state.isRunning) then 1
          else 0) =
      s.runningOn feId + (if a.feId = feId && a.state.isRunning then 1 else 0) :=
  countP_insert _ _ _ _

lemma waits_of_insert (ha : s'.allocations = s.allocations.insert id a) :
    s'.Waits feId x ↔ (x=id ∧ a.feId=feId ∧ a.state.isWaiting=true) ∨ (x≠id ∧ s.Waits feId x) := by
  unfold Waits
  rw [ha,lookup_insert_if]
  split_ifs with hx <;> simp [hx]

lemma SoundBut.settle (h : SoundBut (id::X) s)
    (ha : s'.allocations = s.allocations.insert id a) (hq : s'.waitingQueue=s.waitingQueue)
    (hc : s'.containers=s.containers) (hp : ∀ x, x≠id → (x∈s'.preparedData ↔ x∈s.preparedData))
    (hpending : s.pending ⊆ s'.pending) (hw : a.state.isWaiting=false)
    (htask : HasTask s'.pending id a.state)
    (hcount : ∀ feId, s'.countOf feId ≤ s'.runningOn feId) : SoundBut X s' := by
  have hwaits : ∀ {feId x}, s'.Waits feId x ↔ x≠id ∧ s.Waits feId x := by
    intro feId x
    rw [waits_of_insert ha]
    simp [hw]
  refine ⟨?_,?_,?_,?_,?_,?_,hcount⟩
  · intro feId x
    rw [queueOf,hq,hwaits]
    have hx : x ∈ s.queueOf feId ↔ x ∉ id::X ∧ s.Waits feId x := h.queued
    rw [mem_cons] at hx
    tauto
  · intro feId
    rw [queueOf,hq]
    exact h.nodup feId
  · intro feId x hX hx
    obtain ⟨hne,hx⟩ := hwaits.mp hx
    rw [isAlive,hc]
    exact h.hosted (by simp [hX,hne]) hx
  · intro x b hX hx
    rw [ha] at hx
    rcases lookup_insert_cases hx with ⟨rfl,rfl⟩ | ⟨hxid,hx⟩
    · exact htask
    · exact (h.tasked (by simp [hX,hxid]) hx).mono hpending
  · intro feId x hx
    obtain ⟨hne,hx⟩ := hwaits.mp hx
    exact (hp x hne).mpr (h.data hx)
  · intro feId m hfe
    rw [hc] at hfe
    exact hpending (h.started hfe)

lemma SoundBut.mem_queueOf (h : SoundBut [] s) : id ∈ s.queueOf feId ↔ s.Waits feId id :=
  h.queued.trans (and_iff_right not_mem_nil)

/-! ### Scheduling -/

lemma countOf_insert (s : AllocationController) (feId feId' : String) (n : ℕ) :
    ({s with runningCount := s.runningCount.insert feId n} : AllocationController).countOf feId' =
      if feId'=feId then n else s.countOf feId' := by
  unfold countOf
  rw [lookup_insert_if]
  split_ifs <;> rfl

structure Started (feId : String) (n : ℕ) (s s' : AllocationController) : Prop where
  containers : s'.containers=s.containers
  waitingQueue : s'.waitingQueue=s.waitingQueue
  count : s'.countOf feId = s.countOf feId + n
  others : ∀ feId', feId'≠feId → s'.countOf feId' = s.countOf feId'

lemma Started.trans {n : ℕ} (h : Started feId m s s')
    (h' : Started feId n s' s'') : Started feId (m + n) s s'' where
  containers := h'.containers.trans h.containers
  waitingQueue := h'.waitingQueue.trans h.waitingQueue
  count := by rw [h'.count,h.count,Nat.add_assoc]
  others feId' hne := (h'.others feId' hne).trans (h.others feId' hne)

lemma isRunning_of_isWaiting (h : st.isWaiting=true) : st.isRunning=false := by
  cases st <;> first | rfl | cases h

lemma scheduleCandidate_spec (h : SoundBut (id::X) s) (hw : s.Waits feId id) :
    SoundBut X (s.scheduleCandidate feId id) ∧ Started feId 1 s (s.scheduleCandidate feId id) ∧
      ∀ x, x≠id → (s.scheduleCandidate feId id).allocations.lookup x = s.allocations.lookup x := by
  obtain ⟨ctx,hctx⟩ := exists_of_mem (h.data hw)
  obtain ⟨a,ha,rfl,hwa⟩ := hw
  unfold scheduleCandidate
  rw [ha]
  dsimp only
  rw [if_pos hwa,hctx]
  refine ⟨h.settle rfl rfl rfl ?_ ?_ rfl ?_ ?_,⟨rfl,rfl,?_,?_⟩,?_⟩
  · intro x hx
    exact (AList.mem_erase).trans (and_iff_right hx)
  · exact subset_append_left _ _
  · exact hasTask_spawn rfl
  · intro feId
    have hcount := h.counted feId
    have hput := runningOn_put s id {a with state := .running ctx} feId
    rw [ha,Option.any_some,isRunning_of_isWaiting hwa] at hput
    refine (countOf_insert s a.feId feId _).le.trans ?_
    change _ ≤ (s.put id {a with state := .running ctx}).runningOn feId
    split_ifs with hfe
    · subst hfe
      simp [isRunning] at hput
      omega
    · simp [Ne.symm hfe] at hput
      omega
  · exact (countOf_insert s a.feId a.feId _).trans (if_pos rfl)
  · intro feId hne
    exact (countOf_insert s a.feId feId _).trans (if_neg hne)
  · intro x hx
    exact AList.lookup_insert_ne hx

lemma scheduleCandidates_spec {ids : List String} (hids : ids.Nodup)
    (h : SoundBut ids s) (hw : ∀ id∈ids, s.Waits feId id) :
    SoundBut [] (ids.foldl (scheduleCandidate feId) s) ∧
      Started feId ids.length s (ids.foldl (scheduleCandidate feId) s) := by
  induction ids generalizing s with
  | nil => exact ⟨h,⟨rfl,rfl,rfl,fun _ _ => rfl⟩⟩
  | cons id ids ih =>
    obtain ⟨hid,hids⟩ := nodup_cons.mp hids
    obtain ⟨hsound,hstarted,hsame⟩ := scheduleCandidate_spec h (hw id mem_cons_self)
    obtain ⟨hsound',hstarted'⟩ := ih hids hsound fun x hx => by
      have hne : x≠id := ne_of_mem_of_not_mem hx hid
      obtain ⟨a,ha,hwa⟩ := hw x (mem_cons_of_mem _ hx)
      exact ⟨a,(hsame x hne).trans ha,hwa⟩
    rw [length_cons,Nat.add_comm]
    exact ⟨hsound',hstarted.trans hstarted'⟩

def FullAt (s : AllocationController) (feId : String) : Prop :=
  ∀ m, s.containers.lookup feId = some ⟨.running,m⟩ → s.queueOf feId = [] ∨ m ≤ s.countOf feId

lemma queueOf_modify (s : AllocationController) (feId feId' : String)
    (f : List String → List String) (hf : f [] = []) :
    ({s with waitingQueue := s.waitingQueue.modify feId f} : AllocationController).queueOf feId' =
      if feId'=feId then f (s.queueOf feId') else s.queueOf feId' := by
  unfold queueOf
  rw [lookup_modify]
  split_ifs with hfe
  · subst hfe
    cases s.waitingQueue.lookup feId' <;> simp [hf]
  · rfl

lemma Waits.unique (h : s.Waits feId id) (h' : s.Waits feId' id) : feId=feId' := by
  obtain ⟨a,ha,rfl,-⟩ := h
  obtain ⟨b,hb,rfl,-⟩ := h'
  cases ha.symm.trans hb
  rfl

lemma mem_drop_iff {l : List String} (hl : l.Nodup) (n : ℕ) (x : String) :
    x ∈ l.drop n ↔ x ∉ l.take n ∧ x∈l := by
  constructor
  · intro hx
    exact ⟨fun ht => disjoint_take_drop hl le_rfl ht hx,mem_of_mem_drop hx⟩
  rintro ⟨ht,hx⟩
  rw [← take_append_drop n l,mem_append] at hx
  exact hx.resolve_left ht

lemma SoundBut.take (h : SoundBut [] s) (feId : String) (n : ℕ) : SoundBut ((s.queueOf feId).take n)
    {s with waitingQueue := s.waitingQueue.modify feId (List.drop n)} := by
  refine {h with
    queued := ?_, nodup := ?_
    hosted := fun _ hw => h.hosted not_mem_nil hw
    tasked := fun _ ha => h.tasked not_mem_nil ha}
  · intro feId' id
    rw [queueOf_modify _ _ _ _ drop_nil]
    split_ifs with hfe
    · subst hfe
      rw [mem_drop_iff (h.nodup feId'),h.mem_queueOf]
      rfl
    · refine h.mem_queueOf.trans (iff_and_self.mpr fun hw ht => hfe ?_)
      exact hw.unique (h.mem_queueOf.mp (mem_of_mem_take ht))
  · intro feId'
    rw [queueOf_modify _ _ _ _ drop_nil]
    split_ifs
    · exact (h.nodup feId').sublist (drop_sublist _ _)
    · exact h.nodup feId'

/-- The containers and what other containers have are left alone, and the container is full. -/
structure Filled (feId : String) (s s' : AllocationController) : Prop where
  containers : s'.containers=s.containers
  full : s'.FullAt feId
  others : ∀ feId', feId'≠feId → s'.queueOf feId' = s.queueOf feId' ∧ s'.countOf feId' = s.countOf feId'

lemma scheduleOn_spec (h : SoundBut [] s) (feId : String) :
    SoundBut [] (s.scheduleOn feId) ∧ Filled feId s (s.scheduleOn feId) := by
  unfold scheduleOn
  split
  next m hfe =>
    set n := m - s.countOf feId with hn
    have htake := h.take feId n
    obtain ⟨hsound,hstarted⟩ := scheduleCandidates_spec
      ((h.nodup feId).sublist (take_sublist n _)) htake
      fun id hid => (h.queued.mp (mem_of_mem_take hid)).2
    refine ⟨hsound,hstarted.containers,?_,?_⟩
    · intro m' hm'
      rw [hstarted.containers] at hm'
      cases hfe.symm.trans hm'
      rw [queueOf,hstarted.waitingQueue,hstarted.count]
      change queueOf {s with waitingQueue := s.waitingQueue.modify feId (List.drop n)} feId = [] ∨
        m ≤ s.countOf feId + _
      rw [queueOf_modify _ _ _ _ drop_nil,if_pos rfl,drop_eq_nil_iff,length_take]
      omega
    · intro feId' hne
      rw [queueOf,hstarted.waitingQueue,hstarted.others feId' hne]
      refine ⟨?_,rfl⟩
      exact (queueOf_modify s feId feId' _ drop_nil).trans (if_neg hne)
  next hfe =>
    refine ⟨h,rfl,fun m hm => ?_,fun _ _ => ⟨rfl,rfl⟩⟩
    exact absurd hm (hfe m)

lemma Filled.fullAt (h : Filled feId s s') (hfull : s.FullAt feId') : s'.FullAt feId' := by
  by_cases hne : feId'=feId
  · subst hne
    exact h.full
  intro m hm
  obtain ⟨hq,hc⟩ := h.others feId' hne
  rw [h.containers] at hm
  rw [hq,hc]
  exact hfull m hm

lemma trySchedule_spec (h : SoundBut [] s) :
    SoundBut [] s.trySchedule ∧ ∀ feId, s.trySchedule.FullAt feId := by
  have hloop : ∀ (ks : List String) {s : AllocationController}, SoundBut [] s →
      SoundBut [] (ks.foldl scheduleOn s) ∧
        ∀ feId, feId∈ks ∨ s.FullAt feId → (ks.foldl scheduleOn s).FullAt feId := by
    intro ks
    induction ks with
    | nil => exact fun h => ⟨h,fun feId hf => hf.resolve_left not_mem_nil⟩
    | cons k ks ih =>
      intro s h
      obtain ⟨hsound,hfilled⟩ := scheduleOn_spec h k
      obtain ⟨hsound',hfull⟩ := ih hsound
      refine ⟨hsound',fun feId hf => hfull feId ?_⟩
      rcases hf with hmem | hf
      · rcases mem_cons.mp hmem with rfl | hmem
        · exact .inr hfilled.full
        · exact .inl hmem
      · exact .inr (hfilled.fullAt hf)
  obtain ⟨hsound,hfull⟩ := hloop s.containers.keys h
  refine ⟨hsound,fun feId => hfull feId ?_⟩
  by_cases hmem : feId∈s.containers
  · exact .inl hmem
  right
  intro m hm
  rw [AList.lookup_eq_none.mpr hmem] at hm
  cases hm

/-! ### Allocations between two states -/

lemma SoundBut.exempt (h : SoundBut X s) (hid : ∀ feId, ¬s.Waits feId id) : SoundBut (id::X) s := by
  refine {h with
    queued := ?_
    hosted := fun hx hw => h.hosted (fun hm => hx (mem_cons_of_mem _ hm)) hw
    tasked := fun hx ha => h.tasked (fun hm => hx (mem_cons_of_mem _ hm)) ha}
  intro feId x
  rw [h.queued,mem_cons,not_or,and_assoc]
  refine (and_iff_right_of_imp ?_).symm
  rintro ⟨-,hw⟩ rfl
  exact hid feId hw

lemma SoundBut.enter (h : SoundBut (id::X) s) (hid : ∀ feId, ¬s.Waits feId id)
    (htask : ∀ a, s.allocations.lookup id = some a → HasTask s.pending id a.state) : SoundBut X s := by
  refine {h with queued := ?_, hosted := ?_, tasked := ?_}
  · intro feId x
    rw [h.queued,mem_cons,not_or,and_assoc]
    refine and_iff_right_of_imp ?_
    rintro ⟨-,hw⟩ rfl
    exact hid feId hw
  · intro feId x hx hw
    refine h.hosted ?_ hw
    rintro (_ | ⟨_,hm⟩)
    · exact hid feId hw
    · exact hx hm
  · intro x a hx ha
    by_cases hne : x=id
    · subst hne
      exact htask a ha
    · exact h.tasked (by simp [hne,hx]) ha

lemma SoundBut.erase (h : SoundBut X s)
    (htask : ∀ {id a}, id∉X → s.allocations.lookup id = some a → ¬task.Serves id a.state)
    (hstartup : ∀ feId, task ≠ .startup feId) : SoundBut X {s with pending := s.pending.erase task} :=
  {h with
    tasked := fun hx ha => (h.tasked hx ha).erase (htask hx ha)
    started := fun hfe => (mem_erase_of_ne (hstartup _).symm).mpr (h.started hfe)}

lemma not_waits_of_lookup (ha : s.allocations.lookup id = some a) (hw : a.state.isWaiting=false)
    (feId : String) : ¬s.Waits feId id := by
  rintro ⟨b,hb,-,hwb⟩
  cases ha.symm.trans hb
  rw [hw] at hwb
  cases hwb

lemma not_waits_of_lookup_none (ha : s.allocations.lookup id = none)
    (feId : String) : ¬s.Waits feId id := by
  rintro ⟨b,hb,-⟩
  rw [ha] at hb
  cases hb

lemma counted_put (hold : (s.allocations.lookup id).any (fun b => b.state.isRunning) = false)
    (h : ∀ feId, s.countOf feId ≤ s.runningOn feId) (feId : String) :
    s.countOf feId ≤ (s.put id a).runningOn feId := by
  have hput := runningOn_put s id a feId
  have hnone : (s.allocations.lookup id).any (fun b => b.feId = feId && b.state.isRunning) = false := by
    cases hb : s.allocations.lookup id <;> simp_all
  rw [hnone] at hput
  have hcount := h feId
  simp only [Bool.false_eq_true,if_false] at hput
  omega

lemma mem_erase_preparedData (hx : x≠id) : x ∈ (s.takePrepared id).2.preparedData ↔ x∈s.preparedData :=
  AList.mem_erase.trans (and_iff_right hx)

lemma SoundBut.startFinalization {result : AllocationResult} {t : Option String} (h : SoundBut (id::X) s)
    (ha : s.allocations.lookup id = some a) (hrun : a.state.isRunning=false)
    (hs : s'=s ∨ s' = (s.takePrepared id).2) : SoundBut X (s'.startFinalization id result ctx t) := by
  have hcount : ∀ feId, s.countOf feId ≤
      (s.put id {a with state := .finalizing result t}).runningOn feId :=
    counted_put (by simp [ha,hrun]) h.counted
  have htask : HasTask (s.pending++[.finalize id ctx]) id (.finalizing result t) :=
    hasTask_spawn rfl
  rcases hs with rfl | rfl
  · rw [AllocationController.startFinalization,ha]
    exact h.settle rfl rfl rfl (fun _ _ => Iff.rfl) (subset_append_left _ _) rfl htask hcount
  have ha' : (s.takePrepared id).2.allocations.lookup id = some a := ha
  rw [AllocationController.startFinalization,ha']
  exact h.settle rfl rfl rfl (fun x hx => mem_erase_preparedData hx)
    (subset_append_left _ _) rfl htask hcount

lemma SoundBut.enqueue (h : SoundBut [id] s) (ha : s.allocations.lookup id = some a)
    (hrun : a.state.isRunning=false) (hst : st.isWaiting=true) (halive : s.isAlive a.feId = true)
    (ctx : FinalizationContext) : SoundBut [] (s.enqueue id a st ctx) := by
  have hwaits : ∀ {feId x}, (s.enqueue id a st ctx).Waits feId x ↔
      (x=id ∧ a.feId=feId) ∨ (x≠id ∧ s.Waits feId x) := by
    intro feId x
    rw [waits_of_insert (s := s) rfl]
    simp [hst]
  have hqueue : ∀ feId, (s.enqueue id a st ctx).queueOf feId =
      if feId=a.feId then s.queueOf a.feId++[id] else s.queueOf feId := by
    intro feId
    unfold queueOf AllocationController.enqueue put
    rw [lookup_insert_if]
    split_ifs <;> rfl
  have hid : ∀ feId, id ∉ s.queueOf feId := by
    intro feId hm
    exact (h.queued.mp hm).1 (mem_singleton_self id)
  have hold : ∀ {feId x}, x ∈ s.queueOf feId ↔ x≠id ∧ s.Waits feId x :=
    h.queued.trans (and_congr_left' (not_congr mem_singleton))
  refine ⟨?_,?_,?_,?_,?_,h.started,?_⟩
  · intro feId x
    rw [hqueue,hwaits]
    split_ifs with hfe
    · subst hfe
      rw [mem_append,hold]
      simp [or_comm]
    · rw [hold]
      simp [Ne.symm hfe]
  · intro feId
    rw [hqueue]
    split_ifs
    · refine nodup_append.mpr ⟨h.nodup _,nodup_singleton id,fun x hx y hy hxy => ?_⟩
      rw [hxy,mem_singleton.mp hy] at hx
      exact hid _ hx
    · exact h.nodup feId
  · intro feId x _ hx
    rcases hwaits.mp hx with ⟨-,rfl⟩ | ⟨hne,hx⟩
    · exact halive
    · exact h.hosted (by simpa using hne) hx
  · intro x b _ hx
    rcases lookup_insert_cases hx with ⟨-,rfl⟩ | ⟨hxid,hx⟩
    · exact .inl hst
    · exact h.tasked (by simpa using hxid) hx
  · intro feId x hx
    refine (AList.mem_insert _).mpr ?_
    rcases hwaits.mp hx with ⟨rfl,-⟩ | ⟨-,hx⟩
    · exact .inl rfl
    · exact .inr (h.data hx)
  · exact counted_put (by simp [ha,hrun]) h.counted

lemma SoundBut.unqueue (h : SoundBut [] s) (hw : s.Waits feId id) :
    SoundBut [id] (s.unqueue id feId) := by
  refine {h with
    queued := ?_, nodup := ?_
    hosted := fun _ hx => h.hosted not_mem_nil hx
    tasked := fun _ ha => h.tasked not_mem_nil ha}
  · intro feId' x
    rw [AllocationController.unqueue,queueOf_modify _ _ _ _ filter_nil,mem_singleton]
    split_ifs with hfe
    · rw [mem_filter,h.mem_queueOf,and_comm]
      exact and_congr decide_eq_true_iff Iff.rfl
    refine h.mem_queueOf.trans (iff_and_self.mpr fun hx hxid => hfe ?_)
    subst hxid
    exact hx.unique hw
  · intro feId'
    rw [AllocationController.unqueue,queueOf_modify _ _ _ _ filter_nil]
    split_ifs
    · exact (h.nodup feId').filter _
    · exact h.nodup feId'

/-! ### The handlers of allocations -/

lemma soundBut_addAllocation (h : SoundBut [] s) (p : String × ServerAllocation) :
    SoundBut [] (s.addAllocation p) := by
  unfold addAllocation
  dsimp only
  split_ifs with hmem halive
  · exact h
  all_goals
    have hnone := AList.lookup_eq_none.mpr hmem
    have hcount : ∀ a feId, s.countOf feId ≤ (s.put p.2.id a).runningOn feId := fun a =>
      counted_put (by simp [hnone]) h.counted
    have hexempt := h.exempt (not_waits_of_lookup_none hnone)
  · exact hexempt.settle rfl rfl rfl (fun _ _ => Iff.rfl) (subset_append_left _ _) rfl
      (hasTask_spawn rfl) (hcount _)
  · exact hexempt.settle rfl rfl rfl (fun _ _ => Iff.rfl) (Subset.refl _) rfl
      (.inr (.inl rfl)) (hcount _)

lemma soundBut_cancelAllocation (h : SoundBut [] s) (id : String) :
    SoundBut [] (s.cancelAllocation id) := by
  unfold cancelAllocation
  cases ha : s.allocations.lookup id with
  | none => exact h
  | some a =>
    dsimp only
    split_ifs with hready hwait
    · exact (h.unqueue ⟨a,ha,rfl,hwait⟩).startFinalization ha
        (isRunning_of_isWaiting hwait) (.inr rfl)
    · have hrun : a.state.isRunning=false := by
        cases hst : a.state <;> rw [hst] at hready <;> first | rfl | cases hready
      have hexempt := h.exempt (not_waits_of_lookup ha (by simpa using hwait))
      exact hexempt.startFinalization ha hrun (.inr rfl)
    · exact h

structure SameSlots (s s' : AllocationController) : Prop where
  containers : s'.containers=s.containers
  waitingQueue : s'.waitingQueue=s.waitingQueue
  runningCount : s'.runningCount=s.runningCount

lemma SameSlots.refl (s : AllocationController) : s.SameSlots s := ⟨rfl,rfl,rfl⟩

lemma SameSlots.trans (h : s.SameSlots s') (h' : s'.SameSlots s'') : s.SameSlots s'' :=
  ⟨h'.containers.trans h.containers,h'.waitingQueue.trans h.waitingQueue,
    h'.runningCount.trans h.runningCount⟩

lemma SameSlots.fullAt (h : s.SameSlots s') (hf : s.FullAt feId) : s'.FullAt feId := by
  unfold FullAt queueOf countOf
  rw [h.containers,h.waitingQueue,h.runningCount]
  exact hf

lemma sameSlots_startFinalization (s : AllocationController) (id : String)
    (result : AllocationResult) (ctx : FinalizationContext) (t : Option String) :
    s.SameSlots (s.startFinalization id result ctx t) := by
  unfold startFinalization
  split <;> exact ⟨rfl,rfl,rfl⟩

/-- Every part of the controller is in order and no slot is left unused. -/
structure Sound (s : AllocationController) : Prop where
  sound : SoundBut [] s
  full : ∀ feId, s.FullAt feId

lemma SoundBut.trySchedule (h : SoundBut [] s) : s.trySchedule.Sound :=
  ⟨(trySchedule_spec h).1,(trySchedule_spec h).2⟩

lemma Sound.cancelAllocation (h : s.Sound) (id : String) : (s.cancelAllocation id).Sound where
  sound := soundBut_cancelAllocation h.sound id
  full := by
    intro feId
    unfold AllocationController.cancelAllocation
    split
    · exact h.full feId
    next a ha =>
      split_ifs
      · refine (sameSlots_startFinalization _ _ _ _ _).fullAt ?_
        intro m hm
        refine (h.full feId m hm).imp_left fun hq => ?_
        change (s.unqueue id a.feId).queueOf feId = []
        rw [AllocationController.unqueue,queueOf_modify _ _ _ _ filter_nil,hq]
        simp
      · exact (sameSlots_startFinalization _ _ _ _ _).fullAt (h.full feId)
      · exact h.full feId

def About (task : Pending) (id : String) : Prop :=
  (∀ feId, task ≠ .startup feId) ∧ ∀ x st, task.Serves x st → x=id

lemma Sound.complete (h : s.Sound) {handler : AllocationController → AllocationController}
    (habout : About task id)
    (hserve : ∀ s a, s.allocations.lookup id = some a → task.Serves id a.state → SoundBut [id] s →
      (∀ feId, s.FullAt feId) → (handler s).Sound)
    (hlate : ∀ s, (∀ a, s.allocations.lookup id = some a → ¬task.Serves id a.state) →
      handler s = s) : (s.complete task handler).Sound := by
  unfold AllocationController.complete
  split_ifs
  · by_cases hs : ∃ a, s.allocations.lookup id = some a ∧ task.Serves id a.state
    · obtain ⟨a,ha,hs⟩ := hs
      have hexempt := h.sound.exempt (not_waits_of_lookup ha hs.ne_waiting)
      refine hserve _ a ha hs (hexempt.erase (fun hx _ hs' => hx ?_) habout.1) h.full
      exact mem_singleton.mpr (habout.2 _ _ hs')
    have hnone : ∀ a, s.allocations.lookup id = some a → ¬task.Serves id a.state :=
      fun a ha ht => hs ⟨a,ha,ht⟩
    rw [hlate {s with pending := s.pending.erase task} hnone]
    refine ⟨h.sound.erase (fun {x a} _ ha hs' => ?_) habout.1,h.full⟩
    obtain rfl := habout.2 _ _ hs'
    exact hnone a ha hs'
  · exact h

lemma serves_prepare : Pending.Serves (.prepare id) x st ↔ id=x ∧ st=.preparing := by
  cases st <;> simp [Pending.Serves]

lemma serves_execute : Pending.Serves (.execute id) x st ↔ id=x ∧ st.isRunning=true := by
  cases st <;> simp [Pending.Serves,isRunning]

lemma serves_finalize :
    Pending.Serves (.finalize id ctx) x st ↔ id=x ∧ ∃ result t, st = .finalizing result t := by
  cases st <;> simp [Pending.Serves]

lemma fullAt_enqueue (hfe : s.containers.lookup a.feId = some ⟨.starting,m⟩)
    (h : s.FullAt feId) : (s.enqueue id a st ctx).FullAt feId := by
  intro m' hm'
  have hne : feId≠a.feId := by
    rintro rfl
    cases hfe.symm.trans hm'
  have hq : (s.enqueue id a st ctx).queueOf feId = s.queueOf feId := by
    unfold queueOf enqueue put
    rw [lookup_insert_if,if_neg hne]
  rw [hq]
  exact h m' hm'

lemma sound_handleAllocationPrepared (result : Option (Option MultipartUploadHandle))
    (ha : s.allocations.lookup id = some a) (hst : a.state=.preparing) (h : SoundBut [id] s)
    (hfull : ∀ feId, s.FullAt feId) : (s.handleAllocationPrepared id result).Sound := by
  have hrun : a.state.isRunning=false := by
    rw [hst]
    rfl
  have hfin : ∀ result ctx t, (s.startFinalization id result ctx t).Sound := fun result ctx t =>
    ⟨h.startFinalization ha hrun (.inl rfl),
      fun feId => (sameSlots_startFinalization _ _ _ _ _).fullAt (hfull feId)⟩
  unfold handleAllocationPrepared
  rw [ha]
  dsimp only
  rw [if_pos hst]
  cases result with
  | none => exact hfin _ _ _
  | some handle =>
    dsimp only
    split
    next m hfe => exact (h.enqueue ha hrun rfl (by simp [isAlive,hfe]) _).trySchedule
    next m hfe =>
      exact ⟨h.enqueue ha hrun rfl (by simp [isAlive,hfe]) _,fun feId =>
        fullAt_enqueue hfe (hfull feId)⟩
    · exact hfin _ _ _
    · exact hfin _ _ _

lemma Sound.prepared (h : s.Sound) (id : String) (result : Option (Option MultipartUploadHandle)) :
    (s.complete (.prepare id) fun s => s.handleAllocationPrepared id result).Sound := by
  refine h.complete ⟨by simp,fun x st hs => (serves_prepare.mp hs).1.symm⟩ ?_ ?_
  · intro s a ha hs
    exact sound_handleAllocationPrepared result ha (serves_prepare.mp hs).2
  intro s hlate
  unfold handleAllocationPrepared
  split
  · rfl
  next a ha => exact if_neg fun hst => hlate a ha (serves_prepare.mpr ⟨rfl,hst⟩)

lemma Sound.finalizationFinished (h : s.Sound) (id : String) (ctx : FinalizationContext)
    (isSuccess : Bool) : (s.complete (.finalize id ctx) fun s =>
      s.handleAllocationFinalizationFinished id isSuccess).Sound := by
  refine h.complete ⟨by simp,fun x st hs => (serves_finalize.mp hs).1.symm⟩ ?_ ?_
  · intro s a ha hs hbut hfull
    obtain ⟨-,result,t,hst⟩ := serves_finalize.mp hs
    unfold handleAllocationFinalizationFinished
    rw [ha]
    dsimp only
    rw [hst]
    exact ⟨hbut.settle rfl rfl rfl (fun _ _ => Iff.rfl) (Subset.refl _) rfl
      (.inr (.inl rfl)) (counted_put (by simp [ha,hst,isRunning]) hbut.counted),
      hfull⟩
  · intro s hlate
    unfold handleAllocationFinalizationFinished
    split
    · rfl
    next a ha =>
      split
      next result t hst => exact absurd (serves_finalize.mpr ⟨rfl,result,t,hst⟩) (hlate a ha)
      next => rfl

lemma countOf_releaseSlot (s : AllocationController) (feId feId' : String) :
    (s.releaseSlot feId).countOf feId' = if feId'=feId then s.countOf feId' - 1 else s.countOf feId' := by
  unfold countOf releaseSlot
  rw [lookup_modify]
  split_ifs with hfe
  · subst hfe
    cases s.runningCount.lookup feId' <;> rfl
  · rfl

lemma SoundBut.release {result : AllocationResult} {t : Option String} (h : SoundBut (id::X) s)
    (ha : s.allocations.lookup id = some a) (hrun : a.state.isRunning=true) :
    SoundBut X ((s.releaseSlot a.feId).startFinalization id result ctx t) := by
  have ha' : (s.releaseSlot a.feId).allocations.lookup id = some a := ha
  rw [AllocationController.startFinalization,ha']
  refine h.settle rfl rfl rfl (fun _ _ => Iff.rfl) (subset_append_left _ _) rfl ?_ ?_
  · exact hasTask_spawn rfl
  intro feId
  have hcount := h.counted feId
  have hput := runningOn_put s id {a with state := .finalizing result t} feId
  rw [ha,Option.any_some,hrun,Bool.and_true] at hput
  refine (countOf_releaseSlot s a.feId feId).le.trans ?_
  change _ ≤ (s.put id {a with state := .finalizing result t}).runningOn feId
  simp only [decide_eq_true_eq] at hput
  split_ifs with hfe
  · rw [if_pos hfe.symm] at hput
    omega
  · rw [if_neg (Ne.symm hfe)] at hput
    omega

lemma SoundBut.announce (h : SoundBut X s) (notices : List Pending) : SoundBut X (s.announce notices) :=
  {h with
    tasked := fun hx ha => (h.tasked hx ha).mono (subset_append_left _ _)
    started := fun hfe => subset_append_left _ _ (h.started hfe)}

lemma Sound.executionFinished (h : s.Sound) (id : String) (outcome : ExecutionOutcome) :
    (s.complete (.execute id) fun s => s.handleAllocationExecutionFinished id outcome).Sound := by
  refine h.complete ⟨by simp,fun x st hs => (serves_execute.mp hs).1.symm⟩ ?_ ?_
  · intro s a ha hs hbut _
    obtain ⟨-,hrun⟩ := serves_execute.mp hs
    unfold handleAllocationExecutionFinished
    rw [ha]
    dsimp only
    split
    · exact ((hbut.release ha hrun).announce _).trySchedule
    next hst =>
      cases hcase : a.state with
      | running ctx => exact absurd hcase (hst ctx)
      | _ => simp [isRunning] at hrun
  intro s hlate
  unfold handleAllocationExecutionFinished
  split
  · rfl
  next a ha =>
    split
    next ctx hst =>
      refine absurd (serves_execute.mpr ⟨rfl,?_⟩) (hlate a ha)
      rw [hst]
      rfl
    next => rfl

/-! ### The handlers of containers -/

lemma mem_allocationsOf : id ∈ s.allocationsOf feId ↔
    ∃ a, s.allocations.lookup id = some a ∧ a.feId=feId ∧
      (a.state.isReady || a.state.isRunning) = true := by
  unfold allocationsOf
  simp only [mem_map,mem_filter,Bool.and_eq_true,decide_eq_true_eq]
  constructor
  · rintro ⟨⟨x,a⟩,⟨hm,hfe,hst⟩,rfl⟩
    exact ⟨a,(mem_entries_iff _ _ _).mp hm,hfe,hst⟩
  · rintro ⟨a,ha,hfe,hst⟩
    exact ⟨⟨id,a⟩,⟨(mem_entries_iff _ _ _).mpr ha,hfe,hst⟩,rfl⟩

lemma isWaiting_of_not_isReady (h : ¬st.isReady=true) : st.isWaiting=false := by
  cases st <;> first | rfl | exact absurd rfl h

lemma isRunning_of_isReady (h : st.isReady=true) : st.isRunning=false := by
  cases st <;> first | rfl | cases h

section
variable (feId : String) (reason : Proto.AllocationFailureReason)

lemma soundBut_failAllocation
    (h : SoundBut (id::X) s)
    (htask : ∀ a, s.allocations.lookup id = some a → HasTask s.pending id a.state) :
    SoundBut X (failAllocation feId reason s id) := by
  unfold failAllocation
  cases ha : s.allocations.lookup id with
  | none => exact h.enter (not_waits_of_lookup_none ha) htask
  | some a =>
    dsimp only
    split_ifs with hready hempty
    · exact h.settle rfl rfl rfl (fun x hx => mem_erase_preparedData hx) (Subset.refl _) rfl
        (.inr (.inl rfl)) (counted_put (by simp [ha,isRunning_of_isReady hready]) h.counted)
    · exact h.startFinalization ha (isRunning_of_isReady hready) (.inr rfl)
    · exact h.enter (not_waits_of_lookup ha (isWaiting_of_not_isReady hready)) htask

lemma failAllocation_frame
    (s : AllocationController) (id : String) :
    s.SameSlots (failAllocation feId reason s id) ∧
      s.pending ⊆ (failAllocation feId reason s id).pending ∧
      ∀ x, x≠id → (failAllocation feId reason s id).allocations.lookup x = s.allocations.lookup x := by
  unfold failAllocation
  cases ha : s.allocations.lookup id with
  | none => exact ⟨.refl s,Subset.refl _,fun _ _ => rfl⟩
  | some a =>
    dsimp only
    split_ifs
    · refine ⟨⟨rfl,rfl,rfl⟩,Subset.refl _,fun x hx => ?_⟩
      exact AList.lookup_insert_ne hx
    · have ha' : (s.takePrepared id).2.allocations.lookup id = some a := ha
      rw [startFinalization,ha']
      refine ⟨⟨rfl,rfl,rfl⟩,subset_append_left _ _,fun x hx => ?_⟩
      exact AList.lookup_insert_ne hx
    · exact ⟨.refl s,Subset.refl _,fun _ _ => rfl⟩

lemma failAllocations_spec
    {ids : List String} (hids : ids.Nodup) (h : SoundBut ids s)
    (htask : ∀ id∈ids, ∀ a, s.allocations.lookup id = some a → HasTask s.pending id a.state) :
    SoundBut [] (ids.foldl (failAllocation feId reason) s) ∧
      s.SameSlots (ids.foldl (failAllocation feId reason) s) := by
  induction ids generalizing s with
  | nil => exact ⟨h,.refl s⟩
  | cons id ids ih =>
    obtain ⟨hid,hids⟩ := nodup_cons.mp hids
    obtain ⟨hslots,hpending,hsame⟩ := failAllocation_frame feId reason s id
    have hsound := soundBut_failAllocation feId reason h (htask id mem_cons_self)
    obtain ⟨hsound',hslots'⟩ := ih hids hsound fun x hx a ha => by
      have hne : x≠id := ne_of_mem_of_not_mem hx hid
      rw [hsame x hne] at ha
      exact (htask x (mem_cons_of_mem _ hx) a ha).mono hpending
    exact ⟨hsound',hslots.trans hslots'⟩

end

variable (s)

lemma nodup_allocationsOf (feId : String) : (s.allocationsOf feId).Nodup :=
  List.Nodup.sublist (filter_sublist.map Sigma.fst) s.allocations.nodupKeys

lemma queueOf_erase (feId feId' : String) :
    ({s with waitingQueue := s.waitingQueue.erase feId} : AllocationController).queueOf feId' =
      if feId'=feId then [] else s.queueOf feId' := by
  unfold queueOf
  rw [lookup_erase_if]
  split_ifs <;> rfl

/-- The state from which the allocations of a terminated container are failed, one task of the
container's own possibly gone. -/
def terminatedState (s : AllocationController) (feId : String) (fe : ManagedFE)
    (reason : ContainerTerminationReason) (pending : List Pending) : AllocationController :=
  {s.terminate feId fe reason with
    waitingQueue := s.waitingQueue.erase feId
    pending := pending}

lemma lookup_containers_terminatedState (feId feId' : String)
    (fe : ManagedFE) (reason : ContainerTerminationReason) (pending : List Pending) :
    (s.terminatedState feId fe reason pending).containers.lookup feId' =
      if feId'=feId then some {fe with state := .terminated reason}
      else s.containers.lookup feId' := lookup_insert_if _ _ _ _

variable {s}

lemma lookup_containers_of_terminatedState {fe : ManagedFE}
    {reason : ContainerTerminationReason} {pending : List Pending} {st : FEState}
    (h : (s.terminatedState feId fe reason pending).containers.lookup feId' = some ⟨st,m⟩)
    (hst : ∀ reason, st ≠ .terminated reason) :
    feId' ≠ feId ∧ s.containers.lookup feId' = some ⟨st,m⟩ := by
  rw [lookup_containers_terminatedState] at h
  split_ifs at h with hfe
  · cases h
    exact absurd rfl (hst reason)
  · exact ⟨hfe,h⟩

lemma HasTask.of_startup_gone {p' : List Pending} (h : HasTask p id st)
    (hp : ∀ task∈p, task ≠ .startup feId → task∈p') : HasTask p' id st := by
  refine h.imp fun task hm hs => hp task hm ?_
  rintro rfl
  cases st <;> exact hs

variable (h : SoundBut [] s)
include h

lemma SoundBut.forget (hdead : s.isAlive feId = false) :
    SoundBut [] {s with
      containers := s.containers.erase feId
      waitingQueue := s.waitingQueue.erase feId
      runningCount := s.runningCount.erase feId} := by
  have hne : ∀ {feId' id}, s.Waits feId' id → feId'≠feId := by
    rintro feId' id hw rfl
    rw [h.hosted not_mem_nil hw] at hdead
    cases hdead
  refine ⟨?_,?_,?_,h.tasked,h.data,?_,?_⟩
  · intro feId' id
    refine (queueOf_erase s feId feId').symm ▸ ?_
    split_ifs with hfe
    · have hno : ¬s.Waits feId' id := fun hw => hne hw hfe
      exact iff_of_false not_mem_nil fun hc => hno hc.2
    · exact h.queued
  · intro feId'
    refine (queueOf_erase s feId feId').symm ▸ ?_
    split_ifs
    · exact nodup_nil
    · exact h.nodup feId'
  · intro feId' id _ hw
    have hold : s.isAlive feId' = true := h.hosted not_mem_nil hw
    unfold isAlive at hold ⊢
    rw [lookup_erase_if,if_neg (hne hw)]
    exact hold
  · intro feId' m hfe
    exact h.started (lookup_of_erase hfe).2
  · intro feId'
    have hcount := h.counted feId'
    unfold countOf at hcount ⊢
    rw [lookup_erase_if]
    split_ifs
    · exact Nat.zero_le _
    · exact hcount

section
variable (hp : ∀ task∈s.pending, task ≠ .startup feId → task∈p)
include hp

lemma SoundBut.terminated (fe : ManagedFE) (reason : ContainerTerminationReason) :
    SoundBut (s.allocationsOf feId) (s.terminatedState feId fe reason p) := by
  have hmem : ∀ {feId' id}, s.Waits feId' id → (id ∈ s.allocationsOf feId ↔ feId'=feId) := by
    rintro feId' id ⟨a,ha,rfl,hw⟩
    rw [mem_allocationsOf]
    constructor
    · rintro ⟨b,hb,hfe,-⟩
      cases ha.symm.trans hb
      exact hfe
    · intro hfe
      exact ⟨a,ha,hfe,by simp [isReady_of_isWaiting hw]⟩
  refine ⟨?_,?_,?_,?_,h.data,?_,h.counted⟩
  · intro feId' id
    have hqueue : (s.terminatedState feId fe reason p).queueOf feId' =
        if feId'=feId then [] else s.queueOf feId' := queueOf_erase s feId feId'
    have hwaits : (s.terminatedState feId fe reason p).Waits feId' id ↔ s.Waits feId' id := Iff.rfl
    rw [hqueue,hwaits]
    split_ifs with hfe
    · have hno : ¬(id ∉ s.allocationsOf feId ∧ s.Waits feId' id) :=
        fun hc => hc.1 ((hmem hc.2).mpr hfe)
      simpa using hno
    · exact h.mem_queueOf.trans (iff_and_self.mpr fun hw hm => hfe ((hmem hw).mp hm))
  · intro feId'
    refine (queueOf_erase s feId feId').symm ▸ ?_
    split_ifs
    · exact nodup_nil
    · exact h.nodup feId'
  · intro feId' id hid hw
    have hne : feId'≠feId := fun hfe => hid ((hmem hw).mpr hfe)
    rw [isAlive,lookup_containers_terminatedState,if_neg hne]
    exact h.hosted not_mem_nil hw
  · intro id a _ ha
    exact (h.tasked not_mem_nil ha).of_startup_gone hp
  · intro feId' m hfe
    obtain ⟨hne,hold⟩ := lookup_containers_of_terminatedState hfe (by simp)
    exact hp _ (h.started hold) (by simpa using hne)

lemma Sound.fail (fe : ManagedFE) (reason : ContainerTerminationReason)
    (failure : Proto.AllocationFailureReason) :
    SoundBut [] ((terminate {s with pending := p} feId fe reason).failAllocationsForFe feId failure) ∧
      ∀ feId', s.FullAt feId' → FullAt
        ((terminate {s with pending := p} feId fe reason).failAllocationsForFe feId failure)
        feId' := by
  have hbut := h.terminated hp fe reason
  have htask : ∀ id ∈ s.allocationsOf feId, ∀ a,
      (s.terminatedState feId fe reason p).allocations.lookup id = some a → HasTask p id a.state :=
    fun id _ a ha => (h.tasked not_mem_nil ha).of_startup_gone hp
  obtain ⟨hsound,hslots⟩ := failAllocations_spec feId
    (if isStartupFailure failure then failure else .containerTerminated)
    (nodup_allocationsOf s feId) hbut htask
  refine ⟨hsound,fun feId' hfull => hslots.fullAt ?_⟩
  intro m hm
  obtain ⟨hne,hold⟩ := lookup_containers_of_terminatedState hm (by simp)
  refine (hfull m hold).imp_left fun hq => ?_
  exact (queueOf_erase s feId feId').trans ((if_neg hne).trans hq)

lemma SoundBut.setContainer {fe : ManagedFE} (hst : ∀ reason, fe.state ≠ .terminated reason)
    (hstart : fe.state=.starting → .startup feId ∈ p) :
    SoundBut [] {s with containers := s.containers.insert feId fe, pending := p} := by
  refine {h with
    hosted := ?_
    tasked := fun hx ha => (h.tasked hx ha).of_startup_gone hp
    started := ?_}
  · intro feId' id _ hw
    have hold : s.isAlive feId' = true := h.hosted not_mem_nil hw
    unfold isAlive at hold ⊢
    rw [lookup_insert_if]
    split_ifs
    · obtain ⟨st,m⟩ := fe
      cases st with
      | terminated reason => exact absurd rfl (hst reason)
      | _ => rfl
    · exact hold
  · intro feId' m hfe
    have hfe' := (lookup_insert_if _ _ _ _).symm.trans hfe
    split_ifs at hfe' with hne
    · cases hfe'
      exact hne ▸ hstart rfl
    · exact hp _ (h.started hfe') (by simpa using hne)

end

lemma soundBut_removeContainer (feId : String) : SoundBut [] (s.removeContainer feId) := by
  unfold removeContainer
  split
  · exact h
  next fe hfe =>
    split
    next reason hst =>
      refine h.forget ?_
      obtain ⟨st,m⟩ := fe
      obtain rfl : st = .terminated reason := hst
      simp [isAlive,hfe]
    next => exact (Sound.fail h (fun _ hm _ => hm) ..).1

omit h

lemma soundBut_createContainer (gpuFails : List String) (h : SoundBut [] s)
    (description : ContainerDescription) : SoundBut [] (s.createContainer gpuFails description) := by
  unfold createContainer
  split
  · exact h
  split_ifs
  · exact h
  · exact (Sound.fail h (fun _ hm _ => hm) ..).1
  · refine h.setContainer (fun _ hm _ => mem_append_left _ hm) (by simp) fun _ => ?_
    exact mem_append_right _ (mem_singleton_self _)

lemma Sound.startupComplete (h : s.Sound) (feId : String) (result : Except StartupError Unit) :
    (s.complete (.startup feId) fun s => s.handleContainerStartupComplete feId result).Sound := by
  have hp : ∀ task∈s.pending, task ≠ .startup feId → task ∈ s.pending.erase (.startup feId) :=
    fun task hm hne => (mem_erase_of_ne hne).mpr hm
  unfold AllocationController.complete
  split_ifs
  · unfold handleContainerStartupComplete
    dsimp only
    split
    next m hfe =>
      cases result with
      | ok => exact (h.sound.setContainer hp (by simp) (by simp)).trySchedule
      | error e =>
        obtain ⟨hsound,hfull⟩ := Sound.fail h.sound hp ⟨.starting,m⟩ e.reason
          (terminationToFailureReason e.reason)
        exact ⟨hsound,fun feId' => hfull feId' (h.full feId')⟩
    next hfe =>
      refine ⟨{h.sound with
        tasked := fun hx ha => (h.sound.tasked hx ha).of_startup_gone hp, started := ?_},h.full⟩
      intro feId' m hm
      refine hp _ (h.sound.started hm) ?_
      rintro ⟨⟩
      exact hfe m hm
  · exact h

lemma Sound.containerTerminated (h : s.Sound) (feId : String) (reason : ContainerTerminationReason) :
    (s.handle (.containerTerminated feId reason)).Sound := by
  have herase : SoundBut [] {s with pending := s.pending.erase (.terminated feId reason)} := by
    refine h.sound.erase (fun {id a} _ _ hs => ?_) (by simp)
    cases hst : a.state <;> rw [hst] at hs <;> exact hs
  unfold handle handleContainerTerminated
  dsimp only
  split
  · exact ⟨herase,h.full⟩
  next fe hfe =>
    split
    · exact ⟨herase,h.full⟩
    obtain ⟨hsound,hfull⟩ := Sound.fail herase (fun _ hm _ => hm) fe reason
      (terminationToFailureReason reason)
    exact ⟨hsound,fun feId' => hfull feId' (h.full feId')⟩

/-! ### Runs -/

lemma soundBut_cleanup (h : SoundBut [] s) (ids : List String) :
    SoundBut [] (s.cleanupDoneAllocations ids) := by
  have hwaits : ∀ {feId id}, (s.cleanupDoneAllocations ids).Waits feId id ↔ s.Waits feId id := by
    refine exists_congr fun a => ?_
    rw [lookup_cleanup,and_assoc]
    refine and_congr_right fun _ => and_iff_right_of_imp ?_
    rintro ⟨-,hw⟩ hd
    rw [hd] at hw
    cases hw
  refine ⟨?_,h.nodup,?_,?_,?_,h.started,?_⟩
  · intro feId id
    rw [hwaits]
    exact h.queued
  · exact fun hx hw => h.hosted hx (hwaits.mp hw)
  · exact fun hx ha => h.tasked hx (lookup_cleanup.mp ha).1
  · exact fun hw => h.data (hwaits.mp hw)
  · intro feId
    refine (h.counted feId).trans_eq (countP_retain (fun id a hr => ?_) _).symm
    split_ifs with hd
    · simp [hd,isRunning] at hr
    · rfl

lemma Sound.reconcile (h : s.Sound) (added : List ContainerDescription) (removed gpuFails : List String)
    (new : List (String × ServerAllocation)) : (s.reconcile added removed gpuFails new).Sound := by
  refine SoundBut.trySchedule ?_
  refine @Trace.invariant _ _ _ (SoundBut []) (fun p h => soundBut_addAllocation h p) _ ?_ new
  refine @Trace.invariant _ _ _ (SoundBut [])
    (fun d h => soundBut_createContainer gpuFails h d) _ ?_ added
  refine @Trace.invariant _ _ _ (SoundBut []) (fun feId h => soundBut_removeContainer h feId) _ ?_
    removed
  split_ifs
  · exact h.sound
  · exact soundBut_cleanup h.sound _

lemma sound_new {recovered : Dict String ManagedFE}
    (h : ∀ feId fe, recovered.lookup feId = some fe → fe.state=.running) : (new recovered).Sound where
  sound := by
    have hnone : ∀ {feId id}, ¬(new recovered).Waits feId id := by
      rintro feId id ⟨a,ha,-⟩
      cases ha
    refine ⟨?_,fun _ => nodup_nil,fun _ hw => absurd hw hnone,?_,fun hw => absurd hw hnone,?_,
      fun _ => Nat.zero_le _⟩
    · intro feId id
      exact iff_of_false not_mem_nil fun hc => hnone hc.2
    · intro id a _ ha
      cases ha
    · intro feId m hfe
      exact absurd (h feId _ hfe) (by simp)
  full _ _ _ := .inl rfl

/-- The controller is in order until it stops, and then it has no allocations. -/
def Orderly (s : AllocationController) : Prop :=
  (s.stopped=true ∧ ∀ id, s.allocations.lookup id = none) ∨ (s.stopped=false ∧ s.Sound)

lemma stopped_handle (s : AllocationController) (e : ControllerEvent) :
    (∃ finished, e = .shutdown finished) ∨ (s.handle e).stopped = s.stopped := by
  refine (moves_handle s e).imp_right fun hm => hm.stopped.trans ?_
  unfold beforeMoves
  split
  · split_ifs <;> rfl
  · rfl

lemma Sound.handle (h : s.Sound) (e : ControllerEvent) :
    (∃ finished, e = .shutdown finished) ∨ (s.handle e).Sound := by
  cases e with
  | reconcile added removed gpuFails new => exact .inr (h.reconcile added removed gpuFails new)
  | killAllocation id => exact .inr (h.cancelAllocation id)
  | startupComplete feId result => exact .inr (h.startupComplete feId result)
  | containerTerminated feId reason => exact .inr (h.containerTerminated feId reason)
  | prepared id result => exact .inr (h.prepared id result)
  | executionFinished id outcome => exact .inr (h.executionFinished id outcome)
  | finalizationFinished id ctx isSuccess => exact .inr (h.finalizationFinished id ctx isSuccess)
  | shutdown finished => exact .inl ⟨finished,rfl⟩

lemma Orderly.step (h : s.Orderly) (e : ControllerEvent) : (s.step e).Orderly := by
  unfold AllocationController.step
  rcases h with ⟨hst,hnone⟩ | ⟨hst,hs⟩
  · rw [if_pos hst]
    exact .inl ⟨hst,hnone⟩
  rw [if_neg (by simp [hst])]
  rcases hs.handle e with ⟨finished,rfl⟩ | hsound
  · exact .inl ⟨rfl,fun _ => rfl⟩
  rcases stopped_handle s e with ⟨finished,rfl⟩ | hsame
  · exact .inl ⟨rfl,fun _ => rfl⟩
  · exact .inr ⟨hsame.trans hst,hsound⟩

lemma Sound.idle (h : s.Sound) (hidle : s.pending = []) (ha : s.allocations.lookup id = some a) :
    a.state = .done ∨ a.state.isWaiting = true ∧ s.containers.lookup a.feId = some ⟨.running,0⟩ := by
  have hnorun : s.runningOn a.feId = 0 := by
    refine countP_eq_zero.mpr fun b hb => ?_
    obtain ⟨x,hx⟩ := (mem_values_iff _ _).mp hb
    rcases h.sound.tasked not_mem_nil hx with hw | hd | ⟨task,hm,-⟩
    · simp [isRunning_of_isWaiting hw]
    · simp [hd,isRunning]
    · rw [hidle] at hm
      exact absurd hm not_mem_nil
  rcases h.sound.tasked not_mem_nil ha with hw | hd | ⟨task,hm,-⟩
  · refine .inr ⟨hw,?_⟩
    have hwaits : s.Waits a.feId id := ⟨a,ha,rfl,hw⟩
    have halive := h.sound.hosted not_mem_nil hwaits
    have hqueue : s.queueOf a.feId ≠ [] :=
      ne_nil_of_mem (h.sound.queued.mpr ⟨not_mem_nil,hwaits⟩)
    unfold isAlive at halive
    cases hfe : s.containers.lookup a.feId with
    | none => simp [hfe] at halive
    | some fe =>
      obtain ⟨st,m⟩ := fe
      cases st with
      | starting =>
        have hstart := h.sound.started hfe
        rw [hidle] at hstart
        exact absurd hstart not_mem_nil
      | running =>
        have hm := (h.full a.feId m hfe).resolve_left hqueue
        have hcount := h.sound.counted a.feId
        obtain rfl : m=0 := by omega
        rfl
      | terminated reason => simp [hfe] at halive
  · exact .inl hd
  · rw [hidle] at hm
    exact absurd hm not_mem_nil

end AllocationController
end Indexify.Dataplane
