import Indexify.Dataplane.AllocationProgress

/-! The phase of an allocation: where the controller keeps its finalization context, with exactly
the task that its state calls for. Every handler that completes no task of an allocation moves its
phase along a small machine, as long as nothing overtakes a preparation. -/
namespace Indexify.Dataplane
open List

def Pending.allocationId : Pending → Option String
  | .prepare id | .execute id | .finalize id _ => some id
  | .startup _ | .terminated _ _ => none

inductive Phase
  | absent
  | preparing (feId : String)
  | waiting (ctx : FinalizationContext)
  | running (ctx : FinalizationContext)
  | finalizing (ctx : FinalizationContext)
  | done
  deriving DecidableEq

/-- The phase, if the tasks that are out are those of the state. -/
def phase (a : Option ManagedAllocation) (prepared : Option FinalizationContext)
    (tasks : List Pending) : Option Phase :=
  match a with
  | none => if tasks = [] then some .absent else none
  | some a =>
    match a.state,tasks with
    | .preparing,[.prepare _] => some (.preparing a.feId)
    | .waitingForContainer,[] | .waitingForSlot,[] => prepared.map .waiting
    | .running ctx,[.execute _] => some (.running ctx)
    | .finalizing _ _,[.finalize _ ctx] => some (.finalizing ctx)
    | .done,[] => some .done
    | _,_ => none

inductive Quiet : Phase → Phase → Prop
  | start (ctx : FinalizationContext) : Quiet (.waiting ctx) (.running ctx)
  | close (ctx : FinalizationContext) : Quiet (.waiting ctx) (.finalizing ctx)
  | drop (ctx : FinalizationContext) (h : ctx.isEmpty=true) : Quiet (.waiting ctx) .done

inductive Silent : Phase → Phase → Prop
  | quiet {p p' : Phase} (h : Quiet p p') : Silent p p'
  | accept (feId : String) : Silent .absent (.preparing feId)
  | refuse : Silent .absent .done
  | forget : Silent .done .absent

namespace AllocationController
variable {s s' s'' : AllocationController} {R : Phase → Phase → Prop}
  {id x feId : String} {a : ManagedAllocation} {p : Phase}
  {prepared : Option FinalizationContext} {tasks : List Pending} {ctx : FinalizationContext}
  {gpuFails : List String} {task : Pending}

def tasksOf (s : AllocationController) (id : String) : List Pending :=
  s.pending.filter fun task => task.allocationId = some id

def phaseOf (s : AllocationController) (id : String) : Option Phase :=
  phase (s.allocations.lookup id) (s.preparedData.lookup id) (s.tasksOf id)

/-- Every phase moves along `R`. -/
def Evolves (R : Phase → Phase → Prop) (s s' : AllocationController) : Prop :=
  ∀ id p, s.phaseOf id = some p → ∃ p', s'.phaseOf id = some p' ∧ Relation.ReflTransGen R p p'

lemma Evolves.refl (s : AllocationController) : Evolves R s s := fun _ p hp => ⟨p,hp,.refl⟩

lemma Evolves.trans (h : Evolves R s s') (h' : Evolves R s' s'') : Evolves R s s'' := by
  intro id p hp
  obtain ⟨p',hp',hr⟩ := h id p hp
  obtain ⟨p'',hp'',hr'⟩ := h' id p' hp'
  exact ⟨p'',hp'',hr.trans hr'⟩

lemma Evolves.silent (h : Evolves Quiet s s') : Evolves Silent s s' := by
  intro id p hp
  obtain ⟨p',hp',hr⟩ := h id p hp
  exact ⟨p',hp',Relation.ReflTransGen.mono (fun _ _ hq => .quiet hq) _ _ hr⟩

lemma evolves_foldl {α : Type} {f : AllocationController → α → AllocationController}
    (hf : ∀ s x, Evolves R s (f s x)) (xs : List α) (s : AllocationController) :
    Evolves R s (xs.foldl f s) := by
  induction xs generalizing s with
  | nil => exact .refl s
  | cons x xs ih => exact (hf s x).trans (ih (f s x))

lemma evolves_of_eq (ha : s'.allocations=s.allocations) (hp : s'.preparedData=s.preparedData)
    (ht : ∀ id, s'.tasksOf id = s.tasksOf id) : Evolves R s s' := by
  intro id p h
  refine ⟨p,?_,.refl⟩
  rw [phaseOf,ha,hp,ht]
  exact h

lemma evolves_of_change (id : String) (hothers : ∀ x, x≠id → s'.phaseOf x = s.phaseOf x)
    (hid : ∀ p, s.phaseOf id = some p →
      ∃ p', s'.phaseOf id = some p' ∧ Relation.ReflTransGen R p p') : Evolves R s s' := by
  intro x p hp
  by_cases hx : x=id
  · subst hx
    exact hid p hp
  · exact ⟨p,(hothers x hx).trans hp,.refl⟩

lemma tasksOf_append {s s' : AllocationController} (tasks : List Pending)
    (h : s'.pending = s.pending++tasks) (id : String) :
    s'.tasksOf id = s.tasksOf id++tasks.filter fun task => task.allocationId = some id := by
  rw [tasksOf,h,filter_append]
  rfl

lemma phaseOf_eq_some (tasks : List Pending)
    (hphase : ∀ prepared, phase (some a) prepared tasks = some p)
    (ha : s.allocations.lookup id = some a) (ht : s.tasksOf id = tasks) : s.phaseOf id = some p := by
  rw [phaseOf,ha,ht]
  exact hphase _

lemma phase_of_isWaiting (hw : a.state.isWaiting=true) (h : phase (some a) prepared tasks = some p) :
    ∃ ctx, prepared = some ctx ∧ tasks = [] ∧ p = .waiting ctx := by
  obtain ⟨allocation,feId,st⟩ := a
  cases st with
  | waitingForContainer | waitingForSlot =>
    cases tasks with
    | cons => cases h
    | nil =>
      obtain ⟨ctx,hctx,rfl⟩ := Option.map_eq_some_iff.mp h
      exact ⟨ctx,hctx,rfl,rfl⟩
  | _ => cases hw

lemma phase_of_waiting (hw : a.state.isWaiting=true) : phase (some a) (some ctx) [] = some
    (.waiting ctx) := by
  obtain ⟨allocation,feId,st⟩ := a
  cases st with
  | waitingForContainer | waitingForSlot => rfl
  | _ => cases hw

/-! ### The handlers of allocations -/

lemma phaseOf_of_ne (hx : x≠id) (ha : s'.allocations.lookup x = s.allocations.lookup x)
    (hp : s'.preparedData.lookup x = s.preparedData.lookup x)
    (tasks : List Pending) (ht : s'.pending = s.pending++tasks)
    (htasks : ∀ task∈tasks, task.allocationId = some id) : s'.phaseOf x = s.phaseOf x := by
  have hnone : (tasks.filter fun task => task.allocationId = some x) = [] := by
    refine filter_eq_nil_iff.mpr fun task hm => ?_
    rw [htasks task hm]
    simpa using Ne.symm hx
  rw [phaseOf,ha,hp,tasksOf_append tasks ht,hnone,append_nil]
  rfl

lemma lookup_put_of_ne (a : ManagedAllocation) (hx : x≠id) :
    (s.put id a).allocations.lookup x = s.allocations.lookup x :=
  AList.lookup_insert_ne hx

lemma lookup_put_self (s : AllocationController) (id : String) (a : ManagedAllocation) :
    (s.put id a).allocations.lookup id = some a :=
  AList.lookup_insert _

lemma tasksOf_finalize (ht : s'.pending = s.pending++[.finalize id ctx]) :
    s'.tasksOf id = s.tasksOf id++[.finalize id ctx] := by
  rw [tasksOf_append _ ht]
  simp [Pending.allocationId]

lemma phaseOf_startFinalization_of_ne (hx : x≠id) (result : AllocationResult) (ctx : FinalizationContext)
    (t : Option String) : (s.startFinalization id result ctx t).phaseOf x = s.phaseOf x := by
  unfold startFinalization
  split
  · rfl
  · exact phaseOf_of_ne hx (lookup_put_of_ne _ hx) rfl [.finalize id ctx] rfl
      (by simp [Pending.allocationId])

lemma phaseOf_startFinalization (ha : s.allocations.lookup id = some a) (ht : s.tasksOf id = [])
    (result : AllocationResult) (ctx : FinalizationContext) (t : Option String) :
    (s.startFinalization id result ctx t).phaseOf id = some (.finalizing ctx) := by
  rw [startFinalization,ha]
  refine phaseOf_eq_some [.finalize id ctx] (fun _ => rfl) (lookup_put_self s id _) ?_
  refine (tasksOf_finalize (s := s) rfl).trans ?_
  rw [ht]
  rfl

lemma evolves_scheduleCandidate (feId : String) (s : AllocationController) (id : String) :
    Evolves Quiet s (s.scheduleCandidate feId id) := by
  unfold scheduleCandidate
  cases ha : s.allocations.lookup id with
  | none => exact .refl s
  | some a =>
    dsimp only
    split_ifs with hw
    · split
      next hnone =>
        refine evolves_of_change id (fun x hx => phaseOf_startFinalization_of_ne hx _ _ _) fun p hp => ?_
        rw [phaseOf,ha,hnone] at hp
        obtain ⟨ctx,hctx,-⟩ := phase_of_isWaiting hw hp
        cases hctx
      next ctx hctx =>
        refine evolves_of_change id (fun x hx => ?_) fun p hp => ?_
        · exact phaseOf_of_ne hx (lookup_put_of_ne _ hx) (AList.lookup_erase_ne hx)
            [.execute id] rfl (by simp [Pending.allocationId])
        rw [phaseOf,ha,hctx] at hp
        obtain ⟨ctx',hctx',ht,rfl⟩ := phase_of_isWaiting hw hp
        cases hctx'
        refine ⟨.running ctx,?_,.single (.start ctx)⟩
        refine phaseOf_eq_some [.execute id] (fun _ => rfl) (lookup_put_self s id _) ?_
        refine (tasksOf_append (s := s) [.execute id] rfl id).trans ?_
        rw [ht]
        simp [Pending.allocationId]
    · exact .refl s

lemma evolves_trySchedule (s : AllocationController) : Evolves Quiet s s.trySchedule := by
  refine evolves_foldl (fun s feId => ?_) _ s
  unfold scheduleOn
  split
  · have hqueue : ∀ q, Evolves Quiet s {s with waitingQueue := q} :=
      fun q => evolves_of_eq rfl rfl fun _ => rfl
    exact (hqueue _).trans (evolves_foldl (evolves_scheduleCandidate feId) _ _)
  · exact .refl s

def NotPreparing (s : AllocationController) (id : String) : Prop :=
  ∀ a, s.allocations.lookup id = some a → a.state≠.preparing

lemma isWaiting_of_notPreparing (hready : a.state.isReady=true)
    (hne : a.state≠.preparing) : a.state.isWaiting=true := by
  cases hst : a.state <;> rw [hst] at hready hne <;> first
    | rfl
    | exact absurd rfl hne
    | cases hready

lemma evolves_close (ha : s.allocations.lookup id = some a) (hw : a.state.isWaiting=true)
    (result : AllocationResult) (t : Option String) :
    Evolves Quiet s
      ((s.takePrepared id).2.startFinalization id result (s.takePrepared id).1 t) := by
  refine evolves_of_change id (fun x hx => ?_) fun p hp => ?_
  · refine (phaseOf_startFinalization_of_ne hx _ _ _).trans ?_
    rw [phaseOf]
    congr 1
    exact AList.lookup_erase_ne hx
  rw [phaseOf,ha] at hp
  obtain ⟨ctx,hctx,ht,rfl⟩ := phase_of_isWaiting hw hp
  have hkept : (s.takePrepared id).1 = ctx := by
    unfold takePrepared
    rw [hctx]
    rfl
  rw [hkept]
  refine ⟨.finalizing ctx,?_,.single (.close ctx)⟩
  exact phaseOf_startFinalization (s := (s.takePrepared id).2) ha ht _ _ _

lemma evolves_cancelAllocation (h : s.NotPreparing id) : Evolves Quiet s (s.cancelAllocation id) := by
  unfold cancelAllocation
  cases ha : s.allocations.lookup id with
  | none => exact .refl s
  | some a =>
    dsimp only
    split_ifs with hready hw
    · have hqueue : Evolves Quiet s (s.unqueue id a.feId) := evolves_of_eq rfl rfl fun _ => rfl
      exact hqueue.trans (evolves_close (s := s.unqueue id a.feId) ha hw _ _)
    · exact absurd (isWaiting_of_notPreparing hready (h a ha)) hw
    · exact .refl s

lemma evolves_failAllocation (feId : String) (reason : Proto.AllocationFailureReason)
    (h : s.NotPreparing id) : Evolves Quiet s (failAllocation feId reason s id) := by
  unfold failAllocation
  cases ha : s.allocations.lookup id with
  | none => exact .refl s
  | some a =>
    dsimp only
    split_ifs with hready hempty
    · have hw := isWaiting_of_notPreparing hready (h a ha)
      refine evolves_of_change id (fun x hx => ?_) fun p hp => ?_
      · exact phaseOf_of_ne hx (lookup_put_of_ne _ hx) (AList.lookup_erase_ne hx) []
          (append_nil _).symm (by simp)
      rw [phaseOf,ha] at hp
      obtain ⟨ctx,hctx,ht,rfl⟩ := phase_of_isWaiting hw hp
      refine ⟨.done,?_,.single (.drop ctx ?_)⟩
      · exact phaseOf_eq_some [] (fun _ => rfl) (lookup_put_self s id _) ht
      · simpa [takePrepared,hctx] using hempty
    · exact evolves_close ha (isWaiting_of_notPreparing hready (h a ha)) _ _
    · exact .refl s

/-! ### The handlers of containers -/

def NonePreparing (s : AllocationController) (feId : String) : Prop :=
  ∀ id a, s.allocations.lookup id = some a → a.feId=feId → a.state≠.preparing

def NoneNew (s s' : AllocationController) : Prop :=
  ∀ x, s'.allocations.lookup x = s.allocations.lookup x ∨
    ∀ a, s'.allocations.lookup x = some a → a.state≠.preparing

lemma NoneNew.notPreparing (h : s.NoneNew s') (hid : s.NotPreparing id) : s'.NotPreparing id := by
  rcases h id with hx | hx
  · unfold NotPreparing
    rw [hx]
    exact hid
  · exact hx

lemma NoneNew.nonePreparing (h : s.NoneNew s') (hfe : s.NonePreparing feId) : s'.NonePreparing feId := by
  intro x a ha
  rcases h x with hx | hx
  · rw [hx] at ha
    exact hfe x a ha
  · exact fun _ => hx a ha

/-- The phases move on quietly, and nothing gets into its preparation. -/
structure Calm (s s' : AllocationController) : Prop where
  evolves : Evolves Quiet s s'
  noneNew : s.NoneNew s'

lemma Calm.refl (s : AllocationController) : s.Calm s := ⟨.refl s,fun _ => .inl rfl⟩

lemma Calm.trans (h : s.Calm s') (h' : s'.Calm s'') : s.Calm s'' where
  evolves := h.evolves.trans h'.evolves
  noneNew x := by
    rcases h'.noneNew x with hx | hx
    · rw [hx]
      exact h.noneNew x
    · exact .inr hx

lemma calm_of_eq (ha : s'.allocations=s.allocations) (hp : s'.preparedData=s.preparedData)
    (ht : ∀ id, s'.tasksOf id = s.tasksOf id) : s.Calm s' :=
  ⟨evolves_of_eq ha hp ht,fun x => .inl (by rw [ha])⟩

lemma noneNew_failAllocation (feId : String) (reason : Proto.AllocationFailureReason)
    (s : AllocationController) (id : String) : s.NoneNew (failAllocation feId reason s id) := by
  intro x
  by_cases hx : x=id
  · subst hx
    unfold failAllocation
    cases ha : s.allocations.lookup x with
    | none => exact .inl ha
    | some a =>
      dsimp only
      split_ifs
      · right
        intro b hb
        cases (lookup_put_self _ _ _).symm.trans hb
        simp
      · right
        intro b hb
        rw [lookup_startFinalization,if_pos rfl] at hb
        obtain ⟨c,-,rfl⟩ := Option.map_eq_some_iff.mp hb
        simp
      · exact .inl ha
  · exact .inl ((failAllocation_frame feId reason s id).2.2 x hx)

lemma calm_fail (h : s.NonePreparing feId) (fe : ManagedFE)
    (reason : ContainerTerminationReason) (failure : Proto.AllocationFailureReason) :
    s.Calm ((s.terminate feId fe reason).failAllocationsForFe feId failure) := by
  have hstart : s.Calm {s.terminate feId fe reason with waitingQueue := s.waitingQueue.erase feId} :=
    calm_of_eq rfl rfl fun _ => rfl
  have hids : ∀ id ∈ s.allocationsOf feId, s.NotPreparing id := by
    intro id hid a ha
    obtain ⟨b,hb,hfe,-⟩ := mem_allocationsOf.mp hid
    cases ha.symm.trans hb
    exact h id a ha hfe
  exact List.foldlRecOn (s.allocationsOf feId) _ hstart fun s' hs id hid => hs.trans
    ⟨evolves_failAllocation feId _ (hs.noneNew.notPreparing (hids id hid)),
      noneNew_failAllocation feId _ s' id⟩

lemma calm_removeContainer (h : s.NonePreparing feId) : s.Calm (s.removeContainer feId) := by
  unfold removeContainer
  split
  · exact .refl s
  split
  · exact calm_of_eq rfl rfl fun _ => rfl
  · exact calm_fail h _ _ _

lemma calm_createContainer (h : ∀ feId∈gpuFails, s.NonePreparing feId)
    (description : ContainerDescription) : s.Calm (s.createContainer gpuFails description) := by
  unfold createContainer
  split
  · exact .refl s
  next feId _ =>
    split_ifs with hmem hgpu
    · exact .refl s
    · exact calm_fail (h feId hgpu.2) _ _ _
    · refine calm_of_eq rfl rfl fun id => ?_
      refine (tasksOf_append (s := s) [.startup feId] rfl id).trans ?_
      simp [Pending.allocationId]

lemma calm_reconcileContainers (added : List ContainerDescription) {removed : List String}
    (hremoved : ∀ feId∈removed, s.NonePreparing feId) (hgpu : ∀ feId∈gpuFails, s.NonePreparing feId) :
    s.Calm (s.reconcileContainers added removed gpuFails) := by
  have hremove : s.Calm (removed.foldl removeContainer s) :=
    List.foldlRecOn removed _ (.refl s) fun _ hs feId hfe =>
      hs.trans (calm_removeContainer (hs.noneNew.nonePreparing (hremoved feId hfe)))
  exact List.foldlRecOn added _ hremove fun _ hs description _ =>
    hs.trans (calm_createContainer (fun feId hfe => hs.noneNew.nonePreparing (hgpu feId hfe)) _)

lemma evolves_handleContainerStartupComplete {result : Except StartupError Unit}
    (h : result.isOk=true ∨ s.NonePreparing feId) :
    Evolves Quiet s (s.handleContainerStartupComplete feId result) := by
  unfold handleContainerStartupComplete
  split
  · cases result with
    | ok =>
      have hset : ∀ c, Evolves Quiet s {s with containers := c} :=
        fun c => evolves_of_eq rfl rfl fun _ => rfl
      exact (hset _).trans (evolves_trySchedule _)
    | error e => exact (calm_fail (h.resolve_left (by simp [Except.toBool])) _ _ _).evolves
  · exact .refl s

lemma evolves_handleContainerTerminated (reason : ContainerTerminationReason)
    (h : s.NonePreparing feId) : Evolves Quiet s (s.handleContainerTerminated feId reason) := by
  unfold handleContainerTerminated
  split
  · exact .refl s
  split
  · exact .refl s
  · exact (calm_fail h _ _ _).evolves

/-! ### Deliveries -/

lemma phase_of_done (hd : a.state=.done)
    (h : phase (some a) prepared tasks = some p) : tasks = [] ∧ p=.done := by
  obtain ⟨allocation,feId,st⟩ := a
  obtain rfl : st=.done := hd
  cases tasks with
  | cons => cases h
  | nil =>
    cases h
    exact ⟨rfl,rfl⟩

lemma phase_none (h : phase none prepared tasks = some p) : tasks = [] ∧ p=.absent := by
  unfold phase at h
  split_ifs at h with ht
  cases h
  exact ⟨ht,rfl⟩

variable (s)

lemma evolves_cleanup (ids : List String) : Evolves Silent s (s.cleanupDoneAllocations ids) := by
  intro id p hp
  cases hl : (s.cleanupDoneAllocations ids).allocations.lookup id with
  | some a =>
    refine ⟨p,?_,.refl⟩
    rw [phaseOf,(lookup_cleanup.mp hl).1] at hp
    rw [phaseOf,hl]
    exact hp
  | none =>
    cases ha : s.allocations.lookup id with
    | none =>
      rw [phaseOf,ha] at hp
      refine ⟨p,?_,.refl⟩
      rw [phaseOf,hl]
      exact hp
    | some a =>
      have hd : a.state=.done := by
        by_contra hd
        rw [lookup_cleanup.mpr ⟨ha,fun h => absurd h hd⟩] at hl
        cases hl
      rw [phaseOf,ha] at hp
      obtain ⟨ht,rfl⟩ := phase_of_done hd hp
      refine ⟨.absent,?_,.single .forget⟩
      have ht' : (s.cleanupDoneAllocations ids).tasksOf id = [] := ht
      rw [phaseOf,hl,ht']
      rfl

lemma evolves_addAllocation (x : String × ServerAllocation) : Evolves Silent s (s.addAllocation x) := by
  unfold addAllocation
  dsimp only
  split_ifs with hmem halive
  · exact .refl s
  all_goals
    have hnone := AList.lookup_eq_none.mpr hmem
    refine evolves_of_change x.2.id (fun y hy => ?_) fun p hp => ?_
  · exact phaseOf_of_ne hy (lookup_put_of_ne _ hy) rfl [.prepare x.2.id] rfl
      (by simp [Pending.allocationId])
  · rw [phaseOf,hnone] at hp
    obtain ⟨ht,rfl⟩ := phase_none hp
    refine ⟨.preparing x.1,?_,.single (.accept x.1)⟩
    refine phaseOf_eq_some [.prepare x.2.id] (fun _ => rfl) (lookup_put_self s x.2.id _) ?_
    refine (tasksOf_append (s := s) [.prepare x.2.id] rfl x.2.id).trans ?_
    rw [ht]
    simp [Pending.allocationId]
  · exact phaseOf_of_ne hy (lookup_put_of_ne _ hy) rfl [] (append_nil _).symm (by simp)
  · rw [phaseOf,hnone] at hp
    obtain ⟨ht,rfl⟩ := phase_none hp
    exact ⟨.done,phaseOf_eq_some [] (fun _ => rfl) (lookup_put_self s x.2.id _) ht,.single .refuse⟩

variable {s}

lemma evolves_reconcile {added : List ContainerDescription} {removed : List String}
    (new : List (String × ServerAllocation)) (hremoved : ∀ feId∈removed, s.NonePreparing feId)
    (hgpu : ∀ feId∈gpuFails, s.NonePreparing feId) :
    Evolves Silent s (s.reconcile added removed gpuFails new) := by
  have hcleanup : ∀ ids, s.NoneNew (s.cleanupDoneAllocations ids) := by
    intro ids x
    cases hl : (s.cleanupDoneAllocations ids).allocations.lookup x with
    | none => exact .inr (by simp)
    | some a => exact .inl (lookup_cleanup.mp hl).1.symm
  have hrest : ∀ s : AllocationController, (∀ feId∈removed, s.NonePreparing feId) →
      (∀ feId∈gpuFails, s.NonePreparing feId) →
      Evolves Silent s ((s.reconcileContainers added removed gpuFails).addAllocations
        new).trySchedule := fun s hr hg =>
    ((calm_reconcileContainers added hr hg).evolves.silent.trans
      (evolves_foldl evolves_addAllocation new _)).trans (evolves_trySchedule _).silent
  unfold reconcile
  split_ifs
  · exact hrest s hremoved hgpu
  refine (evolves_cleanup s _).trans (hrest _ ?_ ?_)
  · exact fun feId hfe => (hcleanup _).nonePreparing (hremoved feId hfe)
  · exact fun feId hfe => (hcleanup _).nonePreparing (hgpu feId hfe)

/-! ### Tasks -/

def Becomes (id : String) (p₁ : Phase) (s s' : AllocationController) : Prop :=
  ∀ x p, Function.update s.phaseOf id (some p₁) x = some p →
    ∃ p', s'.phaseOf x = some p' ∧ Relation.ReflTransGen Quiet p p'

lemma Becomes.then (h : Becomes id p s s') (h' : Evolves Quiet s' s'') : Becomes id p s s'' := by
  intro x q hq
  obtain ⟨q',hq',hr⟩ := h x q hq
  obtain ⟨q'',hq'',hr'⟩ := h' x q' hq'
  exact ⟨q'',hq'',hr.trans hr'⟩

lemma becomes_of {p' : Phase} (hothers : ∀ x, x≠id → s'.phaseOf x = s.phaseOf x)
    (hid : s'.phaseOf id = some p') (hq : Relation.ReflTransGen Quiet p p') : Becomes id p s s' := by
  intro x q hx
  by_cases hxid : x=id
  · subst hxid
    rw [Function.update_self] at hx
    cases hx
    exact ⟨p',hid,hq⟩
  · rw [Function.update_of_ne hxid] at hx
    exact ⟨q,(hothers x hxid).trans hx,.refl⟩

def without (s : AllocationController) (task : Pending) : AllocationController :=
  {s with pending := s.pending.erase task}

lemma tasksOf_without (s : AllocationController) (task : Pending) (id : String) :
    (s.without task).tasksOf id = (s.tasksOf id).erase task := erase_filter.symm

lemma phaseOf_without_of_ne (hx : x≠id)
    (ht : task.allocationId = some id) : (s.without task).phaseOf x = s.phaseOf x := by
  have hnot : task ∉ s.tasksOf x := by
    intro hm
    have hid := of_decide_eq_true (mem_filter.mp hm).2
    rw [ht] at hid
    exact hx (Option.some.inj hid).symm
  rw [phaseOf,tasksOf_without,erase_of_not_mem hnot]
  rfl

lemma evolves_without (task : Pending) (ht : task.allocationId=none) : Evolves R s (s.without task) := by
  refine evolves_of_eq rfl rfl fun id => ?_
  rw [tasksOf_without,erase_of_not_mem]
  intro hm
  have hid := of_decide_eq_true (mem_filter.mp hm).2
  rw [ht] at hid
  cases hid

lemma phase_of_mem {a : Option ManagedAllocation} (h : phase a prepared tasks = some p) :
    task ∈ tasks → ∃ a', a = some a' ∧ tasks = [task] ∧ match task with
        | .prepare _ => a'.state=.preparing ∧ p = .preparing a'.feId
        | .execute _ => ∃ ctx, a'.state = .running ctx ∧ p = .running ctx
        | .finalize _ ctx => ∃ result t, a'.state = .finalizing result t ∧ p = .finalizing ctx
        | .startup _ | .terminated _ _ => False := by
  intro ht
  unfold phase at h
  cases a with
  | none =>
    split_ifs at h with hnil
    rw [hnil] at ht
    cases ht
  | some a =>
    dsimp only at h
    split at h
    all_goals simp_all

lemma mem_tasksOf (hm : task∈s.pending) (ht : task.allocationId = some id) : task ∈ s.tasksOf id :=
  mem_filter.mpr ⟨hm,decide_eq_true ht⟩

lemma tasksOf_without_self (h : s.tasksOf id = [task]) : (s.without task).tasksOf id = [] := by
  rw [tasksOf_without,h]
  simp

def preparedCtx : Option (Option MultipartUploadHandle) → FinalizationContext
  | some handle => .ofPrepared handle
  | none => .empty

lemma becomes_enqueue {st : AllocationState} (ht : s.tasksOf id = []) (hst : st.isWaiting=true)
    (ctx : FinalizationContext) : Becomes id (.waiting ctx) s (s.enqueue id a st ctx) := by
  refine becomes_of (fun x hx => ?_) ?_ .refl
  · exact phaseOf_of_ne hx (lookup_put_of_ne _ hx)
      (AList.lookup_insert_ne hx) [] (append_nil _).symm (by simp)
  have hctx : (s.enqueue id a st ctx).preparedData.lookup id = some ctx :=
    AList.lookup_insert _
  have ht' : (s.enqueue id a st ctx).tasksOf id = [] := ht
  have ha : (s.enqueue id a st ctx).allocations.lookup id = some {a with state := st} :=
    lookup_put_self s id _
  rw [phaseOf,ha,hctx,ht']
  exact phase_of_waiting hst

lemma becomes_startFinalization (ha : s.allocations.lookup id = some a) (ht : s.tasksOf id = [])
    (result : AllocationResult)
    (t : Option String) (hq : Relation.ReflTransGen Quiet p (.finalizing ctx)) :
    Becomes id p s (s.startFinalization id result ctx t) :=
  becomes_of (fun _ hx => phaseOf_startFinalization_of_ne hx _ _ _)
    (phaseOf_startFinalization ha ht _ _ _) hq

lemma Becomes.of_without (task : Pending) (ht : task.allocationId = some id)
    (h : Becomes id p (s.without task) s') : Becomes id p s s' := by
  intro x q hq
  refine h x q ?_
  by_cases hx : x=id
  · subst hx
    rw [Function.update_self] at hq ⊢
    exact hq
  rw [Function.update_of_ne hx] at hq ⊢
  rw [phaseOf_without_of_ne hx ht]
  exact hq

lemma becomes_prepared (hm : .prepare id ∈ s.pending)
    (hp : s.phaseOf id = some p) (result : Option (Option MultipartUploadHandle)) :
    (∃ feId, p = .preparing feId) ∧ Becomes id (.waiting (preparedCtx result)) s
      ((s.without (.prepare id)).handleAllocationPrepared id result) := by
  obtain ⟨a,ha,htasks,hst,rfl⟩ := phase_of_mem hp (mem_tasksOf hm rfl)
  refine ⟨⟨a.feId,rfl⟩,Becomes.of_without (.prepare id) rfl ?_⟩
  have ha' : (s.without (.prepare id)).allocations.lookup id = some a := ha
  have ht := tasksOf_without_self htasks
  generalize s.without (.prepare id) = s₁ at ha' ht
  have hfin : ∀ result t ctx, Becomes id (.waiting ctx) s₁
      (s₁.startFinalization id result ctx t) := fun _ _ _ =>
    becomes_startFinalization ha' ht _ _ (.single (.close _))
  unfold handleAllocationPrepared
  rw [ha']
  dsimp only
  rw [if_pos hst]
  cases result with
  | none => exact hfin _ _ _
  | some handle =>
    dsimp only
    split
    · exact (becomes_enqueue ht rfl _).then (evolves_trySchedule _)
    · exact becomes_enqueue ht rfl _
    · exact hfin _ _ _
    · exact hfin _ _ _

def executedCtx (ctx : FinalizationContext) : ExecutionOutcome → FinalizationContext
  | .completed _ feResult handles => {ctx with outputBlobHandles := handles, feResult := feResult}
  | .cancelled handles | .failed _ handles _ _ => {ctx with outputBlobHandles := handles}

lemma executionResult_snd (s : AllocationController) (a : ManagedAllocation) (ctx : FinalizationContext)
    (outcome : ExecutionOutcome) : (s.executionResult a ctx outcome).2 = executedCtx ctx outcome := by
  cases outcome <;> rfl

lemma crashNotice_allocationId {outcome : ExecutionOutcome}
    (h : task ∈ crashNotice feId outcome) : task.allocationId=none := by
  unfold crashNotice at h
  split at h
  · rw [mem_singleton.mp h]
    rfl
  · cases h

lemma becomes_executed (hm : .execute id ∈ s.pending)
    (hp : s.phaseOf id = some p) (outcome : ExecutionOutcome) :
    ∃ ctx, p = .running ctx ∧ Becomes id (.finalizing (executedCtx ctx outcome)) s
      ((s.without (.execute id)).handleAllocationExecutionFinished id outcome) := by
  obtain ⟨a,ha,htasks,ctx,hst,rfl⟩ := phase_of_mem hp (mem_tasksOf hm rfl)
  refine ⟨ctx,rfl,Becomes.of_without (.execute id) rfl ?_⟩
  have ha' : (s.without (.execute id)).allocations.lookup id = some a := ha
  have ht := tasksOf_without_self htasks
  generalize s.without (.execute id) = s₁ at ha' ht
  unfold handleAllocationExecutionFinished
  rw [ha']
  dsimp only
  rw [hst]
  dsimp only
  rw [executionResult_snd]
  have hfin : Becomes id (.finalizing (executedCtx ctx outcome)) s₁
      ((s₁.releaseSlot a.feId).startFinalization id
        ((s₁.releaseSlot a.feId).executionResult a ctx outcome).1 (executedCtx ctx outcome) none) :=
    becomes_startFinalization (s := s₁.releaseSlot a.feId) ha' ht _ _ .refl
  have hannounce : ∀ s : AllocationController,
      Evolves Quiet s (s.announce (crashNotice a.feId outcome)) := by
    refine fun s => evolves_of_eq rfl rfl fun x => ?_
    rw [tasksOf_append (crashNotice a.feId outcome) rfl]
    refine (congrArg _ (filter_eq_nil_iff.mpr fun task hm => ?_)).trans (append_nil _)
    simp [crashNotice_allocationId hm]
  exact (hfin.then (hannounce _)).then (evolves_trySchedule _)

lemma becomes_finalized (hm : .finalize id ctx ∈ s.pending) (hp : s.phaseOf id = some p)
    (isSuccess : Bool) :
    p = .finalizing ctx ∧ Becomes id .done s
      ((s.without (.finalize id ctx)).handleAllocationFinalizationFinished id isSuccess) := by
  obtain ⟨a,ha,htasks,result,t,hst,rfl⟩ := phase_of_mem hp (mem_tasksOf hm rfl)
  refine ⟨rfl,Becomes.of_without (.finalize id ctx) rfl ?_⟩
  have ha' : (s.without (.finalize id ctx)).allocations.lookup id = some a := ha
  have ht := tasksOf_without_self htasks
  unfold handleAllocationFinalizationFinished
  rw [ha']
  dsimp only
  rw [hst]
  refine becomes_of (fun x hx => ?_) (phaseOf_eq_some [] (fun _ => rfl) (lookup_put_self _ _ _) ht)
    .refl
  exact phaseOf_of_ne hx (lookup_put_of_ne _ hx) rfl [] (append_nil _).symm (by simp)

end AllocationController
end Indexify.Dataplane
