import Indexify.Processor.ContainerIndices
import Indexify.Processor.ContainerLifecycle
import Indexify.StateStore.SandboxIndexes

/-! Runs of the sandbox part of the in-memory state. Every step is a payload, or the update that a
processor makes of the sandboxes stored at that moment. The container scheduler is an input of the
step: whatever happens to it between two steps is allowed. -/
namespace Indexify
open SandboxState

inductive SandboxStep
  | create (sandbox : Sandbox)
  | schedule (s : ContainerScheduler) (cache : FeasibilityCache) («namespace» sandboxId : String)
      (draw : ContainerScheduler.Draw)
  | containerStarted (s : ContainerScheduler) (id : ContainerId)
  | containerReported (serverContainer : Container) (executorState : ContainerState)
  | containerTerminated (container : Container)
  | executorRemoved (id : ExecutorId)
  | executorLostSnapshots (id : ExecutorId) (error : String)
  | containerOrphaned (sandbox : Sandbox)
  | terminate (s : ContainerScheduler) («namespace» sandboxId : String)
  | snapshot (snapshot : Snapshot)
  | completeSnapshot (id : SnapshotId) (uri : String) (sizeBytes : ℕ)
  | failSnapshot (id : SnapshotId) (error : String)
  | deleteSnapshot («namespace» : String) (id : SnapshotId)

namespace SandboxStep
open SandboxProcessor ContainerReconciler
section
variable [HashOrder ContainerId] [HashOrder ExecutorId]

def update (m : SandboxState) : SandboxStep → SchedulerUpdateRequest
  | schedule s cache ns id draw =>
    match (allocateSandboxByKey m s cache ns id draw).2.2 with
    | .ok u => u
    | .error _ => {}
  | containerStarted s id => promoteSandboxForStartedContainer m s id
  | containerReported container state => promoteSandboxIfContainerRunning m container state
  | containerTerminated container => terminateSandboxForContainer m container
  | executorRemoved id => terminateSandboxesForExecutor m id
  | executorLostSnapshots id error => failInProgressSnapshotsForExecutor m id error
  | containerOrphaned sandbox => orphanUpdate sandbox
  | terminate s ns id => (terminateSandbox m s ns id).2
  | _ => {}

def step (m : SandboxState) : SandboxStep → SandboxState
  | create sandbox => m.createSandbox sandbox
  | snapshot snap => m.snapshotSandbox snap
  | completeSnapshot id uri sizeBytes => m.completeSnapshot id uri sizeBytes
  | failSnapshot id error => m.failSnapshot id error
  | deleteSnapshot ns id => m.deleteSnapshot ns id
  | e => m.applySchedulerUpdate (e.update m)

def run (m : SandboxState) (steps : List SandboxStep) : SandboxState := steps.foldl step m

end

/-- An update changes no sandbox, one stored sandbox by a transition, or only terminates. -/
inductive Lawful (m : SandboxState) (u : SchedulerUpdateRequest) : Prop
  | none (h : u.updatedSandboxes = ∅)
  | one (key : SandboxKey) (old sandbox : Sandbox) (hold : m.sandboxes.lookup key = some old)
      (ht : m.Transition old sandbox)
      (h : u.updatedSandboxes = (∅ : Dict SandboxKey Sandbox).insert key sandbox)
  | terminates (h : ∀ k sandbox, u.updatedSandboxes.lookup k = some sandbox → sandbox.status = .terminated)

section
variable {m : SandboxState} {u : SchedulerUpdateRequest} {v : SchedulerUpdateRequest}

lemma agrees_putSnapshots {es : List (Sigma fun _ : SnapshotKey => Snapshot)} (h : m.Agrees ∧ m.Proper) :
    (es.foldl putSnapshot m).Agrees ∧ (es.foldl putSnapshot m).Proper :=
  @Trace.invariant _ _ _ (fun m : SandboxState => m.Agrees ∧ m.Proper)
    (fun e hm => ⟨hm.1.putSnapshot e,hm.2.of_subset fun hk => hk⟩) _ h es

lemma agrees_terminations {es : List (Sigma fun _ : SandboxKey => Sandbox)}
    (h : m.Agrees ∧ m.Proper) (hes : ∀ e∈es, e.2.status=.terminated) :
    (es.foldl applySandbox m).Agrees ∧ (es.foldl applySandbox m).Proper :=
  List.foldlRecOn (motive := fun m : SandboxState => m.Agrees ∧ m.Proper) es _ h
    fun _ hm e he => hm.1.apply_terminated hm.2 (hes e he)

lemma Lawful.agrees (hu : Lawful m u) (h : m.Agrees ∧ m.Proper) :
    (m.applySchedulerUpdate u).Agrees ∧ (m.applySchedulerUpdate u).Proper := by
  apply agrees_putSnapshots
  cases hu with
  | none hnone =>
    rw [hnone]
    exact h
  | one key old sandbox hold ht hone =>
    rw [hone]
    exact h.1.applySandbox h.2 hold ht
  | terminates hall =>
    apply agrees_terminations h
    rintro ⟨k,sandbox⟩ he
    exact hall k sandbox ((Dict.mem_entries_iff _ _ _).mp he)

lemma updatedSandboxes_extend_left {u : SchedulerUpdateRequest} (h : v.updatedSandboxes = ∅) :
    (u.extend v).updatedSandboxes = u.updatedSandboxes := by
  simp [SchedulerUpdateRequest.extend,h]

lemma updatedSandboxes_extend_right {u : SchedulerUpdateRequest} (h : u.updatedSandboxes = ∅) :
    (u.extend v).updatedSandboxes = v.updatedSandboxes := by
  simp [SchedulerUpdateRequest.extend,h]

lemma lawful_promote (m : SandboxState) (container : Container) (state : ContainerState) :
    Lawful m (promoteSandboxIfContainerRunning m container state) := by
  unfold promoteSandboxIfContainerRunning
  cases container.sandboxId with
  | none => exact .none rfl
  | some sandboxId =>
    dsimp only
    split_ifs
    · cases hold : m.sandboxes.lookup (.new container.namespace sandboxId.get) with
      | none => exact .none rfl
      | some sandbox =>
        dsimp only
        split_ifs with hpending
        · exact .one _ _ _ hold (.promote hpending) rfl
        · exact .none rfl
    · exact .none rfl

lemma Lawful.of_eq (hu : Lawful m u) (h : v.updatedSandboxes=u.updatedSandboxes) : Lawful m v := by
  cases hu with
  | none hnone => exact .none (h.trans hnone)
  | one key old sandbox hold ht hone => exact .one key old sandbox hold ht (h.trans hone)
  | terminates hall => exact .terminates (by rw [h]; exact hall)

variable (m)

lemma lawful_started (s : ContainerScheduler) (id : ContainerId) :
    Lawful m (promoteSandboxForStartedContainer m s id) := by
  unfold promoteSandboxForStartedContainer
  cases s.functionContainers.lookup id with
  | none => exact .none rfl
  | some fc =>
    apply (lawful_promote m fc.functionContainer .running).of_eq
    apply updatedSandboxes_extend_right
    split_ifs <;> rfl

lemma lawful_terminated (container : Container) :
    Lawful m (terminateSandboxForContainer m container) := by
  unfold terminateSandboxForContainer
  cases container.sandboxId with
  | none => exact .none rfl
  | some sandboxId =>
    dsimp only
    cases hold : m.sandboxes.lookup (.new container.namespace sandboxId.get) with
    | none => exact .none rfl
    | some sandbox =>
      dsimp only
      split_ifs
      · exact .one _ _ _ hold (.terminate _) rfl
      · exact .none rfl

lemma lawful_executorRemoved (id : ExecutorId) : Lawful m (terminateSandboxesForExecutor m id) := by
  refine .terminates fun k sandbox hk => ?_
  obtain ⟨old,-,rfl⟩ := (Dict.lookup_mapValues_eq_some _ _ _ _).mp hk
  rfl

lemma lawful_lostSnapshots (id : ExecutorId) (error : String) :
    Lawful m (failInProgressSnapshotsForExecutor m id error) := by
  refine .terminates ?_
  refine @Trace.invariant _ _ _ (fun u : SchedulerUpdateRequest => ∀ k sandbox,
    u.updatedSandboxes.lookup k = some sandbox → sandbox.status=.terminated) ?_ _ ?_ _
  · intro u snapshot hu k sandbox hk
    unfold failSnapshotOn at hk
    dsimp only at hk
    cases hold : m.sandboxes.lookup (.new snapshot.namespace snapshot.sandboxId.get) with
    | none =>
      rw [hold] at hk
      exact hu k sandbox hk
    | some old =>
      rw [hold] at hk
      dsimp only at hk
      split_ifs at hk
      · exact Dict.of_lookup_insert (fun hk => hu _ _ hk) rfl hk
      · exact hu k sandbox hk
  · intro k sandbox hk
    cases hk

lemma lawful_orphaned (sandbox : Sandbox) : Lawful m (orphanUpdate sandbox) := by
  refine .terminates fun k s hk => ?_
  rcases Dict.lookup_insert_cases hk with ⟨-,rfl⟩ | ⟨-,⟨⟩⟩
  rfl

lemma lawful_terminate (s : ContainerScheduler) (ns id : String) :
    Lawful m (terminateSandbox m s ns id).2 := by
  unfold terminateSandbox
  dsimp only
  cases hold : m.sandboxes.lookup (.new ns id) with
  | none => exact .none rfl
  | some sandbox =>
    refine .one _ _ _ hold (.terminate (some (.success .userTerminated))) ?_
    apply updatedSandboxes_extend_right
    unfold terminateContainerOf
    cases sandbox.containerId with
    | none => rfl
    | some containerId =>
      dsimp only
      split_ifs
      · unfold ContainerScheduler.terminateContainer
        cases s.functionContainers.lookup containerId <;> rfl
      · rfl

variable {m}

end

/-- The container scheduler hands out no container that a stored sandbox has. -/
def PlacesFresh (m : SandboxState) (s : ContainerScheduler) («namespace» sandboxId : String) : Prop :=
  ∀ sandbox ∈ m.sandboxes.lookup (.new «namespace» sandboxId),
    ¬m.Holds (.ofSandbox sandbox.id) ∧ ∀ poolId∈sandbox.poolId,
      ∀ c ∈ s.warmContainersByPool.ids ⟨sandbox.namespace,poolId⟩, ¬m.Holds c
  deriving Decidable

section
variable {m : SandboxState} {s : ContainerScheduler} {cache : FeasibilityCache} {sandbox : Sandbox}
  {u : SchedulerUpdateRequest} {draw : ContainerScheduler.Draw}
  {key : SandboxKey}

lemma claimed_warm [HashOrder ContainerId] {poolKey : ContainerPoolKey} {sandboxId : SandboxId}
    {timeout : ℕ} {s' : ContainerScheduler} {c : ContainerId} {e : ExecutorId}
    (h : s.claimPoolContainer poolKey sandboxId timeout = (s',some (c,e,u))) :
    c ∈ s.warmContainersByPool.ids poolKey ∧ u.updatedSandboxes = ∅ := by
  unfold ContainerScheduler.claimPoolContainer at h
  split at h
  · cases h
  rename_i id fc hfound
  obtain ⟨id',hid',hfc⟩ := List.exists_of_findSome?_eq_some hfound
  obtain ⟨fc',-,hpair⟩ := Option.map_eq_some_iff.mp hfc
  obtain ⟨rfl,rfl⟩ := Prod.mk.inj hpair
  cases h
  exact ⟨HashOrder.mem_toList.mp hid',rfl⟩

lemma placedContainer_of_creates [HashOrder ExecutorId] {resources : FunctionResources}
    {container : Container} {containerType : ContainerType} {now : Instant}
    {r : ContainerScheduler × FeasibilityCache × Except CreateError (Option SchedulerUpdateRequest)}
    (h : ContainerScheduler.Creates s resources container containerType now r)
    (hu : r.2.2 = .ok (some u)) :
    (∃ e, placedContainer u = some (e,container.id)) ∧ u.updatedSandboxes = ∅ := by
  cases h with
  | unplaced => cases hu
  | placed cache result executorId q hcandidate hregisters =>
    cases hregisters with
    | unknown
    | refused => cases hu
    | added state hstate hadd =>
      cases hu
      exact ⟨⟨executorId,rfl⟩,rfl⟩

variable [HashOrder ExecutorId]

section
variable (hold : m.sandboxes.lookup key = some sandbox) (hkey : SandboxKey.fromSandbox sandbox = key)
  (hpending : sandbox.status.isPending) (hcontainer : sandbox.containerId=none)
  (hfree : ¬m.Holds (.ofSandbox sandbox.id)) {uri : Option String}
include hold hkey hpending hcontainer hfree

lemma lawful_onDemand (hu : (createOnDemand s cache sandbox uri draw).2.2 = .ok u) : Lawful m u := by
  have hcreates := ContainerScheduler.createContainer_outcome s cache (.ofSandbox sandbox.namespace)
    (ContainerScheduler.requirements sandbox.resources)
    (ContainerScheduler.sandboxContainer sandbox uri) .sandbox draw
  revert hu
  unfold createOnDemand
  cases hr : s.createContainerForSandbox cache sandbox uri draw with
  | mk s' rest =>
    obtain ⟨cache',outcome⟩ := rest
    cases outcome with
    | ok created =>
      cases created with
      | none =>
        rintro ⟨⟩
        refine .one key _ _ hold (.retry _ hpending hcontainer ?_) (by rw [← hkey]; rfl)
        split_ifs <;> simp
      | some containerUpdate =>
        rintro ⟨⟩
        obtain ⟨⟨e,he⟩,hnone⟩ := placedContainer_of_creates hcreates (congrArg (fun r => r.2.2) hr)
        rw [he]
        refine .one key _ _ hold (.place _ _ e hpending hcontainer (Or.inl rfl) hfree) ?_
        rw [updatedSandboxes_extend_left hnone,← hkey]
        rfl
    | error err =>
      cases err with
      | constraintUnsatisfiable reason version functionName =>
        rintro ⟨⟩
        exact .one key _ _ hold (.terminate _) (by rw [← hkey]; rfl)
      | executorStateNotFound
      | resources => rintro ⟨⟩

lemma lawful_fromPool [HashOrder ContainerId] {poolKey : ContainerPoolKey}
    (hwarm : ∀ c ∈ s.warmContainersByPool.ids poolKey, ¬m.Holds c)
    (hu : (allocateFromPool s cache sandbox poolKey uri draw).2.2 = .ok u) : Lawful m u := by
  revert hu
  unfold allocateFromPool tryClaimFromPool
  cases hclaim : s.claimPoolContainer poolKey sandbox.id sandbox.timeoutSecs with
  | mk s' claim =>
    cases claim with
    | none =>
      dsimp only
      split_ifs
      · rintro ⟨⟩
        exact .one key _ _ hold (.retry .poolAtCapacity hpending hcontainer (by simp))
          (by rw [← hkey]; rfl)
      · exact lawful_onDemand hold hkey hpending hcontainer hfree
    | some claimed =>
      obtain ⟨c,e,containerUpdate⟩ := claimed
      rintro ⟨⟩
      obtain ⟨hin,hnone⟩ := claimed_warm hclaim
      refine .one key _ _ hold (.place (if ((s'.functionContainers.lookup c).map
        fun fc => fc.functionContainer.state).getD .unknown = .running then .running
        else .pending .waitingForContainer) c e hpending hcontainer ?_ (hwarm c hin)) ?_
      · split_ifs <;> simp
      · rw [updatedSandboxes_extend_right hnone,← hkey]
        rfl

end

variable [HashOrder ContainerId]

lemma lawful_allocate {ns id : String} (hp : m.Proper) (hfresh : PlacesFresh m s ns id)
    (hu : (allocateSandboxByKey m s cache ns id draw).2.2 = .ok u) : Lawful m u := by
  revert hu
  unfold allocateSandboxByKey
  cases hold : m.sandboxes.lookup (.new ns id) with
  | none =>
    rintro ⟨⟩
    exact .none rfl
  | some sandbox =>
    have hkey := hp.keyed hold
    obtain ⟨hself,hwarm⟩ := hfresh sandbox hold
    dsimp only
    unfold allocateSandbox
    split_ifs with hskip
    · rintro ⟨⟩
      exact .none rfl
    simp only [Sandbox.hasScheduled,Bool.or_eq_true,Bool.not_eq_true',not_or,
      Bool.not_eq_false,Option.not_isSome_iff_eq_none] at hskip
    cases hpool : sandbox.poolId with
    | none => exact lawful_onDemand hold hkey hskip.1 hskip.2 hself
    | some poolId =>
      exact lawful_fromPool hold hkey hskip.1 hskip.2 hself (hwarm poolId hpool)

end

section

/-- The sandbox is as the routes build it and has a key of its own. -/
def CreatesFresh (m : SandboxState) (sandbox : Sandbox) : Prop :=
  m.sandboxes.lookup (.fromSandbox sandbox) = none ∧ sandbox.awaitsAllocation=true ∧
    sandbox.executorId = none ∧ sandbox.containerId=none
  deriving Decidable

/-- The sandbox of the snapshot is no longer stored. -/
def FailsGone (m : SandboxState) (id : SnapshotId) : Prop :=
  ∀ e ∈ m.findSnapshot id, m.sandboxes.lookup (.new e.2.namespace e.2.sandboxId.get) = none
  deriving Decidable

/-- No snapshot is taken of a sandbox in the pending set, and none fails while its sandbox is
stored. -/
def Allowed (m : SandboxState) : SandboxStep → Prop
  | create sandbox => CreatesFresh m sandbox
  | schedule s _ ns id _ => PlacesFresh m s ns id
  | snapshot snap => .new snap.namespace snap.sandboxId.get ∉ m.pendingSandboxes
  | failSnapshot id _ => FailsGone m id
  | _ => True

instance (m : SandboxState) (e : SandboxStep) : Decidable (Allowed m e) := by
  unfold Allowed
  split <;> infer_instance

variable [HashOrder ContainerId] [HashOrder ExecutorId] {m : SandboxState}

lemma step_agrees (h : m.Agrees ∧ m.Proper) {e : SandboxStep} (he : Allowed m e) :
    (step m e).Agrees ∧ (step m e).Proper := by
  cases e with
  | create sandbox =>
    obtain ⟨hnew,hwaits,hexec,hcont⟩ := he
    exact ⟨h.1.createSandbox hnew hwaits hexec hcont,h.2.createSandbox hwaits hexec⟩
  | schedule s cache ns id draw =>
    refine Lawful.agrees ?_ h
    change Lawful m (match (allocateSandboxByKey m s cache ns id draw).2.2 with
      | .ok u => u
      | .error _ => {})
    cases hu : (allocateSandboxByKey m s cache ns id draw).2.2 with
    | error e => exact .none rfl
    | ok u => exact lawful_allocate h.2 he hu
  | containerStarted s id => exact (lawful_started m s id).agrees h
  | containerReported container state => exact (lawful_promote m container state).agrees h
  | containerTerminated container => exact (lawful_terminated m container).agrees h
  | executorRemoved id => exact (lawful_executorRemoved m id).agrees h
  | executorLostSnapshots id error => exact (lawful_lostSnapshots m id error).agrees h
  | containerOrphaned sandbox => exact (lawful_orphaned m sandbox).agrees h
  | terminate s ns id => exact (lawful_terminate m s ns id).agrees h
  | snapshot snap => exact h.1.snapshotSandbox h.2 he
  | completeSnapshot id uri sizeBytes => exact h.1.completeSnapshot h.2 id uri sizeBytes
  | failSnapshot id error => exact h.1.failSnapshot h.2 fun e hfound => he e hfound
  | deleteSnapshot ns id => exact ⟨h.1.of_parts rfl rfl,h.2.of_subset fun hk => hk⟩

/-- After every allowed run from a rebuilt state, set, profile index, profile lookup and histogram
describe exactly the sandboxes that await allocation, and the indexes by executor and by container
list exactly the live sandboxes. -/
theorem run_sandbox_indexes_agree {rows : List Sandbox} (hrows : Loadable rows)
    (snapshots : List Snapshot) (steps : List SandboxStep)
    (hrun : Trace.Along step Allowed (.new rows snapshots) steps) :
    let m := run (.new rows snapshots) steps
    (∀ key, key∈m.pendingSandboxes ↔
      ∃ sandbox, m.sandboxes.lookup key = some sandbox ∧ sandbox.awaitsAllocation=true) ∧
    (∀ profile key, key ∈ m.pendingSandboxesByProfile.ids profile ↔
      ∃ sandbox, m.sandboxes.lookup key = some sandbox ∧ sandbox.awaitsAllocation=true ∧
        sandbox.profile = profile) ∧
    (∀ key profile, m.pendingSandboxProfile.lookup key = some profile ↔
      ∃ sandbox, m.sandboxes.lookup key = some sandbox ∧ sandbox.awaitsAllocation=true ∧
        sandbox.profile = profile) ∧
    (∀ profile, m.pendingResources.lookup profile =
      Tally.entry (Tally.count m.pendingSandboxes m.pendingSandboxProfile.lookup profile)) ∧
    (∀ executor key, key ∈ m.onExecutor executor ↔
      ∃ sandbox, m.sandboxes.lookup key = some sandbox ∧ sandbox.status≠.terminated ∧
        sandbox.executorId = some executor) ∧
    ∀ container key, m.sandboxByContainer.lookup container = some key ↔
      ∃ sandbox, m.sandboxes.lookup key = some sandbox ∧ sandbox.status≠.terminated ∧
        sandbox.containerId = some container := by
  intro m
  have h : m.Agrees := (@Trace.Along.invariant _ _ step Allowed
    (fun m : SandboxState => m.Agrees ∧ m.Proper) (fun hm he => step_agrees hm he) _ _
    (agrees_new hrows snapshots) hrun).1
  have hprofile : ∀ key profile, m.awaited key = some profile ↔
      ∃ sandbox, m.sandboxes.lookup key = some sandbox ∧ sandbox.awaitsAllocation=true ∧
        sandbox.profile = profile := by
    intro key profile
    simp [awaited,Option.bind_eq_some_iff,Sandbox.pendingProfile]
  refine ⟨fun key => ?_,fun profile key => ?_,fun key profile => ?_,fun profile => ?_,
    fun executor key => ?_,fun container key => ?_⟩
  · rw [h.describes.pending,Option.isSome_iff_exists]
    simp only [hprofile]
    constructor
    · rintro ⟨profile,sandbox,hs,hw,-⟩
      exact ⟨sandbox,hs,hw⟩
    · rintro ⟨sandbox,hs,hw⟩
      exact ⟨sandbox.profile,sandbox,hs,hw,rfl⟩
  · rw [h.describes.byProfile,hprofile]
  · rw [h.describes.profile,hprofile]
  · rw [h.describes.histogram profile]
    have hsame : m.pendingSandboxProfile.lookup=m.awaited := funext h.describes.profile
    rw [hsame]
  · refine (h.listed.byExecutor executor key).trans ?_
    simp [Sandbox.liveExecutor]
  · refine (h.listed.byContainer container key).trans ?_
    simp [Sandbox.liveContainer]

end

def smallSandbox : Sandbox :=
  {id := ⟨"box"⟩, «namespace» := "default", image := "base", resources := ⟨1000,512,1024,none⟩}

def smallSnapshot : Snapshot := {id := ⟨"snap"⟩, «namespace» := "default", sandboxId := ⟨"box"⟩}

attribute [local instance] HashOrder.ascending

def joined : ContainerScheduler :=
  ContainerScheduler.run (.new ∅ ∅) ContainerScheduler.joinOps

def placeSteps : List SandboxStep :=
  [.create smallSandbox,.schedule joined ∅ "default" "box" ⟨⟨"c"⟩,0,10⟩]

def snapshotSteps : List SandboxStep := placeSteps ++
  [.containerReported (ContainerScheduler.sandboxContainer smallSandbox none) .running,
    .snapshot smallSnapshot]

theorem snapshotSteps_listed_by_executor : Trace.Along step Allowed (.new [] []) snapshotSteps ∧
    SandboxKey.new "default" "box" ∈ (run (.new [] [])
      snapshotSteps).onExecutor ⟨"executor"⟩ := by
  have hrun : Trace.Along step Allowed (.new [] []) snapshotSteps := by decide +kernel
  have hrows : Loadable [] := ⟨List.Pairwise.nil,by simp,by simp⟩
  obtain ⟨-,-,-,-,hexecutor,-⟩ := run_sandbox_indexes_agree hrows [] _ hrun
  refine ⟨hrun,(hexecutor ⟨"executor"⟩ _).mpr ⟨{smallSandbox with
    status := .snapshotting ⟨"snap"⟩, executorId := some ⟨"executor"⟩
    containerId := some ⟨"box"⟩, snapshotId := some ⟨"snap"⟩},?_,by decide,rfl⟩⟩
  decide +kernel

/-- A placed sandbox is still pending, but it is not in the pending set. -/
theorem placeSteps_pending_unlisted :
    let m := run (.new [] []) placeSteps
    (m.sandboxes.lookup (.new "default" "box")).map (fun sandbox => sandbox.status.isPending) = some true ∧
      SandboxKey.new "default" "box" ∉ m.pendingSandboxes := by
  decide +kernel

end SandboxStep
end Indexify
