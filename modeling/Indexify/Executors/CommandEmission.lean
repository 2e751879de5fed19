import Indexify.Processor.SchedulerState
import Indexify.StateStore.SandboxState

/-! The commands that an update gives rise to. Code payloads and the addresses of the blob store
are left out of descriptions and allocations. -/
namespace Indexify
open List

structure SandboxMetadata where
  image : Option String
  timeoutSecs : Option ℕ
  entrypoint : List String
  networkPolicy : Option NetworkPolicy
  sandboxId : Option SandboxId
  snapshotUri : Option String
  deriving DecidableEq

structure ContainerDescription where
  id : ContainerId
  function : FunctionURI
  secretNames : List String
  allocationTimeoutMs : ℕ
  resources : ContainerResources
  maxConcurrency : ℕ
  sandboxMetadata : Option SandboxMetadata
  containerType : ContainerType
  poolId : Option ContainerPoolId
  deriving DecidableEq

inductive SchedulerCommand
  | removeContainer (id : ContainerId)
  | addContainer (container : ContainerDescription)
  | updateContainerDescription (id : ContainerId) (sandboxMetadata : Option SandboxMetadata)
  | runAllocation (allocation : Allocation)
  | snapshotContainer (id : ContainerId) (snapshotId : SnapshotId) (uploadUri : String)

namespace SchedulerCommand

def isRemove : SchedulerCommand → Bool
  | removeContainer _ => true
  | _ => false

def isAdd : SchedulerCommand → Bool
  | addContainer _ => true
  | _ => false

def allocation : SchedulerCommand → Option Allocation
  | runAllocation a => some a
  | _ => none

end SchedulerCommand

structure SchedulerCommandIntent where
  executorId : ExecutorId
  command : SchedulerCommand

def GPUResources.isKnown (gpu : GPUResources) : Bool :=
  gpu.count ≠ 0 && gpu.model ∈ ["A100-40GB","A100-80GB","H100","T4","A6000","A10"]

namespace ExecutorManager

/-- A container whose resources cannot be converted has no description. -/
def buildContainerDescriptionFromMeta (versions : Dict String ApplicationVersion)
    (fc : ContainerServerMetadata) : Option ContainerDescription :=
  let fe := fc.functionContainer
  let cgNode := (versions.lookup
    (ApplicationVersion.keyFrom fe.namespace fe.applicationName fe.version)).bind fun version =>
      version.functions.lookup fe.functionName
  let sandboxMetadata : Option SandboxMetadata := if fe.containerType=.sandbox then
      some
        {image := fe.image
         timeoutSecs := if 0<fe.timeoutSecs then some fe.timeoutSecs else none
         entrypoint := fe.entrypoint
         networkPolicy := fe.networkPolicy
         sandboxId := fe.sandboxId
         snapshotUri := fe.snapshotUri}
    else none
  if fe.resources.gpu.all GPUResources.isKnown then
    some
      {id := fe.id
       function := fe.functionUri
       secretNames := (cgNode.bind Function.secretNames).getD []
       allocationTimeoutMs := (cgNode.map Function.timeoutMs).getD
         (min (fe.timeoutSecs*1000) (2^32-1))
       resources := fe.resources
       maxConcurrency := fe.maxConcurrency
       sandboxMetadata := sandboxMetadata
       containerType := fe.containerType
       poolId := fe.poolId}
  else none

section
variable (versions : Dict String ApplicationVersion) (updatedIds : List ContainerId)

/-- Removals come first, then claims of warm containers, then additions. -/
def containerCommandPriority (id : ContainerId) (fc : ContainerServerMetadata) : ℕ :=
  if fc.isTerminated then 0
  else if fc.containerType=.sandbox ∧ id∈updatedIds then 1
  else if fc.functionContainer.state=.pending then 2
  else 3

/-- A container that is not pending is only told about a claim. -/
def containerIntent (e : Sigma fun _ : ContainerId => ContainerServerMetadata) :
    Option SchedulerCommandIntent :=
  if e.2.isTerminated then some ⟨e.2.executorId,.removeContainer e.1⟩
  else if e.2.functionContainer.state=.pending then
    (buildContainerDescriptionFromMeta versions e.2).map fun container =>
      ⟨e.2.executorId,.addContainer container⟩
  else if e.2.containerType=.sandbox ∧ e.1∈updatedIds then
    (buildContainerDescriptionFromMeta versions e.2).map fun container =>
      ⟨e.2.executorId,.updateContainerDescription e.1 container.sandboxMetadata⟩
  else none

def commandLe (a b : Sigma fun _ : ContainerId => ContainerServerMetadata) : Prop :=
  toLex (containerCommandPriority updatedIds a.1 a.2,a.1) ≤
    toLex (containerCommandPriority updatedIds b.1 b.2,b.1)

instance : DecidableRel (commandLe updatedIds) := fun _ _ => inferInstanceAs (Decidable (_ ≤ _))

end

/-- A snapshot in progress is asked of the container of its sandbox. -/
def snapshotIntent (update : SchedulerUpdateRequest) (sandboxes : Dict SandboxKey Sandbox)
    (snapshot : Snapshot) : Option SchedulerCommandIntent :=
  let key := SandboxKey.new snapshot.namespace snapshot.sandboxId.get
  match (update.updatedSandboxes.lookup key).or (sandboxes.lookup key) with
  | none => none
  | some sandbox =>
    match sandbox.executorId,snapshot.uploadUri,sandbox.containerId with
    | some executorId,some uploadUri,some containerId =>
      if snapshot.status=.inProgress then
        some ⟨executorId,.snapshotContainer containerId snapshot.id uploadUri⟩
      else none
    | _,_,_ => none

def rebuildSchedulerCommandIntents (update : SchedulerUpdateRequest) (sandboxes : Dict SandboxKey Sandbox)
    (versions : Dict String ApplicationVersion) : List SchedulerCommandIntent :=
  let updatedIds := update.updatedSandboxes.values.filterMap Sandbox.containerId
  (update.containers.entries.insertionSort (commandLe updatedIds)).filterMap
      (containerIntent versions updatedIds) ++
    update.newAllocations.map (fun a => ⟨a.target.executorId,.runAllocation a⟩) ++
    update.updatedSnapshots.values.filterMap (snapshotIntent update sandboxes)

section
variable {versions : Dict String ApplicationVersion} {updatedIds : List ContainerId}
  {update : SchedulerUpdateRequest} {sandboxes : Dict SandboxKey Sandbox}
  {e : Sigma fun _ : ContainerId => ContainerServerMetadata} {i : SchedulerCommandIntent}

instance : Std.Total (commandLe updatedIds) := ⟨fun _ _ => le_total _ _⟩

instance : IsTrans (Sigma fun _ : ContainerId => ContainerServerMetadata) (commandLe updatedIds) :=
  ⟨fun _ _ _ => le_trans⟩

/-- What a command says about the container it was made from. -/
inductive Commands (e : Sigma fun _ : ContainerId => ContainerServerMetadata) : SchedulerCommand → Prop
  | remove (hterminated : e.2.isTerminated=true) : Commands e (.removeContainer e.1)
  | add (container : ContainerDescription) (hid : container.id=e.2.functionContainer.id)
      (hlive : e.2.isTerminated=false) (hpending : e.2.functionContainer.state=.pending) :
      Commands e (.addContainer container)
  | claim (metadata : Option SandboxMetadata) (hlive : e.2.isTerminated=false) :
      Commands e (.updateContainerDescription e.1 metadata)

lemma buildContainerDescriptionFromMeta_id {fc : ContainerServerMetadata}
    {container : ContainerDescription}
    (h : buildContainerDescriptionFromMeta versions fc = some container) :
    container.id = fc.functionContainer.id := by
  unfold buildContainerDescriptionFromMeta at h
  dsimp only at h
  split_ifs at h <;> cases h <;> rfl

lemma containerIntent_commands (h : containerIntent versions updatedIds e = some i) :
    i.executorId = e.2.executorId ∧ Commands e i.command := by
  unfold containerIntent at h
  split_ifs at h with hterminated hpending hclaim
  · cases h
    exact ⟨rfl,.remove hterminated⟩
  · obtain ⟨container,hcontainer,rfl⟩ := Option.map_eq_some_iff.mp h
    exact ⟨rfl,.add container (buildContainerDescriptionFromMeta_id hcontainer)
      (by simpa using hterminated) hpending⟩
  · obtain ⟨container,-,rfl⟩ := Option.map_eq_some_iff.mp h
    exact ⟨rfl,.claim _ (by simpa using hterminated)⟩

lemma priority_eq_zero_iff {id : ContainerId} {fc : ContainerServerMetadata} :
    containerCommandPriority updatedIds id fc = 0 ↔ fc.isTerminated=true := by
  unfold containerCommandPriority
  split_ifs with hterminated <;> simp [hterminated]

lemma pairwise_containerIntents (es : List (Sigma fun _ : ContainerId => ContainerServerMetadata)) :
    ((es.insertionSort (commandLe updatedIds)).filterMap
      (containerIntent versions updatedIds)).Pairwise fun a b =>
        ¬(a.command.isAdd=true ∧ b.command.isRemove=true) := by
  rw [pairwise_filterMap]
  refine (pairwise_insertionSort (commandLe updatedIds) es).imp ?_
  rintro a b hle i hi j hj ⟨hadd,hremove⟩
  obtain ⟨-,hi⟩ := containerIntent_commands hi
  obtain ⟨-,hj⟩ := containerIntent_commands hj
  generalize i.command = c at hadd hi
  generalize j.command = d at hremove hj
  cases hi with
  | remove _
  | claim _ _ => cases hadd
  | add container hid hlive hpending =>
    cases hj with
    | add _ _ _ _
    | claim _ _ => cases hremove
    | remove hterminated =>
      have hb := (@priority_eq_zero_iff updatedIds b.1 b.2).mpr hterminated
      have ha : containerCommandPriority updatedIds a.1 a.2 ≠ 0 := fun h => by
        rw [priority_eq_zero_iff,hlive] at h
        cases h
      have hfirst := Prod.Lex.monotone_fst _ _ hle
      simp only [ofLex_toLex] at hfirst
      omega

/-- The commands of a call: container commands, one run for each new allocation, snapshots. -/
structure Ordered (update : SchedulerUpdateRequest) (intents : List SchedulerCommandIntent) : Prop where
  removalsFirst : intents.Pairwise fun a b =>
    ¬(a.command.isAdd=true ∧ b.command.isRemove=true)
  addsFirst : intents.Pairwise fun a b =>
    ¬(a.command.allocation.isSome=true ∧ b.command.isAdd=true)
  runs : intents.filterMap (fun i => i.command.allocation) = update.newAllocations

lemma snapshotIntent_spec {snapshot : Snapshot} (h : snapshotIntent update sandboxes snapshot = some i) :
    i.command.isAdd = false ∧ i.command.isRemove=false ∧ i.command.allocation=none := by
  unfold snapshotIntent at h
  dsimp only at h
  split at h
  · cases h
  split at h
  · split_ifs at h
    cases h
    exact ⟨rfl,rfl,rfl⟩
  · cases h

lemma later_intents (hi : i∈update.newAllocations.map
    (fun a => (⟨a.target.executorId,.runAllocation a⟩ : SchedulerCommandIntent)) ++
    update.updatedSnapshots.values.filterMap (snapshotIntent update sandboxes)) :
    i.command.isAdd = false ∧ i.command.isRemove=false := by
  rcases mem_append.mp hi with hi | hi
  · obtain ⟨a,-,rfl⟩ := mem_map.mp hi
    exact ⟨rfl,rfl⟩
  · obtain ⟨snapshot,-,h⟩ := mem_filterMap.mp hi
    exact ⟨(snapshotIntent_spec h).1,(snapshotIntent_spec h).2.1⟩

lemma pairwise_append_of_right {α : Type} {R : α → α → Prop} {l l' : List α} (h : l.Pairwise R)
    (h' : ∀ a, ∀ b∈l', R a b) : (l++l').Pairwise R :=
  pairwise_append.mpr ⟨h,pairwise_of_forall_mem_list fun a _ => h' a,fun a _ => h' a⟩

lemma ordered_rebuildSchedulerCommandIntents (update : SchedulerUpdateRequest)
    (sandboxes : Dict SandboxKey Sandbox) (versions : Dict String ApplicationVersion) :
    Ordered update (rebuildSchedulerCommandIntents update sandboxes versions) := by
  unfold rebuildSchedulerCommandIntents
  set updatedIds := update.updatedSandboxes.values.filterMap Sandbox.containerId
  set containers := (update.containers.entries.insertionSort (commandLe updatedIds)).filterMap
    (containerIntent versions updatedIds) with hcontainers
  have hsnapshot : ∀ i ∈ update.updatedSnapshots.values.filterMap (snapshotIntent update sandboxes),
      i.command.allocation = none := by
    intro i hi
    obtain ⟨snapshot,-,h⟩ := mem_filterMap.mp hi
    exact (snapshotIntent_spec h).2.2
  have hcontainer : ∀ i∈containers, i.command.allocation=none := by
    intro i hi
    obtain ⟨e,-,h⟩ := mem_filterMap.mp hi
    obtain ⟨-,hc⟩ := containerIntent_commands h
    generalize i.command = c at hc
    cases hc <;> rfl
  rw [append_assoc]
  refine ⟨pairwise_append_of_right (pairwise_containerIntents _) fun a b hb h => ?_,
    pairwise_append_of_right ?_ fun a b hb h => ?_,?_⟩
  · rw [(later_intents hb).2] at h
    cases h.2
  · refine pairwise_of_forall_mem_list fun a ha b _ h => ?_
    rw [hcontainer a ha] at h
    cases h.1
  · rw [(later_intents hb).1] at h
    cases h.2
  · rw [filterMap_append,filterMap_append,filterMap_eq_nil_iff.mpr hcontainer,
      filterMap_eq_nil_iff.mpr hsnapshot,filterMap_map]
    simp [SchedulerCommand.allocation]

end
end ExecutorManager
end Indexify
