import Indexify.Library.Trace
import Indexify.DataModel.Containers

/-! What the server's record of an executor says about its resources: the claims of the
containers and what is left of the host, over any sequence of additions and removals. -/
namespace Indexify

inductive Dimension
  | cpu
  | memory
  | disk
  | gpu
  deriving DecidableEq

def HostResources.amount (h : HostResources) : Dimension → ℕ
  | .cpu => h.cpuMsPerSec
  | .memory => h.memoryBytes
  | .disk => h.diskBytes
  | .gpu => h.gpu.elim 0 GPUResources.count

def ContainerResources.amount (r : ContainerResources) : Dimension → ℕ
  | .cpu => r.cpuMsPerSec
  | .memory => r.memoryMb*1024*1024
  | .disk => r.ephemeralDiskMb*1024*1024
  | .gpu => r.gpu.elim 0 GPUResources.count

namespace HostResources
variable {h : HostResources} {r : ContainerResources}

def Handles (h : HostResources) (r : ContainerResources) : Prop :=
  h.canHandleFeResources r = .ok ()
  deriving Decidable

lemma canHandleGpu_iff (gpu : Option GPUResources) : h.canHandleGpu gpu = .ok () ↔
    ∀ g∈gpu, ∃ available∈h.gpu, g.count ≤ available.count ∧ available.model=g.model := by
  unfold canHandleGpu
  cases gpu with
  | none => simp
  | some g =>
    cases h.gpu with
    | none => simp
    | some available => simp [GPUResources.canHandle]

lemma handles_iff : h.Handles r ↔
    r.cpuMsPerSec ≤ h.cpuMsPerSec ∧ r.memoryMb*1024*1024 ≤ h.memoryBytes ∧
      r.ephemeralDiskMb*1024*1024 ≤ h.diskBytes ∧
      ∀ g∈r.gpu, ∃ available∈h.gpu, g.count ≤ available.count ∧ available.model=g.model := by
  unfold Handles canHandleFeResources
  dsimp only
  split_ifs with hcpu hmemory hdisk
  · exact iff_of_false nofun fun hok => hok.1.not_gt hcpu
  · exact iff_of_false nofun fun hok => hok.2.1.not_gt hmemory
  · exact iff_of_false nofun fun hok => hok.2.2.1.not_gt hdisk
  · rw [canHandleGpu_iff,and_iff_right (not_lt.mp hcpu),and_iff_right (not_lt.mp hmemory),
      and_iff_right (not_lt.mp hdisk)]

lemma isOk_canHandleFeResources : (h.canHandleFeResources r).isOk = true ↔ h.Handles r := by
  unfold Handles
  cases h.canHandleFeResources r with
  | ok => exact iff_of_true rfl rfl
  | error e => exact iff_of_false nofun nofun

/-- The first three bounds are common to the configurations, and a host needs one of them. -/
lemma canHandleFunctionResources_iff {f : FunctionResources} :
    (h.canHandleFunctionResources f).isOk = true ↔
      f.cpuMsPerSec ≤ h.cpuMsPerSec ∧ f.memoryMb*1024*1024 ≤ h.memoryBytes ∧
      f.ephemeralDiskMb*1024*1024 ≤ h.diskBytes ∧
      (f.gpuConfigs=[] ∨ ∃ g∈f.gpuConfigs, ∃ available∈h.gpu,
        g.count ≤ available.count ∧ available.model=g.model) := by
  have hgo : ∀ (gpus : List GPUResources) (last : Except ResourceError Unit),
      (canHandleFunctionResources.go h f last gpus).isOk = true ↔
        (gpus=[] ∧ last.isOk = true) ∨ ∃ g∈gpus, h.Handles (f.withGpu (some g)) := by
    intro gpus
    induction gpus with
    | nil => simp [canHandleFunctionResources.go]
    | cons g gpus ih =>
      intro last
      unfold canHandleFunctionResources.go
      split
      next hcan => exact iff_of_true rfl (.inr ⟨g,List.mem_cons_self,hcan⟩)
      next e hcan =>
        have hno : ¬h.Handles (f.withGpu (some g)) := fun hok => nomatch hcan.symm.trans hok
        have herror : (Except.error e : Except ResourceError Unit).isOk = false := rfl
        simp [ih,hno,herror]
  rw [canHandleFunctionResources,hgo,isOk_canHandleFeResources]
  cases hgpus : f.gpuConfigs with
  | nil => simp [handles_iff,FunctionResources.withGpu]
  | cons g gpus =>
    simp only [handles_iff,FunctionResources.withGpu,Option.mem_some_iff,forall_eq']
    grind

lemma Handles.amount_subtract (hok : h.Handles r) (d : Dimension) :
    (h.subtract r).amount d + r.amount d = h.amount d := by
  obtain ⟨hcpu,hmemory,hdisk,hgpu⟩ := handles_iff.mp hok
  cases d with
  | cpu => exact Nat.sub_add_cancel hcpu
  | memory => exact Nat.sub_add_cancel hmemory
  | disk => exact Nat.sub_add_cancel hdisk
  | gpu =>
    cases hr : r.gpu with
    | none => simp [amount,ContainerResources.amount,subtract,hr]
    | some g =>
      obtain ⟨available,hh,hle,-⟩ := hgpu g hr
      simp only [amount,ContainerResources.amount,subtract,hr,Option.mem_def.mp hh]
      exact Nat.sub_add_cancel hle

lemma subtract_model (h : HostResources) (r : ContainerResources) :
    (h.subtract r).gpu.map GPUResources.model = h.gpu.map GPUResources.model := by
  unfold subtract
  cases r.gpu <;> cases h.gpu <;> rfl

lemma free_spec (hmodel : ∀ g∈r.gpu, h.gpu.map GPUResources.model = some g.model) :
    (h.free r).2 = .ok () ∧ (∀ d, (h.free r).1.amount d = h.amount d + r.amount d) ∧
      (h.free r).1.gpu.map GPUResources.model = h.gpu.map GPUResources.model := by
  unfold free
  cases hr : r.gpu with
  | none =>
    refine ⟨rfl,fun d => ?_,rfl⟩
    cases d <;> simp [amount,ContainerResources.amount,hr]
  | some g =>
    cases hh : h.gpu with
    | none => simpa [hh] using hmodel g hr
    | some available =>
      have hsame : available.model=g.model := by simpa [hh] using hmodel g hr
      simp only [hsame,if_true]
      refine ⟨trivial,fun d => ?_,by simp [hsame]⟩
      cases d <;> simp [amount,ContainerResources.amount,hr,hh]

end HostResources

namespace ExecutorServerMetadata

inductive ContainerOp where
  | add (c : Container)
  | forceAdd (c : Container)
  | remove (c : Container)
  deriving DecidableEq

/-- The record after a call, whether or not the call returned an error. -/
def step (e : ExecutorServerMetadata) : ContainerOp → ExecutorServerMetadata
  | .add c => (e.addContainer c).1
  | .forceAdd c => e.forceAddContainer c
  | .remove c => (e.removeContainer c).1

def fresh (executorId : ExecutorId) (host : HostResources) : ExecutorServerMetadata :=
  ⟨executorId,∅,host,∅⟩

def claimed (e : ExecutorServerMetadata) (d : Dimension) : ℕ :=
  e.resourceClaims.total fun r => r.amount d

/-- A container that is not yet on the record is added while the free resources cover it. -/
def Covers (e : ExecutorServerMetadata) : ContainerOp → Prop
  | .add c | .forceAdd c => e.resourceClaims.lookup c.id = none → e.freeResources.Handles c.resources
  | .remove _ => True

instance (e : ExecutorServerMetadata) (op : ContainerOp) : Decidable (e.Covers op) := by
  unfold Covers
  split <;> infer_instance

structure Balanced (host : HostResources) (e : ExecutorServerMetadata) : Prop where
  keys : ∀ id, id∈e.functionContainerIds ↔ id∈e.resourceClaims
  balance : ∀ d, e.freeResources.amount d + e.claimed d = host.amount d
  model : ∀ id r, e.resourceClaims.lookup id = some r → ∀ g∈r.gpu,
    e.freeResources.gpu.map GPUResources.model = some g.model

variable {host : HostResources} {e : ExecutorServerMetadata}
variable (hb : Balanced host e)
include hb

lemma Balanced.claim {c : Container}
    (hnew : e.resourceClaims.lookup c.id = none) (hok : e.freeResources.Handles c.resources) :
    Balanced host
      {e with
        functionContainerIds := insert c.id e.functionContainerIds
        resourceClaims := e.resourceClaims.insert c.id c.resources
        freeResources := e.freeResources.subtract c.resources} := by
  refine ⟨fun id => ?_,fun d => ?_,fun id r hr g hg => ?_⟩
  · simp [hb.keys id]
  · have hsum := hok.amount_subtract d
    have hold := hb.balance d
    simp only [claimed] at hold ⊢
    rw [Dict.total_insert hnew]
    omega
  · rw [HostResources.subtract_model]
    rcases Dict.lookup_insert_cases hr with ⟨-,rfl⟩ | ⟨-,hr⟩
    · obtain ⟨available,hh,-,hmodel⟩ := (HostResources.handles_iff.mp hok).2.2.2 g hg
      rw [Option.mem_def.mp hh,← hmodel]
      rfl
    · exact hb.model id r hr g hg

lemma Balanced.known {id : ContainerId} {r : ContainerResources}
    (hr : e.resourceClaims.lookup id = some r) :
    Balanced host {e with functionContainerIds := insert id e.functionContainerIds} := by
  refine ⟨fun id' => ?_,hb.balance,hb.model⟩
  have hmem : id∈e.resourceClaims := AList.lookup_isSome.mp (by simp [hr])
  rw [Finset.mem_insert,hb.keys id',or_iff_right_of_imp]
  rintro rfl
  exact hmem

lemma Balanced.release (c : Container) : Balanced host (e.removeContainer c).1 := by
  unfold removeContainer
  dsimp only
  cases hr : e.resourceClaims.lookup c.id with
  | none =>
    have hmem : c.id∉e.functionContainerIds := fun hin =>
      AList.lookup_eq_none.mp hr ((hb.keys c.id).mp hin)
    simp only [Dict.erase_of_lookup_eq_none hr,Finset.erase_eq_of_notMem hmem]
    exact hb
  | some r =>
    obtain ⟨hok,hamount,hmodel⟩ := HostResources.free_spec (hb.model c.id r hr)
    rcases hfree : e.freeResources.free r with ⟨free,result⟩
    rw [hfree] at hok hamount hmodel
    obtain rfl : result = .ok () := hok
    simp only [hfree]
    refine ⟨fun id => ?_,fun d => ?_,fun id r' hr' g hg => ?_⟩
    · simp [hb.keys id]
    · have hold := hb.balance d
      have hsum := Dict.total_erase hr fun r => r.amount d
      have hback : free.amount d = e.freeResources.amount d + r.amount d := hamount d
      simp only [claimed] at hold ⊢
      omega
    · exact hmodel.trans (hb.model id r' (Dict.lookup_of_erase hr').2 g hg)

lemma Balanced.step {op : ContainerOp} (hok : e.Covers op) : Balanced host (e.step op) := by
  cases op with
  | add c =>
    unfold ExecutorServerMetadata.step addContainer
    dsimp only
    cases hr : e.resourceClaims.lookup c.id with
    | some r => exact hb.known hr
    | none =>
      have hhandles := hok hr
      have hconsume : e.freeResources.consumeFeResources c.resources =
          (e.freeResources.subtract c.resources,.ok ()) := by
        rw [HostResources.consumeFeResources,hhandles]
      simp only [hconsume]
      exact hb.claim hr hhandles
  | forceAdd c =>
    unfold ExecutorServerMetadata.step forceAddContainer
    dsimp only
    cases hr : e.resourceClaims.lookup c.id with
    | some r => exact hb.known hr
    | none => exact hb.claim hr (hok hr)
  | remove c => exact hb.release c

omit hb

/-- While containers that are new to the record are added only when the free resources cover
them, the claims are those of the listed containers, and what is free and what is claimed add up
to the host in every dimension. -/
theorem run_balanced (executorId : ExecutorId) (host : HostResources) (ops : List ContainerOp)
    (h : Trace.Along step Covers (fresh executorId host) ops) :
    let e := ops.foldl step (fresh executorId host)
    (∀ id, id∈e.resourceClaims ↔ id∈e.functionContainerIds) ∧
      (∀ d, e.freeResources.amount d ≤ host.amount d) ∧
      ∀ d, e.freeResources.amount d + e.claimed d = host.amount d := by
  have hb : Balanced host (ops.foldl step (fresh executorId host)) :=
    Trace.Along.invariant (fun hb hok => hb.step hok) ⟨fun id => by simp [fresh],fun d => rfl,
      fun id r hr => by simp [fresh] at hr⟩ h
  refine ⟨fun id => (hb.keys id).symm,fun d => ?_,hb.balance⟩
  have := hb.balance d
  omega

def sampleContainer (id : String) : Container where
  id := ⟨id⟩
  «namespace» := "default"
  applicationName := "app"
  functionName := "fn"
  version := "1"
  state := .running
  resources := ⟨600,1,0,none⟩
  maxConcurrency := 1
  containerType := .function

def sampleHost : HostResources := ⟨1000,2*1024*1024,0,none⟩

/-- A container comes and goes, another is adopted twice, and the first is removed once more. -/
def sampleOps : List ContainerOp :=
  [.add (sampleContainer "a"),.remove (sampleContainer "a"),.forceAdd (sampleContainer "b"),
    .forceAdd (sampleContainer "b"),.remove (sampleContainer "a")]

theorem sampleOps_balanced :
    let e := sampleOps.foldl step (fresh ⟨"executor-1"⟩ sampleHost)
    e.resourceClaims.keys = [⟨"b"⟩] ∧ e.freeResources.amount .cpu = 400 ∧
      ∀ d, e.freeResources.amount d + e.claimed d = sampleHost.amount d := by
  refine ⟨by decide,by decide,?_⟩
  exact (run_balanced ⟨"executor-1"⟩ sampleHost sampleOps (by decide)).2.2

/-- The second container is adopted although only four hundred units are free. The removal of
both gives back twelve hundred units of a host that has a thousand. -/
theorem run_exceeds_host :
    let e := [.add (sampleContainer "a"),.forceAdd (sampleContainer "b"),
      .remove (sampleContainer "a"),.remove (sampleContainer "b")].foldl step
        (fresh ⟨"executor-1"⟩ sampleHost)
    e.claimed .cpu = 0 ∧ e.freeResources.amount .cpu = 1200 ∧ sampleHost.amount .cpu = 1000 := by
  decide

end ExecutorServerMetadata
end Indexify
