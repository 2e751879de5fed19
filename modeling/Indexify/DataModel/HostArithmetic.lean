import Indexify.DataModel.ResourceClaims

/-! Resources in the words of the server. A release build computes bytes from mebibytes modulo
2^64, so that a request counts as what is left of it modulo 2^44 mebibytes. -/
namespace Indexify

def wrappingBytes (mb : ℕ) : ℕ := mb*1024%2^64*1024%2^64

/-- The request whose bytes the wrapping multiplication computes. -/
def ContainerResources.wrapped (r : ContainerResources) : ContainerResources :=
  {r with memoryMb := r.memoryMb%2^44, ephemeralDiskMb := r.ephemeralDiskMb%2^44}

lemma wrappingBytes_eq (mb : ℕ) : wrappingBytes mb = mb%2^44*1024*1024 := by
  unfold wrappingBytes
  omega

lemma wrappingBytes_exact_iff {mb : ℕ} : wrappingBytes mb = mb*1024*1024 ↔ mb<2^44 := by
  rw [wrappingBytes_eq]
  omega

lemma ContainerResources.wrapped_eq {r : ContainerResources} (hmemory : r.memoryMb<2^44)
    (hdisk : r.ephemeralDiskMb<2^44) : r.wrapped=r := by
  simp only [wrapped,Nat.mod_eq_of_lt hmemory,Nat.mod_eq_of_lt hdisk]

namespace HostResources

/-- Every quantity fits in its word. -/
def Words (h : HostResources) : Prop :=
  h.cpuMsPerSec<2^32 ∧ h.memoryBytes<2^64 ∧ h.diskBytes<2^64 ∧ ∀ g∈h.gpu, g.count<2^32

def truncate (h : HostResources) : HostResources where
  cpuMsPerSec := h.cpuMsPerSec%2^32
  memoryBytes := h.memoryBytes%2^64
  diskBytes := h.diskBytes%2^64
  gpu := h.gpu.map fun g => {g with count := g.count%2^32}

namespace Wrapping

def canHandleFeResources (h : HostResources) (r : ContainerResources) : Except ResourceError Unit :=
  h.canHandleFeResources r.wrapped

/-- After the check no subtraction wraps. -/
def consumeFeResources (h : HostResources) (r : ContainerResources) :
    HostResources × Except ResourceError Unit := h.consumeFeResources r.wrapped

def consumeFunctionResources (h : HostResources) (r : FunctionResources) :
    HostResources × Except ResourceError ContainerResources :=
  if r.gpuConfigs.isEmpty then
    match consumeFeResources h (r.withGpu none) with
    | (h,.error e) => (h,.error e)
    | (h,.ok ()) => (h,.ok (r.withGpu none))
  else go h r.gpuConfigs
where
  go (h : HostResources) : List GPUResources → HostResources × Except ResourceError ContainerResources
    | [] => (h,.error (.noGpuConfig r.gpuConfigs h.gpu))
    | gpu::rest =>
      match consumeFeResources h (r.withGpu (some gpu)) with
      | (h,.ok ()) => (h,.ok (r.withGpu (some gpu)))
      | (h,.error _) => go h rest

def free (h : HostResources) (r : ContainerResources) : HostResources × Except ResourceError Unit :=
  ((h.free r.wrapped).1.truncate,(h.free r.wrapped).2)

variable {h h' : HostResources} {r : ContainerResources} {e : ResourceError}

lemma eq_of_refused (hr : consumeFeResources h r = (h',.error e)) : h'=h := by
  unfold consumeFeResources HostResources.consumeFeResources at hr
  cases hcan : h.canHandleFeResources r.wrapped <;> simp_all

lemma eq_of_function_refused {fr : FunctionResources}
    (hr : (consumeFunctionResources h fr).2 = .error e) : (consumeFunctionResources h fr).1 = h := by
  have hgo : ∀ gpus, (consumeFunctionResources.go fr h gpus).2 = .error e →
      (consumeFunctionResources.go fr h gpus).1 = h := by
    intro gpus
    induction gpus with
    | nil => exact fun _ => rfl
    | cons gpu gpus ih =>
      unfold consumeFunctionResources.go
      rcases hc : consumeFeResources h (fr.withGpu (some gpu)) with ⟨h',e' | _⟩
      · obtain rfl := eq_of_refused hc
        exact ih
      · rintro ⟨⟩
  unfold consumeFunctionResources at hr ⊢
  split_ifs at hr ⊢
  · rcases hc : consumeFeResources h (fr.withGpu none) with ⟨h',e' | _⟩ <;> rw [hc] at hr
    · exact eq_of_refused hc
    · cases hr
  · exact hgo _ hr

/-- What the accounting of a request on a host promises: a request is consumed exactly when the
host can handle it, a failing call changes nothing, what was consumed can be given back, no product
and no sum wraps, and a request that is larger than the host is refused. -/
structure Accounted (h : HostResources) (r : ContainerResources) : Prop where
  consumes : (consumeFeResources h r).2 = .ok () ↔ canHandleFeResources h r = .ok ()
  refused : ∀ e, (consumeFeResources h r).2 = .error e → (consumeFeResources h r).1 = h
  unfreed : ∀ e, (free h r).2 = .error e → (free h r).1 = h
  restored : (consumeFeResources h r).2 = .ok () → free (consumeFeResources h r).1 r = (h,.ok ())
  memory : wrappingBytes r.memoryMb = r.memoryMb*1024*1024
  disk : wrappingBytes r.ephemeralDiskMb = r.ephemeralDiskMb*1024*1024
  sums : free h r = h.free r
  larger : ∀ d, h.amount d<r.amount d → canHandleFeResources h r ≠ .ok ()

/-- The request fits in the words on top of what the host has, and the host has the GPU that it
asks for, unless it asks for nothing else. -/
structure Fits (h : HostResources) (r : ContainerResources) : Prop where
  cpu : h.cpuMsPerSec+r.cpuMsPerSec<2^32
  memory : h.memoryBytes+r.memoryMb*1024*1024<2^64
  disk : h.diskBytes+r.ephemeralDiskMb*1024*1024<2^64
  count : ∀ a∈h.gpu, ∀ g∈r.gpu, a.model=g.model → a.count+g.count<2^32
  model : ∀ g∈r.gpu, (∃ a∈h.gpu, a.model=g.model) ∨
    r.cpuMsPerSec=0 ∧ r.memoryMb=0 ∧ r.ephemeralDiskMb=0

end Wrapping

variable {h : HostResources} {r : ContainerResources}

lemma truncate_eq_iff : h.truncate=h ↔ h.Words := by
  obtain ⟨cpu,memory,disk,_ | ⟨count,model⟩⟩ := h <;> simp [truncate,Words]

lemma Handles.free_subtract (hok : h.Handles r) : (h.subtract r).free r = (h,.ok ()) := by
  obtain ⟨hcpu,hmemory,hdisk,hgpu⟩ := handles_iff.mp hok
  unfold free subtract
  rw [Nat.sub_add_cancel hcpu,Nat.sub_add_cancel hmemory,Nat.sub_add_cancel hdisk]
  cases hr : r.gpu with
  | none => rfl
  | some g =>
    obtain ⟨available,hh,hle,hmodel⟩ := hgpu g hr
    rw [Option.mem_def.mp hh]
    dsimp only
    rw [if_pos hmodel,Nat.sub_add_cancel hle]
    cases h
    cases hh
    rfl

/-- What a host has after `free`, whether the call fails or not. -/
lemma free_fst : (h.free r).1 = {h with
    cpuMsPerSec := h.cpuMsPerSec+r.cpuMsPerSec
    memoryBytes := h.memoryBytes+r.memoryMb*1024*1024
    diskBytes := h.diskBytes+r.ephemeralDiskMb*1024*1024
    gpu := h.gpu.map fun a => {a with
      count := a.count+(r.gpu.elim 0 fun g => if a.model=g.model then g.count else 0)}} := by
  unfold free
  cases r.gpu <;> cases h.gpu <;> simp
  split_ifs <;> simp

lemma free_error_iff : (∃ e, (h.free r).2 = .error e) ↔
    ∃ g∈r.gpu, ∀ a∈h.gpu, a.model≠g.model := by
  unfold free
  cases r.gpu <;> cases h.gpu <;> simp
  split_ifs <;> simp_all

namespace Wrapping

lemma words_free_iff (hw : h.Words) : (h.free r).1.Words ↔
    h.cpuMsPerSec+r.cpuMsPerSec<2^32 ∧ h.memoryBytes+r.memoryMb*1024*1024<2^64 ∧
    h.diskBytes+r.ephemeralDiskMb*1024*1024<2^64 ∧
    ∀ a∈h.gpu, ∀ g∈r.gpu, a.model=g.model → a.count+g.count<2^32 := by
  obtain ⟨-,-,-,hgpu⟩ := hw
  rw [free_fst]
  cases hr : r.gpu with
  | none => simp_all [Words]
  | some g =>
    cases hh : h.gpu with
    | none => simp [Words]
    | some a =>
      rw [hh] at hgpu
      by_cases hmodel : a.model=g.model
      · simp [Words,hmodel]
      · simpa [Words,hmodel] using fun _ _ _ => hgpu a rfl

lemma accounted_of_fits (hw : h.Words) (hfits : Fits h r) : Accounted h r := by
  have hmemory : r.memoryMb<2^44 := by have := hfits.memory; omega
  have hdisk : r.ephemeralDiskMb<2^44 := by have := hfits.disk; omega
  have hwrapped : r.wrapped=r := ContainerResources.wrapped_eq hmemory hdisk
  have hconsumed : (h.consumeFeResources r).2 = .ok () → h.Handles r ∧
      (h.consumeFeResources r).1 = h.subtract r := by
    unfold HostResources.consumeFeResources Handles
    cases h.canHandleFeResources r <;> simp
  have hsums : free h r = h.free r := by
    unfold free
    rw [hwrapped,truncate_eq_iff.mpr
      ((words_free_iff hw).mpr ⟨hfits.cpu,hfits.memory,hfits.disk,hfits.count⟩)]
  refine ⟨?_,?_,?_,?_,wrappingBytes_exact_iff.mpr hmemory,wrappingBytes_exact_iff.mpr hdisk,hsums,?_⟩
  · simp only [consumeFeResources,canHandleFeResources,hwrapped]
    refine ⟨fun hok => (hconsumed hok).1,fun hok => ?_⟩
    rw [HostResources.consumeFeResources,hok]
  · intro e he
    exact eq_of_refused (Prod.ext rfl he)
  · intro e he
    rw [hsums] at he ⊢
    obtain ⟨g,hg,hmodel⟩ := free_error_iff.mp ⟨e,he⟩
    rcases hfits.model g hg with ⟨a,ha,heq⟩ | ⟨hcpu,hmem,hdsk⟩
    · exact absurd heq (hmodel a ha)
    · -- the request asks for the GPU only, which the host does not have
      rw [free_fst,hcpu,hmem,hdsk,Option.mem_def.mp hg]
      obtain ⟨cpu,memory,disk,_ | a⟩ := h
      · rfl
      · simp [hmodel a rfl]
  · simp only [consumeFeResources,free,hwrapped]
    intro hok
    obtain ⟨hhandles,heq⟩ := hconsumed hok
    rw [heq,hhandles.free_subtract,truncate_eq_iff.mpr hw]
  · intro d hlt hok
    rw [canHandleFeResources,hwrapped] at hok
    have := Handles.amount_subtract hok d
    omega

lemma Accounted.fits (hw : h.Words) (ha : Accounted h r) : Fits h r := by
  have hwrapped : r.wrapped=r := ContainerResources.wrapped_eq (wrappingBytes_exact_iff.mp ha.memory)
    (wrappingBytes_exact_iff.mp ha.disk)
  have htruncate : (h.free r).1.truncate = (h.free r).1 := by
    have := congrArg Prod.fst ha.sums
    rwa [free,hwrapped] at this
  obtain ⟨hcpu,hmemory,hdisk,hcount⟩ := (words_free_iff hw).mp (truncate_eq_iff.mp htruncate)
  refine ⟨hcpu,hmemory,hdisk,hcount,fun g hg => ?_⟩
  by_contra hno
  obtain ⟨hmodel,hrest⟩ := not_or.mp hno
  -- the host lacks the GPU, so freeing fails after it has added the rest
  obtain ⟨e,he⟩ := free_error_iff.mpr ⟨g,hg,fun a ha' heq => hmodel ⟨a,ha',heq⟩⟩
  have hsame := ha.unfreed e (by rw [ha.sums]; exact he)
  rw [ha.sums,free_fst] at hsame
  have hcpu' := congrArg cpuMsPerSec hsame
  have hmemory' := congrArg memoryBytes hsame
  have hdisk' := congrArg diskBytes hsame
  dsimp only at hcpu' hmemory' hdisk'
  exact hrest ⟨by omega,by omega,by omega⟩

/-- The accounting of a request on a host works exactly when the request fits in the words on top
of what the host has and the host has the GPU that it asks for or it asks for nothing else: a
failing `free` keeps what it has added. A request of a function that is refused leaves the host as
it was. -/
theorem accounted_iff (h : HostResources) (hw : h.Words) (r : ContainerResources) :
    (∀ fr e, (consumeFunctionResources h fr).2 = .error e → (consumeFunctionResources h fr).1 = h) ∧
    (Accounted h r ↔ Fits h r) :=
  ⟨fun _ _ => eq_of_function_refused,Accounted.fits hw,accounted_of_fits hw⟩

/-- The host has the GPU of the request. -/
theorem gpuRequest_accounted :
    Accounted ⟨4000,2^33,2^35,some ⟨2,"A100-40GB"⟩⟩ ⟨1000,512,1024,some ⟨1,"A100-40GB"⟩⟩ :=
  (accounted_iff _ ⟨by decide,by decide,by decide,by simp⟩ _).2.mpr
    ⟨by decide,by decide,by decide,by simp,by simp⟩

/-- A host without memory accepts a request for 2^44 mebibytes, a host without a GPU keeps the
CPU of a request that it fails to free, and the memory of a host wraps when one mebibyte is freed. -/
theorem large_request_accepted : canHandleFeResources ⟨0,0,0,none⟩ ⟨0,2^44,0,none⟩ = .ok () ∧
    free ⟨0,0,0,none⟩ ⟨1000,0,0,some ⟨1,"A100-40GB"⟩⟩ = (⟨1000,0,0,none⟩,.error .noGpuToFree) ∧
    free ⟨0,2^64-1,0,none⟩ ⟨0,1,0,none⟩ = (⟨0,2^20-1,0,none⟩,.ok ()) := by
  decide

end Wrapping
end HostResources
end Indexify
