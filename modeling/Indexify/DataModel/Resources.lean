import Mathlib.Algebra.Order.Ring.Nat

/-! Resource requests and the free resources of a host. The operations that mutate a host
return the host after the call together with the result, so that what a failing call leaves
behind is visible. Byte and CPU quantities are natural numbers: the products with which the source
turns megabytes into bytes are exact in its 64-bit words for fewer than `2^44` megabytes. -/
namespace Indexify

structure GPUResources where
  count : ℕ
  model : String
  deriving DecidableEq

def GPUResources.canHandle (available requested : GPUResources) : Bool :=
  available.count ≥ requested.count && available.model = requested.model

structure FunctionResources where
  cpuMsPerSec : ℕ
  memoryMb : ℕ
  ephemeralDiskMb : ℕ
  gpuConfigs : List GPUResources
  deriving DecidableEq

structure ContainerResources where
  cpuMsPerSec : ℕ
  memoryMb : ℕ
  ephemeralDiskMb : ℕ
  gpu : Option GPUResources
  deriving DecidableEq

def FunctionResources.withGpu (r : FunctionResources) (gpu : Option GPUResources) :
    ContainerResources := ⟨r.cpuMsPerSec,r.memoryMb,r.ephemeralDiskMb,gpu⟩

/-- Why a host refuses a request, with the quantities the message quotes. -/
inductive ResourceError
  | notEnoughCpu (available requested : ℕ)
  | notEnoughMemory (available requested : ℕ)
  | notEnoughDisk (available requested : ℕ)
  | notEnoughGpu (available requested : GPUResources)
  | noGpu (requested : GPUResources)
  | noGpuConfig (requested : List GPUResources) (available : Option GPUResources)
  | gpuModelMismatch (available allocated : String)
  | noGpuToFree
  deriving DecidableEq

structure HostResources where
  cpuMsPerSec : ℕ
  memoryBytes : ℕ
  diskBytes : ℕ
  gpu : Option GPUResources
  deriving DecidableEq

namespace HostResources

def canHandleGpu (h : HostResources) : Option GPUResources → Except ResourceError Unit
  | none => .ok ()
  | some requested =>
    match h.gpu with
    | none => .error (.noGpu requested)
    | some available =>
      if available.canHandle requested then .ok ()
      else .error (.notEnoughGpu available requested)

def canHandleFeResources (h : HostResources) (r : ContainerResources) : Except ResourceError Unit :=
  let requestedMemoryBytes := r.memoryMb*1024*1024
  let requestedDiskBytes := r.ephemeralDiskMb*1024*1024
  if h.cpuMsPerSec<r.cpuMsPerSec then .error (.notEnoughCpu h.cpuMsPerSec r.cpuMsPerSec)
  else if h.memoryBytes<requestedMemoryBytes then
    .error (.notEnoughMemory h.memoryBytes requestedMemoryBytes)
  else if h.diskBytes<requestedDiskBytes then
    .error (.notEnoughDisk h.diskBytes requestedDiskBytes)
  else h.canHandleGpu r.gpu

/-- Any one of the acceptable GPU configurations is enough; the last refusal is reported. -/
def canHandleFunctionResources (h : HostResources) (r : FunctionResources) : Except ResourceError Unit :=
  let rec go (last : Except ResourceError Unit) : List GPUResources → Except ResourceError Unit
    | [] => last
    | gpu::rest =>
      match h.canHandleFeResources (r.withGpu (some gpu)) with
      | .ok () => .ok ()
      | .error e => go (.error e) rest
  go (h.canHandleFeResources (r.withGpu none)) r.gpuConfigs

/-- The subtraction after a passed check; the model of the GPU is not looked at again. -/
def subtract (h : HostResources) (r : ContainerResources) : HostResources where
  cpuMsPerSec := h.cpuMsPerSec-r.cpuMsPerSec
  memoryBytes := h.memoryBytes-r.memoryMb*1024*1024
  diskBytes := h.diskBytes-r.ephemeralDiskMb*1024*1024
  gpu :=
    match r.gpu,h.gpu with
    | some requested,some available => some {available with count := available.count-requested.count}
    | _,available => available

def consumeFeResources (h : HostResources) (r : ContainerResources) :
    HostResources × Except ResourceError Unit :=
  match h.canHandleFeResources r with
  | .ok () => (h.subtract r,.ok ())
  | .error e => (h,.error e)

/-- Natural subtraction is the saturating subtraction of the server. -/
def forceConsumeFeResources (h : HostResources) (r : ContainerResources) : HostResources :=
  h.subtract r

/-- CPU, memory and disk are given back before the GPU is looked at. -/
def free (h : HostResources) (r : ContainerResources) : HostResources × Except ResourceError Unit :=
  let h := {h with
    cpuMsPerSec := h.cpuMsPerSec+r.cpuMsPerSec
    memoryBytes := h.memoryBytes+r.memoryMb*1024*1024
    diskBytes := h.diskBytes+r.ephemeralDiskMb*1024*1024}
  match r.gpu,h.gpu with
  | none,_ => (h,.ok ())
  | some allocated,some available =>
    if available.model=allocated.model then
      ({h with gpu := some {available with count := available.count+allocated.count}},.ok ())
    else (h,.error (.gpuModelMismatch available.model allocated.model))
  | some _,none => (h,.error .noGpuToFree)

end HostResources
end Indexify
