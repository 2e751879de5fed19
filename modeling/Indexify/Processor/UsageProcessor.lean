import Indexify.Library.Trace
import Indexify.StateStore.Payloads

/-! The usage processor. It keeps the application versions that it has read under their name and
version, without the namespace, and a version that is not stored is read from the current
application. -/
namespace Indexify.UsageProcessor
open Dict

structure AllocationUsageEvent where
  «namespace» : String
  application : String
  applicationVersion : String
  requestId : String
  allocationId : String
  executionDurationMs : ℕ
  function : String

inductive GpuModel
  | nvidiaA10040GB | nvidiaA10080GB | nvidiaH10080GB | nvidiaTeslaT4 | nvidiaA6000 | nvidiaA10
  | unknown
  deriving DecidableEq

def GpuModel.ofString : String → GpuModel
  | "GPU_MODEL_NVIDIA_A100_40GB" => nvidiaA10040GB
  | "GPU_MODEL_NVIDIA_A100_80GB" => nvidiaA10080GB
  | "GPU_MODEL_NVIDIA_H100_80GB" => nvidiaH10080GB
  | "GPU_MODEL_NVIDIA_TESLA_T4" => nvidiaTeslaT4
  | "GPU_MODEL_NVIDIA_A6000" => nvidiaA6000
  | "GPU_MODEL_NVIDIA_A10" => nvidiaA10
  | _ => unknown

inductive ApplicationsResourceType
  | cpu | diskMb | memoryMb
  | gpu (models : List GpuModel)
  deriving DecidableEq

structure ApplicationResourceUsage where
  resource : ApplicationsResourceType
  amount : ℕ
  application : String
  allocationId : String
  requestId : String
  deriving DecidableEq

structure UsageEvent where
  applicationUsage : List ApplicationResourceUsage
  eventId : String
  projectId : String
  deriving DecidableEq

/-- The event for a function with these resources. The products wrap in 64 bits. -/
def UsageEvent.tryFrom (e : AllocationUsageEvent) (r : FunctionResources) : UsageEvent :=
  let usage (resource : ApplicationsResourceType) (amount : ℕ) : ApplicationResourceUsage :=
    ⟨resource,amount,e.application,e.allocationId,e.requestId⟩
  let entries := [usage .cpu (r.cpuMsPerSec*e.executionDurationMs%2^64/1000),
    usage .diskMb (r.ephemeralDiskMb*e.executionDurationMs%2^64/1000),
    usage .memoryMb (r.memoryMb*e.executionDurationMs%2^64/1000)]
  let models := r.gpuConfigs.flatMap fun g => .replicate g.count (GpuModel.ofString g.model)
  ⟨if r.gpuConfigs.isEmpty then entries
    else entries++[usage (.gpu models) (e.executionDurationMs/1000)],e.allocationId,e.namespace⟩

/-- The rows of versions and applications, and the definitions that were read. -/
structure State where
  versions : Dict String ApplicationVersion := ∅
  applications : Dict String Application := ∅
  applicationDefinitions : Dict (String × String) ApplicationVersion := ∅

inductive Event
  | storeVersion (key : String) (av : Option ApplicationVersion)
  | storeApplication (key : String) (app : Option Application)
  | usage (e : AllocationUsageEvent)

namespace AllocationUsageEvent

def versionKey (e : AllocationUsageEvent) : String :=
  ApplicationVersion.keyFrom e.namespace e.application e.applicationVersion

def applicationKey (e : AllocationUsageEvent) : String :=
  Application.keyFrom e.namespace e.application

/-- The key of the definitions, `ApplicationDefinitions` in the source. -/
def definitionKey (e : AllocationUsageEvent) : String × String := (e.application,e.applicationVersion)

end AllocationUsageEvent

/-- Falls back to the current application, whatever its version is. -/
def getApplicationVersion (s : State) (e : AllocationUsageEvent) : Option ApplicationVersion :=
  (s.versions.lookup e.versionKey).or
    ((s.applications.lookup e.applicationKey).map Application.toVersion)

/-- The version of an event. It comes from the definitions if they have one of this name. -/
def eventVersion (s : State) (e : AllocationUsageEvent) : State × Option ApplicationVersion :=
  match s.applicationDefinitions.lookup e.definitionKey with
  | some av => (s,some av)
  | none =>
    match getApplicationVersion s e with
    | none => (s,none)
    | some av =>
      ({s with applicationDefinitions := s.applicationDefinitions.insert e.definitionKey av},some av)

def sendToQueue (s : State) (e : AllocationUsageEvent) : State × Except String UsageEvent :=
  match eventVersion s e with
  | (s,none) => (s,.error s!"application definition not found for application: {e.application}, version: {e.applicationVersion}")
  | (s,some av) =>
    match av.functions.lookup e.function with
    | none => (s,.error s!"function definition not found for function: {e.function}")
    | some f => (s,.ok (.tryFrom e f.resources))

def step (s : State) : Event → State
  | .storeVersion key (some av) => {s with versions := s.versions.insert key av}
  | .storeVersion key none => {s with versions := s.versions.erase key}
  | .storeApplication key (some app) => {s with applications := s.applications.insert key app}
  | .storeApplication key none => {s with applications := s.applications.erase key}
  | .usage e => (sendToQueue s e).1

/-- The version of a usage event is stored with the functions that belong to its name and version,
or neither it nor the application nor a definition of this name is there. -/
def Uniform (functions : String × String → Dict String Function) (s : State) : Event → Prop
  | .storeVersion _ _ | .storeApplication _ _ => True
  | .usage e =>
    (∃ av, s.versions.lookup e.versionKey = some av ∧ av.functions = functions e.definitionKey) ∨
    getApplicationVersion s e = none ∧ s.applicationDefinitions.lookup e.definitionKey = none

variable {functions : String × String → Dict String Function} {s : State}

/-- The definitions that were read are those of the names and versions. -/
def Kept (functions : String × String → Dict String Function) (s : State) : Prop :=
  ∀ {k av}, s.applicationDefinitions.lookup k = some av → av.functions = functions k

/-- The version that an event is computed from. -/
lemma Kept.eventVersion (h : Kept functions s) {e : AllocationUsageEvent}
    (he : Uniform functions s (.usage e)) : Kept functions (eventVersion s e).1 ∧
      ∀ av, (UsageProcessor.eventVersion s e).2 = some av →
        ∃ own, s.versions.lookup e.versionKey = some own ∧ own.functions = av.functions := by
  rcases he with ⟨own,hown,hfunctions⟩ | ⟨hmissing,hnew⟩
  · have hread : getApplicationVersion s e = some own := by rw [getApplicationVersion,hown,Option.some_or]
    unfold UsageProcessor.eventVersion
    split
    next av hav =>
      refine ⟨h,?_⟩
      rintro _ ⟨⟩
      exact ⟨own,hown,hfunctions.trans (h hav).symm⟩
    · rw [hread]
      refine ⟨of_lookup_insert h hfunctions,?_⟩
      rintro _ ⟨⟩
      exact ⟨own,hown,rfl⟩
  · simp only [UsageProcessor.eventVersion,hnew,hmissing]
    exact ⟨h,nofun⟩

lemma sendToQueue_fst (s : State) (e : AllocationUsageEvent) :
    (sendToQueue s e).1 = (eventVersion s e).1 := by
  unfold sendToQueue
  split
  next hv => rw [hv]
  next hv =>
    rw [hv]
    split <;> rfl

lemma Kept.step (h : Kept functions s) {ev : Event} (hev : Uniform functions s ev) :
    Kept functions (step s ev) := by
  cases ev with
  | storeVersion key av => cases av <;> exact h
  | storeApplication key app => cases app <;> exact h
  | usage e =>
    change Kept functions (sendToQueue s e).1
    rw [sendToQueue_fst]
    exact (h.eventVersion hev).1

/-- In every history in which the version of each usage event is stored and its name and version
determine its functions in all namespaces, each event sent is computed from the function that is
stored for its own version. -/
theorem usage_from_own_version (functions : String × String → Dict String Function)
    (history : List Event) (hrun : Trace.Along step (Uniform functions) {} history)
    (e : AllocationUsageEvent) (he : Uniform functions (history.foldl step {}) (.usage e))
    (u : UsageEvent) (hsent : (sendToQueue (history.foldl step {}) e).2 = .ok u) :
    ∃ av f, (history.foldl step {}).versions.lookup e.versionKey = some av ∧
      av.functions.lookup e.function = some f ∧ u = .tryFrom e f.resources := by
  have hkept := @Trace.Along.invariant _ _ step (Uniform functions) (Kept functions)
    (fun h hev => h.step hev) {} history nofun hrun
  have hversion := (hkept.eventVersion he).2
  unfold sendToQueue at hsent
  split at hsent
  · cases hsent
  next av hv =>
    obtain ⟨own,hown,hfunctions⟩ := hversion av (by rw [hv])
    split at hsent
    · cases hsent
    next f hf =>
      cases hsent
      exact ⟨own,f,hown,by rw [hfunctions,hf],rfl⟩

def cpuVersion (ns version : String) (cpu : ℕ) : ApplicationVersion :=
  ⟨ns,"app",version,
    (∅ : Dict String Function).insert "f" ⟨"f",[],none,0,⟨cpu,0,0,[]⟩,⟨0⟩,1⟩,.active⟩

def oneSecond (ns version : String) : AllocationUsageEvent := ⟨ns,"app",version,"r","a",1000,"f"⟩

/-- Two namespaces have the same first version, and one of them a second one that differs. Events of
both are processed before. -/
def sharedVersions : List Event :=
  [.storeVersion "a|app|1" (some (cpuVersion "a" "1" 500)),
    .storeVersion "b|app|1" (some (cpuVersion "b" "1" 500)),
    .usage (oneSecond "c" "1"),.usage (oneSecond "a" "1"),
    .storeVersion "b|app|2" (some (cpuVersion "b" "2" 2000)),.usage (oneSecond "b" "1")]

theorem sharedVersions_own_version : ∃ u av f,
    (sendToQueue (sharedVersions.foldl step {}) (oneSecond "b" "2")).2 = .ok u ∧
    (sharedVersions.foldl step {}).versions.lookup "b|app|2" = some av ∧
    av.functions.lookup "f" = some f ∧ u = .tryFrom (oneSecond "b" "2") f.resources ∧
    u.applicationUsage.map ApplicationResourceUsage.amount = [2000,0,0] := by
  have hsent : (sendToQueue (sharedVersions.foldl step {}) (oneSecond "b" "2")).2 =
      .ok (.tryFrom (oneSecond "b" "2") ⟨2000,0,0,[]⟩) := rfl
  obtain ⟨av,f,hav,hf,hu⟩ := usage_from_own_version
    (fun k => if k.2="1" then (cpuVersion "a" "1" 500).functions else (cpuVersion "b" "2" 2000).functions)
    sharedVersions
    ⟨trivial,trivial,.inr ⟨rfl,rfl⟩,.inl ⟨_,rfl,rfl⟩,trivial,.inl ⟨_,rfl,rfl⟩,trivial⟩
    (oneSecond "b" "2") (.inl ⟨_,rfl,rfl⟩) _ hsent
  exact ⟨_,av,f,hsent,hav,hf,hu,by decide⟩

/-- The second namespace is charged for the CPU of the first, and an event of a version that is not
stored is charged for the current application. -/
theorem charged_for_other_namespace :
    let s := [.storeVersion "a|app|1" (some (cpuVersion "a" "1" 500)),
      .storeVersion "b|app|1" (some (cpuVersion "b" "1" 2000)),.usage (oneSecond "a" "1")].foldl step {}
    let s' := step {} (.storeApplication "a|app" (some ⟨"a","app","2",(cpuVersion "a" "2" 700).functions,.active⟩))
    (sendToQueue s (oneSecond "b" "1")).2.toOption =
      some (.tryFrom (oneSecond "b" "1") ⟨500,0,0,[]⟩) ∧
    (s.versions.lookup "b|app|1").bind (fun av => (av.functions.lookup "f").map Function.resources) =
      some ⟨2000,0,0,[]⟩ ∧
    (sendToQueue s' (oneSecond "a" "1")).2.toOption =
      some (.tryFrom (oneSecond "a" "1") ⟨700,0,0,[]⟩) ∧
    (s'.versions.lookup "a|app|1").isNone := by
  decide

end Indexify.UsageProcessor
