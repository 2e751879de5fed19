import Indexify.DataModel.Application
import Indexify.DataModel.ResourceClaims

/-! The check of an application against the executors that a deployment can start. One scan of the
catalog is made for each function; the labels that were met stay met for the entries behind, and a
part of a core is not counted. The products with cores and gigabytes are natural numbers, exact in the
words of the source for fewer than `2^22` cores and `2^34` gigabytes. -/
namespace Indexify
open List

structure GpuModel where
  name : String
  count : ℕ

structure ExecutorCatalogEntry where
  cpuCores : ℕ
  memoryGb : ℕ
  diskGb : ℕ
  gpuModel : Option GpuModel
  labels : Dict String String

def HostResources.fromCatalogEntry (entry : ExecutorCatalogEntry) : HostResources where
  cpuMsPerSec := entry.cpuCores*1000
  memoryBytes := entry.memoryGb*1024*1024*1024
  diskBytes := entry.diskGb*1024*1024*1024
  gpu := entry.gpuModel.map fun model => ⟨model.count,model.name⟩

def FunctionResources.canBeHandledByCatalogEntry (r : FunctionResources) (entry : ExecutorCatalogEntry) :
    Bool := ((HostResources.fromCatalogEntry entry).canHandleFunctionResources r).isOk

namespace ExecutorCatalog

/-- What a message quotes besides the catalog: the function and what it asks for. -/
inductive SchedulingError
  | labels (function : String) (constraints : LabelsFilter)
  | cpu (function : String) (cores : ℕ)
  | memory (function : String) (megabytes : ℕ)
  | disk (function : String) (megabytes : ℕ)
  | gpuModels (function : String) (models : List String)
  deriving DecidableEq

structure Flags where
  hasCpu : Bool := false
  hasMem : Bool := false
  hasDisk : Bool := false
  hasGpuModels : Bool := false
  metPlacementConstraints : Bool := false

def Flags.all (flags : Flags) : Bool :=
  flags.metPlacementConstraints && flags.hasCpu && flags.hasMem && flags.hasDisk && flags.hasGpuModels

variable (f : Function) (flags : Flags) (entry : ExecutorCatalogEntry)

def look : Flags where
  metPlacementConstraints :=
    flags.metPlacementConstraints || f.placementConstraints.matches entry.labels
  hasCpu := f.resources.cpuMsPerSec/1000 ≤ entry.cpuCores
  hasMem := f.resources.memoryMb ≤ entry.memoryGb*1024
  hasDisk := f.resources.ephemeralDiskMb ≤ entry.diskGb*1024
  hasGpuModels := f.resources.gpuConfigs.isEmpty || entry.gpuModel.any fun model =>
    f.resources.gpuConfigs.any fun gpu => gpu.model=model.name && gpu.count ≤ model.count

def scan (flags : Flags) : List ExecutorCatalogEntry → Flags
  | [] => flags
  | entry::rest =>
    let flags := look f flags entry
    if flags.all then flags else scan flags rest

def checkFunction (entries : List ExecutorCatalogEntry) : Except SchedulingError Unit :=
  let flags := scan f {} entries
  if !flags.metPlacementConstraints then .error (.labels f.name f.placementConstraints)
  else if !flags.hasCpu then .error (.cpu f.name (f.resources.cpuMsPerSec/1000))
  else if !flags.hasMem then .error (.memory f.name f.resources.memoryMb)
  else if !flags.hasDisk then .error (.disk f.name f.resources.ephemeralDiskMb)
  else if !flags.hasGpuModels then
    .error (.gpuModels f.name (f.resources.gpuConfigs.map GPUResources.model))
  else .ok ()

/-- The functions come in the order of the map that holds them. -/
def canBeScheduled (entries : List ExecutorCatalogEntry) : List Function → Except SchedulingError Unit
  | [] => .ok ()
  | f::rest =>
    -- without a catalog there is nothing to check
    if entries.isEmpty then .ok ()
    else
      match checkFunction f entries with
      | .ok () => canBeScheduled entries rest
      | .error e => .error e

/-- An executor of the entry may and can run the function. -/
def Suits : Prop :=
  f.placementConstraints.matches entry.labels = true ∧
    f.resources.canBeHandledByCatalogEntry entry = true

/-- Whole cores, and labels that are on every entry with room for the function or on none. -/
structure Plain (entries : List ExecutorCatalogEntry) : Prop where
  cores : 1000 ∣ f.resources.cpuMsPerSec
  labels : (∀ entry∈entries, f.resources.canBeHandledByCatalogEntry entry = true →
      f.placementConstraints.matches entry.labels = true) ∨
    ∀ entry∈entries, f.placementConstraints.matches entry.labels = false

/-- What the flags of one entry say when the labels are met. -/
def hasRoom : Bool := (look f {metPlacementConstraints := true} entry).all

variable {f flags entry} {entries : List ExecutorCatalogEntry}

lemma all_look : (look f flags entry).all = true ↔ hasRoom f entry = true ∧
    (flags.metPlacementConstraints = true ∨ f.placementConstraints.matches entry.labels = true) := by
  simp only [hasRoom,Flags.all,look,Bool.true_or,Bool.true_and,Bool.and_eq_true,Bool.or_eq_true]
  tauto

lemma canBeHandledByCatalogEntry_iff : f.resources.canBeHandledByCatalogEntry entry = true ↔
    f.resources.cpuMsPerSec ≤ entry.cpuCores*1000 ∧ hasRoom f entry = true := by
  have hgpu : (∃ gpu∈f.resources.gpuConfigs, ∃ available∈(HostResources.fromCatalogEntry entry).gpu,
      gpu.count ≤ available.count ∧ available.model=gpu.model) ↔
      entry.gpuModel.any (fun model => f.resources.gpuConfigs.any fun gpu =>
        gpu.model=model.name && gpu.count ≤ model.count) = true := by
    unfold HostResources.fromCatalogEntry
    cases entry.gpuModel with
    | none => simp
    | some model => simp [and_comm,@eq_comm _ model.name]
  rw [FunctionResources.canBeHandledByCatalogEntry,HostResources.canHandleFunctionResources_iff,hgpu]
  simp only [hasRoom,Flags.all,look,HostResources.fromCatalogEntry,Bool.true_or,Bool.true_and,
    Bool.and_eq_true,Bool.or_eq_true,decide_eq_true_eq,List.isEmpty_iff]
  constructor
  · rintro ⟨hcpu,hmem,hdisk,hgpu⟩
    exact ⟨hcpu,⟨⟨by omega,by omega⟩,by omega⟩,hgpu⟩
  · rintro ⟨hcpu,⟨⟨-,hmem⟩,hdisk⟩,hgpu⟩
    exact ⟨hcpu,by omega,by omega,hgpu⟩

lemma scan_all_of_suits (h : ∃ entry∈entries, Suits f entry) : (scan f flags entries).all = true := by
  obtain ⟨entry,hentry,hsuits⟩ := h
  induction entries generalizing flags with
  | nil => cases hentry
  | cons e entries ih =>
    unfold scan
    dsimp only
    split_ifs with hall
    · exact hall
    · rcases mem_cons.mp hentry with rfl | hentry
      · exact absurd (all_look.mpr ⟨(canBeHandledByCatalogEntry_iff.mp hsuits.2).2,.inr hsuits.1⟩) hall
      · exact ih hentry

lemma of_scan_all (h : (scan f flags entries).all = true) (hflags : flags.all = false) :
    ∃ entry∈entries, hasRoom f entry = true ∧ (flags.metPlacementConstraints = true ∨
      ∃ labelled∈entries, f.placementConstraints.matches labelled.labels = true) := by
  induction entries generalizing flags with
  | nil => exact absurd h (hflags ▸ Bool.false_ne_true)
  | cons e entries ih =>
    unfold scan at h
    dsimp only at h
    split_ifs at h with hall
    · obtain ⟨hroom,hmet⟩ := all_look.mp hall
      exact ⟨e,mem_cons_self,hroom,hmet.imp_right fun hlabels => ⟨e,mem_cons_self,hlabels⟩⟩
    · obtain ⟨entry,hentry,hroom,hmet⟩ := ih h (Bool.eq_false_iff.mpr hall)
      refine ⟨entry,mem_cons_of_mem _ hentry,hroom,?_⟩
      simp only [look,Bool.or_eq_true] at hmet
      rcases hmet with (hmet | hlabels) | ⟨labelled,hmem,hlabels⟩
      · exact .inl hmet
      · exact .inr ⟨e,mem_cons_self,hlabels⟩
      · exact .inr ⟨labelled,mem_cons_of_mem _ hmem,hlabels⟩

lemma Plain.scan_all_iff (h : Plain f entries) :
    (scan f {} entries).all = true ↔ ∃ entry∈entries, Suits f entry := by
  refine ⟨fun hall => ?_,scan_all_of_suits⟩
  obtain ⟨entry,hentry,hroom,hmet⟩ := of_scan_all hall rfl
  obtain ⟨labelled,hlabelled,hlabels⟩ := hmet.resolve_left Bool.false_ne_true
  have hhandled : f.resources.canBeHandledByCatalogEntry entry = true := by
    have hcpu : f.resources.cpuMsPerSec/1000 ≤ entry.cpuCores := by
      simp only [hasRoom,Flags.all,look,Bool.and_eq_true,decide_eq_true_eq] at hroom
      exact hroom.1.1.1.2
    have hcores := h.cores
    exact canBeHandledByCatalogEntry_iff.mpr ⟨by omega,hroom⟩
  rcases h.labels with hevery | hnone
  · exact ⟨entry,hentry,hevery entry hentry hhandled,hhandled⟩
  · exact absurd hlabels (hnone labelled hlabelled ▸ Bool.false_ne_true)

lemma checkFunction_iff : checkFunction f entries = .ok () ↔ (scan f {} entries).all = true := by
  unfold checkFunction Flags.all
  dsimp only
  split_ifs <;> simp_all

lemma canBeScheduled_eq_ok_iff {functions : List Function} (hentries : entries≠[]) :
    canBeScheduled entries functions = .ok () ↔
      ∀ f∈functions, (scan f {} entries).all = true := by
  induction functions with
  | nil => exact iff_of_true rfl nofun
  | cons f functions ih =>
    rw [forall_mem_cons,← ih,← checkFunction_iff,canBeScheduled,
      if_neg (fun hnil => hentries (isEmpty_iff.mp hnil))]
    cases checkFunction f entries with
    | ok => simp
    | error e => simp

section
variable (cpuMsPerSec : ℕ)

/-- A function for machines in the zone `a`. -/
def zoned : Function :=
  ⟨"resize",[⟨"zone","a",.eq⟩],none,300000,⟨cpuMsPerSec,2048,1024,[⟨1,"T4"⟩,⟨2,"A10"⟩]⟩,⟨0⟩,1⟩

def small : ExecutorCatalogEntry := ⟨2,4,10,none,(∅ : Dict String String).insert "zone" "a"⟩

def large (zone : String) : ExecutorCatalogEntry :=
  ⟨8,32,100,some ⟨"A10",2⟩,(∅ : Dict String String).insert "zone" zone⟩

end

/-- The labels of the small machine are met, and then the large one has room. -/
example : canBeScheduled [small,large "b"] [zoned 4000] = .ok () ∧
    canBeScheduled [large "b",small] [zoned 4000] = .error (.cpu "resize" 4) := by decide +kernel

end ExecutorCatalog
end Indexify
