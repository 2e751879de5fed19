import Indexify.Processor.SchedulerState

/-! Choice of an executor for a workload. The random start of the scan is a parameter. -/
namespace Indexify
open List

inductive WorkloadKey
  | function («namespace» application functionName : String)
  | sandbox («namespace» : String)
  deriving DecidableEq

/-- Results of constraint checks by workload and executor class. -/
abbrev FeasibilityCache := Dict WorkloadKey (Dict ExecutorClass Bool)

namespace FeasibilityCache

def get (c : FeasibilityCache) (workload : WorkloadKey) (executorClass : ExecutorClass) :
    Option Bool := (c.lookup workload).bind fun byClass => byClass.lookup executorClass

def record (c : FeasibilityCache) (workload : WorkloadKey) (executorClass : ExecutorClass)
    (feasible : Bool) : FeasibilityCache :=
  c.insert workload (((c.lookup workload).getD ∅).insert executorClass feasible)

lemma get_record (c : FeasibilityCache) (w w' : WorkloadKey) (x x' : ExecutorClass) (b : Bool) :
    (c.record w x b).get w' x' = if w'=w ∧ x'=x then some b else c.get w' x' := by
  unfold record get
  rw [Dict.lookup_insert_if]
  by_cases hw : w'=w
  · subst hw
    rw [if_pos rfl,Option.bind_some,Dict.lookup_insert_if]
    by_cases hx : x'=x
    · simp [hx]
    · rw [if_neg hx,if_neg fun h => hx h.2]
      cases c.lookup w' <;> rfl
  · rw [if_neg hw,if_neg fun h => hw h.1]

end FeasibilityCache

/-- What a placement is for: the key of its cached checks and the inputs of the check. -/
structure Workload where
  key : WorkloadKey
  «namespace» : String
  application : String
  function : Option Function

namespace Workload

def ofFunction («namespace» application : String) (function : Function) : Workload where
  key := .function «namespace» application function.name
  «namespace» := «namespace»
  application := application
  function := some function

def ofSandbox («namespace» : String) : Workload where
  key := .sandbox «namespace»
  «namespace» := «namespace»
  application := ""
  function := none

def checkConstraints (w : Workload) (executor : ExecutorMetadata) : Bool :=
  ContainerScheduler.executorMatchesConstraints executor w.namespace w.application w.function

/-- The cached result for the class, or the check of this executor, which is then cached. -/
def feasible (w : Workload) (cache : FeasibilityCache) (executorClass : ExecutorClass)
    (executor : ExecutorMetadata) : Bool × FeasibilityCache :=
  match cache.get w.key executorClass with
  | some cached => (cached,cache)
  | none =>
    let isFeasible := w.checkConstraints executor
    (isFeasible,cache.record w.key executorClass isFeasible)

end Workload

namespace Placement
section
variable [HashOrder ExecutorId] (s : ContainerScheduler) (w : Workload)

/-- One class: some executor of it is checked unless the cache knows the class. -/
def visitClass (acc : FeasibilityCache × List ExecutorClass)
    (e : Sigma fun _ : ExecutorClass => Finset ExecutorId) : FeasibilityCache × List ExecutorClass :=
  match (HashOrder.toList e.2).head? with
  | none => acc
  | some executorId =>
    let r := match acc.1.get w.key e.1 with
      | some cached => (cached,acc.1)
      | none =>
        match s.executors.lookup executorId with
        | some executor => w.feasible acc.1 e.1 executor
        | none => (false,acc.1)
    (r.2,if r.1 then acc.2.insert e.1 else acc.2)

def computeEligibleClasses (cache : FeasibilityCache) : FeasibilityCache × List ExecutorClass :=
  s.executorsByClass.sets.entries.foldl (visitClass s w) (cache,[])

/-- The classes of the last placement, or of a check of all classes when there was none. -/
def blockingClasses (cache : FeasibilityCache) : FeasibilityCache × List ExecutorClass :=
  match s.lastPlacement with
  | some placement => (cache,placement.eligibleClasses)
  | none => computeEligibleClasses s w cache

end

def classOf (s : ContainerScheduler) (executorId : ExecutorId) (executor : ExecutorMetadata) :
    ExecutorClass := (s.executorClasses.lookup executorId).getD (.fromExecutor executor)

structure Scan where
  cache : FeasibilityCache
  eligibleClasses : List ExecutorClass := []
  feasibleCandidates : List (ExecutorId × ℕ) := []

def hasResources (s : ContainerScheduler) (executorId : ExecutorId)
    (resources : FunctionResources) : Bool :=
  match s.executorStates.lookup executorId with
  | none => false
  | some state =>
    if state.freeResources.cpuMsPerSec<resources.cpuMsPerSec then false
    else if state.freeResources.diskBytes<resources.ephemeralDiskMb*1024*1024 then false
    else (state.freeResources.canHandleFunctionResources resources).isOk

section
variable (s : ContainerScheduler) (w : Workload) (resources : FunctionResources)

/-- Exact in 64 bits for fewer than `2^44` megabytes. -/
def minMemoryBytes : ℕ := resources.memoryMb*1024*1024

def visit (acc : Scan) (e : ℕ ×ₗ ExecutorId) : Scan :=
  let snapshotFreeMemory := (ofLex e).1
  let executorId := (ofLex e).2
  match s.executors.lookup executorId with
  | none => acc
  | some executor =>
    if executor.tombstoned then acc
    else
      let executorClass := classOf s executorId executor
      let r := w.feasible acc.cache executorClass executor
      if r.1 then
        let acc := {acc with cache := r.2, eligibleClasses := acc.eligibleClasses.insert executorClass}
        if snapshotFreeMemory < minMemoryBytes resources then acc
        else if hasResources s executorId resources then
          {acc with feasibleCandidates := acc.feasibleCandidates++[(executorId,snapshotFreeMemory)]}
        else acc
      else {acc with cache := r.2}

/-- The scan stops at the candidate that reaches the limit. -/
def scan (limit : ℕ) : List (ℕ ×ₗ ExecutorId) → Scan → Scan
  | [],acc => acc
  | e::rest,acc =>
    let next := visit s w resources acc e
    if acc.feasibleCandidates.length<next.feasibleCandidates.length ∧
        limit ≤ next.feasibleCandidates.length then next
    else scan limit rest next

/-- The candidate with the most free memory, the last one among equals. -/
def bestCandidate (candidates : List (ExecutorId × ℕ)) : Option (ExecutorId × ℕ) :=
  candidates.foldl (fun best c =>
    match best with
    | none => some c
    | some b => if b.2 ≤ c.2 then some c else some b) none

def maxMemory : ℕ := ((Enumeration.ascending s.executorsByFreeMemory).getLast?.map
  fun e => (ofLex e).1).getD 0

/-- The entries with enough memory, from the random threshold up and then from the bottom. -/
def wrapped (randomMem : ℕ) : List (ℕ ×ₗ ExecutorId) :=
  let entries := Enumeration.ascending s.executorsByFreeMemory
  entries.filter (fun e => randomMem ≤ (ofLex e).1) ++
    entries.filter (fun e => minMemoryBytes resources ≤ (ofLex e).1 ∧ (ofLex e).1<randomMem)

variable [HashOrder ExecutorId]

/-- `random` picks the threshold among the values between the required and the largest free
memory. -/
def selectExecutor (cache : FeasibilityCache) (limit random : ℕ) : FeasibilityCache × PlacementResult :=
  if maxMemory s < minMemoryBytes resources then
    let r := computeEligibleClasses s w cache
    (r.1,⟨none,r.2⟩)
  else
    let randomMem := minMemoryBytes resources+
      random % (maxMemory s-minMemoryBytes resources+1)
    let r := scan s w resources limit (wrapped s resources randomMem) {cache := cache}
    (r.cache,⟨(bestCandidate r.feasibleCandidates).map Prod.fst,r.eligibleClasses⟩)

end

section
variable {s : ContainerScheduler} {w : Workload} {resources : FunctionResources}

lemma mem_of_bestCandidate {candidates : List (ExecutorId × ℕ)} {c : ExecutorId × ℕ}
    (h : bestCandidate candidates = some c) : c∈candidates := by
  have hfold : ∀ (cs : List (ExecutorId × ℕ)) (best : Option (ExecutorId × ℕ)),
      (cs.foldl (fun best c => match best with
        | none => some c
        | some b => if b.2 ≤ c.2 then some c else some b) best) = some c →
      c ∈ cs ∨ best = some c := by
    intro cs
    induction cs with
    | nil => exact fun _ hb => .inr hb
    | cons d cs ih =>
      intro best hb
      rcases ih _ hb with hc | hc
      · exact .inl (mem_cons_of_mem _ hc)
      cases best with
      | none =>
        cases hc
        exact .inl mem_cons_self
      | some b =>
        dsimp only at hc
        split_ifs at hc
        · cases hc
          exact .inl mem_cons_self
        · exact .inr hc
  rcases hfold candidates none h with hc | hc
  · exact hc
  · cases hc

structure Candidate (s : ContainerScheduler) (resources : FunctionResources) (id : ExecutorId) :
    Prop where
  known : ∃ executor, s.executors.lookup id = some executor ∧ executor.tombstoned=false
  resources : hasResources s id resources = true

lemma visit_candidates {acc : Scan} (h : ∀ c∈acc.feasibleCandidates, Candidate s resources c.1)
    (e : ℕ ×ₗ ExecutorId) :
    ∀ c ∈ (visit s w resources acc e).feasibleCandidates, Candidate s resources c.1 := by
  unfold visit
  dsimp only
  cases he : s.executors.lookup (ofLex e).2 with
  | none => exact h
  | some executor =>
    dsimp only
    split_ifs with ht hf hm hr
    · exact h
    · exact h
    · intro c hc
      rcases mem_append.mp hc with hc | hc
      · exact h c hc
      · obtain rfl := mem_singleton.mp hc
        exact ⟨⟨executor,he,by simpa using ht⟩,hr⟩
    · exact h
    · exact h

lemma scan_candidates {limit : ℕ} {es : List (ℕ ×ₗ ExecutorId)} {acc : Scan}
    (h : ∀ c∈acc.feasibleCandidates, Candidate s resources c.1) :
    ∀ c ∈ (scan s w resources limit es acc).feasibleCandidates, Candidate s resources c.1 := by
  induction es generalizing acc with
  | nil => exact h
  | cons e es ih =>
    unfold scan
    dsimp only
    split_ifs
    · exact visit_candidates h e
    · exact ih (visit_candidates h e)

lemma selectExecutor_candidate [HashOrder ExecutorId] {cache : FeasibilityCache} {limit random : ℕ}
    {id : ExecutorId} (h : (selectExecutor s w resources cache limit random).2.executorId = some id) :
    Candidate s resources id := by
  unfold selectExecutor at h
  split_ifs at h
  obtain ⟨c,hc,rfl⟩ := Option.map_eq_some_iff.mp h
  exact scan_candidates (fun c hc => (not_mem_nil hc).elim) c (mem_of_bestCandidate hc)

end
end Placement
end Indexify
