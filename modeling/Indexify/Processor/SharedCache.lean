import Indexify.Processor.EligibleClasses

/-! One feasibility cache for all placements of a batch. Its key names the function but not the
version, so the answers are right as long as the versions that meet in a batch agree on their
placement constraints. -/
namespace Indexify
open List

def Workload.SameChecks (w w' : Workload) : Prop :=
  w.namespace = w'.namespace ∧
    match w.function,w'.function with
    | none,none => True
    | some f,some f' => w.application=w'.application ∧ f.name=f'.name ∧
        f.placementConstraints = f'.placementConstraints
    | _,_ => False

instance (w w' : Workload) : Decidable (w.SameChecks w') := by
  unfold Workload.SameChecks
  split <;> infer_instance

lemma Workload.SameChecks.checkConstraints {w w' : Workload} (h : w.SameChecks w')
    (e : ExecutorMetadata) : w.checkConstraints e = w'.checkConstraints e := by
  unfold Workload.SameChecks at h
  unfold Workload.checkConstraints ContainerScheduler.executorMatchesConstraints
  rw [h.1]
  cases hf : w.function with
  | none =>
    cases hf' : w'.function with
    | none => rfl
    | some f' => simp [hf,hf'] at h
  | some f =>
    cases hf' : w'.function with
    | none => simp [hf,hf'] at h
    | some f' =>
      simp only [hf,hf'] at h
      obtain ⟨-,ha,hn,hc⟩ := h
      unfold ExecutorMetadata.isFunctionAllowed
      simp only [ha,hc,FunctionAllowlist.matchesFunction,hn]

namespace Placement
open ContainerScheduler

def Answers (w : Workload) (c : ExecutorClass) (answer : Bool) : Prop :=
  ∀ e : ExecutorMetadata, e.tombstoned=false → ExecutorClass.fromExecutor e = c →
    w.checkConstraints e = answer

def Sound (w : Workload) (cache : FeasibilityCache) : Prop :=
  ∀ c answer, cache.get w.key c = some answer → Answers w c answer

def Adds (w : Workload) (cache cache' : FeasibilityCache) : Prop :=
  ∀ key c answer, cache'.get key c = some answer →
    cache.get key c = some answer ∨ key=w.key ∧ Answers w c answer

section
variable {w : Workload} {cache cache' cache'' : FeasibilityCache} {e : ExecutorMetadata}

lemma sound_empty (w : Workload) : Sound w ∅ := by
  intro c answer h
  cases h

lemma Adds.refl (w : Workload) (cache : FeasibilityCache) : Adds w cache cache :=
  fun _ _ _ h => .inl h

lemma Adds.trans (h : Adds w cache cache') (h' : Adds w cache' cache'') : Adds w cache cache'' := by
  intro key c answer hget
  rcases h' key c answer hget with hget | hright
  · exact h key c answer hget
  · exact .inr hright

lemma Sound.adds (hs : Sound w cache) (h : Adds w cache cache') : Sound w cache' := by
  intro c answer hget
  rcases h w.key c answer hget with hget | ⟨-,hright⟩
  · exact hs c answer hget
  · exact hright

lemma answers_checkConstraints (he : e.tombstoned=false) :
    Answers w (.fromExecutor e) (w.checkConstraints e) :=
  fun _ he' hclass => checkConstraints_eq hclass he' he

lemma adds_feasible (he : e.tombstoned=false) :
    Adds w cache (w.feasible cache (.fromExecutor e) e).2 := by
  unfold Workload.feasible
  cases hget : cache.get w.key (.fromExecutor e) with
  | some answer => exact Adds.refl w cache
  | none =>
    intro key c answer hnew
    rw [FeasibilityCache.get_record] at hnew
    split_ifs at hnew with hk
    · obtain ⟨rfl,rfl⟩ := hk
      cases hnew
      exact .inr ⟨rfl,answers_checkConstraints he⟩
    · exact .inl hnew

lemma Sound.feasible_eq (hs : Sound w cache) (he : e.tombstoned=false) :
    (w.feasible cache (.fromExecutor e) e).1 = w.checkConstraints e := by
  unfold Workload.feasible
  cases hget : cache.get w.key (.fromExecutor e) with
  | none => rfl
  | some answer => exact (hs _ _ hget e he rfl).symm

end

/-! ### The answers a call uses -/

section
variable (s : ContainerScheduler) (w : Workload)

def visitAnswer (acc : Scan) (entry : ℕ ×ₗ ExecutorId) : List (ExecutorId × Bool) :=
  match s.executors.lookup (ofLex entry).2 with
  | none => []
  | some executor =>
    if executor.tombstoned then []
    else [((ofLex entry).2, (w.feasible acc.cache (classOf s (ofLex entry).2 executor) executor).1)]

def scanAnswers (resources : FunctionResources) (limit : ℕ) :
    List (ℕ ×ₗ ExecutorId) → Scan → List (ExecutorId × Bool)
  | [],_ => []
  | entry::rest,acc =>
    let next := visit s w resources acc entry
    visitAnswer s w acc entry ++
      if acc.feasibleCandidates.length<next.feasibleCandidates.length ∧
        limit ≤ next.feasibleCandidates.length then []
      else scanAnswers resources limit rest next

variable [HashOrder ExecutorId]

/-- The answer for a class, found through its first executor and used for all of them. -/
def visitClassAnswers (acc : FeasibilityCache × List ExecutorClass)
    (e : Sigma fun _ : ExecutorClass => Finset ExecutorId) : List (ExecutorId × Bool) :=
  match (HashOrder.toList e.2).head? with
  | none => []
  | some executorId =>
    let answer := match acc.1.get w.key e.1 with
      | some cached => cached
      | none =>
        match s.executors.lookup executorId with
        | some executor => w.checkConstraints executor
        | none => false
    (HashOrder.toList e.2).map fun id => (id,answer)

def classAnswers : List (Sigma fun _ : ExecutorClass => Finset ExecutorId) →
    FeasibilityCache × List ExecutorClass → List (ExecutorId × Bool)
  | [],_ => []
  | e::rest,acc => visitClassAnswers s w acc e++classAnswers rest (visitClass s w acc e)

def computeEligibleClassesAnswers (cache : FeasibilityCache) : List (ExecutorId × Bool) :=
  classAnswers s w s.executorsByClass.sets.entries (cache,[])

def selectExecutorAnswers (resources : FunctionResources) (cache : FeasibilityCache)
    (limit random : ℕ) : List (ExecutorId × Bool) :=
  if maxMemory s < minMemoryBytes resources then computeEligibleClassesAnswers s w cache
  else scanAnswers s w resources limit (wrapped s resources (minMemoryBytes resources+
    random % (maxMemory s-minMemoryBytes resources+1))) {cache := cache}

end

def Right (s : ContainerScheduler) (w : Workload) (answer : ExecutorId × Bool) : Prop :=
  ∃ e, s.executors.lookup answer.1 = some e ∧ answer.2 = w.checkConstraints e

section
variable {s : ContainerScheduler} {w : Workload} {resources : FunctionResources}
variable (hs : s.background.Classified)
include hs

lemma classOf_eq {id : ExecutorId} {e : ExecutorMetadata} (hid : s.executors.lookup id = some e)
    (he : e.tombstoned=false) : classOf s id e = .fromExecutor e := by
  have hclass : s.executorClasses.lookup id = some (.fromExecutor e) := hs.live hid he
  rw [classOf,hclass]
  rfl

/-- What a visit does when the cache is sound: the cache plays no role. -/
def visitChecked (s : ContainerScheduler) (w : Workload) (resources : FunctionResources)
    (found : List ExecutorClass × List (ExecutorId × ℕ)) (entry : ℕ ×ₗ ExecutorId) :
    List ExecutorClass × List (ExecutorId × ℕ) :=
  match s.executors.lookup (ofLex entry).2 with
  | none => found
  | some e =>
    if e.tombstoned=false ∧ w.checkConstraints e = true then
      (found.1.insert (.fromExecutor e),
        if (ofLex entry).1 < minMemoryBytes resources then found.2
        else if hasResources s (ofLex entry).2 resources then
          found.2++[((ofLex entry).2,(ofLex entry).1)]
        else found.2)
    else found

lemma visit_checked {acc : Scan} (hacc : Sound w acc.cache) (entry : ℕ ×ₗ ExecutorId) :
    Adds w acc.cache (visit s w resources acc entry).cache ∧
      ((visit s w resources acc entry).eligibleClasses,
        (visit s w resources acc entry).feasibleCandidates) =
        visitChecked s w resources (acc.eligibleClasses,acc.feasibleCandidates) entry ∧
      ∀ answer ∈ visitAnswer s w acc entry, Right s w answer := by
  unfold visit visitAnswer visitChecked
  dsimp only
  cases hid : s.executors.lookup (ofLex entry).2 with
  | none => exact ⟨Adds.refl _ _,rfl,by simp⟩
  | some e =>
    dsimp only
    cases he : e.tombstoned with
    | true => exact ⟨Adds.refl _ _,by simp,by simp⟩
    | false =>
      have hadds : Adds w acc.cache (w.feasible acc.cache (.fromExecutor e) e).2 := adds_feasible he
      have hcheck := hacc.feasible_eq he
      rw [classOf_eq hs hid he]
      have hright : Right s w ((ofLex entry).2,w.checkConstraints e) := ⟨e,hid,rfl⟩
      simp only [Bool.false_eq_true,if_false,hcheck,true_and,mem_singleton,forall_eq,hright,and_true]
      split_ifs
      · exact ⟨hadds,rfl⟩
      · exact ⟨hadds,rfl⟩
      · exact ⟨hadds,rfl⟩
      · exact ⟨hadds,rfl⟩

lemma scan_checked (resources : FunctionResources) (limit : ℕ) (es : List (ℕ ×ₗ ExecutorId))
    {acc acc' : Scan} (hacc : Sound w acc.cache) (hacc' : Sound w acc'.cache)
    (he : acc.eligibleClasses=acc'.eligibleClasses)
    (hc : acc.feasibleCandidates=acc'.feasibleCandidates) :
    Adds w acc.cache (scan s w resources limit es acc).cache ∧
      (scan s w resources limit es acc).eligibleClasses =
        (scan s w resources limit es acc').eligibleClasses ∧
      (scan s w resources limit es acc).feasibleCandidates =
        (scan s w resources limit es acc').feasibleCandidates ∧
      ∀ answer ∈ scanAnswers s w resources limit es acc, Right s w answer := by
  induction es generalizing acc acc' with
  | nil => exact ⟨Adds.refl _ _,he,hc,by simp [scanAnswers]⟩
  | cons entry es ih =>
    obtain ⟨hadds,hfound,hright⟩ := @visit_checked s w resources hs acc hacc entry
    obtain ⟨hadds',hfound',-⟩ := @visit_checked s w resources hs acc' hacc' entry
    rw [he,hc,← hfound'] at hfound
    obtain ⟨he',hc'⟩ := Prod.mk.inj hfound
    unfold scan scanAnswers
    dsimp only
    rw [hc,hc']
    split_ifs with hstop
    · exact ⟨hadds,he',hc',by simpa using hright⟩
    obtain ⟨ha,h1,h2,h3⟩ := ih (hacc.adds hadds) (hacc'.adds hadds') he' hc'
    refine ⟨hadds.trans ha,h1,h2,?_⟩
    intro answer hanswer
    rcases mem_append.mp hanswer with h | h
    · exact hright answer h
    · exact h3 answer h

omit hs
end

section
variable [HashOrder ExecutorId] {s : ContainerScheduler} {w : Workload}
variable (hs : s.background.Classified)
include hs

lemma visitClass_checked {acc : FeasibilityCache × List ExecutorClass} (hacc : Sound w acc.1)
    {c : ExecutorClass} {ids : Finset ExecutorId} (hids : s.executorsByClass.sets.lookup c = some ids) :
    ∃ answer : Bool, Answers w c answer ∧ Adds w acc.1 (visitClass s w acc ⟨c,ids⟩).1 ∧
      (visitClass s w acc ⟨c,ids⟩).2 = (if answer then acc.2.insert c else acc.2) ∧
      visitClassAnswers s w acc ⟨c,ids⟩ = (HashOrder.toList ids).map fun id => (id,answer) := by
  obtain ⟨id,e,hhead,hid,he,rfl⟩ := head_executorsByClass hs hids
  refine ⟨w.checkConstraints e,answers_checkConstraints he,?_⟩
  rw [visitClass_eq hhead hid]
  rw [hacc.feasible_eq he]
  refine ⟨adds_feasible he,rfl,?_⟩
  unfold visitClassAnswers
  simp only [hhead,hid]
  cases hget : acc.1.get w.key (.fromExecutor e) with
  | none => rfl
  | some answer => rw [hacc _ _ hget e he rfl]

lemma foldl_visitClass_checked {es : List (Sigma fun _ : ExecutorClass => Finset ExecutorId)}
    (hes : ∀ e∈es, s.executorsByClass.sets.lookup e.1 = some e.2)
    {acc acc' : FeasibilityCache × List ExecutorClass} (hacc : Sound w acc.1) (hacc' : Sound w acc'.1)
    (hc : acc.2=acc'.2) :
    Adds w acc.1 (es.foldl (visitClass s w) acc).1 ∧
      (es.foldl (visitClass s w) acc).2 = (es.foldl (visitClass s w) acc').2 ∧
      ∀ answer ∈ classAnswers s w es acc, Right s w answer := by
  induction es generalizing acc acc' with
  | nil => exact ⟨Adds.refl _ _,hc,by simp [classAnswers]⟩
  | cons e es ih =>
    have hids := hes e mem_cons_self
    obtain ⟨answer,ha,hadds,hout,hanswers⟩ := visitClass_checked hs hacc hids
    obtain ⟨answer',ha',hadds',hout',-⟩ := visitClass_checked hs hacc' hids
    obtain ⟨-,e₀,-,-,he₀,hclass⟩ := head_executorsByClass hs hids
    have hsame : answer=answer' := (ha e₀ he₀ hclass).symm.trans (ha' e₀ he₀ hclass)
    have hnext : (visitClass s w acc e).2 = (visitClass s w acc' e).2 := by
      rw [hout,hout',hc,hsame]
    obtain ⟨hrest,heq,hright⟩ := ih (fun e he => hes e (mem_cons_of_mem _ he))
      (hacc.adds hadds) (hacc'.adds hadds') hnext
    refine ⟨hadds.trans hrest,heq,?_⟩
    intro a hmem
    rcases mem_append.mp hmem with hmem | hmem
    · rw [hanswers] at hmem
      obtain ⟨id,hid,rfl⟩ := mem_map.mp hmem
      obtain ⟨e',hlookup,he',hclass'⟩ := executor_of_mem hs hids (HashOrder.mem_toList.mp hid)
      exact ⟨e',hlookup,(ha e' he' hclass').symm⟩
    · exact hright a hmem

lemma computeEligibleClasses_checked {cache : FeasibilityCache} (hc : Sound w cache) :
    Adds w cache (computeEligibleClasses s w cache).1 ∧
      (computeEligibleClasses s w cache).2 = (computeEligibleClasses s w ∅).2 ∧
      ∀ answer ∈ computeEligibleClassesAnswers s w cache, Right s w answer :=
  foldl_visitClass_checked hs (fun e he => (Dict.mem_entries_iff _ e.1 e.2).mp he) hc
    (sound_empty w) rfl

lemma selectExecutor_checked {cache : FeasibilityCache}
    (hc : Sound w cache) (resources : FunctionResources) (limit random : ℕ) :
    Adds w cache (selectExecutor s w resources cache limit random).1 ∧
      (selectExecutor s w resources cache limit random).2 = (selectExecutor s w resources ∅ limit random).2 ∧
      ∀ answer ∈ selectExecutorAnswers s w resources cache limit random, Right s w answer := by
  unfold selectExecutor selectExecutorAnswers
  split_ifs with hmax
  · obtain ⟨hadds,heq,hright⟩ := computeEligibleClasses_checked hs hc
    exact ⟨hadds,by dsimp only; rw [heq],hright⟩
  obtain ⟨hadds,he,hf,hright⟩ := @scan_checked s w hs resources limit (wrapped s resources
    (minMemoryBytes resources+random % (maxMemory s-minMemoryBytes resources+1)))
    {cache := cache} {cache := ∅} hc (sound_empty w) rfl rfl
  exact ⟨hadds,by dsimp only; rw [he,hf],hright⟩

end

/-! ### A batch -/

/-- The scheduler and the cache that the placements of a batch share. -/
structure Batch where
  scheduler : ContainerScheduler
  cache : FeasibilityCache := ∅

namespace Batch
variable {earlier : List Workload} {w : Workload}

inductive Call
  | selectExecutor (w : Workload) (resources : FunctionResources) (limit random : ℕ)
  | computeEligibleClasses (w : Workload)
  /-- What happens to the scheduler between the calls. -/
  | change (op : Op)

def Call.workload : Call → Option Workload
  | .selectExecutor w .. => some w
  | .computeEligibleClasses w => some w
  | .change _ => none

def Call.RegistersLive : Call → Prop
  | .change op => ContainerScheduler.RegistersLive op
  | _ => True

instance : DecidablePred Call.RegistersLive := fun _ => by
  unfold Call.RegistersLive
  split <;> infer_instance

/-- Calls under one key check the same things. -/
def Consistent (calls : List Call) : Prop :=
  (calls.filterMap Call.workload).Pairwise fun w w' => w.key=w'.key → w.SameChecks w'

instance (calls : List Call) : Decidable (Consistent calls) :=
  inferInstanceAs (Decidable (List.Pairwise _ _))

lemma agree_append {later : List Workload}
    (h : ∀ w₁∈earlier, ∀ w₂ ∈ w::later, w₁.key=w₂.key → w₁.SameChecks w₂)
    (hw : ∀ w₂∈later, w.key=w₂.key → w.SameChecks w₂) :
    ∀ w₁ ∈ earlier++[w], ∀ w₂∈later, w₁.key=w₂.key → w₁.SameChecks w₂ := by
  intro w₁ hw₁ w₂ hw₂
  rcases mem_append.mp hw₁ with hw₁ | hw₁
  · exact h w₁ hw₁ w₂ (mem_cons_of_mem _ hw₂)
  · rw [mem_singleton.mp hw₁]
    exact hw w₂ hw₂

variable [HashOrder ContainerId] [HashOrder ExecutorId]

def step (b : Batch) : Call → Batch
  | .selectExecutor w resources limit random =>
    {b with cache := (Placement.selectExecutor b.scheduler w resources b.cache limit random).1}
  | .computeEligibleClasses w =>
    {b with cache := (Placement.computeEligibleClasses b.scheduler w b.cache).1}
  | .change op => {b with scheduler := b.scheduler.step op}

/-- The answers the call uses are those of its own checks, and it finds what it would find with
no cache before it. -/
def Exact (b : Batch) : Call → Prop
  | .selectExecutor w resources limit random =>
    (∀ answer ∈ selectExecutorAnswers b.scheduler w resources b.cache limit random,
      Right b.scheduler w answer) ∧
    (Placement.selectExecutor b.scheduler w resources b.cache limit random).2 =
      (Placement.selectExecutor b.scheduler w resources ∅ limit random).2
  | .computeEligibleClasses w =>
    (∀ answer ∈ computeEligibleClassesAnswers b.scheduler w b.cache, Right b.scheduler w answer) ∧
    (Placement.computeEligibleClasses b.scheduler w b.cache).2 =
      (Placement.computeEligibleClasses b.scheduler w ∅).2
  | .change _ => True

/-- Each answer in the cache was right for the call that added it. -/
def Remembers (earlier : List Workload) (cache : FeasibilityCache) : Prop :=
  ∀ key c answer, cache.get key c = some answer → ∃ w∈earlier, w.key=key ∧ Answers w c answer

omit [HashOrder ContainerId] [HashOrder ExecutorId] in
lemma Remembers.sound {cache : FeasibilityCache} (h : Remembers earlier cache)
    (hw : ∀ w'∈earlier, w'.key=w.key → w'.SameChecks w) : Sound w cache := by
  intro c answer hget e he hclass
  obtain ⟨w',hw',hkey,hanswers⟩ := h _ _ _ hget
  rw [← (hw w' hw' hkey).checkConstraints e]
  exact hanswers e he hclass

omit [HashOrder ContainerId] [HashOrder ExecutorId] in
lemma Remembers.adds {cache cache' : FeasibilityCache} (h : Remembers earlier cache)
    (ha : Adds w cache cache') : Remembers (earlier++[w]) cache' := by
  intro key c answer hget
  rcases ha key c answer hget with hget | ⟨rfl,hanswers⟩
  · obtain ⟨w',hw',hkey⟩ := h _ _ _ hget
    exact ⟨w',mem_append_left _ hw',hkey⟩
  · exact ⟨w,mem_append_right _ (mem_singleton_self w),rfl,hanswers⟩

lemma along_exact {calls : List Call} (earlier : List Workload) {b : Batch}
    (hs : b.scheduler.background.Classified) (hb : Remembers earlier b.cache)
    (hlive : ∀ call∈calls, call.RegistersLive) (hcalls : Consistent calls)
    (hearlier : ∀ w∈earlier, ∀ w' ∈ calls.filterMap Call.workload,
      w.key = w'.key → w.SameChecks w') : Trace.Along step Exact b calls := by
  induction calls generalizing earlier b with
  | nil => trivial
  | cons call calls ih =>
    have hrest : ∀ c∈calls, c.RegistersLive := fun c hc => hlive c (mem_cons_of_mem _ hc)
    cases call with
    | change op =>
      exact ⟨trivial,ih earlier (hs.step (hlive _ mem_cons_self)) hb hrest
        hcalls hearlier⟩
    | selectExecutor w resources limit random =>
      obtain ⟨hw,hcalls⟩ := pairwise_cons.mp hcalls
      have hsound := hb.sound fun w' hw' => hearlier w' hw' w mem_cons_self
      obtain ⟨hadds,heq,hright⟩ := selectExecutor_checked hs hsound resources limit random
      exact ⟨⟨hright,heq⟩,ih (earlier++[w]) hs (hb.adds hadds) hrest hcalls
        (agree_append hearlier hw)⟩
    | computeEligibleClasses w =>
      obtain ⟨hw,hcalls⟩ := pairwise_cons.mp hcalls
      have hsound := hb.sound fun w' hw' => hearlier w' hw' w mem_cons_self
      obtain ⟨hadds,heq,hright⟩ := computeEligibleClasses_checked hs hsound
      exact ⟨⟨hright,heq⟩,ih (earlier++[w]) hs (hb.adds hadds) hrest hcalls
        (agree_append hearlier hw)⟩

/-- In a batch whose calls under one key check the same things, every answer taken from the cache
is right and no call finds anything else than with a fresh cache. -/
theorem batch_cache_exact (functionPools sandboxPools : Dict ContainerPoolKey ContainerPool)
    (ops : List Op) (hops : ∀ op∈ops, ContainerScheduler.RegistersLive op) (calls : List Call)
    (hlive : ∀ call∈calls, call.RegistersLive) (hcalls : Consistent calls) :
    Trace.Along step Exact {scheduler := run (new functionPools sandboxPools) ops} calls :=
  along_exact [] (run_classified hops)
    (fun _ _ _ h => by cases h) hlive hcalls (by simp)

end Batch

namespace Samples

def zonedFunction : Function := {smallFunction with placementConstraints := [⟨"zone","b",.eq⟩]}

def first : Workload := .ofFunction "default" "app" smallFunction

def second : Workload := .ofFunction "default" "app" zonedFunction

end Samples

attribute [local instance] HashOrder.ascending

open Samples in
/-- Two placements of one version and a check of its classes. -/
theorem Batch.oneVersion_exact :
    let calls : List Batch.Call := [.selectExecutor first smallFunction.resources 2 0,
      .computeEligibleClasses first,.selectExecutor first smallFunction.resources 2 1]
    Batch.Consistent calls ∧
      Trace.Along Batch.step Batch.Exact {scheduler := run (new ∅ ∅) zoneOps} calls := by
  have hcalls : Batch.Consistent [.selectExecutor first smallFunction.resources 2 0,
      .computeEligibleClasses first,.selectExecutor first smallFunction.resources 2 1] := by decide
  exact ⟨hcalls,Batch.batch_cache_exact ∅ ∅ zoneOps (by decide) _ (by decide) hcalls⟩

open Samples in
/-- The answer for the first version is used for the second, so the executor of the wrong zone
is chosen. -/
theorem Batch.secondVersion_misplaced :
    let ops := [Op.payload (.upsertExecutor (zoneExecutor "a")),
      .applyContainerUpdate {updatedExecutorStates := (∅ : Dict ExecutorId
        ExecutorServerMetadata).insert ⟨"a"⟩ ⟨⟨"a"⟩,∅,smallHost,∅⟩}]
    let s := run (new ∅ ∅) ops
    let b := Batch.step {scheduler := s} (.selectExecutor first smallFunction.resources 2 0)
    (s.executors.lookup ⟨"a"⟩).map second.checkConstraints = some false ∧
      (⟨"a"⟩,true) ∈ selectExecutorAnswers s second zonedFunction.resources b.cache 2 0 ∧
      (selectExecutor s second zonedFunction.resources b.cache 2 0).2.executorId = some ⟨"a"⟩ ∧
      (selectExecutor s second zonedFunction.resources ∅ 2 0).2.executorId = none := by
  decide

end Placement
end Indexify
