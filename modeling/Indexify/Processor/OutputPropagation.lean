import Indexify.Library.Walk
import Indexify.Processor.CallWrites
import Indexify.Processor.TailCalls

/-! Requests under the ingestion of finished allocations. Every step of the server that touches
a request keeps its tail calls linked, so outputs reach the runs that wait for them in whatever
order the runs finish. -/
namespace Indexify.FunctionRunCreator
open RequestCtx List Dict
variable {c : RequestCtx} (hash : String → String)

lemma propagateLoop_ctx (parents : Dict FunctionCallId FunctionCallId) (key : RequestCtxKey) (fuel : ℕ)
    (id : FunctionCallId) (output : Option DataPayload) (uc : SchedulerUpdateRequest × RequestCtx)
    (hkeyed : ∀ {id r}, uc.2.functionRuns.lookup id = some r → r.id=id)
    (hparents : ∀ {a p}, parents.lookup a = some p → (uc.2.functionRuns.lookup p).isSome) :
    ∃ m, (propagateLoop parents key fuel id output uc).2 = {uc.2 with functionRuns := m} ∧
      ∀ i, m.lookup i = if i ∈ Walk.walk (fun a => parents.lookup a) fuel id then
        (uc.2.functionRuns.lookup i).map (resolveWith output) else uc.2.functionRuns.lookup i := by
  induction fuel generalizing id uc with
  | zero => exact ⟨uc.2.functionRuns,rfl,fun i => by simp [Walk.walk]⟩
  | succ fuel ih =>
    cases hp : parents.lookup id with
    | none =>
      refine ⟨uc.2.functionRuns,by simp only [propagateLoop,hp],?_⟩
      intro i
      rw [Walk.walk_succ_of_none fuel hp,if_neg (by simp)]
    | some p =>
      obtain ⟨r,hr⟩ := Option.isSome_iff_exists.mp (hparents hp)
      have hid : r.id=p := hkeyed hr
      set uc' : SchedulerUpdateRequest × RequestCtx :=
        ({uc.1 with
          updatedFunctionRuns := uc.1.updatedFunctionRuns.insert key
            (((uc.1.updatedFunctionRuns.lookup key).getD []).insert r.id)},
          {uc.2 with functionRuns := uc.2.functionRuns.insert p (resolveWith output r)}) with huc
      have hstep : propagateLoop parents key (fuel+1) id output uc =
          propagateLoop parents key fuel p output uc' := by
        simp only [propagateLoop,hp,hr]
        rw [huc,← hid]
        rfl
      have hlook : ∀ i, uc'.2.functionRuns.lookup i =
          if i=p then some (resolveWith output r) else uc.2.functionRuns.lookup i :=
        fun i => lookup_insert_if _ _ _ _
      obtain ⟨m,hm,hml⟩ := ih p uc' (by
        intro i q hq
        rw [hlook] at hq
        split_ifs at hq with hi
        · cases hq
          rw [hi]
          exact hid
        · exact hkeyed hq) (by
        intro a q hq
        rw [hlook]
        split_ifs
        · rfl
        · exact hparents hq)
      refine ⟨m,by rw [hstep,hm],?_⟩
      intro i
      rw [hml i,hlook i,Walk.walk_succ_of_some fuel hp]
      by_cases hi : i=p
      · subst hi
        simp only [hr,mem_cons,true_or]
        split_ifs <;> rfl
      · simp only [hi,mem_cons,false_or,if_false]

variable (hkeyed : ∀ {id r}, c.functionRuns.lookup id = some r → r.id=id)
include hkeyed

lemma mem_childPairs_iff (t p : FunctionCallId) : (t,p) ∈ (c.functionRuns.values.filterMap fun run =>
    run.childFunctionCall.map fun child => (child,run.id)) ↔ c.Waits p t := by
  simp only [mem_filterMap,mem_values_iff,Option.map_eq_some_iff,Prod.mk.injEq]
  constructor
  · rintro ⟨r,⟨id,hr⟩,child,hchild,rfl,rfl⟩
    rw [hkeyed hr]
    exact ⟨r,hr,hchild⟩
  · rintro ⟨r,hr,ht⟩
    exact ⟨r,⟨p,hr⟩,t,ht,rfl,hkeyed hr⟩

lemma waits_of_lookup_childToParent {t p : FunctionCallId}
    (h : (childToParent c).lookup t = some p) : c.Waits p t := by
  rcases lookup_insertPairs ∅ (c.functionRuns.values.filterMap fun run =>
      run.childFunctionCall.map fun child => (child,run.id)) t with ⟨q,hq,hl⟩ | ⟨-,hl⟩
  · cases hl.symm.trans h
    exact (mem_childPairs_iff hkeyed t p).mp hq
  · cases hl.symm.trans h

lemma lookup_childToParent (hsingle : ∀ {id id' t}, c.Waits id t → c.Waits id' t → id=id')
    (t p : FunctionCallId) : (childToParent c).lookup t = some p ↔ c.Waits p t := by
  refine ⟨waits_of_lookup_childToParent hkeyed,?_⟩
  intro h
  rcases lookup_insertPairs ∅ (c.functionRuns.values.filterMap fun run =>
      run.childFunctionCall.map fun child => (child,run.id)) t with ⟨q,hq,hl⟩ | ⟨hn,-⟩
  · rw [hsingle h ((mem_childPairs_iff hkeyed t q).mp hq)]
    exact hl
  · exact absurd ((mem_childPairs_iff hkeyed t p).mpr h) (hn p)

omit hkeyed

lemma propagateOutputToConsumers_ctx {run : FunctionRun}
    (hkeyed : ∀ {id r}, c.functionRuns.lookup id = some r → r.id=id)
    (hsingle : ∀ {id id' t}, c.Waits id t → c.Waits id' t → id=id')
    (hranked : ∃ rank : FunctionCallId → ℕ, ∀ {id t}, c.Waits id t → rank t<rank id)
    (hout : run.output.isSome) :
    ∃ m, (propagateOutputToConsumers c run).2 = {c with functionRuns := m} ∧ (∀ i, c.Depends i run.id →
        m.lookup i = (c.functionRuns.lookup i).map (resolveWith run.output)) ∧
      ∀ i, ¬ c.Depends i run.id → m.lookup i = c.functionRuns.lookup i := by
  have hparents := lookup_childToParent hkeyed hsingle
  obtain ⟨m,hm,hml⟩ := propagateLoop_ctx (childToParent c) c.key
    (c.functionRuns.entries.length+1) run.id run.output ({},c) hkeyed (by
      intro a p hp
      obtain ⟨r,hr,-⟩ := (hparents a p).mp hp
      exact Option.isSome_iff_exists.mpr ⟨r,hr⟩)
  obtain ⟨rank,hrank⟩ := hranked
  have hwalk : ∀ i, i ∈ Walk.walk (fun a => (childToParent c).lookup a)
      (c.functionRuns.entries.length+1) run.id ↔ c.Depends i run.id := by
    intro i
    have hkeys : c.functionRuns.keys.length<c.functionRuns.entries.length+1 := by
      simp [AList.keys,List.keys]
    rw [Walk.mem_walk_iff (fun h => hrank ((hparents _ _).mp h)) hkeys]
    · rw [Walk.Reaches,Depends,← Relation.transGen_swap]
      simp only [hparents]
    intro a p hp
    obtain ⟨r,hr,-⟩ := (hparents a p).mp hp
    exact AList.mem_keys.mp (mem_of_lookup hr)
  refine ⟨m,?_,?_,?_⟩
  · have hn : run.output.isNone=false := by
      cases h : run.output with
      | none => simp [h] at hout
      | some v => rfl
    simp only [propagateOutputToConsumers,hn]
    exact hm
  · intro i hi
    rw [hml i,if_pos ((hwalk i).mpr hi)]
  · intro i hi
    rw [hml i,if_neg (fun h => hi ((hwalk i).mp h))]

/-- Calls were added to the context; of the old ones only those in `lost` may be missing. -/
structure CallsAdded (lost : List FunctionCallId) (c c' : RequestCtx) : Prop where
  frame : ∃ m, c' = {c with functionCalls := m}
  keyed : (∀ {i f}, c.functionCalls.lookup i = some f → f.functionCallId=i) →
    ∀ {i f}, c'.functionCalls.lookup i = some f → f.functionCallId=i
  kept : ∀ {i}, i∉lost → i∈c.functionCalls → i∈c'.functionCalls

lemma createFunctionCalls_keyed (g : GraphUpdates)
    (hc : ∀ {i f}, c.functionCalls.lookup i = some f → f.functionCallId=i) :
    ∀ {i f}, (createFunctionCalls hash c g).2.functionCalls.lookup i = some f → f.functionCallId = i := by
  rw [createFunctionCalls_eq]
  refine List.foldlRecOn (motive := fun m : Dict FunctionCallId FunctionCall => ∀ {i f},
    m.lookup i = some f → f.functionCallId=i) _ _ hc fun m hm w hw i f hf => ?_
  rw [lookup_write] at hf
  split_ifs at hf with hi
  · exact hi ▸ keyed_callWrites hw hf
  · exact hm hf

lemma createFunctionCalls_spec (c : RequestCtx) (g : GraphUpdates)
    (hlen : ∀ op, ComputeOp.reduce op ∈ g.graphUpdates → 2 ≤ op.collection.length) :
    CallsAdded (renamedIds hash g.graphUpdates) c (createFunctionCalls hash c g).2 ∧
      ∀ o∈g.graphUpdates, opId o ∉ renamedIds hash g.graphUpdates →
        opId o ∈ (createFunctionCalls hash c g).2.functionCalls := by
  have hlong : g.graphUpdates.any ComputeOp.isShort = false := by
    refine List.any_eq_false.mpr fun o ho => ?_
    cases o with
    | functionCall call => simp [ComputeOp.isShort]
    | reduce op => exact fun hs => absurd (of_decide_eq_true hs) (Nat.not_lt.mpr (hlen op ho))
  have heq := createFunctionCalls_eq hash c g
  rw [hlong] at heq
  have hmem : ∀ {i}, i ∉ renamedIds hash g.graphUpdates →
      (i ∈ (createFunctionCalls hash c g).2.functionCalls ↔
        i ∈ c.functionCalls ∨ i ∈ (callWrites hash g.graphUpdates).map Prod.fst) := by
    intro i hi
    rw [heq]
    exact mem_foldl_write fun h => hi (erased_callWrites h)
  refine ⟨⟨⟨_,heq⟩,fun hc => createFunctionCalls_keyed hash g hc,fun hl hi => ?_⟩,?_⟩
  · exact (hmem hl).mpr (.inl hi)
  · exact fun o ho hl => (hmem hl).mpr (.inr (opId_mem_callWrites hlong ho))

lemma createFunctionRuns_induction {P : RequestCtx → Prop} (av : ApplicationVersion)
    (hkeyed : ∀ {c}, P c → ∀ {i f}, c.functionCalls.lookup i = some f → f.functionCallId=i)
    (hstep : ∀ {c i call args}, P c → c.functionCalls.lookup i = some call → i∉c.functionRuns →
      P {c with functionRuns := c.functionRuns.insert i (av.createFunctionRun call args c.requestId)})
    (hc : P c) : P (createFunctionRuns c c.pendingFunctionCalls av).2 := by
  have hall : ∀ (ids : List FunctionCallId) (uc : SchedulerUpdateRequest × RequestCtx),
      P uc.2 → ids.Nodup → (∀ i∈ids, i∉uc.2.functionRuns) →
      P (ids.foldl (createFunctionRun av) uc).2 := by
    intro ids
    induction ids with
    | nil => exact fun uc h _ _ => h
    | cons id ids ih =>
      intro uc h hnodup hnew
      obtain ⟨hid,hids⟩ := nodup_cons.mp hnodup
      obtain ⟨hnot,hrest⟩ := forall_mem_cons.mp hnew
      rw [foldl_cons]
      unfold createFunctionRun
      cases hcall : uc.2.functionCalls.lookup id with
      | none => exact ih uc h hids hrest
      | some call =>
        dsimp only
        cases call.inputs.mapM (resolveArg uc.2) with
        | none => exact ih uc h hids hrest
        | some args =>
          obtain rfl : call.functionCallId=id := hkeyed h hcall
          refine ih _ (hstep h hcall hnot) hids fun i hi hmem => ?_
          rcases (AList.mem_insert _).mp hmem with rfl | hmem
          · exact hid hi
          · exact hrest i hi hmem
  refine hall _ ({},c) hc (c.functionCalls.nodupKeys.filter _) fun i hi => ?_
  simpa using (mem_filter.mp hi).2

lemma createFunctionRuns_consistent (av : ApplicationVersion)
    (hc : c.Consistent) : (createFunctionRuns c c.pendingFunctionCalls av).2.Consistent ∧
      (createFunctionRuns c c.pendingFunctionCalls av).2.outcome = c.outcome := by
  refine createFunctionRuns_induction (P := fun c' => c'.Consistent ∧ c'.outcome=c.outcome) av
    (fun h => h.1.calls_keyed) (fun {c' i call args} h hcall hnot => ⟨?_,h.2⟩) ⟨hc,rfl⟩
  refine h.1.blank_run (h.1.calls_keyed hcall) rfl rfl rfl ?_ ?_ rfl rfl (mem_of_lookup hcall)
  · intro r hr
    exact absurd (mem_of_lookup hr) hnot
  · simp [ApplicationVersion.createFunctionRun]

end Indexify.FunctionRunCreator
