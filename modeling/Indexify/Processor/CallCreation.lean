import Indexify.Processor.RequestRuns

/-! What a list of operations creates: the chain of calls of a reduce, nothing more when the
operations come again, and a failed request when a reduce has too few items. -/
namespace Indexify.FunctionRunCreator
open List Dict FunctionRunRetryPolicy SchedulerUpdateRequest.Snapshots
variable {hash : String → String}

section
variable {calls m : Dict FunctionCallId FunctionCall} {op : ReduceOperation}
  {first item : FunctionArgs} {items rest : List FunctionArgs} {ids : List FunctionCallId}

/-- The calls read the items one after another, each after the output of the call before. -/
def Chained (calls : Dict FunctionCallId FunctionCall) (op : ReduceOperation) :
    FunctionArgs → List FunctionArgs → List FunctionCallId → Prop
  | first,item::items,id::ids =>
    (∃ call, calls.lookup id = some call ∧ call.fnName=op.fnName ∧
      call.inputs = [first,item]) ∧ Chained calls op (.functionRunOutput id) items ids
  | _,items,ids => items = [] ∧ ids = []

lemma Chained.listed (h : Chained calls op first items ids) :
    ids.length = items.length ∧ ∀ id∈ids, id∈calls := by
  induction items generalizing first ids with
  | nil =>
    cases ids with
    | nil => simp
    | cons id ids => cases h.2
  | cons item items ih =>
    cases ids with
    | nil => cases h.1
    | cons id ids =>
      obtain ⟨⟨call,hcall,-⟩,hrest⟩ := h
      obtain ⟨hlen,hmem⟩ := ih hrest
      exact ⟨congrArg Nat.succ hlen,forall_mem_cons.mpr ⟨mem_of_lookup hcall,hmem⟩⟩

/-- Values of arguments under which every call of the chain is `f` of its two inputs. -/
def Computes {β : Type} (calls : Dict FunctionCallId FunctionCall) (ids : List FunctionCallId)
    (f : β → β → β) (val : FunctionArgs → β) : Prop :=
  ∀ id∈ids, ∀ call a b, calls.lookup id = some call → call.inputs = [a,b] →
    val (.functionRunOutput id) = f (val a) (val b)

lemma Chained.fold {β : Type} {f : β → β → β} {val : FunctionArgs → β}
    (h : Chained calls op first items ids) (hval : Computes calls ids f val)
    {last : FunctionCallId} (hlast : ids.getLast? = some last) :
    val (.functionRunOutput last) = (items.map val).foldl f (val first) := by
  induction items generalizing first ids with
  | nil =>
    cases ids with
    | nil => cases hlast
    | cons id ids => cases h.2
  | cons item items ih =>
    cases ids with
    | nil => cases hlast
    | cons id ids =>
      obtain ⟨⟨call,hcall,-,hinputs⟩,hrest⟩ := h
      have hid := hval id mem_cons_self call first item hcall hinputs
      cases ids with
      | nil =>
        cases items with
        | nil =>
          cases hlast
          exact hid
        | cons item' items => cases hrest.1
      | cons id' ids =>
        rw [map_cons,foldl_cons,← hid]
        exact ih hrest (fun i hi => hval i (mem_cons_of_mem _ hi)) (by simpa using hlast)

lemma chained_chainWrites (last : FunctionCall) (position : ℕ)
    {ws : List (FunctionCallId × Option FunctionCall)}
    (hfn : last.fnName=op.fnName) (hlast : last.inputs = [first,item])
    (hid : last.functionCallId = reduceId hash op position)
    (hm : m.lookup (reduceId hash op position) = some last)
    (hnodup : ((range' position (rest.length+1)).map (reduceId hash op) ++
      [op.functionCallId]).Nodup)
    (hws : ∀ i ∈ (range' position (rest.length+1)).map (reduceId hash op)++[op.functionCallId],
      Dict.written i ws = none) :
    let calls := ws.foldl write
      ((chainWrites hash op rest (position+1) last).foldl write m)
    Chained calls op first (item::rest)
        ((range' position rest.length).map (reduceId hash op)++[op.functionCallId]) ∧
      calls.lookup (reduceId hash op (position+rest.length)) = none := by
  induction rest generalizing position last first item m with
  | nil =>
    have hne : reduceId hash op position ≠ op.functionCallId := by
      simpa using hnodup
    refine ⟨⟨⟨{last with functionCallId := op.functionCallId},?_,hfn,hlast⟩,rfl,rfl⟩,?_⟩
    · rw [lookup_foldl_write,hws _ (by simp)]
      exact AList.lookup_insert _
    · rw [lookup_foldl_write,hws _ (by simp)]
      simp [chainWrites,lookup_write,hid,hne]
  | cons arg rest ih =>
    obtain ⟨hnot,hnodup⟩ := nodup_cons.mp hnodup
    obtain ⟨hfree,hws⟩ := forall_mem_cons.mp hws
    set call := createFunctionCallFromReduceOp hash op (.functionRunOutput last.functionCallId) arg
      none (position+1) with hcall
    have hcalls : call.inputs = [.functionRunOutput (reduceId hash op position),arg] := by
      rw [hcall,← hid]
      rfl
    obtain ⟨hchain,hnone⟩ := ih (m := m.insert call.functionCallId call) call (position+1) rfl
      hcalls rfl (AList.lookup_insert _) hnodup hws
    rw [length_cons,← Nat.add_assoc,Nat.add_right_comm]
    refine ⟨⟨⟨last,?_,hfn,hlast⟩,hchain⟩,hnone⟩
    -- no later call of the chain has the id of this one
    have hkept : Dict.written (reduceId hash op position)
        (chainWrites hash op (arg::rest) (position+1) last) = none := by
      refine written_eq_none fun h => hnot ?_
      obtain ⟨w,hw,he⟩ := mem_map.mp h
      rw [← he]
      rcases mem_cons.mp hw with rfl | hw
      · exact mem_cons_self
      · exact (mem_chainWrites (position+1) rfl hw).2.2
    rw [lookup_foldl_write,hfree,lookup_foldl_write,hkept]
    exact hm

end

def reduceIds (hash : String → String) : ComputeOp → List FunctionCallId
  | .reduce op => chainIds hash op
  | .functionCall _ => []

lemma reduceWrites_append {before : List ComputeOp} (h : before.any ComputeOp.isShort = false)
    (ops : List ComputeOp) :
    reduceWrites hash (before++ops) = reduceWrites hash before++reduceWrites hash ops := by
  induction before with
  | nil => rfl
  | cons o before ih =>
    rw [any_cons,Bool.or_eq_false_iff] at h
    obtain ⟨id,_ | ⟨a,_ | ⟨b,rest⟩⟩,fnName,metadata⟩ | call := o
    · cases h.1
    · cases h.1
    · rw [cons_append,reduceWrites,reduceWrites]
      rw [ih h.2,append_assoc]
    · exact ih h.2

lemma createFunctionCalls_chained (c : RequestCtx) {g : GraphUpdates} {before after : List ComputeOp}
    {op : ReduceOperation} (hops : g.graphUpdates = before++.reduce op::after)
    (hbefore : before.any ComputeOp.isShort = false) {first second : FunctionArgs}
    {rest : List FunctionArgs} (hcol : op.collection = first::second::rest)
    (hids : (g.graphUpdates.flatMap (reduceIds hash)).Nodup) :
    let calls := (createFunctionCalls hash c g).2.functionCalls
    (chainIds hash op).Nodup ∧ Chained calls op first (second::rest)
        ((range rest.length).map (reduceId hash op)++[op.functionCallId]) ∧
      calls.lookup (reduceId hash op rest.length) = none := by
  have hall : chainIds hash op = (range' 0 (rest.length+1)).map (reduceId hash op) ++
      [op.functionCallId] := by
    rw [chainIds,hcol,range_eq_range']
    rfl
  rw [hops,flatMap_append,flatMap_cons] at hids
  obtain ⟨hown,-,hapart⟩ := nodup_append.mp (nodup_append.mp hids).2.1
  change (chainIds hash op).Nodup at hown
  have hws : ∀ i ∈ chainIds hash op, Dict.written i (reduceWrites hash after) = none := by
    refine fun i hi => written_eq_none fun h => ?_
    obtain ⟨w,hw,rfl⟩ := mem_map.mp h
    obtain ⟨op',hop',hof⟩ := mem_reduceWrites hw
    exact hapart _ hi _ (mem_flatMap.mpr ⟨_,hop',hof.listed⟩) rfl
  refine ⟨hown,?_⟩
  rw [hall] at hown hws
  rw [createFunctionCalls_eq,callWrites,hops,reduceWrites_append hbefore,reduceWrites,hcol,
    range_eq_range']
  simp only [foldl_append,foldl_cons]
  obtain ⟨hchain,hnone⟩ := chained_chainWrites (createFunctionCallFromReduceOp hash op
    first second none 0) 0 rfl rfl rfl (AList.lookup_insert _) hown hws
  rw [Nat.zero_add] at hnone
  exact ⟨hchain,hnone⟩

/-- A reduce over two items or more that is reached becomes one chain with a call less than it has
items. The last call carries the id of the operation, and when every call is a binary function of
its inputs, its value is the left fold of the items. -/
theorem reduce_creates_chain (c : RequestCtx) {g : GraphUpdates} {before after : List ComputeOp}
    {op : ReduceOperation} (hops : g.graphUpdates = before++.reduce op::after)
    (hbefore : before.any ComputeOp.isShort = false) (hlen : 2 ≤ op.collection.length)
    (hids : (g.graphUpdates.flatMap (reduceIds hash)).Nodup) :
    let calls := (createFunctionCalls hash c g).2.functionCalls
    ∃ first items ids, op.collection = first::items ∧ Chained calls op first items ids ∧
      ids.Nodup ∧ ids.length+1 = op.collection.length ∧
      ids.getLast? = some op.functionCallId ∧
      (∀ id ∈ chainIds hash op, id∈calls ↔ id∈ids) ∧
      (∀ id∈calls, id∈c.functionCalls ∨
        (∃ call, .functionCall call ∈ g.graphUpdates ∧ call.functionCallId=id) ∨
        ∃ op', .reduce op' ∈ g.graphUpdates ∧ id ∈ chainIds hash op') ∧
      ∀ (β : Type) (f : β → β → β) (val : FunctionArgs → β), Computes calls ids f val →
        val (.functionRunOutput op.functionCallId) = (items.map val).foldl f (val first) := by
  intro calls
  obtain ⟨first,second,rest,hcol⟩ : ∃ first second rest, op.collection = first::second::rest := by
    match hc : op.collection with
    | []
    | [_] => simp [hc] at hlen
    | first::second::rest => exact ⟨first,second,rest,rfl⟩
  obtain ⟨hown,hchain,hnone⟩ := createFunctionCalls_chained c hops hbefore hcol hids
  obtain ⟨hlength,hmem⟩ := hchain.listed
  have hall : chainIds hash op = (range rest.length).map (reduceId hash op) ++
      (reduceId hash op rest.length::[op.functionCallId]) := by
    simp [chainIds,hcol,range_succ]
  rw [hall] at hown
  refine ⟨first,second::rest,_,hcol,hchain,hown.sublist (.append_left (sublist_cons_self _ _) _),
    by rw [hlength,hcol]; rfl,getLast?_concat,fun id hid => ⟨fun hin => ?_,hmem id⟩,fun id hid => ?_,
    fun β f val hval => hchain.fold hval getLast?_concat⟩
  · rw [hall,mem_append,mem_cons] at hid
    rcases hid with hid | rfl | hid
    · exact mem_append_left _ hid
    · exact absurd hin (AList.lookup_eq_none.mp hnone)
    · exact mem_append_right _ hid
  by_cases hw : id ∈ (callWrites hash g.graphUpdates).map Prod.fst
  · obtain ⟨w,hmem,rfl⟩ := mem_map.mp hw
    rcases mem_callWrites hmem with ⟨call,hcall,rfl⟩ | ⟨op',hop',hof⟩
    · exact .inr (.inl ⟨call,hcall,rfl⟩)
    · exact .inr (.inr ⟨op',hop',hof.listed⟩)
  left
  rw [← AList.lookup_isSome] at hid ⊢
  rwa [← show calls.lookup id = c.functionCalls.lookup id by
    rw [lookup_createFunctionCalls,written_eq_none hw]; rfl]

def sumReduce (items : List String) : ReduceOperation :=
  ⟨⟨"sum-1"⟩,items.map fun id => .dataPayload (pipelinePayload id),"answer",[]⟩

def sumUpdates (items : List String) : GraphUpdates := ⟨[.reduce (sumReduce items)],⟨"sum-1"⟩⟩

def pipelineRequest : RequestCtx :=
  newRequest pipelineVersion (pipelineFunction "plan") "request-1" (pipelinePayload "input")

/-- Three items become two calls. -/
theorem sum_creates_chain :
    let calls := (createFunctionCalls id pipelineRequest (sumUpdates ["a","b","c"])).2.functionCalls
    ∃ first items ids, (sumReduce ["a","b","c"]).collection = first::items ∧
      Chained calls (sumReduce ["a","b","c"]) first items ids ∧ ids.length+1 = 3 := by
  obtain ⟨first,items,ids,hcol,hchain,-,hlen,-⟩ := @reduce_creates_chain id pipelineRequest
    (sumUpdates ["a","b","c"]) [] [] (sumReduce ["a","b","c"]) rfl rfl (by decide) (by decide)
  exact ⟨first,items,ids,hcol,hchain,hlen⟩

/-- A reduce over one item stops the creation before the reduce over three. -/
theorem short_reduce_stops_creation :
    let g : GraphUpdates := ⟨[.reduce {sumReduce ["x"] with functionCallId := ⟨"sum-0"⟩},
      .reduce (sumReduce ["a","b","c"])],⟨"sum-1"⟩⟩
    (g.graphUpdates.flatMap (reduceIds id)).Nodup ∧
      (createFunctionCalls id pipelineRequest g).2.functionCalls.keys = [⟨"request-1"⟩] := by
  decide

section
variable {av : ApplicationVersion} {c c' : RequestCtx} {g : GraphUpdates}

/-- A call has no run only while an input is missing. -/
def AllStarted (c : RequestCtx) : Prop :=
  ∀ id call, c.functionCalls.lookup id = some call → id∉c.functionRuns →
    call.inputs.mapM (resolveArg c) = none

lemma resolveArg_insert {run : FunctionRun} (hnew : run.id∉c.functionRuns) (hout : run.output=none) :
    resolveArg {c with functionRuns := c.functionRuns.insert run.id run} = resolveArg c := by
  funext arg
  cases arg with
  | dataPayload payload => rfl
  | functionRunOutput id =>
    simp only [resolveArg,lookup_insert_if]
    split_ifs with hid
    · subst hid
      simp [hout,AList.lookup_eq_none.mpr hnew]
    · rfl

lemma foldl_createFunctionRun (av : ApplicationVersion) (ids : List FunctionCallId)
    (uc : SchedulerUpdateRequest × RequestCtx)
    (hkeyed : ∀ {i f}, uc.2.functionCalls.lookup i = some f → f.functionCallId=i)
    (hnodup : ids.Nodup) (hnew : ∀ i∈ids, i∉uc.2.functionRuns) :
    let c' := (ids.foldl (createFunctionRun av) uc).2
    c'.functionCalls = uc.2.functionCalls ∧ resolveArg c' = resolveArg uc.2 ∧
      (∀ i∈uc.2.functionRuns, i∈c'.functionRuns) ∧
      ∀ i∈ids, ∀ call, uc.2.functionCalls.lookup i = some call →
        call.inputs.mapM (resolveArg uc.2) ≠ none → i∈c'.functionRuns := by
  induction ids generalizing uc with
  | nil => exact ⟨rfl,rfl,fun _ h => h,nofun⟩
  | cons id ids ih =>
    obtain ⟨hid,hids⟩ := nodup_cons.mp hnodup
    obtain ⟨hnot,hrest⟩ := forall_mem_cons.mp hnew
    have hskip : (∀ call, uc.2.functionCalls.lookup id = some call →
        call.inputs.mapM (resolveArg uc.2) = none) → createFunctionRun av uc id = uc := by
      intro h
      unfold createFunctionRun
      cases hcall : uc.2.functionCalls.lookup id with
      | none => rfl
      | some call => simp only [h call hcall]
    rw [foldl_cons]
    by_cases hstuck : ∀ call, uc.2.functionCalls.lookup id = some call →
        call.inputs.mapM (resolveArg uc.2) = none
    · obtain ⟨hcalls,hargs,hkept,hran⟩ := ih uc hkeyed hids hrest
      rw [hskip hstuck]
      refine ⟨hcalls,hargs,hkept,forall_mem_cons.mpr ⟨fun call hcall hin => ?_,hran⟩⟩
      exact absurd (hstuck call hcall) hin
    push Not at hstuck
    obtain ⟨call,hcall,hin⟩ := hstuck
    obtain ⟨args,hresolved⟩ := Option.ne_none_iff_exists'.mp hin
    set run := av.createFunctionRun call args uc.2.requestId with hrun
    have hrunId : run.id=id := hkeyed hcall
    have hstep : createFunctionRun av uc id = uc.1.addFunctionRun run uc.2 := by
      simp only [createFunctionRun,hcall,hresolved]
      rfl
    have hsame : resolveArg (uc.1.addFunctionRun run uc.2).2 = resolveArg uc.2 :=
      resolveArg_insert (hrunId ▸ hnot) rfl
    have hmem : ∀ i, i ∈ (uc.1.addFunctionRun run uc.2).2.functionRuns ↔
        i = id ∨ i∈uc.2.functionRuns := fun i => hrunId ▸ AList.mem_insert _
    obtain ⟨hcalls,hargs,hkept,hran⟩ := ih (uc.1.addFunctionRun run uc.2) hkeyed hids
      fun i hi h => ((hmem i).mp h).elim (fun he => hid (he ▸ hi)) (hrest i hi)
    rw [hstep]
    refine ⟨hcalls,hargs.trans hsame,fun i hi => hkept i ((hmem i).mpr (.inr hi)),?_⟩
    refine forall_mem_cons.mpr ⟨fun _ _ _ => hkept id ((hmem id).mpr (.inl rfl)),?_⟩
    exact fun i hi call' hcall' hin' => hran i hi call' hcall' (hsame ▸ hin')

lemma createFunctionRuns_started (av : ApplicationVersion)
    (hkeyed : ∀ {i f}, c.functionCalls.lookup i = some f → f.functionCallId=i) :
    (createFunctionRuns c c.pendingFunctionCalls av).2.functionCalls = c.functionCalls ∧
      AllStarted (createFunctionRuns c c.pendingFunctionCalls av).2 := by
  obtain ⟨hcalls,hargs,hkept,hran⟩ := foldl_createFunctionRun av c.pendingFunctionCalls ({},c)
    hkeyed (c.functionCalls.nodupKeys.filter _) fun i hi => by
      simpa using (mem_filter.mp hi).2
  refine ⟨hcalls,fun id call hcall hnot => ?_⟩
  rw [createFunctionRuns,hcalls] at hcall
  rw [createFunctionRuns,hargs]
  by_contra hin
  refine hnot (hran id (mem_filter.mpr ⟨mem_of_lookup hcall,?_⟩) call hcall hin)
  exact decide_eq_true fun h => hnot (hkept id h)

/-- The request goes on: runs change but get no output, or runs change in any way and what can run
then is created, with operations that do not change the calls of `g`. -/
inductive Progress (hash : String → String) (av : ApplicationVersion) (g : GraphUpdates)
    (c : RequestCtx) : RequestCtx → Prop
  | moved (runs : Dict FunctionCallId FunctionRun)
      (h : ∀ id, (runs.lookup id).map FunctionRun.output =
        (c.functionRuns.lookup id).map FunctionRun.output) :
      Progress hash av g c {c with functionRuns := runs}
  | went (runs : Dict FunctionCallId FunctionRun) (g' : GraphUpdates)
      (h : ∀ id w, Dict.written id (callWrites hash g.graphUpdates) = some w →
        Dict.written id (callWrites hash g'.graphUpdates) = none ∨
          Dict.written id (callWrites hash g'.graphUpdates) = some w) :
      Progress hash av g c (createCallsAndRuns hash av {c with functionRuns := runs} g')

/-- The calls of the operations are there, and every call that can run has its run. -/
structure Created (hash : String → String) (g : GraphUpdates) (c : RequestCtx) : Prop where
  keyed : ∀ {i f}, c.functionCalls.lookup i = some f → f.functionCallId=i
  written : ∀ {id w}, Dict.written id (callWrites hash g.graphUpdates) = some w →
    c.functionCalls.lookup id = w
  started : AllStarted c

lemma created_createCallsAndRuns {g' : GraphUpdates}
    (hkeyed : ∀ {i f}, c.functionCalls.lookup i = some f → f.functionCallId=i)
    (h : ∀ id w, Dict.written id (callWrites hash g.graphUpdates) = some w →
      Dict.written id (callWrites hash g'.graphUpdates) = some w ∨
        Dict.written id (callWrites hash g'.graphUpdates) = none ∧ c.functionCalls.lookup id = w) :
    Created hash g (createCallsAndRuns hash av c g') := by
  have hcalls : ∀ {i f}, (createFunctionCalls hash c g').2.functionCalls.lookup i = some f →
      f.functionCallId = i := createFunctionCalls_keyed hash g' hkeyed
  obtain ⟨hsame,hstarted⟩ := createFunctionRuns_started av hcalls
  refine ⟨fun hf => hcalls (hsame ▸ hf),fun {id w} hw => ?_,hstarted⟩
  rw [createCallsAndRuns,hsame,lookup_createFunctionCalls]
  rcases h id w hw with he | ⟨he,hold⟩ <;> rw [he]
  · rfl
  · exact hold

lemma Created.progress (hc : Created hash g c) (h : Progress hash av g c c') : Created hash g c' := by
  cases h with
  | moved runs h =>
    have hargs : resolveArg {c with functionRuns := runs} = resolveArg c := by
      funext arg
      cases arg with
      | dataPayload payload => rfl
      | functionRunOutput id =>
        have hid := h id
        simp only [resolveArg]
        cases hr : runs.lookup id <;> cases hq : c.functionRuns.lookup id <;>
          simp_all
    refine ⟨hc.keyed,hc.written,fun id call hcall hnot => ?_⟩
    rw [hargs]
    refine hc.started id call hcall fun hin => hnot ?_
    have hid := congrArg Option.isSome (h id)
    rw [Option.isSome_map,Option.isSome_map] at hid
    exact AList.lookup_isSome.mp (hid.trans (AList.lookup_isSome.mpr hin))
  | went runs g' h =>
    exact created_createCallsAndRuns hc.keyed fun id w hw =>
      (h id w hw).symm.imp_right fun he => ⟨he,hc.written hw⟩

lemma Created.again (hc : Created hash g c) :
    (∀ id, (createCallsAndRuns hash av c g).functionCalls.lookup id = c.functionCalls.lookup id) ∧
      (createCallsAndRuns hash av c g).functionRuns = c.functionRuns := by
  set d := (createFunctionCalls hash c g).2 with hd
  have hruns : d.functionRuns=c.functionRuns := by
    rw [hd,createFunctionCalls_eq]
  have hcalls : ∀ id, d.functionCalls.lookup id = c.functionCalls.lookup id := by
    intro id
    rw [hd,lookup_createFunctionCalls]
    cases hw : Dict.written id (callWrites hash g.graphUpdates) with
    | none => rfl
    | some w => exact (hc.written hw).symm
  have hargs : resolveArg d = resolveArg c := by
    funext arg
    cases arg <;> simp only [resolveArg,hruns]
  have hstuck : ∀ id∈d.pendingFunctionCalls, createFunctionRun av ({},d) id = ({},d) := by
    intro id hid
    have hnot : id∉c.functionRuns := hruns ▸ of_decide_eq_true (mem_filter.mp hid).2
    unfold createFunctionRun
    rw [hcalls,hargs]
    cases hcall : c.functionCalls.lookup id with
    | none => rfl
    | some call => simp only [hc.started id call hcall hnot]
  have hfold : createFunctionRuns d d.pendingFunctionCalls av = ({},d) := by
    refine foldlRecOn (motive := fun uc : SchedulerUpdateRequest × RequestCtx => uc = ({},d)) _ _ rfl ?_
    rintro _ rfl id hid
    exact hstuck id hid
  have hsame : createCallsAndRuns hash av c g = d := by
    rw [createCallsAndRuns,← hd,hfold]
  rw [hsame]
  exact ⟨hcalls,hruns⟩

/-- Operations that come a second time, at whatever point of the request, change no call and no
run. -/
theorem second_creation_changes_nothing (c : RequestCtx)
    (hkeyed : ∀ {i f}, c.functionCalls.lookup i = some f → f.functionCallId=i)
    (h : Relation.ReflTransGen (Progress hash av g) (createCallsAndRuns hash av c g) c') :
    (∀ id, (createCallsAndRuns hash av c' g).functionCalls.lookup id =
      c'.functionCalls.lookup id) ∧
      (createCallsAndRuns hash av c' g).functionRuns = c'.functionRuns := by
  refine Created.again ?_
  induction h with
  | refl => exact created_createCallsAndRuns hkeyed fun _ _ hw => .inl hw
  | tail _ hp ih => exact ih.progress hp

def answerAndSum : GraphUpdates :=
  ⟨[.functionCall answerCall,.reduce (sumReduce ["a","b","c"])],⟨"sum-1"⟩⟩

def answerAndSumRequest : RequestCtx := createCallsAndRuns id pipelineVersion pipelineRequest answerAndSum

def finishedRun (run : FunctionRun) : FunctionRun :=
  {run with
    status := .completed
    outcome := some .success
    output := some (pipelinePayload "partial")}

/-- The first addition has finished, and the second can run. -/
def addedRequest : RequestCtx :=
  let runs := answerAndSumRequest.functionRuns.modify ⟨"sum-1:reduce:0"⟩ finishedRun
  createCallsAndRuns id pipelineVersion {answerAndSumRequest with functionRuns := runs} ⟨[],⟨"sum-1"⟩⟩

/-- The operations come again after the first addition: its run keeps its output, and none is added. -/
theorem addedRequest_created_once :
    addedRequest.functionRuns.keys = [⟨"sum-1"⟩,⟨"sum-1:reduce:0"⟩,⟨"answer-1"⟩,⟨"request-1"⟩] ∧
      (createCallsAndRuns id pipelineVersion addedRequest answerAndSum).functionRuns =
        addedRequest.functionRuns := by
  refine ⟨by decide +kernel,(second_creation_changes_nothing pipelineRequest
    (newRequest_consistent _ _ _ _).calls_keyed (.single (.went _ ⟨[],⟨"sum-1"⟩⟩ ?_))).2⟩
  exact fun _ _ _ => .inl rfl

end

section
variable {s : InMemoryState} {u : SchedulerUpdateRequest} {c : RequestCtx}

/-- The update writes the request as failed. -/
def Fails (u : SchedulerUpdateRequest) : Prop :=
  ∃ k c reason, u.updatedRequestStates.lookup k = some c ∧ c.outcome = some (.failure reason)

lemma fails_addRequestState (hu : u.OnlyOpen c.key) :
    Fails (u.addRequestState c) ↔ ∃ reason, c.outcome = some (.failure reason) := by
  simp only [Fails,hu.addRequestState_iff]
  constructor
  · rintro ⟨_,_,reason,⟨rfl,rfl⟩,h⟩
    exact ⟨reason,h⟩
  · rintro ⟨reason,h⟩
    exact ⟨_,_,reason,⟨rfl,rfl⟩,h⟩

lemma fails_failRequest (hu : u.OnlyOpen c.key) (run : FunctionRun) (allocation : Allocation)
    (reason : FunctionRunFailureReason) (exception : Option DataPayload) :
    Fails (failRequest u c run allocation reason exception) := by
  have hcancel : ∀ (runs : List FunctionRun) (uc : SchedulerUpdateRequest × RequestCtx),
      uc.1.OnlyOpen uc.2.key → (∃ reason, uc.2.outcome = some (.failure reason)) →
      Fails ((runs.foldl cancelRun uc).1.addRequestState (runs.foldl cancelRun uc).2) := by
    intro runs uc huc ho
    have hframe := Trace.frame cancelRun (fun uc =>
      (uc.1.updatedRequestStates,uc.2.key,uc.2.outcome)) (fun uc run => by
        unfold cancelRun
        split_ifs <;> rfl) uc runs
    simp only [Prod.mk.injEq] at hframe
    obtain ⟨hstates,hkey,hout⟩ := hframe
    rw [fails_addRequestState (hkey ▸ huc.of_states_eq hstates),hout]
    exact ho
  cases exception <;> exact hcancel _ _ hu ⟨_,rfl⟩

/-- The completion test takes the failure of the operations for the end of the request. -/
lemma not_fails_continueRequest (hu : u.OnlyOpen c.key) {g : GraphUpdates}
    (hshort : g.graphUpdates.any ComputeOp.isShort) (av : ApplicationVersion) :
    ¬Fails (continueRequest hash u c (some g) av) := by
  have hdone : (createFunctionCalls hash c g).2.isRequestCompleted = true := by
    rw [createFunctionCalls_eq,if_pos hshort]
    rfl
  simp only [continueRequest]
  rw [if_pos hdone,fails_addRequestState]
  · rintro ⟨reason,⟨⟩⟩
  refine extend ?_ (createFunctionCalls_states hash c g)
  rw [createFunctionCalls_eq]
  exact hu

lemma decidedRun_pending_iff {run : FunctionRun} {allocation : Allocation} {av : ApplicationVersion}
    {reason : FunctionRunFailureReason} (h : allocation.outcome = .failure reason) :
    (decidedRun run allocation av).status = .pending ↔ retries run reason av = true := by
  have hstatus : (decidedRun run allocation av).status =
      (handleAllocationFailure run reason av).status := by
    simp only [decidedRun,handleAllocationOutcome,h]
    split_ifs <;> rfl
  rw [hstatus,handleAllocationFailure]
  split_ifs with hr <;> simp [hr]

lemma fails_ingestRunning {run : FunctionRun} {allocation : Allocation}
    {event : AllocationOutputIngestedEvent} {g : GraphUpdates} (hg : event.graphUpdates = some g)
    (hshort : g.graphUpdates.any ComputeOp.isShort) (ho : c.outcome=none)
    (hu : u.updatedRequestStates = ∅) :
    Fails (ingestRunning hash s u c run allocation event) ↔ ∃ av reason,
      s.getExistingApplicationVersion (reportedRun run event) = some av ∧
      allocation.outcome = .failure reason ∧
      retries (reportedRun run event) reason av = false := by
  have hopen : (propagated c (reportedRun run event)).outcome = none :=
    (propagateOutputToConsumers_frame _ _).2.trans ho
  cases hv : s.getExistingApplicationVersion (reportedRun run event) with
  | none =>
    refine iff_of_false ?_ (by rintro ⟨_,_,⟨⟩,-⟩)
    simp only [ingestRunning,hv]
    rw [fails_addRequestState]
    · rintro ⟨reason,h⟩
      cases h.symm.trans hopen
    · exact (of_no_states hu).extend
        (propagateOutputToConsumers_frame _ _).1
  | some av =>
    obtain ⟨u',hu',he⟩ := ingestRunning_eq hash c allocation hu hv
    rw [he]
    dsimp only
    set c' := decidedCtx c (reportedRun run event) (decidedRun (reportedRun run event) allocation av)
    have hc' : c'.outcome=none := hopen
    have hsnap : (u'.addRequestState c').OnlyOpen c'.key :=
      (of_no_states hu').addRequestState rfl hc'
    have hno : ¬Fails (u'.addRequestState c') := by
      rw [fails_addRequestState (of_no_states hu'),hc']
      rintro ⟨_,⟨⟩⟩
    cases hout : allocation.outcome with
    | failure reason =>
      have hpending := @decidedRun_pending_iff (reportedRun run event) allocation av reason hout
      split_ifs with hp
      · refine iff_of_false hno ?_
        rintro ⟨_,_,⟨⟩,⟨⟩,hr⟩
        rw [hpending.mp hp] at hr
        cases hr
      · refine iff_of_true (fails_failRequest hsnap _ _ _ _) ⟨av,reason,rfl,rfl,?_⟩
        exact Bool.eq_false_iff.mpr fun hr => hp (hpending.mpr hr)
    | success
    | unknown =>
      refine iff_of_false ?_ (by rintro ⟨_,_,-,⟨⟩,-⟩)
      split_ifs
      · exact hno
      · rw [hg]
        exact not_fails_continueRequest hsnap hshort av

/-- The failure of a reduce with too few items stays when the operation comes with a blocking call
that is accepted. When it comes with a finished allocation, the request fails only if the allocation
itself failed for good. -/
theorem short_reduce_fails_iff (hash : String → String) (s : InMemoryState) :
    (∀ event : FunctionCallEvent, event.graphUpdates.graphUpdates.any ComputeOp.isShort →
      (Fails (handleBlockingFunctionCall hash s event) ↔ ∃ c av, Accepts s event c av)) ∧
    ∀ allocations containers event (g : GraphUpdates), event.graphUpdates = some g →
      g.graphUpdates.any ComputeOp.isShort →
      (Fails (handleAllocationIngestion hash s allocations {containers := containers} event) ↔
        ∃ c run allocation av reason, Ingests s allocations event c run allocation ∧
          s.getExistingApplicationVersion (reportedRun run event) = some av ∧
          event.allocationOutcome = .failure reason ∧
          retries (reportedRun run event) reason av = false) := by
  refine ⟨fun event hshort => ?_,fun allocations containers event g hg hshort => ?_⟩
  · constructor
    · rintro ⟨k,c',reason,h,-⟩
      obtain ⟨c,av,ha,-⟩ := (handleBlockingFunctionCall_iff hash).mp h
      exact ⟨c,av,ha⟩
    rintro ⟨c,av,ha⟩
    refine ⟨c.key,_,.functionError,(handleBlockingFunctionCall_iff hash).mpr
      ⟨c,av,ha,rfl,rfl⟩,?_⟩
    rw [createCallsAndRuns,(createFunctionRuns_frame _ _ _).2.2,createFunctionCalls_eq,if_pos hshort]
  by_cases h : ∃ c run allocation, Ingests s allocations event c run allocation
  · obtain ⟨c,run,allocation,hi⟩ := h
    have heq : handleAllocationIngestion hash s allocations {containers := containers} event =
        ingestRunning hash s {containers := containers} c run
          {allocation with
            outcome := event.allocationOutcome
            executionDurationMs := event.executionDurationMs} event := by
      simp [handleAllocationIngestion,hi.ctx,hi.opened,hi.listed,hi.stored,hi.live,hi.running]
    rw [heq,fails_ingestRunning hg hshort hi.opened rfl]
    constructor
    · rintro ⟨av,reason,h⟩
      exact ⟨c,run,allocation,av,reason,hi,h⟩
    rintro ⟨c2,run2,_,av,reason,hi2,h⟩
    obtain rfl : c2=c := Option.some.inj (hi2.ctx.symm.trans hi.ctx)
    obtain rfl : run2=run := Option.some.inj (hi2.listed.symm.trans hi.listed)
    exact ⟨av,reason,h⟩
  · refine iff_of_false ?_ ?_
    · rcases handleAllocationIngestion_cases hash s allocations {containers := containers} event with
        he | ⟨c,run,allocation,hi,-⟩
      · rw [he]
        rintro ⟨k,c,reason,⟨⟩,-⟩
      · exact absurd ⟨c,run,allocation,hi⟩ h
    · rintro ⟨c,run,allocation,-,-,hi,-⟩
      exact h ⟨c,run,allocation,hi⟩

end

/-- `plan` returns a reduce over one item, and the request ends with success. -/
theorem short_reduce_succeeds : (sumUpdates ["a"]).graphUpdates.any ComputeOp.isShort = true ∧
    ((RequestStore.run id ⟨pipelineMemory,∅⟩
      [.invoke pipelineVersion (pipelineFunction "plan") "request-1" (pipelinePayload "input"),
        pipelineStart "alloc-1" "request-1" "plan",
        pipelineFinish "alloc-1" "request-1" "plan" none (some (sumUpdates ["a"]))]).snapshots.lookup
      ⟨"default|pipeline|request-1"⟩).map RequestCtx.outcome = some (some .success) := by
  decide

/-- The same reduce in a blocking call fails the request. -/
theorem short_reduce_fails_blocking :
    Fails (handleBlockingFunctionCall id (pipelineMemory.invokeApplication pipelineRequest)
      ⟨"default","pipeline","request-1",⟨"request-1"⟩,sumUpdates ["a"]⟩) :=
  ((short_reduce_fails_iff id _).1 _ (by decide)).mpr
    ⟨pipelineRequest,pipelineVersion,⟨rfl,rfl,by decide,rfl⟩⟩

end Indexify.FunctionRunCreator
