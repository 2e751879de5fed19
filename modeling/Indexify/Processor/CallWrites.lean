import Indexify.Processor.FunctionRunCreator

/-! The calls of a list of operations as writes to the table of calls. What is written does not
depend on the request. -/
namespace Indexify
open Dict

def ComputeOp.isShort : ComputeOp → Bool
  | .reduce op => op.collection.length<2
  | .functionCall _ => false

namespace FunctionRunCreator
open List
variable (hash : String → String)

def reduceId (op : ReduceOperation) (position : ℕ) : FunctionCallId :=
  ⟨hash (op.functionCallId.get++":reduce:"++toString position)⟩

/-- The id under which the last call of a reduce operation is created before it takes the id of
the operation. -/
def renamedId (hash : String → String) (op : ReduceOperation) : FunctionCallId :=
  ⟨hash (op.functionCallId.get++":reduce:"++toString (op.collection.length-2))⟩

def renamedIds (hash : String → String) (ops : List ComputeOp) : List FunctionCallId :=
  ops.filterMap fun
    | .reduce op => some (renamedId hash op)
    | .functionCall _ => none

def opId : ComputeOp → FunctionCallId
  | .reduce op => op.functionCallId
  | .functionCall call => call.functionCallId

/-- The writes after `last`: the rest of the chain, and the last call takes the id of the
operation. -/
def chainWrites (op : ReduceOperation) :
    List FunctionArgs → ℕ → FunctionCall → List (FunctionCallId × Option FunctionCall)
  | [],_,last => [(last.functionCallId,none),
      (op.functionCallId,some {last with functionCallId := op.functionCallId})]
  | arg::rest,position,last =>
    let call := createFunctionCallFromReduceOp hash op (.functionRunOutput last.functionCallId) arg
      none position
    (call.functionCallId,some call)::chainWrites op rest (position+1) call

/-- A short reduce ends the list. -/
def reduceWrites : List ComputeOp → List (FunctionCallId × Option FunctionCall)
  | [] => []
  | .functionCall _::ops => reduceWrites ops
  | .reduce op::ops =>
    match op.collection with
    | firstArg::secondArg::rest =>
      let first := createFunctionCallFromReduceOp hash op firstArg secondArg none 0
      ((first.functionCallId,some first)::chainWrites hash op rest 1 first)++reduceWrites ops
    | _ => []

def plainWrites (ops : List ComputeOp) : List (FunctionCallId × Option FunctionCall) :=
  ops.filterMap fun
    | .functionCall call => some (call.functionCallId,some call)
    | .reduce _ => none

def callWrites (ops : List ComputeOp) : List (FunctionCallId × Option FunctionCall) :=
  plainWrites ops++reduceWrites hash ops

lemma createReduceCalls_writes (op : ReduceOperation) (firstArg secondArg : FunctionArgs)
    (rest : List FunctionArgs) (uc : SchedulerUpdateRequest × RequestCtx) :
    let first := createFunctionCallFromReduceOp hash op firstArg secondArg none 0
    (createReduceCalls hash op firstArg secondArg rest uc).2 =
      {uc.2 with
        functionCalls := ((first.functionCallId,some first) ::
          chainWrites hash op rest 1 first).foldl write uc.2.functionCalls} := by
  have hchain : ∀ (position : ℕ) (last : FunctionCall) (uc : SchedulerUpdateRequest × RequestCtx),
      let r := chainReduceCalls hash op rest position last uc
      {r.2.2 with
        functionCalls := (r.2.2.functionCalls.erase r.1.functionCallId).insert op.functionCallId
          {r.1 with functionCallId := op.functionCallId}} =
      {uc.2 with
        functionCalls := (chainWrites hash op rest position last).foldl write
          uc.2.functionCalls} := by
    induction rest with
    | nil => exact fun _ _ _ => rfl
    | cons arg rest ih => exact fun _ _ _ => ih _ _ _
  exact hchain 1 _ _

lemma createReduceOps_writes (ops : List ComputeOp) (uc : SchedulerUpdateRequest × RequestCtx) :
    (createReduceOps hash ops uc).2 =
      {uc.2 with
        functionCalls := (reduceWrites hash ops).foldl write uc.2.functionCalls
        outcome := if ops.any ComputeOp.isShort then some (.failure .functionError)
          else uc.2.outcome} := by
  induction ops generalizing uc with
  | nil => rfl
  | cons o ops ih =>
    cases o with
    | functionCall call => exact ih uc
    | reduce op =>
      obtain ⟨id,_ | ⟨a,_ | ⟨b,rest⟩⟩,fnName,metadata⟩ := op
      · rfl
      · rfl
      · have hlong : ComputeOp.isShort (.reduce ⟨id,a::b::rest,fnName,metadata⟩) = false := by
          simp [ComputeOp.isShort]
        rw [createReduceOps,reduceWrites,any_cons,hlong]
        rw [ih,createReduceCalls_writes,foldl_append]
        rfl

lemma createFunctionCalls_eq (c : RequestCtx) (g : GraphUpdates) : (createFunctionCalls hash c g).2 =
    {c with
      functionCalls := (callWrites hash g.graphUpdates).foldl write c.functionCalls
      outcome := if g.graphUpdates.any ComputeOp.isShort then some (.failure .functionError)
        else c.outcome} := by
  have hplain : ∀ (ops : List ComputeOp) (uc : SchedulerUpdateRequest × RequestCtx),
      (ops.foldl addPlainCall uc).2 =
        {uc.2 with functionCalls := (plainWrites ops).foldl write uc.2.functionCalls} := by
    intro ops
    induction ops with
    | nil => exact fun _ => rfl
    | cons o ops ih =>
      intro uc
      rw [foldl_cons,ih]
      cases o <;> rfl
  rw [createFunctionCalls,createReduceOps_writes,hplain,callWrites,foldl_append]

lemma lookup_createFunctionCalls (c : RequestCtx) (g : GraphUpdates) (id : FunctionCallId) :
    (createFunctionCalls hash c g).2.functionCalls.lookup id =
      (written id (callWrites hash g.graphUpdates)).getD (c.functionCalls.lookup id) := by
  rw [createFunctionCalls_eq]
  exact lookup_foldl_write _ _ _

def chainIds (op : ReduceOperation) : List FunctionCallId :=
  (range (op.collection.length-1)).map (reduceId hash op)++[op.functionCallId]

/-- A call is filed under its id, and only the renamed call of the operation is erased. -/
structure WriteOf (op : ReduceOperation) (w : FunctionCallId × Option FunctionCall) : Prop where
  keyed : ∀ {call}, w.2 = some call → call.functionCallId=w.1
  erased : w.2=none → w.1 = renamedId hash op
  listed : w.1 ∈ chainIds hash op

variable {hash} {ops : List ComputeOp} {w : FunctionCallId × Option FunctionCall}

lemma mem_chainWrites {op : ReduceOperation} {rest : List FunctionArgs} (position : ℕ)
    {last : FunctionCall} (hlast : last.functionCallId = reduceId hash op position)
    (h : w ∈ chainWrites hash op rest (position+1) last) :
    (∀ {call}, w.2 = some call → call.functionCallId=w.1) ∧
      (w.2=none → w.1 = reduceId hash op (position+rest.length)) ∧
      w.1 ∈ (range' position (rest.length+1)).map (reduceId hash op)++[op.functionCallId] := by
  induction rest generalizing position last with
  | nil =>
    rcases mem_cons.mp h with rfl | h
    · exact ⟨nofun,fun _ => hlast,by simp [hlast]⟩
    · rw [mem_singleton.mp h]
      exact ⟨fun h => Option.some.inj h ▸ rfl,nofun,by simp⟩
  | cons arg rest ih =>
    rw [length_cons,range'_succ,map_cons,cons_append]
    rcases mem_cons.mp h with rfl | h
    · refine ⟨fun h => Option.some.inj h ▸ rfl,nofun,mem_cons_of_mem _ ?_⟩
      exact mem_cons_self
    obtain ⟨hkeyed,herased,hlisted⟩ := ih (position+1) rfl h
    refine ⟨hkeyed,fun hw => ?_,mem_cons_of_mem _ hlisted⟩
    rw [herased hw,Nat.add_assoc,Nat.add_comm 1]

lemma mem_reduceWrites (h : w ∈ reduceWrites hash ops) : ∃ op, .reduce op ∈ ops ∧ WriteOf hash op w := by
  induction ops with
  | nil => cases h
  | cons o ops ih =>
    have hrest : w ∈ reduceWrites hash ops → ∃ op, .reduce op ∈ o::ops ∧ WriteOf hash op w :=
      fun h => (ih h).imp fun op hop => ⟨mem_cons_of_mem _ hop.1,hop.2⟩
    cases o with
    | functionCall call => exact hrest h
    | reduce op =>
      obtain ⟨id,_ | ⟨a,_ | ⟨b,rest⟩⟩,fnName,metadata⟩ := op
      · cases h
      · cases h
      · rcases mem_append.mp h with h | h
        · refine ⟨_,mem_cons_self,?_⟩
          rcases mem_cons.mp h with rfl | h
          · refine ⟨fun h => Option.some.inj h ▸ rfl,nofun,mem_append_left _ ?_⟩
            exact mem_map_of_mem (mem_range.mpr (Nat.succ_pos _))
          obtain ⟨hkeyed,herased,hlisted⟩ := mem_chainWrites 0 rfl h
          rw [← range_eq_range'] at hlisted
          refine ⟨hkeyed,fun hw => ?_,hlisted⟩
          rw [herased hw,Nat.zero_add]
          rfl
        · exact hrest h

lemma mem_callWrites (h : w ∈ callWrites hash ops) :
    (∃ call, .functionCall call ∈ ops ∧ w = (call.functionCallId,some call)) ∨
      ∃ op, .reduce op ∈ ops ∧ WriteOf hash op w := by
  refine (mem_append.mp h).imp (fun h => ?_) mem_reduceWrites
  obtain ⟨_ | call,ho,hw⟩ := mem_filterMap.mp h
  · cases hw
  · exact ⟨call,ho,(Option.some.inj hw).symm⟩

lemma keyed_callWrites {call : FunctionCall} (h : w ∈ callWrites hash ops) (hw : w.2 = some call) :
    call.functionCallId = w.1 := by
  rcases mem_callWrites h with ⟨_,-,rfl⟩ | ⟨op,-,hop⟩
  · cases hw
    rfl
  · exact hop.keyed hw

lemma erased_callWrites {id : FunctionCallId} (h : (id,none) ∈ callWrites hash ops) :
    id ∈ renamedIds hash ops := by
  rcases mem_callWrites h with ⟨_,-,⟨⟩⟩ | ⟨op,hop,hw⟩
  exact mem_filterMap.mpr ⟨_,hop,congrArg some (hw.erased rfl).symm⟩

lemma opId_mem_callWrites (hlong : ops.any ComputeOp.isShort = false) {o : ComputeOp}
    (ho : o∈ops) : opId o ∈ (callWrites hash ops).map Prod.fst := by
  rw [callWrites,map_append,mem_append]
  cases o with
  | functionCall call =>
    exact .inl (mem_map.mpr ⟨_,mem_filterMap.mpr ⟨_,ho,rfl⟩,rfl⟩)
  | reduce op =>
    refine .inr ?_
    have hchain : ∀ (op : ReduceOperation) rest position last,
        op.functionCallId ∈ (chainWrites hash op rest position last).map Prod.fst := by
      intro op rest
      induction rest with
      | nil => simp [chainWrites]
      | cons arg rest ih => exact fun _ _ => mem_cons_of_mem _ (ih _ _)
    induction ops with
    | nil => cases ho
    | cons o ops ih =>
      rw [any_cons,Bool.or_eq_false_iff] at hlong
      obtain ⟨id,_ | ⟨a,_ | ⟨b,rest⟩⟩,fnName,metadata⟩ | call := o
      · cases hlong.1
      · cases hlong.1
      · rw [reduceWrites,map_append,mem_append]
        rcases mem_cons.mp ho with ho | ho
        · cases ho
          exact .inl (mem_cons_of_mem _ (hchain _ _ _ _))
        · exact .inr (ih hlong.2 ho)
      · exact ih hlong.2 ((mem_cons.mp ho).resolve_left (by simp))

end FunctionRunCreator
end Indexify
