import Indexify.ExecutorApi.Reports

/-! Which messages can be converted, and which errors of a conversion are recognised. That is read
off the text of the error: a missing field of a report itself is recognised, a defect in its
payload or in its plan is not. -/
namespace Indexify
open Errors List
variable {message : String} {c : Char}

/-! ### Which texts are recognised -/

/-- The text is that of a malformed item, or it is not. The texts are compared as lists of
characters, so that this can be evaluated. -/
def Recognised (b : Bool) (message : String) : Prop :=
  (["missing "," is empty","invalid","malformed"].any fun text =>
    occurs text.toList (message.toList.map Char.toLower)) = b
  deriving Decidable

lemma isMalformedPayloadError_iff {b : Bool} :
    isMalformedPayloadError message = b ↔ Recognised b message := by
  have hlower : message.toLower.toList = message.toList.map Char.toLower := String.toList_map
  simp only [isMalformedPayloadError,Recognised,hlower]

lemma mem_of_occurs {text cs : List Char} (h : occurs text cs = true) (hc : c∈text) : c∈cs := by
  induction cs with
  | nil =>
    rw [isEmpty_iff.mp h] at hc
    cases hc
  | cons c' cs ih =>
    rcases Bool.or_eq_true_iff.mp h with hpre | hlater
    · exact (List.isPrefixOf_iff_prefix.mp hpre).subset hc
    · exact mem_cons_of_mem _ (ih hlater)

lemma occurs_append {text cs : List Char} (h : occurs text cs = true) (before : List Char) :
    occurs text (before++cs) = true := by
  induction before with
  | nil => exact h
  | cons c before ih => exact Bool.or_eq_true_iff.mpr (.inr ih)

lemma recognised_append (before : String) (h : Recognised true message) :
    Recognised true (before++message) := by
  obtain ⟨text,htext,hoccurs⟩ := any_eq_true.mp h
  refine any_eq_true.mpr ⟨text,htext,?_⟩
  rw [String.toList_append,map_append]
  exact occurs_append hoccurs _

lemma unrecognised_of_letters (hs : 's' ∉ message.toList.map Char.toLower)
    (hd : 'd' ∉ message.toList.map Char.toLower) : Recognised false message := by
  refine any_eq_false.mpr fun text htext hoccurs => ?_
  have hall : ∀ text ∈ ["missing "," is empty","invalid","malformed"],
    's' ∈ text.toList ∨ 'd'∈text.toList := by decide
  rcases hall text htext with hletter | hletter
  · exact hs (mem_of_occurs hoccurs hletter)
  · exact hd (mem_of_occurs hoccurs hletter)

lemma toLower_of_isDigit (h : c.isDigit=true) : c.toLower=c := by
  have hle := of_decide_eq_true (Bool.and_eq_true_iff.mp h).2
  unfold Char.toLower
  split_ifs with hupper
  · exact absurd (UInt32.le_trans hupper.1 hle) (by decide)
  · rfl

lemma isDigit_of_mem_repr {m : ℕ} (h : c∈m.repr.toList) : c.isDigit=true := by
  rw [Nat.repr,String.toList_ofList] at h
  exact Nat.isDigit_of_mem_toDigits (by decide) (by decide) h

lemma mem_toLower_toString {n : Int} (h : c ∈ (toString n).toList.map Char.toLower) :
    c.isDigit = true ∨ c = '-' := by
  obtain ⟨d,hd,rfl⟩ := mem_map.mp h
  have hdigit : ∀ {m : ℕ}, d∈m.repr.toList → d.toLower.isDigit=true := fun hd =>
    (toLower_of_isDigit (isDigit_of_mem_repr hd)).symm ▸ isDigit_of_mem_repr hd
  cases n with
  | ofNat m => exact .inl (hdigit hd)
  | negSucc m =>
    have hsign : (toString (Int.negSucc m)).toList = '-'::(m+1).repr.toList := by
      rw [Int.toString_eq_repr,Int.repr,String.toList_append]
      rfl
    rw [hsign] at hd
    rcases mem_cons.mp hd with rfl | hd
    · exact .inr rfl
    · exact .inl (hdigit hd)

lemma unknown_value_unrecognised (n : Int) :
    Recognised false ("unknown enumeration value "++toString n) := by
  have hletters : ∀ c, c ∉ "unknown enumeration value ".toList.map Char.toLower →
      c.isDigit = false → c ≠ '-' →
      c ∉ ("unknown enumeration value "++toString n).toList.map Char.toLower := by
    intro c hc hdigit hminus hmem
    rw [String.toList_append,map_append] at hmem
    rcases mem_append.mp hmem with hmem | hmem
    · exact hc hmem
    rcases mem_toLower_toString hmem with hd | hd
    · rw [hdigit] at hd
      cases hd
    · exact hminus hd
  exact unrecognised_of_letters (hletters 's' (by decide) (by decide) (by decide))
    (hletters 'd' (by decide) (by decide) (by decide))

/-! ### Which messages can be converted

A message is converted if it is well formed. Else the error names a defect of a payload or of a
plan, and it is not recognised. -/

namespace Proto

def DataPayload.wellFormed (msg : DataPayload) : Bool :=
  msg.uri.isSome && (msg.size.isSome && (msg.sha256Hash.isSome &&
    msg.encoding.any fun n => 0 ≤ n && n ≤ 5))

def FunctionArg.wellFormed (arg : FunctionArg) : Bool :=
  arg.source.any fun
    | .functionCallId _ => true
    | .inlineData data => data.wellFormed

def FunctionCall.wellFormed (call : FunctionCall) : Bool :=
  call.target.any fun target => target.namespace.isSome && (call.id.isSome &&
    (target.functionName.isSome && call.args.all FunctionArg.wellFormed))

def ReduceOp.wellFormed (op : ReduceOp) : Bool :=
  op.reducer.any fun reducer => reducer.namespace.isSome && (op.id.isSome &&
    (reducer.functionName.isSome && (op.callMetadata.isSome &&
      op.collection.all FunctionArg.wellFormed)))

def ExecutionPlanUpdate.wellFormed (update : ExecutionPlanUpdate) : Bool :=
  update.op.any fun
    | .functionCall call => call.wellFormed
    | .reduce op => op.wellFormed

def ExecutionPlanUpdates.wellFormed (updates : ExecutionPlanUpdates) : Bool :=
  updates.updates.all ExecutionPlanUpdate.wellFormed

def ReturnValue.wellFormed : ReturnValue → Bool
  | value payload => payload.wellFormed
  | .updates plan => plan.wellFormed

end Proto

section
variable {α β : Type} {P : String → Prop} {message : String} {f : α → Except String β}

lemma decided_require (hmessage : P message) (o : Option α) : Decided P o.isSome (require message o) := by
  cases o with
  | none => exact .error hmessage
  | some a => exact .ok a

lemma decided_require_any {good : α → Bool} (hmessage : P message) (o : Option α)
    (h : ∀ a, Decided P (good a) (f a)) : Decided P (o.any good) (require message o >>= f) := by
  cases o with
  | none => exact .error hmessage
  | some a => exact h a

lemma decided_zipIdx {convert : α × ℕ → Except String β} {good : α → Bool}
    (h : ∀ a i, Decided P (good a) (convert (a,i))) (as : List α) :
    Decided P (as.all good) (as.zipIdx.mapM convert) := by
  have hall : as.all good = as.zipIdx.all (good ∘ Prod.fst) := by
    rw [← all_map,zipIdx_map_fst]
  rw [hall]
  exact .mapM (fun (a,i) => h a i) _

end

lemma decided_encodingName (n : Int) :
    Decided (Recognised false) (0 ≤ n && n ≤ 5) (Proto.encodingName n) := by
  by_cases hn : 0 ≤ n ∧ n ≤ 5
  · have hcases : n=0 ∨ n=1 ∨ n=2 ∨ n=3 ∨ n=4 ∨ n=5 := by omega
    rcases hcases with rfl | rfl | rfl | rfl | rfl | rfl <;> exact .ok _
  have hfalse : (decide (0 ≤ n) && decide (n ≤ 5)) = false := by
    rwa [Bool.and_eq_false_iff,decide_eq_false_iff_not,decide_eq_false_iff_not,← not_and_or]
  have herror : Proto.encodingName n = .error ("unknown enumeration value "++toString n) := by
    unfold Proto.encodingName
    split
    all_goals first | rfl | exact absurd (by decide) hn
  rw [hfalse,herror]
  exact .error (unknown_value_unrecognised n)

namespace ConversionEnv
variable (env : ConversionEnv)

lemma decided_prepareDataPayload (msg : Proto.DataPayload) (store : BlobStore) (place : List ℕ) :
    Decided (Recognised false) msg.wellFormed (env.prepareDataPayload msg store place) := by
  refine (decided_require (by decide) _).bind fun uri => ?_
  refine (decided_require (by decide) _).bind fun size => ?_
  refine (decided_require (by decide) _).bind fun hash => ?_
  exact decided_require_any (by decide) _ fun n => (decided_encodingName n).map _

lemma decided_toInternalFunctionArgs (args : List Proto.FunctionArg) (store : BlobStore)
    (place : List ℕ) : Decided (Recognised false) (args.all Proto.FunctionArg.wellFormed)
      (env.toInternalFunctionArgs args store place) := by
  refine decided_zipIdx (fun arg i => ?_) args
  refine decided_require_any (by decide) _ fun source => ?_
  cases source with
  | functionCallId id => exact .ok _
  | inlineData data => exact (env.decided_prepareDataPayload data store _).map _

lemma decided_toInternalComputeOp (update : Proto.ExecutionPlanUpdate) (source : Option String)
    (place : List ℕ) : Decided (Recognised false) update.wellFormed
      (env.toInternalComputeOp update source place) := by
  refine decided_require_any (by decide) _ fun op => ?_
  cases op with
  | functionCall call =>
    refine .map ?_ _
    refine decided_require_any (by decide) _ fun target => ?_
    refine (decided_require (by decide) _).bind fun ns => ?_
    refine (decided_require (by decide) _).bind fun id => ?_
    refine (decided_require (by decide) _).bind fun fnName => ?_
    exact (env.decided_toInternalFunctionArgs _ _ _).map _
  | reduce op =>
    refine .map ?_ _
    refine decided_require_any (by decide) _ fun reducer => ?_
    refine (decided_require (by decide) _).bind fun ns => ?_
    refine (decided_require (by decide) _).bind fun id => ?_
    refine (decided_require (by decide) _).bind fun fnName => ?_
    refine (decided_require (by decide) _).bind fun metadata => ?_
    exact (env.decided_toInternalFunctionArgs _ _ _).map _

lemma decided_toGraphUpdates (updates : Proto.ExecutionPlanUpdates) (source : Option String) :
    Decided (Recognised false) updates.wellFormed (env.toGraphUpdates updates source) :=
  (decided_zipIdx (fun update i => env.decided_toInternalComputeOp update source [i])
    updates.updates).map _

end ConversionEnv

lemma decided_convertReturnValue (env : ConversionEnv) (f : ReportFields)
    (value : Option Proto.ReturnValue) : Decided (Recognised false)
      (value.all Proto.ReturnValue.wellFormed) (convertReturnValue env f value) := by
  cases value with
  | none => exact .ok _
  | some value =>
    cases value with
    | value payload => exact (env.decided_prepareDataPayload payload _ _).map _
    | updates plan => exact (env.decided_toGraphUpdates plan _).map _

lemma decided_convertRequestError (env : ConversionEnv) (f : ReportFields)
    (payload : Option Proto.DataPayload) : Decided (Recognised false)
      (payload.all Proto.DataPayload.wellFormed) (convertRequestError env f payload) := by
  cases payload with
  | none => exact .ok _
  | some payload => exact (env.decided_prepareDataPayload payload _ _).map _

def hasReportFields (function : Option Proto.FunctionRef)
    (requestId functionCallId : Option String) : Bool :=
  function.any fun f => f.namespace.isSome && (f.applicationName.isSome &&
    (f.functionName.isSome && (requestId.isSome && functionCallId.isSome)))

lemma decided_reportFields (kind : String) (function : Option Proto.FunctionRef)
    (requestId functionCallId : Option String) : Decided (Recognised true)
      (hasReportFields function requestId functionCallId)
      (reportFields kind function requestId functionCallId) := by
  have hkind : ∀ {text : String}, Recognised true text → Recognised true (kind++text) :=
    recognised_append kind
  refine decided_require_any (hkind (by decide)) _ fun f => ?_
  refine (decided_require (hkind (by decide)) _).bind fun ns => ?_
  refine (decided_require (hkind (by decide)) _).bind fun application => ?_
  refine (decided_require (hkind (by decide)) _).bind fun fnName => ?_
  refine (decided_require (hkind (by decide)) _).bind fun requestId => ?_
  exact (decided_require (hkind (by decide)) _).map _

end Indexify
