import Indexify.Processor.FunctionRunCreator

/-! Outputs along tail calls. A run that returned a tail call waits for the call it named; the
output of the run at the end of the chain is handed to all runs of the chain. -/
namespace Indexify
open Dict

def FunctionRunCreator.resolveWith (output : Option DataPayload) (r : FunctionRun) : FunctionRun :=
  {r with output := output, outcome := some .success, status := .completed}

namespace RequestCtx

def Waits (c : RequestCtx) (id target : FunctionCallId) : Prop :=
  ∃ r, c.functionRuns.lookup id = some r ∧ r.childFunctionCall = some target

/-- `id` waits for `target`, directly or through other waiting runs. -/
def Depends (c : RequestCtx) : FunctionCallId → FunctionCallId → Prop :=
  Relation.TransGen c.Waits

/-- `e` is the run at the end of the chain of tail calls that starts at `id`. -/
inductive EndsAt (c : RequestCtx) : FunctionCallId → FunctionRun → Prop
  | leaf {id : FunctionCallId} {r : FunctionRun} (h : c.functionRuns.lookup id = some r)
      (hr : r.childFunctionCall=none) : EndsAt c id r
  | step {id target : FunctionCallId} {e : FunctionRun} (h : c.Waits id target)
      (he : EndsAt c target e) : EndsAt c id e

/-- What holds of a request all of whose finished runs were successful. Runs that are not
completed are blank; a completed run that waits is resolved together with its target, and a
rank falls along the chains. -/
structure Consistent (c : RequestCtx) : Prop where
  runs_keyed : ∀ {id r}, c.functionRuns.lookup id = some r → r.id=id
  calls_keyed : ∀ {id f}, c.functionCalls.lookup id = some f → f.functionCallId=id
  called : ∀ {id}, id∈c.functionRuns → id∈c.functionCalls
  blank : ∀ {id r}, c.functionRuns.lookup id = some r → r.status≠.completed →
    r.childFunctionCall = none ∧ r.output=none ∧ r.outcome=none
  leaf : ∀ {id r}, c.functionRuns.lookup id = some r → r.status=.completed →
    r.childFunctionCall = none → r.outcome = some .success
  target : ∀ {id t}, c.Waits id t → t∈c.functionCalls
  linked : ∀ {id r t}, c.functionRuns.lookup id = some r → r.childFunctionCall = some t →
    (r.outcome=none ∧ r.output=none ∧
      ∀ r', c.functionRuns.lookup t = some r' → r'.outcome ≠ some .success) ∨
    (r.outcome = some .success ∧ r.output.isSome ∧
      ∃ r', c.functionRuns.lookup t = some r' ∧ r'.outcome = some .success ∧ r'.output=r.output)
  single : ∀ {id id' t}, c.Waits id t → c.Waits id' t → id=id'
  ranked : ∃ rank : FunctionCallId → ℕ, ∀ {id t}, c.Waits id t → rank t<rank id

lemma Consistent.resolved {c : RequestCtx} (hc : c.Consistent) {id t : FunctionCallId}
    {r e : FunctionRun} (hr : c.functionRuns.lookup id = some r)
    (ht : r.childFunctionCall = some t) (he : c.EndsAt t e) (hdone : e.status=.completed) :
    r.status = .completed ∧ r.outcome = some .success ∧ r.output=e.output := by
  have hstatus : r.status=.completed := by
    by_contra hn
    rw [(hc.blank hr hn).1] at ht
    cases ht
  refine ⟨hstatus,?_⟩
  induction he generalizing id r with
  | @leaf t e h hr' =>
    rcases hc.linked hr ht with ⟨-,-,hn⟩ | ⟨ho,-,r',hr'',-,hout⟩
    · exact absurd (hc.leaf h hdone hr') (hn e h)
    · cases hr''.symm.trans h
      exact ⟨ho,hout.symm⟩
  | @step t t' e h he ih =>
    obtain ⟨q,hq,hqt⟩ := h
    have hqs : q.status=.completed := by
      by_contra hn
      rw [(hc.blank hq hn).1] at hqt
      cases hqt
    obtain ⟨hqo,hqout⟩ := ih hq hqt hdone hqs
    rcases hc.linked hr ht with ⟨-,-,hn⟩ | ⟨ho,-,r',hr'',-,hout⟩
    · exact absurd hqo (hn q hq)
    · cases hr''.symm.trans hq
      exact ⟨ho,hout.symm.trans hqout⟩

lemma Consistent.all_success {c : RequestCtx} (hc : c.Consistent)
    (hruns : ∀ id, id∈c.functionCalls → id∈c.functionRuns)
    (hdone : ∀ {id r}, c.functionRuns.lookup id = some r → r.status=.completed)
    {id : FunctionCallId} {r : FunctionRun} (hr : c.functionRuns.lookup id = some r) :
    r.outcome = some .success ∧ ∃ e, c.EndsAt id e := by
  obtain ⟨rank,hrank⟩ := hc.ranked
  -- on the rank of the run: its target has a smaller one
  induction hn : rank id using Nat.strong_induction_on generalizing id r with
  | _ n ih =>
    cases ht : r.childFunctionCall with
    | none => exact ⟨hc.leaf hr (hdone hr) ht,r,EndsAt.leaf hr ht⟩
    | some t =>
      have hw : c.Waits id t := ⟨r,hr,ht⟩
      obtain ⟨r',hr'⟩ := Option.isSome_iff_exists.mp
        (AList.lookup_isSome.mpr (hruns t (hc.target hw)))
      obtain ⟨ho,e,he⟩ := ih (rank t) (hn ▸ hrank hw) hr' rfl
      refine ⟨?_,e,EndsAt.step hw he⟩
      rcases hc.linked hr ht with ⟨-,-,hno⟩ | ⟨ho',-⟩
      · exact absurd ho (hno r' hr')
      · exact ho'

end RequestCtx

namespace RequestCtx
variable {c c' : RequestCtx} {id t : FunctionCallId} {r r' : FunctionRun}

lemma Depends.lookup (h : c.Depends id t) :
    ∃ r t', c.functionRuns.lookup id = some r ∧ r.childFunctionCall = some t' ∧
      (t'=t ∨ c.Depends t' t) := by
  rcases Relation.TransGen.head'_iff.mp h with ⟨t',⟨r,hr,ht⟩,hrest⟩
  refine ⟨r,t',hr,ht,?_⟩
  rcases Relation.reflTransGen_iff_eq_or_transGen.mp hrest with h | h
  · exact .inl h.symm
  · exact .inr h

lemma Depends.rank_lt {rank : FunctionCallId → ℕ} (h : c.Depends id t)
    (hrank : ∀ {a b}, c.Waits a b → rank b<rank a) : rank t<rank id := by
  induction h with
  | single h => exact hrank h
  | tail _ h ih => exact Nat.lt_trans (hrank h) ih

lemma ranked_insert (hranked : ∃ rank : FunctionCallId → ℕ, ∀ {a b}, c.Waits a b → rank b<rank a)
    (hne : t≠id) (hback : ¬ c.Depends t id) :
    ∃ rank : FunctionCallId → ℕ, ∀ {a b}, c.Waits a b ∨ a=id ∧ b=t → rank b<rank a := by
  classical
  obtain ⟨rank,hrank⟩ := hranked
  refine ⟨fun x => if x=id ∨ c.Depends x id then rank x+rank t+1 else rank x,?_⟩
  have ht : ¬ (t=id ∨ c.Depends t id) := by
    rintro (h | h)
    · exact hne h
    · exact hback h
  intro a b hab
  rcases hab with hw | ⟨rfl,rfl⟩
  · have hlt := hrank hw
    by_cases hb : b=id ∨ c.Depends b id
    · have ha : a=id ∨ c.Depends a id := by
        right
        rcases hb with rfl | hb
        · exact Relation.TransGen.single hw
        · exact Relation.TransGen.head hw hb
      simp only [if_pos ha,if_pos hb]
      omega
    · simp only [if_neg hb]
      split_ifs <;> omega
  · simp only [if_neg ht,true_or,if_true]
    omega

variable (hc : c.Consistent)
include hc

lemma Consistent.finish
    (hr : c.functionRuns.lookup id = some r) (hopen : r.status≠.completed)
    (hcalls : c'.functionCalls=c.functionCalls)
    (hid : r'.id=id) (hchild : r'.childFunctionCall=none) (hstatus : r'.status=.completed)
    (hsucc : r'.outcome = some .success) (hout : r'.output.isSome ∨ ∀ q, ¬ c.Waits q id)
    (hself : c'.functionRuns.lookup id = some r') (hdep : ∀ i, c.Depends i id → c'.functionRuns.lookup i =
      (c.functionRuns.lookup i).map (FunctionRunCreator.resolveWith r'.output))
    (hrest : ∀ i, i≠id → ¬ c.Depends i id → c'.functionRuns.lookup i = c.functionRuns.lookup i) :
    c'.Consistent := by
  have hblank := hc.blank hr hopen
  -- every run of the new context is the finished one, a resolved one or an old one
  have hcases : ∀ {i q'}, c'.functionRuns.lookup i = some q' → (i=id ∧ q'=r') ∨
      (i≠id ∧ ∃ q, c.functionRuns.lookup i = some q ∧ (c.Depends i id ∧
        q' = FunctionRunCreator.resolveWith r'.output q ∨ ¬ c.Depends i id ∧ q'=q)) := by
    intro i q' h
    by_cases hi : i=id
    · subst hi
      exact .inl ⟨rfl,Option.some.inj (h.symm.trans hself)⟩
    right
    refine ⟨hi,?_⟩
    by_cases hd : c.Depends i id
    · rw [hdep i hd] at h
      obtain ⟨q,hq,he⟩ := Option.map_eq_some_iff.mp h
      exact ⟨q,hq,.inl ⟨hd,he.symm⟩⟩
    · rw [hrest i hi hd] at h
      exact ⟨q',h,.inr ⟨hd,rfl⟩⟩
  have hwaits : ∀ {i t}, c'.Waits i t ↔ c.Waits i t := by
    intro i t
    constructor
    · rintro ⟨q',hq',ht⟩
      rcases hcases hq' with ⟨-,rfl⟩ | ⟨-,q,hq,⟨-,rfl⟩ | ⟨-,rfl⟩⟩
      · rw [hchild] at ht; cases ht
      · exact ⟨q,hq,ht⟩
      · exact ⟨_,hq,ht⟩
    rintro ⟨q,hq,ht⟩
    by_cases hi : i=id
    · subst hi
      cases hq.symm.trans hr
      rw [hblank.1] at ht; cases ht
    by_cases hd : c.Depends i id
    · exact ⟨FunctionRunCreator.resolveWith r'.output q,by rw [hdep i hd,hq]; rfl,ht⟩
    · exact ⟨q,by rw [hrest i hi hd,hq],ht⟩
  have hsome : ∀ {i}, c.Depends i id → r'.output.isSome := by
    intro i hd
    rcases hout with hout | hnone
    · exact hout
    · obtain ⟨q,-,hq⟩ := Relation.TransGen.tail'_iff.mp hd
      exact absurd hq (hnone q)
  constructor
  · intro i q' hq'
    rcases hcases hq' with ⟨rfl,rfl⟩ | ⟨-,q,hq,⟨-,rfl⟩ | ⟨-,rfl⟩⟩
    · exact hid
    · change q.id = i
      exact hc.runs_keyed hq
    · exact hc.runs_keyed hq
  · intro i f hf
    rw [hcalls] at hf
    exact hc.calls_keyed hf
  · intro i hi
    rw [hcalls]
    obtain ⟨q',hq'⟩ := exists_of_mem hi
    rcases hcases hq' with ⟨rfl,-⟩ | ⟨-,q,hq,-⟩
    · exact hc.called (mem_of_lookup hr)
    · exact hc.called (mem_of_lookup hq)
  · intro i q' hq' hs
    rcases hcases hq' with ⟨rfl,rfl⟩ | ⟨-,q,hq,⟨-,rfl⟩ | ⟨-,rfl⟩⟩
    · exact absurd hstatus hs
    · exact absurd rfl hs
    · exact hc.blank hq hs
  · intro i q' hq' hs hl
    rcases hcases hq' with ⟨rfl,rfl⟩ | ⟨-,q,hq,⟨-,rfl⟩ | ⟨-,rfl⟩⟩
    · exact hsucc
    · rfl
    · exact hc.leaf hq hs hl
  · intro i t hw
    rw [hcalls]
    exact hc.target (hwaits.mp hw)
  · intro i q' t hq' ht
    rcases hcases hq' with ⟨rfl,rfl⟩ | ⟨-,q,hq,⟨hd,rfl⟩ | ⟨hd,rfl⟩⟩
    · rw [hchild] at ht; cases ht
    · -- the target of a resolved run is the finished run or resolved too
      refine .inr ⟨rfl,hsome hd,?_⟩
      obtain ⟨q2,t2,hq2,ht2,hnext⟩ := hd.lookup
      cases hq.symm.trans hq2
      cases Option.some.inj (ht.symm.trans ht2)
      rcases hnext with rfl | hnext
      · exact ⟨r',hself,hsucc,rfl⟩
      · obtain ⟨q3,-,hq3,-⟩ := hnext.lookup
        exact ⟨FunctionRunCreator.resolveWith r'.output q3,by rw [hdep t hnext,hq3]; rfl,rfl,rfl⟩
    · have hti : t≠id := by
        rintro rfl
        exact hd (Relation.TransGen.single ⟨_,hq,ht⟩)
      have htd : ¬ c.Depends t id := fun h => hd (Relation.TransGen.head ⟨_,hq,ht⟩ h)
      rw [hrest t hti htd]
      exact hc.linked hq ht
  · intro i j t hi hj
    exact hc.single (hwaits.mp hi) (hwaits.mp hj)
  · obtain ⟨rank,hrank⟩ := hc.ranked
    exact ⟨rank,fun h => hrank (hwaits.mp h)⟩

variable (hkeyed : ∀ {i f}, c'.functionCalls.lookup i = some f → f.functionCallId=i)
include hkeyed

lemma Consistent.of_calls (hruns : c'.functionRuns=c.functionRuns)
    (hcalled : ∀ {i}, i∈c.functionRuns → i∈c'.functionCalls)
    (htarget : ∀ {i t'}, c.Waits i t' → t'∈c'.functionCalls) : c'.Consistent := by
  cases c
  cases c'
  cases hruns
  exact {hc with calls_keyed := hkeyed, called := hcalled, target := htarget}

variable (hid : r'.id=id) (hruns : c'.functionRuns = c.functionRuns.insert id r')
  (hno : r'.outcome=none) (hnoout : r'.output=none)
include hid hruns hno hnoout

lemma Consistent.replace
    (hopen : ∀ r, c.functionRuns.lookup id = some r → r.outcome ≠ some .success)
    (hcalled : ∀ {i}, i=id ∨ i∈c.functionRuns → i∈c'.functionCalls)
    (hchild : r'.status=.completed ↔ r'.childFunctionCall≠none)
    (hlinked : ∀ t, r'.childFunctionCall = some t → t≠id ∧
      ∀ q, c.functionRuns.lookup t = some q → q.outcome ≠ some .success)
    (htarget : ∀ {i t}, c'.Waits i t → t∈c'.functionCalls)
    (hsingle : ∀ {i j t}, c'.Waits i t → c'.Waits j t → i=j)
    (hranked : ∃ rank : FunctionCallId → ℕ, ∀ {i t}, c'.Waits i t → rank t<rank i) :
    c'.Consistent := by
  have hcases : ∀ {i q}, c'.functionRuns.lookup i = some q →
      i = id ∧ q=r' ∨ i≠id ∧ c.functionRuns.lookup i = some q :=
    fun hq => lookup_insert_cases (hruns ▸ hq)
  refine ⟨?_,hkeyed,?_,?_,?_,htarget,?_,hsingle,hranked⟩
  · intro i q hq
    rcases hcases hq with ⟨rfl,rfl⟩ | ⟨-,hq⟩
    · exact hid
    · exact hc.runs_keyed hq
  · intro i hi
    rw [hruns,AList.mem_insert] at hi
    exact hcalled hi
  · intro i q hq hs
    rcases hcases hq with ⟨rfl,rfl⟩ | ⟨-,hq⟩
    · exact ⟨by_contra fun h => hs (hchild.mpr h),hnoout,hno⟩
    · exact hc.blank hq hs
  · intro i q hq hs hl
    rcases hcases hq with ⟨rfl,rfl⟩ | ⟨-,hq⟩
    · exact absurd hl (hchild.mp hs)
    · exact hc.leaf hq hs hl
  · intro i q t hq hqt
    rcases hcases hq with ⟨rfl,rfl⟩ | ⟨-,hq⟩
    · obtain ⟨hne,ht⟩ := hlinked t hqt
      refine .inl ⟨hno,hnoout,fun q hq => ht q ?_⟩
      exact ((hcases hq).resolve_left fun h => hne h.1).2
    -- whoever waits for the replaced run stays unresolved with it
    rcases hc.linked hq hqt with ⟨ho,hout,hwait⟩ | ⟨ho,hout,q',hq',ho',hsame⟩
    · refine .inl ⟨ho,hout,fun q' hq' => ?_⟩
      rcases hcases hq' with ⟨-,rfl⟩ | ⟨-,hq'⟩
      · simp [hno]
      · exact hwait q' hq'
    have hne : t≠id := by
      rintro rfl
      exact hopen q' hq' ho'
    refine .inr ⟨ho,hout,q',?_,ho',hsame⟩
    rw [hruns,lookup_insert_if,if_neg hne]
    exact hq'

lemma Consistent.tail_call (hr : c.functionRuns.lookup id = some r) (hopen : r.status≠.completed)
    (hchild : r'.childFunctionCall = some t) (hstatus : r'.status=.completed)
    (hcalled : ∀ {i}, i∈c.functionRuns → i∈c'.functionCalls)
    (htarget : ∀ {i t'}, c.Waits i t' → t'∈c'.functionCalls) (ht : t∈c'.functionCalls) (hne : t≠id)
    (hback : ¬ c.Depends t id) (hfree : ∀ q, ¬ c.Waits q t)
    (hopent : ∀ q, c.functionRuns.lookup t = some q → q.outcome ≠ some .success) : c'.Consistent := by
  have hblank := hc.blank hr hopen
  have hwaits : ∀ {i t'}, c'.Waits i t' → c.Waits i t' ∨ i=id ∧ t'=t := by
    rintro i t' ⟨q,hq,hqt⟩
    rw [hruns] at hq
    rcases lookup_insert_cases hq with ⟨hi,rfl⟩ | ⟨-,hq⟩
    · exact .inr ⟨hi,Option.some.inj (hqt.symm.trans hchild)⟩
    · exact .inl ⟨q,hq,hqt⟩
  refine hc.replace hkeyed hid hruns hno hnoout ?_ ?_ (by simp [hstatus,hchild]) ?_ ?_ ?_ ?_
  · intro q hq
    cases hq.symm.trans hr
    simp [hblank.2.2]
  · rintro i (rfl | hi)
    · exact hcalled (mem_of_lookup hr)
    · exact hcalled hi
  · intro t' ht'
    cases Option.some.inj (ht'.symm.trans hchild)
    exact ⟨hne,hopent⟩
  · intro i t' hw
    rcases hwaits hw with hw | ⟨-,rfl⟩
    · exact htarget hw
    · exact ht
  · intro i j t' hi hj
    rcases hwaits hi with hi | ⟨hi,hit⟩ <;> rcases hwaits hj with hj | ⟨hj,hjt⟩
    · exact hc.single hi hj
    · rw [hjt] at hi
      exact absurd hi (hfree i)
    · rw [hit] at hj
      exact absurd hj (hfree j)
    · rw [hi,hj]
  · obtain ⟨rank,hrank⟩ := ranked_insert hc.ranked hne hback
    exact ⟨rank,fun h => hrank (hwaits h)⟩

omit hkeyed in
lemma Consistent.blank_run (hold : ∀ r, c.functionRuns.lookup id = some r → r.status≠.completed)
    (hstatus : r'.status≠.completed) (hchild : r'.childFunctionCall=none)
    (hcalls : c'.functionCalls=c.functionCalls) (hcall : id∈c.functionCalls) : c'.Consistent := by
  have hwaits : ∀ {i t}, c'.Waits i t → c.Waits i t := by
    rintro i t ⟨q,hq,hqt⟩
    rw [hruns] at hq
    rcases lookup_insert_cases hq with ⟨-,rfl⟩ | ⟨-,hq⟩
    · cases hchild.symm.trans hqt
    · exact ⟨q,hq,hqt⟩
  refine hc.replace ?_ hid hruns hno hnoout ?_ ?_ (by simp [hstatus,hchild]) ?_ ?_
    (fun hi hj => hc.single (hwaits hi) (hwaits hj)) ?_
  · rw [hcalls]
    exact hc.calls_keyed
  · intro q hq
    simp [(hc.blank hq (hold q hq)).2.2]
  · rw [hcalls]
    rintro i (rfl | hi)
    · exact hcall
    · exact hc.called hi
  · intro t ht
    rw [hchild] at ht; cases ht
  · rw [hcalls]
    exact fun hw => hc.target (hwaits hw)
  · obtain ⟨rank,hrank⟩ := hc.ranked
    exact ⟨rank,fun h => hrank (hwaits h)⟩

end RequestCtx
end Indexify
