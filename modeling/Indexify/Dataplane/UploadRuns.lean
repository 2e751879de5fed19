import Indexify.Dataplane.UploadBalance

/-! The uploads along a run of the controller: in every phase of an allocation the uploads that are
open are those its finalization will close. -/
namespace Indexify.Dataplane
open AllocationController
variable {p p' : Phase}

namespace Phase

def openUploads : Phase → List MultipartUploadHandle
  | .waiting ctx | .running ctx | .finalizing ctx => toClose ctx
  | _ => []

/-- Before it has run an allocation has at most the upload of its request error. -/
def Early : Phase → Prop
  | .waiting ctx | .running ctx => ctx.outputBlobHandles = [] ∧ ctx.feResult=none
  | _ => True

end Phase

lemma toClose_of_isEmpty {ctx : FinalizationContext} (h : ctx.isEmpty=true) : toClose ctx = [] := by
  obtain ⟨handle,outputs,feResult⟩ := ctx
  simp only [FinalizationContext.isEmpty,Bool.and_eq_true,Option.isNone_iff_eq_none,List.isEmpty_iff] at h
  obtain ⟨⟨rfl,rfl⟩,rfl⟩ := h
  rfl

lemma Quiet.openUploads (h : Quiet p p') (he : p.Early) : p'.Early ∧ p'.openUploads=p.openUploads := by
  cases h with
  | start ctx => exact ⟨he,rfl⟩
  | close ctx => exact ⟨trivial,rfl⟩
  | drop ctx hempty => exact ⟨trivial,(toClose_of_isEmpty hempty).symm⟩

lemma Silent.openUploads (h : Silent p p') (he : p.Early) : p'.Early ∧ p'.openUploads=p.openUploads := by
  cases h with
  | quiet h => exact h.openUploads he
  | accept feId
  | refuse
  | forget => exact ⟨trivial,rfl⟩

lemma openUploads_of_reflTransGen {R : Phase → Phase → Prop}
    (hR : ∀ {p p'}, R p p' → p.Early → p'.Early ∧ p'.openUploads=p.openUploads)
    (h : Relation.ReflTransGen R p p') (he : p.Early) : p'.Early ∧ p'.openUploads=p.openUploads := by
  induction h with
  | refl => exact ⟨he,rfl⟩
  | tail _ hstep ih =>
    obtain ⟨he',ho⟩ := hR hstep ih.1
    exact ⟨he',ho.trans ih.2⟩

namespace Uploads
variable {u : Uploads} {s : AllocationController} {e : ControllerEvent}

/-- The uploads of the allocation that are open are those its phase has to close. -/
def BalancedAt (s : AllocationController) (log : List UploadEntry) (id : String) : Prop :=
  ∃ p, s.phaseOf id = some p ∧ p.Early ∧ ∀ h, opened log id h = closed log id h + p.openUploads.count h

/-- Every allocation is balanced and the controller runs. -/
structure Balanced (u : Uploads) : Prop where
  balanced : ∀ id, BalancedAt u.controller u.log id
  running : u.controller.stopped=false

lemma BalancedAt.evolve {s' : AllocationController} {log : List UploadEntry} {id : String}
    (h : BalancedAt s log id) (he : Evolves Silent s s') : BalancedAt s' log id := by
  obtain ⟨p,hp,hearly,hb⟩ := h
  obtain ⟨p',hp',hr⟩ := he id p hp
  obtain ⟨hearly',ho⟩ := openUploads_of_reflTransGen Silent.openUploads hr hearly
  refine ⟨p',hp',hearly',fun x => ?_⟩
  rw [ho]
  exact hb x

lemma BalancedAt.become {s' : AllocationController} {log entries : List UploadEntry}
    {id : String} {p p₁ : Phase} (hall : ∀ x, BalancedAt s log x) (hp : s.phaseOf id = some p)
    (hs : Becomes id p₁ s s') (hearly : p₁.Early) (hown : ∀ e∈entries, e.allocationId=id)
    (hbalance : ∀ h, opened entries id h + p.openUploads.count h =
      closed entries id h + p₁.openUploads.count h) (x : String) :
    BalancedAt s' (log++entries) x := by
  obtain ⟨q,hq,hqearly,hb⟩ := hall x
  by_cases hx : x=id
  · subst hx
    cases hp.symm.trans hq
    obtain ⟨p',hp',hr⟩ := hs x p₁ (Function.update_self _ _ _)
    obtain ⟨hearly',ho⟩ := openUploads_of_reflTransGen Quiet.openUploads hr hearly
    refine ⟨p',hp',hearly',fun h => ?_⟩
    have hbefore := hb h
    have hwork := hbalance h
    rw [ho,opened_append,closed_append]
    omega
  · obtain ⟨q',hq',hr⟩ := hs x q ((Function.update_of_ne hx _ _).trans hq)
    obtain ⟨hearly',ho⟩ := openUploads_of_reflTransGen Quiet.openUploads hr hqearly
    refine ⟨q',hq',hearly',fun h => ?_⟩
    rw [ho,opened_append,closed_append,opened_of_other hown hx,closed_of_other hown hx]
    exact hb h

/-- Nothing overtakes a preparation, and the controller is not shut down. -/
def Patient (s : AllocationController) : ControllerEvent → Prop
  | .reconcile _ removed gpuFails _ => ∀ feId ∈ removed++gpuFails, s.NonePreparing feId
  | .killAllocation id => s.NotPreparing id
  | .startupComplete feId result => result.isOk=true ∨ s.NonePreparing feId
  | .containerTerminated feId _ => s.NonePreparing feId
  | .shutdown _ => False
  | _ => True

/-- The step leaves no upload behind: nothing overtakes a preparation, a preparation does not fail
after it has created an upload, what the function executor asks for is served and used, and the
completions of the finalization succeed. -/
def Careful (u : Uploads) : UploadEvent → Prop
  | .command e => Patient u.controller e
  | .prepared _ _ answer argsPresigned =>
    argsPresigned = true ∨ ∀ uploadId, answer ≠ .ready uploadId
  | .executed id uriPrefix messages ending =>
    (∀ m∈messages, m.Served) ∧ UsesAll (AllocationRunner.new id uriPrefix) messages ending
  | .finalized _ _ errorCompletes outputsCompletes => errorCompletes=true ∧ outputsCompletes=true

lemma step_of_running (h : s.stopped=false) (e : ControllerEvent) :
    s.step e = s.handle e := if_neg (by simp [h])

section
variable (he : ∀ id result, e ≠ .prepared id result)
  (he' : ∀ id outcome, e ≠ .executionFinished id outcome)
  (he'' : ∀ id ctx isSuccess, e ≠ .finalizationFinished id ctx isSuccess)
include he he' he''

lemma evolves_handle (h : Patient s e) : Evolves Silent s (s.handle e) := by
  cases e with
  | reconcile added removed gpuFails new =>
    exact evolves_reconcile new (fun feId hfe => h feId (List.mem_append_left _ hfe))
      fun feId hfe => h feId (List.mem_append_right _ hfe)
  | killAllocation id => exact (evolves_cancelAllocation h).silent
  | startupComplete feId result =>
    unfold handle AllocationController.complete
    dsimp only
    split_ifs
    · refine (evolves_without (.startup feId) rfl).trans (Evolves.silent ?_)
      exact evolves_handleContainerStartupComplete h
    · exact .refl s
  | containerTerminated feId reason =>
    refine (evolves_without (.terminated feId reason) rfl).trans (Evolves.silent ?_)
    exact evolves_handleContainerTerminated reason h
  | prepared id result => exact absurd rfl (he id result)
  | executionFinished id outcome => exact absurd rfl (he' id outcome)
  | finalizationFinished id ctx isSuccess => exact absurd rfl (he'' id ctx isSuccess)
  | shutdown finished => exact h.elim

lemma Balanced.command (h : u.Balanced) (hp : Patient u.controller e) :
    Balanced {u with controller := u.controller.step e} := by
  rw [step_of_running h.running]
  refine ⟨fun id => (h.balanced id).evolve (evolves_handle he he' he'' hp),?_⟩
  rcases stopped_handle u.controller e with ⟨finished,rfl⟩ | hst
  · exact hp.elim
  · exact hst.trans h.running

end

lemma Balanced.deliver (h : u.Balanced) {task : Pending} {entries : List UploadEntry}
    (he : ∀ finished, e ≠ .shutdown finished)
    (hwork : task∈u.controller.pending → ∀ id, BalancedAt (u.controller.handle e) (u.log++entries) id) :
    (u.deliver task entries e).Balanced := by
  unfold Uploads.deliver
  split_ifs with hm
  · rw [step_of_running h.running]
    refine ⟨hwork hm,?_⟩
    rcases stopped_handle u.controller e with ⟨finished,rfl⟩ | hst
    · exact absurd rfl (he finished)
    · exact hst.trans h.running
  · exact h

lemma prepareAllocation_spec (id uriPrefix : String) {answer : CreateAnswer} {argsPresigned : Bool}
    (h : argsPresigned=true ∨ ∀ uploadId, answer ≠ .ready uploadId) :
    (∀ e ∈ (prepareAllocation id uriPrefix answer argsPresigned).1, e.allocationId=id) ∧
      ∀ x, opened (prepareAllocation id uriPrefix answer argsPresigned).1 id x =
        closed (prepareAllocation id uriPrefix answer argsPresigned).1 id x +
          (toClose (preparedCtx (prepareAllocation id uriPrefix answer argsPresigned).2)).count x := by
  have hnothing : toClose (preparedCtx (if argsPresigned then some none else none)) = [] := by
    cases argsPresigned <;> rfl
  unfold prepareAllocation prepareRequestErrorBlob
  cases answer with
  | refused =>
    refine ⟨by simp,fun x => ?_⟩
    rw [hnothing]
    rfl
  | unsigned uploadId =>
    refine ⟨by simp,fun x => ?_⟩
    dsimp only
    rw [hnothing,← List.singleton_append,opened_append,closed_append]
    simp
  | ready uploadId =>
    obtain rfl := h.resolve_right fun hne => hne uploadId rfl
    simp [preparedCtx,FinalizationContext.ofPrepared,toClose,List.count_singleton]

lemma Balanced.step (h : u.Balanced) {e : UploadEvent} (hc : Careful u e) : (u.step e).Balanced := by
  cases e with
  | command e =>
    cases e with
    | prepared | executionFinished | finalizationFinished => exact h
    | reconcile | killAllocation | startupComplete | containerTerminated =>
      exact h.command (by simp) (by simp) (by simp) hc
    | shutdown => exact hc.elim
  | prepared id uriPrefix answer argsPresigned =>
    refine h.deliver (by simp) fun hm => ?_
    obtain ⟨p,hp,-⟩ := h.balanced id
    obtain ⟨⟨feId,rfl⟩,hbecomes⟩ := becomes_prepared hm hp
      (prepareAllocation id uriPrefix answer argsPresigned).2
    obtain ⟨hown,hbalance⟩ := prepareAllocation_spec id uriPrefix hc
    have hhandle : u.controller.handle (.prepared id
        (prepareAllocation id uriPrefix answer argsPresigned).2) =
        (u.controller.without (.prepare id)).handleAllocationPrepared id
          (prepareAllocation id uriPrefix answer argsPresigned).2 := if_pos hm
    rw [hhandle]
    refine BalancedAt.become h.balanced hp hbecomes ?_ hown fun x => hbalance x
    unfold preparedCtx
    split <;> exact ⟨rfl,rfl⟩
  | executed id uriPrefix messages ending =>
    refine h.deliver (by simp) fun hm => ?_
    obtain ⟨p,hp,hearly,-⟩ := h.balanced id
    obtain ⟨ctx,rfl,hbecomes⟩ := becomes_executed hm hp
      (ending.outcome ((AllocationRunner.new id uriPrefix).run messages).outputBlobHandles)
    obtain ⟨hown,hbalance⟩ := executed_balance id uriPrefix hc.1 hc.2 hearly.1 hearly.2
    have hhandle : u.controller.handle (.executionFinished id (ending.outcome
        ((AllocationRunner.new id uriPrefix).run messages).outputBlobHandles)) =
        (u.controller.without (.execute id)).handleAllocationExecutionFinished id (ending.outcome
          ((AllocationRunner.new id uriPrefix).run messages).outputBlobHandles) := if_pos hm
    rw [hhandle]
    exact BalancedAt.become h.balanced hp hbecomes trivial hown fun x => hbalance x
  | finalized id ctx errorCompletes outputsCompletes =>
    obtain ⟨rfl,rfl⟩ := hc
    refine h.deliver (by simp) fun hm => ?_
    obtain ⟨p,hp,-⟩ := h.balanced id
    obtain ⟨rfl,hbecomes⟩ := becomes_finalized hm hp true
    obtain ⟨hown,hspec⟩ := finalizeAllocation_spec id ctx
    have hhandle : u.controller.handle (.finalizationFinished id ctx true) =
        (u.controller.without (.finalize id ctx)).handleAllocationFinalizationFinished id true :=
      if_pos hm
    rw [hhandle]
    refine BalancedAt.become h.balanced hp hbecomes trivial hown fun x => ?_
    obtain ⟨ho,hcl⟩ := hspec x
    rw [ho,hcl]
    simp [Phase.openUploads]

/-- When an allocation is done, none of its tasks is out and every upload that was created for it
has been completed, or its abort requested, as often as it was created. -/
theorem done_uploads_closed_once (recovered : Dict String ManagedFE) (es : List UploadEvent)
    (h : Trace.Along step Careful (new recovered) es) (id : String) (a : ManagedAllocation)
    (ha : ((new recovered).run es).controller.allocations.lookup id = some a) (hd : a.state=.done) :
    ((new recovered).run es).controller.tasksOf id = [] ∧
      ∀ handle, opened ((new recovered).run es).log id handle =
        closed ((new recovered).run es).log id handle := by
  have hbalanced : ((new recovered).run es).Balanced :=
    Trace.Along.invariant (fun hb hc => hb.step hc) ⟨fun _ => ⟨.absent,rfl,trivial,fun _ => rfl⟩,rfl⟩ h
  obtain ⟨p,hp,-,hb⟩ := hbalanced.balanced id
  rw [phaseOf,ha] at hp
  obtain ⟨ht,rfl⟩ := phase_of_done hd hp
  exact ⟨ht,hb⟩

end Uploads

/-- An allocation that writes a key of the request state and returns its one output blob. -/
def wroteAndReturned : List UploadEvent :=
  [.command (deliver "a"),.prepared "a" "e" (.ready "1") true,.executed "a" "d"
      [⟨[⟨some "o",.ready "2"⟩],[],[⟨some "w",some "k",some (.prepareWrite (.ready "3"))⟩]⟩,
        ⟨[],[],[⟨some "c",none,some (.commitWrite (some ⟨some "w",["t"]⟩) true)⟩]⟩]
      (.result ⟨.success,none,none,none,0⟩ ⟨false,none,some ⟨some "o",["t"]⟩⟩),
    .finalized "a" ⟨some ⟨"e.a.req_error","1"⟩,[⟨"d.a.output_o","2"⟩],
      some ⟨false,none,some ⟨some "o",["t"]⟩⟩⟩ true true]

lemma wroteAndReturned_careful :
    Trace.Along Uploads.step Uploads.Careful (Uploads.new oneContainer) wroteAndReturned := by
  refine ⟨?_,Or.inl rfl,⟨?_,?_⟩,⟨rfl,rfl⟩,trivial⟩
  · intro feId hfe
    cases hfe
  · intro m hm
    simp only [List.mem_cons,List.not_mem_nil,or_false] at hm
    rcases hm with rfl | rfl <;> exact ⟨by simp,by simp,by simp⟩
  · refine ⟨by decide,by decide,?_⟩
    rintro blobId etags ⟨⟩ b hb hne
    exact absurd (List.mem_singleton.mp hb) hne

theorem wroteAndReturned_closed_once :
    ((Uploads.new oneContainer).run wroteAndReturned).controller.tasksOf "a" = [] ∧
      ∀ handle, opened ((Uploads.new oneContainer).run wroteAndReturned).log "a" handle =
        closed ((Uploads.new oneContainer).run wroteAndReturned).log "a" handle :=
  Uploads.done_uploads_closed_once oneContainer wroteAndReturned wroteAndReturned_careful "a"
    ⟨⟨some "a",none,none,none⟩,"c",.done⟩ (by decide) rfl

def killedInPreparation : List UploadEvent :=
  [.command (deliver "a"),.command (.killAllocation "a"),.finalized "a" ⟨none,[],none⟩ true true,
    .prepared "a" "e" (.ready "1") true]

/-- The upload of its preparation is never closed. -/
theorem killed_preparation_leaks :
    (((Uploads.new oneContainer).run killedInPreparation).controller.allocations.lookup "a").map
        ManagedAllocation.state = some .done ∧
      ((Uploads.new oneContainer).run killedInPreparation).controller.pending = [] ∧
      opened ((Uploads.new oneContainer).run killedInPreparation).log "a" ⟨"e.a.req_error","1"⟩ = 1 ∧
      closed ((Uploads.new oneContainer).run killedInPreparation).log "a"
        ⟨"e.a.req_error","1"⟩ = 0 := by decide

end Indexify.Dataplane
