import Indexify.Dataplane.AllocationPhases
import Indexify.Dataplane.Uploads

/-! The books of the uploads: what an execution opens and closes, read off the messages of the
function executor, and the balance of every allocation along a run of the controller. -/
namespace Indexify.Dataplane
open List Dict
variable {id : String} {op : UploadOp}

/-! ### What the messages ask for -/

/-- What a function executor has asked for so far. -/
structure FeUse where
  /-- The output blobs it has named. -/
  seen : List String
  /-- Those that have got an upload. -/
  requested : List String
  calls : List String
  /-- The output blobs that were passed on as the arguments of a call. -/
  spent : List String
  /-- The writes of the request state that are prepared and not committed. -/
  writes : List String

namespace FeUse

def none : FeUse := ⟨[],[],[],[],[]⟩

def request (u : FeUse) (r : BlobRequest) : FeUse :=
  let blobId := r.id.getD ""
  if blobId ≠ "" ∧ blobId∉u.seen then
    match r.answer with
    | .ready _ => {u with seen := u.seen++[blobId], requested := u.requested++[blobId]}
    | _ => {u with seen := u.seen++[blobId]}
  else u

def blobOf (u : FeUse) (blob : Option FeBlob) : List String :=
  match blob with
  | some ⟨some blobId,_::_⟩ => if blobId∈u.requested then [blobId] else []
  | _ => []

def call (u : FeUse) (c : FunctionCallEntry) : FeUse :=
  let callId := c.id.getD ""
  if callId ≠ "" ∧ callId∉u.calls then
    {u with calls := u.calls++[callId], spent := u.spent++u.blobOf c.argsBlob}
  else u

def operation (u : FeUse) (entry : StateOperationEntry) : FeUse :=
  let operationId := entry.operationId.getD ""
  if operationId = "" then u
  else
    match entry.operation with
    | some (.prepareWrite (.ready _)) =>
      if operationId∈u.writes then u else {u with writes := u.writes++[operationId]}
    | some (.commitWrite (some ⟨some writeOpId,_⟩) _) => {u with writes := u.writes.erase writeOpId}
    | _ => u

def message (u : FeUse) (m : FeMessage) : FeUse :=
  m.requestStateOperations.foldl operation
    (m.functionCalls.foldl call (m.outputBlobRequests.foldl request u))

def of (messages : List FeMessage) : FeUse := messages.foldl message none

end FeUse

/-- No upload is left without its presigned parts and no completion fails. -/
structure FeMessage.Served (m : FeMessage) : Prop where
  requests : ∀ r∈m.outputBlobRequests, ∀ uploadId, r.answer ≠ .unsigned uploadId
  calls : ∀ c∈m.functionCalls, c.completes=true
  commits : ∀ entry∈m.requestStateOperations, ∀ blob, entry.operation ≠ some (.commitWrite blob false)

namespace AllocationRunner
variable {r : AllocationRunner} {u : FeUse}

def handleOf (r : AllocationRunner) (up : String → String) (blobId : String) :
    MultipartUploadHandle := ⟨r.blobUri blobId,up blobId⟩

def pendingWrites (r : AllocationRunner) (h : MultipartUploadHandle) : ℕ :=
  r.pendingWriteOps.total fun v => if v=h then 1 else 0

/-- The runner has done what it was asked for. -/
structure Follows (u : FeUse) (up : String → String) (r : AllocationRunner) : Prop where
  seen : r.seenBlobIds=u.seen
  calls : r.seenFunctionCallIds=u.calls
  requested : ∀ b∈u.requested, b∈u.seen
  nodup : u.requested.Nodup
  spent : ∀ b∈u.spent, b∈u.requested
  handles : r.outputBlobHandles = u.requested.map (r.handleOf up)
  writes : ∀ op, op∈r.pendingWriteOps ↔ op∈u.writes
  writesNodup : u.writes.Nodup
  own : ∀ e∈r.log, e.allocationId=r.allocationId
  balance : ∀ h, opened r.log r.allocationId h + (u.spent.map (r.handleOf up)).count h =
    closed r.log r.allocationId h + r.outputBlobHandles.count h + r.pendingWrites h

lemma follows_new (id uriPrefix : String) (up : String → String) :
    (new id uriPrefix).Follows FeUse.none up where
  seen := rfl
  calls := rfl
  requested := by simp [FeUse.none]
  nodup := nodup_nil
  spent := by simp [FeUse.none]
  handles := rfl
  writes := by simp [new,FeUse.none]
  writesNodup := nodup_nil
  own := by simp [new]
  balance _ := rfl

end AllocationRunner

/-! ### The entries of the log -/

lemma opened_append (l l' : List UploadEntry) (id : String) (h : MultipartUploadHandle) :
    opened (l++l') id h = opened l id h + opened l' id h := count_append

lemma closed_append (l l' : List UploadEntry) (id : String) (h : MultipartUploadHandle) :
    closed (l++l') id h = closed l id h + closed l' id h := by
  unfold closed
  rw [count_append,count_append]
  omega

lemma opened_of_other {l : List UploadEntry} {x : String} (hl : ∀ e∈l, e.allocationId=id)
    (hx : x≠id) (h : MultipartUploadHandle) : opened l x h = 0 :=
  count_eq_zero.mpr fun hm => hx (hl _ hm)

lemma closed_of_other {l : List UploadEntry} {x : String} (hl : ∀ e∈l, e.allocationId=id)
    (hx : x≠id) (h : MultipartUploadHandle) : closed l x h = 0 := by
  unfold closed
  rw [count_eq_zero.mpr fun hm => hx (hl _ hm),count_eq_zero.mpr fun hm => hx (hl _ hm)]

section
variable (id) (h h' : MultipartUploadHandle)

@[simp] lemma opened_created : opened [⟨id,h',.created⟩] id h = if h'=h then 1 else 0 := by
  simp [opened,count_cons]

@[simp] lemma closed_created : closed [⟨id,h',.created⟩] id h = 0 := by
  simp [closed]

@[simp] lemma opened_aborted : opened [⟨id,h',.aborted⟩] id h = 0 := by
  simp [opened]

@[simp] lemma closed_aborted : closed [⟨id,h',.aborted⟩] id h = if h'=h then 1 else 0 := by
  simp [closed,count_cons]

@[simp] lemma opened_completion : opened (completion id h' true) id h = 0 := by
  simp [opened,completion]

@[simp] lemma closed_completion : closed (completion id h' true) id h = if h'=h then 1 else 0 := by
  simp [closed,completion,count_cons]

end

def closings (id : String) (op : UploadOp) (hs : List MultipartUploadHandle) : List UploadEntry :=
  hs.map fun h => ⟨id,h,op⟩

lemma opened_closings (hop : op≠.created) (id : String) (hs : List MultipartUploadHandle)
    (h : MultipartUploadHandle) : opened (closings id op hs) id h = 0 := by
  refine count_eq_zero.mpr fun hm => ?_
  obtain ⟨x,-,hx⟩ := mem_map.mp hm
  cases hx
  exact hop rfl

lemma closed_closings (hop : op≠.created) (id : String) (hs : List MultipartUploadHandle)
    (h : MultipartUploadHandle) : closed (closings id op hs) id h = hs.count h := by
  induction hs with
  | nil => rfl
  | cons x hs ih =>
    have hcons : closings id op (x::hs) = [⟨id,x,op⟩]++closings id op hs := rfl
    rw [hcons,closed_append,ih,count_cons]
    cases op with
    | created => exact absurd rfl hop
    | completed => simp [closed,count_cons,Nat.add_comm]
    | aborted => simp [Nat.add_comm]

lemma mem_closings {hs : List MultipartUploadHandle} {e : UploadEntry}
    (h : e ∈ closings id op hs) : e.allocationId=id := by
  obtain ⟨x,-,rfl⟩ := mem_map.mp h
  rfl

/-! ### The runner -/

namespace AllocationRunner
variable {r : AllocationRunner} {u : FeUse} {up : String → String} {b : String}

lemma map_handleOf_update {l : List String} (hb : b∉l) (uploadId : String) :
    l.map (r.handleOf (Function.update up b uploadId)) = l.map (r.handleOf up) := by
  refine map_congr_left fun x hx => ?_
  have hne : x≠b := by
    rintro rfl
    exact hb hx
  rw [handleOf,Function.update_of_ne hne]
  rfl

lemma nodup_concat {l : List String} (hl : l.Nodup) (hb : b∉l) : (l++[b]).Nodup := by
  refine nodup_append.mpr ⟨hl,nodup_singleton b,fun x hx y hy hxy => ?_⟩
  rw [hxy,mem_singleton.mp hy] at hx
  exact hb hx

lemma own_append {l l' : List UploadEntry} {id : String} (hl : ∀ e∈l, e.allocationId=id)
    (hl' : ∀ e∈l', e.allocationId=id) : ∀ e ∈ l++l', e.allocationId=id :=
  fun e he => (mem_append.mp he).elim (hl e) (hl' e)

lemma Follows.request (h : r.Follows u up) {q : BlobRequest}
    (hq : ∀ uploadId, q.answer ≠ .unsigned uploadId) :
    ∃ up', (r.reconcileOutputBlob q).Follows (u.request q) up' := by
  unfold reconcileOutputBlob FeUse.request
  dsimp only
  rw [h.seen]
  split_ifs with hnew
  · have hfresh : q.id.getD "" ∉ u.requested := fun hm => hnew.2 (h.requested _ hm)
    generalize q.id.getD "" = b at hnew hfresh
    cases ha : q.answer with
    | unsigned uploadId => exact absurd ha (hq uploadId)
    | refused =>
      refine ⟨up,?_⟩
      exact {h with
        seen := rfl
        requested := fun x hx => mem_append_left _ (h.requested x hx)}
    | ready uploadId =>
      refine ⟨Function.update up b uploadId,rfl,h.calls,?_,?_,?_,?_,h.writes,h.writesNodup,?_,?_⟩
      · intro x hx
        exact mem_append.mpr ((mem_append.mp hx).imp_left (h.requested x))
      · exact nodup_concat h.nodup hfresh
      · exact fun x hx => mem_append_left _ (h.spent x hx)
      · change r.outputBlobHandles++[⟨r.blobUri b,uploadId⟩] = (u.requested++[b]).map
          (r.handleOf (Function.update up b uploadId))
        rw [map_append,map_handleOf_update hfresh,← h.handles]
        simp [handleOf]
      · exact own_append h.own (forall_mem_singleton.mpr rfl)
      · intro x
        change opened (r.log++[⟨r.allocationId,⟨r.blobUri b,uploadId⟩,.created⟩]) r.allocationId x +
          (u.spent.map (r.handleOf (Function.update up b uploadId))).count x =
          closed (r.log++[⟨r.allocationId,⟨r.blobUri b,uploadId⟩,.created⟩]) r.allocationId x +
          List.count x (r.outputBlobHandles++[⟨r.blobUri b,uploadId⟩]) + r.pendingWrites x
        have hb := h.balance x
        rw [map_handleOf_update fun hm => hfresh (h.spent b hm),opened_append,closed_append,
          opened_created,closed_created,count_append,count_singleton]
        simp only [beq_iff_eq]
        omega
  · exact ⟨up,h⟩

lemma find_handles (h : r.Follows u up) {p : MultipartUploadHandle → Bool}
    (hp : ∀ b'∈u.requested, p (r.handleOf up b') = decide (b'=b)) :
    r.outputBlobHandles.find? p = if b∈u.requested then some (r.handleOf up b) else none := by
  rw [h.handles]
  generalize u.requested = l at hp
  induction l with
  | nil => rfl
  | cons x l ih =>
    have hx := hp x mem_cons_self
    have ih := ih fun b' hb' => hp b' (mem_cons_of_mem _ hb')
    rw [map_cons,List.find?_cons,hx]
    by_cases hxb : x=b
    · subst hxb
      simp
    · simp [hxb,ih,Ne.symm hxb]

lemma mem_blobOf {blob : Option FeBlob} (h : b ∈ u.blobOf blob) : b∈u.requested := by
  unfold FeUse.blobOf at h
  split at h
  · split_ifs at h with hb
    · rw [mem_singleton.mp h]
      exact hb
    · cases h
  · cases h

variable (h : r.Follows u up)
include h

lemma log_completeArgsBlob (blob : FeBlob) : r.completeArgsBlob blob true =
    {r with log :=
      r.log++closings r.allocationId .completed ((u.blobOf (some blob)).map (r.handleOf up))} := by
  have hfind : ∀ b, r.outputBlobHandles.find? (fun x => x.uri = r.blobUri b) =
      if b∈u.requested then some (r.handleOf up b) else none := by
    refine fun b => find_handles h fun b' _ => ?_
    exact decide_eq_decide.mpr ⟨(String.append_right_inj _).mp,fun hb => hb ▸ rfl⟩
  unfold completeArgsBlob FeUse.blobOf
  obtain ⟨_ | b,_ | ⟨etag,etags⟩⟩ := blob
  · simp [closings]
  · simp [closings]
  all_goals
    dsimp only
    rw [hfind]
    by_cases hb : b∈u.requested
    · simp [hb,closings,completion]
    · simp [hb,closings]

lemma Follows.spend {bs : List String} (hbs : ∀ b∈bs, b∈u.requested) :
    Follows {u with spent := u.spent++bs} up
      {r with log := r.log++closings r.allocationId .completed (bs.map (r.handleOf up))} := by
  refine {h with spent := ?_,own := ?_,balance := ?_}
  · intro b hb
    exact (mem_append.mp hb).elim (h.spent b) (hbs b)
  · exact own_append h.own fun _ => mem_closings
  · intro x
    have hb := h.balance x
    change opened (r.log++_) r.allocationId x + ((u.spent++bs).map (r.handleOf up)).count x =
      closed (r.log++_) r.allocationId x + r.outputBlobHandles.count x + r.pendingWrites x
    rw [opened_append,closed_append,opened_closings (by simp),closed_closings (by simp),map_append,
      count_append]
    omega

lemma Follows.call {c : FunctionCallEntry} (hc : c.completes=true) :
    (r.reconcileFunctionCall c).Follows (u.call c) up := by
  unfold reconcileFunctionCall FeUse.call
  dsimp only
  rw [h.calls]
  split_ifs with hnew
  · have hseen : Follows {u with calls := u.calls++[c.id.getD ""]} up
        {r with seenFunctionCallIds := u.calls++[c.id.getD ""]} := {h with calls := rfl}
    cases c.argsBlob with
    | none =>
      simpa [FeUse.blobOf] using hseen
    | some blob =>
      dsimp only
      rw [hc,log_completeArgsBlob hseen]
      exact hseen.spend fun b => mem_blobOf
  · exact h

lemma Follows.write {op : String} (hop : op∉u.writes) (handle : MultipartUploadHandle) :
    Follows {u with writes := u.writes++[op]} up
      {r.note handle .created with pendingWriteOps := r.pendingWriteOps.insert op handle} := by
  have hnone : r.pendingWriteOps.lookup op = none :=
    AList.lookup_eq_none.mpr fun hm => hop ((h.writes op).mp hm)
  refine {h with writes := ?_,writesNodup := nodup_concat h.writesNodup hop,own := ?_,balance := ?_}
  · intro x
    rw [AList.mem_insert,h.writes,mem_append,mem_singleton,or_comm]
  · exact own_append h.own (forall_mem_singleton.mpr rfl)
  · intro x
    have hb := h.balance x
    change opened (r.log++[⟨r.allocationId,handle,.created⟩]) r.allocationId x +
      (u.spent.map (r.handleOf up)).count x =
      closed (r.log++[⟨r.allocationId,handle,.created⟩]) r.allocationId x +
      r.outputBlobHandles.count x + total _ (r.pendingWriteOps.insert op handle)
    rw [opened_append,closed_append,opened_created,closed_created,total_insert hnone]
    unfold pendingWrites at hb
    omega

lemma Follows.commit {op : String} {handle : MultipartUploadHandle}
    (hop : r.pendingWriteOps.lookup op = some handle) :
    Follows {u with writes := u.writes.erase op} up
      {r with
        pendingWriteOps := r.pendingWriteOps.erase op
        log := r.log++completion r.allocationId handle true} := by
  refine {h with
    writes := ?_,writesNodup := h.writesNodup.erase op,own := ?_,balance := ?_}
  · intro x
    rw [AList.mem_erase,h.writes,h.writesNodup.mem_erase_iff]
  · exact own_append h.own (forall_mem_singleton.mpr rfl)
  · intro x
    have hb := h.balance x
    change opened (r.log++completion r.allocationId handle true) r.allocationId x +
      (u.spent.map (r.handleOf up)).count x =
      closed (r.log++completion r.allocationId handle true) r.allocationId x +
      r.outputBlobHandles.count x + total _ (r.pendingWriteOps.erase op)
    have herase := total_erase hop fun v => if v=x then 1 else 0
    rw [opened_append,closed_append,opened_completion,closed_completion]
    unfold pendingWrites at hb
    omega

lemma Follows.giveUp (handle : MultipartUploadHandle) :
    Follows u up ((r.note handle .created).note handle .aborted) := by
  refine {h with own := ?_,balance := ?_}
  · exact own_append (own_append h.own (forall_mem_singleton.mpr rfl))
      (forall_mem_singleton.mpr rfl)
  intro x
  have hb := h.balance x
  change opened (r.log++[⟨r.allocationId,handle,.created⟩]++[⟨r.allocationId,handle,.aborted⟩])
      r.allocationId x + (u.spent.map (r.handleOf up)).count x =
    closed (r.log++[⟨r.allocationId,handle,.created⟩]++[⟨r.allocationId,handle,.aborted⟩])
      r.allocationId x + r.outputBlobHandles.count x + r.pendingWrites x
  simp only [opened_append,closed_append,opened_created,closed_created,opened_aborted,closed_aborted]
  omega

lemma Follows.operation {entry : StateOperationEntry}
    (he : ∀ blob, entry.operation ≠ some (.commitWrite blob false)) :
    (r.reconcileStateOperation entry).Follows (u.operation entry) up := by
  unfold reconcileStateOperation FeUse.operation
  by_cases hid : entry.operationId.getD "" = ""
  · rw [if_pos hid,if_pos hid]
    exact h
  rw [if_neg hid,if_neg hid]
  cases hop : entry.operation with
  | none => exact h
  | some operation =>
    cases operation with
    | prepareRead => exact h
    | prepareWrite answer =>
      dsimp only
      by_cases hw : entry.operationId.getD "" ∈ u.writes
      · rw [if_pos ((h.writes _).mpr hw)]
        cases answer with
        | ready => exact (if_pos hw).symm ▸ h
        | _ => exact h
      rw [if_neg fun hm => hw ((h.writes _).mp hm)]
      cases answer with
      | refused => exact h
      | unsigned uploadId => exact h.giveUp _
      | ready uploadId => exact (if_neg hw).symm ▸ h.write hw _
    | commitWrite blob completes =>
      have hc : completes=true := by
        cases completes with
        | true => rfl
        | false => exact absurd hop (he blob)
      subst hc
      obtain _ | ⟨_ | op,etags⟩ := blob
      · exact h
      · exact h
      · dsimp only [handleCommitWrite,Option.bind]
        cases hl : r.pendingWriteOps.lookup op with
        | none =>
          have hop' : op∉u.writes := fun hm => AList.lookup_eq_none.mp hl ((h.writes op).mpr hm)
          rw [erase_of_not_mem hop']
          exact h
        | some handle => exact h.commit hl

omit h

lemma follows_foldl {α : Type} {f : AllocationRunner → α → AllocationRunner} {g : FeUse → α → FeUse}
    {xs : List α} (hstep : ∀ {r u up} x, x∈xs → Follows u up r → ∃ up', (f r x).Follows (g u x) up')
    (h : ∃ up, r.Follows u up) : ∃ up, (xs.foldl f r).Follows (xs.foldl g u) up := by
  induction xs generalizing r u with
  | nil => exact h
  | cons x xs ih =>
    obtain ⟨up,h⟩ := h
    exact ih (fun y hy => hstep y (mem_cons_of_mem _ hy)) (hstep x mem_cons_self h)

lemma Follows.message (h : r.Follows u up) {m : FeMessage} (hm : m.Served) :
    ∃ up', (r.reconcile m).Follows (u.message m) up' := by
  have hrequests : ∃ up', (m.outputBlobRequests.foldl reconcileOutputBlob r).Follows
      (m.outputBlobRequests.foldl FeUse.request u) up' :=
    follows_foldl (fun q hq h => h.request (hm.requests q hq)) ⟨up,h⟩
  have hcalls : ∃ up', (m.functionCalls.foldl reconcileFunctionCall
      (m.outputBlobRequests.foldl reconcileOutputBlob r)).Follows
      (m.functionCalls.foldl FeUse.call (m.outputBlobRequests.foldl FeUse.request u)) up' :=
    follows_foldl (fun c hc h => ⟨_,h.call (hm.calls c hc)⟩) hrequests
  exact follows_foldl (fun e he h => ⟨_,h.operation (hm.commits e he)⟩) hcalls

lemma follows_run (id uriPrefix : String) {messages : List FeMessage} (h : ∀ m∈messages, m.Served) :
    ∃ up, ((new id uriPrefix).run messages).Follows (FeUse.of messages) up :=
  follows_foldl (fun m hm hf => hf.message (h m hm)) ⟨fun _ => "",follows_new id uriPrefix _⟩

def owner (r : AllocationRunner) : String × String := (r.allocationId,r.uriPrefix)

variable (r)

lemma owner_reconcileOutputBlob (q : BlobRequest) : (r.reconcileOutputBlob q).owner = r.owner := by
  unfold reconcileOutputBlob
  dsimp only
  split_ifs
  · cases q.answer <;> rfl
  · rfl

lemma owner_reconcileFunctionCall (c : FunctionCallEntry) :
    (r.reconcileFunctionCall c).owner = r.owner := by
  unfold reconcileFunctionCall completeArgsBlob
  dsimp only
  repeat' split
  all_goals rfl

lemma owner_reconcileStateOperation (entry : StateOperationEntry) :
    (r.reconcileStateOperation entry).owner = r.owner := by
  unfold reconcileStateOperation handleCommitWrite handlePrepareWrite
  dsimp only
  repeat' split
  all_goals rfl

lemma owner_run (messages : List FeMessage) : (r.run messages).owner = r.owner := by
  refine Trace.frame reconcile owner (fun r m => ?_) r messages
  unfold reconcile
  rw [Trace.frame _ owner owner_reconcileStateOperation,
    Trace.frame _ owner owner_reconcileFunctionCall,Trace.frame _ owner owner_reconcileOutputBlob]

variable {r}

end AllocationRunner

/-! ### Finalization -/

def resultHandles (r : FeResult) (handles : List MultipartUploadHandle) : List MultipartUploadHandle :=
  match r.uploadedFunctionOutputsBlob with
  | some ⟨some blobId,_::_⟩ => (matchingHandle handles blobId).toList
  | _ => []

def toClose (ctx : FinalizationContext) : List MultipartUploadHandle :=
  ctx.requestErrorBlobHandle.toList ++
    match ctx.feResult with
    | none => ctx.outputBlobHandles
    | some r => resultHandles r ctx.outputBlobHandles

lemma completeOutputBlobs_eq (id : String) (feResult : Option FeResult)
    (handles : List MultipartUploadHandle) :
    ∃ op, op≠UploadOp.created ∧ completeOutputBlobs id feResult handles true =
      closings id op (match feResult with
        | none => handles
        | some r => resultHandles r handles) := by
  cases feResult with
  | none => exact ⟨.aborted,by simp,rfl⟩
  | some r =>
    refine ⟨.completed,by simp,?_⟩
    unfold completeOutputBlobs completeBlobFromFe resultHandles
    dsimp only
    obtain _ | ⟨_ | b,_ | ⟨etag,etags⟩⟩ := r.uploadedFunctionOutputsBlob
    · rfl
    · rfl
    · rfl
    all_goals
      dsimp only
      cases matchingHandle handles b <;> rfl

lemma finalizeAllocation_spec (id : String) (ctx : FinalizationContext) :
    (∀ e ∈ finalizeAllocation id ctx true true, e.allocationId=id) ∧
      ∀ h, opened (finalizeAllocation id ctx true true) id h = 0 ∧
        closed (finalizeAllocation id ctx true true) id h = (toClose ctx).count h := by
  obtain ⟨op,hop,houtputs⟩ := completeOutputBlobs_eq id ctx.feResult ctx.outputBlobHandles
  have herror : ∃ op', op'≠UploadOp.created ∧ ctx.requestErrorBlobHandle.elim [] (fun handle =>
      finalizeRequestErrorBlob id ctx.feResult handle true) =
        closings id op' ctx.requestErrorBlobHandle.toList := by
    cases ctx.requestErrorBlobHandle with
    | none => exact ⟨.aborted,by simp,rfl⟩
    | some handle =>
      unfold finalizeRequestErrorBlob
      dsimp only
      split_ifs
      · exact ⟨.aborted,by simp,rfl⟩
      · exact ⟨.completed,by simp,rfl⟩
      · exact ⟨.aborted,by simp,rfl⟩
  obtain ⟨op',hop',herror⟩ := herror
  unfold finalizeAllocation toClose
  rw [houtputs,herror]
  refine ⟨AllocationRunner.own_append (fun _ => mem_closings) fun _ => mem_closings,fun h => ?_⟩
  rw [opened_append,closed_append,opened_closings hop,opened_closings hop',closed_closings hop,
    closed_closings hop',count_append]
  exact ⟨rfl,rfl⟩

/-! ### Executions -/

/-- What the function executor asks for is used: every write that is prepared is committed, and
every output blob is passed on with a call, or returned with the result, once; a run without a
result has passed on no blob. -/
def UsesAll (r : AllocationRunner) (messages : List FeMessage) : RunEnd → Prop
  | .result _ feResult =>
    (FeUse.of messages).writes = [] ∧ ((FeUse.of messages).spent ++
        (FeUse.of messages).blobOf feResult.uploadedFunctionOutputsBlob).Perm
          (FeUse.of messages).requested ∧
      ∀ blobId etags, feResult.uploadedFunctionOutputsBlob = some ⟨some blobId,etags⟩ →
        ∀ b ∈ (FeUse.of messages).requested, b≠blobId → ¬(".output_"++blobId).toList <:+ (r.blobUri b).toList
  | _ => (FeUse.of messages).writes = [] ∧ (FeUse.of messages).spent = []

namespace AllocationRunner
variable {r : AllocationRunner} {u : FeUse} {up : String → String}

lemma blobUri_of_owner {r r' : AllocationRunner} (h : r.owner=r'.owner) (b : String) :
    r.blobUri b = r'.blobUri b := by
  obtain ⟨hid,huri⟩ := Prod.mk.inj h
  rw [blobUri,blobUri,hid,huri]

lemma suffix_blobUri (r : AllocationRunner) (b : String) :
    (".output_"++b).toList <:+ (r.blobUri b).toList := by
  refine ⟨(r.uriPrefix++"."++r.allocationId).toList,?_⟩
  rw [blobUri,← String.toList_append]
  simp only [String.append_assoc]

lemma Follows.resultHandles (h : r.Follows u up) {result : FeResult}
    (hown : ∀ blobId etags, result.uploadedFunctionOutputsBlob = some ⟨some blobId,etags⟩ →
      ∀ b∈u.requested, b≠blobId → ¬(".output_"++blobId).toList <:+ (r.blobUri b).toList) :
    resultHandles result r.outputBlobHandles =
      (u.blobOf result.uploadedFunctionOutputsBlob).map (r.handleOf up) := by
  unfold Dataplane.resultHandles FeUse.blobOf
  rcases hblob : result.uploadedFunctionOutputsBlob with _ | ⟨_ | blobId,_ | ⟨etag,etags⟩⟩
  · rfl
  · rfl
  · rfl
  · rfl
  · have hfind : matchingHandle r.outputBlobHandles blobId =
        if blobId∈u.requested then some (r.handleOf up blobId) else none := by
      refine find_handles h fun b hb => decide_eq_decide.mpr ⟨fun hs => ?_,?_⟩
      · by_contra hne
        exact hown _ _ hblob b hb hne hs
      · rintro rfl
        exact r.suffix_blobUri b
    dsimp only
    rw [hfind]
    split_ifs <;> rfl

lemma Follows.pendingWrites_eq_zero (h : r.Follows u up) (hw : u.writes = [])
    (x : MultipartUploadHandle) : r.pendingWrites x = 0 := by
  have hkeys : r.pendingWriteOps.entries = [] := by
    refine eq_nil_iff_forall_not_mem.mpr fun e he => ?_
    have hmem : e.1∈r.pendingWriteOps := mem_keys_of_mem he
    rw [h.writes,hw] at hmem
    cases hmem
  rw [pendingWrites,total,values,hkeys]
  rfl

end AllocationRunner

lemma executed_balance (id uriPrefix : String) {messages : List FeMessage} {ending : RunEnd}
    (hserved : ∀ m∈messages, m.Served)
    (huse : UsesAll (AllocationRunner.new id uriPrefix) messages ending)
    {ctx : FinalizationContext} (houtputs : ctx.outputBlobHandles = []) (hfe : ctx.feResult=none) :
    (∀ e ∈ ((AllocationRunner.new id uriPrefix).run messages).log, e.allocationId=id) ∧
    ∀ h, opened ((AllocationRunner.new id uriPrefix).run messages).log id h + (toClose ctx).count h =
      closed ((AllocationRunner.new id uriPrefix).run messages).log id h +
        (toClose (AllocationController.executedCtx ctx (ending.outcome
          ((AllocationRunner.new id uriPrefix).run messages).outputBlobHandles))).count h := by
  obtain ⟨up,hf⟩ := AllocationRunner.follows_run id uriPrefix hserved
  have howner := AllocationRunner.owner_run (AllocationRunner.new id uriPrefix) messages
  generalize (AllocationRunner.new id uriPrefix).run messages = r at hf howner
  have hid : r.allocationId=id := (Prod.mk.inj howner).1
  refine ⟨fun e he => (hf.own e he).trans hid,fun h => ?_⟩
  have hbalance := hf.balance h
  have herror : (toClose ctx).count h = ctx.requestErrorBlobHandle.toList.count h := by
    rw [toClose,hfe,houtputs]
    simp
  rw [hid] at hbalance
  -- a run without a result has passed on no blob, and all its uploads are aborted
  have hfailed : (FeUse.of messages).writes = [] ∧ (FeUse.of messages).spent = [] →
      opened r.log id h + (toClose ctx).count h = closed r.log id h +
        (toClose {ctx with outputBlobHandles := r.outputBlobHandles}).count h := by
    rintro ⟨hw,hs⟩
    have hpending := hf.pendingWrites_eq_zero hw h
    rw [hs,map_nil,count_nil] at hbalance
    have hclose : (toClose {ctx with outputBlobHandles := r.outputBlobHandles}).count h =
        ctx.requestErrorBlobHandle.toList.count h + r.outputBlobHandles.count h := by
      rw [toClose,hfe,count_append]
    omega
  cases ending with
  | cancelled
  | failed reason likelyFeCrash terminationReason => exact hfailed huse
  | result report feResult =>
    obtain ⟨hw,hperm,hown⟩ := huse
    have hpending := hf.pendingWrites_eq_zero hw h
    have hresult := hf.resultHandles fun blobId etags hblob b hb hne hs => by
      rw [AllocationRunner.blobUri_of_owner howner] at hs
      exact hown blobId etags hblob b hb hne hs
    have hcount := (hperm.map (r.handleOf up)).count_eq h
    rw [map_append,count_append,← hf.handles,← hresult] at hcount
    have hclose : (toClose (AllocationController.executedCtx ctx
        (RunEnd.outcome r.outputBlobHandles (.result report feResult)))).count h =
        ctx.requestErrorBlobHandle.toList.count h +
          (resultHandles feResult r.outputBlobHandles).count h := count_append
    omega

end Indexify.Dataplane
