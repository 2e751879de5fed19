import Mathlib.Data.List.Nodup
import Indexify.Library.Trace

/-! The operations on request state that a function executor lists in its snapshots, and the answers
that it gets. Reads, writes and commits are each remembered in their own way. -/
namespace Indexify.Dataplane.StateOperations
open List

/-- An operation, with what the blob store does if it is asked. -/
inductive Operation
  | prepareRead (found signed : Bool)
  | prepareWrite (created signed : Bool)
  | commitWrite (writeOpId : Option String) (completes : Bool)

structure OperationEntry where
  operationId : Option String
  operation : Option Operation

def OperationEntry.opId (e : OperationEntry) : String := e.operationId.getD ""

/-- The handler, with the operations that it answered and the codes, and the writes and commits that
created or completed an upload. -/
structure RequestStateHandler where
  pendingReadOps : List String := []
  pendingWriteOps : List String := []
  answers : List (String × ℕ) := []
  uploads : List String := []

/-- The code of an answer, whether an upload was created or completed, and the writes that are pending
afterwards. -/
structure Handled where
  code : ℕ
  uploads : Bool
  pendingWriteOps : List String

variable (s : RequestStateHandler) (opId : String)

def handlePrepareRead (found signed : Bool) : Handled :=
  ⟨if ¬found then 5 else if ¬signed then 13 else 0,false,s.pendingWriteOps⟩

def handlePrepareWrite (created signed : Bool) : Handled :=
  if ¬created then ⟨13,false,s.pendingWriteOps⟩
  else if ¬signed then ⟨13,true,s.pendingWriteOps⟩
  else ⟨0,true,s.pendingWriteOps++[opId]⟩

def handleCommitWrite (writeOpId : Option String) (completes : Bool) : Handled :=
  if writeOpId.any (·∈s.pendingWriteOps) then
    ⟨if completes then 0 else 13,completes,s.pendingWriteOps.filter (some ·≠writeOpId)⟩
  else ⟨5,false,s.pendingWriteOps⟩

def handle : Operation → Handled
  | .prepareRead found signed => handlePrepareRead s found signed
  | .prepareWrite created signed => handlePrepareWrite s opId created signed
  | .commitWrite writeOpId completes => handleCommitWrite s writeOpId completes

def knows : Operation → Bool
  | .prepareRead _ _ => opId∈s.pendingReadOps
  | .prepareWrite _ _ => opId∈s.pendingWriteOps
  | .commitWrite _ _ => false

def readIds (es : List OperationEntry) : List String :=
  es.filterMap fun e =>
    match e.operation with
    | some (.prepareRead _ _) => if e.opId = "" then none else some e.opId
    | _ => none

def reconcileOperation (e : OperationEntry) : RequestStateHandler :=
  match e.operation with
  | none => s
  | some op =>
    if e.opId = "" ∨ knows s e.opId op then s
    else
      let handled := handle s e.opId op
      { pendingReadOps := s.pendingReadOps++readIds [e]
        pendingWriteOps := handled.pendingWriteOps
        answers := s.answers++[(e.opId,handled.code)]
        uploads := s.uploads++if handled.uploads then [e.opId] else [] }

def reconcile (snapshot : List OperationEntry) : RequestStateHandler :=
  {snapshot.foldl reconcileOperation s with pendingReadOps := readIds snapshot}

def answered : List String := s.answers.map Prod.fst

namespace OperationEntry
variable (e : OperationEntry) (id : String)

def Lists : Prop := e.opId=id ∧ id≠"" ∧ e.operation≠none

/-- The entry asks for a write, and the blob store prepares it. -/
def Prepares : Prop := e.opId=id ∧ id≠"" ∧ e.operation = some (.prepareWrite true true)

def Commits : Prop := e.opId≠"" ∧ ∃ completes, e.operation = some (.commitWrite (some id) completes)

end OperationEntry

/-- A write was prepared, and no commit of it was listed since. -/
def Prepared (es : List OperationEntry) (id : String) : Prop :=
  ∃ l₁ e l₂, es = l₁++e::l₂ ∧ e.Prepares id ∧ ∀ e'∈l₂, ¬e'.Commits id

/-- What the executor has listed: all entries so far, the snapshot before and the present one. -/
structure Listing where
  all : List OperationEntry := []
  previous : List OperationEntry := []
  current : List OperationEntry := []

namespace Listing
variable (h : Listing)

def list (e : OperationEntry) : Listing := ⟨h.all++[e],h.previous,h.current++[e]⟩

def snapshot (es : List OperationEntry) : Listing :=
  ⟨(es.foldl list h).all,(es.foldl list h).current,[]⟩

/-- A read that was in the snapshot before or stands twice in this one, or a write that was prepared
and not committed since. -/
def Remembers (id : String) : Operation → Prop
  | .prepareRead _ _ => id∈readIds h.previous++readIds h.current
  | .prepareWrite _ _ => Prepared h.all id
  | .commitWrite _ _ => False

def Allows (e : OperationEntry) : Prop :=
  ∀ op∈e.operation, (∃ e'∈h.all, e'.Lists e.opId) → h.Remembers e.opId op

end Listing

variable {s opId} {h : Listing}

lemma nodup_reconcileOperation (s : RequestStateHandler) (e : OperationEntry) :
    (answered (reconcileOperation s e)).Nodup ↔ (answered s).Nodup ∧
      ∀ op∈e.operation, e.opId≠"" → e.opId∈answered s → knows s e.opId op := by
  unfold reconcileOperation
  cases e.operation with
  | none => simp
  | some op =>
    simp only [Option.mem_some_iff,forall_eq']
    by_cases hskip : e.opId = "" ∨ knows s e.opId op
    · rw [if_pos hskip]
      exact (and_iff_left fun hid _ => hskip.resolve_left hid).symm
    · rw [if_neg hskip,answered,map_append,map_singleton,nodup_append]
      grind [answered]

lemma prepared_snoc {es : List OperationEntry} {e : OperationEntry} {id : String} :
    Prepared (es++[e]) id ↔ e.Prepares id ∨ Prepared es id ∧ ¬e.Commits id := by
  constructor
  · rintro ⟨l₁,e',l₂,heq,hprepares,hcommits⟩
    rcases eq_nil_or_concat l₂ with rfl | ⟨l,last,rfl⟩
    · obtain ⟨-,hlast⟩ := append_inj' heq rfl
      cases hlast
      exact .inl hprepares
    · rw [concat_eq_append,← cons_append,← append_assoc] at heq
      obtain ⟨rfl,hlast⟩ := append_inj' heq rfl
      cases hlast
      exact .inr ⟨⟨l₁,e',l,rfl,hprepares,fun e'' he => hcommits e'' (by simp [he])⟩,hcommits e (by simp)⟩
  · rintro (hprepares | ⟨⟨l₁,e',l₂,rfl,hprepares,hcommits⟩,hlast⟩)
    · exact ⟨es,e,[],rfl,hprepares,nofun⟩
    · refine ⟨l₁,e',l₂++[e],by simp,hprepares,fun e'' he => ?_⟩
      rcases mem_append.mp he with he | he
      · exact hcommits e'' he
      · rwa [mem_singleton.mp he]

lemma mem_readIds {es : List OperationEntry} {id : String} :
    id∈readIds es ↔ ∃ e∈es, e.opId=id ∧ id≠"" ∧ ∃ found signed, e.operation = some (.prepareRead found signed) := by
  unfold readIds
  rw [mem_filterMap]
  grind

lemma readIds_append (es es' : List OperationEntry) : readIds (es++es') = readIds es++readIds es' :=
  filterMap_append

/-- The handler remembers what was listed: a read while it stays in the snapshots, a write while it is
prepared and not committed, and nothing of a commit. -/
structure Tracks (h : Listing) (s : RequestStateHandler) : Prop where
  reads : ∀ id, id∈s.pendingReadOps ↔ id∈readIds h.previous++readIds h.current
  writes : ∀ id, id∈s.pendingWriteOps ↔ Prepared h.all id
  answers : ∀ id, id∈answered s ↔ ∃ e∈h.all, e.Lists id
  previous : h.previous⊆h.all
  current : h.current⊆h.all

lemma Tracks.knows_iff (ht : Tracks h s) {id : String} {op : Operation} :
    knows s id op ↔ h.Remembers id op := by
  cases op <;> simp only [knows,Listing.Remembers,decide_eq_true_eq,ht.reads,ht.writes,Bool.false_eq_true]

lemma Tracks.listed_of_remembers (ht : Tracks h s) {id : String} {op : Operation}
    (hr : h.Remembers id op) : ∃ e∈h.all, e.Lists id := by
  cases op with
  | prepareRead =>
    rcases mem_append.mp hr with hr | hr <;> obtain ⟨e,he,hid,hne,_,_,hop⟩ := mem_readIds.mp hr
    · exact ⟨e,ht.previous he,hid,hne,by simp [hop]⟩
    · exact ⟨e,ht.current he,hid,hne,by simp [hop]⟩
  | prepareWrite =>
    obtain ⟨l₁,e,l₂,heq,⟨hid,hne,hop⟩,-⟩ := hr
    exact ⟨e,by simp [heq],hid,hne,by simp [hop]⟩
  | commitWrite => exact hr.elim

lemma Tracks.list (ht : Tracks h s) {e : OperationEntry} {s' : RequestStateHandler}
    (hreads : ∀ id, id∈s'.pendingReadOps ↔ id∈s.pendingReadOps ∨ id∈readIds [e])
    (hwrites : ∀ id, id∈s'.pendingWriteOps ↔ e.Prepares id ∨ id∈s.pendingWriteOps ∧ ¬e.Commits id)
    (hanswered : ∀ id, id∈answered s' ↔ id∈answered s ∨ e.Lists id) : Tracks (h.list e) s' where
  reads id := by
    rw [hreads,ht.reads,Listing.list,readIds_append]
    simp only [mem_append,or_assoc]
  writes id := by rw [hwrites,ht.writes,Listing.list,prepared_snoc]
  answers id := by simp [hanswered,ht.answers,Listing.list,or_and_right,exists_or]
  previous := Subset.trans ht.previous (subset_append_left _ _)
  current := append_subset.2 ⟨Subset.trans ht.current (subset_append_left _ _),subset_append_right _ _⟩

lemma Tracks.reconcileOperation (ht : Tracks h s) (e : OperationEntry) :
    Tracks (h.list e) (reconcileOperation s e) := by
  unfold StateOperations.reconcileOperation
  cases hop : e.operation with
  | none =>
    exact ht.list (by simp [readIds,hop]) (by simp [OperationEntry.Prepares,OperationEntry.Commits,hop])
      (by simp [OperationEntry.Lists,hop])
  | some op =>
    dsimp only
    by_cases hskip : e.opId = "" ∨ knows s e.opId op
    · rw [if_pos hskip]
      have hknown : e.opId≠"" → knows s e.opId op := hskip.resolve_left
      refine ht.list (fun id => ?_) (fun id => ?_) (fun id => ?_)
      · rw [mem_readIds]
        cases op <;> grind [knows]
      · unfold OperationEntry.Prepares OperationEntry.Commits
        cases op <;> grind [knows]
      · refine (or_iff_left_of_imp ?_).symm
        rintro ⟨rfl,hne,-⟩
        exact (ht.answers _).2 (ht.listed_of_remembers (ht.knows_iff.1 (hknown hne)))
    · rw [if_neg hskip]
      obtain ⟨hne,hnew⟩ := not_or.mp hskip
      refine ht.list (fun id => mem_append) (fun id => ?_) (fun id => ?_)
      · unfold OperationEntry.Prepares OperationEntry.Commits
        cases op with
        | prepareRead => simp [handle,handlePrepareRead,hop]
        | prepareWrite created signed =>
          simp only [handle,handlePrepareWrite,hop]
          grind
        | commitWrite writeOpId completes =>
          simp only [handle,handleCommitWrite,hop]
          grind
      · simp only [answered,map_append,map_singleton,mem_append,mem_singleton,OperationEntry.Lists]
        grind

lemma Tracks.allows_iff (ht : Tracks h s) {e : OperationEntry} :
    (∀ op∈e.operation, e.opId≠"" → e.opId∈answered s → knows s e.opId op) ↔ h.Allows e := by
  refine forall_congr' fun op => forall_congr' fun _ => ?_
  rw [ht.answers,ht.knows_iff]
  refine ⟨fun hk hlisted => ?_,fun hk _ => hk⟩
  obtain ⟨e',-,-,hne,-⟩ := id hlisted
  exact hk hne hlisted

lemma Tracks.foldl (ht : Tracks h s) (es : List OperationEntry) :
    Tracks (es.foldl Listing.list h) (es.foldl StateOperations.reconcileOperation s) ∧
      ((answered (es.foldl StateOperations.reconcileOperation s)).Nodup ↔
        (answered s).Nodup ∧ Trace.Along Listing.list Listing.Allows h es) := by
  induction es generalizing h s with
  | nil => exact ⟨ht,(and_iff_left trivial).symm⟩
  | cons e es ih =>
    obtain ⟨htracks,hnodup⟩ := ih (ht.reconcileOperation e)
    refine ⟨htracks,hnodup.trans ?_⟩
    rw [nodup_reconcileOperation,ht.allows_iff,and_assoc]
    rfl

lemma foldl_list (h : Listing) (es : List OperationEntry) :
    es.foldl Listing.list h = ⟨h.all++es,h.previous,h.current++es⟩ := by
  induction es generalizing h with
  | nil => simp
  | cons e es ih => simp [ih,Listing.list]

/-- At the end of a snapshot only its reads are remembered. -/
lemma Tracks.snapshot (ht : Tracks h s) (hcurrent : h.current=[]) (es : List OperationEntry) :
    Tracks (h.snapshot es) (reconcile s es) := by
  obtain ⟨hreads,hwrites,hanswers,-,hes⟩ := (ht.foldl es).1
  have hlisted : (es.foldl Listing.list h).current=es := by rw [foldl_list,hcurrent,nil_append]
  refine ⟨fun id => ?_,hwrites,hanswers,hes,nil_subset _⟩
  rw [reconcile,Listing.snapshot,hlisted]
  simp [readIds]

lemma Tracks.run (ht : Tracks h s) (hcurrent : h.current=[]) (snapshots : List (List OperationEntry)) :
    Tracks (snapshots.foldl Listing.snapshot h) (snapshots.foldl reconcile s) ∧
      ((answered (snapshots.foldl reconcile s)).Nodup ↔ (answered s).Nodup ∧
        Trace.Along Listing.snapshot (Trace.Along Listing.list Listing.Allows) h snapshots) := by
  induction snapshots generalizing h s with
  | nil => exact ⟨ht,(and_iff_left trivial).symm⟩
  | cons es snapshots ih =>
    obtain ⟨htracks,hnodup⟩ := ih (ht.snapshot hcurrent es) rfl
    refine ⟨htracks,hnodup.trans ?_⟩
    have hes : (answered (reconcile s es)).Nodup ↔ _ := (ht.foldl es).2
    rw [hes,and_assoc]
    rfl

lemma all_run (h : Listing) (snapshots : List (List OperationEntry)) :
    (snapshots.foldl Listing.snapshot h).all = h.all++snapshots.flatten := by
  induction snapshots generalizing h with
  | nil => simp
  | cons es snapshots ih => rw [foldl_cons,ih,Listing.snapshot,foldl_list,flatten_cons,append_assoc]

/-- Only an operation that is answered creates or completes an upload. -/
lemma uploads_reconcileOperation (e : OperationEntry) (h : s.uploads <+ answered s) :
    (reconcileOperation s e).uploads <+ answered (reconcileOperation s e) := by
  unfold reconcileOperation
  cases e.operation with
  | none => exact h
  | some op =>
    dsimp only
    by_cases hskip : e.opId = "" ∨ knows s e.opId op
    · rwa [if_pos hskip]
    · rw [if_neg hskip,answered,map_append,map_singleton]
      refine h.append ?_
      split_ifs
      · exact Sublist.refl _
      · exact nil_sublist _

def Answers (s : RequestStateHandler) (es : List OperationEntry) : Prop :=
  ∀ e∈es, e.opId≠"" → e.operation≠none → e.opId∈answered s

/-- In every run all operations are answered. They are answered once each, and create or complete at
most one upload each, exactly if every operation that is listed again is a read that the snapshot
before or the present one lists too, or a write that was prepared and not committed since. -/
theorem answered_once_iff (snapshots : List (List OperationEntry)) :
    let s := snapshots.foldl reconcile {}
    (∀ snapshot∈snapshots, Answers s snapshot) ∧
    ((answered s).Nodup ∧ s.uploads.Nodup ↔
      Trace.Along Listing.snapshot (Trace.Along Listing.list Listing.Allows) {} snapshots) := by
  intro s
  have hempty : Tracks {} {} := by
    refine ⟨by simp [readIds],fun id => ?_,by simp [answered],nil_subset _,nil_subset _⟩
    refine ⟨nofun,?_⟩
    rintro ⟨l₁,e,l₂,heq,-⟩
    simp at heq
  obtain ⟨ht,hnodup⟩ := hempty.run rfl snapshots
  have huploads : s.uploads <+ answered s :=
    @Trace.invariant _ _ reconcile (fun s => s.uploads <+ answered s)
      (fun es h => @Trace.invariant _ _ reconcileOperation (fun s => s.uploads <+ answered s)
        uploads_reconcileOperation _ h es) {} (Sublist.refl _) snapshots
  refine ⟨fun es hes e he hne hop => ?_,?_⟩
  · refine (ht.answers _).2 ⟨e,?_,rfl,hne,hop⟩
    rw [all_run]
    exact mem_append_right _ (mem_flatten.2 ⟨es,hes,he⟩)
  · rw [and_iff_left_of_imp fun h => huploads.nodup h]
    exact hnodup.trans (and_iff_right nodup_nil)

def write : OperationEntry := ⟨"w",some (.prepareWrite true true)⟩
def commit : OperationEntry := ⟨"c",some (.commitWrite "w" true)⟩

/-- A commit that stays listed is answered with an error, and a write that stays listed after its
commit starts a second upload. -/
theorem listed_again :
    ([[write],[commit],[commit]].foldl reconcile {}).answers = [("w",0),("c",0),("c",5)] ∧
      ([[write],[write,commit],[write]].foldl reconcile {}).uploads = ["w","c","w"] := by
  decide

end Indexify.Dataplane.StateOperations
