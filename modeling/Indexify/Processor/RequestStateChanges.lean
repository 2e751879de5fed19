import Mathlib.Data.List.Induction
import Mathlib.Data.List.Nodup
import Mathlib.Data.Nat.Basic
import Mathlib.Order.Basic
import Indexify.StateStore.Scanner

/-! Export of the request events that commits leave in an outbox. The worker reads the outbox page by
page, exports a page in one request and removes what it exported. A page that could not be exported
is tried again, and the cursor stays from one call to the next. -/
namespace Indexify.RequestStateChanges
open List

def maxRemoveAttempts : ℕ := 10

/-- What happens to the events: one is committed to the outbox, the worker passes a request to the
exporter, which answers whether it was delivered, it finds that no request can be built for an event,
and it removes rows from the outbox. -/
inductive Effect (α ρ : Type)
  | commit (event : ℕ × α)
  | sendRequest (events : List (ℕ × α)) (request : ρ) (delivered : Bool)
  | unserializable (event : ℕ × α)
  | remove (events : List (ℕ × α))
  deriving DecidableEq

/-- The outbox and the cursor, with the effects so far in their order. -/
structure State (α ρ : Type) where
  outbox : Column α
  cursor : Option ℕ := none
  log : List (Effect α ρ) := []

/-- What happens during a call of `process_batch`: commits before and after the read, with the gaps
between the ids, the enrichment, and how the attempts to read, remove and send end. -/
structure Batch (α : Type) where
  before : List (ℕ × α) := []
  readFails : Bool := false
  after : List (ℕ × α) := []
  enrich : ℕ × α → α := Prod.snd
  removesSkipped : List Bool := [true]
  sends : Bool := true
  removesExported : List Bool := [true]

namespace State
variable {α ρ : Type}

def put (s : State α ρ) (e : ℕ × α) : State α ρ :=
  {s with
    outbox := s.outbox.put e.1 e.2
    log := s.log++[.commit (s.outbox.nextId+e.1,e.2)]}

def commit (s : State α ρ) (events : List (ℕ × α)) : State α ρ := events.foldl put s

def pendingRequestStateChangeEvents (s : State α ρ) : List (ℕ × α) × Option ℕ :=
  s.outbox.getRowsFromCfWithLimits s.cursor maxFetchLimit

def note (s : State α ρ) (effects : List (Effect α ρ)) : State α ρ := {s with log := s.log++effects}

def removeEventsWithBackoff (s : State α ρ) (attempts : List Bool) (events : List (ℕ × α)) :
    State α ρ :=
  if true ∈ attempts.take maxRemoveAttempts then
    {s with outbox := s.outbox.remove (events.map Prod.fst)}.note [.remove events]
  else s

def skip (s : State α ρ) (attempts : List Bool) (events : List (ℕ × α)) : State α ρ :=
  let s := s.note (events.map .unserializable)
  if events.isEmpty then s else s.removeEventsWithBackoff attempts events

end State

section
variable {α ρ : Type} (createBatchedExportRequest : List α → Except String ρ)

/-- Whether more pages remain or the page has to be tried again. -/
def processBatch (s : State α ρ) (b : Batch α) : State α ρ × Except String Bool :=
  let s := s.commit b.before
  if b.readFails then (s,.error "read") else
  let (events,newCursor) := s.pendingRequestStateChangeEvents
  if events.isEmpty then (s,.ok false) else
  let s := s.commit b.after
  let valid := events.filter fun e => (createBatchedExportRequest [b.enrich e]).isOk
  let skipped := events.filter fun e => !(createBatchedExportRequest [b.enrich e]).isOk
  let s := s.skip b.removesSkipped skipped
  if valid.isEmpty then ({s with cursor := newCursor},.ok newCursor.isSome) else
  match createBatchedExportRequest (valid.map b.enrich) with
  | .error e => (s,.error e)
  | .ok request =>
    let s := s.note [.sendRequest valid request b.sends]
    if b.sends then
      ({s.removeEventsWithBackoff b.removesExported valid with cursor := newCursor},
        .ok newCursor.isSome)
    else (s,.ok true)

/-- The state after the batches of a call, and whether the call has returned. -/
def drainAll : State α ρ → List (Batch α) → State α ρ × Bool
  | s,[] => (s,false)
  | s,b::batches =>
    match processBatch createBatchedExportRequest s b with
    | (s,.ok false) => (s,true)
    | (s,.ok true) => drainAll s batches
    | (s,.error _) => drainAll s batches

/-- The states between the calls of a worker that started on any outbox. -/
inductive Idle : State α ρ → Prop
  | start (outbox : Column α) : Idle {outbox := outbox}
  | commit {s : State α ρ} (h : Idle s) (events : List (ℕ × α)) : Idle (s.commit events)
  | drain {s s' : State α ρ} {batches : List (Batch α)} (h : Idle s)
      (hdrain : drainAll createBatchedExportRequest s batches = (s',true)) : Idle s'

end

/-! ### The effects -/

section
variable {α ρ : Type} {log new : List (Effect α ρ)} {e : ℕ × α} {x : Effect α ρ}

/-- A request with the event was delivered, or none could be built for the event alone. -/
def Handled (log : List (Effect α ρ)) (e : ℕ × α) : Prop :=
  (∃ events request, .sendRequest events request true∈log ∧ e∈events) ∨ .unserializable e∈log

def Removed (log : List (Effect α ρ)) (e : ℕ × α) : Prop := ∃ events, .remove events∈log ∧ e∈events

/-- Events are removed only after they were handled. -/
def Ordered (log : List (Effect α ρ)) : Prop :=
  ∀ earlier events later, log = earlier++.remove events::later → ∀ e∈events, Handled earlier e

/-- The rows that were there or were committed are there or were removed. -/
def Kept (new : List (Effect α ρ)) (s s' : State α ρ) : Prop :=
  ∀ e, (e∈s.outbox.rows ∨ .commit e∈new) → e∈s'.outbox.rows ∨ Removed new e

/-- The effects that a batch can have: requests are built of the enriched events and end as the sends
of the batch do, and an event that is skipped fits into no request. -/
def Genuine (createBatchedExportRequest : List α → Except String ρ) (b : Batch α) :
    Effect α ρ → Prop
  | .sendRequest events request delivered =>
    createBatchedExportRequest (events.map b.enrich) = .ok request ∧ delivered=b.sends
  | .unserializable e => (createBatchedExportRequest [b.enrich e]).isOk = false
  | .commit _ => True
  | .remove _ => True

lemma Handled.append (h : Handled log e) (new : List (Effect α ρ)) : Handled (log++new) e := by
  rcases h with ⟨events,request,hsent,he⟩ | hskipped
  · exact .inl ⟨events,request,mem_append_left _ hsent,he⟩
  · exact .inr (mem_append_left _ hskipped)

lemma Handled.delivered {events : List (ℕ × α)} (he : e∈events) (request : ρ) :
    Handled (log++[.sendRequest events request true]) e :=
  .inl ⟨events,request,mem_append_right _ (mem_singleton_self _),he⟩

lemma Removed.mono (h : Removed log e) (hsub : log ⊆ new) : Removed new e := by
  obtain ⟨events,hevents,he⟩ := h
  exact ⟨events,hsub hevents,he⟩

lemma Kept.refl (s : State α ρ) : Kept [] s s := fun _ he => he.elim .inl nofun

lemma Kept.trans {s s' s'' : State α ρ} {later : List (Effect α ρ)} (h : Kept new s s')
    (h' : Kept later s' s'') : Kept (new++later) s s'' := by
  have hrow : ∀ e, e∈s'.outbox.rows ∨ .commit e∈later → e∈s''.outbox.rows ∨ Removed (new++later) e :=
    fun e he => (h' e he).imp_right fun hremoved => hremoved.mono (subset_append_right _ _)
  have hfirst : ∀ e, e∈s.outbox.rows ∨ .commit e∈new → e∈s''.outbox.rows ∨ Removed (new++later) e :=
    fun e he => (h e he).elim (fun he => hrow e (.inl he)) fun hremoved =>
      .inr (hremoved.mono (subset_append_left _ _))
  rintro e (he | he)
  · exact hfirst e (.inl he)
  · exact (mem_append.mp he).elim (fun he => hfirst e (.inr he)) fun he => hrow e (.inr he)

lemma Ordered.handled (h : Ordered log) (he : Removed log e) : Handled log e := by
  obtain ⟨events,hevents,he⟩ := he
  obtain ⟨earlier,later,rfl⟩ := append_of_mem hevents
  exact (h earlier events later rfl e he).append _

lemma Ordered.snoc (h : Ordered log) (hx : ∀ events, x = .remove events → ∀ e∈events, Handled log e) :
    Ordered (log++[x]) := by
  intro earlier events later heq
  rcases eq_nil_or_concat later with rfl | ⟨later,last,rfl⟩
  · obtain ⟨rfl,hlast⟩ := append_inj' heq rfl
    exact hx events (cons.inj hlast).1
  · rw [concat_eq_append,← cons_append,← append_assoc] at heq
    obtain ⟨rfl,-⟩ := append_inj' heq rfl
    exact h earlier events later rfl

/-- Effects that remove nothing. -/
lemma Ordered.note (h : Ordered log) (hnew : ∀ events, .remove events∉new) : Ordered (log++new) := by
  induction new using List.reverseRecOn with
  | nil => rwa [append_nil]
  | append_singleton new x ih =>
    rw [← append_assoc]
    refine (ih fun events hmem => hnew events (mem_append_left _ hmem)).snoc ?_
    rintro events rfl
    exact absurd (mem_append_right _ (mem_singleton_self _)) (hnew events)

end

/-! ### A batch -/

variable {α ρ : Type} {createBatchedExportRequest : List α → Except String ρ} {b : Batch α}
  {s s' s'' : State α ρ} {e : ℕ × α}

/-- What lies before the cursor was handled, new events come after it, and nothing was removed too
early. -/
structure Inv (s : State α ρ) : Prop where
  ahead : ∀ {e}, e∈s.outbox.rows → Handled s.log e ∨ ∀ k∈s.cursor, k ≤ e.1
  cursor : ∀ k∈s.cursor, k ≤ s.outbox.nextId
  ordered : Ordered s.log

/-- Between the states events are committed, handled and removed, with effects that the batch can
have. -/
structure Drains (createBatchedExportRequest : List α → Except String ρ) (b : Batch α)
    (s s' : State α ρ) : Prop where
  cursor : s'.cursor=s.cursor
  nextId : s.outbox.nextId ≤ s'.outbox.nextId
  log : ∃ new, s'.log = s.log++new ∧ (∀ x∈new, Genuine createBatchedExportRequest b x) ∧ Kept new s s'
  ordered : Ordered s.log → Ordered s'.log
  added : ∀ {e}, e∈s'.outbox.rows → e∈s.outbox.rows ∨ s.outbox.nextId ≤ e.1

namespace Drains

lemma refl (s : State α ρ) : Drains createBatchedExportRequest b s s :=
  ⟨rfl,le_rfl,⟨[],(append_nil _).symm,nofun,.refl s⟩,id,.inl⟩

lemma handled (h : Drains createBatchedExportRequest b s s') (he : Handled s.log e) :
    Handled s'.log e := by
  obtain ⟨new,hnew,-⟩ := h.log
  rw [hnew]
  exact he.append new

lemma trans (h : Drains createBatchedExportRequest b s s')
    (h' : Drains createBatchedExportRequest b s' s'') : Drains createBatchedExportRequest b s s'' where
  cursor := h'.cursor.trans h.cursor
  nextId := h.nextId.trans h'.nextId
  log := by
    obtain ⟨new,hnew,hgenuine,hkept⟩ := h.log
    obtain ⟨new',hnew',hgenuine',hkept'⟩ := h'.log
    exact ⟨new++new',by rw [hnew',hnew,append_assoc],forall_mem_append.mpr ⟨hgenuine,hgenuine'⟩,
      hkept.trans hkept'⟩
  ordered hs := h'.ordered (h.ordered hs)
  added he := (h'.added he).elim h.added fun hle => .inr (h.nextId.trans hle)

lemma kept (h : Drains createBatchedExportRequest b s s') (he : e∈s.outbox.rows) :
    e∈s'.outbox.rows ∨ Removed s'.log e := by
  obtain ⟨new,hnew,-,hkept⟩ := h.log
  rw [hnew]
  exact (hkept e (.inl he)).imp_right fun hremoved => hremoved.mono (subset_append_right _ _)

lemma put (s : State α ρ) (e : ℕ × α) : Drains createBatchedExportRequest b s (s.put e) := by
  refine ⟨rfl,Nat.le_succ_of_le (Nat.le_add_right _ _),⟨[_],rfl,by simp [Genuine],?_⟩,
    fun hs => hs.note (by simp),fun he => ?_⟩
  · rintro e (he | he)
    · exact .inl (mem_append_left _ he)
    · cases mem_singleton.mp he
      exact .inl (mem_append_right _ (mem_singleton_self _))
  · rcases mem_append.mp he with he | he
    · exact .inl he
    · rw [mem_singleton.mp he]
      exact .inr (Nat.le_add_right _ _)

lemma commit (s : State α ρ) (events : List (ℕ × α)) :
    Drains createBatchedExportRequest b s (s.commit events) :=
  foldlRecOn (motive := Drains createBatchedExportRequest b s) events _ (.refl s)
    fun s' h e _ => h.trans (put s' e)

lemma note (s : State α ρ) (effects : List (Effect α ρ))
    (hgenuine : ∀ x∈effects, Genuine createBatchedExportRequest b x)
    (hremove : ∀ events, .remove events∉effects) (hcommit : ∀ e, .commit e∉effects) :
    Drains createBatchedExportRequest b s (s.note effects) :=
  ⟨rfl,le_rfl,⟨effects,rfl,hgenuine,fun e he => .inl (he.resolve_right (hcommit e))⟩,
    fun h => h.note hremove,.inl⟩

lemma remove (attempts : List Bool) (events : List (ℕ × α)) (h : ∀ e∈events, Handled s.log e)
    (hrows : ∀ e∈s.outbox.rows, e.1∈events.map Prod.fst → e∈events) :
    Drains createBatchedExportRequest b s (s.removeEventsWithBackoff attempts events) := by
  unfold State.removeEventsWithBackoff
  split_ifs
  · refine ⟨rfl,le_rfl,⟨[.remove events],rfl,by simp [Genuine],?_⟩,fun hs => hs.snoc ?_,
      fun he => .inl (mem_filter.mp he).1⟩
    · rintro e (he | he)
      · by_cases hmem : e.1 ∈ events.map Prod.fst
        · exact .inr ⟨events,mem_singleton_self _,hrows e he hmem⟩
        · exact .inl (mem_filter.mpr ⟨he,by simpa using hmem⟩)
      · cases mem_singleton.mp he
    · rintro _ ⟨⟩
      exact h
  · exact .refl s

lemma skip (attempts : List Bool) (events : List (ℕ × α))
    (hgenuine : ∀ e∈events, (createBatchedExportRequest [b.enrich e]).isOk = false)
    (hrows : ∀ e∈s.outbox.rows, e.1∈events.map Prod.fst → e∈events) :
    Drains createBatchedExportRequest b s (s.skip attempts events) ∧
      ∀ e∈events, Handled (s.skip attempts events).log e := by
  have hnote : Drains createBatchedExportRequest b s (s.note (events.map .unserializable)) :=
    note s _ (forall_mem_map.mpr hgenuine) (by simp) (by simp)
  have hevents : ∀ e∈events, Handled (s.note (events.map .unserializable)).log e :=
    fun e he => .inr (mem_append_right _ (mem_map_of_mem he))
  unfold State.skip
  split_ifs
  · exact ⟨hnote,hevents⟩
  · have hremove : Drains createBatchedExportRequest b _ _ := remove attempts events hevents hrows
    exact ⟨hnote.trans hremove,fun e he => hremove.handled (hevents e he)⟩

/-- A row with the id of an earlier row is that row. -/
lemma eq_of_id (h : Drains createBatchedExportRequest b s s') {e e' : ℕ × α} (he : e∈s'.outbox.rows)
    (he' : e'∈s.outbox.rows) (hid : e.1=e'.1) : e=e' := by
  rcases h.added he with he | hnew
  · have hnodup : (s.outbox.rows.map Prod.fst).Nodup :=
      pairwise_map.mpr (s.outbox.sorted.imp fun hlt => ne_of_lt hlt)
    exact inj_on_of_nodup_map hnodup he he' hid
  · exact absurd (s.outbox.below e' he') (by omega)

end Drains

lemma Inv.drains (h : Inv s) (hd : Drains createBatchedExportRequest b s s') : Inv s' where
  ahead {e} he := by
    rw [hd.cursor]
    rcases hd.added he with hold | hnew
    · exact (h.ahead hold).imp_left hd.handled
    · exact .inr fun k hk => (h.cursor k hk).trans hnew
  cursor k hk := (h.cursor k (hd.cursor ▸ hk)).trans hd.nextId
  ordered := hd.ordered h.ordered

structure Step (createBatchedExportRequest : List α → Except String ρ) (b : Batch α) (s : State α ρ)
    (r : State α ρ × Except String Bool) : Prop where
  inv : Inv r.1
  log : ∃ new, r.1.log = s.log++new ∧ (∀ x∈new, Genuine createBatchedExportRequest b x) ∧
    Kept new s r.1
  last : r.2 = .ok false → ∀ e∈s.outbox.rows, Handled r.1.log e

lemma Step.retry (h : Inv s) (hd : Drains createBatchedExportRequest b s s') {r : Except String Bool}
    (hr : r ≠ .ok false) : Step createBatchedExportRequest b s (s',r) :=
  ⟨h.drains hd,hd.log,fun hlast => absurd hlast hr⟩

/-- The cursor may go on to the next page when the events of the page are handled. If there is no
next page, all events that were there are handled. -/
lemma Step.advance (h : Inv s) (hd : Drains createBatchedExportRequest b s s')
    (hd' : Drains createBatchedExportRequest b s' s'')
    (hpage : ∀ e∈s'.pendingRequestStateChangeEvents.1, Handled s''.log e) :
    let newCursor := s'.pendingRequestStateChangeEvents.2
    Step createBatchedExportRequest b s ({s'' with cursor := newCursor},.ok newCursor.isSome) := by
  have h' := h.drains hd
  have hall := hd.trans hd'
  have hrows : ∀ {e}, e∈s'.outbox.rows → Handled s''.log e ∨
      ∃ k∈s'.pendingRequestStateChangeEvents.2, k ≤ e.1 := by
    intro e he
    rcases h'.ahead he with hid | hafter
    · exact .inl (hd'.handled hid)
    rw [or_iff_not_imp_right]
    intro hnot
    refine hpage e (Column.mem_page.mpr ⟨he,hafter,fun k hk => ?_⟩)
    exact not_le.mp fun hle => hnot ⟨k,hk,hle⟩
  refine ⟨⟨fun {e} he => ?_,fun k hk => ?_,hall.ordered h.ordered⟩,hall.log,fun hlast e he => ?_⟩
  · rcases hd'.added he with hold | hnew
    · refine (hrows hold).imp_right ?_
      rintro ⟨k,hk,hle⟩ k' hk'
      cases Option.mem_unique hk hk'
      exact hle
    · exact .inr fun k hk => (Column.nextKey_lt hk).le.trans hnew
  · exact (Column.nextKey_lt hk).le.trans hd'.nextId
  · rcases hd.kept he with he | hremoved
    · refine (hrows he).resolve_right ?_
      rintro ⟨k,hk,-⟩
      rw [Option.mem_def.mp hk] at hlast
      cases hlast
    · exact hd'.handled (h'.ordered.handled hremoved)

variable (createBatchedExportRequest)

lemma step_processBatch (h : Inv s) (b : Batch α) :
    Step createBatchedExportRequest b s (processBatch createBatchedExportRequest s b) := by
  have hbefore : Drains createBatchedExportRequest b s (s.commit b.before) := .commit s b.before
  have hafter : Drains createBatchedExportRequest b _ _ := .commit (s.commit b.before) b.after
  unfold processBatch
  dsimp only
  generalize hs' : s.commit b.before = s' at hbefore hafter
  generalize hevents : s'.pendingRequestStateChangeEvents.1=events
  -- the rows under the ids of the page are those of the page
  have hpage : ∀ {t p}, Drains createBatchedExportRequest b s' t → ∀ e∈t.outbox.rows,
      e.1 ∈ (events.filter p).map Prod.fst → e ∈ events.filter p := by
    intro t p ht e he hid
    obtain ⟨e',he',hid⟩ := mem_map.mp hid
    have hrow : e'∈s'.outbox.rows := (Column.mem_page.mp (hevents ▸ (mem_filter.mp he').1)).1
    rwa [ht.eq_of_id he hrow hid.symm]
  split
  · exact .retry h hbefore (by simp)
  split
  next hempty =>
    rw [← hevents,List.isEmpty_iff] at hempty
    have hlast := (Step.advance h hbefore (.refl s') (by simp [hempty])).last
    rw [show s'.pendingRequestStateChangeEvents.2 = none from
      Column.nextKey_of_page_nil (by decide) hempty] at hlast
    exact ⟨h.drains hbefore,hbefore.log,fun _ => hlast rfl⟩
  obtain ⟨hskip,hskipped⟩ := Drains.skip b.removesSkipped
    (events.filter fun e => !(createBatchedExportRequest [b.enrich e]).isOk)
    (fun e he => by simpa using (mem_filter.mp he).2) (hpage hafter)
  have hdrains := hafter.trans hskip
  split
  next hvalid =>
    refine .advance h hbefore hdrains fun e he => ?_
    rw [hevents] at he
    refine hskipped e (mem_filter.mpr ⟨he,?_⟩)
    simpa using filter_eq_nil_iff.mp (List.isEmpty_iff.mp hvalid) e he
  split
  · exact .retry h (hbefore.trans hdrains) (by simp)
  next request hrequest =>
    generalize hvalid : (events.filter fun e => (createBatchedExportRequest [b.enrich e]).isOk) = valid
      at hrequest
    have hnote := hdrains.trans (.note _ [.sendRequest valid request b.sends]
      (by simp [Genuine,hrequest]) (by simp) (by simp))
    split
    next hsends =>
      rw [hsends] at hnote ⊢
      have hremove : Drains createBatchedExportRequest b _ _ :=
        .remove b.removesExported valid (fun e he => .delivered he request) (hvalid ▸ hpage hnote)
      refine .advance h hbefore (hnote.trans hremove) fun e he => ?_
      rw [hevents] at he
      refine hremove.handled ?_
      cases hok : (createBatchedExportRequest [b.enrich e]).isOk
      · exact (hskipped e (mem_filter.mpr ⟨he,by rw [hok]; rfl⟩)).append _
      · exact .delivered (hvalid ▸ mem_filter.mpr ⟨he,hok⟩) request
    · exact .retry h (hbefore.trans hnote) (by simp)

lemma drainAll_spec (h : Inv s) (batches : List (Batch α)) :
    let r := drainAll createBatchedExportRequest s batches
    Inv r.1 ∧ (∃ new, r.1.log = s.log++new ∧
        (∀ x∈new, ∃ b∈batches, Genuine createBatchedExportRequest b x) ∧ Kept new s r.1) ∧
      (r.2=true → ∀ e∈s.outbox.rows, Handled r.1.log e) := by
  induction batches generalizing s with
  | nil => exact ⟨h,⟨[],(append_nil _).symm,nofun,.refl s⟩,by rintro ⟨⟩⟩
  | cons b batches ih =>
    obtain ⟨hinv,⟨new,hnew,hgenuine,hkept⟩,hlast⟩ := step_processBatch createBatchedExportRequest h b
    have hfirst : ∀ x∈new, ∃ b'∈b::batches, Genuine createBatchedExportRequest b' x :=
      fun x hx => ⟨b,mem_cons_self,hgenuine x hx⟩
    unfold drainAll
    generalize processBatch createBatchedExportRequest s b = r at hinv hnew hkept hlast
    rcases r with ⟨s',e | _ | _⟩
    case ok.false => exact ⟨hinv,⟨new,hnew,hfirst,hkept⟩,fun _ => hlast rfl⟩
    case error | ok.true =>
      obtain ⟨hinv',⟨new',hnew',hgenuine',hkept'⟩,hreturned⟩ := ih hinv
      dsimp only at hnew ⊢
      refine ⟨hinv',⟨new++new',by rw [hnew',hnew,append_assoc],forall_mem_append.mpr ⟨hfirst,?_⟩,
        hkept.trans hkept'⟩,?_⟩
      · intro x hx
        obtain ⟨b',hb',hx⟩ := hgenuine' x hx
        exact ⟨b',mem_cons_of_mem _ hb',hx⟩
      · intro hr e he
        refine (hkept e (.inl he)).elim (hreturned hr e) fun hremoved => ?_
        rw [hnew']
        exact (hinv.ordered.handled (hremoved.mono (hnew ▸ subset_append_right _ _))).append _

lemma Idle.inv (h : Idle createBatchedExportRequest s) : Inv s := by
  induction h with
  | start outbox =>
    exact ⟨fun _ => .inr (by rintro k ⟨⟩),by rintro k ⟨⟩,fun earlier events later heq => by simp at heq⟩
  | @commit s h events ih =>
    have hcommit : Drains createBatchedExportRequest {} s _ := .commit s events
    exact ih.drains hcommit
  | drain h hdrain ih =>
    obtain ⟨hinv,-⟩ := drainAll_spec createBatchedExportRequest ih _
    rwa [hdrain] at hinv

/-- A worker that has drained its outbox any number of times drains it once more. The effects of the
call are genuine, a row that is gone was removed, rows are removed only after a request with them was
delivered or none could be built for them, and if the call returns, this happened to every row that
was there when it began. -/
theorem drainAll_handles_all (h : Idle createBatchedExportRequest s) (batches : List (Batch α)) :
    let r := drainAll createBatchedExportRequest s batches
    (∃ new, r.1.log = s.log++new ∧ (∀ x∈new, ∃ b∈batches, Genuine createBatchedExportRequest b x) ∧
      Kept new s r.1) ∧ Ordered r.1.log ∧ (r.2=true → ∀ e∈s.outbox.rows, Handled r.1.log e) := by
  obtain ⟨hinv,hlog,hreturned⟩ := drainAll_spec createBatchedExportRequest (h.inv _) batches
  exact ⟨hlog,hinv.ordered,hreturned⟩

def countedRequest (events : List Bool) : Except String ℕ :=
  if events.all id then .ok events.length else .error ""

def twoEvents : State Bool ℕ := {outbox := (({} : Column Bool).put 0 true).put 3 false}

def failedOnce : List (Batch Bool) := [{sends := false},{before := [(0,true)]},{}]

/-- The second event fits into no request, the request with the first is sent twice, and a third event
is committed during the call. -/
theorem drainAll_retries_export :
    let r := drainAll countedRequest twoEvents failedOnce
    r.2 = true ∧ r.1.outbox.rows = [] ∧
    r.1.log = [.unserializable (4,false),.remove [(4,false)],.sendRequest [(0,true)] 1 false,
      .commit (5,true),.sendRequest [(0,true),(5,true)] 2 true,.remove [(0,true),(5,true)]] ∧
    Ordered r.1.log ∧ ∀ e∈twoEvents.outbox.rows, Handled r.1.log e := by
  have hreturned : (drainAll countedRequest twoEvents failedOnce).2 = true := by decide +kernel
  obtain ⟨-,hordered,hall⟩ := drainAll_handles_all countedRequest (.start twoEvents.outbox) failedOnce
  exact ⟨hreturned,by decide +kernel,by decide +kernel,hordered,hall hreturned⟩

end Indexify.RequestStateChanges
