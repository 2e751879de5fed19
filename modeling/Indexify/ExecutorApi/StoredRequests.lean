import Indexify.ExecutorApi.Server

/-! The requests of the server in memory and their rows in the store. Memory holds the requests whose
row has no outcome, whatever is reported, started and terminated in between. -/
namespace Indexify
open Dict FunctionRunCreator ContainerReconciler InMemoryState List

/-- The row of a request. Its runs and calls are counted, their own rows are not modelled. -/
structure PersistedRequestCtx where
  «namespace» : String
  applicationName : String
  applicationVersion : String
  requestId : String
  outcome : Option RequestOutcome
  requestError : Option RequestError
  functionRunsCount : ℕ
  functionCallsCount : ℕ

def RequestCtx.persisted (c : RequestCtx) : PersistedRequestCtx where
  «namespace» := c.namespace
  applicationName := c.applicationName
  applicationVersion := c.applicationVersion
  requestId := c.requestId
  outcome := c.outcome
  requestError := c.requestError
  functionRunsCount := c.functionRuns.keys.length
  functionCallsCount := c.functionCalls.keys.length

namespace FunctionRunCreator.RequestStore

def row (s : RequestStore) (k : RequestCtxKey) : Option PersistedRequestCtx :=
  (s.snapshots.lookup k).map RequestCtx.persisted

variable {s s' s'' : RequestStore} {u : SchedulerUpdateRequest}

/-- Memory holds the contexts that were written last, as long as they have no outcome. -/
structure Mirrored (s : RequestStore) : Prop where
  keyed : ∀ {k c}, s.mem.requestCtx.lookup k = some c → c.key=k ∧ c.Keyed
  unfinished : ∀ k, s.mem.requestCtx.lookup k =
    (s.snapshots.lookup k).filter fun c => c.outcome.isNone

/-- Requests keep their runs, and those with an outcome stay as they are. -/
def Later (s s' : RequestStore) : Prop :=
  ∀ {k c}, s.snapshots.lookup k = some c → ∃ c', s'.snapshots.lookup k = some c' ∧
    (c.outcome.isSome = true → c'=c) ∧ ∀ id∈c.functionRuns, id∈c'.functionRuns

/-- Where memory mirrors the store it does so afterwards. -/
def Evolves (s s' : RequestStore) : Prop := s.Mirrored → s'.Mirrored ∧ s.Later s'

/-- Every snapshot continues a request in memory. -/
def Continues (s : RequestStore) (u : SchedulerUpdateRequest) : Prop :=
  ∀ {k c'}, u.updatedRequestStates.lookup k = some c' →
    ∃ c free, s.mem.requestCtx.lookup k = some c ∧ c.Advances free c'

lemma Later.refl (s : RequestStore) : s.Later s :=
  fun {_ c} h => ⟨c,h,fun _ => rfl,fun _ => id⟩

lemma Evolves.refl (s : RequestStore) : s.Evolves s := fun h => ⟨h,Later.refl s⟩

lemma Evolves.trans (h : s.Evolves s') (h' : s'.Evolves s'') : s.Evolves s'' := by
  intro hs
  obtain ⟨hs',hlater⟩ := h hs
  obtain ⟨hs'',hlater'⟩ := h' hs'
  refine ⟨hs'',fun {k c} hc => ?_⟩
  obtain ⟨c',hc',hsame,hruns⟩ := hlater hc
  obtain ⟨c'',hc'',hsame',hruns'⟩ := hlater' hc'
  refine ⟨c'',hc'',fun ho => ?_,fun id hid => hruns' id (hruns id hid)⟩
  obtain rfl := hsame ho
  exact hsame' ho

lemma evolves_of_requestCtx (h : s'.mem.requestCtx=s.mem.requestCtx)
    (h' : s'.snapshots=s.snapshots) : s.Evolves s' := by
  intro hs
  refine ⟨⟨fun hc => hs.keyed (h ▸ hc),fun k => ?_⟩,fun {k c} hc => ?_⟩
  · rw [h,h',hs.unfinished]
  · rw [h']
    exact Later.refl s hc

lemma evolves_write (hu : s.Mirrored → s.Continues u) : s.Evolves (s.write u) := by
  intro hs
  have hkey : ∀ {k c'}, u.updatedRequestStates.lookup k = some c' → c'.key=k := by
    intro k c' hc'
    obtain ⟨c,free,hc,hadv⟩ := hu hs hc'
    exact hadv.key.trans (hs.keyed hc).1
  have hstored : ∀ k, (s.write u).snapshots.lookup k =
      (u.updatedRequestStates.lookup k).or (s.snapshots.lookup k) := fun k => lookup_union _ _ _
  refine ⟨⟨fun {k c'} h => ?_,fun k => ?_⟩,fun {k c} hc => ?_⟩
  · rcases requestCtx_applySchedulerUpdate_cases hkey h with hc' | ⟨-,hc'⟩
    · obtain ⟨c,free,-,hadv⟩ := hu hs hc'
      exact ⟨hkey hc',hadv.keyed⟩
    · exact hs.keyed hc'
  · rw [hstored]
    refine (lookup_requestCtx_applySchedulerUpdate hkey k).trans ?_
    cases u.updatedRequestStates.lookup k with
    | none => exact hs.unfinished k
    | some c' => cases ho : c'.outcome <;> simp [Option.filter,ho]
  · rw [hstored]
    cases hk : u.updatedRequestStates.lookup k with
    | none => exact Later.refl s hc
    | some c' =>
      -- an update is only about a request in memory, which has no outcome
      obtain ⟨c0,free,hc0,hadv⟩ := hu hs hk
      rw [hs.unfinished,hc,Option.filter_eq_some_iff] at hc0
      obtain ⟨h0,hopen⟩ := hc0
      cases h0
      refine ⟨c',rfl,fun ho => ?_,fun id hid => ?_⟩
      · rw [Option.isNone_iff_eq_none] at hopen
        rw [hopen] at ho
        cases ho
      · obtain ⟨r,hr⟩ := Option.isSome_iff_exists.mp (AList.lookup_isSome.mpr hid)
        obtain ⟨r',hr',-⟩ := hadv.runs hr
        exact mem_of_lookup hr'

end FunctionRunCreator.RequestStore

namespace Server
open RequestStore
variable (hash : String → String)

lemma evolves_ingestEvent (s : Server) (e : AllocationOutputIngestedEvent) :
    s.store.Evolves (s.ingestEvent hash e).store := by
  refine evolves_write fun hs k c' h => ?_
  obtain ⟨-,c,hc,hadv⟩ := handleAllocationIngestion_snapshots hash rfl hs.keyed h
  exact ⟨c,_,hc,hadv⟩

lemma evolves_ingestPayload (s : Server) (payload : RequestPayload) :
    s.store.Evolves (s.ingestPayload hash payload).store := by
  cases payload with
  | createFunctionCall event =>
    refine evolves_write fun hs k c' h => ?_
    obtain ⟨c,hc,hquiet⟩ := handleBlockingFunctionCall_snapshots hash hs.keyed h
    exact ⟨c,_,hc,hquiet⟩
  | dataplaneResults event =>
    have hindex : (event.allocationEvents.foldl (removeReported event.executorId)
        s.store.mem).requestCtx = s.store.mem.requestCtx :=
      Trace.frame (removeReported event.executorId) requestCtx (fun _ _ => rfl) _ _
    refine @Trace.invariant _ _ (ingestEvent hash) (fun s' : Server => s.store.Evolves s'.store)
      (fun {s'} e h => h.trans (evolves_ingestEvent hash s' e)) _ ?_ _
    exact evolves_of_requestCtx hindex rfl

lemma evolves_step (s : Server) (e : ServerEvent) : s.store.Evolves (s.step hash e).store := by
  cases e with
  | connect executorId
  | disconnect executorId
  | ackResults executorId ackedSeq
  | log env executorId entry
  | outcome env executorId outcome
  | commit => exact .refl _
  | invoke av f requestId payload =>
    have hcons := newRequest_consistent av f requestId payload
    simp only [step]
    split_ifs with hk
    · exact .refl _
    intro hs
    have hframe := (invokeApplication_frame (s := s.store.mem) (newRequest av f requestId payload)).1
    refine ⟨⟨fun {k c} h => ?_,fun k => ?_⟩,fun {k c} hc => ?_⟩
    · rw [hframe] at h
      rcases lookup_insert_cases h with ⟨rfl,rfl⟩ | ⟨-,h⟩
      · exact ⟨rfl,hcons.runs_keyed,hcons.calls_keyed⟩
      · exact hs.keyed h
    · rw [hframe,lookup_insert_if,lookup_insert_if,hs.unfinished]
      split_ifs <;> rfl
    · have hne : k ≠ (newRequest av f requestId payload).key := by
        rintro rfl
        exact hk (mem_of_lookup hc)
      rw [lookup_insert_if,if_neg hne]
      exact Later.refl s.store hc
  | start key id allocation =>
    refine evolves_write fun hs k c' h => ?_
    obtain ⟨c,run,hc,hr,-,hpending,rfl,rfl⟩ := startUpdate_snapshot h
    obtain ⟨rfl,hkeyed⟩ := hs.keyed hc
    have hid : run.id=id := hkeyed.runs hr
    set run' : FunctionRun := {run with status := .running allocation.id} with hrun'
    have hid' : run'.id=id := hid
    refine ⟨c,fun _ r => r.status=.pending,hc,
      (RequestCtx.Advances.refl hkeyed).overwrite hr hid' ?_ rfl ?_ rfl⟩
    · exact fun _ hfree => absurd hpending hfree
    · rw [← hid]
  | terminate executorId containerId reason =>
    refine evolves_write fun hs k c' h => ?_
    obtain ⟨c,hc,hadv⟩ := handleAllocations_snapshots hs.keyed h
    exact ⟨c,_,hc,hadv⟩
  | ingest =>
    simp only [step]
    cases s.api.queue with
    | nil => exact .refl _
    | cons p rest => exact evolves_ingestPayload hash {s with api.queue := rest} p.2

end Server
end Indexify
