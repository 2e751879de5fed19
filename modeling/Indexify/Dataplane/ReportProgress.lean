import Indexify.Dataplane.Heartbeats

/-! Once its requests are answered, the heartbeat loop empties the buffers, whatever was lost or
refused before. -/
namespace Indexify.Dataplane.Heartbeats
open List Outbox
variable {s : Heartbeats} (encodedLen : Item → ℕ)

/-- A request is put together, arrives and is answered. -/
def roundTrip : List HeartbeatEvent := [.advance,.advance,.advance,.arrive {},.answer]

/-- The server will process the reports of the next request. -/
def Heard (s : Heartbeats) : Prop :=
  s.stage=.idle ∧ (s.server.known || s.sendFullState)=true ∨
    s.stage=.nextFragment ∧ s.server.known=true

lemma run_roundTrip {isFirst : Bool}
    (hstage : s.stage = if isFirst then .idle else .nextFragment) :
    ∃ f, f.isFirst=isFirst ∧ f.fullState=(isFirst && s.sendFullState) ∧
      (∀ k, ∃ base, f.batch k = PendingBuffer.collect encodedLen base (s.buffers k).pending) ∧
      s.run encodedLen roundTrip = answer {s with
        server := (s.server.heartbeat f {}).1, stage := .answered f (s.server.heartbeat f {}).2} := by
  refine ⟨s.collectLogEntries encodedLen (s.collectOutcomes encodedLen (s.begin encodedLen isFirst)),
    rfl,rfl,by rintro ⟨⟩ <;> exact ⟨_,rfl⟩,?_⟩
  cases isFirst <;> simp [run,roundTrip,step,advance,hstage] <;> rfl

/-- The front of every buffer is processed and leaves the buffer. -/
lemma heard_roundTrip (h : s.Heard) : (s.run encodedLen roundTrip).Heard ∧ ∀ k, ∃ batch rest,
    (s.buffers k).pending = batch++rest ∧ (batch=[] → rest=[]) ∧
      ((s.run encodedLen roundTrip).buffers k).pending = rest ∧
      s.server.processed++batch ⊆ (s.run encodedLen roundTrip).server.processed := by
  obtain ⟨isFirst,hstage,hknown⟩ : ∃ isFirst : Bool,
      (s.stage = if isFirst then .idle else .nextFragment) ∧
      (s.server.known || isFirst && s.sendFullState)=true := by
    rcases h with ⟨hs,hk⟩ | ⟨hs,hk⟩
    · exact ⟨true,hs,hk⟩
    · exact ⟨false,hs,by rw [hk]; rfl⟩
  obtain ⟨f,-,hfull,hbatch,hrun⟩ := run_roundTrip encodedLen hstage
  obtain ⟨srv,hsrv,hk,hprocessed⟩ : ∃ srv, s.server.heartbeat f {} = (srv,.ok false) ∧
      srv.known=true ∧ srv.processed=s.server.processed++f.reports := by
    simp only [HeartbeatServer.heartbeat,HeartbeatServer.processReports,hfull]
    cases hfs : isFirst && s.sendFullState with
    | true => simp
    | false =>
      rw [hfs,Bool.or_false] at hknown
      simp [hknown]
  rw [hrun,hsrv]
  rcases rpcSucceeded_cases {s with server := srv, stage := .answered f (.ok false)} f false with
    ⟨hbad,-⟩ | ⟨-,cmd,res,conn,stage,he,hend⟩
  · simp at hbad
  simp only [answer,he]
  refine ⟨hend.imp (fun hs => ⟨hs,by simp [hk]⟩) fun hs => ⟨hs,hk⟩,fun k => ?_⟩
  obtain ⟨base,hbase⟩ := hbatch k
  obtain ⟨rest,hrest⟩ := hbase ▸ PendingBuffer.collect_isPrefix base (s.buffers k).pending
  refine ⟨f.batch k,rest,hrest.symm,fun hnil => ?_,by simp [drain,← hrest],?_⟩
  · rw [hbase,PendingBuffer.collect_eq_nil,← hrest] at hnil
    exact (append_eq_nil_iff.mp hnil).2
  · rw [hprocessed]
    exact append_subset.mpr ⟨subset_append_left _ _,subset_append_of_subset_right _ fun r hr =>
      Fragment.mem_reports.mpr ⟨k,hr⟩⟩

-- by induction on the round trips, each of which takes something from every buffer with reports
lemma heard_roundTrips {n : ℕ} (h : s.Heard) (hn : ∀ k, (s.buffers k).pending.length ≤ n)
    (k : Category) : ((s.run encodedLen (replicate n roundTrip).flatten).buffers k).pending = [] ∧
      s.server.processed++(s.buffers k).pending ⊆
        (s.run encodedLen (replicate n roundTrip).flatten).server.processed := by
  induction n generalizing s with
  | zero =>
    have hnil : (s.buffers k).pending = [] := length_eq_zero_iff.mp (Nat.le_zero.mp (hn k))
    rw [hnil,append_nil]
    exact ⟨hnil,Subset.refl _⟩
  | succ n ih =>
    rw [replicate_succ,flatten_cons,run,foldl_append]
    obtain ⟨hheard,hsteps⟩ := heard_roundTrip encodedLen h
    have hshorter : ∀ k, ((s.run encodedLen roundTrip).buffers k).pending.length ≤ n := by
      intro k
      obtain ⟨batch,rest,hpending,hsome,hrest,-⟩ := hsteps k
      have hle := hn k
      rw [hpending,length_append] at hle
      rw [hrest]
      cases batch with
      | nil => simp [hsome]
      | cons r batch =>
        rw [length_cons] at hle
        omega
    obtain ⟨hnil,hlater⟩ := ih hheard hshorter
    obtain ⟨batch,rest,hpending,-,hrest,hsent⟩ := hsteps k
    rw [hrest] at hlater
    obtain ⟨hkept,hrest⟩ := append_subset.mp hlater
    rw [hpending,← append_assoc]
    exact ⟨hnil,append_subset.mpr ⟨Subset.trans hsent hkept,hrest⟩⟩

/-- Whatever was lost before: if from now on requests are answered, no item fails and the full state is
accepted, as many requests as a buffer may have reports, after one that may ask for the full state,
empty all buffers, and the server has processed what was in them. -/
theorem buffered_arrives (s : Heartbeats) (hidle : s.stage=.idle) (n : ℕ)
    (hn : ∀ k, (s.buffers k).pending.length ≤ n) (k : Category) :
    ((s.run encodedLen (replicate (n+1) roundTrip).flatten).buffers k).pending = [] ∧
      (s.buffers k).pending ⊆
        (s.run encodedLen (replicate (n+1) roundTrip).flatten).server.processed := by
  by_cases hheard : s.Heard
  · have hall := heard_roundTrips encodedLen hheard (fun k => (hn k).trans (Nat.le_succ n)) k
    exact ⟨hall.1,(append_subset.mp hall.2).2⟩
  -- the server does not know the executor and asks for its full state
  obtain ⟨f,hfirst,hfull,-,hrun⟩ := @run_roundTrip s encodedLen true hidle
  obtain ⟨hknown,hsend⟩ : s.server.known=false ∧ s.sendFullState=false := by
    simpa [Heard,hidle] using hheard
  have hasked : (s.server.heartbeat f {}).2 = .ok true := by
    simp [HeartbeatServer.heartbeat,HeartbeatServer.processReports,hfull,hknown,hsend]
  rcases rpcSucceeded_cases {s with
      server := (s.server.heartbeat f {}).1, stage := .answered f (.ok true)} f true with
    ⟨-,cmd,res,he⟩ | ⟨hbad,-⟩
  · rw [hasked] at hrun
    simp only [answer,he] at hrun
    rw [replicate_succ,flatten_cons,run,foldl_append,← run,← run,hrun]
    have hall := @heard_roundTrips {s with
        server := (s.server.heartbeat f {}).1, sendFullState := true, connectionState := .registering
        stage := .idle, lastAppliedCommandSeq := cmd, lastAppliedResultSeq := res} encodedLen n
      (.inl ⟨rfl,Bool.or_true _⟩) hn k
    exact ⟨hall.1,(append_subset.mp hall.2).2⟩
  · simp [hfirst] at hbad

/-- Two answers and a log entry are buffered, and the first request with them fails. -/
def failedReports : List HeartbeatEvent :=
  [.sendResponse ⟨some 1,none⟩,.sendLogEntry ⟨"allocation",1,none⟩,.sendContainerResponse ⟨some 2,none⟩,
    .drainChannel .response,.drainChannel .containerResponse,.drainChannel .activity,
    .advance,.advance,.advance,.fail]

/-- The executor is not yet known either. -/
theorem failedReports_arrive :
    let s := run {} (fun _ => 1) failedReports
    (s.buffers .commandResponses).pending.length = 2 ∧
      (s.buffers .allocationLogEntries).pending.length = 1 ∧
      ∀ k, (s.buffers k).pending ⊆ (s.run (fun _ => 1) (replicate 3 roundTrip).flatten).server.processed :=
  ⟨rfl,rfl,fun k => (buffered_arrives _ _ rfl 2 (by rintro ⟨⟩ <;> decide) k).2⟩

end Indexify.Dataplane.Heartbeats
