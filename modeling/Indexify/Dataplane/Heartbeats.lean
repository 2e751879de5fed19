import Indexify.Dataplane.StateReporter

/-! The heartbeat loop against a server that can fail, restart and forget the executor. Each
awaited call of the loop is a step of its own, so drainers work between them, and a request that
the loop gave up can still arrive later. How the server takes a single item is left open: any
item can fail in any request. -/
namespace Indexify.Dataplane

inductive ConnectionState
  | registering
  | ready
  | unhealthy
  deriving DecidableEq

/-- The channels that feed the buffers. Two of them feed the buffer of command responses. -/
inductive Channel
  | response
  | containerResponse
  | activity
  | outcome
  deriving DecidableEq

def Channel.category : Channel → Category
  | response | containerResponse => .commandResponses
  | activity => .allocationLogEntries
  | outcome => .allocationOutcomes

/-- A heartbeat request, with what the loop remembers about it until the answer. -/
structure Fragment where
  isFirst : Bool
  fullState : Bool
  forRegistration : Bool
  batch : Category → List Report := fun _ => []
  hasRemaining : Bool := false

namespace Fragment

def reports (f : Fragment) : List Report :=
  f.batch .commandResponses++f.batch .allocationLogEntries++f.batch .allocationOutcomes

def collect (encodedLen : Item → ℕ) (category : Category) (b : PendingBuffer) (baseSize : ℕ)
    (f : Fragment) : Fragment :=
  let batch := PendingBuffer.collect encodedLen baseSize b.pending
  {f with
    batch := Function.update f.batch category batch
    hasRemaining := f.hasRemaining || decide (batch.length<b.pending.length)}

lemma mem_reports {f : Fragment} {r : Report} : r ∈ f.reports ↔ ∃ category, r ∈ f.batch category := by
  unfold reports
  constructor
  · intro h
    rcases List.mem_append.mp h with h | h
    · rcases List.mem_append.mp h with h | h
      · exact ⟨_,h⟩
      · exact ⟨_,h⟩
    · exact ⟨_,h⟩
  · rintro ⟨category,h⟩
    cases category <;> simp [h]

end Fragment

inductive Answer
  | error
  | ok (sendState : Bool)
  deriving DecidableEq

/-- What becomes of a full state: it is applied, it is refused at once, or an error comes after
the executor became known. -/
inductive Sync
  | applied
  | refused
  | interrupted
  deriving DecidableEq

/-- How the server takes a request: the fate of its full state, the items that fail, and whether
a regressed ack has asked for the full state. -/
structure Verdict where
  sync : Sync := .applied
  fails : ℕ → Bool := fun _ => false
  requestFullState : Bool := false

/-- What the server knows of the executor. Each registration starts new streams. `received` and
`processed` record the reports in the order in which they came. -/
structure HeartbeatServer where
  known : Bool := false
  registrations : ℕ := 0
  received : List Report := []
  processed : List Report := []

namespace HeartbeatServer

/-- Reports of an unknown executor are dropped with success; one failed item fails the request,
after all others were processed. -/
def processReports (srv : HeartbeatServer) (f : Fragment) (v : Verdict) : HeartbeatServer × Answer :=
  if srv.known then
    ({srv with processed := srv.processed++f.reports.filter fun r => !v.fails r.number},
      if f.reports.any fun r => v.fails r.number then .error else .ok v.requestFullState)
  else (srv,.ok true)

def heartbeat (srv : HeartbeatServer) (f : Fragment) (v : Verdict) : HeartbeatServer × Answer :=
  let srv := {srv with received := srv.received++f.reports}
  if f.fullState then
    match v.sync with
    | .applied =>
      {srv with known := true, registrations := srv.registrations+1}.processReports f v
    | .refused => (srv,.error)
    | .interrupted => ({srv with known := true},.error)
  else srv.processReports f v

end HeartbeatServer

inductive Stage
  | idle
  | nextFragment
  | responsesCollected (f : Fragment)
  | outcomesCollected (f : Fragment)
  | sent (f : Fragment)
  | answered (f : Fragment) (answer : Answer)

def Stage.fragment : Stage → Option Fragment
  | idle | nextFragment => none
  | responsesCollected f | outcomesCollected f | sent f | answered f _ => some f

def Stage.underWay : Stage → Option Fragment
  | sent f => some f
  | idle | nextFragment | responsesCollected _ | outcomesCollected _ | answered _ _ => none

/-- `handedOver` records every report in the order of its number; `abandoned` are the requests
that the loop gave up while they were under way. -/
structure Heartbeats where
  channels : Channel → List Report := fun _ => []
  buffers : Category → PendingBuffer := fun _ => {}
  nextNumber : ℕ := 0
  handedOver : List Report := []
  sendFullState : Bool := false
  connectionState : ConnectionState := .registering
  lastAppliedCommandSeq : ℕ := 0
  lastAppliedResultSeq : ℕ := 0
  stage : Stage := .idle
  abandoned : List Fragment := []
  server : HeartbeatServer := {}

inductive HeartbeatEvent
  | sendResponse (response : Proto.CommandResponse)
  | sendContainerResponse (response : Proto.CommandResponse)
  | sendLogEntry (entry : Proto.AllocationLogEntry)
  | sendOutcome (outcome : Proto.AllocationOutcome)
  | drainChannel (channel : Channel)
  | advance
  | arrive (v : Verdict)
  | arriveLate (i : ℕ) (v : Verdict)
  | answer
  | fail
  | forget

namespace Heartbeats
variable (s : Heartbeats)

def send (channel : Channel) (item : Item) : Heartbeats :=
  let r : Report := ⟨s.nextNumber,item⟩
  {s with
    channels := Function.update s.channels channel (s.channels channel++[r])
    nextNumber := s.nextNumber+1
    handedOver := s.handedOver++[r]}

def drainChannel (channel : Channel) : Heartbeats :=
  match s.channels channel with
  | [] => s
  | r::rs =>
    {s with
      channels := Function.update s.channels channel rs
      buffers := Function.update s.buffers channel.category
        (PendingBuffer.receive (s.buffers channel.category) r)}

variable (encodedLen : Item → ℕ)

/-- The request is begun with the command responses; the full state goes with the first one. -/
def begin (isFirst : Bool) : Fragment :=
  Fragment.collect encodedLen .commandResponses (s.buffers .commandResponses) 0 {
    isFirst := isFirst
    fullState := isFirst && s.sendFullState
    forRegistration := s.sendFullState && s.connectionState == .registering }

def collectOutcomes (f : Fragment) : Fragment :=
  f.collect encodedLen .allocationOutcomes (s.buffers .allocationOutcomes)
    (PendingBuffer.size encodedLen (f.batch .commandResponses))

def collectLogEntries (f : Fragment) : Fragment :=
  f.collect encodedLen .allocationLogEntries (s.buffers .allocationLogEntries)
    (PendingBuffer.size encodedLen (f.batch .commandResponses) +
      PendingBuffer.size encodedLen (f.batch .allocationOutcomes))

def advance : Heartbeats :=
  match s.stage with
  | .idle => {s with stage := .responsesCollected (s.begin encodedLen true)}
  | .nextFragment => {s with stage := .responsesCollected (s.begin encodedLen false)}
  | .responsesCollected f => {s with stage := .outcomesCollected (s.collectOutcomes encodedLen f)}
  | .outcomesCollected f => {s with stage := .sent (s.collectLogEntries encodedLen f)}
  | .sent _ | .answered _ _ => s

def arrive (v : Verdict) : Heartbeats :=
  match s.stage with
  | .sent f =>
    let (server,answer) := s.server.heartbeat f v
    {s with server := server, stage := .answered f answer}
  | _ => s

def arriveLate (i : ℕ) (v : Verdict) : Heartbeats :=
  match s.abandoned[i]? with
  | some f =>
    {s with server := (s.server.heartbeat f v).1, abandoned := s.abandoned.eraseIdx i}
  | none => s

/-- An error leaves the buffers and the wish for the full state as they are. -/
def rpcFailed : Heartbeats := {s with connectionState := .unhealthy, stage := .idle}

/-- The cursors restart with a full state that was sent for a registration. -/
def resetSeqs (f : Fragment) : Heartbeats :=
  if f.isFirst && f.fullState && f.forRegistration then
    {s with lastAppliedCommandSeq := 0, lastAppliedResultSeq := 0}
  else s

/-- The answer is read for the wish for the full state only in the first fragment. -/
def rpcSucceeded (f : Fragment) (sendState : Bool) : Heartbeats :=
  let s := s.resetSeqs f
  let serverNeedsState := f.isFirst && sendState
  if serverNeedsState then
    {s with sendFullState := true, connectionState := .registering, stage := .idle}
  else
    {s with
      sendFullState := false
      buffers := fun category => (s.buffers category).drain (f.batch category).length
      connectionState := if f.isFirst then .ready else s.connectionState
      stage := if f.hasRemaining then .nextFragment else .idle}

def answer : Heartbeats :=
  match s.stage with
  | .answered _ .error => s.rpcFailed
  | .answered f (.ok sendState) => s.rpcSucceeded f sendState
  | _ => s

def fail : Heartbeats :=
  match s.stage with
  | .sent f => {s.rpcFailed with abandoned := s.abandoned++[f]}
  | .answered _ _ => s.rpcFailed
  | _ => s

/-- A restart of the server, a deregistration or a lapsed heartbeat. -/
def forget : Heartbeats := {s with server := {s.server with known := false}}

def step : HeartbeatEvent → Heartbeats
  | .sendResponse response => s.send .response (.commandResponse response)
  | .sendContainerResponse response => s.send .containerResponse (.commandResponse response)
  | .sendLogEntry entry => s.send .activity (.allocationLogEntry entry)
  | .sendOutcome outcome => s.send .outcome (.allocationOutcome outcome)
  | .drainChannel channel => s.drainChannel channel
  | .advance => s.advance encodedLen
  | .arrive v => s.arrive v
  | .arriveLate i v => s.arriveLate i v
  | .answer => s.answer
  | .fail => s.fail
  | .forget => s.forget

def run (events : List HeartbeatEvent) : Heartbeats :=
  events.foldl (fun s => s.step encodedLen) s

/-! ### What the steps with several outcomes do -/

lemma drainChannel_cases (s : Heartbeats) (c : Channel) : s.drainChannel c = s ∨
    ∃ r rs buffers, s.channels c = r::rs ∧ s.drainChannel c =
        {s with channels := Function.update s.channels c rs, buffers := buffers} ∧
      ∀ k, buffers k = s.buffers k ∨ k=c.category ∧ buffers k = (s.buffers k).push r := by
  cases hc : s.channels c with
  | nil =>
    simp [drainChannel,hc]
  | cons r rs =>
    right
    refine ⟨r,rs,_,rfl,by rw [drainChannel,hc],fun k => ?_⟩
    by_cases hk : k=c.category
    · subst hk
      rw [Function.update_self]
      exact (PendingBuffer.receive_cases _ r).imp_right fun he => ⟨rfl,he⟩
    · rw [Function.update_of_ne hk]
      exact .inl rfl

lemma advance_cases (s : Heartbeats) (encodedLen : Item → ℕ) : s.advance encodedLen = s ∨
    ∃ stage, s.advance encodedLen = {s with stage := stage} ∧ ∀ f a, stage ≠ .answered f a := by
  unfold advance
  cases s.stage with
  | sent f
  | answered f a => exact .inl rfl
  | _ => exact .inr ⟨_,rfl,by rintro f a ⟨⟩⟩

lemma arrive_cases (s : Heartbeats) (v : Verdict) : s.arrive v = s ∨ ∃ f, s.stage = .sent f ∧
    s.arrive v = {s with
      server := (s.server.heartbeat f v).1, stage := .answered f (s.server.heartbeat f v).2} := by
  unfold arrive
  cases s.stage with
  | sent f => exact .inr ⟨f,rfl,rfl⟩
  | _ => exact .inl rfl

lemma rpcSucceeded_cases (s : Heartbeats) (f : Fragment) (sendState : Bool) :
    ((f.isFirst && sendState) = true ∧ ∃ cmd res, s.rpcSucceeded f sendState =
        {s with
          sendFullState := true, connectionState := .registering, stage := .idle
          lastAppliedCommandSeq := cmd, lastAppliedResultSeq := res}) ∨
      (f.isFirst && sendState) = false ∧ ∃ cmd res conn stage, s.rpcSucceeded f sendState =
        {s with
          sendFullState := false
          buffers := fun k => (s.buffers k).drain (f.batch k).length
          connectionState := conn, stage := stage
          lastAppliedCommandSeq := cmd, lastAppliedResultSeq := res} ∧
        (stage=.idle ∨ stage=.nextFragment) := by
  have hreset : ∃ cmd res, s.resetSeqs f =
      {s with lastAppliedCommandSeq := cmd, lastAppliedResultSeq := res} := by
    unfold resetSeqs
    split_ifs
    · exact ⟨0,0,rfl⟩
    · exact ⟨_,_,rfl⟩
  obtain ⟨cmd,res,hreset⟩ := hreset
  unfold rpcSucceeded
  rw [hreset]
  cases hneeds : f.isFirst && sendState with
  | true => exact .inl ⟨rfl,cmd,res,rfl⟩
  | false =>
    refine .inr ⟨rfl,cmd,res,_,_,rfl,?_⟩
    split_ifs
    · exact .inr rfl
    · exact .inl rfl

end Heartbeats
end Indexify.Dataplane
