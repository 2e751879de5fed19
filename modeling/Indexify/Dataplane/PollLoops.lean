import Indexify.Dataplane.Heartbeats

/-! The two poll loops next to the heartbeat loop. The server numbers commands and results from
one in each stream and starts new streams when it accepts a full state; an ack drops what is
numbered up to it. A poll that finds no connection at the server is one that does not arrive. -/
namespace Indexify.Dataplane

inductive StreamKind
  | commands
  | results
  deriving DecidableEq

/-- A command or a result. The number of the stream is not known to the program; it counts the
registrations. -/
structure Sequenced where
  stream : ℕ
  seq : ℕ
  deriving DecidableEq

/-- What the server buffers for polls, and the next number. -/
structure Stream where
  pending : List Sequenced := []
  nextSeq : ℕ := 1
  deriving DecidableEq

/-- A loop waits for the connection, has found it ready, waits for a response, or works through
one with the next number it expects. -/
inductive PollLoop
  | paused
  | admitted
  | waiting
  | answered (items : List Sequenced)
  | handling (items : List Sequenced) (nextSeq : ℕ)
  deriving DecidableEq

/-- `requests` are the polls on their way to the server, with their acks. `applied` are the items
that the dataplane has applied, `acked` the acks that arrived and `dropped` what they removed. -/
structure Polling where
  heartbeats : Heartbeats := {}
  streams : StreamKind → Stream := fun _ => {}
  loops : StreamKind → PollLoop := fun _ => .paused
  requests : List (StreamKind × ℕ) := []
  applied : StreamKind → List Sequenced := fun _ => []
  acked : StreamKind → List Sequenced := fun _ => []
  dropped : StreamKind → List Sequenced := fun _ => []

inductive PollEvent
  | beat (e : HeartbeatEvent)
  | emit (kind : StreamKind)
  | proceed (kind : StreamKind)
  | request (kind : StreamKind)
  | arrive (i : ℕ)
  | respond (kind : StreamKind) (count : ℕ)
  | receive (kind : StreamKind)
  | handle (kind : StreamKind) (shouldAdvanceAck : Bool)
  | abandon (kind : StreamKind)

namespace Heartbeats

def lastApplied (h : Heartbeats) : StreamKind → ℕ
  | .commands => h.lastAppliedCommandSeq
  | .results => h.lastAppliedResultSeq

def storeLastApplied (h : Heartbeats) (seq : ℕ) : StreamKind → Heartbeats
  | .commands => {h with lastAppliedCommandSeq := seq}
  | .results => {h with lastAppliedResultSeq := seq}

end Heartbeats

namespace Polling
variable (s : Polling)

def current : ℕ := s.heartbeats.server.registrations

def setLoop (kind : StreamKind) (loop : PollLoop) : Polling :=
  {s with loops := Function.update s.loops kind loop}

/-- An accepted full state starts both streams anew. -/
def follow (h : Heartbeats) : Polling :=
  if h.server.registrations=s.current then {s with heartbeats := h}
  else {s with heartbeats := h, streams := fun _ => {}}

def beat (encodedLen : Item → ℕ) (e : HeartbeatEvent) : Polling :=
  s.follow (s.heartbeats.step encodedLen e)

def emit (kind : StreamKind) : Polling :=
  let stream := s.streams kind
  {s with
    streams := Function.update s.streams kind
      ⟨stream.pending++[⟨s.current,stream.nextSeq⟩],stream.nextSeq+1⟩}

def proceed (kind : StreamKind) : Polling :=
  if s.loops kind = .paused ∧ s.heartbeats.connectionState=.ready then s.setLoop kind .admitted
  else s

def request (kind : StreamKind) : Polling :=
  if s.loops kind = .admitted then
    {s.setLoop kind .waiting with
      requests := s.requests++[(kind,s.heartbeats.lastApplied kind)]}
  else s

/-- The server drops what the poll acks; the response follows later. -/
def arrive (i : ℕ) : Polling :=
  match s.requests[i]? with
  | none => s
  | some (kind,ack) =>
    let stream := s.streams kind
    {s with
      requests := s.requests.eraseIdx i
      streams := Function.update s.streams kind
        {stream with pending := stream.pending.filter fun x => ack<x.seq}
      acked := Function.update s.acked kind (s.acked kind++[⟨s.current,ack⟩])
      dropped := Function.update s.dropped kind
        (s.dropped kind++stream.pending.filter fun x => x.seq ≤ ack)}

def respond (kind : StreamKind) (count : ℕ) : Polling :=
  if s.loops kind = .waiting then
    s.setLoop kind (.answered ((s.streams kind).pending.take count))
  else s

def receive (kind : StreamKind) : Polling :=
  match s.loops kind with
  | .answered items => s.setLoop kind (.handling items (s.heartbeats.lastApplied kind+1))
  | _ => s

/-- The next item of the response. A command that is not applied ends the response; a result is
applied whatever becomes of it. -/
def handle (kind : StreamKind) (shouldAdvanceAck : Bool) : Polling :=
  match s.loops kind with
  | .handling [] _ => s.setLoop kind .paused
  | .handling (x::xs) nextSeq =>
    if x.seq<nextSeq then s.setLoop kind (.handling xs nextSeq)
    else if nextSeq<x.seq then s.setLoop kind .paused
    else if kind=.commands ∧ shouldAdvanceAck=false then s.setLoop kind .paused
    else
      {s.setLoop kind (.handling xs (nextSeq+1)) with
        heartbeats := s.heartbeats.storeLastApplied x.seq kind
        applied := Function.update s.applied kind (s.applied kind++[x])}
  | _ => s

def abandon (kind : StreamKind) : Polling :=
  match s.loops kind with
  | .admitted | .waiting | .answered _ => s.setLoop kind .paused
  | .paused | .handling _ _ => s

def step (encodedLen : Item → ℕ) : PollEvent → Polling
  | .beat e => s.beat encodedLen e
  | .emit kind => s.emit kind
  | .proceed kind => s.proceed kind
  | .request kind => s.request kind
  | .arrive i => s.arrive i
  | .respond kind count => s.respond kind count
  | .receive kind => s.receive kind
  | .handle kind shouldAdvanceAck => s.handle kind shouldAdvanceAck
  | .abandon kind => s.abandon kind

def run (encodedLen : Item → ℕ) (events : List PollEvent) : Polling :=
  events.foldl (fun s => s.step encodedLen) s

end Polling
end Indexify.Dataplane
