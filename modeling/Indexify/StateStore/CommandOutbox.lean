import Mathlib.Data.Prod.Lex
import Indexify.StateStore.ExecutorConnection

/-! The command outbox of one executor, the connection buffers in front of it, and the calls
that share them. A call runs until its next await point and is then resumed by an event; a
transaction on the outbox is one step. Database errors are left out. -/
namespace Indexify
open List
namespace CommandOutbox

/-- A persisted command with the number of its stream. The program has no such number: it
counts the resets of the outbox, after which sequence numbers start again at one. -/
structure Queued where
  stream : ℕ
  cmd : Command
  deriving DecidableEq

/-- Keys are ordered by stream and then by number. -/
def Queued.key (q : Queued) : ℕ ×ₗ ℕ := toLex (q.stream,q.cmd.seq)

/-- The part of a connection that commands pass through. -/
structure Connection where
  pending : List Queued := []
  lastAckedCommandSeq : ℕ := 0
  requestFullState : Bool := false
  deriving DecidableEq

namespace Connection

def pushCommands (encodedLen : Command → ℕ) (cmds : List Queued) (conn : Connection) : Connection :=
  if cmds.any fun q => decide (maxPollResponseBytes<encodedLen q.cmd) then conn
  else {conn with pending := conn.pending++cmds}

def drainCommandsUpTo (ackedSeq : ℕ) (conn : Connection) : Connection :=
  {conn with pending := conn.pending.filter fun q => ackedSeq<q.cmd.seq}

def observeCommandAck (ackedSeq : Option ℕ) (conn : Connection) : Connection :=
  let observed := ackedSeq.getD 0
  if observed<conn.lastAckedCommandSeq then
    {conn with lastAckedCommandSeq := 0, requestFullState := true}
  else {conn with lastAckedCommandSeq := observed}

/-- The buffer that a poll leaves behind and the commands of its response. -/
def cloneCommandsCapped (encodedLen : Command → ℕ) (conn : Connection) : List Queued × List Queued :=
  ExecutorConnection.clonePending (fun q => encodedLen q.cmd) maxPollResponseBytes conn.pending

def resetForFullSync (_ : Connection) : Connection := {}

def erase (conn : Connection) : ExecutorConnection :=
  {pendingCommands := conn.pending.map Queued.cmd
   lastAckedCommandSeq := conn.lastAckedCommandSeq
   requestFullState := conn.requestFullState}

lemma erase_pushCommands (encodedLen : Command → ℕ) (cmds : List Queued) (conn : Connection) :
    (conn.pushCommands encodedLen cmds).erase =
      (conn.erase.pushCommands encodedLen (cmds.map Queued.cmd)).1 := by
  unfold pushCommands ExecutorConnection.pushCommands
  split
  · next hbig =>
    obtain ⟨q,hq,hlen⟩ := any_eq_true.mp hbig
    have hfound : ((cmds.map Queued.cmd).find? fun cmd =>
        maxPollResponseBytes<encodedLen cmd).isSome := by
      rw [find?_isSome]
      exact ⟨q.cmd,mem_map_of_mem hq,hlen⟩
    obtain ⟨cmd,hcmd⟩ := Option.isSome_iff_exists.mp hfound
    rw [hcmd]
  next hfit =>
  have hnone : ((cmds.map Queued.cmd).find? fun cmd =>
      maxPollResponseBytes<encodedLen cmd) = none := by
    rw [find?_eq_none]
    intro cmd hcmd
    obtain ⟨q,hq,rfl⟩ := mem_map.mp hcmd
    exact fun hlen => hfit (any_eq_true.mpr ⟨q,hq,hlen⟩)
  rw [hnone]
  simp [erase]

lemma erase_drainCommandsUpTo (ackedSeq : ℕ) (conn : Connection) :
    (conn.drainCommandsUpTo ackedSeq).erase = conn.erase.drainCommandsUpTo ackedSeq := by
  simp [drainCommandsUpTo,ExecutorConnection.drainCommandsUpTo,erase,filter_map,Function.comp_def]

lemma erase_observeCommandAck (ackedSeq : Option ℕ) (conn : Connection) :
    (conn.observeCommandAck ackedSeq).erase = conn.erase.observeCommandAck ackedSeq := by
  by_cases h : ackedSeq.getD 0<conn.lastAckedCommandSeq <;>
    simp [observeCommandAck,ExecutorConnection.observeCommandAck,erase,h]

end Connection

/-- The calls in progress, each at one of its await points. -/
inductive Call where
  /-- The drained commands are committed, the connection is looked up next. -/
  | drain (cmds : List Queued)
  | drainPush (conn : ℕ) (cmds : List Queued)
  | emit (forceFullSync : Bool)
  | emitLock (conn : ℕ) (forceFullSync : Bool)
  | emitReset (conn : ℕ)
  | emitClear (conn : ℕ)
  | emitSnapshot (conn : ℕ)
  | emitPush (conn : ℕ) (cmds : List Queued)
  | register
  | registerAcked
  | registerPending (acked : ℕ)
  | registerInsert (acked : ℕ) (cmds : List Queued)
  | registerReset (conn : ℕ)
  | registerClear (conn : ℕ)
  | deregister
  | deregisterReset
  | poll (ackedSeq : Option ℕ)
  | pollAcked (conn : ℕ) (seq : ℕ)
  | pollAck (conn : ℕ) (seq prevAcked : ℕ)
  | pollDrain (conn : ℕ) (seq : ℕ)
  | pollClone (conn : ℕ)
  | pollWait
  | done
  deriving DecidableEq

namespace Call

/-- A poll holds the read lock of the connection table until it waits or returns. -/
def polls : Call → Option ℕ
  | pollAcked conn _ | pollAck conn _ _ | pollDrain conn _ | pollClone conn => some conn
  | _ => none

/-- The connection whose emit lock the call holds. -/
def emits : Call → Option ℕ
  | emitReset conn | emitClear conn | emitSnapshot conn | emitPush conn _ => some conn
  | _ => none

def cmds : Call → List Queued
  | drain cmds | drainPush _ cmds | emitPush _ cmds | registerInsert _ cmds => cmds
  | _ => []

end Call

/-- A connection object stays alive while a call holds it; `current` is the one in the table.
The last two fields are a history: the keys of the commands in poll responses, and the
commands that an ack removed before a response contained them. -/
structure State where
  intents : List (List UInt8) := []
  outbox : List Queued := []
  nextSeq : ℕ := 1
  acked : ℕ := 0
  stream : ℕ := 0
  connections : List Connection := []
  current : Option ℕ := none
  calls : List Call := []
  delivered : List (ℕ ×ₗ ℕ) := []
  unseen : List Queued := []
  deriving DecidableEq

/-- The sequence numbers that a transaction gives to its commands, and the next free one. -/
def assignSeqs (stream : ℕ) : ℕ → List (List UInt8) → List Queued × ℕ
  | nextSeq,[] => ([],nextSeq)
  | nextSeq,body::bodies =>
    let rest := assignSeqs stream (saturatingSucc nextSeq) bodies
    (⟨stream,⟨nextSeq,body⟩⟩::rest.1,rest.2)

/-- A command replaces the one stored under its sequence number. -/
def putCommand (outbox : List Queued) (q : Queued) : List Queued :=
  (outbox.filter fun p => p.cmd.seq≠q.cmd.seq)++[q]

namespace State
variable (s : State)

def setCall (i : ℕ) (call : Call) : State := {s with calls := s.calls.set i call}

def addCall (call : Call) : State := {s with calls := s.calls++[call]}

def modifyConnection (conn : ℕ) (f : Connection → Connection) : State :=
  {s with connections := s.connections.modify conn f}

def insertConnection (conn : Connection) : State :=
  {s with connections := s.connections++[conn], current := some s.connections.length}

def removeConnection : State := {s with current := none}

def tableLocked : Bool := s.calls.any fun call => call.polls.isSome

def emitLocked (conn : ℕ) : Bool := s.calls.any fun call => call.emits = some conn

def assigned (bodies : List (List UInt8)) : List Queued :=
  (assignSeqs s.stream s.nextSeq bodies).1

def commitCommands (bodies : List (List UInt8)) : State :=
  {s with
    outbox := (s.assigned bodies).foldl putCommand s.outbox
    nextSeq := (assignSeqs s.stream s.nextSeq bodies).2}

def resetExecutorCommandOutbox : State :=
  {s with outbox := [], nextSeq := 1, acked := 0, stream := s.stream+1}

/-- Acks are cumulative, also over the ack that was stored when the call read it. -/
def ackExecutorCommands (seq prevAcked : ℕ) : State :=
  let effective := max seq prevAcked
  {s with
    acked := effective
    outbox := s.outbox.filter fun q => effective<q.cmd.seq
    unseen := s.unseen++s.outbox.filter fun q => q.cmd.seq ≤ effective ∧ q.key ∉ s.delivered}

def drainCommandsUpTo (conn : ℕ) (seq : ℕ) : State :=
  let pending := (s.connections[conn]?.getD {}).pending
  {s.modifyConnection conn (Connection.drainCommandsUpTo seq) with
    unseen := s.unseen++pending.filter fun q => q.cmd.seq ≤ seq ∧ q.key ∉ s.delivered}

def respond (encodedLen : Command → ℕ) (s : State) (conn : ℕ) : List Queued × State :=
  let cloned := (s.connections[conn]?.getD {}).cloneCommandsCapped encodedLen
  (cloned.2,
    {s.modifyConnection conn (fun c => {c with pending := cloned.1}) with
     delivered := s.delivered++cloned.2.map Queued.key})

/-- One call runs to its next await point; it does not move while a lock that it needs is
taken. `desired` is what the desired state of the executor is when a full sync reads it. -/
def resume (encodedLen : Command → ℕ) (desired : Option (List (List UInt8))) (s : State) (i : ℕ) :
    Call → State
  | .drain cmds =>
    match s.current with
    | none => s.setCall i .done
    | some conn => s.setCall i (.drainPush conn cmds)
  | .drainPush conn cmds =>
    if s.emitLocked conn then s
    else (s.modifyConnection conn (Connection.pushCommands encodedLen cmds)).setCall i .done
  | .emit forceFullSync =>
    match s.current with
    | none => s.setCall i .done
    | some conn => s.setCall i (.emitLock conn forceFullSync)
  | .emitLock conn forceFullSync =>
    if s.emitLocked conn then s
    else s.setCall i (if forceFullSync then .emitReset conn else .emitSnapshot conn)
  | .emitReset conn => s.resetExecutorCommandOutbox.setCall i (.emitClear conn)
  | .emitClear conn =>
    (s.modifyConnection conn Connection.resetForFullSync).setCall i (.emitSnapshot conn)
  | .emitSnapshot conn =>
    match desired with
    | none | some [] => s.setCall i .done
    | some bodies => (s.commitCommands bodies).setCall i (.emitPush conn (s.assigned bodies))
  -- the connection is looked up again: it need not be the one that is locked
  | .emitPush _ cmds =>
    match s.current with
    | none => s.setCall i .done
    | some conn =>
      (s.modifyConnection conn (Connection.pushCommands encodedLen cmds)).setCall i .done
  | .register =>
    match s.current with
    | none => s.setCall i .registerAcked
    | some conn => s.setCall i (.registerReset conn)
  | .registerAcked => s.setCall i (.registerPending s.acked)
  | .registerPending acked =>
    s.setCall i (.registerInsert acked (s.outbox.filter fun q => acked<q.cmd.seq))
  | .registerInsert acked cmds =>
    if s.tableLocked then s
    else match s.current with
      | some conn => s.setCall i (.registerReset conn)
      | none => (s.insertConnection ⟨cmds,acked,false⟩).setCall i .done
  | .registerReset conn => s.resetExecutorCommandOutbox.setCall i (.registerClear conn)
  | .registerClear conn => (s.modifyConnection conn Connection.resetForFullSync).setCall i .done
  | .deregister =>
    if s.tableLocked then s
    else match s.current with
      | none => s.setCall i .done
      | some _ => s.removeConnection.setCall i .deregisterReset
  | .deregisterReset => s.resetExecutorCommandOutbox.setCall i .done
  | .poll ackedSeq =>
    match s.current with
    | none => s.setCall i .done
    | some conn =>
      (s.modifyConnection conn (Connection.observeCommandAck ackedSeq)).setCall i
        (match ackedSeq with
          | none => .pollClone conn
          | some seq => .pollAcked conn seq)
  | .pollAcked conn seq => s.setCall i (.pollAck conn seq s.acked)
  | .pollAck conn seq prevAcked =>
    (s.ackExecutorCommands seq prevAcked).setCall i (.pollDrain conn seq)
  | .pollDrain conn seq => (s.drainCommandsUpTo conn seq).setCall i (.pollClone conn)
  | .pollClone conn =>
    let (items,s') := s.respond encodedLen conn
    s'.setCall i (if items = [] then .pollWait else .done)
  | .pollWait =>
    match s.current with
    | none => s.setCall i .done
    | some conn => (s.respond encodedLen conn).2.setCall i .done
  | .done => s

end State

inductive Event where
  /-- The scheduler persists command intents for the executor. -/
  | intents (bodies : List (List UInt8))
  /-- A drain moves a page of intents into the outbox. -/
  | drain (maxItems : ℕ)
  | emit (forceFullSync : Bool)
  | register
  | deregister
  | poll (ackedSeq : Option ℕ)
  | resume (call : ℕ) (desired : Option (List (List UInt8)))
  /-- The server starts again: what is persisted is all that is left. -/
  | restart
  deriving DecidableEq

def step (encodedLen : Command → ℕ) (s : State) : Event → State
  | .intents bodies => {s with intents := s.intents++bodies}
  | .drain maxItems =>
    match s.intents.take maxItems with
    | [] => s
    | bodies =>
      ({s with intents := s.intents.drop maxItems}.commitCommands bodies).addCall
        (.drain (s.assigned bodies))
  | .emit forceFullSync => s.addCall (.emit forceFullSync)
  | .register => s.addCall .register
  | .deregister => s.addCall .deregister
  | .poll ackedSeq => s.addCall (.poll ackedSeq)
  | .resume i desired =>
    match s.calls[i]? with
    | none => s
    | some call => s.resume encodedLen desired i call
  | .restart => {s with connections := [], current := none, calls := []}

def run (encodedLen : Command → ℕ) (events : List Event) : State :=
  events.foldl (step encodedLen) {}

end CommandOutbox
end Indexify
