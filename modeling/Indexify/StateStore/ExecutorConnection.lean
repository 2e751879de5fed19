import Indexify.ExecutorApi.Messages

/-! The buffers of a connected executor. The parameter `encodedLen` is the length of the
encoded message; a single item of a poll response is at most eight mebibytes long. -/
namespace Indexify

structure Command where
  seq : ℕ
  body : List UInt8
  deriving DecidableEq

def u64Max : ℕ := 2^64-1

def saturatingSucc (n : ℕ) : ℕ := min (n+1) u64Max

def maxPollResponseBytes : ℕ := 8*1024*1024

structure ExecutorConnection where
  pendingCommands : List Command := []
  pendingResults : List Proto.SequencedAllocationResult := []
  nextResultSeq : ℕ := 1
  lastAckedCommandSeq : ℕ := 0
  requestFullState : Bool := false
  deriving DecidableEq

namespace ExecutorConnection

/-- The items from the front while the total length stays within the limit. -/
def takeWithin {α : Type} (encodedLen : α → ℕ) (limitBytes : ℕ) : ℕ → List α → List α
  | _,[] => []
  | total,a::as =>
    if total+encodedLen a ≤ limitBytes then
      a::takeWithin encodedLen limitBytes (total+encodedLen a) as
    else []

/-- The first item is always selected. -/
def cappedClone {α : Type} (encodedLen : α → ℕ) (limitBytes : ℕ) : List α → List α
  | [] => []
  | a::as => a::takeWithin encodedLen limitBytes (encodedLen a) as

/-- Items at the front that can never fit are dropped, then a bounded part is cloned. -/
def clonePending {α : Type} (encodedLen : α → ℕ) (limitBytes : ℕ) (buffer : List α) : List α × List α :=
  let kept := buffer.dropWhile fun a => limitBytes<encodedLen a
  (kept,cappedClone encodedLen limitBytes kept)

def pushCommands (encodedLen : Command → ℕ) (conn : ExecutorConnection) (cmds : List Command) :
    ExecutorConnection × Except String Unit :=
  match cmds.find? fun cmd => maxPollResponseBytes<encodedLen cmd with
  | some cmd =>
    (conn,.error ("command seq "++toString cmd.seq++" exceeds max poll item size: " ++
      toString (encodedLen cmd)++" > "++toString maxPollResponseBytes++" bytes"))
  | none => ({conn with pendingCommands := conn.pendingCommands++cmds},.ok ())

def drainCommandsUpTo (conn : ExecutorConnection) (ackedSeq : ℕ) : ExecutorConnection :=
  {conn with pendingCommands := conn.pendingCommands.filter fun cmd => ackedSeq<cmd.seq}

/-- An ack below the last one is taken for a restart and asks for a full sync. -/
def observeCommandAck (conn : ExecutorConnection) (ackedSeq : Option ℕ) : ExecutorConnection :=
  let observed := ackedSeq.getD 0
  if observed<conn.lastAckedCommandSeq then
    {conn with lastAckedCommandSeq := 0, requestFullState := true}
  else {conn with lastAckedCommandSeq := observed}

def pushResult (encodedLen : Proto.SequencedAllocationResult → ℕ) (conn : ExecutorConnection)
    (entry : Proto.AllocationLogEntry) : ExecutorConnection × Except String Unit :=
  let result : Proto.SequencedAllocationResult := ⟨conn.nextResultSeq,some entry⟩
  if maxPollResponseBytes<encodedLen result then
    (conn,.error ("allocation result seq "++toString conn.nextResultSeq ++
      " exceeds max poll item size: "++toString (encodedLen result)++" > " ++
      toString maxPollResponseBytes++" bytes"))
  else
    ({conn with
      pendingResults := conn.pendingResults++[result]
      nextResultSeq := saturatingSucc conn.nextResultSeq},.ok ())

def drainResultsUpTo (conn : ExecutorConnection) (ackedSeq : ℕ) : ExecutorConnection :=
  {conn with pendingResults := conn.pendingResults.filter fun r => ackedSeq<r.seq}

def resetForFullSync (_ : ExecutorConnection) : ExecutorConnection := {}

end ExecutorConnection
end Indexify
