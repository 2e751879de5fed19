import Indexify.ExecutorApi.CommandResponses
import Indexify.Library.Outbox

/-! The buffers of reports that wait for a heartbeat. An item is copied into a request and leaves
its buffer only after the request succeeded. -/
namespace Indexify.Dataplane
open List

inductive Category
  | commandResponses
  | allocationLogEntries
  | allocationOutcomes
  deriving DecidableEq

inductive Item
  | commandResponse (response : Proto.CommandResponse)
  | allocationLogEntry (entry : Proto.AllocationLogEntry)
  | allocationOutcome (outcome : Proto.AllocationOutcome)
  deriving DecidableEq

def Item.category : Item → Category
  | commandResponse _ => .commandResponses
  | allocationLogEntry _ => .allocationLogEntries
  | allocationOutcome _ => .allocationOutcomes

def Item.allocationId : Item → Option String
  | commandResponse _ => none
  | allocationLogEntry entry => some entry.allocationId
  | allocationOutcome (.completed completed) => some completed.allocationId
  | allocationOutcome (.failed failed) => some failed.allocationId
  | allocationOutcome .empty => none

/-- An item with the number under which it was handed over, so that equal items stay apart. -/
structure Report where
  number : ℕ
  item : Item
  deriving DecidableEq

def Report.category (r : Report) : Category := r.item.category

def stateReportMaxMessageSize : ℕ := 10*1024*1024

def stateReportMaxPendingItems : ℕ := 50000

/-- `drained` of the buffer is kept for the record only. -/
abbrev PendingBuffer := Outbox Report

namespace PendingBuffer

/-- A drainer hands on what it received; over capacity the incoming item is dropped. -/
def receive (b : PendingBuffer) (r : Report) : PendingBuffer :=
  if stateReportMaxPendingItems ≤ b.pending.length then b else b.push r

lemma receive_cases (b : PendingBuffer) (r : Report) : receive b r = b ∨ receive b r = b.push r := by
  unfold receive
  split_ifs
  · exact .inl rfl
  · exact .inr rfl

variable (encodedLen : Item → ℕ)

def collectBelow : ℕ → List Report → List Report
  | _,[] => []
  | currentSize,r::rs =>
    if currentSize+encodedLen r.item<stateReportMaxMessageSize then
      r::collectBelow (currentSize+encodedLen r.item) rs
    else []

/-- The first item is always taken. -/
def collect (baseMessageSize : ℕ) : List Report → List Report
  | [] => []
  | r::rs => r::collectBelow encodedLen (baseMessageSize+encodedLen r.item) rs

def size (rs : List Report) : ℕ := (rs.map fun r => encodedLen r.item).sum

variable {encodedLen}

lemma collectBelow_isPrefix (currentSize : ℕ) (rs : List Report) :
    collectBelow encodedLen currentSize rs <+: rs := by
  induction rs generalizing currentSize with
  | nil => exact List.nil_prefix
  | cons r rs ih =>
    unfold collectBelow
    split_ifs
    · exact (prefix_cons_inj r).mpr (ih _)
    · exact List.nil_prefix

lemma collect_isPrefix (baseMessageSize : ℕ) (rs : List Report) :
    collect encodedLen baseMessageSize rs <+: rs := by
  cases rs with
  | nil => exact List.nil_prefix
  | cons r rs => exact (prefix_cons_inj r).mpr (collectBelow_isPrefix _ rs)

lemma collect_eq_nil {baseMessageSize : ℕ} {rs : List Report} :
    collect encodedLen baseMessageSize rs = [] ↔ rs = [] := by
  cases rs <;> simp [collect]

lemma mem_collectBelow {currentSize : ℕ} {rs : List Report} {r : Report} (hr : r∈rs)
    (h : currentSize+size encodedLen (rs.takeWhile (· ≠ r))+encodedLen r.item <
      stateReportMaxMessageSize) : r ∈ collectBelow encodedLen currentSize rs := by
  induction rs generalizing currentSize with
  | nil => cases hr
  | cons r' rs ih =>
    by_cases hsame : r'=r
    · subst hsame
      rw [takeWhile_cons_of_neg (by simp)] at h
      simp only [size,map_nil,sum_nil,Nat.add_zero] at h
      simp [collectBelow,h]
    rw [takeWhile_cons_of_pos (by simpa using hsame)] at h
    simp only [size,map_cons,sum_cons] at h
    rw [collectBelow,if_pos (by omega)]
    exact mem_cons_of_mem _
      (ih (mem_of_ne_of_mem (Ne.symm hsame) hr) (by simp only [size]; omega))

/-- The item is the first one, or everything up to it stays below the limit. -/
def Fits (encodedLen : Item → ℕ) (baseMessageSize : ℕ) (rs : List Report) (r : Report) : Prop :=
  rs.head? = some r ∨ baseMessageSize+size encodedLen (rs.takeWhile (· ≠ r))+encodedLen r.item <
    stateReportMaxMessageSize
  deriving Decidable

lemma Fits.mem_collect {baseMessageSize : ℕ} {rs : List Report} {r : Report} (hr : r∈rs)
    (h : Fits encodedLen baseMessageSize rs r) : r ∈ collect encodedLen baseMessageSize rs := by
  cases rs with
  | nil => cases hr
  | cons r' rs =>
    by_cases hsame : r'=r
    · exact hsame ▸ mem_cons_self
    have hsize := h.resolve_left (by simpa using hsame)
    rw [takeWhile_cons_of_pos (by simpa using hsame)] at hsize
    simp only [size,map_cons,sum_cons] at hsize
    exact mem_cons_of_mem _ (mem_collectBelow (mem_of_ne_of_mem (Ne.symm hsame) hr)
      (by simp only [size]; omega))

end PendingBuffer
end Indexify.Dataplane
