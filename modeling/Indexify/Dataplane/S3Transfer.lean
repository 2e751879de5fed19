import Mathlib.Algebra.Order.Ring.Nat
import Mathlib.Data.List.Basic

/-! Transfers to and from S3. A large object is downloaded in ranges that are requested one after the
other, answered in any order and forwarded in their own. A stream is uploaded in parts. Requests
succeed, and a range is answered with the bytes that the object has there. -/
namespace Indexify.Dataplane.S3Transfer
open List

/-- The size of a range, the ranges in the buffer and the requests at a time: 8 MiB, 24 and 8. -/
structure Limits where
  partSize : ℕ
  maxBufferedParts : ℕ
  concurrency : ℕ
  partSize_pos : 0 < partSize
  maxBufferedParts_pos : 0 < maxBufferedParts
  concurrency_pos : 0 < concurrency

/-- A request holds a permit until its response begins. -/
inductive Phase
  | sending | reading | done
  deriving DecidableEq

def Phase.next : Phase → Phase
  | .sending => .reading
  | _ => .done

/-- The task that downloads; `sent` is what the receiver of its channel gets. -/
structure Download where
  partStart : ℕ := 0
  /-- The ranges in the buffer, with the bytes that S3 has there. -/
  futs : List (List UInt8 × Phase) := []
  sent : List UInt8 := []

inductive Event
  | request | answer (i : ℕ) | forward

variable (l : Limits) (object : List UInt8)

/-- One operation, if it is possible. The next range is requested when the buffer has room and a permit
is free; the first range in the buffer is forwarded when it has no room or all ranges are requested. -/
def step (d : Download) : Event → Option Download
  | .request =>
    if d.partStart<object.length ∧ d.futs.length < l.maxBufferedParts ∧
        d.futs.countP (·.2=.sending) < l.concurrency then
      some { d with
        partStart := d.partStart+l.partSize
        futs := d.futs++[((object.drop d.partStart).take l.partSize,.sending)] }
    else none
  | .answer i =>
    match d.futs[i]? with
    | some (bytes,phase) =>
      if phase≠.done then some {d with futs := d.futs.set i (bytes,phase.next)} else none
    | none => none
  | .forward =>
    match d.futs with
    | (bytes,.done)::rest =>
      if l.maxBufferedParts ≤ d.futs.length ∨ object.length ≤ d.partStart then
        some {d with futs := rest, sent := d.sent++bytes}
      else none
    | _ => none

/-- A small object is sent whole. -/
def getStreamConcurrent (threshold : ℕ) : Download :=
  if object.length ≤ threshold then ⟨object.length,[],object⟩ else {}

/-- What was sent and what the buffer holds are the object up to where it is requested. -/
structure Ordered (d : Download) : Prop where
  bytes : d.sent++(d.futs.map Prod.fst).flatten = object.take d.partStart
  buffered : d.futs.length ≤ l.maxBufferedParts

def Phase.left : Phase → ℕ
  | .sending => 3
  | .reading => 2
  | .done => 1

/-- Bounds the operations that are left. -/
def Download.left (d : Download) : ℕ :=
  4*(object.length-d.partStart)+(d.futs.map (·.2.left)).sum

variable {l object} {d d' : Download} {e : Event}

lemma Ordered.step (h : Ordered l object d) (hstep : step l object d e = some d') :
    Ordered l object d' ∧ d'.left object < d.left object := by
  obtain ⟨hbytes,hbuffered⟩ := h
  unfold S3Transfer.step at hstep
  cases e with
  | request =>
    dsimp only at hstep
    split_ifs at hstep with henabled
    cases hstep
    refine ⟨⟨?_,?_⟩,?_⟩
    · simp [take_add,← hbytes]
    · rw [length_append]
      exact henabled.2.1
    · have := l.partSize_pos
      simp [Download.left,Phase.left]
      omega
  | answer i =>
    dsimp only at hstep
    split at hstep
    next bytes phase hget =>
      split_ifs at hstep with hopen
      cases hstep
      obtain ⟨hi,hat⟩ := List.getElem?_eq_some_iff.1 hget
      obtain ⟨before,after,hfuts,-,hset⟩ := @exists_of_set _ i (bytes,phase.next) d.futs hi
      rw [hset,Download.left,Download.left]
      rw [hfuts,hat] at hbytes hbuffered ⊢
      refine ⟨⟨by simpa using hbytes,by simpa using hbuffered⟩,?_⟩
      cases phase <;> simp [Phase.left,Phase.next] at hopen ⊢
    · cases hstep
  | forward =>
    dsimp only at hstep
    split at hstep
    next bytes rest hfuts =>
      split_ifs at hstep
      cases hstep
      rw [hfuts] at hbytes hbuffered
      refine ⟨⟨by simpa using hbytes,Nat.le_of_succ_le hbuffered⟩,?_⟩
      simp [Download.left,hfuts,Phase.left]
    · cases hstep

/-- As long as bytes are missing, some operation is possible. -/
lemma Ordered.complete (h : Ordered l object d) (hstuck : ∀ e, S3Transfer.step l object d e = none) :
    d.sent = object := by
  have hdone : ∀ f∈d.futs, f.2 = .done := by
    intro f hf
    obtain ⟨i,hget⟩ := mem_iff_getElem?.1 hf
    have hanswer := hstuck (.answer i)
    rw [S3Transfer.step,hget] at hanswer
    simpa using hanswer
  have hrequest := hstuck .request
  have hforward := hstuck .forward
  unfold S3Transfer.step at hrequest hforward
  have hidle : d.futs.countP (·.2=.sending) = 0 := by
    simp +contextual [countP_eq_zero,hdone]
  simp [hidle,l.concurrency_pos] at hrequest
  cases hfuts : d.futs with
  | nil =>
    have hlate : object.length ≤ d.partStart := by
      by_contra hearly
      have hfull := hrequest (Nat.lt_of_not_le hearly)
      rw [hfuts] at hfull
      exact Nat.not_lt.2 hfull l.maxBufferedParts_pos
    simpa [hfuts,take_of_length_le hlate] using h.bytes
  | cons f rest =>
    obtain ⟨bytes,p⟩ := f
    obtain rfl : p = .done := hdone (bytes,p) (hfuts ▸ mem_cons_self)
    simp [hfuts] at hforward hrequest
    omega

lemma Ordered.run {events : List Event} (h : Ordered l object d)
    (hrun : events.foldlM (S3Transfer.step l object) d = some d') :
    Ordered l object d' ∧ events.length+d'.left object ≤ d.left object := by
  induction events generalizing d with
  | nil =>
    cases hrun
    exact ⟨h,by simp⟩
  | cons e events ih =>
    rw [foldlM_cons] at hrun
    obtain ⟨d₁,hstep,hrun⟩ := Option.bind_eq_some_iff.1 hrun
    obtain ⟨h₁,hless⟩ := h.step hstep
    obtain ⟨h',hleft⟩ := ih h₁ hrun
    refine ⟨h',?_⟩
    rw [length_cons]
    omega

/-! ### Uploads -/

/-- Part numbers are naturals; the 32-bit ones of the source are the same up to `2^31` parts. -/
structure Upload where
  buffer : List UInt8 := []
  parts : List (ℕ × List UInt8) := []
  partNumber : ℕ := 1
  totalSize : ℕ := 0

namespace Upload

def uploadPart (u : Upload) : Upload :=
  {u with
    buffer := []
    parts := u.parts++[(u.partNumber,u.buffer)]
    partNumber := u.partNumber+1}

def addChunk (partSize : ℕ) (u : Upload) (chunk : List UInt8) : Upload :=
  let u := {u with totalSize := u.totalSize+chunk.length, buffer := u.buffer++chunk}
  if partSize ≤ u.buffer.length then u.uploadPart else u

/-- Of a stream without bytes there is one empty part. -/
def putParts (partSize : ℕ) (data : List (List UInt8)) : Upload :=
  let u := data.foldl (addChunk partSize) {}
  if u.buffer≠[] ∨ u.parts=[] then u.uploadPart else u

/-- The parts are numbered from one, and with the buffer they are the bytes so far. -/
structure Holds (bytes : List UInt8) (u : Upload) : Prop where
  numbered : u.parts.map Prod.fst = range' 1 u.parts.length
  next : u.partNumber=u.parts.length+1
  content : u.parts.flatMap Prod.snd++u.buffer = bytes
  size : u.totalSize=bytes.length

variable {partSize : ℕ} {u : Upload} {bytes : List UInt8}

lemma Holds.uploadPart (h : Holds bytes u) : Holds bytes u.uploadPart where
  numbered := by simp [Upload.uploadPart,h.numbered,h.next,range'_concat,Nat.add_comm]
  next := by simp [Upload.uploadPart,h.next]
  content := by simpa [Upload.uploadPart] using h.content
  size := h.size

/-- Parts that are uploaded before the end are full. -/
def Full (partSize : ℕ) (u : Upload) : Prop := ∀ p∈u.parts, partSize ≤ p.2.length

lemma Holds.addChunk (h : Holds bytes u) (hfull : Full partSize u) (chunk : List UInt8) :
    Holds (bytes++chunk) (u.addChunk partSize chunk) ∧ Full partSize (u.addChunk partSize chunk) := by
  have hadded : Holds (bytes++chunk)
      {u with totalSize := u.totalSize+chunk.length, buffer := u.buffer++chunk} :=
    ⟨h.numbered,h.next,by rw [← h.content,append_assoc],by rw [length_append,h.size]⟩
  unfold Upload.addChunk
  dsimp only
  split_ifs with hroom
  · exact ⟨hadded.uploadPart,forall_mem_append.mpr ⟨hfull,forall_mem_singleton.mpr hroom⟩⟩
  · exact ⟨hadded,hfull⟩

lemma Holds.addChunks (h : Holds bytes u) (hfull : Full partSize u) (data : List (List UInt8)) :
    Holds (bytes++data.flatten) (data.foldl (Upload.addChunk partSize) u) ∧
      Full partSize (data.foldl (Upload.addChunk partSize) u) := by
  induction data generalizing bytes u with
  | nil => simpa using ⟨h,hfull⟩
  | cons chunk data ih =>
    obtain ⟨h',hfull'⟩ := h.addChunk hfull chunk
    rw [flatten_cons,← append_assoc]
    exact ih h' hfull'

lemma putParts_spec (hpos : 0<partSize) (data : List (List UInt8)) :
    let r := putParts partSize data
    Holds data.flatten r ∧ r.buffer=[] ∧ r.parts≠[] ∧ ∀ p∈r.parts, p.2=[] → data.flatten=[] := by
  have hnew : Holds [] {} ∧ Full partSize {} := ⟨⟨rfl,rfl,rfl,rfl⟩,nofun⟩
  obtain ⟨h,hfull⟩ := hnew.1.addChunks hnew.2 data
  rw [nil_append] at h
  unfold putParts
  dsimp only
  generalize data.foldl (Upload.addChunk partSize) {} = u at h hfull
  have hsome : ∀ p∈u.parts, p.2≠[] := by
    intro p hp hnil
    have hle := hfull p hp
    rw [hnil] at hle
    exact Nat.not_lt.mpr hle hpos
  split_ifs with hlast
  · refine ⟨h.uploadPart,rfl,by simp [Upload.uploadPart],?_⟩
    refine forall_mem_append.mpr ⟨fun p hp hnil => absurd hnil (hsome p hp),?_⟩
    refine forall_mem_singleton.mpr fun hnil => ?_
    rw [← h.content,hlast.resolve_left (not_not.mpr hnil)]
    exact hnil
  · obtain ⟨hbuffer,hparts⟩ := not_or.mp hlast
    exact ⟨h,not_not.mp hbuffer,hparts,fun p hp hnil => absurd hnil (hsome p hp)⟩

end Upload

/-- The second of two ranges is answered first, and three chunks become two parts. -/
def backwards : List Event :=
  [.request,.request,.answer 1,.answer 1,.answer 0,.answer 0,.forward,.forward]

def twoByTwo : Limits := ⟨2,2,2,by decide,by decide,by decide⟩

end Indexify.Dataplane.S3Transfer
