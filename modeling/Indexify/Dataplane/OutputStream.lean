import Mathlib.Data.List.Basic

/-! Forwarding of the output of a process to its log file, line by line. The file takes every
write. -/
namespace Indexify.Dataplane.OutputStream

/-- The bytes of the stream up to and with each newline. The bytes in `buf` are read. -/
def rawLines (buf : List UInt8) : List UInt8 → List (List UInt8)
  | [] => if buf=[] then [] else [buf]
  | b::bs => if b=10 then (buf++[b])::rawLines [] bs else rawLines (buf++[b]) bs

def content (raw : List UInt8) : List UInt8 :=
  if raw.getLast? = some 10 then raw.dropLast else raw

/-- The line as `next_line` returns it. A carriage return before the newline goes too. -/
def nextLine (raw : List UInt8) : List UInt8 :=
  if raw.getLast? = some 10 ∧ (content raw).getLast? = some 13 then (content raw).dropLast
  else content raw

/-- Whether `&line[..200]` ends between characters. -/
def isCharBoundary (line : List UInt8) : Bool :=
  line.getD 200 0 &&& 0xC0 ≠ 0x80

inductive Outcome
  | ended | decodingFailed | panicked
  deriving DecidableEq

/-- The bytes that go to the log, and how the loop ends. A line is written before its first 200
bytes are cut out for the trace. -/
def forwardLines : List (List UInt8) → List UInt8 × Outcome
  | [] => ([],.ended)
  | raw::rest =>
    let line := nextLine raw
    if ¬raw.toByteArray.IsValidUTF8 then ([],.decodingFailed)
    else if 200<line.length ∧ ¬isCharBoundary line then (line++[10],.panicked)
    else (line++10::(forwardLines rest).1,(forwardLines rest).2)

def forwardOutputStream (stream : List UInt8) : List UInt8 × Outcome :=
  forwardLines (rawLines [] stream)

def Forwardable (raw : List UInt8) : Prop :=
  raw.toByteArray.IsValidUTF8 ∧ (200<(content raw).length → isCharBoundary (content raw)) ∧
    ¬(raw.getLast? = some 10 ∧ (content raw).getLast? = some 13)

lemma content_eq_nextLine_append {raw : List UInt8}
    (h : raw.getLast? = some 10 ∧ (content raw).getLast? = some 13) :
    content raw=nextLine raw++[13] := by
  rw [nextLine,if_pos h]
  exact (List.dropLast_append_getLast? 13 h.2).symm

lemma forwardLines_iff (raws : List (List UInt8)) :
    forwardLines raws=(raws.flatMap (content ·++[10]),.ended) ↔ ∀ raw∈raws, Forwardable raw := by
  induction raws with
  | nil => exact ⟨nofun,fun _ => rfl⟩
  | cons raw rest ih =>
    rw [List.forall_mem_cons,← ih,forwardLines,List.flatMap_cons,Forwardable]
    by_cases hvalid : raw.toByteArray.IsValidUTF8
    · by_cases hcr : raw.getLast? = some 10 ∧ (content raw).getLast? = some 13
      · -- The byte after the line as it is written differs.
        rw [content_eq_nextLine_append hcr]
        split_ifs <;> simp [hcr]
      · have hline : nextLine raw=content raw := if_neg hcr
        rw [hline]
        split_ifs with hlong
        · simp [hlong.1,hlong.2]
        · have hboundary := not_and_not_right.1 hlong
          rw [List.append_assoc,List.singleton_append,Prod.mk.injEq,List.append_cancel_left_eq,
            List.cons.injEq]
          constructor
          · rintro ⟨⟨-,hlog⟩,hended⟩
            exact ⟨⟨hvalid,hboundary,hcr⟩,Prod.ext hlog hended⟩
          · rintro ⟨-,hrest⟩
            exact ⟨⟨rfl,congrArg Prod.fst hrest⟩,congrArg Prod.snd hrest⟩
    · simp [hvalid]

/-- The loop reaches the end of the stream with every line in the log exactly if every line is valid
UTF-8, has a character boundary at byte 200 if it is longer, and does not end with a carriage
return. -/
theorem all_lines_logged_iff (stream : List UInt8) :
    forwardOutputStream stream=((rawLines [] stream).flatMap (content ·++[10]),.ended) ↔
      ∀ raw∈rawLines [] stream, Forwardable raw :=
  forwardLines_iff _

/-- The second of three lines is not UTF-8, and the third is lost. -/
theorem line_after_invalid_lost :
    forwardOutputStream [65,10,0xFF,10,66,10]=([65,10],.decodingFailed) := by
  decide

end Indexify.Dataplane.OutputStream
