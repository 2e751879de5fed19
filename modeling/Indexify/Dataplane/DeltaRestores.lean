import Mathlib.Logic.Function.Basic
import Mathlib.Data.Nat.Notation
import Mathlib.Tactic.SplitIfs
import Indexify.Library.Trace

/-! Container startups that restore from one snapshot. The local delta file is named after the uri
of the snapshot, so they all use the same one. -/
namespace Indexify.Dataplane.DeltaRestores
open List

/-- The bytes of `IXDELTA\x01`. -/
def deltaMagic : List UInt8 := [73,88,68,69,76,84,65,1]

def deltaHeaderSize : ℕ := 32

def blockSize : ℕ := 4*1024*1024

def fromLeBytes : List UInt8 → ℕ := foldr (fun b n => b.toNat+256*n) 0

def readDeltaHeader (bytes : List UInt8) : Option (ℕ × ℕ) :=
  if bytes.length<deltaHeaderSize ∨ bytes.take 8 ≠ deltaMagic then none
  else some (fromLeBytes ((bytes.drop 8).take 4),fromLeBytes ((bytes.drop 12).take 8))

structure BlockRecord where
  offset : ℕ
  data : List UInt8
deriving DecidableEq

/-- Reads records until the file ends. The end may fall into the header of a record, but not into
its data. -/
def readRecords : ℕ → List UInt8 → Option (List BlockRecord)
  | 0,_ => some []
  | fuel+1,bytes =>
    let length := fromLeBytes ((bytes.drop 8).take 4)
    let rest := bytes.drop 12
    if bytes.length<12 then some []
    else if blockSize<length ∨ rest.length<length then none
    else (readRecords fuel (rest.drop length)).map
      (⟨fromLeBytes (bytes.take 8),rest.take length⟩::·)

def importDelta (bytes : List UInt8) : Option (ℕ × List BlockRecord) := do
  let header ← readDeltaHeader bytes
  let records ← readRecords bytes.length (bytes.drop deltaHeaderSize)
  return (header.2,records)

/-- The file that the path of the delta leads to, what each file holds, and the next new file. A
file that was removed stays with those that have it open. -/
structure Disk where
  path : Option ℕ
  files : ℕ → List UInt8
  next : ℕ

/-- `File::create` empties a file that exists. -/
def Disk.create (d : Disk) : ℕ × Disk :=
  match d.path with
  | some file => (file,{d with files := Function.update d.files file []})
  | none => (d.next,⟨some d.next,Function.update d.files d.next [],d.next+1⟩)

def Disk.write (d : Disk) (file offset : ℕ) (bytes : List UInt8) : Disk :=
  let old := d.files file
  {d with files := Function.update d.files file (old.take offset ++
    replicate (offset-old.length) 0++bytes++old.drop (offset+bytes.length))}

def Disk.removeFile (d : Disk) : Disk := {d with path := none}

/-- The blocking task of a restore, which writes what it decompresses. -/
inductive Decompression
  | spawned
  | writing (file offset : ℕ)
  | ended (ok : Bool)

/-- How a startup comes out: with what it imported, without a delta file, with the contents of one
that it could not import, or failed for a reason of its own. -/
inductive Outcome
  | started (imported : ℕ × List BlockRecord)
  | noFile
  | badFile (read : List UInt8)
  | failed
deriving DecidableEq

inductive Stage
  | idle
  | restoring
  | restored
  | importing (file : ℕ) (read : List UInt8)
  | cleaning (outcome : Outcome)
  | ended (outcome : Outcome)
deriving DecidableEq

structure Startup where
  stage : Stage
  task : Decompression

inductive Act
  | restoreSnapshot
  | createFile
  | write (count : ℕ)
  | endTask (ok : Bool)
  | awaitTask
  | fail
  | failSecrets
  | openDelta
  | read (count : ℕ)
  | cleanupLocal

/-- One act of a startup, or of its task. A download that fails leaves the task behind. -/
def Startup.act (delta : List UInt8) (d : Disk) (s : Startup) (a : Act) : Disk × Startup :=
  match a,s.stage,s.task with
  | .restoreSnapshot,.idle,_ => (d,⟨.restoring,.spawned⟩)
  | .createFile,_,.spawned => (d.create.2,{s with task := .writing d.create.1 0})
  | .write count,_,.writing file offset =>
    let bytes := (delta.drop offset).take count
    (d.write file offset bytes,{s with task := .writing file (offset+bytes.length)})
  | .endTask ok,_,.writing _ offset => (d,{s with task := .ended (ok && offset == delta.length)})
  | .endTask _,_,.spawned => (d,{s with task := .ended false})
  | .awaitTask,.restoring,.ended ok =>
    (d,{s with stage := if ok then .restored else .cleaning .failed})
  | .fail,.restoring,_ | .fail,.restored,_ | .fail,.importing _ _,_
  | .fail,.cleaning (.started _),_ => (d,{s with stage := .cleaning .failed})
  | .failSecrets,.restored,_ => (d,{s with stage := .ended .failed})
  | .openDelta,.restored,_ =>
    match d.path with
    | some file => (d,{s with stage := .importing file []})
    | none => (d,{s with stage := .cleaning .noFile})
  | .read count,.importing file got,_ =>
    let bytes := ((d.files file).drop got.length).take (count+1)
    if bytes ≠ [] then (d,{s with stage := .importing file (got++bytes)})
    else match importDelta got with
      | some imported => (d.removeFile,{s with stage := .cleaning (.started imported)})
      | none => (d,{s with stage := .cleaning (.badFile got)})
  | .cleanupLocal,.cleaning outcome,_ => (d.removeFile,{s with stage := .ended outcome})
  | _,_,_ => (d,s)

structure State where
  disk : Disk
  startups : ℕ → Startup

def begin (d : Disk) : State := ⟨d,fun _ => ⟨.idle,.ended false⟩⟩

def step (delta : List UInt8) (s : State) (e : ℕ × Act) : State :=
  let r := (s.startups e.1).act delta s.disk e.2
  ⟨r.1,Function.update s.startups e.1 r.2⟩

def Startup.Busy : Startup → Prop
  | ⟨.idle,_⟩ | ⟨.ended _,.ended _⟩ => False
  | _ => True

/-- A restore begins only while no other startup of the snapshot is busy. -/
def BeginsAlone (s : State) (e : ℕ × Act) : Prop :=
  e.2 = .restoreSnapshot → ∀ i, i≠e.1 → ¬(s.startups i).Busy

def Outcome.Whole (delta : List UInt8) : Outcome → Prop
  | .started imported => importDelta delta = some imported
  | .noFile => False
  | .badFile read => read=delta
  | .failed => True

def Undisturbed (delta : List UInt8) (d : Disk) : Startup → Prop
  | ⟨.idle,task⟩ => ∃ ok, task = .ended ok
  | ⟨.restoring,.spawned⟩ => True
  | ⟨.restoring,.writing file offset⟩ =>
    d.path = some file ∧ d.files file <+: delta ∧ (d.files file).length = offset
  | ⟨.restoring,.ended ok⟩ => ok=true → ∃ file, d.path = some file ∧ d.files file = delta
  | ⟨.restored,task⟩ => (∃ ok, task = .ended ok) ∧ ∃ file, d.path = some file ∧ d.files file = delta
  | ⟨.importing file read,task⟩ => (∃ ok, task = .ended ok) ∧ d.files file = delta ∧ read <+: delta
  | ⟨.cleaning outcome,_⟩ | ⟨.ended outcome,_⟩ => outcome.Whole delta

variable {delta : List UInt8} {d : Disk} {s : Startup}

lemma isPrefix_append_take {got : List UInt8} (h : got <+: delta) (count : ℕ) :
    got++(delta.drop got.length).take count <+: delta := by
  obtain ⟨rest,rfl⟩ := h
  rw [drop_left]
  exact prefix_append_right_inj got |>.mpr (List.take_prefix _ _)

lemma files_create (d : Disk) : d.create.2.path = some d.create.1 ∧ d.create.2.files d.create.1 = [] := by
  unfold Disk.create
  split <;> simp_all

lemma files_write {file : ℕ} (bytes : List UInt8) : (d.write file (d.files file).length bytes).files
    file = d.files file++bytes := by
  simp [Disk.write]

variable (h : Undisturbed delta d s)
include h

lemma Undisturbed.act (a : Act) : Undisturbed delta (s.act delta d a).1 (s.act delta d a).2 := by
  obtain ⟨stage,task⟩ := s
  unfold Startup.act
  dsimp only
  -- a task that outlives its restore finds no claim on the file
  split
  case h_2 =>
    obtain ⟨hpath,hempty⟩ := files_create d
    cases stage <;> simp_all [Undisturbed]
  case h_3 count _ _ =>
    cases stage with
    | restoring =>
      obtain ⟨hpath,hpre,rfl⟩ := h
      refine ⟨hpath,?_⟩
      rw [files_write]
      exact ⟨isPrefix_append_take hpre count,length_append⟩
    | _ => simp_all [Undisturbed]
  case h_4 =>
    cases stage with
    | restoring =>
      obtain ⟨hpath,hpre,rfl⟩ := h
      intro hok
      have hlength := (Bool.and_eq_true_iff.mp hok).2
      exact ⟨_,hpath,hpre.eq_of_length (by simpa using hlength)⟩
    | _ => simp_all [Undisturbed]
  case h_5 => cases stage <;> simp_all [Undisturbed]
  case h_6 ok =>
    cases ok with
    | false => trivial
    | true => exact ⟨⟨_,rfl⟩,h rfl⟩
  case h_12 =>
    obtain ⟨hended,file,hpath,hfile⟩ := h
    rw [hpath]
    exact ⟨hended,hfile,List.nil_prefix⟩
  case h_13 count file got =>
    obtain ⟨hended,rfl,hpre⟩ := h
    split_ifs with hbytes
    · exact ⟨hended,rfl,isPrefix_append_take hpre _⟩
    -- the file has ended, so all of it was read
    have hall : got = d.files file := hpre.eq_of_length_le (by simpa using hbytes)
    split <;> simp_all [Undisturbed,Outcome.Whole]
  all_goals first | exact h | trivial

lemma Startup.act_of_not_busy (hs : ¬s.Busy) {a : Act}
    (ha : a≠.restoreSnapshot) : s.act delta d a = (d,s) := by
  obtain ⟨stage,task⟩ := s
  cases stage <;> cases task <;> cases a <;> simp_all [Startup.Busy,Startup.act,Undisturbed]

lemma Undisturbed.of_not_busy (hs : ¬s.Busy) (d' : Disk) : Undisturbed delta d' s := by
  obtain ⟨stage,task⟩ := s
  cases stage <;> first | exact h | exact absurd trivial hs

omit h

/-- At most one startup is busy, and none has been disturbed. -/
structure Separate (delta : List UInt8) (s : State) : Prop where
  alone : ∀ {i j}, (s.startups i).Busy → (s.startups j).Busy → i=j
  undisturbed : ∀ i, Undisturbed delta s.disk (s.startups i)

lemma Separate.step {s : State} {e : ℕ × Act} (h : Separate delta s) (he : BeginsAlone s e) :
    Separate delta (step delta s e) := by
  obtain ⟨i,a⟩ := e
  by_cases hmoves : (s.startups i).Busy ∨ a=.restoreSnapshot
  · have hothers : ∀ j, j≠i → ¬(s.startups j).Busy := by
      intro j hne hj
      rcases hmoves with hi | ha
      · exact hne (h.alone hj hi)
      · exact he ha j hne hj
    have honly : ∀ {j}, ((DeltaRestores.step delta s (i,a)).startups j).Busy → j=i := by
      intro j hj
      by_contra hne
      exact hothers j hne (by simpa [DeltaRestores.step,hne] using hj)
    refine ⟨fun hj hk => (honly hj).trans (honly hk).symm,fun j => ?_⟩
    by_cases hne : j=i
    · subst hne
      simpa [DeltaRestores.step] using (h.undisturbed j).act a
    · simpa [DeltaRestores.step,hne] using (h.undisturbed j).of_not_busy (hothers j hne) _
  · rw [not_or] at hmoves
    have hsame := Startup.act_of_not_busy (h.undisturbed i) hmoves.1 hmoves.2
    simpa [DeltaRestores.step,hsame] using h

/-- When every restore begins alone, a startup that succeeds has imported the whole delta, and none
fails over a file that is missing or is not the delta. -/
theorem startups_import_whole_delta (delta : List UInt8) (d : Disk) (es : List (ℕ × Act))
    (h : Trace.Along (step delta) BeginsAlone (begin d) es) (i : ℕ) (outcome : Outcome)
    (hended : ((es.foldl (step delta) (begin d)).startups i).stage = .ended outcome) :
    outcome.Whole delta := by
  have hbegin : Separate delta (begin d) := ⟨fun hi => hi.elim,fun _ => ⟨_,rfl⟩⟩
  have hi := (Trace.Along.invariant (fun hs he => hs.step he) hbegin h).undisturbed i
  generalize (es.foldl (step delta) (begin d)).startups i = s at hended hi
  obtain ⟨stage,task⟩ := s
  subst hended
  exact hi

def smallDelta : List UInt8 :=
  deltaMagic++[0,0,64,0,1]++replicate 27 0++[1,0,0,0,7]

def noFiles : Disk := ⟨none,fun _ => [],0⟩

def wholeStartup (i : ℕ) : List (ℕ × Act) :=
  [(i,.restoreSnapshot),(i,.createFile),(i,.write 45),(i,.endTask true),(i,.awaitTask),
    (i,.openDelta),(i,.read 44),(i,.read 0),(i,.cleanupLocal)]

/-- The second startup begins when the first one has ended. -/
theorem two_startups_import_whole_delta :
    let s := (wholeStartup 0++wholeStartup 1).foldl (step smallDelta) (begin noFiles)
    (s.startups 0).stage = .ended (.started (1,[⟨0,[7]⟩])) ∧
    (s.startups 1).stage = .ended (.started (1,[⟨0,[7]⟩])) ∧
      (Outcome.started (1,[⟨0,[7]⟩])).Whole smallDelta := by
  have hended : ∀ i, i≠1 → ¬(((wholeStartup 0).foldl (step smallDelta) (begin noFiles)).startups i).Busy := by
    intro i hi hbusy
    cases i with
    | zero => exact hbusy
    | succ n => exact hbusy
  refine ⟨by decide +kernel,by decide +kernel,?_⟩
  exact startups_import_whole_delta smallDelta noFiles (wholeStartup 0++wholeStartup 1)
    ⟨fun _ _ _ => id,nofun,nofun,nofun,nofun,nofun,nofun,nofun,nofun,fun _ => hended,nofun,nofun,nofun,
      nofun,nofun,nofun,nofun,nofun,trivial⟩ 1 (.started (1,[⟨0,[7]⟩])) (by decide +kernel)

/-- The second restore empties the file that the first startup is about to import. The first
startup finds no block and succeeds, and it removes the file that the second one then misses. -/
theorem second_restore_truncates :
    let acts := [(0,.restoreSnapshot),(0,.createFile),(0,.write 45),(0,.endTask true),
      (0,.awaitTask),(1,.restoreSnapshot),(1,.createFile),(1,.write 32),(0,.openDelta),
      (0,.read 44),(0,.read 0),(0,.cleanupLocal),(1,.write 13),(1,.endTask true),(1,.awaitTask),
      (1,.openDelta),(1,.cleanupLocal)]
    let s := acts.foldl (step smallDelta) (begin noFiles)
    importDelta smallDelta = some (1,[⟨0,[7]⟩]) ∧ (s.startups 0).stage = .ended (.started (1,[])) ∧
      (s.startups 1).stage = .ended .noFile := by
  decide +kernel

end Indexify.Dataplane.DeltaRestores
