import Indexify.Library.Dict
import Indexify.Library.Trace

/-! The cache of application code. A call takes the file of its application version as it finds it.
Only a call that finds none downloads one to a file of its own, verifies it and renames it into
place. -/
namespace Indexify.Dataplane.CodeCache
open Dict

structure CodeRequest where
  «namespace» : String
  appName : String
  appVersion : String
  codeUri : String
  expectedSha256 : Option String

inductive Phase
  | checking | downloading | reading | returned (data : List UInt8) | failed

structure Cache where
  files : Dict String (List UInt8) := ∅
  calls : Dict ℕ (CodeRequest × Phase) := ∅

/-- A call starts, or goes on with an operation, which may fail. A download sees the blob. -/
inductive Event
  | start (n : ℕ) (r : CodeRequest)
  | advance (n : ℕ) (ok : Bool) (blob : List UInt8)

section
variable (sha256 : List UInt8 → String) (cachePath : CodeRequest → String)

/-- The next operation of a call. -/
def getOrDownload (files : Dict String (List UInt8)) (r : CodeRequest) (ok : Bool)
    (blob : List UInt8) : Phase → Dict String (List UInt8) × Phase
  | .checking =>
    match files.lookup (cachePath r),ok with
    | some data,true => (files,.returned data)
    | _,_ => (files,.downloading)
  | .downloading =>
    if ok ∧ ∀ hash∈r.expectedSha256, sha256 blob = hash then
      (files.insert (cachePath r) blob,.reading)
    else (files,.failed)
  | .reading =>
    match files.lookup (cachePath r),ok with
    | some data,true => (files,.returned data)
    | _,_ => (files,.failed)
  | phase => (files,phase)

def step (s : Cache) : Event → Cache
  | .start n r => if n∈s.calls then s else {s with calls := s.calls.insert n (r,.checking)}
  | .advance n ok blob =>
    match s.calls.lookup n with
    | none => s
    | some (r,phase) =>
      let next := getOrDownload sha256 cachePath s.files r ok blob phase
      ⟨next.1,s.calls.insert n (r,next.2)⟩

variable (want : String → String)

/-- Calls for one file all expect the same hash. -/
def Pinned (_ : Cache) : Event → Prop
  | .start _ r => r.expectedSha256 = some (want (cachePath r))
  | .advance _ _ _ => True

/-- Every file has its hash, every call expects that of its file, and what it returns has it. -/
structure Sound (s : Cache) : Prop where
  files : ∀ {path data}, s.files.lookup path = some data → sha256 data = want path
  calls : ∀ {n c}, s.calls.lookup n = some c → c.1.expectedSha256 = some (want (cachePath c.1)) ∧
    ∀ data, c.2 = .returned data → sha256 data = want (cachePath c.1)

variable {sha256 cachePath want} {s : Cache} (h : Sound sha256 cachePath want s)
include h

lemma Sound.advance (n : ℕ) {r : CodeRequest} {phase : Phase}
    (hc : s.calls.lookup n = some (r,phase)) (ok : Bool) (blob : List UInt8) :
    let next := getOrDownload sha256 cachePath s.files r ok blob phase
    Sound sha256 cachePath want ⟨next.1,s.calls.insert n (r,next.2)⟩ := by
  obtain ⟨hr,hreturned⟩ := h.calls hc
  have hgo : ∀ phase' : Phase, (∀ data, phase' = .returned data → sha256 data = want (cachePath r)) →
      Sound sha256 cachePath want ⟨s.files,s.calls.insert n (r,phase')⟩ :=
    fun phase' hphase => ⟨h.files,of_lookup_insert (v := (r,phase')) h.calls ⟨hr,hphase⟩⟩
  unfold getOrDownload
  cases phase with
  | checking | reading =>
    dsimp only
    split
    next hl =>
      refine hgo _ ?_
      rintro data ⟨⟩
      exact h.files hl
    · exact hgo _ (by simp)
  | downloading =>
    split_ifs with hok
    · exact ⟨of_lookup_insert h.files (hok.2 _ hr),of_lookup_insert (v := (r,.reading)) h.calls ⟨hr,nofun⟩⟩
    · exact hgo _ (by simp)
  | returned data | failed => exact hgo _ hreturned

lemma Sound.step {e : Event} (he : Pinned cachePath want s e) :
    Sound sha256 cachePath want (step sha256 cachePath s e) := by
  unfold CodeCache.step
  cases e with
  | start n r =>
    dsimp only
    split_ifs
    · exact h
    · exact ⟨h.files,of_lookup_insert (v := (r,.checking)) h.calls ⟨he,nofun⟩⟩
  | advance n ok blob =>
    dsimp only
    split
    · exact h
    next hc => exact h.advance n hc ok blob

omit h

/-- In every interleaving of calls that agree on the hash of each file, what a call returns has the
hash that it expects. -/
theorem returned_verified (sha256 : List UInt8 → String) (cachePath : CodeRequest → String)
    (want : String → String) (events : List Event)
    (hrun : Trace.Along (step sha256 cachePath) (Pinned cachePath want) {} events) (n : ℕ)
    (r : CodeRequest) (data : List UInt8) (hash : String) (hexpected : r.expectedSha256 = some hash)
    (hreturned : (events.foldl (step sha256 cachePath) {}).calls.lookup n = some (r,.returned data)) :
    sha256 data = hash := by
  have hsound := @Trace.Along.invariant _ _ (step sha256 cachePath) (Pinned cachePath want)
    (Sound sha256 cachePath want) (fun h he => h.step he) {} events ⟨nofun,nofun⟩ hrun
  obtain ⟨hwant,hdata⟩ := hsound.calls hreturned
  cases hwant.symm.trans hexpected
  exact hdata data rfl

end

def wholeCall (n : ℕ) (hash : Option String) (blob : List UInt8) : List Event :=
  .start n ⟨"default","app","1","blob",hash⟩::List.replicate 3 (.advance n true blob)

def applicationPath (r : CodeRequest) : String := r.namespace++"/"++r.appName++"/"++r.appVersion

def length : List UInt8 → String := fun data => toString data.length

/-- Two calls for one file download it at the same time, and a third one finds it. -/
def sharedCalls : List Event :=
  let r : CodeRequest := ⟨"default","app","1","blob",some "2"⟩
  [.start 0 r,.start 1 r,.advance 0 true [],.advance 1 true [],.advance 0 true [1,2],
    .advance 1 true [3,4],.advance 0 true [],.start 2 r,.advance 2 true []]

/-- The first call returns what the second one has downloaded, and so does the third. -/
theorem sharedCalls_verified :
    let s := sharedCalls.foldl (step length applicationPath) {}
    let r : CodeRequest := ⟨"default","app","1","blob",some "2"⟩
    s.calls.lookup 0 = some (r,.returned [3,4]) ∧ s.calls.lookup 2 = some (r,.returned [3,4]) ∧
      length [3,4] = "2" := by
  refine ⟨rfl,rfl,?_⟩
  exact returned_verified length applicationPath (fun _ => "2") sharedCalls
    ⟨rfl,rfl,trivial,trivial,trivial,trivial,trivial,rfl,trivial,trivial⟩ 2
    ⟨"default","app","1","blob",some "2"⟩ [3,4] "2" rfl rfl

/-- The second call expects another hash and gets the file of the first. -/
theorem unverified_hit_returned :
    ((wholeCall 0 none [1]++wholeCall 1 (some "2") [1,2]).foldl (step length applicationPath)
        {}).calls.lookup 1 = some (⟨"default","app","1","blob",some "2"⟩,.returned [1]) ∧
      length [1] ≠ "2" :=
  ⟨rfl,by decide⟩

end Indexify.Dataplane.CodeCache
