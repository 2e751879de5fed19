import Indexify.StateStore.Payloads
import Indexify.StateStore.RequestDeletion

/-! The input payload of an invocation. It is uploaded under a key made of the request id before
the store is asked whether the request exists. -/
namespace Indexify

/-- What the body gives next and how writing it ends; a failure can leave a part behind. -/
inductive Chunk
  | written (data : List UInt8)
  | failed (part : List UInt8)

/-- A body, with what the storage does before its first and after its last chunk. The answer to a
completed upload can be lost. -/
structure Upload where
  opens : Bool := true
  chunks : List Chunk
  completes : Bool := true
  answers : Bool := true

inductive BlobBackend
  | file
  | s3

namespace Upload

def write (buffer : List UInt8) : List Chunk → List UInt8 × Bool
  | [] => (buffer,true)
  | .written data::chunks => write (buffer++data) chunks
  | .failed part::_ => (buffer++part,false)

def data (u : Upload) : List UInt8 := (write [] u.chunks).1

def allWritten (u : Upload) : Bool := (write [] u.chunks).2

/-- The old object is lost. A file is truncated when it is opened; the parts of an upload to S3
become the object when it is completed. -/
def replaces (u : Upload) : BlobBackend → Bool
  | .file => u.opens
  | .s3 => u.opens && u.allWritten && u.completes

def put (u : Upload) (backend : BlobBackend) (old : Option (List UInt8)) :
    Option (List UInt8) × Option (List UInt8) :=
  (if u.replaces backend then some u.data else old,
    if u.opens && u.allWritten && u.completes && u.answers then some u.data else none)

lemma object_of_reported {u : Upload} {backend : BlobBackend} {old : Option (List UInt8)}
    {data : List UInt8} (h : (u.put backend old).2 = some data) : (u.put backend old).1 = some data := by
  have hreplaced : u.replaces backend = true := by
    cases backend <;> grind [put,replaces]
  grind [put]

end Upload

structure StoredApplication extends Application where
  entrypoint : Option String
  tombstoned : Bool

inductive ApiError
  | badRequest (message : String)
  | notFound (message : String)
  | conflict (message : String)
  | internalError (message : String)

structure Invocation where
  «namespace» : String
  applicationName : String
  idempotencyKey : Option String
  /-- The id that is drawn when the call has no key. -/
  freshId : String
  encoding : String
  body : Upload

def maxRequestIdLength : ℕ := 36

namespace Invocation

def requestId (c : Invocation) : Except ApiError String :=
  match c.idempotencyKey with
  | some id =>
    if id.utf8ByteSize > maxRequestIdLength then
      .error (.badRequest
        "Idempotency key for requests exceeds maximum length of 36 characters")
    else if id = "" then .error (.badRequest "Idempotency key for requests cannot be empty")
    else .ok id
  | none => .ok c.freshId

def payloadKey (c : Invocation) (requestId : String) : String :=
  c.namespace++"/"++c.applicationName++"/"++requestId++"/input"

end Invocation

/-- The blob store of a namespace and the rows the handler works on. -/
structure Intake where
  backend : BlobBackend
  /-- What a stored path has before the key. -/
  base : String
  objects : String → Option (List UInt8)
  applications : Dict String StoredApplication
  versions : Dict String ApplicationVersion
  rows : PayloadRows

namespace Intake
variable (sha256 : List UInt8 → String) {s : Intake} {c : Invocation} {id : String}
  {data : List UInt8}

def upload (s : Intake) (path : String) (u : Upload) : Intake × Option (List UInt8) :=
  let (object,result) := u.put s.backend (s.objects path)
  ({s with objects := Function.update s.objects path object},result)

/-- The request after the upload of its payload, or why it is refused. -/
def enter (s : Intake) (c : Invocation) (requestId : String) (payload : DataPayload) :
    Except ApiError Intake :=
  match s.applications.lookup (Application.keyFrom c.namespace c.applicationName) with
  | none => .error (.notFound "application not found")
  | some application =>
    match application.state, application.entrypoint with
    | .disabled reason, _ => .error (.conflict reason)
    | .active, none => .error (.badRequest
        "application has no entrypoint - cannot invoke sandbox-only applications")
    | .active, some entrypoint =>
      match application.functions.lookup entrypoint, s.versions.lookup
          (ApplicationVersion.keyFrom c.namespace application.name application.version) with
      | none, _ => .error (.notFound s!"application entrypoint function {entrypoint} is not in the application function list")
      | some _, none => .error (.notFound "compute graph version not found")
      | some f, some av =>
        let row : RequestRow := ⟨c.namespace,application.name,requestId⟩
        let run := av.createFunctionRun
          {functionCallId := ⟨requestId⟩
           inputs := [.dataPayload payload]
           fnName := f.name
           callMetadata := []
           parentFunctionCallId := none}
          [⟨none,payload⟩] requestId
        if application.tombstoned then
          .error (.internalError "failed to upload content: Application is tomb-stoned")
        else if row.key∈s.rows.requestCtxs then
          .error (.conflict s!"A request with the same id already exists. namespace: {c.namespace}, application: {application.name}, request_id: {requestId}")
        else .ok {s with rows := s.rows.createRequest row [run]}

/-- The request that was created, if any, and the store afterwards. -/
def invoke (s : Intake) (c : Invocation) : Intake × Except ApiError String :=
  match c.requestId with
  | .error e => (s,.error e)
  | .ok id =>
    let path := s.base++c.payloadKey id
    match s.upload path c.body with
    | (s,none) => (s,.error (.internalError "failed to upload content"))
    | (s,some data) =>
      match s.enter c id
          {id := id
           path := path
           metadataSize := 0
           offset := 0
           size := data.length
           sha256Hash := sha256 data
           encoding := c.encoding} with
      | .ok s => (s,.ok id)
      | .error e => (s,.error e)

/-- A stored run of the request refers to the object under the key of its payload, whose data,
size and hash are those of `data`. -/
def Recorded (s : Intake) (c : Invocation) (id : String) (data : List UInt8) : Prop :=
  (∃ k run, s.rows.functionRuns.lookup k = some run ∧ run.requestId=id ∧
    ∃ arg∈run.inputArgs, arg.dataPayload.path = s.base++c.payloadKey id ∧
      arg.dataPayload.size = data.length ∧ arg.dataPayload.sha256Hash = sha256 data) ∧
    s.objects (s.base++c.payloadKey id) = some data

/-- The upload changes the object, which only a call with a valid key comes to. -/
def Overwrites (s : Intake) (c : Invocation) (data : List UInt8) : Prop :=
  c.requestId.isOk = true ∧ c.body.replaces s.backend = true ∧ c.body.data≠data

lemma enter_ok {s' : Intake} {payload : DataPayload}
    (h : s.enter c id payload = .ok s') : ∃ rows k run, s' = {s with rows := rows} ∧
      rows.functionRuns.lookup k = some run ∧ run.requestId=id ∧ run.inputArgs = [⟨none,payload⟩] := by
  unfold enter at h
  split at h
  · cases h
  split at h
  · cases h
  · cases h
  split at h
  · cases h
  · cases h
  dsimp only at h
  split_ifs at h with htomb hrow
  cases h
  rw [PayloadRows.createRequest,if_neg hrow]
  exact ⟨_,_,_,rfl,AList.lookup_insert _,rfl,rfl⟩

lemma recorded_of_created (h : (s.invoke sha256 c).2 = .ok id) :
    (s.invoke sha256 c).1.Recorded sha256 c id c.body.data := by
  unfold invoke at h ⊢
  cases hid : c.requestId with
  | error e => simp [hid] at h
  | ok id' =>
    simp only [hid,upload] at h ⊢
    cases hput : (c.body.put s.backend (s.objects (s.base++c.payloadKey id'))).2 with
    | none => simp [hput] at h
    | some data =>
      have hdata : c.body.data=data := by grind [Upload.put]
      simp only [hput] at h ⊢
      split at h
      next s' henter =>
        cases h
        obtain ⟨rows,k,run,rfl,hrun,hreq,hargs⟩ := enter_ok henter
        rw [hdata]
        refine ⟨⟨k,run,hrun,hreq,_,by rw [hargs]; exact List.mem_cons_self,rfl,rfl,rfl⟩,?_⟩
        exact (Function.update_self ..).trans (Upload.object_of_reported hput)
      · cases h

lemma invoke_refused {e : ApiError} (h : (s.invoke sha256 c).2 = .error e) (hid : c.requestId = .ok id) :
    (s.invoke sha256 c).1 = (s.upload (s.base++c.payloadKey id) c.body).1 := by
  unfold invoke at h ⊢
  rw [hid] at h ⊢
  dsimp only at h ⊢
  cases hup : s.upload (s.base++c.payloadKey id) c.body with
  | mk s' result =>
    rw [hup] at h
    cases result with
    | none => rfl
    | some data =>
      dsimp only at h ⊢
      split at h
      · cases h
      · rfl

/-- A refused call leaves the payload of the stored request alone exactly when its upload does not
replace the object by other data. -/
theorem refused_invocation_keeps_payload_iff (hs : s.Recorded sha256 c id data)
    (hc : c.idempotencyKey = some id) (hrefused : ∃ e, (s.invoke sha256 c).2 = .error e) :
    (s.invoke sha256 c).1.Recorded sha256 c id data ↔ ¬s.Overwrites c data := by
  obtain ⟨e,he⟩ := hrefused
  cases hid : c.requestId with
  | error e' =>
    have hsame : s.invoke sha256 c = (s,.error e') := by rw [invoke,hid]
    rw [hsame]
    refine iff_of_true hs fun h => ?_
    have hvalid : c.requestId.isOk=true := h.1
    rw [hid] at hvalid
    cases hvalid
  | ok id' =>
    obtain rfl : id'=id := by grind [Invocation.requestId]
    rw [invoke_refused sha256 he hid]
    have hok : c.requestId.isOk=true := by rw [hid]; rfl
    simp only [Recorded,Overwrites,hok,true_and,upload,Function.update_self] at hs ⊢
    rw [hs.2,Upload.put]
    by_cases hr : c.body.replaces s.backend = true
    · simp [hr,hs.1]
    · simp [hr,hs.1]

def reportApplication : StoredApplication where
  «namespace» := "default"
  name := "reports"
  version := "1"
  functions := AList.insert "extract" ⟨"extract",[],none,1000,⟨1000,512,1024,[]⟩,⟨0⟩,1⟩ ∅
  state := .active
  entrypoint := some "extract"
  tombstoned := false

def reportStore : Intake where
  backend := .file
  base := "data/"
  objects := fun _ => none
  applications := AList.insert "default|reports" reportApplication ∅
  versions := AList.insert "default|reports|1" reportApplication.toVersion ∅
  rows := .empty

def reportCall (chunks : List Chunk) : Invocation where
  «namespace» := "default"
  applicationName := "reports"
  idempotencyKey := some "r1"
  freshId := "r2"
  encoding := "application/json"
  body := {chunks := chunks}

def createdStore : Intake :=
  (reportStore.invoke (fun _ => "sha") (reportCall [.written [1,2,3]])).1

def resend (chunks : List Chunk) : Intake × Except ApiError String :=
  createdStore.invoke (fun _ => "sha") (reportCall chunks)

lemma createdStore_recorded : createdStore.Recorded (fun _ => "sha") (reportCall []) "r1" [1,2,3] :=
  recorded_of_created _ (by rfl)

theorem same_body_keeps_payload :
    (resend [.written [1,2],.written [3]]).1.Recorded (fun _ => "sha") (reportCall []) "r1"
      [1,2,3] :=
  (refused_invocation_keeps_payload_iff (c := reportCall [.written [1,2],.written [3]]) _
    createdStore_recorded rfl ⟨_,by rfl⟩).mpr fun h => h.2.2 rfl

/-- The call is refused since its body breaks off, and the payload of the stored request is gone. -/
theorem broken_body_truncates_payload :
    createdStore.Recorded (fun _ => "sha") (reportCall []) "r1" [1,2,3] ∧
      (resend [.failed [9]]).2 = .error (.internalError "failed to upload content") ∧
      ¬(resend [.failed [9]]).1.Recorded (fun _ => "sha") (reportCall []) "r1" [1,2,3] :=
  ⟨createdStore_recorded,by rfl,fun h => absurd h.2 (by decide)⟩

end Intake
end Indexify
