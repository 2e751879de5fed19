import Indexify.DataModel.Application
import Indexify.Library.Separator
import Indexify.Library.Trace
import Indexify.StateStore.CronSchedules

/-! Which payloads the deletion of requests and applications hands to the garbage collector: the
rows that refer to payloads, the writes that bring them in and the two deletions. -/
namespace Indexify
open List Dict

structure GcUrl where
  url : String
  «namespace» : String
  deriving DecidableEq

/-- The row of a request, without its runs and calls. -/
structure RequestRow where
  «namespace» : String
  applicationName : String
  requestId : String
  deriving DecidableEq

def RequestRow.key (r : RequestRow) : RequestCtxKey :=
  RequestCtx.keyFrom r.namespace r.applicationName r.requestId

/-- The payloads a deletion collects from a run: those of its arguments and its output. -/
def FunctionRun.payloadUrls (r : FunctionRun) : List String :=
  r.inputArgs.map (·.dataPayload.path)++r.output.toList.map (·.path)

/-- The rows that refer to payloads, and the URLs written for collection. -/
structure PayloadRows where
  requestCtxs : Dict RequestCtxKey RequestRow
  functionRuns : Dict FunctionRunKey FunctionRun
  /-- The code of the application versions that have one. -/
  codes : Dict String DataPayload
  cronSchedules : CronSchedules
  gcUrls : List GcUrl

namespace PayloadRows

def empty : PayloadRows where
  requestCtxs := ∅
  functionRuns := ∅
  codes := ∅
  cronSchedules := .empty
  gcUrls := []

variable (s : PayloadRows)

def putRun (r : FunctionRun) : PayloadRows :=
  {s with functionRuns := s.functionRuns.insert r.key r}

def putRuns (rs : List FunctionRun) : PayloadRows := rs.foldl putRun s

def putRequest (r : RequestRow) : PayloadRows :=
  {s with requestCtxs := s.requestCtxs.insert r.key r}

/-- Fails when the request exists. -/
def createRequest (row : RequestRow) (runs : List FunctionRun) : PayloadRows :=
  if row.key∈s.requestCtxs then s else (s.putRequest row).putRuns runs

def schedulerUpdate (rows : List RequestRow) (runs : List FunctionRun) : PayloadRows :=
  (rows.foldl putRequest s).putRuns runs

def cronRun (entry : CronScheduleEntry) (av : ApplicationVersion) (fnName requestId : String) :
    FunctionRun :=
  av.createFunctionRun
    {functionCallId := ⟨requestId⟩
     inputs := entry.input.toList.map .dataPayload
     fnName := fnName
     callMetadata := []
     parentFunctionCallId := none}
    (entry.input.toList.map fun p => ⟨none,p⟩) requestId

def fireCron (entry : CronScheduleEntry) (av : ApplicationVersion)
    (fnName requestId : String) : PayloadRows :=
  s.createRequest ⟨entry.namespace,av.name,requestId⟩ [cronRun entry av fnName requestId]

def ofRequest («namespace» application requestId : String) (k : FunctionRunKey) : Bool :=
  (FunctionRun.keyPrefixForRequest «namespace» application requestId).toList.isPrefixOf k.get.toList

def deleteRequest («namespace» application requestId : String) : PayloadRows :=
  if RequestCtx.keyFrom «namespace» application requestId ∈ s.requestCtxs then
    let inRange := ofRequest «namespace» application requestId
    let urls := (s.functionRuns.retain fun k _ => inRange k).values.flatMap (·.payloadUrls)
    {s with
      functionRuns := s.functionRuns.retain fun k _ => !inRange k
      gcUrls := s.gcUrls++urls.map fun url => ⟨url,«namespace»⟩
      requestCtxs := s.requestCtxs.erase (RequestCtx.keyFrom «namespace» application requestId)}
  else s

def deleteRow (row : RequestRow) : PayloadRows :=
  s.deleteRequest row.namespace row.applicationName row.requestId

def requestsOf («namespace» name : String) : List RequestRow :=
  (s.requestCtxs.retain fun k _ =>
    (RequestCtx.keyPrefixForApplication «namespace» name).toList.isPrefixOf k.get.toList).values

def deleteVersions («namespace» name : String) : PayloadRows :=
  let inRange : String → Bool := fun k =>
    (ApplicationVersion.keyPrefixFrom «namespace» name).toList.isPrefixOf k.toList
  {s with
    codes := s.codes.retain fun k _ => !inRange k
    gcUrls := s.gcUrls++(s.codes.retain fun k _ => inRange k).values.map fun p =>
      ⟨p.path,«namespace»⟩}

def deleteCronSchedules («namespace» name : String) : PayloadRows :=
  {s with cronSchedules := s.cronSchedules.deleteCronSchedulesForApp «namespace» name}

def deleteApplication («namespace» name : String) : PayloadRows :=
  let s := s.deleteCronSchedules «namespace» name
  ((s.requestsOf «namespace» name).foldl deleteRow s).deleteVersions «namespace» name

end PayloadRows

inductive PayloadWrite
  | createRequest (row : RequestRow) (runs : List FunctionRun)
  | schedulerUpdate (rows : List RequestRow) (runs : List FunctionRun)
  | createVersion (key : String) (code : DataPayload)
  | putCronSchedule (entry : CronScheduleEntry)
  | deleteCronSchedule (key : CronScheduleKey)
  | fireCron (entry : CronScheduleEntry) (av : ApplicationVersion) (fnName requestId : String)
  | deleteRequest («namespace» application requestId : String)
  | deleteApplication («namespace» name : String)

inductive PayloadDeletion
  | request («namespace» application requestId : String)
  | application («namespace» name : String)

namespace PayloadRows

def step (s : PayloadRows) : PayloadWrite → PayloadRows
  | .createRequest row runs => s.createRequest row runs
  | .schedulerUpdate rows runs => s.schedulerUpdate rows runs
  | .createVersion key code => {s with codes := s.codes.insert key code}
  | .putCronSchedule entry =>
    {s with cronSchedules := s.cronSchedules.putCronScheduleEntry entry}
  | .deleteCronSchedule key =>
    {s with cronSchedules := (s.cronSchedules.deleteCronScheduleById key).2}
  | .fireCron entry av fnName requestId => s.fireCron entry av fnName requestId
  | .deleteRequest ns application requestId => s.deleteRequest ns application requestId
  | .deleteApplication ns name => s.deleteApplication ns name

def run (s : PayloadRows) (ws : List PayloadWrite) : PayloadRows := ws.foldl step s

end PayloadRows

/-! ### Who refers to a payload -/

inductive PayloadOwner
  | request (key : RequestCtxKey)
  | schedule (key : String)
  | code (key : String)
  deriving DecidableEq

namespace PayloadRows
variable {s s' : PayloadRows} {url : String} {runs : List FunctionRun}

inductive Refers (s : PayloadRows) : PayloadOwner → String → Prop
  | run {k : FunctionRunKey} {r : FunctionRun} {url : String}
      (h : s.functionRuns.lookup k = some r) (hurl : url∈r.payloadUrls) :
      Refers s (.request r.requestCtxKey) url
  | schedule {k : String} {e : CronScheduleEntry} {p : DataPayload}
      (h : s.cronSchedules.rows.lookup k = some e) (hp : e.input = some p) :
      Refers s (.schedule k) p.path
  | code {k : String} {p : DataPayload} (h : s.codes.lookup k = some p) : Refers s (.code k) p.path

/-- Every payload is referred to by one request, one schedule or one version only; runs lie under
their own keys, and their ids do not contain the separator. -/
structure Separate (s : PayloadRows) : Prop where
  owner : ∀ {o o' url}, s.Refers o url → s.Refers o' url → o=o'
  keyed : ∀ {k r}, s.functionRuns.lookup k = some r → r.key=k ∧ '|' ∉ r.id.get.toList

structure Within (s s' : PayloadRows) : Prop where
  runs : ∀ {k r}, s'.functionRuns.lookup k = some r → s.functionRuns.lookup k = some r
  schedules : ∀ {k e}, s'.cronSchedules.rows.lookup k = some e → s.cronSchedules.rows.lookup k = some e
  codes : ∀ {k p}, s'.codes.lookup k = some p → s.codes.lookup k = some p

lemma Within.refers (h : s.Within s') {o : PayloadOwner} (hr : s'.Refers o url) : s.Refers o url := by
  cases hr with
  | run hrow hurl => exact .run (h.runs hrow) hurl
  | schedule hrow hp => exact .schedule (h.schedules hrow) hp
  | code hrow => exact .code (h.codes hrow)

lemma Separate.of_within (h : s.Separate) (hw : s.Within s') : s'.Separate where
  owner := fun hr hr' => h.owner (hw.refers hr) (hw.refers hr')
  keyed := fun hr => h.keyed (hw.runs hr)

/-- The URL is not that of a payload some run or schedule refers to. -/
def Unreferred (s : PayloadRows) (url : String) : Prop :=
  (∀ {k r}, s.functionRuns.lookup k = some r → url∉r.payloadUrls) ∧
    ∀ {k e p}, s.cronSchedules.rows.lookup k = some e → e.input = some p → p.path≠url

/-- What is written for collection nobody refers to afterwards. -/
def Collects (s s' : PayloadRows) : Prop :=
  ∃ urls, s'.gcUrls = s.gcUrls++urls ∧ ∀ g∈urls, s'.Unreferred g.url

/-- The keys of the rows that are deleted. -/
@[ext] structure Ranges where
  runs : FunctionRunKey → Bool
  schedules : String → Bool
  codes : String → Bool

def Ranges.none : Ranges := ⟨fun _ => false,fun _ => false,fun _ => false⟩

def Ranges.union (d d' : Ranges) : Ranges where
  runs k := d.runs k || d'.runs k
  schedules k := d.schedules k || d'.schedules k
  codes k := d.codes k || d'.codes k

/-- The payloads of the runs and versions in the ranges. -/
def Inside (s : PayloadRows) (d : Ranges) (url : String) : Prop :=
  (∃ k r, s.functionRuns.lookup k = some r ∧ d.runs k = true ∧ url∈r.payloadUrls) ∨
    ∃ k p, s.codes.lookup k = some p ∧ d.codes k = true ∧ p.path=url

/-- No payload in the ranges is one of a run or of a schedule outside of them. -/
def Apart (s : PayloadRows) (d : Ranges) : Prop :=
  ∀ {url}, s.Inside d url →
    (∀ {k r}, s.functionRuns.lookup k = some r → d.runs k = false → url∉r.payloadUrls) ∧
    ∀ {k e p}, s.cronSchedules.rows.lookup k = some e → d.schedules k = false → e.input = some p →
      p.path≠url

/-- The rows outside of the ranges stay, and the payloads inside are written for collection. -/
structure Removes (d : Ranges) (s s' : PayloadRows) : Prop where
  runs : ∀ {k r}, s'.functionRuns.lookup k = some r ↔
    s.functionRuns.lookup k = some r ∧ d.runs k = false
  schedules : ∀ {k e}, s'.cronSchedules.rows.lookup k = some e ↔
    s.cronSchedules.rows.lookup k = some e ∧ d.schedules k = false
  codes : ∀ {k p}, s'.codes.lookup k = some p ↔ s.codes.lookup k = some p ∧ d.codes k = false
  written : ∃ urls, s'.gcUrls = s.gcUrls++urls ∧ ∀ url, (∃ g∈urls, g.url=url) ↔ s.Inside d url

variable {d d' : Ranges}

lemma Removes.within (h : Removes d s s') : s.Within s' :=
  ⟨fun hr => (h.runs.mp hr).1,fun hr => (h.schedules.mp hr).1,fun hr => (h.codes.mp hr).1⟩

lemma Removes.collects_iff (h : Removes d s s') : s.Collects s' ↔ s.Apart d := by
  obtain ⟨urls,hurls,hinside⟩ := h.written
  constructor
  · rintro ⟨urls',hurls',hunreferred⟩ url hin
    obtain rfl : urls=urls' := append_cancel_left (hurls.symm.trans hurls')
    obtain ⟨g,hg,rfl⟩ := (hinside url).mpr hin
    obtain ⟨hruns,hschedules⟩ := hunreferred g hg
    exact ⟨fun hr hout => hruns (h.runs.mpr ⟨hr,hout⟩),
      fun hr hout hp => hschedules (h.schedules.mpr ⟨hr,hout⟩) hp⟩
  · intro hapart
    refine ⟨urls,hurls,fun g hg => ?_⟩
    obtain ⟨hruns,hschedules⟩ := hapart ((hinside g.url).mp ⟨g,hg,rfl⟩)
    exact ⟨fun hr => hruns (h.runs.mp hr).1 (h.runs.mp hr).2,
      fun hr hp => hschedules (h.schedules.mp hr).1 (h.schedules.mp hr).2 hp⟩

lemma Removes.refl (s : PayloadRows) : Removes .none s s where
  runs := by simp [Ranges.none]
  schedules := by simp [Ranges.none]
  codes := by simp [Ranges.none]
  written := ⟨[],(append_nil _).symm,by simp [Inside,Ranges.none]⟩

lemma Removes.trans {s'' : PayloadRows} (h : Removes d s s') (h' : Removes d' s' s'') :
    Removes (d.union d') s s'' where
  runs := by simp only [h'.runs,h.runs,Ranges.union,Bool.or_eq_false_iff,and_assoc,implies_true]
  schedules := by
    simp only [h'.schedules,h.schedules,Ranges.union,Bool.or_eq_false_iff,and_assoc,implies_true]
  codes := by simp only [h'.codes,h.codes,Ranges.union,Bool.or_eq_false_iff,and_assoc,implies_true]
  written := by
    obtain ⟨urls,hurls,hinside⟩ := h.written
    obtain ⟨urls',hurls',hinside'⟩ := h'.written
    refine ⟨urls++urls',by rw [hurls',hurls,append_assoc],fun url => ?_⟩
    -- what the second deletion collects was outside of the first
    have hsplit : s.Inside (d.union d') url ↔ s.Inside d url ∨ s'.Inside d' url := by
      simp only [Inside,Ranges.union,Bool.or_eq_true,h.runs,h.codes]
      grind
    rw [hsplit,← hinside,← hinside']
    simp only [mem_append,or_and_right,exists_or]

/-! ### Deletions -/

/-- Only runs are deleted. -/
def Ranges.ofRuns (p : FunctionRunKey → Bool) : Ranges := {Ranges.none with runs := p}

lemma removes_deleteRequest (s : PayloadRows) (ns application requestId : String) :
    Removes (.ofRuns fun k => RequestCtx.keyFrom ns application requestId ∈ s.requestCtxs &&
      ofRequest ns application requestId k) s (s.deleteRequest ns application requestId) := by
  unfold deleteRequest
  split_ifs with hctx
  · simp only [hctx,decide_true,Bool.true_and]
    refine ⟨?_,by simp [Ranges.ofRuns,Ranges.none],by simp [Ranges.ofRuns,Ranges.none],_,rfl,fun url => ?_⟩
    · intro k r
      rw [lookup_retain_eq_some,Bool.not_eq_true']
      rfl
    · simp only [mem_map,mem_flatMap,mem_values_iff,lookup_retain_eq_some,Inside,Ranges.ofRuns,Ranges.none]
      grind
  · simp only [hctx,decide_false,Bool.false_and]
    exact .refl s

def ofRows (rows : List RequestRow) (k : FunctionRunKey) : Bool :=
  rows.any fun row => ofRequest row.namespace row.applicationName row.requestId k

lemma removes_deleteRows {rows : List RequestRow} (hin : ∀ row∈rows, row.key∈s.requestCtxs)
    (hnd : (rows.map RequestRow.key).Nodup) :
    Removes (.ofRuns (ofRows rows)) s (rows.foldl deleteRow s) := by
  induction rows generalizing s with
  | nil => exact .refl s
  | cons row rows ih =>
    obtain ⟨hrow,hrows⟩ := forall_mem_cons.mp hin
    obtain ⟨hnew,hnd⟩ := nodup_cons.mp hnd
    have hctx : RequestCtx.keyFrom row.namespace row.applicationName row.requestId ∈ s.requestCtxs := hrow
    have h := removes_deleteRequest s row.namespace row.applicationName row.requestId
    simp only [hctx,decide_true,Bool.true_and] at h
    have hstill : ∀ row'∈rows, row'.key ∈ (s.deleteRow row).requestCtxs := by
      intro row' hrow'
      have hne : row'.key≠row.key := fun he => hnew (he ▸ mem_map_of_mem hrow')
      unfold deleteRow deleteRequest
      rw [if_pos hctx]
      exact AList.mem_erase.mpr ⟨hne,hrows row' hrow'⟩
    exact h.trans (ih hstill hnd)

lemma removes_deleteCronSchedules (s : PayloadRows) (ns name : String) :
    Removes {Ranges.none with schedules := fun k =>
        (CronScheduleEntry.keyPrefixForApp ns name).toList.isPrefixOf k.toList}
      s (s.deleteCronSchedules ns name) := by
  refine ⟨by simp [deleteCronSchedules,Ranges.none],?_,by simp [deleteCronSchedules,Ranges.none],
    [],(append_nil _).symm,by simp [Inside,Ranges.none]⟩
  intro k e
  rw [← Bool.not_eq_true']
  exact lookup_retain_eq_some _ _ _ _

lemma removes_deleteVersions (s : PayloadRows) (ns name : String) :
    Removes {Ranges.none with codes := fun k =>
        (ApplicationVersion.keyPrefixFrom ns name).toList.isPrefixOf k.toList}
      s (s.deleteVersions ns name) := by
  refine ⟨by simp [deleteVersions,Ranges.none],by simp [deleteVersions,Ranges.none],?_,_,rfl,fun url => ?_⟩
  · intro k p
    rw [← Bool.not_eq_true']
    exact lookup_retain_eq_some _ _ _ _
  · simp only [mem_map,mem_values_iff,lookup_retain_eq_some,Inside,Ranges.none]
    grind

def delete (s : PayloadRows) : PayloadDeletion → PayloadRows
  | .request ns application requestId => s.deleteRequest ns application requestId
  | .application ns name => s.deleteApplication ns name

/-- What a deletion finds by the first characters of the keys: the runs of a request that exists, and
for an application its schedules, the runs of its requests and its versions. -/
def rangesOf (s : PayloadRows) : PayloadDeletion → Ranges
  | .request ns application requestId => .ofRuns fun k =>
    RequestCtx.keyFrom ns application requestId ∈ s.requestCtxs && ofRequest ns application requestId k
  | .application ns name =>
    {runs := ofRows (s.requestsOf ns name)
     schedules := fun k => (CronScheduleEntry.keyPrefixForApp ns name).toList.isPrefixOf k.toList
     codes := fun k => (ApplicationVersion.keyPrefixFrom ns name).toList.isPrefixOf k.toList}

def Keyed (s : PayloadRows) : Prop := ∀ k row, s.requestCtxs.lookup k = some row → row.key=k

section
variable (h : s.Keyed)
include h

lemma Keyed.putRequest (row : RequestRow) : (s.putRequest row).Keyed :=
  fun _ _ => of_lookup_insert (fun hrow => h _ _ hrow) rfl

lemma Keyed.putRuns (runs : List FunctionRun) : (s.putRuns runs).Keyed :=
  @Trace.invariant _ _ putRun Keyed (fun _ h => h) s h runs

lemma Keyed.createRequest (row : RequestRow) (runs : List FunctionRun) :
    (s.createRequest row runs).Keyed := by
  unfold PayloadRows.createRequest
  split_ifs
  · exact h
  · exact (h.putRequest row).putRuns runs

lemma Keyed.deleteRequest (ns application requestId : String) :
    (s.deleteRequest ns application requestId).Keyed := by
  unfold PayloadRows.deleteRequest
  split_ifs
  · exact fun k row hrow => h k row (lookup_of_erase hrow).2
  · exact h

lemma Keyed.step (w : PayloadWrite) : (s.step w).Keyed := by
  cases w with
  | createRequest row runs => exact h.createRequest row runs
  | schedulerUpdate rows runs =>
    exact (@Trace.invariant _ _ PayloadRows.putRequest Keyed (fun row h => h.putRequest row) s h
      rows).putRuns runs
  | createVersion key code
  | putCronSchedule entry
  | deleteCronSchedule key => exact h
  | fireCron entry av fnName requestId => exact h.createRequest _ _
  | deleteRequest ns application requestId => exact h.deleteRequest ns application requestId
  | deleteApplication ns name =>
    exact @Trace.invariant _ _ deleteRow Keyed (fun row h => h.deleteRequest _ _ _)
      (s.deleteCronSchedules ns name) h _

lemma Keyed.removes (d : PayloadDeletion) : Removes (s.rangesOf d) s (s.delete d) := by
  cases d with
  | request ns application requestId => exact removes_deleteRequest s ns application requestId
  | application ns name =>
    have hkeys : (s.requestsOf ns name).map RequestRow.key = _ :=
      map_key_values fun hrow => h _ _ ((lookup_retain_eq_some _ _ _ _).mp hrow).1
    have hin : ∀ row∈s.requestsOf ns name, row.key∈s.requestCtxs := by
      intro row hrow
      obtain ⟨k,hk⟩ := (mem_values_iff _ _).mp hrow
      obtain ⟨hk,-⟩ := (lookup_retain_eq_some _ _ _ _).mp hk
      exact mem_of_lookup (h k row hk ▸ hk)
    have hrows := @removes_deleteRows (s.deleteCronSchedules ns name) _ hin
      (hkeys ▸ AList.nodupKeys _)
    have hall := ((removes_deleteCronSchedules s ns name).trans hrows).trans
      (removes_deleteVersions _ ns name)
    refine (congrArg (fun d => Removes d s (s.deleteApplication ns name)) ?_).mp hall
    ext k <;> simp [rangesOf,Ranges.union,Ranges.none,Ranges.ofRuns]

end

lemma ofRequest_of_sameRequest {ns application requestId : String} {r r' : FunctionRun}
    (hid : '|' ∉ r.id.get.toList) (h : ofRequest ns application requestId r.key = true)
    (hsame : r'.requestCtxKey=r.requestCtxKey) : ofRequest ns application requestId r'.key = true := by
  have hkey : ∀ r : FunctionRun, r.key.get.toList =
      (r.requestCtxKey.get.toList++['|'])++r.id.get.toList := by
    intro r
    rw [r.key_eq_requestCtxKey_append]
    simp
  have hp : (FunctionRun.keyPrefixForRequest ns application requestId).toList =
      (ns++"|"++application++"|"++requestId).toList++['|'] := by
    simp [FunctionRun.keyPrefixForRequest]
  rw [ofRequest,List.isPrefixOf_iff_prefix,hkey,hp] at h ⊢
  rw [hsame]
  exact (Separator.prefix_of_prefix_append hid h).trans (prefix_append _ _)

/-- The runs that a deletion finds are those of whole requests. -/
lemma rangesOf_runs {d : PayloadDeletion} {r r' : FunctionRun} (hid : '|' ∉ r.id.get.toList)
    (h : (s.rangesOf d).runs r.key = true) (hsame : r'.requestCtxKey=r.requestCtxKey) :
    (s.rangesOf d).runs r'.key = true := by
  cases d with
  | request ns application requestId =>
    obtain ⟨hctx,hin⟩ := Bool.and_eq_true_iff.mp h
    exact Bool.and_eq_true_iff.mpr ⟨hctx,ofRequest_of_sameRequest hid hin hsame⟩
  | application ns name =>
    obtain ⟨row,hrow,hin⟩ := any_eq_true.mp h
    exact any_eq_true.mpr ⟨row,hrow,ofRequest_of_sameRequest hid hin hsame⟩

/-- Payloads with one owner each are apart. -/
lemma Separate.apart (hs : s.Separate) (d : PayloadDeletion) : s.Apart (s.rangesOf d) := by
  rintro url (⟨k,r,hk,hin,hurl⟩ | ⟨k,p,hk,-,rfl⟩)
  · obtain ⟨rfl,hid⟩ := hs.keyed hk
    refine ⟨fun {k' r'} hr' hout hurl' => ?_,fun {k' e p} hrow _ hp hpath => ?_⟩
    · have howner := PayloadOwner.request.inj (hs.owner (.run hr' hurl') (.run hk hurl))
      have hin' := rangesOf_runs hid hin howner
      rw [(hs.keyed hr').1,hout] at hin'
      cases hin'
    · have hrun : s.Refers (.request r.requestCtxKey) p.path := hpath ▸ .run hk hurl
      cases hs.owner (.schedule hrow hp) hrun
  · refine ⟨fun {k' r} hr _ hurl => ?_,fun {k' e p'} hrow _ hp' hpath => ?_⟩
    · cases hs.owner (.run hr hurl) (.code hk)
    · have hcode : s.Refers (.code k) p'.path := hpath ▸ .code hk
      cases hs.owner (.schedule hrow hp') hcode

/-! ### Writes -/

/-- The runs bring in payloads of their own requests only. -/
def Brings (s : PayloadRows) (runs : List FunctionRun) : Prop :=
  ∀ r∈runs, '|' ∉ r.id.get.toList ∧ ∀ url∈r.payloadUrls,
    (∀ o, s.Refers o url → o = .request r.requestCtxKey) ∧
      ∀ r'∈runs, url∈r'.payloadUrls → r'.requestCtxKey=r.requestCtxKey

lemma lookup_putRuns {k : FunctionRunKey}
    {r : FunctionRun} (h : (s.putRuns runs).functionRuns.lookup k = some r) :
    s.functionRuns.lookup k = some r ∨ r∈runs ∧ r.key=k := by
  induction runs generalizing s with
  | nil => exact .inl h
  | cons r₀ runs ih =>
    rcases ih h with h | ⟨hr,hk⟩
    · rcases lookup_insert_cases h with ⟨hk,rfl⟩ | ⟨-,h⟩
      · exact .inr ⟨mem_cons_self,hk.symm⟩
      · exact .inl h
    · exact .inr ⟨mem_cons_of_mem _ hr,hk⟩

lemma putRuns_frame (s : PayloadRows) (runs : List FunctionRun) :
    (s.putRuns runs).cronSchedules = s.cronSchedules ∧ (s.putRuns runs).codes = s.codes :=
  ⟨Trace.frame putRun cronSchedules (fun _ _ => rfl) s runs,
    Trace.frame putRun codes (fun _ _ => rfl) s runs⟩

lemma refers_putRuns {o : PayloadOwner} (h : (s.putRuns runs).Refers o url) :
    s.Refers o url ∨ ∃ r∈runs, o = .request r.requestCtxKey ∧ url∈r.payloadUrls := by
  obtain ⟨hcron,hcodes⟩ := putRuns_frame s runs
  cases h with
  | run hrow hurl =>
    rcases lookup_putRuns hrow with hrow | ⟨hr,-⟩
    · exact .inl (.run hrow hurl)
    · exact .inr ⟨_,hr,rfl,hurl⟩
  | schedule hrow hp =>
    rw [hcron] at hrow
    exact .inl (.schedule hrow hp)
  | code hrow =>
    rw [hcodes] at hrow
    exact .inl (.code hrow)

lemma Separate.putRuns (hs : s.Separate) (h : s.Brings runs) : (s.putRuns runs).Separate where
  owner := by
    intro o o' url ho ho'
    rcases refers_putRuns ho with ho | ⟨r,hr,rfl,hurl⟩
    · rcases refers_putRuns ho' with ho' | ⟨r',hr',rfl,hurl'⟩
      · exact hs.owner ho ho'
      · exact ((h r' hr').2 url hurl').1 o ho
    rcases refers_putRuns ho' with ho' | ⟨r',hr',rfl,hurl'⟩
    · exact (((h r hr).2 url hurl).1 o' ho').symm
    · rw [((h r hr).2 url hurl).2 r' hr' hurl']
  keyed := by
    intro k r hr
    rcases lookup_putRuns hr with hr | ⟨hr,hk⟩
    · exact hs.keyed hr
    · exact ⟨hk,(h r hr).1⟩

lemma within_putRequests (s : PayloadRows) (rows : List RequestRow) :
    s.Within (rows.foldl putRequest s) := by
  have hr : (rows.foldl putRequest s).functionRuns = s.functionRuns :=
    Trace.frame putRequest functionRuns (fun _ _ => rfl) s rows
  have hc : (rows.foldl putRequest s).cronSchedules = s.cronSchedules :=
    Trace.frame putRequest cronSchedules (fun _ _ => rfl) s rows
  have hv : (rows.foldl putRequest s).codes = s.codes :=
    Trace.frame putRequest codes (fun _ _ => rfl) s rows
  constructor
  · rw [hr]
    exact id
  · rw [hc]
    exact id
  · rw [hv]
    exact id

lemma Brings.of_within (h : s.Brings runs) (hw : s.Within s') : s'.Brings runs :=
  fun r hr => ⟨(h r hr).1,fun url hurl =>
    ⟨fun o ho => ((h r hr).2 url hurl).1 o (hw.refers ho),((h r hr).2 url hurl).2⟩⟩

/-- Writes that share no payload: the runs of requests and of scheduler updates bring in payloads
of their own request, a new schedule and a new version refer to a payload nobody else refers to, and
no schedule with a stored payload fires. -/
def Unshared (s : PayloadRows) : PayloadWrite → Prop
  | .createRequest _ runs => s.Brings runs
  | .schedulerUpdate _ runs => s.Brings runs
  | .createVersion key code => ∀ o, s.Refers o code.path → o = .code key
  | .putCronSchedule entry =>
    ∀ p, entry.input = some p → ∀ o, s.Refers o p.path → o = .schedule entry.key
  | .fireCron entry _ _ requestId => entry.input=none ∧ '|' ∉ requestId.toList
  | .deleteCronSchedule _ | .deleteRequest _ _ _ | .deleteApplication _ _ => True

lemma Separate.createRequest (hs : s.Separate) {row : RequestRow}
    (h : s.Brings runs) : (s.createRequest row runs).Separate := by
  unfold PayloadRows.createRequest
  split_ifs
  · exact hs
  · have hw := within_putRequests s [row]
    exact (hs.of_within hw).putRuns (h.of_within hw)

lemma Separate.put (hs : s.Separate) (o₀ : PayloadOwner)
    (path : Option String) (hruns : s'.functionRuns=s.functionRuns)
    (hrefers : ∀ {o url}, s'.Refers o url → s.Refers o url ∨ o=o₀ ∧ path = some url)
    (hfresh : ∀ url, path = some url → ∀ o, s.Refers o url → o=o₀) : s'.Separate where
  owner := by
    intro o o' url ho ho'
    rcases hrefers ho with ho | ⟨rfl,hp⟩
    · rcases hrefers ho' with ho' | ⟨rfl,hp'⟩
      · exact hs.owner ho ho'
      · exact hfresh url hp' o ho
    rcases hrefers ho' with ho' | ⟨rfl,-⟩
    · exact (hfresh url hp o' ho').symm
    · rfl
  keyed := by
    rw [hruns]
    exact hs.keyed

lemma Separate.step {w : PayloadWrite} (hs : s.Separate) (hkeyed : s.Keyed) (hw : s.Unshared w) :
    (s.step w).Separate := by
  cases w with
  | createRequest row runs => exact hs.createRequest hw
  | schedulerUpdate rows runs =>
    have hin := within_putRequests s rows
    exact (hs.of_within hin).putRuns (Brings.of_within hw hin)
  | createVersion key code =>
    refine hs.put (.code key) (some code.path) rfl ?_ ?_
    · intro o url h
      cases h with
      | run hrow hurl => exact .inl (.run hrow hurl)
      | schedule hrow hp => exact .inl (.schedule hrow hp)
      | code hrow =>
        rcases lookup_insert_cases hrow with ⟨hk,rfl⟩ | ⟨-,hrow⟩
        · exact .inr ⟨congrArg _ hk,rfl⟩
        · exact .inl (.code hrow)
    · rintro url ⟨⟩
      exact hw
  | putCronSchedule entry =>
    refine hs.put (.schedule entry.key) (entry.input.map (·.path)) rfl ?_ ?_
    · intro o url h
      cases h with
      | run hrow hurl => exact .inl (.run hrow hurl)
      | code hrow => exact .inl (.code hrow)
      | schedule hrow hp =>
        rcases lookup_insert_cases hrow with ⟨hk,rfl⟩ | ⟨-,hrow⟩
        · exact .inr ⟨congrArg _ hk,by rw [hp]; rfl⟩
        · exact .inl (.schedule hrow hp)
    · exact Option.forall_mem_map.mpr hw
  | deleteCronSchedule key =>
    unfold PayloadRows.step CronSchedules.deleteCronScheduleById
    dsimp only
    split_ifs
    · exact hs.of_within ⟨id,fun hr => ((lookup_retain_eq_some _ _ _ _).mp hr).1,id⟩
    · exact hs
  | fireCron entry av fnName requestId =>
    refine hs.createRequest fun r hr => ?_
    obtain rfl := mem_singleton.mp hr
    refine ⟨hw.2,fun url hurl => ?_⟩
    simp [cronRun,ApplicationVersion.createFunctionRun,FunctionRun.payloadUrls,hw.1] at hurl
  | deleteRequest ns application requestId =>
    exact hs.of_within (removes_deleteRequest s ns application requestId).within
  | deleteApplication ns name => exact hs.of_within (hkeyed.removes (.application ns name)).within

lemma separate_empty : empty.Separate where
  owner := by
    intro o o' url h
    cases h with
    | run h
    | schedule h
    | code h => cases h
  keyed := by
    intro k r h
    cases h

/-- While no write shares a payload between requests, schedules and versions, and no schedule with a
stored payload fires, the payloads of what a deletion removes are apart from those of the rest. -/
theorem unshared_writes_apart {ws : List PayloadWrite} (h : Trace.Along step Unshared empty ws)
    (d : PayloadDeletion) : (empty.run ws).Keyed ∧ (empty.run ws).Apart ((empty.run ws).rangesOf d) := by
  have hinv : (empty.run ws).Keyed ∧ (empty.run ws).Separate :=
    @Trace.Along.invariant _ _ step Unshared (fun s => s.Keyed ∧ s.Separate)
      (fun {s w} hs hw => ⟨hs.1.step w,hs.2.step hs.1 hw⟩) empty ws ⟨nofun,separate_empty⟩ h
  exact ⟨hinv.1,hinv.2.apart d⟩

/-- The deletion of a request or of an application writes for collection only what no run and no
schedule that survives refers to, exactly if no payload of the runs and versions that it finds by their
keys is one of another run or schedule. -/
theorem deletion_collects_unreferred_iff (s : PayloadRows) (h : s.Keyed) (d : PayloadDeletion) :
    s.Collects (s.delete d) ↔ s.Apart (s.rangesOf d) :=
  (h.removes d).collects_iff

end PayloadRows

def reportsVersion : ApplicationVersion where
  «namespace» := "default"
  name := "reports"
  version := "1"
  functions := ∅
  state := .active

def digestPayload (path : String) : DataPayload where
  id := "digest"
  path := path
  metadataSize := 0
  offset := 0
  size := 12
  sha256Hash := ""
  encoding := "application/octet-stream"

def digestEntry (input : Option DataPayload) : CronScheduleEntry where
  id := "digest"
  «namespace» := "default"
  applicationName := "reports"
  cronExpression := "0 2 * * *"
  input := input
  nextFireTimeMs := 60000
  lastFiredAtMs := none
  createdAt := 3
  enabled := true

def digestWrites (input : Option DataPayload) : List PayloadWrite :=
  [.putCronSchedule (digestEntry input),
    .fireCron (digestEntry input) reportsVersion "send" "monday",
    .fireCron (digestEntry input) reportsVersion "send" "tuesday"]

def mixedWrites : List PayloadWrite :=
  digestWrites none ++
    [.createRequest ⟨"default","reports","adhoc"⟩
      [PayloadRows.cronRun (digestEntry (some (digestPayload "blob/adhoc"))) reportsVersion "send"
        "adhoc"]]

lemma mixedWrites_unshared : Trace.Along PayloadRows.step PayloadRows.Unshared .empty mixedWrites := by
  have hnone : ∀ o url, ¬ (PayloadRows.empty.run (digestWrites none)).Refers o url := by
    intro o url h
    cases h with
    | run hrow hurl =>
      have hall : ∀ r ∈ (PayloadRows.empty.run (digestWrites none)).functionRuns.values,
          r.payloadUrls = [] := by decide
      rw [hall _ ((mem_values_iff _ _).mpr ⟨_,hrow⟩)] at hurl
      cases hurl
    | schedule hrow hp =>
      have hall : ∀ e ∈ (PayloadRows.empty.run (digestWrites none)).cronSchedules.rows.values,
          e.input = none := by decide
      rw [hall _ ((mem_values_iff _ _).mpr ⟨_,hrow⟩)] at hp
      cases hp
    | code hrow => cases hrow
  refine ⟨?_,⟨rfl,by decide⟩,⟨rfl,by decide⟩,?_,trivial⟩
  · intro p hp
    cases hp
  intro r hr
  obtain rfl := mem_singleton.mp hr
  refine ⟨by decide,fun url _ => ⟨fun o ho => absurd ho (hnone o url),fun r' hr' _ => ?_⟩⟩
  rw [mem_singleton.mp hr']

/-- The schedule fires without a payload, and a request of its own has one, which is collected. -/
theorem mixedWrites_collect_unreferred :
    let s := PayloadRows.empty.run mixedWrites
    (s.delete (.request "default" "reports" "adhoc")).gcUrls = [⟨"blob/adhoc","default"⟩] ∧
      s.Collects (s.delete (.request "default" "reports" "adhoc")) ∧
      s.Collects (s.delete (.application "default" "reports")) := by
  intro s
  have h := PayloadRows.unshared_writes_apart mixedWrites_unshared
  have hkeyed : s.Keyed := (h (.application "default" "reports")).1
  exact ⟨by decide,(PayloadRows.deletion_collects_unreferred_iff s hkeyed _).mpr (h _).2,
    (PayloadRows.deletion_collects_unreferred_iff s hkeyed _).mpr (h _).2⟩

/-- The deletion of the first request hands the payload of the schedule to the collector, while the
schedule and the second request refer to it. -/
theorem deleted_request_collects_schedule_payload :
    let s := (PayloadRows.empty.run (digestWrites (some (digestPayload "blob/digest")))).deleteRequest
      "default" "reports" "monday"
    s.gcUrls = [⟨"blob/digest","default"⟩] ∧
      s.functionRuns.values.map (fun r => (r.requestId,r.payloadUrls)) = [("tuesday",["blob/digest"])] ∧
      s.cronSchedules.getAllCronSchedules.map (fun e => e.input.map (·.path)) = [some "blob/digest"] := by
  decide

end Indexify
