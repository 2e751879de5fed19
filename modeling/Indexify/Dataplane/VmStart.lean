import Mathlib.Data.List.Basic

/-! The start of a Firecracker VM: the steps that can fail, what they acquire, and what the error path
of each releases. The commands of the error paths succeed. What a failing command has acquired all
the same is a parameter, since the tools are not part of the dataplane. -/
namespace Indexify.Dataplane.VmStart

inductive Resource
  | thinLv | netns | cniAllocation | process | logStreamer
  deriving DecidableEq

inductive Step
  | openDelta | lvcreate | lvresize | resize2fs | applyDelta | getDaemonPath | injectRootfs
  | injectEnvOnly | netnsAdd | runCnitool | cnitoolAdd | parseCniOutput | createSerialFile
  | spawnFirecracker | waitForSocket | configureVm | saveMetadata
  deriving DecidableEq

structure Stage where
  step : Step
  acquires : List Resource

/-- What is released when a step fails. `setup_network` deletes the namespace only when
`cnitool add` reports a failure, and `start` then destroys the volume; the errors without a path of
their own are returned at once. -/
def errorPath : Step → List Resource
  | .lvresize | .resize2fs | .applyDelta | .injectRootfs | .injectEnvOnly => [.thinLv]
  | .netnsAdd | .runCnitool | .parseCniOutput => [.thinLv]
  | .cnitoolAdd => [.netns,.thinLv]
  | .spawnFirecracker => [.cniAllocation,.netns,.thinLv]
  | .waitForSocket | .configureVm => [.logStreamer,.process,.cniAllocation,.netns,.thinLv]
  | .openDelta | .lvcreate | .getDaemonPath | .createSerialFile | .saveMetadata => []

section
variable (restore larger : Bool)

/-- `create_snapshot` or `create_snapshot_from_delta`, for a size that may exceed that of the base. -/
def createSnapshot : List Stage :=
  if restore then [⟨.openDelta,[]⟩,⟨.lvcreate,[.thinLv]⟩]++
    (if larger then [⟨.lvresize,[]⟩] else [])++[⟨.applyDelta,[]⟩]
  else ⟨.lvcreate,[.thinLv]⟩::if larger then [⟨.lvresize,[]⟩,⟨.resize2fs,[]⟩] else []

def inject : List Stage :=
  if restore then [⟨.injectEnvOnly,[]⟩] else [⟨.getDaemonPath,[]⟩,⟨.injectRootfs,[]⟩]

def setupNetwork : List Stage :=
  [⟨.netnsAdd,[.netns]⟩,⟨.runCnitool,[]⟩,⟨.cnitoolAdd,[.cniAllocation]⟩,⟨.parseCniOutput,[]⟩]

def start : List Stage :=
  createSnapshot restore larger++inject restore++setupNetwork++
    [⟨.createSerialFile,[]⟩,⟨.spawnFirecracker,[.process,.logStreamer]⟩,⟨.waitForSocket,[]⟩,
      ⟨.configureVm,[]⟩,⟨.saveMetadata,[]⟩]

end

/-- What is held when the steps end, and the step that failed. `remains` is what a failing step has
acquired all the same. -/
def run (fails : Step → Bool) (remains : Step → List Resource) (held : List Resource) :
    List Stage → List Resource × Option Step
  | [] => (held,none)
  | st::rest =>
    if fails st.step then
      ((held++remains st.step).filter (·∉errorPath st.step),some st.step)
    else run fails remains (held++st.acquires) rest

/-- Exactly the steps outside of `leaks` release everything that is held when they fail. -/
def ReleasesBut (leaks : List Step) : List Resource → List Stage → Prop
  | _,[] => True
  | held,st::rest => (held.filter (·∉errorPath st.step) = [] ↔ st.step∉leaks) ∧
    ReleasesBut leaks (held++st.acquires) rest

instance (leaks : List Step) :
    ∀ (held : List Resource) (stages : List Stage), Decidable (ReleasesBut leaks held stages)
  | _,[] => isTrue trivial
  | held,st::rest =>
    haveI := instDecidableReleasesBut leaks (held++st.acquires) rest
    inferInstanceAs (Decidable (_ ∧ _))

variable {fails : Step → Bool} {remains : Step → List Resource} {step : Step}

lemma ReleasesBut.run {leaks : List Step} {stages : List Stage} {held : List Resource}
    (h : ReleasesBut leaks held stages)
    (hfailed : (run fails remains held stages).2 = some step) :
    (VmStart.run fails remains held stages).1 = [] ↔
      step∉leaks ∧ ∀ r∈remains step, r∈errorPath step := by
  induction stages generalizing held with
  | nil => cases hfailed
  | cons st rest ih =>
    unfold VmStart.run at hfailed ⊢
    split_ifs at hfailed ⊢
    · cases hfailed
      rw [List.filter_append,List.append_eq_nil_iff,h.1]
      simp only [List.filter_eq_nil_iff,decide_eq_true_eq,not_not]
    · exact ih h.2 hfailed

/-- The steps whose error is returned while something is held. -/
def leaks : List Step :=
  [.getDaemonPath,.runCnitool,.parseCniOutput,.createSerialFile,.saveMetadata]

lemma start_releasesBut (restore larger : Bool) : ReleasesBut leaks [] (start restore larger) := by
  cases restore <;> cases larger <;> decide

/-- Whatever fails, a start that ends with an error leaves nothing behind exactly if the step that
failed is none of the five whose error is returned while something is held, and its error path
releases what the failing command has acquired itself. -/
theorem start_leaves_nothing_iff (restore larger : Bool) (fails : Step → Bool)
    (remains : Step → List Resource) (step : Step)
    (hfailed : (run fails remains [] (start restore larger)).2 = some step) :
    (run fails remains [] (start restore larger)).1 = [] ↔
      step∉leaks ∧ ∀ r∈remains step, r∈errorPath step :=
  (start_releasesBut restore larger).run hfailed

/-- A tool that fails to add the network and keeps the address that it has taken. -/
def keepsAddress : Step → List Resource
  | .cnitoolAdd => [.cniAllocation]
  | _ => []

theorem socket_timeout_leaves_nothing :
    (run (·=.waitForSocket) keepsAddress [] (start false true)).1 = [] ∧
    (run (·=.cnitoolAdd) (fun _ => []) [] (start true false)).1 = [] :=
  ⟨(start_leaves_nothing_iff false true _ _ .waitForSocket (by decide)).2 (by decide),
    (start_leaves_nothing_iff true false _ _ .cnitoolAdd (by decide)).2 (by decide)⟩

/-- A VM whose metadata cannot be written keeps running, a missing daemon binary or an output of
the CNI tool that cannot be read leave volumes and networks, and nobody releases the address that a
failing `cnitool add` keeps. -/
theorem errors_leave_resources : run (·=.saveMetadata) (fun _ => []) [] (start false true) =
      ([.thinLv,.netns,.cniAllocation,.process,.logStreamer],some .saveMetadata) ∧
    run (·=.getDaemonPath) (fun _ => []) [] (start false true) = ([.thinLv],some .getDaemonPath) ∧
    run (·=.parseCniOutput) (fun _ => []) [] (start true true) =
      ([.netns,.cniAllocation],some .parseCniOutput) ∧
    run (·=.createSerialFile) (fun _ => []) [] (start true true) =
      ([.thinLv,.netns,.cniAllocation],some .createSerialFile) ∧
    run (·=.cnitoolAdd) keepsAddress [] (start true true) = ([.cniAllocation],some .cnitoolAdd) := by
  decide

end Indexify.Dataplane.VmStart
