import Indexify.Processor.SchedulerFrame

/-! The indexes by function and by pool list exactly the containers that are not terminated,
so that the counters of the scheduler are recounts over its containers. -/
namespace Indexify
open List
namespace ContainerServerMetadata
variable (m : ContainerServerMetadata)

def liveUri : Option FunctionURI :=
  if m.isTerminated then none else some m.functionContainer.functionUri

def livePool : Option ContainerPoolKey :=
  if m.isTerminated then none else m.functionContainer.poolKey

def warmPool : Option ContainerPoolKey :=
  if m.isTerminated || m.functionContainer.sandboxId.isSome then none
  else m.functionContainer.poolKey

@[simp] lemma isTerminated_terminate : m.terminate.isTerminated := rfl

section
variable {m : ContainerServerMetadata} (h : m.isTerminated=true)
include h

lemma liveUri_of_terminated : m.liveUri=none := by simp [liveUri,h]

lemma livePool_of_terminated : m.livePool=none := by simp [livePool,h]

lemma warmPool_of_terminated : m.warmPool=none := by simp [warmPool,h]

end

section
variable {m : ContainerServerMetadata}

lemma liveUri_eq_some_iff {uri : FunctionURI} :
    m.liveUri = some uri ↔ m.isTerminated=false ∧ m.functionContainer.functionUri=uri := by
  cases h : m.isTerminated <;> simp [liveUri,h]

lemma livePool_eq_some_iff {key : ContainerPoolKey} :
    m.livePool = some key ↔ m.isTerminated=false ∧ m.functionContainer.poolKey = some key := by
  cases h : m.isTerminated <;> simp [livePool,h]

lemma warmPool_eq_some_iff {key : ContainerPoolKey} :
    m.warmPool = some key ↔ m.isTerminated=false ∧ m.functionContainer.sandboxId=none ∧
      m.functionContainer.poolKey = some key := by
  cases h : m.isTerminated <;> cases hs : m.functionContainer.sandboxId <;> simp [warmPool,h,hs]

end

@[mk_iff] structure SameGroup (m m' : ContainerServerMetadata) : Prop where
  functionUri : m'.functionContainer.functionUri=m.functionContainer.functionUri
  poolId : m'.functionContainer.poolId=m.functionContainer.poolId

instance (m m' : ContainerServerMetadata) : Decidable (SameGroup m m') :=
  decidable_of_iff' _ (sameGroup_iff m m')

lemma SameGroup.poolKey {m m' : ContainerServerMetadata} (h : SameGroup m m') :
    m'.functionContainer.poolKey = m.functionContainer.poolKey := by
  have hns : m'.functionContainer.namespace=m.functionContainer.namespace :=
    congrArg FunctionURI.namespace h.functionUri
  simp only [Container.poolKey,h.poolId,hns]

end ContainerServerMetadata

open ContainerServerMetadata
namespace ContainerScheduler
variable {fc : ContainerServerMetadata} (s : ContainerScheduler)

structure Tables where
  containers : Dict ContainerId ContainerServerMetadata
  byUri : Index FunctionURI ContainerId
  byPool : Index ContainerPoolKey ContainerId
  warm : Index ContainerPoolKey ContainerId

def tables (s : ContainerScheduler) : Tables :=
  ⟨s.functionContainers,s.containersByFunctionUri,s.containersByPool,s.warmContainersByPool⟩

lemma tables_frame : HostFree tables := fun _ _ _ _ => rfl

structure Tables.Indexed (t : Tables) : Prop where
  byUri : t.byUri.Groups t.containers liveUri
  byPool : t.byPool.Groups t.containers livePool
  warm : t.warm.Groups t.containers warmPool

section
variable (s : ContainerScheduler)

@[simp] lemma tables_markPoolDirty (key : ContainerPoolKey) :
    (s.markPoolDirty key).tables = s.tables := rfl

variable (key)

@[simp] lemma tables_markDirty : (s.markDirty key).tables = s.tables := by
  cases key <;> rfl

@[simp] lemma tables_removeIdle (t : Option Instant) (id : ContainerId) :
    (s.removeIdle t id).tables = s.tables := by
  cases t <;> rfl

@[simp] lemma tables_reindexIdle (id : ContainerId) (m : ContainerServerMetadata) :
    (s.reindexIdle id m).tables = s.tables := by
  unfold reindexIdle
  cases m.idleSince with
  | none => exact tables_removeIdle s _ id
  | some t =>
    split_ifs
    · exact tables_removeIdle s _ id
    · exact tables_removeIdle s _ id

@[simp] lemma tables_removeFromUri (uri : FunctionURI) (id : ContainerId) :
    (s.removeFromUri uri id).tables = {s.tables with byUri := s.tables.byUri.removeAt (some uri) id} := rfl

@[simp] lemma tables_removeFromPool (id : ContainerId) : (s.removeFromPool key id).tables =
    {s.tables with byPool := s.tables.byPool.removeAt key id} := rfl

@[simp] lemma tables_removeFromWarm (id : ContainerId) : (s.removeFromWarm key id).tables =
    {s.tables with warm := s.tables.warm.removeAt key id} := rfl

variable {key}

@[simp] lemma tables_dropWarm (key : ContainerPoolKey) : (s.dropWarm key).tables =
    ⟨s.tables.containers,s.tables.byUri,s.tables.byPool,s.tables.warm.drop key⟩ := rfl

@[simp] lemma tables_setContainer (id : ContainerId) (fc : ContainerServerMetadata) :
    (s.setContainer id fc).tables = {s.tables with containers := s.tables.containers.insert id fc} := rfl

end

section
variable {s : ContainerScheduler} {id : ContainerId} {m : ContainerServerMetadata}

lemma warmPool_eq_none_of_not_wasWarm (h : s.wasWarm id = false) {old : ContainerServerMetadata}
    (hold : s.functionContainers.lookup id = some old) : old.warmPool = none := by
  unfold wasWarm at h
  unfold warmPool
  cases ht : old.isTerminated <;> cases hs : old.functionContainer.sandboxId <;> simp_all

variable (hkeep : ∀ old, s.functionContainers.lookup id = some old → SameGroup old m)
include hkeep

lemma onlyUnder_liveUri : Index.OnlyUnder s.functionContainers liveUri id
    (some m.functionContainer.functionUri) := by
  intro old hold
  rw [(hkeep old hold).functionUri,liveUri]
  cases old.isTerminated <;> simp

lemma onlyUnder_livePool : Index.OnlyUnder s.functionContainers livePool id
    m.functionContainer.poolKey := by
  intro old hold
  rw [(hkeep old hold).poolKey,livePool]
  cases old.isTerminated <;> simp

lemma onlyUnder_warmPool : Index.OnlyUnder s.functionContainers warmPool id
    m.functionContainer.poolKey := by
  intro old hold
  rw [(hkeep old hold).poolKey,warmPool]
  split_ifs <;> simp

lemma Tables.Indexed.fileContainer (h : s.tables.Indexed) : (s.fileContainer id m).tables.Indexed := by
  have hu := onlyUnder_liveUri hkeep
  have hp := onlyUnder_livePool hkeep
  have hw := onlyUnder_warmPool hkeep
  -- a container that was not warm is in no warm set
  have hunlisted : m.warmPool=none → (if s.wasWarm id
      then s.warmContainersByPool.removeAt m.functionContainer.poolKey id
      else s.warmContainersByPool).Groups (s.functionContainers.insert id m) warmPool := by
    intro hm
    cases hold : s.wasWarm id with
    | true => exact h.warm.insert_removeAt hw hm
    | false =>
      refine h.warm.insert_same ?_
      rw [hm,Option.bind_eq_none_iff]
      exact fun old => warmPool_eq_none_of_not_wasWarm hold
  unfold ContainerScheduler.fileContainer
  cases hm : m.isTerminated with
  | true =>
    exact ⟨h.byUri.insert_removeAt hu (liveUri_of_terminated hm),
      h.byPool.insert_removeAt hp (livePool_of_terminated hm),
      hunlisted (warmPool_of_terminated hm)⟩
  | false =>
    refine ⟨h.byUri.insert_addAt hu (by simp [liveUri,hm]),
      h.byPool.insert_addAt hp (by simp [livePool,hm]),?_⟩
    cases hs : m.functionContainer.sandboxId with
    | none => exact h.warm.insert_addAt hw (by simp [warmPool,hm,hs])
    | some sandbox => exact hunlisted (by simp [warmPool,hs])

lemma Tables.Indexed.updateContainerIndices (h : s.tables.Indexed) :
    (s.updateContainerIndices id m).tables.Indexed := by
  unfold ContainerScheduler.updateContainerIndices
  rw [tables_markDirty]
  have hidle := tables_reindexIdle s id m
  refine Tables.Indexed.fileContainer ?_ (by rwa [hidle])
  have hc : (s.reindexIdle id m).functionContainers = s.functionContainers :=
    congrArg Tables.containers hidle
  rwa [hc]

end

variable {s}

lemma sameGroup_stored {id : ContainerId} (hfc : s.functionContainers.lookup id = some fc) :
    ∀ old, s.functionContainers.lookup id = some old → SameGroup old fc := by
  intro old hold
  cases hfc.symm.trans hold
  exact ⟨rfl,rfl⟩

lemma functionContainers_updateContainerIndices (id : ContainerId) (m : ContainerServerMetadata) :
    (s.updateContainerIndices id m).functionContainers = s.functionContainers.insert id m := by
  have h : (s.updateContainerIndices id m).tables = ((s.reindexIdle id m).fileContainer id m).tables :=
    tables_markDirty _ _
  have hidle : (s.reindexIdle id m).functionContainers = s.functionContainers :=
    congrArg Tables.containers (tables_reindexIdle s id m)
  have hc : (s.updateContainerIndices id m).functionContainers =
      ((s.reindexIdle id m).fileContainer id m).functionContainers := congrArg Tables.containers h
  rw [hc,fileContainer]
  split_ifs <;> exact congrArg (AList.insert id m) hidle

lemma tables_popReaped (s : ContainerScheduler) (fnUri : FunctionURI) :
    (s.popReaped fnUri).1.tables = s.tables := by
  rcases popReaped_eq s fnUri with hpop | ⟨ids,id,-,-,hpop⟩ <;>
    simp only [hpop,tables]

section
variable (h : s.tables.Indexed)
include h

lemma Tables.Indexed.removeContainerFromIndices
    (id : ContainerId) : (s.removeContainerFromIndices id).tables.Indexed := by
  unfold ContainerScheduler.removeContainerFromIndices
  cases hfc : s.functionContainers.lookup id with
  | none => exact h
  | some fc =>
    have hself := sameGroup_stored hfc
    rw [tables_markDirty,tables_removeFromWarm,tables_removeFromPool,tables_removeFromUri,
      tables_removeIdle]
    exact ⟨h.byUri.erase_removeAt (onlyUnder_liveUri hself),
      h.byPool.erase_removeAt (onlyUnder_livePool hself),
      h.warm.erase_removeAt (onlyUnder_warmPool hself)⟩

/-- Versions of known containers stay in their groups. -/
def KeepsGroups (s : ContainerScheduler)
    (es : List (Sigma fun _ : ContainerId => ContainerServerMetadata)) : Prop :=
  ∀ e∈es, ∀ old ∈ s.functionContainers.lookup e.1, SameGroup old e.2

lemma Tables.Indexed.foldl_updateEntry
    {es : List (Sigma fun _ : ContainerId => ContainerServerMetadata)} (hn : es.NodupKeys)
    (hk : KeepsGroups s es) : (es.foldl updateEntry s).tables.Indexed := by
  induction es generalizing s with
  | nil => exact h
  | cons e es ih =>
    obtain ⟨hne,hn⟩ := nodupKeys_cons.mp hn
    refine ih (h.updateContainerIndices fun old hold => hk e mem_cons_self old hold) hn ?_
    intro e' he' old hold
    have hid : e'.1≠e.1 := fun he => hne (he ▸ mem_keys_of_mem he')
    rw [updateEntry,functionContainers_updateContainerIndices,Dict.lookup_insert_if,if_neg hid] at hold
    exact hk e' (mem_cons_of_mem _ he') old hold

lemma Tables.Indexed.terminateContainer
    (id : ContainerId) : (s.terminateContainer id).1.tables.Indexed := by
  unfold ContainerScheduler.terminateContainer
  cases hfc : s.functionContainers.lookup id with
  | none => exact h
  | some fc =>
    have hself := sameGroup_stored hfc
    rw [tables_setContainer,tables_removeIdle,tables_removeFromUri,tables_removeFromPool]
    exact ⟨h.byUri.insert_removeAt (onlyUnder_liveUri hself) rfl,
      h.byPool.insert_removeAt (onlyUnder_livePool hself) rfl,
      h.warm.insert_removeAt (onlyUnder_warmPool hself) rfl⟩

omit h in
lemma tables_kept : Kept (fun s => s.tables.Indexed) where
  hosts _ _ _ _ := rfl
  note _ _ hs := hs
  drop id hs := hs.removeContainerFromIndices id
  terminate id hs := hs.terminateContainer id

lemma Tables.Indexed.applyContainerUpdate {u : SchedulerUpdateRequest}
    (hk : KeepsGroups s u.containers.entries) : (s.applyContainerUpdate u).tables.Indexed :=
  tables_kept.applyContainerUpdate (h.foldl_updateEntry u.containers.nodupKeys hk)

lemma Tables.Indexed.refile {id : ContainerId}
    {fc' : ContainerServerMetadata} (hfc : s.functionContainers.lookup id = some fc)
    (hc : fc'.functionContainer=fc.functionContainer) (hlive : fc'.isTerminated=false) :
    ((s.setContainer id fc').updateContainerIndices id fc').tables.Indexed := by
  have hgroup : ∀ old, s.functionContainers.lookup id = some old → SameGroup old fc' := by
    intro old hold
    cases hfc.symm.trans hold
    exact ⟨by rw [hc],by rw [hc]⟩
  have hidle : ((s.setContainer id fc').reindexIdle id fc').tables =
    {s.tables with containers := s.functionContainers.insert id fc'} := tables_reindexIdle _ id fc'
  obtain ⟨hcs,hus,hps,hws⟩ := Tables.mk.inj hidle
  unfold ContainerScheduler.updateContainerIndices
  rw [tables_markDirty,ContainerScheduler.fileContainer,if_neg (by simp [hlive])]
  rw [hcs,hus,hps,hws,AList.insert_insert]
  refine ⟨h.byUri.insert_addAt (onlyUnder_liveUri hgroup) (by simp [liveUri,hlive]),
    h.byPool.insert_addAt (onlyUnder_livePool hgroup) (by simp [livePool,hlive]),?_⟩
  cases hs : fc'.functionContainer.sandboxId with
  | none => exact h.warm.insert_addAt (onlyUnder_warmPool hgroup) (by simp [warmPool,hlive,hs])
  | some sandbox =>
    -- the version in the table is claimed already, so nothing is unlisted
    have hcold : ((s.setContainer id fc').reindexIdle id fc').wasWarm id = false := by
      unfold wasWarm
      rw [hcs]
      simp [hs]
    have hsame : (s.functionContainers.lookup id).bind warmPool = fc'.warmPool := by
      rw [hfc,Option.bind_some,warmPool,warmPool,← hc,hs]
      simp
    rw [hcold]
    exact h.warm.insert_same hsame

lemma Tables.Indexed.revived {s' : ContainerScheduler} {id : ContainerId}
    (hs' : s'.tables=s.tables) (hfc : s.functionContainers.lookup id = some fc) (now : Instant) :
    (s'.revived id (fc.revive now)).1.tables.Indexed := by
  have hstored := congrArg (fun t => t.containers.lookup id) hs'
  exact Tables.Indexed.refile (by rwa [hs']) (hstored.trans hfc) rfl rfl

lemma Tables.Indexed.restoreReapedContainer (fnUri : FunctionURI) (now : Instant) :
    (s.restoreReapedContainer fnUri now).1.tables.Indexed := by
  have hpop := tables_popReaped s fnUri
  rcases restoreReapedContainer_cases s fnUri now with
    ⟨s',hr,hs'⟩ | ⟨id,fc,s',hr,hs',-,hfc⟩ <;> rw [hr]
  · rwa [(tables_frame.of_core hs').trans hpop]
  · exact h.revived ((tables_frame.of_core hs').trans hpop) hfc now

end

section
variable [HashOrder ContainerId]

lemma Tables.Indexed.claimPoolContainer (h : s.tables.Indexed)
    (poolKey : ContainerPoolKey) (sandboxId : SandboxId) (timeout : ℕ) :
    (s.claimPoolContainer poolKey sandboxId timeout).1.tables.Indexed := by
  unfold ContainerScheduler.claimPoolContainer
  cases hfind : (HashOrder.toList (s.warmContainersByPool.ids poolKey)).findSome? fun id =>
      (s.functionContainers.lookup id).map fun fc => (id,fc) with
  | none => exact h
  | some p =>
    obtain ⟨id',hmem,hid⟩ := exists_of_findSome?_eq_some hfind
    obtain ⟨fc,hfc,rfl⟩ := Option.map_eq_some_iff.mp hid
    have hwarm : fc.warmPool = some poolKey :=
      (h.warm.mem_iff hfc poolKey).mp (HashOrder.mem_toList.mp hmem)
    have honly : Index.OnlyUnder s.functionContainers warmPool id' (some poolKey) := by
      intro old hold
      cases hfc.symm.trans hold
      exact Or.inr hwarm
    have hsame : ∀ {κ : Type} (key : ContainerServerMetadata → Option κ) (fc' : ContainerServerMetadata),
        key fc = key fc' → (s.functionContainers.lookup id').bind key = key fc' := by
      intro κ key fc' hk
      rw [hfc]
      exact hk
    exact ⟨h.byUri.insert_same (hsame liveUri _ rfl),h.byPool.insert_same (hsame livePool _ rfl),
      h.warm.insert_removeAt honly (by simp [warmPool])⟩

end

section
variable {s : ContainerScheduler}

lemma tables_foldl_dropDeleted (s : ContainerScheduler) (rs : List Removal) :
    (rs.foldl dropDeleted s).tables =
      {containers := s.functionContainers
       byUri := s.containersByFunctionUri.removeAll rs (fun r => some r.fnUri) Removal.containerId
       byPool := s.containersByPool.removeAll rs Removal.poolKey Removal.containerId
       warm := s.warmContainersByPool.removeAll rs
         (fun r => if r.wasWarm then r.poolKey else none) Removal.containerId} := by
  induction rs generalizing s with
  | nil => rfl
  | cons r rs ih =>
    have hr : (s.dropDeleted r).tables =
        {containers := s.functionContainers
         byUri := s.containersByFunctionUri.removeAt (some r.fnUri) r.containerId
         byPool := s.containersByPool.removeAt r.poolKey r.containerId
         warm := s.warmContainersByPool.removeAt (if r.wasWarm then r.poolKey else none)
           r.containerId} := by
      have hidle := tables_removeIdle s r.idleSince r.containerId
      unfold dropDeleted
      rw [tables_markDirty,tables_removeFromUri]
      cases r.wasWarm with
      | true =>
        rw [if_pos rfl,if_pos rfl,tables_removeFromWarm,tables_removeFromPool,hidle]
        rfl
      | false =>
        rw [if_neg Bool.false_ne_true,if_neg Bool.false_ne_true,tables_removeFromPool,hidle]
        rfl
    obtain ⟨hc,hu,hp,hw⟩ := Tables.mk.inj hr
    rw [foldl_cons,ih,hc,hu,hp,hw]
    rfl

lemma tables_removeFunctionPoolsOf (s : ContainerScheduler) (ns name : String) :
    (s.removeFunctionPoolsOf ns name).tables = s.tables :=
  Trace.frame removeFunctionPool tables (fun _ _ => rfl) s _

variable [HashOrder ContainerId] {d : Deletion}

/-- After the containers of some functions were marked: the removals are those containers as
they were before, and nothing else changed. -/
structure Marked (s : ContainerScheduler) (d : Deletion) : Prop where
  byUri : d.scheduler.containersByFunctionUri=s.containersByFunctionUri
  byPool : d.scheduler.containersByPool=s.containersByPool
  warm : d.scheduler.warmContainersByPool=s.warmContainersByPool
  marked : ∀ r∈d.removals, ∃ fc, s.functionContainers.lookup r.containerId = some fc ∧
    d.scheduler.functionContainers.lookup r.containerId = some fc.terminate ∧
    r.poolKey = fc.functionContainer.poolKey ∧ r.fnUri=fc.functionContainer.functionUri ∧
    r.wasWarm = fc.functionContainer.sandboxId.isNone
  other : ∀ id, (∀ r∈d.removals, r.containerId≠id) →
    d.scheduler.functionContainers.lookup id = s.functionContainers.lookup id

omit [HashOrder ContainerId] in
lemma Marked.markDeleted (hs : s.tables.Indexed) (h : Marked s d) {uri : FunctionURI} {id : ContainerId}
    (hid : id ∈ s.containersByFunctionUri.ids uri) : Marked s (markDeleted uri d id) := by
  obtain ⟨fc,hfc,huri⟩ := (hs.byUri uri id).mp hid
  change s.functionContainers.lookup id = some fc at hfc
  unfold ContainerScheduler.markDeleted
  by_cases hr : ∃ r∈d.removals, r.containerId=id
  · -- marked before: marking again changes nothing
    obtain ⟨r,hr,rfl⟩ := hr
    obtain ⟨fc',hfc',hmark,-⟩ := h.marked r hr
    cases hfc.symm.trans hfc'
    rw [hmark]
    have hlookup : ∀ id', (d.scheduler.functionContainers.insert r.containerId
        fc.terminate).lookup id' = d.scheduler.functionContainers.lookup id' := by
      intro id'
      rw [Dict.lookup_insert_if]
      split_ifs with he
      · rw [he,hmark]
      · rfl
    refine ⟨h.byUri,h.byPool,h.warm,?_,fun id' hn => (hlookup id').trans (h.other id' hn)⟩
    intro r' hr'
    obtain ⟨fc',hfc',hmark',rest⟩ := h.marked r' hr'
    exact ⟨fc',hfc',(hlookup _).trans hmark',rest⟩
  have hnew : ∀ r∈d.removals, r.containerId≠id := fun r hr' he => hr ⟨r,hr',he⟩
  rw [h.other id hnew,hfc]
  have hlive : fc.isTerminated=false := by
    cases ht : fc.isTerminated with
    | true => cases (liveUri_of_terminated ht).symm.trans huri
    | false => rfl
  have huri' : uri=fc.functionContainer.functionUri := by
    simpa [liveUri,hlive,eq_comm] using huri
  dsimp only
  rw [hlive]
  refine ⟨h.byUri,h.byPool,h.warm,?_,?_⟩
  · intro r hr'
    rcases mem_append.mp hr' with hr' | hr'
    · obtain ⟨fc',hfc',hmark,rest⟩ := h.marked r hr'
      refine ⟨fc',hfc',?_,rest⟩
      exact (AList.lookup_insert_ne (hnew r hr')).trans hmark
    · obtain rfl := mem_singleton.mp hr'
      exact ⟨fc,hfc,AList.lookup_insert _,rfl,huri',rfl⟩
  · intro id' hn
    have hne : id'≠id := fun he => hn _ (mem_append_right _ (mem_singleton_self _)) he.symm
    exact (AList.lookup_insert_ne hne).trans
      (h.other id' fun r hr' => hn r (mem_append_left _ hr'))

lemma Marked.markDeletedUri (hs : s.tables.Indexed) (h : Marked s d)
    (uri : FunctionURI) : Marked s (markDeletedUri d uri) := by
  refine List.foldlRecOn _ _ h fun d' hd' id hid => hd'.markDeleted hs ?_
  rwa [HashOrder.mem_toList,h.byUri] at hid

lemma Tables.Indexed.deleteApplication (h : s.tables.Indexed) (ns name : String) :
    (s.deleteApplication ns name).1.tables.Indexed := by
  unfold ContainerScheduler.deleteApplication
  rw [tables_removeFunctionPoolsOf,tables_foldl_dropDeleted]
  have hstart : Marked s {scheduler := s} :=
    ⟨rfl,rfl,rfl,fun r hr => (not_mem_nil hr).elim,fun _ _ => rfl⟩
  have hm := List.foldlRecOn (s.containersByFunctionUri.keys.filter fun uri =>
    uri.namespace = ns && uri.application = name) _ hstart fun _ hd uri _ => hd.markDeletedUri h uri
  generalize List.foldl ContainerScheduler.markDeletedUri {scheduler := s} _ = d at hm
  -- a removed container lost its groups, and the removal names the groups it had
  have hin : ∀ {κ : Type} (key : ContainerServerMetadata → Option κ),
      (∀ fc : ContainerServerMetadata, key fc.terminate = none) →
      ∀ r∈d.removals, ∀ v, d.scheduler.functionContainers.lookup r.containerId = some v →
      key v = none := by
    intro κ key hkey r hr v hv
    obtain ⟨fc,-,hmark,-⟩ := hm.marked r hr
    cases hmark.symm.trans hv
    exact hkey fc
  rw [hm.byUri,hm.byPool,hm.warm]
  refine ⟨h.byUri.removeAll hm.other (hin liveUri fun _ => rfl) ?_,
    h.byPool.removeAll hm.other (hin livePool fun _ => rfl) ?_,
    h.warm.removeAll hm.other (hin warmPool fun _ => rfl) ?_⟩
  · intro r hr
    obtain ⟨fc,hfc,-,-,huri,-⟩ := hm.marked r hr
    rw [huri]
    exact onlyUnder_liveUri (sameGroup_stored hfc)
  · intro r hr
    obtain ⟨fc,hfc,-,hpool,-⟩ := hm.marked r hr
    rw [hpool]
    exact onlyUnder_livePool (sameGroup_stored hfc)
  · intro r hr
    obtain ⟨fc,hfc,-,hpool,-,hwarm⟩ := hm.marked r hr
    rw [hpool,hwarm]
    intro old hold
    cases hfc.symm.trans hold
    cases ht : fc.isTerminated <;> cases hs : fc.functionContainer.sandboxId <;>
      simp [warmPool,ht,hs]

end

section
variable {s : ContainerScheduler}

lemma mem_warmRemovals {ids : List ContainerId} {e : ContainerId × FunctionURI × Option Instant} :
    e ∈ s.warmRemovals ids ↔ e.1∈ids ∧ ∃ fc, s.functionContainers.lookup e.1 = some fc ∧
      fc.isTerminated = false ∧ e.2 = (fc.functionContainer.functionUri,fc.idleSince) := by
  obtain ⟨id,rest⟩ := e
  simp only [warmRemovals,mem_filterMap,Option.bind_eq_some_iff]
  constructor
  · rintro ⟨id',hid,fc,hfc,he⟩
    split_ifs at he with ht
    cases he
    exact ⟨hid,fc,hfc,by simpa using ht,rfl⟩
  · rintro ⟨hid,fc,hfc,ht,rfl⟩
    exact ⟨id,hid,fc,hfc,by simp [ht]⟩

lemma terminateWarm_functionContainers (acc : ContainerScheduler × SchedulerUpdateRequest)
    (e : ContainerId × FunctionURI × Option Instant) :
    (terminateWarm acc e).1.functionContainers =
      acc.1.functionContainers.modify e.1 ContainerServerMetadata.terminate := by
  unfold terminateWarm Dict.modify
  cases acc.1.functionContainers.lookup e.1 <;> rfl

lemma foldl_terminateWarm (acc : ContainerScheduler × SchedulerUpdateRequest)
    (es : List (ContainerId × FunctionURI × Option Instant)) :
    ∃ containers, (es.foldl terminateWarm acc).1.tables =
      ⟨containers,acc.1.containersByFunctionUri,acc.1.containersByPool,acc.1.warmContainersByPool⟩ ∧
      (∀ id, (∀ e∈es, e.1≠id) → containers.lookup id = acc.1.functionContainers.lookup id) ∧
      ∀ e∈es, ∀ fc, containers.lookup e.1 = some fc → fc.isTerminated=true := by
  induction es generalizing acc with
  | nil => exact ⟨acc.1.functionContainers,rfl,fun _ _ => rfl,fun e he => (not_mem_nil he).elim⟩
  | cons e es ih =>
    obtain ⟨containers,ht,hout,hin⟩ := ih (terminateWarm acc e)
    rw [terminateWarm_functionContainers] at hout
    refine ⟨containers,?_,?_,?_⟩
    · rw [foldl_cons,ht]
      unfold terminateWarm
      cases acc.1.functionContainers.lookup e.1 <;> rfl
    · intro id hid
      rw [hout id fun e' he' => hid e' (mem_cons_of_mem _ he'),Dict.lookup_modify,
        if_neg (hid e mem_cons_self).symm]
    · intro e' he' fc hfc
      by_cases hlater : ∃ e''∈es, e''.1=e'.1
      · obtain ⟨e'',he'',heq⟩ := hlater
        exact hin e'' he'' fc (heq ▸ hfc)
      rcases mem_cons.mp he' with rfl | he'
      · rw [hout e'.1 fun e'' he'' heq => hlater ⟨e'',he'',heq⟩,Dict.lookup_modify,if_pos rfl] at hfc
        obtain ⟨old,-,rfl⟩ := Option.map_eq_some_iff.mp hfc
        rfl
      · exact absurd ⟨e',he',rfl⟩ hlater

variable (s)

lemma tables_foldl_removeIdle (es : List (ContainerId × FunctionURI × Option Instant)) :
    (es.foldl (fun s e => s.removeIdle e.2.2 e.1) s).tables = s.tables :=
  Trace.frame _ tables (fun s e => tables_removeIdle s e.2.2 e.1) s es

lemma tables_foldl_removeFromPool (key : ContainerPoolKey) (ids : List ContainerId) :
    (ids.foldl (fun s id => s.removeFromPool (some key) id) s).tables =
      ⟨s.tables.containers,s.tables.byUri,s.tables.byPool.removeAll ids (fun _ => some key) id,
        s.tables.warm⟩ := by
  induction ids generalizing s with
  | nil => rfl
  | cons id ids ih => exact ih _

lemma tables_foldl_removeFromUri (es : List (ContainerId × FunctionURI × Option Instant)) :
    (es.foldl (fun s e => s.removeFromUri e.2.1 e.1) s).tables =
      ⟨s.tables.containers,s.tables.byUri.removeAll es (fun e => some e.2.1) Prod.fst,
        s.tables.byPool,s.tables.warm⟩ := by
  induction es generalizing s with
  | nil => rfl
  | cons e es ih => exact ih _

variable {s}
variable [HashOrder ContainerId]

lemma tables_deleteContainerPool (s : ContainerScheduler) (ns : String) (poolId : ContainerPoolId) :
    let ids := HashOrder.toList (s.warmContainersByPool.ids ⟨ns,poolId⟩)
    ∃ containers, (s.deleteContainerPool ns poolId).1.tables = ⟨containers,
        s.containersByFunctionUri.removeAll (s.warmRemovals ids) (fun e => some e.2.1) Prod.fst,
        s.containersByPool.removeAll ids (fun _ => some ⟨ns,poolId⟩) id,
        s.warmContainersByPool.drop ⟨ns,poolId⟩⟩ ∧
      (∀ id, (∀ e ∈ s.warmRemovals ids, e.1≠id) → containers.lookup id = s.functionContainers.lookup id) ∧
      ∀ e ∈ s.warmRemovals ids, ∀ fc, containers.lookup e.1 = some fc → fc.isTerminated=true := by
  intro ids
  obtain ⟨containers,ht,hout,hin⟩ := foldl_terminateWarm (s,{}) (s.warmRemovals ids)
  refine ⟨containers,?_,hout,hin⟩
  unfold deleteContainerPool
  rcases hfold : (s.warmRemovals ids).foldl terminateWarm (s,{}) with ⟨s',u⟩
  rw [hfold] at ht
  have hidle := (tables_foldl_removeIdle s' (s.warmRemovals ids)).trans ht
  simp only [ids] at hfold hidle ⊢
  simp only [hfold,tables_markPoolDirty,tables_foldl_removeFromUri,tables_foldl_removeFromPool,
    tables_dropWarm,hidle]

lemma Tables.Indexed.deleteContainerPool (h : s.tables.Indexed) (ns : String)
    (poolId : ContainerPoolId) : (s.deleteContainerPool ns poolId).1.tables.Indexed := by
  obtain ⟨containers,ht,hout,hin⟩ := tables_deleteContainerPool s ns poolId
  -- the warm ids are exactly the removed ones, since the index lists live containers
  set ids := HashOrder.toList (s.warmContainersByPool.ids ⟨ns,poolId⟩) with hids
  have hlive : ∀ id∈ids, ∃ fc, s.functionContainers.lookup id = some fc ∧
      fc.isTerminated = false ∧ fc.livePool = some ⟨ns,poolId⟩ ∧ fc.warmPool = some ⟨ns,poolId⟩ := by
    intro id hid
    obtain ⟨fc,hfc,hw⟩ := (h.warm ⟨ns,poolId⟩ id).mp (HashOrder.mem_toList.mp hid)
    obtain ⟨ht,-,hp⟩ := warmPool_eq_some_iff.mp hw
    exact ⟨fc,hfc,ht,livePool_eq_some_iff.mpr ⟨ht,hp⟩,hw⟩
  have hdead : ∀ id∈ids, ∀ v, containers.lookup id = some v → v.isTerminated=true := by
    intro id hid
    obtain ⟨fc,hfc,ht,-⟩ := hlive id hid
    exact hin (id,_,_) (mem_warmRemovals.mpr ⟨hid,fc,hfc,ht,rfl⟩)
  have hother : ∀ id, id∉ids → containers.lookup id = s.functionContainers.lookup id := by
    intro id hid
    refine hout id ?_
    rintro e he rfl
    exact hid (mem_warmRemovals.mp he).1
  rw [ht]
  refine ⟨h.byUri.removeAll hout (fun e he v hv => liveUri_of_terminated (hin e he v hv)) ?_,
    h.byPool.removeAll (fun id hid => hother id fun hm => hid id hm rfl)
      (fun id hid v hv => livePool_of_terminated (hdead id hid v hv)) ?_,?_⟩
  · intro e he
    obtain ⟨-,fc,hfc,-,hrest⟩ := mem_warmRemovals.mp he
    rw [hrest]
    exact onlyUnder_liveUri (sameGroup_stored hfc)
  · intro id hid old hold
    obtain ⟨fc,hfc,-,hp,-⟩ := hlive id hid
    cases hfc.symm.trans hold
    exact Or.inr hp
  · intro k id
    rw [Index.mem_drop]
    by_cases hid : id∈ids
    · obtain ⟨fc,hfc,-,-,hw⟩ := hlive id hid
      constructor
      · rintro ⟨hk,hne⟩
        exact absurd (Option.some.inj (((h.warm.mem_iff hfc k).mp hk).symm.trans hw)) hne
      · rintro ⟨v,hv,hk⟩
        cases (warmPool_of_terminated (hdead id hid v hv)).symm.trans hk
    rw [hother id hid]
    constructor
    · exact fun hk => (h.warm k id).mp hk.1
    rintro hk
    refine ⟨(h.warm k id).mpr hk,?_⟩
    rintro rfl
    exact hid (HashOrder.mem_toList.mpr ((h.warm _ id).mpr hk))

end

lemma KeepsGroups.of_tables {s s' : ContainerScheduler}
    {es : List (Sigma fun _ : ContainerId => ContainerServerMetadata)} (h : KeepsGroups s es)
    (ht : s'.tables=s.tables) : KeepsGroups s' es := by
  have hc : s'.functionContainers=s.functionContainers := congrArg Tables.containers ht
  unfold KeepsGroups
  rwa [hc]

section
variable (s : ContainerScheduler)

lemma Tables.Indexed.applyCreated {r : ContainerScheduler × FeasibilityCache ×
    Except CreateError (Option SchedulerUpdateRequest)} (h : r.1.tables.Indexed)
    (hk : KeepsGroups r.1 (((created r).map fun u => u.containers.entries).getD [])) :
    (applyCreated r).tables.Indexed := by
  unfold ContainerScheduler.applyCreated
  cases hu : created r with
  | none => exact h
  | some u =>
    rw [hu] at hk
    exact h.applyContainerUpdate hk

lemma keepsGroups_restoreUpdate (id : ContainerId) (executorId : ExecutorId) : KeepsGroups s
    (s.restoreUpdate id executorId).containers.entries := by
  have hentries : (s.restoreUpdate id executorId).containers.entries =
      ((s.functionContainers.lookup id).map fun fc => (⟨id,fc⟩ :
        Sigma fun _ : ContainerId => ContainerServerMetadata)).toList := by
    unfold restoreUpdate
    cases s.functionContainers.lookup id <;> cases s.executorStates.lookup executorId <;> rfl
  intro e he old hold
  rw [hentries,Option.mem_toList,Option.map_eq_some_iff] at he
  obtain ⟨fc,hfc,rfl⟩ := he
  exact sameGroup_stored hfc old hold

variable {s}

section
variable {s' : ContainerScheduler} {fnUri : FunctionURI} {c : Container} {now : Instant}
  {u : Option SchedulerUpdateRequest} (hc : Creation s fnUri c now s' u)
include hc

lemma Tables.Indexed.creation (h : s.tables.Indexed) : s'.tables.Indexed := by
  have hpop := tables_popReaped s fnUri
  cases hc with
  | unchanged => exact h
  | refused hs
  | added executorId state hs => exact (tables_frame.of_core hs).trans hpop ▸ h
  | restored hs hid hfc => exact h.revived ((tables_frame.of_core hs).trans hpop) hfc now

lemma keepsGroups_creation (hk : KeepsGroups s ((u.map fun u => u.containers.entries).getD [])) :
    KeepsGroups s' ((u.map fun u => u.containers.entries).getD []) := by
  have hpop := tables_popReaped s fnUri
  cases hc with
  | unchanged => exact hk
  | refused hs
  | added executorId state hs => exact hk.of_tables ((tables_frame.of_core hs).trans hpop)
  | restored => exact keepsGroups_restoreUpdate _ _ _

end

variable [HashOrder ExecutorId]

lemma Tables.Indexed.createForFunction (h : s.tables.Indexed)
    (cache : FeasibilityCache) (ns application version : String) (function : Function)
    (state : ApplicationState) (draw : Draw)
    (hk : KeepsGroups s (((created (s.createContainerForFunction cache ns application version
      function state draw)).map fun u => u.containers.entries).getD [])) :
    (ContainerScheduler.applyCreated (s.createContainerForFunction cache ns application version
      function state draw)).tables.Indexed := by
  have hcreation := @creation_of_created s _ cache ns application version function state draw _ rfl
  exact .applyCreated (h.creation hcreation) (keepsGroups_creation hcreation hk)

lemma Tables.Indexed.create (h : s.tables.Indexed)
    (cache : FeasibilityCache) (w : Workload) (resources : FunctionResources) (c : Container)
    (containerType : ContainerType) (draw : Draw)
    (hk : KeepsGroups s (((created (s.createContainer cache w resources c containerType
      draw)).map fun u => u.containers.entries).getD [])) :
    (ContainerScheduler.applyCreated (s.createContainer cache w resources c containerType
      draw)).tables.Indexed := by
  have ht := tables_frame.createContainer s cache w resources c containerType draw
  refine Tables.Indexed.applyCreated ?_ (hk.of_tables ht)
  rw [ht]
  exact h

end

section

lemma tables_deregisterExecutor (id : ExecutorId) : (s.deregisterExecutor id).tables = s.tables := by
  unfold deregisterExecutor
  dsimp only
  split <;> split <;> rfl

variable [HashOrder ContainerId]

lemma Tables.Indexed.updateWithIntents (h : s.tables.Indexed)
    {p : Payload} (hk : ∀ u, p = .schedulerUpdate u → KeepsGroups s u.containers.entries) :
    (s.updateWithIntents p).1.tables.Indexed := by
  have hpools := s.updateWithIntents_pools tables (fun _ _ _ _ _ => rfl) (p := p)
  cases p with
  | schedulerUpdate u =>
    refine tables_kept.updateSchedulerUpdate (fun s' p hcontainers hs' => ?_) h
    refine hs'.foldl_updateEntry
      (List.Nodup.sublist (filter_sublist.map Sigma.fst) u.containers.nodupKeys) ?_
    intro e he old hold
    rw [hcontainers] at hold
    exact (hk u rfl) e (mem_of_mem_filter he) old hold
  | deleteApplication ns name => exact h.deleteApplication ns name
  | deleteContainerPool ns poolId => exact h.deleteContainerPool ns poolId
  | createOrUpdateApplication req
  | createContainerPool pool
  | updateContainerPool pool => rwa [hpools trivial]
  | deregisterExecutor id =>
    change (s.deregisterExecutor id).tables.Indexed
    rwa [tables_deregisterExecutor]
  | _ => exact h

variable [HashOrder ExecutorId]

/-- Operations on known containers keep their namespace, function and pool. -/
def KeepsIdentity (s : ContainerScheduler) (op : Op) : Prop := KeepsGroups s (op.containers s)
  deriving Decidable

lemma Tables.Indexed.step (h : s.tables.Indexed) {op : Op}
    (hk : KeepsIdentity s op) : (ContainerScheduler.step s op).tables.Indexed := by
  cases op with
  | payload p =>
    refine h.updateWithIntents ?_
    rintro u rfl
    exact hk
  | applyContainerUpdate u => exact h.applyContainerUpdate hk
  | terminateContainer id => exact h.terminateContainer id
  | reapIdleContainers minIdleAge now => exact tables_kept.reapIdleContainers h minIdleAge now
  | restoreReapedContainer fnUri now => exact h.restoreReapedContainer fnUri now
  | claimPoolContainer key sandboxId timeout => exact h.claimPoolContainer key sandboxId timeout
  | createForFunction cache ns application version function state draw =>
    exact h.createForFunction cache ns application version function state draw hk
  | createForSandbox cache sandbox snapshotUri draw
  | createForPool cache pool draw => exact h.create _ _ _ _ _ _ hk

section
variable {s : ContainerScheduler} (h : s.tables.Indexed) (key : ContainerPoolKey)
include h

omit [HashOrder ContainerId] [HashOrder ExecutorId]

lemma Tables.Indexed.totalContainersForFunction (uri : FunctionURI) :
    s.totalContainersForFunction uri = s.functionContainers.values.countP fun m =>
      !m.isTerminated && m.functionContainer.functionUri = uri :=
  h.byUri.card fun m => by simp [liveUri_eq_some_iff]

lemma Tables.Indexed.poolContainerCount :
    s.poolContainerCount key = s.functionContainers.values.countP fun m =>
      !m.isTerminated && m.functionContainer.poolKey = some key :=
  h.byPool.card fun m => by simp [livePool_eq_some_iff]

lemma Tables.Indexed.warmCount :
    (s.warmContainersByPool.ids key).card = s.functionContainers.values.countP fun m =>
      !m.isTerminated && m.functionContainer.sandboxId.isNone &&
        m.functionContainer.poolKey = some key :=
  h.warm.card fun m => by simp [warmPool_eq_some_iff,and_assoc]

lemma Tables.Indexed.countPoolContainers : s.countPoolContainers key =
    (s.functionContainers.values.countP (fun m => !m.isTerminated &&
      m.functionContainer.sandboxId.isSome && m.functionContainer.poolKey = some key),
      s.functionContainers.values.countP fun m => !m.isTerminated &&
        m.functionContainer.sandboxId.isNone && m.functionContainer.poolKey = some key) := by
  have hsplit : ∀ ms : List ContainerServerMetadata,
      ms.countP (fun m => !m.isTerminated && m.functionContainer.poolKey = some key) =
        ms.countP (fun m => !m.isTerminated && m.functionContainer.sandboxId.isSome &&
          m.functionContainer.poolKey = some key) +
        ms.countP (fun m => !m.isTerminated && m.functionContainer.sandboxId.isNone &&
          m.functionContainer.poolKey = some key) := by
    intro ms
    induction ms with
    | nil => rfl
    | cons m ms ih =>
      simp only [countP_cons]
      cases m.functionContainer.sandboxId <;> simp <;> omega
  unfold ContainerScheduler.countPoolContainers
  rw [h.poolContainerCount,h.warmCount,hsplit]
  dsimp only
  rw [Nat.add_sub_cancel]

end

/-- In every state of a run the indexes by function, by pool and of warm containers list
exactly the live containers, and the counters are recounts. -/
theorem run_indexes_exact (functionPools sandboxPools : Dict ContainerPoolKey ContainerPool)
    (ops : List Op)
    (hrun : Trace.Along ContainerScheduler.step KeepsIdentity (new functionPools sandboxPools) ops) :
    let s := run (new functionPools sandboxPools) ops
    (∀ uri id, id ∈ s.containersByFunctionUri.ids uri ↔
      ∃ m, s.functionContainers.lookup id = some m ∧ m.isTerminated=false ∧
        m.functionContainer.functionUri = uri) ∧
    (∀ key id, id ∈ s.containersByPool.ids key ↔
      ∃ m, s.functionContainers.lookup id = some m ∧ m.isTerminated=false ∧
        m.functionContainer.poolKey = some key) ∧
    (∀ key id, id ∈ s.warmContainersByPool.ids key ↔
      ∃ m, s.functionContainers.lookup id = some m ∧ m.isTerminated=false ∧
        m.functionContainer.sandboxId = none ∧ m.functionContainer.poolKey = some key) ∧
    (∀ uri, s.totalContainersForFunction uri = s.functionContainers.values.countP fun m =>
        !m.isTerminated && m.functionContainer.functionUri = uri) ∧
    ∀ key, s.poolContainerCount key = s.functionContainers.values.countP (fun m =>
          !m.isTerminated && m.functionContainer.poolKey = some key) ∧
      s.countPoolContainers key = (s.functionContainers.values.countP (fun m => !m.isTerminated &&
          m.functionContainer.sandboxId.isSome && m.functionContainer.poolKey = some key),
          s.functionContainers.values.countP fun m => !m.isTerminated &&
            m.functionContainer.sandboxId.isNone && m.functionContainer.poolKey = some key) := by
  intro s
  have hnew : (new functionPools sandboxPools).tables.Indexed :=
    ⟨Index.groups_empty,Index.groups_empty,Index.groups_empty⟩
  have h : s.tables.Indexed := @Trace.Along.invariant _ _ ContainerScheduler.step KeepsIdentity
    (fun t => t.tables.Indexed) (fun ht hop => ht.step hop) _ _ hnew hrun
  refine ⟨?_,?_,?_,h.totalContainersForFunction,
    fun key => ⟨h.poolContainerCount key,h.countPoolContainers key⟩⟩
  · intro uri id
    refine (h.byUri uri id).trans ?_
    simp only [liveUri_eq_some_iff]
    rfl
  · intro key id
    refine (h.byPool key id).trans ?_
    simp only [livePool_eq_some_iff]
    rfl
  · intro key id
    refine (h.warm key id).trans ?_
    simp only [warmPool_eq_some_iff]
    rfl

end

def smallHost : HostResources := ⟨2000,2*1024*1024*1024,4*1024*1024*1024,none⟩

def smallExecutor : ExecutorMetadata := ⟨⟨"executor"⟩,none,∅,∅,smallHost,false⟩

def smallState : ExecutorServerMetadata := ⟨⟨"executor"⟩,∅,smallHost,∅⟩

def joinOps : List Op :=
  [.payload (.upsertExecutor smallExecutor),
    .applyContainerUpdate {updatedExecutorStates :=
      (∅ : Dict ExecutorId ExecutorServerMetadata).insert ⟨"executor"⟩ smallState}]

def smallFunction : Function := ⟨"answer",[],none,1000,⟨1000,512,1024,[]⟩,⟨0⟩,1⟩

def smallPool : ContainerPool where
  id := ⟨"pool"⟩
  «namespace» := "default"
  poolType := .sandbox
  image := "base"
  resources := ⟨1000,512,1024,none⟩
  entrypoint := none
  networkPolicy := none
  secretNames := []
  timeoutSecs := 0
  minContainers := none
  maxContainers := none
  bufferContainers := none

def churnOps : List Op := joinOps ++
  [.payload (.createContainerPool smallPool),
    .createForFunction ∅ "default" "app" "1" smallFunction .active ⟨⟨"c1"⟩,0,10⟩,
    .reapIdleContainers 0 20,
    .createForFunction ∅ "default" "app" "1" smallFunction .active ⟨⟨"c2"⟩,0,30⟩,
    .createForPool ∅ smallPool ⟨⟨"c3"⟩,0,40⟩,
    .claimPoolContainer ⟨"default",⟨"pool"⟩⟩ ⟨"sandbox"⟩ 60]

attribute [local instance] HashOrder.ascending

theorem churnOps_indexes_exact :
    let s := run (new ∅ ∅) churnOps
    s.functionContainers.keys.length = 2 ∧
      s.containersByPool.ids ⟨"default",⟨"pool"⟩⟩ = {⟨"c3"⟩} ∧
      s.countPoolContainers ⟨"default",⟨"pool"⟩⟩ =
        (s.functionContainers.values.countP (fun m => !m.isTerminated &&
          m.functionContainer.sandboxId.isSome &&
          m.functionContainer.poolKey = some ⟨"default",⟨"pool"⟩⟩),
          s.functionContainers.values.countP fun m => !m.isTerminated &&
            m.functionContainer.sandboxId.isNone &&
            m.functionContainer.poolKey = some ⟨"default",⟨"pool"⟩⟩) := by
  intro s
  have h := run_indexes_exact ∅ ∅ churnOps (by decide)
  exact ⟨by decide,by decide,(h.2.2.2.2 _).2⟩

end ContainerScheduler
end Indexify
