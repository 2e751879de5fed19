import Indexify.Processor.Creations
import Indexify.Processor.IdleContainers

/-! The limits of the allocation of runs: a container takes no more allocations than it has room
for, and a function gets no more containers than its pool allows. -/
namespace Indexify
open ContainerServerMetadata List Dict
namespace ContainerScheduler

def liveContainers (s : ContainerScheduler) (uri : FunctionURI) : ℕ :=
  s.functionContainers.values.countP fun m =>
    !m.isTerminated && m.functionContainer.functionUri = uri

def maxContainersOf (s : ContainerScheduler) (uri : FunctionURI) : Option ℕ :=
  (s.getPool ⟨uri.namespace,.forFunction uri.application uri.function uri.version⟩).bind
    ContainerPool.maxContainers

def Known (s : ContainerScheduler) (id : ContainerId) : Prop :=
  id ∈ s.functionContainers ∨ ∃ uri, id ∈ (s.reapedContainers.lookup uri).getD []

lemma known_of_lookup {s : ContainerScheduler} {id : ContainerId} {fc : ContainerServerMetadata}
    (h : s.functionContainers.lookup id = some fc) : s.Known id :=
  .inl (mem_of_lookup h)

lemma mem_getD_nil {α : Type} {o : Option (List α)} {x : α} : x ∈ o.getD [] ↔ ∃ l, o = some l ∧ x∈l := by
  cases o <;> simp

lemma known_of_mem_reaped {s : ContainerScheduler} {uri : FunctionURI} {ids : List ContainerId}
    {id : ContainerId} (h : s.reapedContainers.lookup uri = some ids) (hid : id∈ids) :
    s.Known id := .inr ⟨uri,by rw [h]; exact hid⟩

/-- Every container has room for its allocations, and the reaped ones that are still there are
terminated and run nothing. -/
structure Holdings.Within (h : Holdings) (queueSize : ℕ) : Prop where
  keyed : ∀ {id fc}, h.containers.lookup id = some fc → fc.functionContainer.id=id
  concurrency : ∀ {id fc}, h.containers.lookup id = some fc → 1 ≤ fc.functionContainer.maxConcurrency
  load : ∀ {id fc}, h.containers.lookup id = some fc →
    fc.allocations.card ≤ queueSize*fc.functionContainer.maxConcurrency
  nodup : ∀ {uri ids}, h.reaped.lookup uri = some ids → ids.Nodup
  idle : ∀ {uri ids id fc}, h.reaped.lookup uri = some ids → id∈ids →
    h.containers.lookup id = some fc →
    fc.isTerminated = true ∧ fc.allocations = ∅ ∧ fc.functionContainer.functionUri=uri

section
variable {h : Holdings} {queueSize : ℕ} {id : ContainerId} {fc fc' : ContainerServerMetadata}
variable (hw : h.Within queueSize)
include hw

lemma Holdings.Within.put (hid : fc.functionContainer.id=id)
    (hconcurrency : 1 ≤ fc.functionContainer.maxConcurrency)
    (hload : fc.allocations.card ≤ queueSize*fc.functionContainer.maxConcurrency)
    (hreaped : ∀ uri ids, h.reaped.lookup uri = some ids → id∈ids →
      fc.isTerminated = true ∧ fc.allocations = ∅ ∧ fc.functionContainer.functionUri=uri) :
    Holdings.Within ⟨h.containers.insert id fc,h.reaped⟩ queueSize where
  keyed := of_lookup_insert hw.keyed hid
  concurrency := of_lookup_insert hw.concurrency hconcurrency
  load := of_lookup_insert hw.load hload
  nodup := hw.nodup
  idle := by
    intro uri ids id' fc' hids hmem hfc'
    rcases lookup_insert_cases hfc' with ⟨rfl,rfl⟩ | ⟨-,hfc'⟩
    · exact hreaped uri ids hids hmem
    · exact hw.idle hids hmem hfc'

lemma Holdings.Within.lighten (hfc : h.containers.lookup id = some fc)
    (hcontainer : fc'.functionContainer=fc.functionContainer)
    (hterminated : fc.isTerminated=true → fc'.isTerminated=true)
    (hallocations : fc'.allocations ⊆ fc.allocations) :
    Holdings.Within ⟨h.containers.insert id fc',h.reaped⟩ queueSize := by
  refine hw.put ?_ ?_ ?_ ?_
  · rw [hcontainer]
    exact hw.keyed hfc
  · rw [hcontainer]
    exact hw.concurrency hfc
  · rw [hcontainer]
    exact (Finset.card_le_card hallocations).trans (hw.load hfc)
  · intro uri ids hids hmem
    obtain ⟨hterm,hempty,huri⟩ := hw.idle hids hmem hfc
    refine ⟨hterminated hterm,?_,hcontainer ▸ huri⟩
    exact Finset.subset_empty.mp (hempty ▸ hallocations)

lemma Holdings.Within.forget {reaped : Dict FunctionURI (List ContainerId)}
    (hforgets : Forgets h.reaped reaped) : Holdings.Within ⟨h.containers,reaped⟩ queueSize where
  keyed := hw.keyed
  concurrency := hw.concurrency
  load := hw.load
  nodup := by
    intro uri ids hids
    obtain ⟨ids',hids',hsub⟩ := hforgets hids
    exact (hw.nodup hids').sublist hsub
  idle := by
    intro uri ids id fc hids hmem hfc
    obtain ⟨ids',hids',hsub⟩ := hforgets hids
    exact hw.idle hids' (hsub.subset hmem) hfc

lemma Holdings.Within.erase (id : ContainerId) :
    Holdings.Within ⟨h.containers.erase id,h.reaped⟩ queueSize := by
  have hold : ∀ {id' fc}, (h.containers.erase id).lookup id' = some fc →
      h.containers.lookup id' = some fc := fun hfc => (lookup_of_erase hfc).2
  exact ⟨fun hfc => hw.keyed (hold hfc),fun hfc => hw.concurrency (hold hfc),
    fun hfc => hw.load (hold hfc),hw.nodup,fun hids hmem hfc => hw.idle hids hmem (hold hfc)⟩

omit hw
end

/-- The tables are in order and no container is overloaded. -/
structure Bounded (s : ContainerScheduler) (queueSize : ℕ) : Prop where
  indexed : s.tables.Indexed
  within : s.holdings.Within queueSize

section
variable {s s' : ContainerScheduler} {queueSize : ℕ}

lemma bounded_new (functionPools sandboxPools : Dict ContainerPoolKey ContainerPool)
    (queueSize : ℕ) : (new functionPools sandboxPools).Bounded queueSize where
  indexed := ⟨Index.groups_empty,Index.groups_empty,Index.groups_empty⟩
  within := by
    constructor <;> intros <;> simp_all [new,holdings]

lemma Bounded.of_eq (h : s.Bounded queueSize) (htables : s'.tables=s.tables)
    (hholdings : s'.holdings=s.holdings) : s'.Bounded queueSize :=
  ⟨htables ▸ h.indexed,hholdings ▸ h.within⟩

lemma Tables.Indexed.setContainer (h : s.tables.Indexed) {id : ContainerId}
    {fc : ContainerServerMetadata} (fc' : ContainerServerMetadata)
    (hfc : s.functionContainers.lookup id = some fc)
    (hcontainer : fc'.functionContainer=fc.functionContainer)
    (hterminated : fc'.isTerminated=fc.isTerminated) : (s.setContainer id fc').tables.Indexed := by
  have hsame : ∀ {κ : Type} (key : ContainerServerMetadata → Option κ), key fc = key fc' →
      (s.functionContainers.lookup id).bind key = key fc' := by
    intro κ key hk
    rw [hfc]
    exact hk
  refine ⟨h.byUri.insert_same (hsame liveUri ?_),h.byPool.insert_same (hsame livePool ?_),
    h.warm.insert_same (hsame warmPool ?_)⟩
  · simp only [liveUri,hcontainer,hterminated]
  · simp only [livePool,hcontainer,hterminated]
  · simp only [warmPool,hcontainer,hterminated]

variable (h : s.Bounded queueSize)
include h

lemma Bounded.terminateContainer (id : ContainerId) : (s.terminateContainer id).1.Bounded queueSize := by
  refine ⟨h.indexed.terminateContainer id,?_⟩
  rw [holdings_terminateContainer]
  cases hfc : s.functionContainers.lookup id with
  | none =>
    rw [modify_of_lookup_none hfc]
    exact h.within
  | some fc =>
    rw [modify_of_lookup hfc]
    exact h.within.lighten hfc rfl (fun _ => rfl) (Finset.Subset.refl _)

lemma Bounded.ingestAllocation (containerId : ContainerId) (allocationId : AllocationId) (now : Instant) :
    (s.ingestAllocation containerId allocationId now).1.Bounded queueSize := by
  unfold ContainerScheduler.ingestAllocation
  cases hfc : s.functionContainers.lookup containerId with
  | none => exact h
  | some fc =>
    have hset := h.indexed.setContainer {fc with
      allocations := fc.allocations.erase allocationId
      idleSince := if fc.allocations.erase allocationId = ∅ then some now else fc.idleSince}
      hfc rfl rfl
    refine ⟨hset.applyContainerUpdate ?_,?_⟩
    · intro e he old hold
      cases mem_singleton.mp he
      rw [setContainer,AList.lookup_insert] at hold
      cases hold
      exact ⟨rfl,rfl⟩
    · rw [holdings_applyContainerUpdate_single _ rfl]
      simp only [setContainer,AList.insert_insert]
      exact h.within.lighten hfc rfl id (Finset.erase_subset _ _)

lemma Bounded.removeContainerFromIndices (id : ContainerId) :
    (s.removeContainerFromIndices id).Bounded queueSize := by
  refine ⟨h.indexed.removeContainerFromIndices id,?_⟩
  unfold ContainerScheduler.removeContainerFromIndices
  cases s.functionContainers.lookup id with
  | none => exact h.within
  | some fc =>
    rw [holdings_markDirty]
    have hidle := holdings_removeIdle {s with functionContainers := s.functionContainers.erase id}
      fc.idleSince id
    change (removeIdle _ fc.idleSince id).holdings.Within queueSize
    rw [hidle]
    exact h.within.erase id

omit h

lemma Holdings.Within.track {h : Holdings} (hw : h.Within queueSize) {id : ContainerId}
    {fc : ContainerServerMetadata} (hfc : h.containers.lookup id = some fc)
    (hterminated : fc.isTerminated=true) (hempty : fc.allocations = ∅)
    (hnew : id ∉ (h.reaped.lookup fc.functionContainer.functionUri).getD []) :
    Holdings.Within ⟨h.containers,h.reaped.insert fc.functionContainer.functionUri
      ((h.reaped.lookup fc.functionContainer.functionUri).getD []++[id])⟩ queueSize := by
  have hold : ((h.reaped.lookup fc.functionContainer.functionUri).getD []).Nodup := by
    cases hids : h.reaped.lookup fc.functionContainer.functionUri with
    | none => exact nodup_nil
    | some ids => exact hw.nodup hids
  refine ⟨hw.keyed,hw.concurrency,hw.load,?_,?_⟩
  · intro uri ids hids
    rcases lookup_insert_cases hids with ⟨-,rfl⟩ | ⟨-,hids⟩
    · exact nodup_append.mpr ⟨hold,nodup_singleton id,by
        rintro a ha b hb rfl
        exact hnew (mem_singleton.mp hb ▸ ha)⟩
    · exact hw.nodup hids
  intro uri ids id' fc' hids hmem hfc'
  rcases lookup_insert_cases hids with ⟨rfl,rfl⟩ | ⟨-,hids⟩
  · rcases mem_append.mp hmem with hmem | hmem
    · obtain ⟨ids',hids',hmem⟩ := mem_getD_nil.mp hmem
      exact hw.idle hids' hmem hfc'
    cases mem_singleton.mp hmem
    cases hfc.symm.trans hfc'
    exact ⟨hterminated,hempty,rfl⟩
  · exact hw.idle hids hmem hfc'

lemma Bounded.reapContainer {r : Reaping} (h : r.scheduler.Bounded queueSize) (id : ContainerId) :
    (ContainerScheduler.reapContainer r id).scheduler.Bounded queueSize := by
  refine ⟨tables_kept.reapContainer id h.indexed,?_⟩
  unfold ContainerScheduler.reapContainer
  cases hfc : r.scheduler.functionContainers.lookup id with
  | none => exact h.within
  | some fc =>
    dsimp only
    split_ifs with hterminated hremovable hfloor
    · exact h.within
    · exact h.within
    · exact h.within
    · have hempty : fc.allocations = ∅ := by
        simp only [Bool.not_eq_true',Bool.not_eq_false] at hremovable
        exact of_decide_eq_true (Bool.and_eq_true _ _ ▸ hremovable).2
      have hterm := holdings_terminateContainer r.scheduler id
      rw [modify_of_lookup hfc] at hterm
      have hfree := (holdings_frame.freeReaped (r.scheduler.terminateContainer id).1 fc.executorId
        fc.functionContainer).trans hterm
      have hwithin := (h.terminateContainer id).within
      rw [hterm] at hwithin
      have htrack := hwithin.track (AList.lookup_insert _) rfl hempty (by
        -- a reaped container is terminated, and this one was not
        intro hmem
        obtain ⟨ids,hids,hmem⟩ := mem_getD_nil.mp hmem
        exact hterminated (h.within.idle hids hmem hfc).1)
      simp only [holdings,Holdings.mk.injEq] at hfree
      unfold holdings trackReaped
      rw [hfree.1,hfree.2]
      exact htrack

lemma Bounded.reapIdleContainers (h : s.Bounded queueSize) (minIdleAge now : ℕ) :
    (s.reapIdleContainers minIdleAge now).1.Bounded queueSize := by
  have hclear : ({s with reapedContainers := ∅} : ContainerScheduler).Bounded queueSize :=
    ⟨h.indexed,h.within.forget fun hids => by cases hids⟩
  exact @Trace.invariant _ _ ContainerScheduler.reapContainer (fun r => r.scheduler.Bounded queueSize)
    (fun id hr => hr.reapContainer id) ⟨_,{},[]⟩ hclear _

end

section
variable {s s' : ContainerScheduler} {queueSize : ℕ} {fnUri : FunctionURI} {container : Container}
  {now : Instant} {id : ContainerId} {fc : ContainerServerMetadata}

lemma mem_of_popReaped (hpop : (s.popReaped fnUri).2 = some id) :
    ∃ ids, s.reapedContainers.lookup fnUri = some ids ∧ id∈ids ∧
      ∀ uri ids', (s.popReaped fnUri).1.reapedContainers.lookup uri = some ids' → id∈ids' →
        ¬ids.Nodup ∨ uri≠fnUri ∧ s.reapedContainers.lookup uri = some ids' := by
  rcases popReaped_eq s fnUri with hnone | ⟨ids,id',hids,hlast,heq⟩
  · rw [hnone] at hpop
    cases hpop
  rw [heq] at hpop ⊢
  cases hpop
  refine ⟨ids,hids,mem_of_getLast? hlast,?_⟩
  intro uri ids' hids' hin
  split_ifs at hids'
  · exact .inr (lookup_of_erase hids')
  refine (lookup_insert_cases hids').imp_left ?_
  rintro ⟨-,rfl⟩ hnodup
  rw [← dropLast_append_getLast? _ hlast] at hnodup
  exact (nodup_append.mp hnodup).2.2 _ hin _ (mem_singleton_self _) rfl

/-- A live container without allocations that the table did not list as alive. -/
structure Newcomer (s : ContainerScheduler) (fnUri : FunctionURI) (container : Container)
    (id : ContainerId) (fc : ContainerServerMetadata) : Prop where
  live : fc.isTerminated=false
  empty : fc.allocations = ∅
  uri : fc.functionContainer.functionUri=fnUri
  keyed : fc.functionContainer.id=id
  concurrency : 1 ≤ fc.functionContainer.maxConcurrency
  group : ∀ old, s.functionContainers.lookup id = some old → SameGroup old fc
  unlisted : ∀ uri ids, (s.popReaped fnUri).1.reapedContainers.lookup uri = some ids → id∉ids
  known : s.Known id ∨ id=container.id

lemma Arrives.newcomer (harrives : Arrives s fnUri container now id fc) (h : s.Bounded queueSize)
    (huri : container.functionUri=fnUri) (hconcurrency : 1 ≤ container.maxConcurrency)
    (hfresh : ¬s.Known container.id) : Newcomer s fnUri container id fc := by
  cases harrives with
  | restored id old hpop hold =>
    obtain ⟨ids,hids,hmem,hpopped⟩ := mem_of_popReaped hpop
    obtain ⟨hterm,hempty,hfn⟩ := h.within.idle hids hmem hold
    have hkeyed : old.functionContainer.id=id := h.within.keyed hold
    have hroom : 1 ≤ old.functionContainer.maxConcurrency := h.within.concurrency hold
    refine ⟨rfl,hempty,hfn,hkeyed,hroom,?_,?_,.inl (known_of_lookup hold)⟩
    · intro old' hold'
      cases hold.symm.trans hold'
      exact ⟨rfl,rfl⟩
    intro uri ids' hids' hin
    rcases hpopped uri ids' hids' hin with hdup | ⟨hne,hids'⟩
    · exact hdup (h.within.nodup hids)
    · exact hne ((h.within.idle hids' hin hold).2.2.symm.trans hfn)
  | created executorId =>
    refine ⟨rfl,rfl,huri,rfl,hconcurrency,?_,?_,.inr rfl⟩
    · intro old hold
      exact absurd (known_of_lookup hold) hfresh
    intro uri ids hids hin
    obtain ⟨ids',hids',hsub⟩ := forgets_popReaped s fnUri hids
    exact hfresh (known_of_mem_reaped hids' (hsub.subset hin))

end

section
variable {s s' s'' : ContainerScheduler} {queueSize : ℕ} {drawn : ContainerId}

/-- A step of an allocation pass: the bounds hold after it, no function outgrows its limit, and
at most the drawn id is new. -/
structure Grows (queueSize : ℕ) (drawn : ContainerId) (s s' : ContainerScheduler) : Prop where
  bounded : s'.Bounded queueSize
  limits : s'.maxContainersOf=s.maxContainersOf
  live : ∀ uri limit, s.maxContainersOf uri = some limit →
    s'.liveContainers uri ≤ max (s.liveContainers uri) limit
  known : ∀ id, s'.Known id → s.Known id ∨ id=drawn

lemma Grows.trans (h : Grows queueSize drawn s s') (h' : Grows queueSize drawn s' s'') :
    Grows queueSize drawn s s'' where
  bounded := h'.bounded
  limits := h'.limits.trans h.limits
  live := by
    intro uri limit hlimit
    have h₁ := h.live uri limit hlimit
    have h₂ := h'.live uri limit (by rwa [h.limits])
    omega
  known := by
    intro id hid
    rcases h'.known id hid with hid | hid
    · exact h.known id hid
    · exact .inr hid

lemma maxContainersOf_of_background (h : s'.background=s.background) :
    s'.maxContainersOf = s.maxContainersOf := by
  have hf : s'.functionPools=s.functionPools := congrArg Background.functionPools h
  have hb : s'.sandboxPools=s.sandboxPools := congrArg Background.sandboxPools h
  unfold maxContainersOf getPool
  rw [hf,hb]

lemma Grows.of_eq (h : s.Bounded queueSize) (htables : s'.tables=s.tables)
    (hholdings : s'.holdings=s.holdings) (hlimits : s'.maxContainersOf=s.maxContainersOf) :
    Grows queueSize drawn s s' := by
  have hcontainers : s'.functionContainers=s.functionContainers :=
    congrArg Holdings.containers hholdings
  have hreaped : s'.reapedContainers=s.reapedContainers := congrArg Holdings.reaped hholdings
  refine ⟨h.of_eq htables hholdings,hlimits,?_,?_⟩
  · intro uri limit _
    unfold liveContainers
    rw [hcontainers]
    exact le_max_left _ _
  intro id hid
  unfold Known at hid ⊢
  rw [hcontainers,hreaped] at hid
  exact .inl hid

lemma liveContainers_insert_le (hs : s.tables.Indexed) (hs' : s'.tables.Indexed) {id : ContainerId}
    {fc : ContainerServerMetadata}
    (hinsert : s'.functionContainers = s.functionContainers.insert id fc) (uri : FunctionURI) :
    s'.liveContainers uri ≤ s.liveContainers uri+(if fc.liveUri = some uri then 1 else 0) := by
  have hsub : s'.containersByFunctionUri.ids uri ⊆
      if fc.liveUri = some uri then insert id (s.containersByFunctionUri.ids uri)
      else s.containersByFunctionUri.ids uri := by
    intro id' hid'
    obtain ⟨fc',hfc',huri⟩ := (hs'.byUri uri id').mp hid'
    change s'.functionContainers.lookup id' = some fc' at hfc'
    rw [hinsert] at hfc'
    rcases lookup_insert_cases hfc' with ⟨rfl,rfl⟩ | ⟨-,hfc'⟩
    · rw [if_pos huri]
      exact Finset.mem_insert_self _ _
    have hold : id' ∈ s.containersByFunctionUri.ids uri := (hs.byUri uri id').mpr ⟨fc',hfc',huri⟩
    split_ifs
    · exact Finset.mem_insert_of_mem hold
    · exact hold
  have hcard := Finset.card_le_card hsub
  have hcount : ∀ {t : ContainerScheduler}, t.tables.Indexed →
      t.liveContainers uri = (t.containersByFunctionUri.ids uri).card := fun ht =>
    (ht.totalContainersForFunction uri).symm
  rw [hcount hs,hcount hs']
  refine hcard.trans ?_
  split_ifs
  · exact Finset.card_insert_le _ _
  · exact Nat.le_refl _

lemma known_cases {id : ContainerId} (hforgets : Forgets s.reapedContainers s'.reapedContainers)
    (h : s'.Known id) : id∈s'.functionContainers ∨ s.Known id := by
  refine h.imp_right ?_
  rintro ⟨uri,hmem⟩
  obtain ⟨ids,hids,hmem⟩ := mem_getD_nil.mp hmem
  obtain ⟨ids',hids',hsub⟩ := hforgets hids
  exact known_of_mem_reaped hids' (hsub.subset hmem)

lemma known_of_insert {id id' : ContainerId} {fc : ContainerServerMetadata}
    (hinsert : s'.functionContainers = s.functionContainers.insert id fc)
    (hforgets : Forgets s.reapedContainers s'.reapedContainers) (h : s'.Known id') :
    s.Known id' ∨ id'=id := by
  rcases known_cases hforgets h with hmem | hknown
  · rw [hinsert] at hmem
    rcases (AList.mem_insert _).mp hmem with heq | hmem
    · exact .inr heq
    · exact .inl (.inl hmem)
  · exact .inl hknown

section
variable {fnUri : FunctionURI} {container : Container} {now : Instant} {u : SchedulerUpdateRequest}

lemma Tables.Indexed.creation_some (h : s.tables.Indexed)
    (hc : Creation s fnUri container now s' (some u)) {id : ContainerId}
    {fc : ContainerServerMetadata} (he : u.containers.entries = [⟨id,fc⟩])
    (hgroup : ∀ old, s.functionContainers.lookup id = some old → SameGroup old fc) :
    (s'.applyContainerUpdate u).tables.Indexed := by
  refine (h.creation hc).applyContainerUpdate (keepsGroups_creation hc fun e hmem old hold => ?_)
  change e ∈ u.containers.entries at hmem
  rw [he] at hmem
  cases mem_singleton.mp hmem
  exact hgroup old hold

lemma Bounded.creation_none (h : s.Bounded queueSize) (hc : Creation s fnUri container now s' none) :
    Grows queueSize drawn s s' := by
  obtain ⟨hcontainers,hforgets⟩ := hc.holdings
  refine ⟨⟨h.indexed.creation hc,?_⟩,maxContainersOf_of_background hc.background,?_,?_⟩
  · unfold holdings
    rw [hcontainers]
    exact h.within.forget hforgets
  · intro uri limit _
    unfold liveContainers
    rw [hcontainers]
    exact le_max_left _ _
  · intro id hid
    rcases known_cases hforgets hid with hmem | hknown
    · rw [hcontainers] at hmem
      exact .inl (.inl hmem)
    · exact .inl hknown

lemma Bounded.creation_some (h : s.Bounded queueSize)
    (hc : Creation s fnUri container now s' (some u)) (huri : container.functionUri=fnUri)
    (hconcurrency : 1 ≤ container.maxConcurrency) (hfresh : ¬s.Known container.id) :
    ∃ id fc, u.containers.entries = [⟨id,fc⟩] ∧ Newcomer s fnUri container id fc ∧
      (s'.applyContainerUpdate u).functionContainers = s.functionContainers.insert id fc ∧
      (s'.applyContainerUpdate u).Bounded queueSize ∧
      ∀ id', (s'.applyContainerUpdate u).Known id' → s.Known id' ∨ id'=container.id := by
  obtain ⟨⟨id,fc,he,harrives,hinsert⟩,hreaped⟩ := hc.arrival
  have hnew := harrives.newcomer h huri hconcurrency hfresh
  refine ⟨id,fc,he,hnew,hinsert,⟨h.indexed.creation_some hc he hnew.group,?_⟩,?_⟩
  · unfold holdings
    rw [hinsert,hreaped]
    refine (h.within.forget (forgets_popReaped s _)).put hnew.keyed hnew.concurrency ?_ ?_
    · rw [hnew.empty]
      exact Nat.zero_le _
    · intro uri ids hids hmem
      exact absurd hmem (hnew.unlisted uri ids hids)
  · intro id' hid'
    rcases known_of_insert hinsert (hreaped ▸ forgets_popReaped s _) hid' with hid' | rfl
    · exact .inl hid'
    · exact hnew.known

end
end
end ContainerScheduler

namespace InMemoryState

def FunctionsNamed (state : InMemoryState) : Prop :=
  ∀ v∈state.applicationVersions.values, ∀ e∈v.functions.entries, e.2.name=e.1
  deriving Decidable

def FunctionsConcurrent (state : InMemoryState) : Prop :=
  ∀ v∈state.applicationVersions.values, ∀ f∈v.functions.values, 1 ≤ f.maxConcurrency
  deriving Decidable

variable {state : InMemoryState} {run : FunctionRun} {version : ApplicationVersion}
  {function : Function} (hversion : state.getExistingApplicationVersion run = some version)
  (hfunction : version.functions.lookup run.name = some function)
include hversion hfunction

lemma FunctionsNamed.name (h : state.FunctionsNamed) : function.name=run.name :=
  h version ((mem_values_iff _ _).mpr ⟨_,hversion⟩) ⟨run.name,function⟩
    ((mem_entries_iff _ _ _).mpr hfunction)

lemma FunctionsConcurrent.concurrency (h : state.FunctionsConcurrent) : 1 ≤ function.maxConcurrency :=
  h version ((mem_values_iff _ _).mpr ⟨_,hversion⟩) function
    ((mem_values_iff _ _).mpr ⟨_,hfunction⟩)

end InMemoryState

namespace FunctionRunProcessor
open ContainerScheduler
section
variable {state : InMemoryState} {s : ContainerScheduler} {cache : FeasibilityCache}
  {run : FunctionRun} {queueSize : ℕ} {draw : Draw} {drawn : ContainerId}

def HasRoom (queueSize : ℕ) (s : ContainerScheduler) (target : AllocationTarget) : Prop :=
  ∃ fc, s.functionContainers.lookup target.containerId = some fc ∧ fc.isTerminated=false ∧
    fc.allocations.card<queueSize*fc.functionContainer.maxConcurrency

lemma hasRoom_findAvailableContainer [HashOrder ContainerId] (h : s.Bounded queueSize)
    {fnUri : FunctionURI} {target : AllocationTarget}
    (hfind : findAvailableContainer s fnUri queueSize = some target) : HasRoom queueSize s target := by
  obtain ⟨fc,hfc,rfl⟩ := Option.map_eq_some_iff.mp hfind
  obtain ⟨hmem,havailable⟩ := mem_filter.mp (argmin_mem hfc)
  obtain ⟨id,-,hid⟩ := mem_filterMap.mp hmem
  have hkeyed : fc.functionContainer.id=id := h.within.keyed hid
  unfold isAvailable at havailable
  refine ⟨fc,by rw [hkeyed]; exact hid,?_⟩
  cases hexecutor : s.executors.lookup fc.executorId with
  | none =>
    rw [hexecutor] at havailable
    cases havailable
  | some executor =>
    rw [hexecutor] at havailable
    dsimp only at havailable
    split_ifs at havailable with htombstoned hterminated
    exact ⟨by simpa using hterminated,of_decide_eq_true havailable⟩

lemma grows_occupy (h : s.Bounded queueSize) {a : Allocation} (hroom : HasRoom queueSize s a.target)
    (run : FunctionRun) : Grows queueSize drawn s (unblockRun (occupy s a) run) := by
  obtain ⟨fc,hfc,hlive,hload⟩ := hroom
  unfold occupy
  rw [hfc]
  dsimp only
  generalize hbusy : ({fc with allocations := insert a.id fc.allocations, idleSince := none} :
    ContainerServerMetadata) = fc'
  have hcontainer : fc'.functionContainer=fc.functionContainer := by rw [← hbusy]
  have hterminated : fc'.isTerminated=fc.isTerminated := by rw [← hbusy]; rfl
  have hcard : fc'.allocations.card ≤ fc.allocations.card+1 := by
    rw [← hbusy]
    exact Finset.card_insert_le _ _
  have hindexed : (s.setContainer a.target.containerId fc').tables.Indexed :=
    h.indexed.setContainer fc' hfc hcontainer hterminated
  refine ⟨⟨hindexed,?_⟩,rfl,?_,?_⟩
  · refine h.within.put ?_ ?_ ?_ ?_
    · rw [hcontainer]
      exact h.within.keyed hfc
    · rw [hcontainer]
      exact h.within.concurrency hfc
    · rw [hcontainer]
      omega
    · intro uri ids hids hmem
      -- a reaped container is terminated, and the target is alive
      have hterm : fc.isTerminated=true := (h.within.idle hids hmem hfc).1
      rw [hlive] at hterm
      cases hterm
  · intro uri limit _
    have hids : (s.setContainer a.target.containerId fc').liveContainers uri = s.liveContainers uri :=
      (hindexed.totalContainersForFunction uri).symm.trans (h.indexed.totalContainersForFunction uri)
    exact hids.le.trans (le_max_left _ _)
  · intro id hid
    rcases @known_of_insert s (s.setContainer a.target.containerId fc') _ _ _ rfl (Forgets.refl _)
      hid with hid | rfl
    · exact .inl hid
    · exact .inl (known_of_lookup hfc)

section
variable [HashOrder ContainerId] [HashOrder ExecutorId] (h : s.Bounded queueSize)
  (hqueue : 1 ≤ queueSize) (hnamed : state.FunctionsNamed) (hconcurrent : state.FunctionsConcurrent)
include h hqueue hnamed hconcurrent

omit [HashOrder ContainerId] in
lemma grows_tryCreateContainer (hfresh : ¬s.Known draw.containerId) :
    let r := tryCreateContainer state s cache run draw
    (created r = none → Grows queueSize draw.containerId s r.1) ∧
      ∀ u, created r = some u → Grows queueSize draw.containerId s (r.1.applyContainerUpdate u) ∧
        ∃ id fc, u.containers.entries = [⟨id,fc⟩] ∧ fc.isTerminated=false ∧
          HasRoom queueSize (r.1.applyContainerUpdate u)
            ⟨fc.executorId,fc.functionContainer.id⟩ := by
  rcases tryCreateContainer_cases state s cache run draw with
    hr | ⟨version,function,hversion,hfunction,hcapacity,hr⟩ <;> rw [hr]
  · exact ⟨fun _ => .of_eq h rfl rfl rfl,fun u hu => by cases hu⟩
  have hname := hnamed.name hversion hfunction
  have hconcurrency := hconcurrent.concurrency hversion hfunction
  refine ⟨fun hnone => h.creation_none (creation_of_created hnone),fun u hu => ?_⟩
  have hcreation := creation_of_created hu
  obtain ⟨id,fc,he,hnew,hinsert,hbounded,hknown⟩ :=
    h.creation_some hcreation rfl hconcurrency hfresh
  have hback := (background_applyContainerUpdate _ u).trans hcreation.background
  refine ⟨⟨hbounded,maxContainersOf_of_background hback,?_,hknown⟩,id,fc,he,hnew.live,fc,?_,hnew.live,?_⟩
  · intro uri limit hlimit
    have hle := liveContainers_insert_le h.indexed hbounded.indexed hinsert uri
    split_ifs at hle with hfn
    · -- the container counts for the run's function, whose pool had room
      have hrun : uri = .ofRun run := by
        rw [liveUri_eq_some_iff,hnew.uri,hname] at hfn
        exact hfn.2.symm
      have hbelow : s.liveContainers uri<limit := by
        rw [hrun] at hlimit
        unfold maxContainersOf FunctionURI.ofRun at hlimit
        simp only [poolAtCapacity,hlimit,← hrun] at hcapacity
        rw [← show s.totalContainersForFunction uri = s.liveContainers uri from
          h.indexed.totalContainersForFunction uri]
        simpa using hcapacity
      omega
    · omega
  · rw [hinsert,hnew.keyed]
    exact AList.lookup_insert _
  · rw [hnew.empty,Finset.card_empty]
    exact Nat.mul_pos hqueue hnew.concurrency

lemma grows_chooseTarget (hfresh : ¬s.Known draw.containerId) :
    let r := chooseTarget state s cache run queueSize draw
    Grows queueSize draw.containerId s r.1 ∧
      ∀ target u, r.2.2 = .ok (some target,u) → HasRoom queueSize r.1 target := by
  have hcreate := @grows_tryCreateContainer state s cache run queueSize draw _ h hqueue hnamed
    hconcurrent hfresh
  unfold chooseTarget
  cases hfind : findAvailableContainer s (.ofRun run) queueSize with
  | some target =>
    refine ⟨.of_eq h rfl rfl rfl,?_⟩
    rintro target' u ⟨⟩
    exact hasRoom_findAvailableContainer h hfind
  | none =>
    revert hcreate
    rcases tryCreateContainer state s cache run draw with ⟨s',cache',e | _ | u⟩ <;>
      intro ⟨hnone,hsome⟩
    iterate 2 exact ⟨hnone rfl,by rintro target u ⟨⟩⟩
    · obtain ⟨hgrows,id,fc,he,hlive,hroom⟩ := hsome u rfl
      refine ⟨hgrows,?_⟩
      have hvalues : u.containers.values = [fc] := by
        unfold Dict.values
        rw [he]
        rfl
      intro target u' htarget
      dsimp only at htarget
      rw [hvalues,List.find?_cons_of_pos (by simp [hlive])] at htarget
      cases htarget
      exact hroom

lemma grows_createAllocation {ctx : RequestCtx}
    {d : AllocationDraw} (hfresh : ¬s.Known d.draw.containerId) :
    Grows queueSize d.draw.containerId s
      (createAllocation state s cache run ctx queueSize d).1 := by
  obtain ⟨hgrows,hroom⟩ := @grows_chooseTarget state s cache run queueSize d.draw _ _ h hqueue
    hnamed hconcurrent hfresh
  unfold createAllocation
  rcases hr : chooseTarget state s cache run queueSize d.draw with
    ⟨s',cache',e | ⟨_ | target,u⟩⟩ <;> rw [hr] at hgrows hroom
  · exact hgrows
  · exact hgrows
  · exact hgrows.trans (grows_occupy hgrows.bounded (hroom target u rfl) run)

end
end

section
variable [HashOrder ContainerId] [HashOrder ExecutorId]

def Pass.runsSeen (state : InMemoryState) (queueSize : ℕ) (draws : ℕ → AllocationDraw)
    (memoryMb : ℕ) : List FunctionRun → Pass → List ContainerScheduler
  | [],_ => []
  | run::runs,p =>
    match p.tryAllocateSingleRun state queueSize draws run memoryMb with
    | (p,.ok ()) => p.scheduler::runsSeen state queueSize draws memoryMb runs p
    | (p,.error _) => [p.scheduler]

def Pass.groupsSeen (state : InMemoryState) (queueSize : ℕ) (draws : ℕ → AllocationDraw) :
    List (ResourceProfile × List FunctionRun) → Pass → List ContainerScheduler
  | [],_ => []
  | (profile,runs)::groups,p =>
    Pass.runsSeen state queueSize draws profile.memoryMb runs p ++
      match Pass.allocateRuns state queueSize draws profile.memoryMb runs p with
      | (_,.error _) => []
      | (p',.ok ()) =>
        if 3 ≤ p'.noResourcesForFn.card-p.noResourcesForFn.card then []
        else groupsSeen state queueSize draws groups p'

/-- The pass started from `s₀` and kept the bounds, and the ids it has not drawn yet are new. -/
structure Pass.Fits (queueSize : ℕ) (draws : ℕ → AllocationDraw) (s₀ : ContainerScheduler)
    (p : Pass) : Prop where
  bounded : p.scheduler.Bounded queueSize
  limits : p.scheduler.maxContainersOf=s₀.maxContainersOf
  live : ∀ uri limit, s₀.maxContainersOf uri = some limit →
    p.scheduler.liveContainers uri ≤ max (s₀.liveContainers uri) limit
  fresh : ∀ n, p.drawn ≤ n → ¬p.scheduler.Known (draws n).draw.containerId

variable {state : InMemoryState} {queueSize : ℕ} {draws : ℕ → AllocationDraw}
  {s₀ : ContainerScheduler} {p : Pass}
variable (h : p.Fits queueSize draws s₀)
include h

omit [HashOrder ContainerId] [HashOrder ExecutorId] in
lemma Pass.Fits.of_eq {p' : Pass} (htables : p'.scheduler.tables=p.scheduler.tables)
    (hholdings : p'.scheduler.holdings=p.scheduler.holdings)
    (hlimits : p'.scheduler.maxContainersOf=p.scheduler.maxContainersOf)
    (hdrawn : p'.drawn=p.drawn) : p'.Fits queueSize draws s₀ := by
  have hc : p'.scheduler.functionContainers=p.scheduler.functionContainers :=
    congrArg Holdings.containers hholdings
  have hr : p'.scheduler.reapedContainers=p.scheduler.reapedContainers :=
    congrArg Holdings.reaped hholdings
  refine ⟨h.bounded.of_eq htables hholdings,hlimits.trans h.limits,?_,?_⟩
  · unfold liveContainers
    rw [hc]
    exact h.live
  unfold Known
  rw [hc,hr,hdrawn]
  exact h.fresh

omit [HashOrder ContainerId] [HashOrder ExecutorId] in
lemma Pass.Fits.grow
    (hdraws : Function.Injective fun n => (draws n).draw.containerId) {p' : Pass}
    (hgrows : Grows queueSize (draws p.drawn).draw.containerId p.scheduler p'.scheduler)
    (hdrawn : p'.drawn = p.drawn+1) : p'.Fits queueSize draws s₀ := by
  refine ⟨hgrows.bounded,hgrows.limits.trans h.limits,?_,?_⟩
  · intro uri limit hlimit
    have h₁ := h.live uri limit hlimit
    have h₂ := hgrows.live uri limit (by rwa [h.limits])
    omega
  intro n hn hknown
  rcases hgrows.known _ hknown with hknown | heq
  · exact h.fresh n (by omega) hknown
  · have := hdraws heq
    omega

omit [HashOrder ContainerId] [HashOrder ExecutorId] in
lemma Pass.Fits.recordBlocked [HashOrder ExecutorId] (run : FunctionRun) (memoryMb : ℕ) :
    (p.recordBlocked state run memoryMb).Fits queueSize draws s₀ := h.of_eq rfl rfl rfl rfl

omit h

section
variable (hqueue : 1 ≤ queueSize) (hnamed : state.FunctionsNamed)
  (hconcurrent : state.FunctionsConcurrent)
  (hdraws : Function.Injective fun n => (draws n).draw.containerId)
include hqueue hnamed hconcurrent hdraws
variable (h : p.Fits queueSize draws s₀)
include h

lemma Pass.Fits.allocate (run : FunctionRun) (memoryMb : ℕ) (ctx : RequestCtx) :
    (p.allocate state queueSize draws run memoryMb ctx).1.Fits queueSize draws s₀ := by
  have hclear : p.clearPlacement.Fits queueSize draws s₀ := h.of_eq rfl rfl rfl rfl
  have hgrows := @grows_createAllocation state p.clearPlacement.scheduler p.clearPlacement.cache run
    queueSize _ _ hclear.bounded hqueue hnamed hconcurrent ctx (draws p.clearPlacement.drawn)
    (hclear.fresh _ (Nat.le_refl _))
  unfold Pass.allocate
  dsimp only
  revert hgrows
  rcases createAllocation state p.clearPlacement.scheduler p.clearPlacement.cache run ctx queueSize
    (draws p.clearPlacement.drawn) with ⟨s',cache',ctx',r⟩
  intro hgrows
  have hnext : Pass.Fits queueSize draws s₀ {p.clearPlacement with
      scheduler := s'
      cache := cache'
      requestCtxCache := p.clearPlacement.requestCtxCache.insert run.requestCtxKey ctx'
      drawn := p.clearPlacement.drawn+1} := hclear.grow hdraws hgrows rfl
  cases r with
  | ok u =>
    dsimp only
    split_ifs
    · exact (hnext.recordBlocked run memoryMb).of_eq rfl rfl rfl rfl
    · exact hnext.of_eq rfl rfl rfl rfl
  | error e =>
    cases e with
    | constraintUnsatisfiable reason version name => exact hnext.of_eq rfl rfl rfl rfl
    | executorStateNotFound id
    | resources e => exact hnext

lemma Pass.Fits.tryAllocateSingleRun (run : FunctionRun) (memoryMb : ℕ) :
    (p.tryAllocateSingleRun state queueSize draws run memoryMb).1.Fits queueSize draws s₀ := by
  unfold Pass.tryAllocateSingleRun
  split_ifs
  · have hclear : p.clearPlacement.Fits queueSize draws s₀ := h.of_eq rfl rfl rfl rfl
    exact hclear.recordBlocked run memoryMb
  · exact h
  · cases p.ctxOf state run.requestCtxKey with
    | none => exact h
    | some ctx => exact h.allocate hqueue hnamed hconcurrent hdraws run memoryMb ctx

lemma Pass.Fits.allocateRuns (memoryMb : ℕ) (runs : List FunctionRun) :
    (Pass.allocateRuns state queueSize draws memoryMb runs p).1.Fits queueSize draws s₀ ∧
      ∀ s ∈ Pass.runsSeen state queueSize draws memoryMb runs p,
        ∃ p' : Pass, p'.Fits queueSize draws s₀ ∧ p'.scheduler=s := by
  induction runs generalizing p with
  | nil => exact ⟨h,forall_mem_nil _⟩
  | cons run runs ih =>
    have hrun := h.tryAllocateSingleRun hqueue hnamed hconcurrent hdraws run memoryMb
    unfold Pass.allocateRuns Pass.runsSeen
    revert hrun
    rcases p.tryAllocateSingleRun state queueSize draws run memoryMb with ⟨p',e | _⟩ <;> intro hrun
    · exact ⟨hrun,forall_mem_singleton.mpr ⟨p',hrun,rfl⟩⟩
    · obtain ⟨hend,hseen⟩ := ih hrun
      exact ⟨hend,forall_mem_cons.mpr ⟨⟨p',hrun,rfl⟩,hseen⟩⟩

lemma Pass.Fits.allocateGroups (groups : List (ResourceProfile × List FunctionRun)) :
    (Pass.allocateGroups state queueSize draws groups p).1.Fits queueSize draws s₀ ∧
      ∀ s ∈ Pass.groupsSeen state queueSize draws groups p,
        ∃ p' : Pass, p'.Fits queueSize draws s₀ ∧ p'.scheduler=s := by
  induction groups generalizing p with
  | nil => exact ⟨h,forall_mem_nil _⟩
  | cons group groups ih =>
    obtain ⟨profile,runs⟩ := group
    obtain ⟨hruns,hruns'⟩ := h.allocateRuns hqueue hnamed hconcurrent hdraws profile.memoryMb runs
    unfold Pass.allocateGroups Pass.groupsSeen
    revert hruns
    rcases Pass.allocateRuns state queueSize draws profile.memoryMb runs p with ⟨p',e | _⟩ <;>
      intro hruns
    · exact ⟨hruns,forall_mem_append.mpr ⟨hruns',forall_mem_nil _⟩⟩
    dsimp only
    split_ifs
    · exact ⟨hruns,forall_mem_append.mpr ⟨hruns',forall_mem_nil _⟩⟩
    · obtain ⟨hend,hseen⟩ := ih hruns
      exact ⟨hend,forall_mem_append.mpr ⟨hruns',hseen⟩⟩

end

omit [HashOrder ContainerId] in
lemma Pass.Fits.blockSkippedGroups (h : p.Fits queueSize draws s₀)
    (groups : List (ResourceProfile × List FunctionRun)) :
    (Pass.blockSkippedGroups state groups p).Fits queueSize draws s₀ := by
  refine List.foldlRecOn (motive := fun (acc : Pass × _) => acc.1.Fits queueSize draws s₀) groups _ h
    fun acc hacc g _ => ?_
  exact List.foldlRecOn (motive := fun (acc : Pass × _) => acc.1.Fits queueSize draws s₀) g.2 _ hacc
    fun acc hacc run _ => hacc.of_eq rfl rfl rfl rfl

end

structure AllocationBatch where
  state : InMemoryState
  cache : FeasibilityCache
  draws : ℕ → AllocationDraw
  runs : List FunctionRun

namespace AllocationBatch
variable [HashOrder ContainerId] [HashOrder ExecutorId] [HashOrder ResourceProfile]

def allocate (b : AllocationBatch) (queueSize : ℕ) (s : ContainerScheduler) :
    Pass × Except CreateError SchedulerUpdateRequest :=
  allocateFunctionRuns b.state queueSize b.draws s b.cache b.runs

def schedulersSeen (b : AllocationBatch) (queueSize : ℕ) (s : ContainerScheduler) :
    List ContainerScheduler :=
  let start : Pass := {scheduler := s, cache := b.cache}
  let cappedRuns := b.runs.take maxRuns
  let groups := sortedGroups b.state cappedRuns
  let fallbackRuns := cappedRuns.filter fun r => profileOf b.state r = none
  (if s.executors.entries.isEmpty then []
    else Pass.groupsSeen b.state queueSize b.draws groups start ++
      match Pass.allocateGroups b.state queueSize b.draws groups start with
      | (_,.error _) => []
      | (p,.ok skipped) => Pass.runsSeen b.state queueSize b.draws 0 fallbackRuns
          (Pass.blockSkippedGroups b.state skipped p)) ++
  [(b.allocate queueSize s).1.scheduler]

structure FreshDraws (b : AllocationBatch) (s : ContainerScheduler) : Prop where
  injective : Function.Injective fun n => (b.draws n).draw.containerId
  unknown : ∀ n, ¬s.Known (b.draws n).draw.containerId

variable {b : AllocationBatch} {queueSize : ℕ} {s : ContainerScheduler}

lemma grows_schedulersSeen (h : s.Bounded queueSize) (hqueue : 1 ≤ queueSize)
    (hnamed : b.state.FunctionsNamed) (hconcurrent : b.state.FunctionsConcurrent)
    (hfresh : b.FreshDraws s) :
    ∀ s' ∈ b.schedulersSeen queueSize s, ∃ p : Pass, p.Fits queueSize b.draws s ∧ p.scheduler=s' := by
  have hstart : Pass.Fits queueSize b.draws s {scheduler := s, cache := b.cache} :=
    ⟨h,rfl,fun uri limit _ => le_max_left _ _,fun n _ => hfresh.unknown n⟩
  unfold schedulersSeen allocate allocateFunctionRuns
  dsimp only
  split_ifs
  · have hblock : Pass.Fits queueSize b.draws s
        {scheduler := blockAll b.state s b.runs, cache := b.cache} :=
      List.foldlRecOn (motive := fun t => Pass.Fits queueSize b.draws s
        {scheduler := t, cache := b.cache}) b.runs _ hstart fun t ht run _ => ht.of_eq rfl rfl rfl rfl
    exact forall_mem_singleton.mpr ⟨_,hblock,rfl⟩
  obtain ⟨hgroups,hgroups'⟩ := hstart.allocateGroups hqueue hnamed hconcurrent hfresh.injective
    (sortedGroups b.state (b.runs.take maxRuns))
  revert hgroups
  rcases Pass.allocateGroups b.state queueSize b.draws
    (sortedGroups b.state (b.runs.take maxRuns)) {scheduler := s, cache := b.cache} with
    ⟨p,e | skipped⟩ <;> intro hgroups
  · rw [append_nil]
    exact forall_mem_append.mpr ⟨hgroups',forall_mem_singleton.mpr ⟨p,hgroups,rfl⟩⟩
  obtain ⟨hrest,hrest'⟩ := (hgroups.blockSkippedGroups skipped).allocateRuns hqueue hnamed
    hconcurrent hfresh.injective 0
    ((b.runs.take maxRuns).filter fun r => profileOf b.state r = none)
  refine forall_mem_append.mpr ⟨forall_mem_append.mpr ⟨hgroups',hrest'⟩,?_⟩
  revert hrest
  dsimp only
  rcases Pass.allocateRuns b.state queueSize b.draws 0
    ((b.runs.take maxRuns).filter fun r => profileOf b.state r = none)
    (Pass.blockSkippedGroups b.state skipped p) with ⟨p',e | _⟩ <;> intro hrest
  · exact forall_mem_singleton.mpr ⟨p',hrest,rfl⟩
  · exact forall_mem_singleton.mpr ⟨p',hrest,rfl⟩

end AllocationBatch

inductive BatchEvent
  | batch (b : AllocationBatch)
  | reap (minIdleAge now : ℕ)
  | createForFunction (cache : FeasibilityCache) («namespace» application version : String)
      (function : Function) (applicationState : ApplicationState) (draw : Draw)
  | ingest (containerId : ContainerId) (allocationId : AllocationId) (now : Instant)
  | terminate (id : ContainerId)
  | remove (id : ContainerId)
  /-- Executors, pools and everything else change in any way. -/
  | other (s : ContainerScheduler)

namespace BatchEvent
variable [HashOrder ContainerId] [HashOrder ExecutorId] [HashOrder ResourceProfile]

def step (queueSize : ℕ) (s : ContainerScheduler) : BatchEvent → ContainerScheduler
  | .batch b => (b.allocate queueSize s).1.scheduler
  | .reap minIdleAge now => (s.reapIdleContainers minIdleAge now).1
  | .createForFunction cache ns application version function state draw =>
    applyCreated (s.createContainerForFunction cache ns application version function state draw)
  | .ingest containerId allocationId now => (s.ingestAllocation containerId allocationId now).1
  | .terminate id => (s.terminateContainer id).1
  | .remove id => s.removeContainerFromIndices id
  | .other s' =>
    {s' with
      functionContainers := s.functionContainers
      containersByFunctionUri := s.containersByFunctionUri
      containersByPool := s.containersByPool
      warmContainersByPool := s.warmContainersByPool
      reapedContainers := s.reapedContainers}

def run (queueSize : ℕ) (s : ContainerScheduler) (events : List BatchEvent) : ContainerScheduler :=
  events.foldl (step queueSize) s

/-- New containers get new ids and run at least one allocation at a time, and the functions of a
batch are filed under their own names. -/
def Allowed (s : ContainerScheduler) : BatchEvent → Prop
  | .batch b => b.FreshDraws s ∧ b.state.FunctionsConcurrent ∧ b.state.FunctionsNamed
  | .createForFunction _ _ _ _ function _ draw =>
    1 ≤ function.maxConcurrency ∧ ¬s.Known draw.containerId
  | _ => True

lemma bounded_step {queueSize : ℕ} (hqueue : 1 ≤ queueSize) {s : ContainerScheduler}
    (h : s.Bounded queueSize) {e : BatchEvent} (he : Allowed s e) :
    (step queueSize s e).Bounded queueSize := by
  cases e with
  | batch b =>
    obtain ⟨hfresh,hconcurrent,hnamed⟩ := he
    obtain ⟨p,hp,heq⟩ := AllocationBatch.grows_schedulersSeen h hqueue hnamed hconcurrent hfresh _
      (mem_append_right _ (mem_singleton_self _))
    change (b.allocate queueSize s).1.scheduler.Bounded queueSize
    exact heq ▸ hp.bounded
  | reap minIdleAge now => exact h.reapIdleContainers minIdleAge now
  | createForFunction cache ns application version function state draw =>
    change (applyCreated _).Bounded queueSize
    unfold applyCreated
    cases hu : created (s.createContainerForFunction cache ns application version function state
      draw) with
    | none =>
      have hgrows : Grows queueSize draw.containerId s _ := h.creation_none (creation_of_created hu)
      exact hgrows.bounded
    | some u =>
      obtain ⟨_,_,-,-,-,hbounded,-⟩ := h.creation_some (creation_of_created hu) rfl he.1 he.2
      exact hbounded
  | ingest containerId allocationId now => exact h.ingestAllocation containerId allocationId now
  | terminate id => exact h.terminateContainer id
  | remove id => exact h.removeContainerFromIndices id
  | other s' => exact h.of_eq rfl rfl

end BatchEvent

def knownIds (s : ContainerScheduler) : List ContainerId :=
  s.functionContainers.keys++s.reapedContainers.values.flatten

lemma mem_knownIds {s : ContainerScheduler} {id : ContainerId} (h : s.Known id) : id ∈ knownIds s := by
  rcases h with hmem | ⟨uri,hmem⟩
  · exact mem_append_left _ (AList.mem_keys.mp hmem)
  obtain ⟨ids,hids,hmem⟩ := mem_getD_nil.mp hmem
  exact mem_append_right _ (mem_flatten.mpr
    ⟨ids,(mem_values_iff _ _).mpr ⟨uri,hids⟩,hmem⟩)

def letterDraws (letter : Char) (n : ℕ) : AllocationDraw :=
  ⟨⟨⟨String.ofList (letter::List.replicate n 'i')⟩,0,10⟩,⟨String.ofList (letter::List.replicate n 'i')⟩⟩

lemma letterDraws_injective (letter : Char) :
    Function.Injective fun n => (letterDraws letter n).draw.containerId := by
  intro m n h
  have hlist := String.ofList_injective (congrArg ContainerId.get h)
  simpa using congrArg List.length hlist

def answerBatch (functionName : String) (letter : Char) : AllocationBatch where
  state :=
    {waitingState .active with
      applicationVersions := AList.insert "default|app|1"
        {waitingVersion .active with
          functions := AList.insert "answer" {smallFunction with name := functionName} ∅} ∅}
  cache := ∅
  draws := letterDraws letter
  runs := [waitingRun "answer"]

def onePool (functionName : String) : Dict ContainerPoolKey ContainerPool :=
  AList.insert ⟨"default",.forFunction "app" functionName "1"⟩
    {smallPool with
      id := .forFunction "app" functionName "1", poolType := .function, maxContainers := some 1} ∅

attribute [local instance] HashOrder.ascending

def reapedEvents : List BatchEvent :=
  [.other (ContainerScheduler.run (new (onePool "answer") ∅) joinOps),
    .batch (answerBatch "answer" 'a'),
    .ingest ⟨"a"⟩ ⟨"a"⟩ 20,
    .reap 5 40]

end FunctionRunProcessor
end Indexify
