import Indexify.Library.Tally
import Indexify.StateStore.ApplicationPayloads

/-! The histogram of pending function runs against a recount. Increments and decrements look up the
function of a run at different times, in the version the run has at that time: the histogram is
right while no waiting run changes its profile. -/
namespace Indexify
open List Dict Finset

/-- The histogram with one more, or one less, under a profile that is known. -/
def ResourceProfileHistogram.add (h : ResourceProfileHistogram) :
    Option ResourceProfile → ResourceProfileHistogram
  | some profile => h.increment profile
  | none => h

def ResourceProfileHistogram.take (h : ResourceProfileHistogram) :
    Option ResourceProfile → ResourceProfileHistogram
  | some profile => h.decrement profile
  | none => h

namespace InMemoryState

def profile (s : InMemoryState) (r : FunctionRun) : Option ResourceProfile :=
  (s.getFunction r).map .fromFunction

def profileOf (s : InMemoryState) (key : FunctionRunKey) : Option ResourceProfile :=
  (s.functionRuns.lookup key).bind s.profile

/-- The histogram is the recount over the unallocated runs. -/
structure Balanced (s : InMemoryState) : Prop where
  keyed : ∀ {k r}, s.functionRuns.lookup k = some r → r.key=k
  tally : Tally.Tallies s.pendingResources.functionRuns s.unallocatedFunctionRuns s.profileOf

section
variable (s : InMemoryState) (r : FunctionRun)

lemma incrementPending_add : s.incrementPending r =
    {s with pendingResources.functionRuns := s.pendingResources.functionRuns.add (s.profile r)} := by
  unfold incrementPending profile
  cases s.getFunction r <;> rfl

lemma decrementPending_take : s.decrementPending r =
    {s with pendingResources.functionRuns := s.pendingResources.functionRuns.take (s.profile r)} := by
  unfold decrementPending profile
  cases s.getFunction r <;> rfl

end

section
variable {s s' : InMemoryState} {r : FunctionRun}

/-- A run that waits and is written has the profile it is stored with. -/
def Steady (s : InMemoryState) (r : FunctionRun) : Prop :=
  r.key ∈ s.unallocatedFunctionRuns → s.profile r = s.profileOf r.key
  deriving Decidable

variable (h : s.Balanced) (hv : s'.applicationVersions=s.applicationVersions)
  (hr : s'.functionRuns = s.functionRuns.insert r.key r)

include hv in
lemma profile_congr (r : FunctionRun) : s'.profile r = s.profile r := by
  simp [profile,getFunction,getExistingApplicationVersion,hv]

include hv hr in
lemma profileOf_insert (k : FunctionRunKey) :
    s'.profileOf k = if k=r.key then s.profile r else s.profileOf k := by
  unfold profileOf
  rw [hr,lookup_insert_if,funext (profile_congr hv)]
  split_ifs <;> rfl

include h

include hr in
lemma Balanced.keyed_insert {k : FunctionRunKey}
    {r' : FunctionRun} (hk : s'.functionRuns.lookup k = some r') : r'.key = k :=
  of_lookup_insert h.keyed rfl (hr ▸ hk)

include hv hr in
lemma Balanced.wait (hnew : r.key∉s.unallocatedFunctionRuns)
    (hu : s'.unallocatedFunctionRuns = insert r.key s.unallocatedFunctionRuns)
    (hp : s'.pendingResources.functionRuns =
      s.pendingResources.functionRuns.add (s.profile r)) : s'.Balanced := by
  refine ⟨h.keyed_insert hr,?_⟩
  have hself : s'.profileOf r.key = s.profile r := by rw [profileOf_insert hv hr,if_pos rfl]
  have hold : Tally.Tallies s.pendingResources.functionRuns s.unallocatedFunctionRuns
      s'.profileOf := by
    apply h.tally.congr
    intro k hk
    have hne : k≠r.key := fun he => hnew (he ▸ hk)
    rw [profileOf_insert hv hr,if_neg hne]
  rw [hu,hp]
  cases hprofile : s.profile r with
  | none => exact hold.insert_none hnew (hself.trans hprofile)
  | some p => exact hold.insert hnew (hself.trans hprofile)

lemma Balanced.leave {k : FunctionRunKey} (hin : k∈s.unallocatedFunctionRuns)
    (hkeyed : ∀ {k r}, s'.functionRuns.lookup k = some r → r.key=k)
    (hrest : ∀ k', k'≠k → s'.profileOf k' = s.profileOf k')
    (hu : s'.unallocatedFunctionRuns = s.unallocatedFunctionRuns.erase k)
    (hp : s'.pendingResources.functionRuns =
      s.pendingResources.functionRuns.take (s.profileOf k)) : s'.Balanced := by
  refine ⟨hkeyed,?_⟩
  have hnew : Tally.Tallies (s.pendingResources.functionRuns.take (s.profileOf k))
      (s.unallocatedFunctionRuns.erase k) s.profileOf := by
    cases hprofile : s.profileOf k with
    | none => exact h.tally.erase_none hin hprofile
    | some p => exact h.tally.erase hin hprofile
  rw [hu,hp]
  apply hnew.congr
  intro k' hk'
  exact (hrest k' (mem_erase.mp hk').1).symm

variable (hu : s'.unallocatedFunctionRuns=s.unallocatedFunctionRuns)
  (hp : s'.pendingResources.functionRuns=s.pendingResources.functionRuns)
include hu hp

lemma Balanced.stay
    (hkeyed : ∀ {k r}, s'.functionRuns.lookup k = some r → r.key=k)
    (hsame : ∀ k∈s.unallocatedFunctionRuns, s'.profileOf k = s.profileOf k) : s'.Balanced := by
  refine ⟨hkeyed,?_⟩
  rw [hu,hp]
  exact h.tally.congr fun k hk => (hsame k hk).symm

lemma Balanced.of_eq (hv : s'.applicationVersions=s.applicationVersions)
    (hr : s'.functionRuns=s.functionRuns) : s'.Balanced := by
  refine h.stay hu hp (by rw [hr]; exact h.keyed) fun k _ => ?_
  simp only [profileOf,hr,funext (profile_congr hv)]

include hv hr in
lemma Balanced.rewrite (hsteady : s.Steady r) : s'.Balanced := by
  refine h.stay hu hp (h.keyed_insert hr) fun k hk => ?_
  rw [profileOf_insert hv hr]
  split_ifs with he
  · subst he
    exact hsteady hk
  · rfl

omit hu hp

include hv hr in
lemma Balanced.settle (hin : r.key∈s.unallocatedFunctionRuns) (hsteady : s.Steady r)
    (hu : s'.unallocatedFunctionRuns = s.unallocatedFunctionRuns.erase r.key)
    (hp : s'.pendingResources.functionRuns =
      s.pendingResources.functionRuns.take (s.profile r)) : s'.Balanced := by
  rw [hsteady hin] at hp
  refine h.leave hin (h.keyed_insert hr) (fun k hk => ?_) hu hp
  rw [profileOf_insert hv hr,if_neg hk]

lemma Balanced.upsertFunctionRun (hsteady : s.Steady r) : (s.upsertFunctionRun r).Balanced := by
  by_cases hin : r.key ∈ s.unallocatedFunctionRuns <;> by_cases hpending : r.status=.pending
  · refine h.rewrite ?_ ?_ ?_ ?_ hsteady <;>
      simp [InMemoryState.upsertFunctionRun,trackPending,hin,hpending]
  · refine h.settle ?_ ?_ hin hsteady ?_ ?_ <;>
      simp only [InMemoryState.upsertFunctionRun,trackPending,hin,hpending,decrementPending_take] <;>
      rfl
  · refine h.wait ?_ ?_ hin ?_ ?_ <;>
      simp only [InMemoryState.upsertFunctionRun,trackPending,hin,hpending,incrementPending_add] <;>
      rfl
  · refine h.rewrite ?_ ?_ ?_ ?_ hsteady <;>
      simp [InMemoryState.upsertFunctionRun,trackPending,hin,hpending]

lemma Balanced.forget (hstored : s.functionRuns.lookup r.key = some r)
    (hv : s'.applicationVersions=s.applicationVersions)
    (hr : s'.functionRuns = s.functionRuns.erase r.key)
    (hu : s'.unallocatedFunctionRuns = s.unallocatedFunctionRuns.erase r.key)
    (hp : s'.pendingResources.functionRuns =
      if r.key∈s.unallocatedFunctionRuns then s.pendingResources.functionRuns.take (s.profile r)
      else s.pendingResources.functionRuns) : s'.Balanced := by
  have hkeyed : ∀ {k r'}, s'.functionRuns.lookup k = some r' → r'.key=k :=
    fun hr' => h.keyed (lookup_of_erase (hr ▸ hr')).2
  have hrest : ∀ k, k≠r.key → s'.profileOf k = s.profileOf k := by
    intro k hk
    unfold profileOf
    rw [hr,lookup_erase_if,if_neg hk,funext (profile_congr hv)]
  by_cases hin : r.key∈s.unallocatedFunctionRuns
  · have hself : s.profileOf r.key = s.profile r := by rw [profileOf,hstored,Option.bind_some]
    rw [if_pos hin,← hself] at hp
    exact h.leave hin hkeyed hrest hu hp
  rw [if_neg hin] at hp
  refine h.stay (hu.trans (erase_eq_of_notMem hin)) hp hkeyed fun k hk => ?_
  exact hrest k fun heq => hin (heq ▸ hk)

lemma Balanced.deleteFunctionRun (hstored : s.functionRuns.lookup r.key = some r) :
    (s.deleteFunctionRun r).Balanced := by
  refine h.forget hstored ?_ ?_ ?_ ?_ <;>
    simp only [InMemoryState.deleteFunctionRun,decide_eq_true_eq,decrementPending_take] <;>
    split_ifs <;> rfl

lemma Balanced.foldl_deleteFunctionRun {runs : List FunctionRun}
    (hstored : ∀ r∈runs, s.functionRuns.lookup r.key = some r)
    (hdistinct : (runs.map FunctionRun.key).Nodup) :
    (runs.foldl InMemoryState.deleteFunctionRun s).Balanced := by
  induction runs generalizing s with
  | nil => exact h
  | cons r runs ih =>
    obtain ⟨hnew,hrest⟩ := nodup_cons.mp hdistinct
    refine ih (h.deleteFunctionRun (hstored r mem_cons_self)) (fun r' hr' => ?_) hrest
    have hne : r'.key≠r.key := by
      intro he
      exact hnew (he ▸ mem_map_of_mem hr')
    obtain ⟨p,he⟩ := s.deleteFunctionRun_eq r
    rw [he,lookup_erase_if,if_neg hne]
    exact hstored r' (mem_cons_of_mem _ hr')

lemma Balanced.deleteRequest (ns app req : String) : (s.deleteRequest ns app req).Balanced := by
  obtain ⟨s',hs'⟩ : ∃ s', s' =
      {s with requestCtx := s.requestCtx.erase (RequestCtx.keyFrom ns app req)} := ⟨_,rfl⟩
  have h' : s'.Balanced := h.of_eq (by rw [hs']) (by rw [hs']) (by rw [hs']) (by rw [hs'])
  -- the runs of the scan are stored, each under its own key
  have hscan : ∀ {k r}, (s'.functionRuns.retain fun k _ =>
      (FunctionRun.keyPrefixForRequest ns app req).toList.isPrefixOf k.get.toList).lookup k =
        some r → s'.functionRuns.lookup k = some r ∧ r.key=k := by
    intro k r hr
    have hr' := (lookup_retain_eq_some _ _ _ _).mp hr
    exact ⟨hr'.1,h'.keyed hr'.1⟩
  unfold InMemoryState.deleteRequest
  rw [← hs']
  refine Balanced.of_eq (h'.foldl_deleteFunctionRun ?_ ?_) rfl rfl rfl rfl
  · intro r hr
    obtain ⟨k,hk⟩ := (mem_values_iff _ _).mp hr
    obtain ⟨hstored,rfl⟩ := hscan hk
    exact hstored
  · unfold functionRunsOfRequest
    rw [map_key_values fun hr => (hscan hr).2]
    exact AList.keys_nodup _

end

section
variable {s : InMemoryState}

lemma upsertFunctionRun_waiting (s : InMemoryState) (r : FunctionRun) :
    (s.upsertFunctionRun r).unallocatedFunctionRuns ⊆ insert r.key s.unallocatedFunctionRuns := by
  simp only [upsertFunctionRun,trackPending]
  split
  · rw [incrementPending_add]
  · rw [decrementPending_take]
    exact (erase_subset _ _).trans (subset_insert _ _)
  · exact subset_rfl
  · exact (erase_subset _ _).trans (subset_insert _ _)

lemma Steady.upsertFunctionRun {r r' : FunctionRun} (h : s.Steady r)
    (hsame : r'.key=r.key → s.profile r' = s.profile r) : (s.upsertFunctionRun r').Steady r := by
  obtain ⟨q,p,he⟩ := s.upsertFunctionRun_eq r'
  have hv : (s.upsertFunctionRun r').applicationVersions = s.applicationVersions := by rw [he]
  have hr : (s.upsertFunctionRun r').functionRuns = s.functionRuns.insert r'.key r' := by rw [he]
  intro hin
  rw [profile_congr hv,profileOf_insert hv hr]
  split_ifs with hk
  · exact (hsame hk.symm).symm
  · have hold := mem_insert.mp (s.upsertFunctionRun_waiting r' hin)
    exact h (hold.resolve_left hk)

/-- Written runs with one key have one profile. -/
def SameProfiles (s : InMemoryState) (runs : List FunctionRun) : Prop :=
  ∀ r∈runs, ∀ r'∈runs, r'.key=r.key → s.profile r' = s.profile r
  deriving Decidable

variable (h : s.Balanced)
include h

lemma Balanced.foldl_upsertFunctionRun {runs : List FunctionRun} (hsteady : ∀ r∈runs, s.Steady r)
    (hsame : s.SameProfiles runs) : (runs.foldl InMemoryState.upsertFunctionRun s).Balanced := by
  induction runs generalizing s with
  | nil => exact h
  | cons r runs ih =>
    obtain ⟨q,p,he⟩ := s.upsertFunctionRun_eq r
    have hv : (s.upsertFunctionRun r).applicationVersions = s.applicationVersions := by rw [he]
    refine ih (h.upsertFunctionRun (hsteady r mem_cons_self)) (fun r' hr' => ?_) ?_
    · exact (hsteady r' (mem_cons_of_mem _ hr')).upsertFunctionRun
        (hsame r' (mem_cons_of_mem _ hr') r mem_cons_self)
    intro r₁ h₁ r₂ h₂ hk
    rw [profile_congr hv,profile_congr hv]
    exact hsame r₁ (mem_cons_of_mem _ h₁) r₂ (mem_cons_of_mem _ h₂) hk

lemma Balanced.writeRequestState (e : Sigma fun _ : RequestCtxKey => RequestCtx) :
    (s.writeRequestState e).Balanced := by
  unfold InMemoryState.writeRequestState
  split_ifs
  · exact h.deleteRequest _ _ _
  · exact h.of_eq rfl rfl rfl rfl

lemma Balanced.applySchedulerUpdate {u : SchedulerUpdateRequest} (hsteady : ∀ r∈u.listedRuns, s.Steady r)
    (hsame : s.SameProfiles u.listedRuns) : (s.applySchedulerUpdate u).Balanced := by
  have hruns : (s.applyRuns u).Balanced :=
    @Trace.invariant _ _ _ Balanced (fun e hs => hs.writeRequestState e) _
      (h.foldl_upsertFunctionRun hsteady hsame) _
  obtain ⟨m,hm⟩ := s.applySchedulerUpdate_eq u
  rw [hm]
  exact hruns.of_eq rfl rfl rfl rfl

omit h

lemma Balanced.foldl_fresh {f : InMemoryState → FunctionRun → InMemoryState}
    (hf : ∀ {s r}, Balanced s → r.key∉s.unallocatedFunctionRuns → (f s r).Balanced)
    (hwait : ∀ s r, (f s r).unallocatedFunctionRuns ⊆ insert r.key s.unallocatedFunctionRuns)
    (h : s.Balanced) {runs : List FunctionRun} (hdistinct : (runs.map FunctionRun.key).Nodup)
    (hnew : ∀ r∈runs, r.key∉s.unallocatedFunctionRuns) : (runs.foldl f s).Balanced := by
  induction runs generalizing s with
  | nil => exact h
  | cons r runs ih =>
    obtain ⟨hr,hrest⟩ := nodup_cons.mp hdistinct
    refine ih (hf h (hnew r mem_cons_self)) hrest fun r' hr' hin => ?_
    rcases mem_insert.mp (hwait s r hin) with hk | hin
    · exact hr (hk ▸ mem_map_of_mem hr')
    · exact hnew r' (mem_cons_of_mem _ hr') hin

lemma Balanced.invokeApplication (h : s.Balanced) {ctx : RequestCtx}
    (hdistinct : (ctx.functionRuns.values.map FunctionRun.key).Nodup)
    (hnew : ∀ r∈ctx.functionRuns.values, r.key∉s.unallocatedFunctionRuns) :
    (s.invokeApplication ctx).Balanced := by
  refine Balanced.foldl_fresh ?_ ?_ ?_ hdistinct hnew
  · intro s r hs hr
    rw [incrementPending_add]
    exact hs.wait rfl rfl hr rfl rfl
  · intro s r
    rw [incrementPending_add]
  · exact h.of_eq rfl rfl rfl rfl

end

section
variable {s : InMemoryState}

lemma profileOf_replaceRun (s : InMemoryState) (r : FunctionRun) (k : FunctionRunKey) :
    (s.replaceRun r).profileOf k =
      if k=r.key ∧ r.key∈s.functionRuns then s.profile r else s.profileOf k := by
  change ((s.functionRuns.modify r.key fun _ => r).lookup k).bind s.profile = _
  rw [lookup_modify]
  by_cases hk : k=r.key
  · rw [if_pos hk]
    by_cases hin : r.key∈s.functionRuns
    · rw [if_pos ⟨hk,hin⟩]
      obtain ⟨old,hold⟩ := exists_of_mem hin
      rw [hold]
      rfl
    · rw [if_neg fun h => hin h.2,profileOf,hk,AList.lookup_eq_none.mpr hin]
      rfl
  · rw [if_neg hk,if_neg fun h => hk h.1]
    rfl

lemma mem_replaceRun (s : InMemoryState) (r : FunctionRun) (k : FunctionRunKey) :
    k ∈ (s.replaceRun r).functionRuns ↔ k∈s.functionRuns := by
  rw [← AList.lookup_isSome,← AList.lookup_isSome]
  change ((s.functionRuns.modify r.key fun _ => r).lookup k).isSome ↔ _
  rw [lookup_modify]
  split_ifs with hk
  · rw [Option.isSome_map,hk]
  · rfl

variable (h : s.Balanced)
include h

lemma Balanced.replaceRun {r : FunctionRun} (hsteady : r.key∈s.functionRuns → s.Steady r) :
    (s.replaceRun r).Balanced ∧
      ∀ k∈s.unallocatedFunctionRuns, (s.replaceRun r).profileOf k = s.profileOf k := by
  have hsame : ∀ k∈s.unallocatedFunctionRuns, (s.replaceRun r).profileOf k = s.profileOf k := by
    intro k hk
    rw [profileOf_replaceRun]
    split_ifs with he
    · obtain ⟨rfl,hin⟩ := he
      exact hsteady hin hk
    · rfl
  refine ⟨h.stay rfl rfl ?_ hsame,hsame⟩
  intro k r' hr'
  change (s.functionRuns.modify r.key fun _ => r).lookup k = some r' at hr'
  rw [lookup_modify] at hr'
  split_ifs at hr' with hk
  · obtain ⟨old,-,rfl⟩ := Option.map_eq_some_iff.mp hr'
    exact hk.symm
  · exact h.keyed hr'

lemma Balanced.foldl_replaceRun {runs : List FunctionRun}
    (hsteady : ∀ r∈runs, r.key∈s.functionRuns → s.Steady r) :
    (runs.foldl InMemoryState.replaceRun s).Balanced := by
  induction runs generalizing s with
  | nil => exact h
  | cons r runs ih =>
    obtain ⟨hr,hsame⟩ := h.replaceRun (hsteady r mem_cons_self)
    refine ih hr fun r' hr' hin hwait => ?_
    have hold := hsteady r' (mem_cons_of_mem _ hr') ((s.mem_replaceRun r _).mp hin) hwait
    exact hold.trans (hsame r'.key hwait).symm

def upgradedRuns (s : InMemoryState) («namespace» application version : String) : List FunctionRun :=
  (s.requestsOfApplication «namespace» application).flatMap fun ctx =>
    ctx.functionRuns.values.map fun r => r.inVersion version

lemma Balanced.upgradeRequests {ns app version : String}
    (hsteady : ∀ r ∈ s.upgradedRuns ns app version, r.key∈s.functionRuns → s.Steady r) :
    (s.upgradeRequests ns app version).Balanced := by
  have hfold : ((s.requestsOfApplication ns app).foldl
      (fun s ctx => s.replaceRuns version ctx) s).Balanced := by
    have hruns := h.foldl_replaceRun hsteady
    rwa [upgradedRuns,foldl_flatMap] at hruns
  exact @Trace.invariant _ _ putRequest Balanced (fun _ hs => hs.of_eq rfl rfl rfl rfl) _ hfold _

/-- A new or redefined version leaves the profile of every waiting run as it is, and an upgrade
moves waiting runs to the same profile. -/
def KeepsProfiles (s : InMemoryState) (req : CreateOrUpdateApplicationRequest) : Prop :=
  let s' := s.putVersion req.application
  (∀ k∈s.unallocatedFunctionRuns, s'.profileOf k = s.profileOf k) ∧
    (req.upgradeRequestsToCurrentVersion=true →
      ∀ r ∈ s.upgradedRuns req.namespace req.application.name req.application.version,
        r.key ∈ s.functionRuns → s'.Steady r)
  deriving Decidable

lemma Balanced.createOrUpdateApplication {req : CreateOrUpdateApplicationRequest}
    (hkeeps : s.KeepsProfiles req) : (s.createOrUpdateApplication req).Balanced := by
  have hput : (s.putVersion req.application).Balanced := h.stay rfl rfl h.keyed hkeeps.1
  unfold InMemoryState.createOrUpdateApplication
  split_ifs with hup
  · exact hput.upgradeRequests (hkeeps.2 hup)
  · exact hput

omit h
end

section
variable {s : InMemoryState} {ns : String}

def inRequest («namespace» application requestId : String) (k : FunctionRunKey) : Bool :=
  (FunctionRun.keyPrefixForRequest «namespace» application requestId).toList.isPrefixOf k.get.toList

lemma deleteRequest_waiting (s : InMemoryState) (ns app req : String) :
    (s.deleteRequest ns app req).unallocatedFunctionRuns ⊆ s.unallocatedFunctionRuns := by
  obtain ⟨p,he⟩ := s.deleteRequest_eq ns app req
  rw [he]
  exact sdiff_subset

lemma Balanced.notInRequest (h : s.Balanced) {app req : String} {k : FunctionRunKey}
    {r : FunctionRun} (hr : (s.deleteRequest ns app req).functionRuns.lookup k = some r) :
    inRequest ns app req k = false := by
  by_contra hin
  rw [Bool.not_eq_false] at hin
  have hstored := lookup_of_lookup_deleteRequest hr
  obtain rfl := h.keyed hstored
  have hmem : r ∈ s.functionRunsOfRequest ns app req :=
    (mem_values_iff _ _).mpr ⟨r.key,(lookup_retain_eq_some _ _ _ _).mpr ⟨hstored,hin⟩⟩
  obtain ⟨p,he⟩ := s.deleteRequest_eq ns app req
  rw [he] at hr
  cases hr.symm.trans (lookup_foldl_erase_of_mem hmem)

lemma Balanced.foldl_deleteRequest (h : s.Balanced) (ns app : String) (ids : List String) :
    (ids.foldl (fun s id => s.deleteRequest ns app id) s).Balanced ∧
      (ids.foldl (fun s id => s.deleteRequest ns app id) s).applicationVersions = s.applicationVersions ∧
      (ids.foldl (fun s id => s.deleteRequest ns app id) s).unallocatedFunctionRuns ⊆
        s.unallocatedFunctionRuns ∧
      ∀ {k r}, (ids.foldl (fun s id => s.deleteRequest ns app id) s).functionRuns.lookup k =
        some r → s.functionRuns.lookup k = some r ∧ ∀ id∈ids, inRequest ns app id k = false := by
  induction ids generalizing s with
  | nil => exact ⟨h,rfl,subset_rfl,fun hr => ⟨hr,by simp⟩⟩
  | cons id ids ih =>
    obtain ⟨hbal,hv,hwait,hleft⟩ := ih (h.deleteRequest ns app id)
    refine ⟨hbal,?_,hwait.trans (s.deleteRequest_waiting ns app id),fun hr => ?_⟩
    · obtain ⟨p,he⟩ := s.deleteRequest_eq ns app id
      rw [foldl_cons,hv,he]
    obtain ⟨hr',hids⟩ := hleft hr
    refine ⟨lookup_of_lookup_deleteRequest hr',fun id' hid' => ?_⟩
    rcases mem_cons.mp hid' with rfl | hid'
    · exact h.notInRequest hr'
    · exact hids id' hid'

def inApplication («namespace» name : String) (r : FunctionRun) : Bool :=
  (ApplicationVersion.keyPrefixFrom «namespace» name).toList.isPrefixOf
    (r.keyApplicationVersion r.application).toList

/-- A waiting run whose version goes belongs to a request that goes. -/
def CoversRuns (s : InMemoryState) («namespace» name : String) : Prop :=
  ∀ k∈s.unallocatedFunctionRuns, ∀ r ∈ s.functionRuns.lookup k,
    inApplication «namespace» name r = true → ∃ ctx ∈ s.requestsOfApplication «namespace» name,
        inRequest «namespace» name ctx.requestId k = true
  deriving Decidable

lemma profile_dropVersions {name : String} {r : FunctionRun}
    (hr : inApplication ns name r = false) : (s.dropVersions ns name).profile r = s.profile r := by
  have hlookup : (s.dropVersions ns name).getExistingApplicationVersion r =
      s.getExistingApplicationVersion r := by
    refine lookup_retain_of_pos fun _ _ => ?_
    unfold inApplication at hr
    rw [hr]
    rfl
  simp only [profile,getFunction,hlookup]

lemma Balanced.deleteApplication (h : s.Balanced) {name : String}
    (hcovers : s.CoversRuns ns name) : (s.deleteApplication ns name).Balanced := by
  obtain ⟨s',hs'⟩ : ∃ s', s' =
      {s with applications := s.applications.erase (Application.keyFrom ns name)} := ⟨_,rfl⟩
  have h' : s'.Balanced := h.of_eq (by rw [hs']) (by rw [hs']) (by rw [hs']) (by rw [hs'])
  have hcovers' : s'.CoversRuns ns name := by
    rw [hs']
    exact hcovers
  obtain ⟨hbal,-,hwait,hleft⟩ := h'.foldl_deleteRequest ns name
    ((s'.requestsOfApplication ns name).map fun ctx => ctx.requestId)
  unfold InMemoryState.deleteApplication
  rw [← hs']
  have hids : s.requestsOfApplication ns name = s'.requestsOfApplication ns name := by
    rw [hs']
    rfl
  rw [hids]
  refine hbal.stay rfl rfl hbal.keyed fun k hk => ?_
  refine Option.bind_congr fun r hr => profile_dropVersions ?_
  -- a run of the application would have gone with its request
  obtain ⟨hstored,hnone⟩ := hleft hr
  by_contra hin
  rw [Bool.not_eq_false] at hin
  obtain ⟨ctx,hctx,hk'⟩ := hcovers' k (hwait hk) r hstored hin
  have hfalse := hnone ctx.requestId (mem_map_of_mem hctx)
  rw [hk'] at hfalse
  cases hfalse

end

section

lemma loadAllocation_eq (s : InMemoryState) (a : Allocation) :
    ∃ m, s.loadAllocation a = {s with allocationsByExecutor := m} := by
  unfold loadAllocation
  split_ifs
  · exact ⟨s.allocationsByExecutor,rfl⟩
  · exact ⟨_,rfl⟩

lemma Balanced.loadRun {s : InMemoryState} {r : FunctionRun} (h : s.Balanced)
    (hr : r.key∉s.unallocatedFunctionRuns) : (s.loadRun r).Balanced := by
  unfold InMemoryState.loadRun
  split_ifs
  · rw [incrementPending_add]
    exact h.wait rfl rfl hr rfl rfl
  · exact h.rewrite rfl rfl rfl rfl fun hin => absurd hin hr

lemma loadRun_waiting (s : InMemoryState) (r : FunctionRun) :
    (s.loadRun r).unallocatedFunctionRuns ⊆ insert r.key s.unallocatedFunctionRuns := by
  unfold loadRun
  split_ifs
  · rw [incrementPending_add]
  · exact subset_insert _ _

lemma Balanced.new {applications : Dict String Application} {versions : Dict String ApplicationVersion}
    {requests : Dict RequestCtxKey RequestCtx} {allocations : List Allocation}
    (hrows : ((requests.values.flatMap fun ctx => ctx.functionRuns.values).map FunctionRun.key).Nodup) :
    (InMemoryState.new applications versions requests allocations).Balanced := by
  obtain ⟨s,hs⟩ : ∃ s : InMemoryState, s =
      {applications := applications, applicationVersions := versions, requestCtx := requests} :=
    ⟨_,rfl⟩
  have h : s.Balanced := by
    rw [hs]
    exact ⟨fun hr => (by cases hr),Tally.tallies_empty _⟩
  have hload := @Trace.invariant _ _ loadAllocation
    (fun t => t.Balanced ∧ t.unallocatedFunctionRuns=s.unallocatedFunctionRuns)
    (fun {t} a ht => by
      obtain ⟨m,hm⟩ := t.loadAllocation_eq a
      rw [hm]
      exact ⟨ht.1.of_eq rfl rfl rfl rfl,ht.2⟩) s ⟨h,rfl⟩ allocations
  unfold InMemoryState.new
  rw [← hs]
  refine Balanced.foldl_fresh Balanced.loadRun loadRun_waiting hload.1 hrows fun r _ => ?_
  rw [hload.2,hs]
  exact notMem_empty _

end

/-- What reaches the in-memory state: a payload, or the allocations an executor reports as
ended. -/
inductive Event
  | payload (p : Payload)
  | ended (executorId : ExecutorId) (allocations : List (ContainerId × AllocationId))

def step (s : InMemoryState) : Event → InMemoryState
  | .payload p => s.updateState p
  | .ended executorId allocations => allocations.foldl (removeAllocation executorId) s

/-- No waiting run changes its profile in the step, and runs are new or known as the payload
treats them. -/
def Allowed (s : InMemoryState) : Event → Prop
  | .payload (.invokeApplication ctx) => (ctx.functionRuns.values.map FunctionRun.key).Nodup ∧
      ∀ r∈ctx.functionRuns.values, r.key∉s.unallocatedFunctionRuns
  | .payload (.createOrUpdateApplication req) => s.KeepsProfiles req
  | .payload (.deleteApplication ns name) => s.CoversRuns ns name
  | .payload (.schedulerUpdate u) =>
    (∀ r∈u.listedRuns, s.Steady r) ∧ s.SameProfiles u.listedRuns
  | _ => True

instance (s : InMemoryState) (e : Event) : Decidable (s.Allowed e) := by
  unfold Allowed
  split <;> infer_instance

lemma Balanced.step {s : InMemoryState} (h : s.Balanced) {e : Event} (hok : s.Allowed e) :
    (s.step e).Balanced := by
  cases e with
  | payload p =>
    cases p with
    | invokeApplication ctx => exact h.invokeApplication hok.1 hok.2
    | createOrUpdateApplication req => exact h.createOrUpdateApplication hok
    | deleteApplication ns name => exact h.deleteApplication hok
    | deleteRequest ns app id => exact h.deleteRequest ns app id
    | schedulerUpdate u => exact h.applySchedulerUpdate hok.1 hok.2
    | _ => exact h
  | ended executorId allocations =>
    exact @Trace.invariant _ _ (removeAllocation executorId) Balanced
      (fun _ hs => hs.of_eq rfl rfl rfl rfl) _ h _

/-- In every state of a run whose steps keep the profiles of waiting runs, the histogram holds for
each profile the number of unallocated runs that have it. -/
theorem run_pendingResources_recount {applications : Dict String Application}
    {versions : Dict String ApplicationVersion} {requests : Dict RequestCtxKey RequestCtx}
    {allocations : List Allocation}
    (hrows : ((requests.values.flatMap fun ctx => ctx.functionRuns.values).map FunctionRun.key).Nodup)
    (events : List Event)
    (h : Trace.Along step Allowed (InMemoryState.new applications versions requests allocations) events) :
    let s := events.foldl step (InMemoryState.new applications versions requests allocations)
    Tally.Tallies s.pendingResources.functionRuns s.unallocatedFunctionRuns s.profileOf :=
  (@Trace.Along.invariant _ _ step Allowed Balanced (fun hs hok => hs.step hok) _ _
    (Balanced.new hrows) h).tally

/-! A request that waits, and an application that is redefined while it does. -/

variable (version : String)

def answerApplication (memoryMb : ℕ) : Application where
  «namespace» := "default"
  name := "app"
  version := version
  functions := AList.insert "answer" ⟨"answer",[],none,1000,⟨1000,memoryMb,1024,[]⟩,⟨0⟩,1⟩ ∅
  state := .active

def answerRun (status : FunctionRunStatus) : FunctionRun where
  id := ⟨"call-1"⟩
  requestId := "request-1"
  «namespace» := "default"
  application := "app"
  version := version
  name := "answer"
  computeOp := .functionCall ⟨⟨"call-1"⟩,[],"answer",[],none⟩
  inputArgs := []
  childFunctionCall := none
  output := none
  status := status
  outcome := none
  attemptNumber := 0
  callMetadata := []
  requestError := none

def answerRequest (status : FunctionRunStatus) : RequestCtx where
  «namespace» := "default"
  applicationName := "app"
  applicationVersion := version
  requestId := "request-1"
  outcome := none
  requestError := none
  functionRuns := AList.insert ⟨"call-1"⟩ (answerRun version status) ∅
  functionCalls := ∅

def answerProfile (memoryMb : ℕ) : ResourceProfile := ⟨1000,memoryMb,1024,0,none,[]⟩

def answerStart : SchedulerUpdateRequest :=
  let r := SchedulerUpdateRequest.addFunctionRun {} (answerRun version (.running ⟨"alloc-1"⟩))
    (answerRequest version .pending)
  r.1.addRequestState r.2

def putAnswer (memoryMb : ℕ) (upgrade : Bool) : Event :=
  .payload (.createOrUpdateApplication ⟨"default",answerApplication version memoryMb,upgrade,[]⟩)

def runAnswer (events : List Event) : InMemoryState :=
  events.foldl step (InMemoryState.new ∅ ∅ ∅ [])

def lateUpgrade : List Event :=
  [putAnswer "1" 256 false,.payload (.invokeApplication (answerRequest "1" .pending)),
    .payload (.schedulerUpdate (answerStart "1")),putAnswer "2" 512 true]

def earlyUpgrade : List Event :=
  [putAnswer "1" 256 false,.payload (.invokeApplication (answerRequest "1" .pending)),
    putAnswer "2" 512 true]

def redefinition : List Event :=
  [putAnswer "1" 256 false,.payload (.invokeApplication (answerRequest "1" .pending)),
    putAnswer "1" 512 false]

theorem lateUpgrade_recount :
    let s := runAnswer (lateUpgrade.take 2)
    let t := runAnswer lateUpgrade
    s.pendingResources.functionRuns.lookup (answerProfile 256) = some 1 ∧
      t.applicationVersions.keys = ["default|app|2","default|app|1"] ∧
      Tally.Tallies s.pendingResources.functionRuns s.unallocatedFunctionRuns s.profileOf ∧
      Tally.Tallies t.pendingResources.functionRuns t.unallocatedFunctionRuns t.profileOf :=
  ⟨by decide +kernel,by decide +kernel,
    run_pendingResources_recount (by decide) (lateUpgrade.take 2) (by decide +kernel),
    run_pendingResources_recount (by decide) lateUpgrade (by decide +kernel)⟩

/-- The histogram keeps the profile the run had when it was counted, also after the run has
started and nothing waits. -/
theorem earlyUpgrade_keeps_old_profile :
    let s := runAnswer earlyUpgrade
    let t := runAnswer redefinition
    let u := s.step (.payload (.schedulerUpdate (answerStart "2")))
    s.profileOf (answerRun "2" .pending).key = some (answerProfile 512) ∧
      s.pendingResources.functionRuns.lookup (answerProfile 256) = some 1 ∧
      ¬ Tally.Tallies s.pendingResources.functionRuns s.unallocatedFunctionRuns s.profileOf ∧
      ¬ Tally.Tallies t.pendingResources.functionRuns t.unallocatedFunctionRuns t.profileOf ∧
      u.unallocatedFunctionRuns = ∅ ∧
      u.pendingResources.functionRuns.lookup (answerProfile 256) = some 1 := by
  refine ⟨by decide +kernel,by decide +kernel,fun h => ?_,fun h => ?_,by decide +kernel,by decide +kernel⟩
  · exact absurd (h (answerProfile 512)) (by decide +kernel)
  · exact absurd (h (answerProfile 512)) (by decide +kernel)

end InMemoryState
end Indexify
