import Indexify.Processor.PoolPersistence
import Indexify.StateStore.RequestDeletion

/-! What the deletion of an application leaves alone. The store finds requests, versions and pools
by the first characters of their keys, the scheduler finds pools by those of their ids: it is a
matter of the names whether another application keeps its records. -/
namespace Indexify
open Dict List PoolStore

/-- The records of applications, in the store and in the scheduler. -/
structure ApplicationRecords where
  rows : PayloadRows
  versions : Dict String ApplicationVersion
  pools : PoolState

namespace PayloadRows
variable {s : PayloadRows}

variable (h : s.Keyed)
include h

lemma lookup_deleteApplication {ns name : String} {k : RequestCtxKey}
    (hk : ¬(RequestCtx.keyPrefixForApplication ns name).toList <+: k.get.toList) :
    (s.deleteApplication ns name).requestCtxs.lookup k = s.requestCtxs.lookup k := by
  have hloop : ∀ (rows : List RequestRow) (t : PayloadRows), (∀ row∈rows, row.key≠k) →
      (rows.foldl deleteRow t).requestCtxs.lookup k = t.requestCtxs.lookup k := by
    intro rows
    induction rows with
    | nil => exact fun t _ => rfl
    | cons row rows ih =>
      intro t hrows
      refine (ih _ fun row' h' => hrows row' (mem_cons_of_mem _ h')).trans ?_
      unfold deleteRow deleteRequest
      split_ifs
      · exact AList.lookup_erase_ne (hrows row mem_cons_self).symm
      · rfl
  refine hloop _ (s.deleteCronSchedules ns name) fun row hrow hkey => hk ?_
  obtain ⟨k',hk'⟩ := (mem_values_iff _ _).mp hrow
  obtain ⟨hstored,hin⟩ := (lookup_retain_eq_some _ _ _ _).mp hk'
  rw [← hkey,h k' row hstored]
  exact isPrefixOf_iff_prefix.mp hin

omit h
end PayloadRows

namespace ApplicationRecords
open PoolState
section
variable [HashOrder ContainerId]

def deleteApplication (s : ApplicationRecords) («namespace» name : String) : ApplicationRecords where
  rows := s.rows.deleteApplication «namespace» name
  versions := s.versions.retain fun k _ =>
    !(ApplicationVersion.keyPrefixFrom «namespace» name).toList.isPrefixOf k.toList
  pools := s.pools.step (.payload (.deleteApplication «namespace» name))

end

/-- The application has the same requests, versions and pools. -/
structure Untouched (s s' : ApplicationRecords) (ns app : String) : Prop where
  request : ∀ id, s'.rows.requestCtxs.lookup (RequestCtx.keyFrom ns app id) =
    s.rows.requestCtxs.lookup (RequestCtx.keyFrom ns app id)
  version : ∀ v, s'.versions.lookup (ApplicationVersion.keyFrom ns app v) =
    s.versions.lookup (ApplicationVersion.keyFrom ns app v)
  stored : ∀ fn v, s'.pools.store.functionPools.lookup
      (ContainerPoolKey.key ⟨ns,.forFunction app fn v⟩) =
    s.pools.store.functionPools.lookup (ContainerPoolKey.key ⟨ns,.forFunction app fn v⟩)
  held : ∀ fn v, s'.pools.scheduler.functionPools.lookup ⟨ns,.forFunction app fn v⟩ =
    s.pools.scheduler.functionPools.lookup ⟨ns,.forFunction app fn v⟩

/-- One of two applications has the keys of the other in its range. -/
def Clash (ns name ns' app : String) : Prop :=
  (poolKeyPrefix ns name).toList <+: (poolKeyPrefix ns' app).toList ∨
    (poolKeyPrefix ns' app).toList <+: (poolKeyPrefix ns name).toList

variable {ns name ns' app : String}

lemma clash_iff_exists : Clash ns name ns' app ↔ ∃ rest, (poolKeyPrefix ns name).toList <+:
    (poolKeyPrefix ns' app).toList++rest := by
  constructor
  · rintro (h | ⟨rest,h⟩)
    · exact ⟨[],by simpa using h⟩
    · exact ⟨rest,by rw [h]⟩
  · rintro ⟨rest,h⟩
    exact prefix_or_prefix_of_prefix h (prefix_append _ rest)

lemma clash_iff_of_plain (hns : Plain ns) (hname : Plain name) (hns' : Plain ns')
    (happ : Plain app) : Clash ns name ns' app ↔ ns'=ns ∧ app=name := by
  have hsplit : ∀ ns app : String, (poolKeyPrefix ns app).toList =
      ns.toList++ '|'::(app.toList++ '|'::[]) := by
    simp [poolKeyPrefix]
  rw [Clash,hsplit,hsplit,Separator.append_cons_prefix_iff hns hns',
    Separator.append_cons_prefix_iff hname happ,Separator.append_cons_prefix_iff hns' hns,
    Separator.append_cons_prefix_iff happ hname]
  simp only [prefix_rfl,and_true,String.toList_inj]
  tauto

lemma untouched_of_not_clash [HashOrder ContainerId] {s : ApplicationRecords} (hs : s.rows.Keyed)
    (h : ¬Clash ns name ns' app) : Untouched s (s.deleteApplication ns name) ns' app := by
  have hout : ∀ {key rest : List Char}, key = (poolKeyPrefix ns' app).toList++rest →
      ¬(poolKeyPrefix ns name).toList <+: key := by
    rintro _ rest rfl hp
    exact h (clash_iff_exists.mpr ⟨rest,hp⟩)
  have hversion : ∀ v, (ApplicationVersion.keyFrom ns' app v).toList =
      (poolKeyPrefix ns' app).toList++v.toList := by
    simp [ApplicationVersion.keyFrom,poolKeyPrefix]
  have hpool : ∀ fn v, (ContainerPoolKey.key ⟨ns',.forFunction app fn v⟩).toList =
      (poolKeyPrefix ns' app).toList++(fn++"|"++v).toList := by
    simp [ContainerPoolKey.key,ContainerPoolId.forFunction,poolKeyPrefix]
  refine ⟨fun id => PayloadRows.lookup_deleteApplication hs (hout (hversion id)),fun v => ?_,
    fun fn v => ?_,fun fn v => ?_⟩
  · refine lookup_retain_of_pos fun _ _ => ?_
    rw [Bool.not_eq_true',Bool.eq_false_iff,Ne,List.isPrefixOf_iff_prefix]
    exact hout (hversion v)
  · refine lookup_retain_of_pos fun _ _ => ?_
    rw [Bool.not_eq_true',Bool.eq_false_iff,Ne,startsWith,List.isPrefixOf_iff_prefix]
    exact hout (hpool fn v)
  · change (s.pools.scheduler.updateWithIntents _).1.functionPools.lookup _ = _
    rw [functionPools_updateWithIntents]
    refine (lookup_foldl_erase id _ _ _).trans (if_neg ?_)
    rintro ⟨_,hmem,rfl⟩
    have hof := (mem_filter.mp hmem).2
    rw [ContainerScheduler.isPoolOf,Bool.and_eq_true,List.isPrefixOf_iff_prefix] at hof
    obtain ⟨hns,hpre⟩ := hof
    obtain rfl : ns'=ns := of_decide_eq_true hns
    exact hout (hpool fn v) (by simpa [poolKeyPrefix,ContainerPoolKey.key] using hpre)

/-- Whatever was written before, the deletion of an application leaves the records of another one
alone exactly when the names do not clash, and names without the separator clash only with
themselves. -/
theorem deleteApplication_frame_iff [HashOrder ContainerId] (ns name ns' app : String) :
    ((∀ (ws : List PayloadWrite) (versions : Dict String ApplicationVersion) (pools : PoolState),
      let s : ApplicationRecords := ⟨PayloadRows.empty.run ws,versions,pools⟩
      Untouched s (s.deleteApplication ns name) ns' app) ↔ ¬Clash ns name ns' app) ∧
    (Plain ns → Plain name → Plain ns' → Plain app → (Clash ns name ns' app ↔ ns'=ns ∧ app=name)) := by
  refine ⟨⟨fun hall hclash => ?_,fun h ws versions pools => ?_⟩,clash_iff_of_plain⟩
  · obtain ⟨rest,hrest⟩ := clash_iff_exists.mp hclash
    let version : ApplicationVersion := ⟨ns',app,String.ofList rest,∅,.active⟩
    have hkept := (hall [] ((∅ : Dict String ApplicationVersion).insert version.key version)
      {}).version (String.ofList rest)
    have hkey : (ApplicationVersion.keyFrom ns' app (String.ofList rest)).toList =
        (poolKeyPrefix ns' app).toList++rest := by
      simp [ApplicationVersion.keyFrom,poolKeyPrefix]
    have hgone := ((lookup_retain_eq_some _ _ _ _).mp
      (hkept.trans (AList.lookup_insert _))).2
    rw [← hkey] at hrest
    rw [Bool.not_eq_true',Bool.eq_false_iff] at hgone
    exact hgone (List.isPrefixOf_iff_prefix.mpr hrest)
  · exact untouched_of_not_clash (@Trace.invariant _ _ PayloadRows.step PayloadRows.Keyed
      (fun w h => h.step w) _ (by rintro _ _ ⟨⟩) ws) h

section

def oneRequest (app : String) : ApplicationRecords :=
  ⟨PayloadRows.empty.run [.createRequest ⟨"default",app,"r"⟩ []],∅,{}⟩

attribute [local instance] HashOrder.ascending

def requestKept (deleted app : String) : Bool :=
  RequestCtx.keyFrom "default" app "r" ∈
    (deleteApplication (oneRequest app) "default" deleted).rows.requestCtxs

theorem longer_name_untouched :
    ¬Clash "default" "etl" "default" "etl-daily" ∧ Untouched (oneRequest "etl-daily")
      (deleteApplication (oneRequest "etl-daily") "default" "etl")
      "default" "etl-daily" := by
  have hclash : ¬Clash "default" "etl" "default" "etl-daily" := by
    unfold Clash
    decide
  exact ⟨hclash,(deleteApplication_frame_iff "default" "etl" "default"
    "etl-daily").1.mpr hclash _ _ _⟩

/-- The requests of `etl|daily` go with those of `etl`. -/
theorem separator_in_name_deletes :
    requestKept "etl" "etl-daily" = true ∧ requestKept "etl" "etl|daily" = false := by
  decide +kernel

end
end ApplicationRecords
end Indexify
