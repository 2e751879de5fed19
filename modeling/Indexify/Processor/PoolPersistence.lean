import Indexify.Library.Separator
import Indexify.Processor.SchedulerFrame

/-! Container pools in the store and in the scheduler. Both replace the pools of an application by
those of its last update, each with its own rule, and a restart loads what the store has. -/
namespace Indexify
open List Dict ContainerScheduler

def ContainerPoolKey.key (k : ContainerPoolKey) : String := k.namespace++"|"++k.poolId.get

/-- The pool columns of the store. A sandbox pool is stored with the mark of a deletion under
way. -/
structure PoolStore where
  functionPools : Dict String ContainerPool := ∅
  sandboxPools : Dict String (ContainerPool × Bool) := ∅

namespace PoolStore

def upsertContainerPool (db : PoolStore) (pool : ContainerPool) (tombstoned : Bool) : PoolStore :=
  if pool.isFunctionPool then
    {db with functionPools := db.functionPools.insert pool.key.key pool}
  else {db with sandboxPools := db.sandboxPools.insert pool.key.key (pool,tombstoned)}

/-- Both columns are tried. -/
def deleteContainerPool (db : PoolStore) («namespace» : String) (poolId : ContainerPoolId) : PoolStore :=
  {db with
    functionPools := db.functionPools.erase («namespace»++"|"++poolId.get)
    sandboxPools := db.sandboxPools.erase («namespace»++"|"++poolId.get)}

def startsWith (keyPrefix key : String) : Bool := keyPrefix.toList.isPrefixOf key.toList

def deleteFunctionPoolsByPrefix (db : PoolStore) (keyPrefix : String) : PoolStore :=
  {db with functionPools := db.functionPools.retain fun k _ => !startsWith keyPrefix k}

def getSandboxPool (db : PoolStore) («namespace» : String) (poolId : ContainerPoolId) :
    Option ContainerPool :=
  (db.sandboxPools.lookup («namespace»++"|"++poolId.get)).bind fun row =>
    if row.2 then none else some row.1

def poolKeyPrefix («namespace» application : String) : String :=
  «namespace»++"|"++application++"|"

def write (db : PoolStore) : Payload → PoolStore
  | .createOrUpdateApplication req =>
    -- the pools of the application go also when the request has none
    req.containerPools.foldl (fun db pool => db.upsertContainerPool pool false)
      (db.deleteFunctionPoolsByPrefix
        (poolKeyPrefix req.application.namespace req.application.name))
  | .deleteApplication ns name => db.deleteFunctionPoolsByPrefix (poolKeyPrefix ns name)
  | .createContainerPool pool => db.upsertContainerPool pool false
  | .updateContainerPool pool => db.upsertContainerPool pool false
  | .tombstoneContainerPool ns poolId =>
    match db.getSandboxPool ns poolId with
    | some pool => db.upsertContainerPool pool true
    | none => db
  | .deleteContainerPool ns poolId => db.deleteContainerPool ns poolId
  | _ => db

end PoolStore

/-- The scheduler that a restart builds from the pool columns. -/
def ContainerScheduler.load (db : PoolStore) : ContainerScheduler :=
  .new (insertAll ContainerPool.key ∅
      (db.functionPools.values.map fun pool => {pool with poolType := .function}))
    (insertAll ContainerPool.key ∅
      (db.sandboxPools.values.map fun row => {row.1 with poolType := .sandbox}))

structure PoolState where
  store : PoolStore := {}
  scheduler : ContainerScheduler := {}

namespace PoolState

inductive Event
  | payload (p : Payload)
  | restart

section
variable [HashOrder ContainerId]

def step (s : PoolState) : Event → PoolState
  | .payload p => ⟨s.store.write p,(s.scheduler.updateWithIntents p).1⟩
  | .restart => ⟨s.store,.load s.store⟩

end

/-- The name can be told from what follows it in a key. -/
def Plain («namespace» : String) : Prop := '|' ∉ «namespace».toList
  deriving Decidable

lemma key_inj {k k' : ContainerPoolKey} (hk : Plain k.namespace) (hk' : Plain k'.namespace) :
    k.key = k'.key ↔ k=k' := by
  obtain ⟨ns,⟨id⟩⟩ := k
  obtain ⟨ns',⟨id'⟩⟩ := k'
  rw [ContainerPoolKey.key,ContainerPoolKey.key,← String.toList_inj]
  have h : ns.toList++ '|'::id.toList = ns'.toList++ '|'::id'.toList ↔ _ :=
    Separator.append_cons_inj_iff hk hk'
  simpa [String.toList_inj] using h

lemma startsWith_iff {ns app : String} {k : ContainerPoolKey} (hns : Plain ns)
    (hk : Plain k.namespace) : PoolStore.startsWith (PoolStore.poolKeyPrefix ns app) k.key =
      isPoolOf ns app k := by
  have h : ns.toList++ '|'::(app++"|").toList <+: k.namespace.toList++ '|'::k.poolId.get.toList ↔ _ :=
    Separator.append_cons_prefix_iff hns hk
  rw [Bool.eq_iff_iff,PoolStore.startsWith,isPoolOf,List.isPrefixOf_iff_prefix,
    Bool.and_eq_true,List.isPrefixOf_iff_prefix]
  simp only [PoolStore.poolKeyPrefix,ContainerPoolKey.key]
  simpa [String.toList_inj,eq_comm] using h

/-- Rows of the store and pools in memory are the same function pools. -/
structure Mirrored (rows : Dict String ContainerPool) (held : Dict ContainerPoolKey ContainerPool) :
    Prop where
  row : ∀ {k p}, rows.lookup k = some p → p.key.key=k ∧ p.isFunctionPool=true ∧ Plain p.namespace
  pool : ∀ {k p}, held.lookup k = some p → p.key=k ∧ Plain k.namespace
  same : ∀ {k}, Plain k.namespace → held.lookup k = rows.lookup k.key

section
variable {rows : Dict String ContainerPool} {held : Dict ContainerPoolKey ContainerPool}

lemma mirrored_empty : Mirrored ∅ ∅ where
  row h := by cases h
  pool h := by cases h
  same _ := rfl

variable (h : Mirrored rows held)
include h

lemma Mirrored.insert {pool : ContainerPool}
    (hpool : pool.isFunctionPool=true) (hns : Plain pool.namespace) :
    Mirrored (rows.insert pool.key.key pool) (held.insert pool.key pool) where
  row := of_lookup_insert h.row ⟨rfl,hpool,hns⟩
  pool := of_lookup_insert h.pool ⟨rfl,hns⟩
  same {k} hk := by
    rw [lookup_insert_if,lookup_insert_if,h.same hk]
    simp only [key_inj hk (show Plain pool.key.namespace from hns)]

lemma Mirrored.removeOf {ns : String} (app : String) (hns : Plain ns) :
    Mirrored (rows.retain fun k _ => !PoolStore.startsWith (PoolStore.poolKeyPrefix ns app) k)
      ((held.keys.filter (isPoolOf ns app)).foldl (fun m k => m.erase k)
        held) := by
  have hheld : ∀ k, ((held.keys.filter (isPoolOf ns app)).foldl
      (fun m k => m.erase k) held).lookup k = if isPoolOf ns app k = true then none else held.lookup k := by
    intro k
    refine (lookup_foldl_erase (fun k => k) held _ k).trans ?_
    by_cases hof : isPoolOf ns app k = true
    · split_ifs with hin
      · rfl
      -- a pool of the application that is not erased was not there
      by_contra hne
      have hmem : k∈held.keys :=
        AList.mem_keys.mp (AList.lookup_isSome.mp (Option.isSome_iff_ne_none.mpr hne))
      exact hin ⟨k,mem_filter.mpr ⟨hmem,hof⟩,rfl⟩
    · rw [if_neg hof,if_neg]
      rintro ⟨k',hk',rfl⟩
      exact hof (mem_filter.mp hk').2
  refine ⟨fun hp => ?_,fun {k p} hp => ?_,fun {k} hk => ?_⟩
  · exact h.row ((lookup_retain_eq_some _ _ _ _).mp hp).1
  · rw [hheld] at hp
    split_ifs at hp
    exact h.pool hp
  · rw [hheld,← startsWith_iff hns hk]
    apply Option.ext
    intro p
    rw [lookup_retain_eq_some,← h.same hk]
    cases PoolStore.startsWith (PoolStore.poolKeyPrefix ns app) k.key <;> simp

lemma Mirrored.mem_values_iff (p : ContainerPool) : p∈held.values ↔ p∈rows.values := by
  rw [Dict.mem_values_iff,Dict.mem_values_iff]
  constructor
  · rintro ⟨k,hk⟩
    exact ⟨k.key,(h.same (h.pool hk).2).symm.trans hk⟩
  rintro ⟨k,hk⟩
  obtain ⟨rfl,-,hns⟩ := h.row hk
  exact ⟨p.key,(h.same (show Plain p.key.namespace from hns)).trans hk⟩

lemma Mirrored.lookup_load (k : ContainerPoolKey) : (insertAll ContainerPool.key ∅
    (rows.values.map fun pool => {pool with poolType := .function})).lookup k = held.lookup k := by
  have hsame : (rows.values.map fun pool => {pool with poolType := .function}) = rows.values := by
    refine (map_congr_left fun p hp => ?_).trans (map_id _)
    obtain ⟨k,hk⟩ := (Dict.mem_values_iff _ _).mp hp
    have hfn : p.poolType=.function := of_decide_eq_true (h.row hk).2.1
    rw [← hfn]
    rfl
  rw [hsame]
  rcases lookup_insertAll ContainerPool.key ∅ rows.values k with ⟨p,hp,rfl,hl⟩ | ⟨hn,hl⟩
  · obtain ⟨k,hk⟩ := (Dict.mem_values_iff _ _).mp hp
    obtain ⟨rfl,-,hns⟩ := h.row hk
    rw [hl,h.same (show Plain p.key.namespace from hns),hk]
  rw [hl]
  cases hk : held.lookup k with
  | none => rfl
  | some p =>
    have hp : p∈held.values := (Dict.mem_values_iff _ _).mpr ⟨k,hk⟩
    exact absurd (h.pool hk).1 (hn p ((h.mem_values_iff p).mp hp))

lemma Mirrored.load : Mirrored rows (insertAll ContainerPool.key ∅
    (rows.values.map fun pool => {pool with poolType := .function})) where
  row hp := h.row hp
  pool hp := by
    rw [h.lookup_load] at hp
    exact h.pool hp
  same hk := by
    rw [h.lookup_load]
    exact h.same hk

end

structure Synced (s : PoolState) : Prop where
  function : Mirrored s.store.functionPools s.scheduler.functionPools
  sandbox : ∀ {k row}, s.store.sandboxPools.lookup k = some row → row.1.isFunctionPool=false

/-- When a payload treats function pools alike in both places. -/
def Allowed (s : PoolState) : Event → Prop
  | .payload (.createOrUpdateApplication req) =>
    req.namespace = req.application.namespace ∧ Plain req.namespace ∧
      (∀ pool∈req.containerPools, pool.isFunctionPool=true ∧ Plain pool.namespace) ∧
      (req.containerPools = [] → ∀ k∈s.store.functionPools.keys, PoolStore.startsWith
        (PoolStore.poolKeyPrefix req.application.namespace req.application.name) k = false)
  | .payload (.createContainerPool pool) => pool.isFunctionPool=true → Plain pool.namespace
  | .payload (.updateContainerPool pool) => pool.isFunctionPool=true → Plain pool.namespace
  | .payload (.tombstoneContainerPool ns poolId) =>
    s.scheduler.functionPools.lookup ⟨ns,poolId⟩ = none
  | .payload (.deleteContainerPool ns poolId) =>
    s.store.functionPools.lookup (ns++"|"++poolId.get) = none
  | .payload (.deleteApplication ns _) => Plain ns
  | _ => True

section
variable {s : PoolState}

open ContainerScheduler

def poolsAfter (held : Dict ContainerPoolKey ContainerPool) :
    Payload → Dict ContainerPoolKey ContainerPool
  | .createOrUpdateApplication req =>
    if req.containerPools.isEmpty then held
    else req.containerPools.foldl (fun m p => m.insert p.key p)
      ((held.keys.filter (isPoolOf req.namespace req.application.name)).foldl
        (fun m k => m.erase k) held)
  | .deleteApplication ns name =>
    (held.keys.filter (isPoolOf ns name)).foldl (fun m k => m.erase k) held
  | .createContainerPool pool => if pool.isFunctionPool then held.insert pool.key pool else held
  | .updateContainerPool pool => if pool.isFunctionPool then held.insert pool.key pool else held
  | .tombstoneContainerPool ns poolId => held.erase ⟨ns,poolId⟩
  | _ => held

lemma functionPools_setPool (s : ContainerScheduler) (pool : ContainerPool) :
    (s.setPool pool).functionPools =
      if pool.isFunctionPool then s.functionPools.insert pool.key pool else s.functionPools := by
  refine (congrArg Background.functionPools (s.background_setPool pool)).trans ?_
  split_ifs <;> rfl

lemma Mirrored.foldl_upsert (db : PoolStore) {held : Dict ContainerPoolKey ContainerPool}
    (h : Mirrored db.functionPools held) {pools : List ContainerPool}
    (hpools : ∀ pool∈pools, pool.isFunctionPool=true ∧ Plain pool.namespace) :
    Mirrored (pools.foldl (fun db pool => db.upsertContainerPool pool false) db).functionPools
        (pools.foldl (fun m p => m.insert p.key p) held) ∧
      (pools.foldl (fun db pool => db.upsertContainerPool pool false) db).sandboxPools =
        db.sandboxPools := by
  induction pools generalizing db held with
  | nil => exact ⟨h,rfl⟩
  | cons pool pools ih =>
    obtain ⟨hfn,hns⟩ := hpools pool mem_cons_self
    have hput : db.upsertContainerPool pool false =
        {db with functionPools := db.functionPools.insert pool.key.key pool} := if_pos hfn
    rw [foldl_cons,hput]
    exact ih _ (h.insert hfn hns) fun p hp => hpools p (mem_cons_of_mem _ hp)

lemma Synced.upsert (h : s.Synced) (pool : ContainerPool) (tombstoned : Bool)
    (hns : pool.isFunctionPool=true → Plain pool.namespace) :
    Mirrored (s.store.upsertContainerPool pool tombstoned).functionPools
        (if pool.isFunctionPool then s.scheduler.functionPools.insert pool.key pool
          else s.scheduler.functionPools) ∧
      ∀ {k row}, (s.store.upsertContainerPool pool tombstoned).sandboxPools.lookup k = some row →
        row.1.isFunctionPool = false := by
  unfold PoolStore.upsertContainerPool
  split_ifs with hfn
  · exact ⟨h.function.insert hfn (hns hfn),h.sandbox⟩
  · exact ⟨h.function,of_lookup_insert h.sandbox (Bool.eq_false_iff.mpr hfn)⟩

end

section
variable [HashOrder ContainerId] {s : PoolState}

open ContainerScheduler

lemma functionPools_updateWithIntents (s : ContainerScheduler) (p : Payload) :
    (s.updateWithIntents p).1.functionPools = poolsAfter s.functionPools p := by
  cases p with
  | createOrUpdateApplication req =>
    simp only [updateWithIntents,poolsAfter]
    split_ifs
    · rfl
    have hinsert := congrArg Background.functionPools (background_foldl_insertFunctionPool
      (s.removeFunctionPoolsOf req.namespace req.application.name) req.containerPools)
    have hremove := congrArg Background.functionPools
      (s.background_removeFunctionPoolsOf req.namespace req.application.name)
    refine hinsert.trans ?_
    change List.foldl _ (s.removeFunctionPoolsOf req.namespace
      req.application.name).background.functionPools req.containerPools = _
    rw [hremove]
  | deleteApplication ns name =>
    have hremove := (s.background_deleteApplication ns name).trans
      (s.background_removeFunctionPoolsOf ns name)
    exact congrArg Background.functionPools hremove
  | createContainerPool pool
  | updateContainerPool pool => exact functionPools_setPool s pool
  | deleteContainerPool ns poolId =>
    exact congrArg Background.functionPools (background_containers.deleteContainerPool s ns poolId)
  | schedulerUpdate u =>
    exact congrArg Background.functionPools (s.background_updateSchedulerUpdate u)
  | deregisterExecutor id =>
    simp only [updateWithIntents,deregisterExecutor]
    cases s.executorStates.lookup id with
    | none => dsimp only; cases s.executorClasses.lookup id <;> rfl
    | some state => dsimp only [removeResourceIndex]; cases s.executorClasses.lookup id <;> rfl
  | _ => rfl

lemma synced_payload {p : Payload}
    (hfn : Mirrored (s.store.write p).functionPools (poolsAfter s.scheduler.functionPools p))
    (hsb : ∀ {k row}, (s.store.write p).sandboxPools.lookup k = some row →
      row.1.isFunctionPool = false) : (s.step (.payload p)).Synced := by
  refine ⟨?_,hsb⟩
  change Mirrored _ (s.scheduler.updateWithIntents p).1.functionPools
  rw [functionPools_updateWithIntents]
  exact hfn

lemma Synced.createOrUpdateApplication (h : s.Synced) {req : CreateOrUpdateApplicationRequest}
    (hok : s.Allowed (.payload (.createOrUpdateApplication req))) :
    (s.step (.payload (.createOrUpdateApplication req))).Synced := by
  obtain ⟨hsame,hns,hpools,hempty⟩ := hok
  have hremove := h.function.removeOf req.application.name hns
  rw [hsame] at hremove
  have hwrite := Mirrored.foldl_upsert (s.store.deleteFunctionPoolsByPrefix
    (PoolStore.poolKeyPrefix req.application.namespace req.application.name)) hremove hpools
  refine synced_payload ?_ fun hrow => h.sandbox (hwrite.2 ▸ hrow)
  simp only [poolsAfter]
  split_ifs with hnone
  · -- nothing is stored for the application, so nothing goes
    have hnil := isEmpty_iff.mp hnone
    have hkeep : s.store.functionPools.retain (fun k _ => !PoolStore.startsWith
        (PoolStore.poolKeyPrefix req.application.namespace req.application.name) k) =
          s.store.functionPools := by
      apply AList.ext
      refine filter_eq_self.mpr fun e he => ?_
      have hk : e.1∈s.store.functionPools.keys := mem_map_of_mem he
      dsimp only
      rw [hempty hnil e.1 hk]
      rfl
    simp only [PoolStore.write,hnil,PoolStore.deleteFunctionPoolsByPrefix,hkeep]
    exact h.function
  · rw [hsame]
    exact hwrite.1

lemma Synced.tombstoneContainerPool (h : s.Synced) {ns : String} {poolId : ContainerPoolId}
    (hok : s.Allowed (.payload (.tombstoneContainerPool ns poolId))) :
    (s.step (.payload (.tombstoneContainerPool ns poolId))).Synced := by
  have hheld : poolsAfter s.scheduler.functionPools (.tombstoneContainerPool ns poolId) =
      s.scheduler.functionPools := erase_of_lookup_eq_none hok
  cases hpool : s.store.getSandboxPool ns poolId with
  | none =>
    have hwrite : s.store.write (.tombstoneContainerPool ns poolId) = s.store := by
      simp only [PoolStore.write,hpool]
    apply synced_payload <;> rw [hwrite]
    · rw [hheld]
      exact h.function
    · exact h.sandbox
  | some pool =>
    have hwrite : s.store.write (.tombstoneContainerPool ns poolId) =
        s.store.upsertContainerPool pool true := by
      simp only [PoolStore.write,hpool]
    obtain ⟨row,hrow,hrow'⟩ := Option.bind_eq_some_iff.mp hpool
    split_ifs at hrow'
    cases hrow'
    have hsb : row.1.isFunctionPool=false := h.sandbox hrow
    have hput := h.upsert row.1 true fun hfn => by
      rw [hsb] at hfn
      cases hfn
    apply synced_payload <;> rw [hwrite]
    · rw [hsb] at hput
      rw [hheld]
      exact hput.1
    · exact hput.2

lemma Synced.step (h : s.Synced) {e : Event} (hok : s.Allowed e) : (s.step e).Synced := by
  cases e with
  | restart => exact ⟨h.function.load,h.sandbox⟩
  | payload p =>
    cases p with
    | createOrUpdateApplication req => exact h.createOrUpdateApplication hok
    | deleteApplication ns name => exact synced_payload (h.function.removeOf name hok) h.sandbox
    | createContainerPool pool
    | updateContainerPool pool => exact synced_payload (h.upsert pool false hok).1 (h.upsert pool false hok).2
    | tombstoneContainerPool ns poolId => exact h.tombstoneContainerPool hok
    | deleteContainerPool ns poolId =>
      refine synced_payload ?_ fun {k row} hrow => ?_
      · change Mirrored (s.store.functionPools.erase (ns++"|"++poolId.get)) _
        rw [erase_of_lookup_eq_none hok]
        exact h.function
      · exact h.sandbox (lookup_of_erase hrow).2
    | _ => exact synced_payload h.function h.sandbox

/-- In every state of a history whose steps are allowed, the scheduler and the store hold the same
function pools, and a restart changes none. -/
theorem run_function_pools_persisted (events : List Event)
    (h : Trace.Along PoolState.step Allowed {} events) :
    let s := events.foldl PoolState.step {}
    (∀ pool, pool∈s.scheduler.functionPools.values ↔ pool∈s.store.functionPools.values) ∧
      ∀ key, (load s.store).functionPools.lookup key = s.scheduler.functionPools.lookup key := by
  have hsynced : (events.foldl PoolState.step {}).Synced :=
    Trace.Along.invariant (fun hs hok => hs.step hok) ⟨mirrored_empty,fun hrow => by cases hrow⟩ h
  exact ⟨hsynced.function.mem_values_iff,hsynced.function.lookup_load⟩

end

instance (s : PoolState) (e : Event) : Decidable (s.Allowed e) := by
  unfold Allowed
  split <;> infer_instance

/-! An application with a pool, whose state is then changed by a request without pools. -/

def answerPool (version : String) : ContainerPool where
  id := .forFunction "app" "answer" version
  «namespace» := "default"
  poolType := .function
  image := ""
  resources := ⟨1000,256,1024,none⟩
  entrypoint := none
  networkPolicy := none
  secretNames := []
  timeoutSecs := 1
  minContainers := some 1
  maxContainers := some 10
  bufferContainers := none

def deploy (version : String) (state : ApplicationState) (pools : List ContainerPool) : Event :=
  .payload (.createOrUpdateApplication ⟨"default",⟨"default","app",version,∅,state⟩,true,pools⟩)

attribute [local instance] HashOrder.ascending

def runPools (events : List Event) : PoolState :=
  events.foldl step {}

def deployments : List Event :=
  [deploy "1" .active [answerPool "1"],.restart,deploy "2" .active [answerPool "2"],
    .payload (.tombstoneContainerPool "default" ⟨"boxes"⟩)]

def toggled : List Event :=
  [deploy "1" .active [answerPool "1"],
    deploy "1" (.disabled "The application contains functions that have unsatisfiable placement constraints") []]

theorem deployments_persisted :
    let s := runPools deployments
    s.store.functionPools.keys = ["default|app|answer|2"] ∧
      (∀ pool, pool∈s.scheduler.functionPools.values ↔ pool∈s.store.functionPools.values) ∧
      ∀ key, (load s.store).functionPools.lookup key = s.scheduler.functionPools.lookup key :=
  ⟨by decide,run_function_pools_persisted deployments (by decide)⟩

/-- The store forgets the pool and the scheduler keeps it until the restart. -/
theorem toggled_loses_pool :
    let s := runPools toggled
    s.store.functionPools.values = [] ∧
      s.scheduler.functionPools.values = [answerPool "1"] ∧
      (load s.store).functionPools.values = [] := by
  decide

end PoolState
end Indexify
