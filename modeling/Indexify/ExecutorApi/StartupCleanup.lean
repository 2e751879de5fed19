import Indexify.ExecutorApi.ResultRouting
import Indexify.Processor.ContainerScheduler
import Indexify.StateStore.ApplicationPayloads
import Indexify.StateStore.SandboxState

/-! The cleanup that runs once after a restart. Executors that own work but did not register again
are to be deregistered, so that their work is scheduled anew. Registration means an entry in the
runtime data of the manager, which only a heartbeat with the full state makes. -/
namespace Indexify
open List

structure PersistedState where
  applications : Dict String Application := ∅
  versions : Dict String ApplicationVersion := ∅
  requests : Dict RequestCtxKey RequestCtx := ∅
  allocations : List Allocation := []
  sandboxes : List Sandbox := []
  snapshots : List Snapshot := []
  executors : Dict ExecutorId ExecutorMetadata := ∅
  functionPools : Dict ContainerPoolKey ContainerPool := ∅
  sandboxPools : Dict ContainerPoolKey ContainerPool := ∅

/-- The executor owns work that has not ended. -/
def PersistedState.Owns (store : PersistedState) (id : ExecutorId) : Prop :=
  (∃ a∈store.allocations, a.isTerminal=false ∧ a.target.executorId=id) ∨
    ∃ sandbox∈store.sandboxes, sandbox.status≠.terminated ∧ sandbox.executorId = some id

structure ExecutorManager where
  store : PersistedState
  indexes : InMemoryState
  sandboxes : SandboxState
  scheduler : ContainerScheduler
  /-- Payloads that were written and not yet processed. -/
  payloads : List Payload := []
  /-- The executors that registered, with their clocks. -/
  runtimeData : Dict ExecutorId ℕ := ∅
  heartbeatDeadlines : Dict ExecutorId Instant := ∅
  api : ApiState := {}
  /-- Who sent a heartbeat since the restart, for the statements below. -/
  heartbeats : Finset ExecutorId := ∅

namespace ExecutorManager

/-- Persisted executors are known to the scheduler at once. -/
def restart (store : PersistedState) : ExecutorManager where
  store := store
  indexes := .new store.applications store.versions store.requests store.allocations
  sandboxes := .new store.sandboxes store.snapshots
  scheduler := store.executors.values.foldl ContainerScheduler.upsertExecutor
    {functionPools := store.functionPools, sandboxPools := store.sandboxPools}

def executorTimeout : ℕ := 30000

variable (m : ExecutorManager)

def heartbeatV2 (id : ExecutorId) (now : Instant) : ExecutorManager :=
  {m with
    heartbeatDeadlines := m.heartbeatDeadlines.insert id (now+executorTimeout)
    heartbeats := insert id m.heartbeats}

def registerExecutor (id : ExecutorId) (clock : ℕ) : ExecutorManager :=
  {m with runtimeData := m.runtimeData.insert id clock}

/-- The full state registers the executor, is persisted and enters the queue of the scheduler. -/
def handleFullState (executor : ExecutorMetadata) (clock : ℕ) : ExecutorManager :=
  let m := m.registerExecutor executor.id clock
  {m with
    store := {m.store with executors := m.store.executors.insert executor.id executor}
    payloads := m.payloads++[.upsertExecutor executor]}

/-- The write is skipped for an executor that is not registered. -/
def deregisterExecutorInternal (id : ExecutorId) : ExecutorManager :=
  let wasRegistered := decide (id∈m.runtimeData)
  let m := if wasRegistered then {m with payloads := m.payloads++[.deregisterExecutor id]} else m
  let m := {m with heartbeatDeadlines := m.heartbeatDeadlines.erase id}
  let m := if wasRegistered then {m with runtimeData := m.runtimeData.erase id} else m
  {m with api := purgeExecutor {m.api with connections := m.api.connections.erase id} id}

/-- Owners of allocations in memory that the scheduler does not know. -/
def executorsWithAllocations : List ExecutorId :=
  m.indexes.allocationsByExecutor.keys.filter fun id => id∉m.scheduler.executors

/-- Owners of running sandboxes in memory that the scheduler does not know. -/
def executorsWithSandboxes : List ExecutorId :=
  m.sandboxes.sandboxes.values.filterMap fun sandbox =>
    if sandbox.status≠.running then none
    else sandbox.executorId.filter fun id => id∉m.scheduler.executors

def missingExecutorIds : Finset ExecutorId :=
  (m.executorsWithAllocations++m.executorsWithSandboxes).toFinset

section
variable [HashOrder ExecutorId]

def cleanLapsedExecutors (m : ExecutorManager) : ExecutorManager :=
  (HashOrder.toList m.missingExecutorIds).foldl deregisterExecutorInternal m

end

inductive Event
  /-- A heartbeat, with or without the full state. -/
  | heartbeat (id : ExecutorId) (now : Instant)
  | fullState (executor : ExecutorMetadata) (clock : ℕ) (now : Instant)
  /-- A heartbeat that says stopped, or a deadline that lapsed. -/
  | deregister (id : ExecutorId)
  /-- The scheduler processes the queue and changes what it stores. -/
  | process (indexes : InMemoryState) (sandboxes : SandboxState) (allocations : List Allocation)
      (rows : List Sandbox)

section
variable [HashOrder ContainerId]

def step (m : ExecutorManager) : Event → ExecutorManager
  | .heartbeat id now => m.heartbeatV2 id now
  | .fullState executor clock now => (m.heartbeatV2 executor.id now).handleFullState executor clock
  | .deregister id => m.deregisterExecutorInternal id
  | .process indexes sandboxes allocations rows =>
    {m with
      scheduler := m.payloads.foldl (fun s p => (s.updateWithIntents p).1) m.scheduler
      payloads := []
      indexes := indexes
      sandboxes := sandboxes
      store := {m.store with allocations := allocations, sandboxes := rows}}

def run (m : ExecutorManager) (events : List Event) : ExecutorManager := events.foldl step m

end

section
variable {m : ExecutorManager} {id id' : ExecutorId}

def deregistrations (payloads : List Payload) : List ExecutorId :=
  payloads.filterMap fun
    | .deregisterExecutor id => some id
    | _ => none

variable (m)

lemma payloads_deregister (id : ExecutorId) : (m.deregisterExecutorInternal id).payloads =
    m.payloads ++ if id∈m.runtimeData then [.deregisterExecutor id] else [] := by
  unfold deregisterExecutorInternal
  by_cases h : id ∈ m.runtimeData <;> simp [h]

lemma mem_runtimeData_deregister (id id' : ExecutorId) :
    id' ∈ (m.deregisterExecutorInternal id).runtimeData ↔ id'∈m.runtimeData ∧ id'≠id := by
  unfold deregisterExecutorInternal
  by_cases h : id∈m.runtimeData
  · simp [h,and_comm]
  simp only [h]
  constructor
  · intro h'
    exact ⟨h',fun he => h (he ▸ h')⟩
  · exact fun h' => h'.1

@[simp] lemma heartbeats_deregister (id : ExecutorId) :
    (m.deregisterExecutorInternal id).heartbeats = m.heartbeats := by
  unfold deregisterExecutorInternal
  by_cases h : id ∈ m.runtimeData <;> simp [h]

variable {m}

lemma payloads_foldl_deregister {ids : List ExecutorId} (hn : ids.Nodup) (m : ExecutorManager) :
    (ids.foldl deregisterExecutorInternal m).payloads =
      m.payloads++(ids.filter fun id => id∈m.runtimeData).map Payload.deregisterExecutor := by
  induction ids generalizing m with
  | nil => simp
  | cons id ids ih =>
    obtain ⟨hid,hn⟩ := nodup_cons.mp hn
    have hrest : (ids.filter fun id' => id' ∈ (m.deregisterExecutorInternal id).runtimeData) =
        ids.filter fun id' => id'∈m.runtimeData := by
      apply filter_congr
      intro id' hid'
      rw [decide_eq_decide,mem_runtimeData_deregister]
      exact and_iff_left fun he => hid (he ▸ hid')
    rw [foldl_cons,ih hn,payloads_deregister,hrest]
    by_cases h : id ∈ m.runtimeData <;> simp [h]

def Registered (m : ExecutorManager) : Prop := ∀ id∈m.runtimeData, id∈m.heartbeats

variable [HashOrder ContainerId]

lemma Registered.step (h : m.Registered) (event : Event) : (m.step event).Registered := by
  cases event with
  | heartbeat id now =>
    intro id' hid
    exact Finset.mem_insert_of_mem (h id' hid)
  | fullState executor clock now =>
    intro id' hid
    change id' ∈ insert executor.id m.heartbeats
    rw [Finset.mem_insert]
    rcases (AList.mem_insert _).mp hid with he | hid
    · exact .inl he
    · exact .inr (h id' hid)
  | deregister id =>
    intro id' hid
    have hid' := (mem_runtimeData_deregister m id id').mp hid
    exact (heartbeats_deregister m id).symm ▸ h id' hid'.1
  | process indexes sandboxes allocations rows => exact h

end

section
variable [HashOrder ExecutorId]

def issued (m : ExecutorManager) : List ExecutorId :=
  deregistrations (m.cleanLapsedExecutors.payloads.drop m.payloads.length)

lemma mem_issued {m : ExecutorManager} {id : ExecutorId} :
    id ∈ m.issued ↔ id∈m.missingExecutorIds ∧ id∈m.runtimeData := by
  have hout : m.issued = (HashOrder.toList m.missingExecutorIds).filter fun id => id∈m.runtimeData := by
    unfold issued cleanLapsedExecutors deregistrations
    rw [payloads_foldl_deregister (HashOrder.nodup_toList _),drop_left']
    · simp
    · rfl
  rw [hout,mem_filter,HashOrder.mem_toList,decide_eq_true_eq]

variable [HashOrder ContainerId]

/-- After a restart with any store and anything that happens until the cleanup runs, the cleanup
deregisters the silent owners of work, and nobody that sent a heartbeat, exactly when there are no
silent owners and no executor that registered is still unknown to the scheduler. -/
theorem startup_cleanup_iff (store : PersistedState) (events : List Event) :
    let m := run (restart store) events
    ((∀ id, m.store.Owns id → id∉m.heartbeats → id∈m.issued) ∧ ∀ id∈m.heartbeats, id∉m.issued) ↔
    (∀ id, m.store.Owns id → id∈m.heartbeats) ∧ ∀ id∈m.missingExecutorIds, id∉m.runtimeData := by
  intro m
  have hm : m.Registered := @Trace.invariant _ _ step Registered (fun event h => h.step event) _
    (fun _ hid => by cases hid) events
  constructor
  · rintro ⟨hcover,hspare⟩
    constructor
    · intro id howns
      by_contra hsilent
      exact hsilent (hm id (mem_issued.mp (hcover id howns hsilent)).2)
    · intro id hmissing hreg
      exact hspare id (hm id hreg) (mem_issued.mpr ⟨hmissing,hreg⟩)
  · rintro ⟨howners,hknown⟩
    constructor
    · exact fun id howns hsilent => absurd (howners id howns) hsilent
    intro id _ hissued
    obtain ⟨hmissing,hreg⟩ := mem_issued.mp hissued
    exact hknown id hmissing hreg

end

namespace Samples

def executor : ExecutorMetadata :=
  ⟨⟨"executor"⟩,none,∅,∅,⟨1000,1024,1024,none⟩,false⟩

def box : Sandbox where
  id := ⟨"box"⟩
  «namespace» := "default"
  image := "image"
  status := .running
  resources := ⟨1000,512,1024,none⟩
  executorId := some ⟨"executor"⟩

def saved : PersistedState := {sandboxes := [box]}

def savedWithRecord : PersistedState where
  sandboxes := [box]
  executors := (∅ : Dict ExecutorId ExecutorMetadata).insert ⟨"executor"⟩ executor

def comeback : List Event :=
  [.fullState executor 0 0,.process {} (.new [box] []) [] [box]]

lemma saved_owns : saved.Owns ⟨"executor"⟩ := .inr ⟨box,mem_singleton_self _,by decide,rfl⟩

end Samples

attribute [local instance] HashOrder.ascending

open Samples in
/-- The executor registers again before the cleanup, and the scheduler processes that. -/
theorem registered_again_is_spared :
    let m := run (restart saved) comeback
    m.store.Owns ⟨"executor"⟩ ∧ ⟨"executor"⟩ ∈ m.heartbeats ∧ ⟨"executor"⟩ ∉ issued m := by
  intro m
  have hbeat : ⟨"executor"⟩ ∈ m.heartbeats := by decide
  have hiff := startup_cleanup_iff saved comeback
  refine ⟨saved_owns,hbeat,(hiff.mpr ⟨?_,?_⟩).2 _ hbeat⟩
  · rintro id (⟨a,ha,-⟩ | ⟨sandbox,hs,-,he⟩)
    · cases ha
    obtain rfl := mem_singleton.mp hs
    cases he
    exact hbeat
  · decide

open Samples in
/-- An executor that never comes back keeps its sandbox: it is a suspect, but as it is not
registered nothing is written; and if its record was persisted it is not even a suspect. -/
theorem silent_executor_is_kept : saved.Owns ⟨"executor"⟩ ∧ ⟨"executor"⟩ ∉ (restart saved).heartbeats ∧
    (restart saved).missingExecutorIds = {⟨"executor"⟩} ∧
    issued (restart saved) = [] ∧
    (restart savedWithRecord).missingExecutorIds = ∅ := by
  refine ⟨saved_owns,?_⟩
  decide

end ExecutorManager
end Indexify
