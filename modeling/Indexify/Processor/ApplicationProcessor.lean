import Mathlib.Data.List.Range
import Indexify.Library.Trace

/-! The batch loop of the application processor: payloads are read from the persistent queue,
applied to clones of the published state, persisted together with their removal from the queue,
and the clones are published. The handlers that a batch calls are parameters. -/
namespace Indexify
open List

inductive StateChangeResult (Payload Update : Type) where
  | schedulerUpdate (update : Update)
  | immediateWrite (payload : Payload)

structure AppState (Indexes Scheduler : Type) where
  indexes : Indexes
  scheduler : Scheduler
  deriving DecidableEq

/-- The clones that a batch changes, its feasibility cache and the merged update. -/
structure Batch (Indexes Scheduler Cache Update : Type) where
  indexes : Indexes
  scheduler : Scheduler
  feasCache : Cache
  mergedUpdate : Update

/-- The functions that a batch is made of. A handler that fails may have changed the clones
before; an immediate payload is persisted on its own and its errors are only logged. -/
structure BatchHandlers (Indexes Scheduler Cache Payload Change Update Err : Type) where
  newCache : Cache
  defaultUpdate : Update
  extend : Update → Update → Update
  reapIdleContainers : Scheduler → Scheduler × Update
  reapsContainers : Update → Bool
  placeUnblocked : Update → Batch Indexes Scheduler Cache Update →
    Except Err (Batch Indexes Scheduler Cache Update)
  updateState : Payload → Indexes → Except Err Indexes
  updateScheduler : Payload → Scheduler → Except Err Scheduler
  generateStateChanges : Payload → Except Err (List Change)
  handleStateChange : Change → Batch Indexes Scheduler Cache Update →
    Batch Indexes Scheduler Cache Update × Except Err (StateChangeResult Payload Update)
  applySchedulerUpdate : Update → Indexes → Except Err Indexes
  applyContainerUpdate : Update → Scheduler → Scheduler
  applyImmediatePayload : Payload → Indexes → Scheduler → Indexes × Scheduler
  /-- A pass that publishes without a payload: the retry at startup, the pool reconciliation. -/
  maintain : AppState Indexes Scheduler → AppState Indexes Scheduler

namespace ApplicationProcessor
variable {Indexes Scheduler Cache Payload Change Update Err : Type}
  (h : BatchHandlers Indexes Scheduler Cache Payload Change Update Err)

/-- An error of a handler is logged and the batch goes on; an error while an update is applied
ends the batch. -/
def processStateChange (b : Batch Indexes Scheduler Cache Update) (change : Change) :
    Except Err (Batch Indexes Scheduler Cache Update) :=
  let (b',result) := h.handleStateChange change b
  match result with
  | .ok (.schedulerUpdate update) => do
    let indexes ← h.applySchedulerUpdate update b'.indexes
    let scheduler := h.applyContainerUpdate update b'.scheduler
    return {b' with indexes, scheduler, mergedUpdate := h.extend b'.mergedUpdate update}
  | .ok (.immediateWrite payload) =>
    let (indexes,scheduler) := h.applyImmediatePayload payload b'.indexes b'.scheduler
    return {b' with indexes, scheduler}
  | .error _ => return b'

def processPayload (b : Batch Indexes Scheduler Cache Update) (entry : ℕ × Payload) :
    Except Err (Batch Indexes Scheduler Cache Update) := do
  let indexes ← h.updateState entry.2 b.indexes
  let scheduler ← h.updateScheduler entry.2 b.scheduler
  let changes ← h.generateStateChanges entry.2
  changes.foldlM (processStateChange h) {b with indexes, scheduler}

/-- The part of `write_sm_update` between the read of the queue and the write. -/
def processBatch (app : AppState Indexes Scheduler) (pending : List (ℕ × Payload)) :
    Except Err (Batch Indexes Scheduler Cache Update) := do
  let (scheduler,reapUpdate) := h.reapIdleContainers app.scheduler
  let b : Batch Indexes Scheduler Cache Update := ⟨app.indexes,scheduler,h.newCache,h.defaultUpdate⟩
  let b ← if h.reapsContainers reapUpdate then h.placeUnblocked reapUpdate b else pure b
  pending.foldlM (processPayload h) b

/-- What was published: a batch of payloads, or a pass without one. -/
inductive Effect (Payload : Type) where
  | batch (pending : List (ℕ × Payload))
  | maintain
  deriving DecidableEq

def Effect.payloads : Effect Payload → List (ℕ × Payload)
  | .batch pending => pending
  | .maintain => []

def replay (app : AppState Indexes Scheduler) : List (Effect Payload) → Option
    (AppState Indexes Scheduler)
  | [] => some app
  | .maintain::effects => replay (h.maintain app) effects
  | .batch pending::effects =>
    match processBatch h app pending with
    | .error _ => none
    | .ok b => replay ⟨b.indexes,b.scheduler⟩ effects

/-- The processor with its queue. `reading` is the batch of a `write_sm_update` in progress and
the snapshot it works on; `enqueued` and `effects` are a history of the run. -/
structure State (Indexes Scheduler Payload Update : Type) where
  published : AppState Indexes Scheduler
  queue : List (ℕ × Payload) := []
  payloadSeq : ℕ := 0
  outputs : List Update := []
  reading : Option (List (ℕ × Payload) × AppState Indexes Scheduler) := none
  enqueued : List (ℕ × Payload) := []
  effects : List (Effect Payload) := []

inductive Event (Payload : Type) where
  | enqueue (payload : Payload)
  | read
  /-- The batch that was read is processed and written; `persisted` says whether
  `write_scheduler_output_and_dequeue` succeeds. -/
  | finish (persisted : Bool)
  | maintain
  deriving DecidableEq

variable (s : State Indexes Scheduler Payload Update)

/-- The outputs of a batch and the removal of its payloads are one transaction. -/
def writeSchedulerOutputAndDequeue (update : Update)
    (dequeueThroughSeq : ℕ) : State Indexes Scheduler Payload Update :=
  {s with
    outputs := s.outputs++[update]
    queue := s.queue.filter fun entry => dequeueThroughSeq<entry.1}

/-- The clones are published whether or not the write before succeeded. -/
def finish (persisted : Bool) (s : State Indexes Scheduler Payload Update) (pending : List (ℕ × Payload))
    (app : AppState Indexes Scheduler) : State Indexes Scheduler Payload Update :=
  match processBatch h app pending with
  | .error _ => {s with reading := none}
  | .ok b =>
    let maxSeq := (pending.getLast?.map Prod.fst).getD 0
    let written := if persisted then writeSchedulerOutputAndDequeue s b.mergedUpdate maxSeq else s
    {written with
      published := ⟨b.indexes,b.scheduler⟩
      reading := none
      effects := s.effects++[.batch pending]}

def step : Event Payload → State Indexes Scheduler Payload Update
  | .enqueue payload =>
    {s with
      queue := s.queue++[(s.payloadSeq,payload)]
      payloadSeq := s.payloadSeq+1
      enqueued := s.enqueued++[(s.payloadSeq,payload)]}
  | .read =>
    if s.reading.isSome ∨ s.queue.isEmpty then s
    else {s with reading := some (s.queue,s.published)}
  | .finish persisted =>
    match s.reading with
    | none => s
    | some (pending,app) => finish h persisted s pending app
  | .maintain =>
    if s.reading.isSome then s
    else {s with published := h.maintain s.published, effects := s.effects++[.maintain]}

def run (app : AppState Indexes Scheduler) (events : List (Event Payload)) :
    State Indexes Scheduler Payload Update :=
  events.foldl (step h) {published := app}

/-- The payloads whose effects are in the published state, in the order of the effects. -/
def State.applied : List (ℕ × Payload) :=
  s.effects.flatMap Effect.payloads

/-- A batch that has something to publish is persisted. -/
def Persists : Event Payload → Prop
  | .finish persisted =>
    persisted = true ∨ ∀ r∈s.reading, (processBatch h r.2 r.1).toOption.isNone = true
  | _ => True

instance (s : State Indexes Scheduler Payload Update) (e) : Decidable (Persists h s e) := by
  unfold Persists
  split <;> infer_instance

variable {h}

lemma replay_append (app : AppState Indexes Scheduler) (effects effects' : List (Effect Payload)) :
    replay h app (effects++effects') = (replay h app effects).bind fun app' => replay h app' effects' := by
  induction effects generalizing app with
  | nil => rfl
  | cons effect effects ih =>
    cases effect with
    | maintain => exact ih _
    | batch pending =>
      simp only [cons_append,replay]
      cases processBatch h app pending with
      | error _ => rfl
      | ok b => exact ih _

/-- Nothing but a batch or a pass of its own changes the published state, so it is the replay of
what was published, and a batch in progress works on it. -/
structure Replayed (h : BatchHandlers Indexes Scheduler Cache Payload Change Update Err)
    (app : AppState Indexes Scheduler) (s : State Indexes Scheduler Payload Update) : Prop where
  replay : replay h app s.effects = some s.published
  reading : ∀ r∈s.reading, r.2=s.published

variable {app : AppState Indexes Scheduler} {s : State Indexes Scheduler Payload Update}

lemma Replayed.publish (hs : Replayed h app s) {effect : Effect Payload}
    {app' : AppState Indexes Scheduler}
    (heffect : ApplicationProcessor.replay h s.published [effect] = some app') :
    ApplicationProcessor.replay h app (s.effects++[effect]) = some app' := by
  rw [replay_append,hs.replay,Option.bind_some,heffect]

lemma Replayed.step (hs : Replayed h app s) (e : Event Payload) : Replayed h app (step h s e) := by
  cases e with
  | enqueue payload => exact ⟨hs.replay,hs.reading⟩
  | read =>
    unfold ApplicationProcessor.step
    dsimp only
    split
    · exact hs
    · exact ⟨hs.replay,by rintro r ⟨rfl⟩; rfl⟩
  | finish persisted =>
    unfold ApplicationProcessor.step
    cases hr : s.reading with
    | none => exact hs
    | some r =>
      have happ : r.2=s.published := hs.reading r hr
      unfold finish
      dsimp only
      cases hb : processBatch h r.2 r.1 with
      | error err => exact ⟨hs.replay,by rintro r ⟨⟩⟩
      | ok b =>
        refine ⟨?_,by rintro r ⟨⟩⟩
        exact hs.publish (by rw [ApplicationProcessor.replay,← happ,hb]; rfl)
  | maintain =>
    unfold ApplicationProcessor.step
    dsimp only
    split
    · exact hs
    next hidle =>
    refine ⟨hs.publish rfl,fun r hr => ?_⟩
    rw [Option.mem_def.mp hr] at hidle
    simp at hidle

/-- The payloads in the order in which they were enqueued: first those whose effects are
published, then those in the queue. -/
structure InQueueOrder (s : State Indexes Scheduler Payload Update) : Prop where
  order : s.applied++s.queue = s.enqueued
  seqs : s.enqueued.map Prod.fst = List.range s.payloadSeq
  reading : ∀ r∈s.reading, r.1 ≠ [] ∧ r.1 <+: s.queue

lemma InQueueOrder.pairwise (hs : InQueueOrder s) : s.queue.Pairwise fun e e' => e.1<e'.1 := by
  have hrange : (s.enqueued.map Prod.fst).Pairwise (·<·) := by
    rw [hs.seqs]
    exact pairwise_lt_range
  rw [← hs.order,pairwise_map] at hrange
  exact (pairwise_append.mp hrange).2.1

lemma filter_lt_last {pending rest : List (ℕ × Payload)} (hne : pending ≠ [])
    (hsorted : (pending++rest).Pairwise fun e e' => e.1<e'.1) :
    (pending++rest).filter (fun e => ((pending.getLast?.map Prod.fst).getD 0)<e.1) = rest := by
  obtain ⟨front,last,rfl⟩ := (eq_nil_or_concat' pending).resolve_left hne
  obtain ⟨hpending,-,hcross⟩ := pairwise_append.mp hsorted
  have hlast : ((front++[last]).getLast?.map Prod.fst).getD 0 = last.1 := by simp
  rw [hlast,filter_append,filter_eq_nil_iff.mpr,nil_append,filter_eq_self.mpr]
  · intro e he
    exact decide_eq_true (hcross last (by simp) e he)
  intro e he hlt
  rcases mem_append.mp he with hfront | hsame
  · have := (pairwise_append.mp hpending).2.2 e hfront last (by simp)
    have := of_decide_eq_true hlt
    omega
  · rw [mem_singleton.mp hsame] at hlt
    exact absurd (of_decide_eq_true hlt) (lt_irrefl _)

lemma InQueueOrder.step (hs : InQueueOrder s) {e : Event Payload} (hok : Persists h s e) :
    InQueueOrder (step h s e) := by
  cases e with
  | enqueue payload =>
    refine ⟨?_,?_,fun r hr => ?_⟩
    · change s.applied++(s.queue++_) = s.enqueued++_
      rw [← append_assoc,hs.order]
    · change (s.enqueued++_).map _ = List.range (s.payloadSeq+1)
      rw [map_append,hs.seqs,range_succ]
      rfl
    · obtain ⟨hne,hpre⟩ := hs.reading r hr
      exact ⟨hne,hpre.trans (prefix_append _ _)⟩
  | read =>
    unfold ApplicationProcessor.step
    dsimp only
    split
    · exact hs
    next hidle =>
    refine ⟨hs.order,hs.seqs,?_⟩
    rintro r ⟨rfl⟩
    exact ⟨fun hempty => hidle (.inr (isEmpty_iff.mpr hempty)),prefix_rfl⟩
  | finish persisted =>
    unfold ApplicationProcessor.step
    cases hr : s.reading with
    | none => exact hs
    | some r =>
      unfold finish
      dsimp only
      cases hb : processBatch h r.2 r.1 with
      | error err => exact ⟨hs.order,hs.seqs,by rintro r ⟨⟩⟩
      | ok b =>
        obtain rfl : persisted=true := hok.resolve_right fun hfail => by
          simpa [hb,Except.toOption] using hfail r hr
        obtain ⟨hne,rest,hrest⟩ := hs.reading r hr
        refine ⟨?_,hs.seqs,by rintro r ⟨⟩⟩
        have hdequeued := filter_lt_last hne (hrest ▸ hs.pairwise)
        change (s.effects++[Effect.batch r.1]).flatMap Effect.payloads++s.queue.filter _ = s.enqueued
        rw [← hrest,hdequeued,← hs.order,← hrest]
        simp [State.applied,Effect.payloads]
  | maintain =>
    unfold ApplicationProcessor.step
    dsimp only
    split
    · exact hs
    refine ⟨?_,hs.seqs,hs.reading⟩
    rw [← hs.order]
    simp [State.applied,Effect.payloads]

/-- In a run in which every batch with something to publish is persisted, the published state is
the replay of the enqueued payloads up to the queue, each once and in the order of the queue. -/
theorem run_applies_once (h : BatchHandlers Indexes Scheduler Cache Payload Change Update Err)
    (app : AppState Indexes Scheduler) (events : List (Event Payload))
    (hrun : Trace.Along (step h) (Persists h) {published := app} events) :
    let s := run h app events
    replay h app s.effects = some s.published ∧ s.applied++s.queue = s.enqueued ∧
      s.enqueued.map Prod.fst = List.range s.payloadSeq := by
  have hinit : Replayed h app ({published := app} : State Indexes Scheduler Payload Update) :=
    ⟨rfl,by rintro r ⟨⟩⟩
  have hstart : InQueueOrder ({published := app} : State Indexes Scheduler Payload Update) :=
    ⟨rfl,rfl,by rintro r ⟨⟩⟩
  have hstep : ∀ {s : State Indexes Scheduler Payload Update} (e : Event Payload),
      Replayed h app s → Replayed h app (step h s e) := fun e hs => hs.step e
  have hreplayed : Replayed h app (run h app events) := Trace.invariant hstep hinit events
  have hkeep : ∀ {s : State Indexes Scheduler Payload Update} {e : Event Payload},
      InQueueOrder s → Persists h s e → InQueueOrder (step h s e) := fun hs hok => hs.step hok
  have horder : InQueueOrder (run h app events) := Trace.Along.invariant hkeep hstart hrun
  exact ⟨hreplayed.replay,horder.order,horder.seqs⟩

def loggingHandlers : BatchHandlers (List ℕ) Unit Unit ℕ Empty Unit Empty where
  newCache := ()
  defaultUpdate := ()
  extend _ _ := ()
  reapIdleContainers _ := ((),())
  reapsContainers _ := false
  placeUnblocked _ b := .ok b
  updateState payload indexes := .ok (indexes++[payload])
  updateScheduler _ _ := .ok ()
  generateStateChanges _ := .ok []
  handleStateChange change _ := change.elim
  applySchedulerUpdate _ indexes := .ok indexes
  applyContainerUpdate _ _ := ()
  applyImmediatePayload _ indexes _ := (indexes,())
  maintain app := app

theorem run_applies_once_two_payloads :
    let events : List (Event ℕ) := [.enqueue 7,.read,.enqueue 8,.finish true,.read,.finish true]
    let s := run loggingHandlers ⟨[],()⟩ events
    s.published = ⟨[7,8],()⟩ ∧ s.applied++s.queue = s.enqueued :=
  ⟨by decide,(run_applies_once loggingHandlers ⟨[],()⟩
    [.enqueue 7,.read,.enqueue 8,.finish true,.read,.finish true] (by decide)).2.1⟩

/-- When the write of a batch fails its payload stays in the queue, but the clones that contain
its effect are published; the next batch applies the payload to them once more. -/
theorem run_applies_payload_twice :
    let s := run loggingHandlers ⟨[],()⟩ [.enqueue 7,.read,.finish false,.read,.finish true]
    s.enqueued = [(0,7)] ∧ s.applied = [(0,7),(0,7)] ∧ s.published = ⟨[7,7],()⟩ := by
  decide

end ApplicationProcessor
end Indexify
