import Indexify.Library.DelayQueue
import Indexify.StateStore.CronSchedules

/-! How the cron processor applies a batch of schedule events. The batch is deduplicated before it
is applied: of each schedule the last event is kept, and the removal of all schedules of an
application supersedes the events of its schedules. The result is compared with that of the same
events taken one at a time. -/
namespace Indexify
open List TrackedQueue

/-- The delay queue and `active_keys`: the slot and the next fire time of each schedule. -/
abbrev CronQueue := TrackedQueue CronScheduleKey ℕ

/-- What a batch meets: the answer to the read of each schedule, and the time. -/
structure CronView where
  read : CronScheduleKey → Except Unit (Option CronScheduleEntry)
  nowMs : ℕ

/-- The per-schedule events that survive, and the applications that lost all schedules. -/
structure CronScan where
  allRemovedApps : List (String × String)
  deduped : Dict CronScheduleKey CronEvent

/-- The event of a single schedule. -/
def CronEvent.isAbout (key : CronScheduleKey) : CronEvent → Bool
  | .upserted k | .removed k => k = key
  | .allRemoved _ _ => false

namespace CronScan

def empty : CronScan where
  allRemovedApps := []
  deduped := ∅

/-- A per-schedule event of an application in `all_removed_apps` is dropped. -/
def keep (b : CronScan) (key : CronScheduleKey) (event : CronEvent) : CronScan :=
  if key.app∈b.allRemovedApps then b else {b with deduped := b.deduped.insert key event}

def add (b : CronScan) : CronEvent → CronScan
  | .allRemoved ns app =>
    {allRemovedApps := b.allRemovedApps.insert (ns,app)
     deduped := b.deduped.retain fun k _ => !(k.namespace = ns && k.applicationName = app)}
  | .upserted key => b.keep key (.upserted key)
  | .removed key => b.keep key (.removed key)

def of (events : List CronEvent) : CronScan := events.foldl add empty

end CronScan

namespace CronQueue

/-- Into the delay queue with the delay until the next fire time, at once when that has passed. -/
def schedule (q : CronQueue) (key : CronScheduleKey) (nextFireTimeMs nowMs : ℕ) : CronQueue :=
  q.arm key (nowMs + (nextFireTimeMs - nowMs)) nextFireTimeMs

def removeApplication (q : CronQueue) (app : String × String) : CronQueue :=
  (q.active.keys.filter fun k => k.namespace = app.1 && k.applicationName = app.2).foldl
    cancel q

def applyEvent (view : CronView) (q : CronQueue) : CronEvent → CronQueue
  | .upserted key =>
    match view.read key with
    | .ok (some entry) =>
      if entry.enabled then schedule (q.cancel key) key entry.nextFireTimeMs view.nowMs
      else q.cancel key
    | .ok none => q.cancel key
    -- the error is logged
    | .error _ => q
  | .removed key => q.cancel key
  | .allRemoved _ _ => q

def applyEvents (view : CronView) (q : CronQueue) (events : List CronEvent) : CronQueue :=
  let b := CronScan.of events
  b.deduped.values.foldl (applyEvent view) (b.allRemovedApps.foldl removeApplication q)

end CronQueue

/-! ### What events mean for one schedule -/

namespace CronView
variable {view : CronView} {key : CronScheduleKey}

/-- When the schedule is due after an `Upserted` event, given when it was before. -/
def upserted (view : CronView) (key : CronScheduleKey) (due : Option (ℕ × ℕ)) : Option (ℕ × ℕ) :=
  match view.read key with
  | .ok (some entry) =>
    if entry.enabled then
      some (view.nowMs + (entry.nextFireTimeMs - view.nowMs),entry.nextFireTimeMs)
    else none
  | .ok none => none
  | .error _ => due

/-- What one event means for a schedule: an upsert of it brings the stored row, its removal or that
of all schedules of its application takes it out. -/
def effect (view : CronView) (key : CronScheduleKey) (due : Option (ℕ × ℕ)) : CronEvent → Option (ℕ × ℕ)
  | .upserted k => if key=k then view.upserted key due else due
  | .removed k => if key=k then none else due
  | .allRemoved ns app => if key.app = (ns,app) then none else due

def Enabled (view : CronView) (key : CronScheduleKey) : Prop :=
  ∃ entry, view.read key = .ok (some entry) ∧ entry.enabled=true

def Unreadable (view : CronView) (key : CronScheduleKey) : Prop := view.read key = .error ()
  deriving Decidable

instance (view : CronView) (key : CronScheduleKey) : Decidable (view.Enabled key) :=
  match h : view.read key with
  | .ok (some entry) => decidable_of_iff (entry.enabled=true) (by simp [Enabled,h])
  | .ok none | .error _ => isFalse (by simp [Enabled,h])

lemma upserted_of_not_enabled (h : ¬ view.Enabled key) : view.upserted key none = none := by
  unfold upserted
  split
  next entry hr =>
    split_ifs with he
    · exact absurd ⟨entry,hr,he⟩ h
    · rfl
  next => rfl
  next => rfl

lemma upserted_of_readable (h : ¬ view.Unreadable key) (due due' : Option (ℕ × ℕ)) :
    view.upserted key due = view.upserted key due' := by
  unfold upserted
  split
  next => rfl
  next => rfl
  next hr => exact absurd hr h

lemma upserted_of_unreadable (h : view.Unreadable key) (due : Option (ℕ × ℕ)) :
    view.upserted key due = due := by
  rw [upserted,h]

/-- Two events of one batch whose deduplication shows: a schedule created again after all of its
application were removed, and a schedule that was removed and cannot be read when it is back. -/
def Lost (view : CronView) : CronEvent → CronEvent → Prop
  | .allRemoved ns app,.upserted k => k.app = (ns,app) ∧ view.Enabled k
  | .removed k,.upserted k' => k=k' ∧ view.Unreadable k
  | _,_ => False

instance (view : CronView) (e e' : CronEvent) : Decidable (view.Lost e e') := by
  unfold Lost
  split <;> infer_instance

end CronView

/-! ### The scan -/

namespace CronScan
variable {k : CronScheduleKey} {events : List CronEvent} {view : CronView} (b : CronScan)

lemma app_mem_iff {ns app : String} :
    (k.namespace = ns && k.applicationName = app : Bool) = true ↔ k.app = (ns,app) := by
  simp [CronScheduleKey.app]

lemma of_append (events : List CronEvent) (e : CronEvent) : of (events++[e]) = (of events).add e := by
  simp [of]

lemma lookup_keep (key k : CronScheduleKey) (e : CronEvent) : (b.keep key e).deduped.lookup k =
    if k=key ∧ k.app∉b.allRemovedApps then some e else b.deduped.lookup k := by
  unfold keep
  split_ifs with ha hk hk
  · exact absurd (hk.1 ▸ ha) hk.2
  · rfl
  · exact hk.1 ▸ AList.lookup_insert _
  · refine AList.lookup_insert_ne ?_
    rintro rfl
    exact hk ⟨rfl,ha⟩

@[simp] lemma allRemovedApps_keep (key : CronScheduleKey) (e : CronEvent) :
    (b.keep key e).allRemovedApps = b.allRemovedApps := by
  unfold keep
  split_ifs <;> rfl

lemma lookup_add_allRemoved (ns app : String) (k : CronScheduleKey) :
    (b.add (.allRemoved ns app)).deduped.lookup k =
      if k.app = (ns,app) then none else b.deduped.lookup k := by
  apply Option.ext
  intro e
  rw [add,Dict.lookup_retain_eq_some,Bool.not_eq_true',← Bool.not_eq_true,app_mem_iff]
  split_ifs with h <;> simp [h]

lemma lookup_of_mem (h : k.app ∈ (of events).allRemovedApps) : (of events).deduped.lookup k = none := by
  induction events using List.reverseRecOn with
  | nil => rfl
  | append_singleton events e ih =>
    rw [of_append] at h ⊢
    cases e with
    | allRemoved ns app =>
      rw [lookup_add_allRemoved]
      split_ifs with ha
      · rfl
      · exact ih (by simpa [add,ha] using h)
    | upserted key | removed key =>
      rw [add,allRemovedApps_keep] at h
      rw [add,lookup_keep,if_neg (fun hk => hk.2 h)]
      exact ih h

lemma app_mem_of_iff {app : String × String} :
    app ∈ (of events).allRemovedApps ↔ .allRemoved app.1 app.2 ∈ events := by
  induction events using List.reverseRecOn with
  | nil => simp [of,empty]
  | append_singleton events e ih =>
    rw [of_append,mem_append,mem_singleton,← ih]
    cases e with
    | allRemoved ns app' =>
      rw [add,mem_insert_iff,CronEvent.allRemoved.injEq,or_comm,Prod.ext_iff]
    | upserted key | removed key => simp [add]

lemma lookup_of_eq_some {e : CronEvent} (h : (of events).deduped.lookup k = some e) :
    e ∈ events ∧ (e = .upserted k ∨ e = .removed k) := by
  induction events using List.reverseRecOn with
  | nil => cases h
  | append_singleton events e' ih =>
    rw [of_append] at h
    rw [mem_append]
    cases e' with
    | allRemoved ns app =>
      rw [lookup_add_allRemoved] at h
      split_ifs at h with ha
      exact ⟨.inl (ih h).1,(ih h).2⟩
    | upserted key | removed key =>
      rw [add,lookup_keep] at h
      split_ifs at h with hk
      · cases h
        simp [hk.1]
      · exact ⟨.inl (ih h).1,(ih h).2⟩

/-- Of each schedule the last event is kept. -/
lemma lookup_of (ha : k.app ∉ (of events).allRemovedApps) :
    (of events).deduped.lookup k = (events.filter (·.isAbout k)).getLast? := by
  induction events using List.reverseRecOn with
  | nil => rfl
  | append_singleton events e ih =>
    rw [of_append] at ha ⊢
    rw [filter_append,getLast?_append]
    cases e with
    | allRemoved ns app =>
      obtain ⟨hne,ha⟩ := not_or.mp (mt mem_insert_iff.mpr ha)
      rw [lookup_add_allRemoved,if_neg hne,ih ha]
      rfl
    | upserted key | removed key =>
      rw [add,allRemovedApps_keep] at ha
      rw [add,lookup_keep,ih ha]
      by_cases hk : k=key
      · subst hk
        simp [CronEvent.isAbout,ha]
      · simp [CronEvent.isAbout,hk,Ne.symm hk]

/-- What the scan leaves for one schedule. -/
def settle (b : CronScan) (view : CronView) (key : CronScheduleKey) (due : Option (ℕ × ℕ)) :
    Option (ℕ × ℕ) :=
  if key.app∈b.allRemovedApps then none
  else ((b.deduped.lookup key).map (view.effect key due)).getD due

lemma settle_keep {key : CronScheduleKey} {e : CronEvent} (due : Option (ℕ × ℕ)) :
    ((of events).keep key e).settle view k due = if k=key then
        if k.app ∈ (of events).allRemovedApps then none else view.effect k due e
      else (of events).settle view k due := by
  unfold settle
  rw [lookup_keep]
  by_cases ha : k.app ∈ (of events).allRemovedApps
  · simp [ha]
  by_cases hk : k=key
  · subst hk
    simp [ha]
  · simp [hk]

lemma settle_of_unreadable {key : CronScheduleKey} (ha : key.app ∉ (of events).allRemovedApps)
    (hr : view.Unreadable key) (hno : .removed key ∉ events) (due : Option (ℕ × ℕ)) :
    (of events).settle view key due = due := by
  rw [settle,if_neg ha]
  cases hl : (of events).deduped.lookup key with
  | none => rfl
  | some e =>
    obtain ⟨hmem,rfl | rfl⟩ := lookup_of_eq_some hl
    · simp [CronView.effect,CronView.upserted_of_unreadable hr]
    · exact absurd hmem hno

/-- The events of a batch in order, and the scan, agree on every schedule: by induction on the
batch from its end, where the scan meets its last event last. -/
lemma foldl_effect (h : events.Pairwise fun e e' => ¬ view.Lost e e') (key : CronScheduleKey)
    (due : Option (ℕ × ℕ)) : events.foldl (view.effect key) due = (of events).settle view key due := by
  induction events using List.reverseRecOn with
  | nil => rfl
  | append_singleton events e ih =>
    obtain ⟨hpre,-,hlast⟩ := pairwise_append.mp h
    rw [foldl_append,foldl_cons,foldl_nil,ih hpre,of_append]
    cases e with
    | allRemoved ns app =>
      rw [settle,settle,lookup_add_allRemoved]
      by_cases ha : key.app = (ns,app)
      · simp [CronView.effect,add,ha]
      · simp [CronView.effect,add,ha]
    | removed k =>
      rw [add,settle_keep]
      by_cases hk : key = k <;> simp [CronView.effect,hk]
    | upserted k =>
      rw [add,settle_keep]
      by_cases hk : key=k
      · subst hk
        simp only [CronView.effect,if_true]
        split_ifs with ha
        · have hne : ¬ view.Enabled key := fun he =>
            hlast _ (app_mem_of_iff.mp ha) _ (mem_singleton_self _) ⟨rfl,he⟩
          rw [settle,if_pos ha,CronView.upserted_of_not_enabled hne]
        by_cases hr : view.Unreadable key
        · have hno : .removed key ∉ events := fun hm =>
            hlast _ hm _ (mem_singleton_self _) ⟨rfl,hr⟩
          rw [settle_of_unreadable ha hr hno]
        · exact CronView.upserted_of_readable hr _ _
      · simp [CronView.effect,hk]

end CronScan

/-! ### The queue -/

namespace CronQueue
open TrackedQueue
variable {q : CronQueue}
variable (hq : q.Consistent)
include hq

lemma removeApplication_spec (app : String × String) : (removeApplication q app).Consistent ∧
    ∀ k, (removeApplication q app).due k = if k.app=app then none else q.due k := by
  obtain ⟨hc,hdue⟩ := hq.cancel_all
    (q.active.keys.filter fun k => k.namespace = app.1 && k.applicationName = app.2)
  refine ⟨hc,fun k => ?_⟩
  rw [removeApplication,hdue k]
  simp only [mem_filter,CronScan.app_mem_iff]
  by_cases hk : k∈q.active
  · simp only [AList.mem_keys.mp hk,true_and]
  have hnone : q.due k = none := by
    rw [← Option.not_isSome_iff_eq_none,hq.due_isSome]
    exact hk
  simp [hnone]

lemma removeApplications_spec (apps : List (String × String)) :
    (apps.foldl removeApplication q).Consistent ∧
      ∀ k, (apps.foldl removeApplication q).due k = if k.app∈apps then none else q.due k := by
  induction apps generalizing q with
  | nil => exact ⟨hq,fun k => by simp⟩
  | cons app apps ih =>
    obtain ⟨h₁,hdue₁⟩ := removeApplication_spec hq app
    obtain ⟨h₂,hdue₂⟩ := ih h₁
    refine ⟨h₂,fun k => ?_⟩
    rw [foldl_cons,hdue₂ k,hdue₁ k]
    by_cases ha : k.app = app <;> simp [ha]

variable (view)

lemma applyEvent_upserted_spec
    (key : CronScheduleKey) : (applyEvent view q (.upserted key)).Consistent ∧
      ∀ k, (applyEvent view q (.upserted key)).due k =
        if k=key then view.upserted key (q.due key) else q.due k := by
  have hcancel : ∀ k, (q.cancel key).due k = if k=key then none else q.due k := hq.due_cancel key
  simp only [applyEvent,CronView.upserted]
  rcases view.read key with _ | _ | entry
  · refine ⟨hq,fun k => ?_⟩
    split_ifs with hk
    · rw [hk]
    · rfl
  · exact ⟨hq.cancel key,hcancel⟩
  · dsimp only
    split_ifs with hen
    · have hnone : (q.cancel key).due key = none := by simp [hcancel]
      refine ⟨(hq.cancel key).arm hnone _ _,fun k => ?_⟩
      rw [schedule,(hq.cancel key).due_arm,hcancel]
      split_ifs <;> rfl
    · exact ⟨hq.cancel key,hcancel⟩

lemma applyEvent_spec
    {e : CronEvent} {key : CronScheduleKey} (he : e = .upserted key ∨ e = .removed key) :
    (applyEvent view q e).Consistent ∧ ∀ k, (applyEvent view q e).due k = view.effect k (q.due k) e := by
  rcases he with rfl | rfl
  · obtain ⟨hc,hdue⟩ := applyEvent_upserted_spec hq view key
    refine ⟨hc,fun k => ?_⟩
    rw [hdue k,CronView.effect]
    split_ifs with hk
    · rw [hk]
    · rfl
  · exact ⟨hq.cancel key,hq.due_cancel key⟩

lemma applyEntries_spec {entries : List (Sigma fun _ : CronScheduleKey => CronEvent)}
    (hnd : entries.NodupKeys) (habout : ∀ e∈entries, e.2 = .upserted e.1 ∨ e.2 = .removed e.1) :
    ((entries.map Sigma.snd).foldl (applyEvent view) q).Consistent ∧
      ∀ k, ((entries.map Sigma.snd).foldl (applyEvent view) q).due k =
        ((entries.dlookup k).map (view.effect k (q.due k))).getD (q.due k) := by
  induction entries generalizing q with
  | nil => exact ⟨hq,fun k => rfl⟩
  | cons e entries ih =>
    obtain ⟨h₁,hdue₁⟩ := applyEvent_spec hq view (habout e mem_cons_self)
    obtain ⟨hfresh,hnd'⟩ := nodupKeys_cons.mp hnd
    obtain ⟨h₂,hdue₂⟩ := ih h₁ hnd' fun e' he' => habout e' (mem_cons_of_mem _ he')
    refine ⟨h₂,fun k => ?_⟩
    rw [map_cons,foldl_cons,hdue₂ k,hdue₁ k]
    obtain ⟨key,event⟩ := e
    by_cases hk : k=key
    · subst hk
      have hnone : entries.dlookup k = none := dlookup_eq_none.mpr hfresh
      simp [hnone]
    have hother : view.effect k (q.due k) event = q.due k := by
      rcases habout _ mem_cons_self with he | he <;>
        (dsimp only at he; simp [he,CronView.effect,hk])
    rw [hother,dlookup_cons_ne _ _ hk]

lemma applyEvents_spec
    (events : List CronEvent) : (applyEvents view q events).Consistent ∧
      ∀ k, (applyEvents view q events).due k = (CronScan.of events).settle view k (q.due k) := by
  obtain ⟨h₁,hdue₁⟩ := removeApplications_spec hq (CronScan.of events).allRemovedApps
  obtain ⟨h₂,hdue₂⟩ := applyEntries_spec h₁ view (CronScan.of events).deduped.nodupKeys (by
    rintro ⟨key,e⟩ he
    exact (CronScan.lookup_of_eq_some ((Dict.mem_entries_iff _ _ _).mp he)).2)
  refine ⟨h₂,fun k => ?_⟩
  refine (hdue₂ k).trans ?_
  rw [hdue₁ k,CronScan.settle]
  split_ifs with ha
  · have hnone : (CronScan.of events).deduped.entries.dlookup k = none :=
      CronScan.lookup_of_mem ha
    rw [hnone]
    rfl
  · rfl

variable {view}

end CronQueue

/-! ### Batches -/

/-- The events drained together, with what their reads answer. -/
structure CronBatch where
  view : CronView
  events : List CronEvent

namespace CronBatch

def apply (q : CronQueue) (b : CronBatch) : CronQueue := CronQueue.applyEvents b.view q b.events

def oneByOne (b : CronBatch) : List CronBatch := b.events.map fun e => {b with events := [e]}

/-- What a batch leaves of a schedule: nothing if the schedules of its application are all removed,
and what the last event of the schedule says otherwise. -/
def outcome (key : CronScheduleKey) (due : Option (ℕ × ℕ)) (b : CronBatch) : Option (ℕ × ℕ) :=
  if .allRemoved key.namespace key.applicationName ∈ b.events then none
  else (b.events.filter (·.isAbout key)).getLast?.elim due (b.view.effect key due)

def Orderly (b : CronBatch) : Prop := b.events.Pairwise fun e e' => ¬ b.view.Lost e e'
  deriving Decidable

lemma settle_eq_outcome (b : CronBatch) (key : CronScheduleKey) (due : Option (ℕ × ℕ)) :
    (CronScan.of b.events).settle b.view key due = outcome key due b := by
  rw [CronScan.settle,outcome]
  have hiff : key.app ∈ (CronScan.of b.events).allRemovedApps ↔
      .allRemoved key.namespace key.applicationName ∈ b.events := CronScan.app_mem_of_iff
  by_cases ha : key.app ∈ (CronScan.of b.events).allRemovedApps
  · rw [if_pos ha,if_pos (hiff.mp ha)]
  · rw [if_neg ha,if_neg (mt hiff.mpr ha),CronScan.lookup_of ha]
    cases (b.events.filter (·.isAbout key)).getLast? <;> rfl

lemma foldl_apply {q : CronQueue} (hq : q.Consistent) (batches : List CronBatch) :
    (batches.foldl apply q).Consistent ∧
      ∀ k, (batches.foldl apply q).due k = batches.foldl (outcome k) (q.due k) := by
  induction batches generalizing q with
  | nil => exact ⟨hq,fun k => rfl⟩
  | cons b batches ih =>
    obtain ⟨h₁,hdue₁⟩ := CronQueue.applyEvents_spec hq b.view b.events
    obtain ⟨h₂,hdue₂⟩ := ih h₁
    refine ⟨h₂,fun k => ?_⟩
    rw [foldl_cons,foldl_cons,apply,hdue₂ k,hdue₁ k,settle_eq_outcome]

/-- One at a time the events of an orderly batch leave what the batch leaves. -/
lemma foldl_outcome_oneByOne {b : CronBatch} (h : b.Orderly) (k : CronScheduleKey)
    (due : Option (ℕ × ℕ)) : b.oneByOne.foldl (outcome k) due = outcome k due b := by
  have hone : ∀ due e, outcome k due ⟨b.view,[e]⟩ = b.view.effect k due e := by
    intro due e
    rw [← settle_eq_outcome,← CronScan.foldl_effect (pairwise_singleton _ _)]
    rfl
  rw [oneByOne,foldl_map,← settle_eq_outcome,← CronScan.foldl_effect h]
  exact congrArg (fun f => b.events.foldl f due) (funext fun due => funext fun e => hone due e)

lemma foldl_outcome_flatMap {batches : List CronBatch} (h : ∀ b∈batches, b.Orderly)
    (k : CronScheduleKey) (due : Option (ℕ × ℕ)) :
    (batches.flatMap oneByOne).foldl (outcome k) due = batches.foldl (outcome k) due := by
  induction batches generalizing due with
  | nil => rfl
  | cons b batches ih =>
    obtain ⟨hb,hbatches⟩ := forall_mem_cons.mp h
    rw [flatMap_cons,foldl_append,foldl_outcome_oneByOne hb,ih hbatches]
    rfl

end CronBatch

def nightlyKey : CronScheduleKey where
  «namespace» := "default"
  applicationName := "reports"
  scheduleId := "nightly"

def nightlyEntry : CronScheduleEntry where
  id := "nightly"
  «namespace» := "default"
  applicationName := "reports"
  cronExpression := "0 2 * * *"
  input := none
  nextFireTimeMs := 60000
  lastFiredAtMs := none
  createdAt := 3
  enabled := true

def nightlyView : CronView where
  read k := .ok (if k=nightlyKey then some nightlyEntry else none)
  nowMs := 1000

def redeployed : List CronBatch :=
  [⟨nightlyView,[.upserted nightlyKey,.allRemoved "default" "reports"]⟩,
    ⟨nightlyView,[.removed nightlyKey,.upserted nightlyKey,.allRemoved "default" "mails"]⟩]

end Indexify
