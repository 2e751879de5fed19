import Indexify.DataModel.Runs

/-! The cron schedules in the store: rows under the key made of namespace, application and schedule
id, the requests that write them and the event each request sends to the cron processor. -/
namespace Indexify

structure CronScheduleEntry where
  id : String
  «namespace» : String
  applicationName : String
  cronExpression : String
  input : Option DataPayload
  nextFireTimeMs : ℕ
  lastFiredAtMs : Option ℕ
  createdAt : ℕ
  enabled : Bool
  deriving DecidableEq

structure CronScheduleKey where
  «namespace» : String
  applicationName : String
  scheduleId : String
  deriving DecidableEq

namespace CronScheduleKey

def app (key : CronScheduleKey) : String × String := (key.namespace,key.applicationName)

end CronScheduleKey

namespace CronScheduleEntry

def keyFromId («namespace» applicationName id : String) : String :=
  «namespace»++"|"++applicationName++"|"++id

def key (e : CronScheduleEntry) : String := keyFromId e.namespace e.applicationName e.id

def keyPrefixForApp («namespace» applicationName : String) : String :=
  «namespace»++"|"++applicationName++"|"

def scheduleKey (e : CronScheduleEntry) : CronScheduleKey where
  «namespace» := e.namespace
  applicationName := e.applicationName
  scheduleId := e.id

end CronScheduleEntry

inductive CronEvent
  | upserted (key : CronScheduleKey)
  | removed (key : CronScheduleKey)
  | allRemoved («namespace» applicationName : String)
  deriving DecidableEq

/-- The rows of the schedules: each lies under its own key. -/
structure CronSchedules where
  rows : Dict String CronScheduleEntry
  keyed : ∀ {k e}, rows.lookup k = some e → e.key=k

namespace CronSchedules
variable {s : CronSchedules} {e : CronScheduleEntry}

def rowKey (key : CronScheduleKey) : String :=
  CronScheduleEntry.keyFromId key.namespace key.applicationName key.scheduleId

lemma rowKey_scheduleKey (e : CronScheduleEntry) : rowKey e.scheduleKey = e.key := rfl

def getCronSchedule (s : CronSchedules) (key : CronScheduleKey) : Option CronScheduleEntry :=
  s.rows.lookup (rowKey key)

def getAllCronSchedules (s : CronSchedules) : List CronScheduleEntry := s.rows.values

def Holds (s : CronSchedules) (e : CronScheduleEntry) : Prop := s.rows.lookup e.key = some e
  deriving Decidable

lemma mem_getAllCronSchedules : e∈s.getAllCronSchedules ↔ s.Holds e := by
  rw [getAllCronSchedules,Dict.mem_values_iff]
  constructor
  · rintro ⟨k,hk⟩
    rw [Holds,s.keyed hk]
    exact hk
  · intro h
    exact ⟨e.key,h⟩

def empty : CronSchedules where
  rows := ∅
  keyed := by
    intro k e h
    cases h

def putCronScheduleEntry (s : CronSchedules) (entry : CronScheduleEntry) : CronSchedules where
  rows := s.rows.insert entry.key entry
  keyed := by
    intro k e h
    rw [Dict.lookup_insert_if] at h
    split_ifs at h with hk
    · cases h
      exact hk.symm
    · exact s.keyed h

def dropRows (s : CronSchedules) (p : String → Bool) : CronSchedules where
  rows := s.rows.retain fun k _ => !p k
  keyed := by
    intro k e h
    exact s.keyed ((Dict.lookup_retain_eq_some _ _ _ _).mp h).1

lemma holds_putCronScheduleEntry {entry : CronScheduleEntry} :
    (s.putCronScheduleEntry entry).Holds e ↔ e=entry ∨ s.Holds e ∧ e.key≠entry.key := by
  rw [Holds,putCronScheduleEntry,Dict.lookup_insert_if]
  split_ifs with hk
  · simp only [Option.some.injEq,ne_eq,hk,not_true_eq_false,and_false,or_false]
    exact eq_comm
  · have hne : e≠entry := fun he => hk (by rw [he])
    simp [hne,Holds,hk]

lemma holds_dropRows {p : String → Bool} : (s.dropRows p).Holds e ↔ s.Holds e ∧ p e.key = false := by
  rw [Holds,dropRows,Dict.lookup_retain_eq_some,Bool.not_eq_true']
  rfl

end CronSchedules

/-- A request that writes schedules: creation with an id of the caller, deletion of one schedule,
and the deletion of an application, seen from its schedules. -/
inductive CronWrite
  | create (key : CronScheduleKey) (cronExpression : String) (input : Option DataPayload)
      (nowMs clock : ℕ)
  | delete (key : CronScheduleKey)
  | deleteApplication («namespace» applicationName : String)
  deriving DecidableEq

namespace CronSchedules
section
-- the next occurrence of a cron expression after a time, if the expression parses and has one
variable (computeNextFireTime : String → ℕ → Option ℕ)
variable (s : CronSchedules)

def createCronSchedule (key : CronScheduleKey) (cronExpression : String)
    (input : Option DataPayload) (nowMs clock : ℕ) : Option CronSchedules := do
  let nextFireTimeMs ← computeNextFireTime cronExpression nowMs
  return s.putCronScheduleEntry
    {id := key.scheduleId
     «namespace» := key.namespace
     applicationName := key.applicationName
     cronExpression, input, nextFireTimeMs
     lastFiredAtMs := none
     createdAt := clock
     enabled := true}

/-- Returns whether the schedule existed. -/
def deleteCronScheduleById (key : CronScheduleKey) : Bool × CronSchedules :=
  let existed := (s.getCronSchedule key).isSome
  if existed then (existed,s.dropRows fun k => k = rowKey key) else (existed,s)

def deleteCronSchedulesForApp («namespace» applicationName : String) : CronSchedules :=
  s.dropRows fun k =>
    (CronScheduleEntry.keyPrefixForApp «namespace» applicationName).toList.isPrefixOf k.toList

/-- Fails when the schedule is gone or has no next occurrence. -/
def advanceCronSchedule (key : CronScheduleKey) (cronExpression : String)
    (firedAtMs : ℕ) : Option CronSchedules := do
  let entry ← s.getCronSchedule key
  let nextFireTimeMs ← computeNextFireTime cronExpression firedAtMs
  return s.putCronScheduleEntry
    {entry with lastFiredAtMs := some firedAtMs, nextFireTimeMs := nextFireTimeMs}

/-- One write: the new rows and the event it sends. A failed write changes and sends nothing. An
application is deleted through `write_with_scheduler_command_intents`, which drops the event, so that
the processor never hears of it. -/
def write : CronWrite → CronSchedules × Option CronEvent
  | .create key cronExpression input nowMs clock =>
    match s.createCronSchedule computeNextFireTime key cronExpression input nowMs clock with
    | some s' => (s',some (.upserted key))
    | none => (s,none)
  | .delete key =>
    let r := s.deleteCronScheduleById key
    (r.2,if r.1 then some (.removed key) else none)
  | .deleteApplication «namespace» applicationName =>
    (s.deleteCronSchedulesForApp «namespace» applicationName,none)

end
end CronSchedules
end Indexify
