import Indexify.Library.Trace
import Indexify.Processor.CronProcessor

/-! The loop of the cron processor beside the writers of the store. Other tasks may write at every
point where the loop waits for the store; an iteration therefore carries the writes that happen
meanwhile. -/
namespace Indexify
open List CronSchedules

structure CronLoop where
  schedules : CronSchedules
  /-- Events sent and not yet received. -/
  channel : List CronEvent
  queue : CronQueue
  /-- The schedules have been loaded. -/
  started : Bool

inductive CronLoopEvent
  | write (w : CronWrite)
  | start (nowMs : ℕ) (scanFails : Bool)
  /-- The channel is drained and applied. A schedule is read after the first `readAt` of the writes
  that happen meanwhile; the reads of `failing` schedules fail. -/
  | drain (nowMs : ℕ) (meanwhile : List CronWrite) (readAt : CronScheduleKey → ℕ)
      (failing : List CronScheduleKey)
  /-- The slot expires and its schedule is fired; there are writes before the read, the advance and
  the insertion. -/
  | expire (nowMs slot : ℕ) (beforeRead beforeAdvance beforeInsert : List CronWrite)
      (readFails advanceFails : Bool)

namespace CronLoop

def new (schedules : CronSchedules) : CronLoop where
  schedules := schedules
  channel := []
  queue := TrackedQueue.empty
  started := false

section
variable (computeNextFireTime : String → ℕ → Option ℕ)
variable (s : CronLoop)

def write (w : CronWrite) : CronLoop :=
  let r := s.schedules.write computeNextFireTime w
  {s with schedules := r.1, channel := s.channel++r.2.toList}

def writes (ws : List CronWrite) : CronLoop := ws.foldl (write computeNextFireTime) s

def loadSchedule (nowMs : ℕ) (q : CronQueue) (entry : CronScheduleEntry) : CronQueue :=
  if entry.enabled then CronQueue.schedule q entry.scheduleKey entry.nextFireTimeMs nowMs else q

/-- A scan that fails is logged, and the loop starts with an empty queue. -/
def loadAllSchedules (nowMs : ℕ) (scanFails : Bool) : CronLoop :=
  {s with
    queue := if scanFails then s.queue
      else s.schedules.getAllCronSchedules.foldl (loadSchedule nowMs) s.queue
    started := true}

def viewOf (nowMs : ℕ) (meanwhile : List CronWrite) (readAt : CronScheduleKey → ℕ)
    (failing : List CronScheduleKey) : CronView where
  read key :=
    if key∈failing then .error ()
    else .ok ((s.writes computeNextFireTime (meanwhile.take (readAt key))).schedules.getCronSchedule
      key)
  nowMs := nowMs

def drain (nowMs : ℕ) (meanwhile : List CronWrite) (readAt : CronScheduleKey → ℕ)
    (failing : List CronScheduleKey) : CronLoop :=
  let drained := {s with channel := []}
  {drained.writes computeNextFireTime meanwhile with
    queue := CronQueue.applyEvents
      (drained.viewOf computeNextFireTime nowMs meanwhile readAt failing) s.queue s.channel}

/-- Every early return but the one for a missing row is an error; it is logged by the caller. The
invocation after the insertion does not touch the queue. -/
def fireAndReschedule (nowMs : ℕ) (key : CronScheduleKey)
    (beforeAdvance beforeInsert : List CronWrite) (readFails advanceFails : Bool) : CronLoop :=
  if readFails then s
  else match s.schedules.getCronSchedule key with
  | none => s
  | some entry =>
    match computeNextFireTime entry.cronExpression nowMs with
    | none => s
    | some nextFireTimeMs =>
      let s := s.writes computeNextFireTime beforeAdvance
      if advanceFails then s
      else match s.schedules.advanceCronSchedule computeNextFireTime key entry.cronExpression
          nowMs with
      | none => s
      | some schedules =>
        let s := ({s with schedules := schedules}).writes computeNextFireTime beforeInsert
        {s with queue := s.queue.schedule key nextFireTimeMs nowMs}

def expire (nowMs slot : ℕ) (beforeRead beforeAdvance beforeInsert : List CronWrite)
    (readFails advanceFails : Bool) : CronLoop :=
  match s.queue.queue.slots.lookup slot with
  | none => s
  | some (key,deadline) =>
    if deadline ≤ nowMs then
      (({s with queue := s.queue.expire slot}).writes computeNextFireTime beforeRead).fireAndReschedule
        computeNextFireTime nowMs key beforeAdvance beforeInsert readFails advanceFails
    else s

def step : CronLoopEvent → CronLoop
  | .write w => s.write computeNextFireTime w
  | .start nowMs scanFails => if s.started then s else s.loadAllSchedules nowMs scanFails
  | .drain nowMs meanwhile readAt failing =>
    if s.started then s.drain computeNextFireTime nowMs meanwhile readAt failing else s
  | .expire nowMs slot beforeRead beforeAdvance beforeInsert readFails advanceFails =>
    if s.started then
      s.expire computeNextFireTime nowMs slot beforeRead beforeAdvance beforeInsert readFails
        advanceFails
    else s

def run (es : List CronLoopEvent) : CronLoop := es.foldl (step computeNextFireTime) s

end
end CronLoop

/-! ### What the channel promises -/

namespace CronEvent
variable (key : CronScheduleKey)

/-- Whether a schedule is in the queue after the event, applied while the schedule is stored. -/
def tracks (b : Bool) : CronEvent → Bool
  | .upserted k => b || k = key
  | .removed k => b && k ≠ key
  | .allRemoved ns app => b && key.app ≠ (ns,app)

def tracksAll (b : Bool) (events : List CronEvent) : Bool :=
  events.foldl (tracks key) b

lemma tracksAll_append (b : Bool) (l l' : List CronEvent) :
    tracksAll key b (l++l') = tracksAll key (tracksAll key b l) l' := foldl_append

lemma tracks_mono {key : CronScheduleKey} {b b' : Bool} (hb : b ≤ b') (e : CronEvent) :
    tracks key b e ≤ tracks key b' e := by
  cases e <;> revert hb <;> cases b <;> cases b' <;> simp [tracks]

lemma tracksAll_mono {b b' : Bool} (hb : b ≤ b') (l : List CronEvent) :
    tracksAll key b l ≤ tracksAll key b' l := by
  induction l generalizing b b' with
  | nil => exact hb
  | cons e l ih => exact ih (tracks_mono hb e)

lemma upserted_mem_of_tracksAll {key : CronScheduleKey} {l : List CronEvent}
    (h : tracksAll key false l = true) : .upserted key ∈ l := by
  induction l with
  | nil => cases h
  | cons e l ih =>
    by_cases he : e = .upserted key
    · exact he ▸ mem_cons_self
    refine mem_cons_of_mem _ (ih ?_)
    rw [← h]
    cases e with
    | upserted k =>
      have hk : k≠key := fun hk => he (hk ▸ rfl)
      simp [tracksAll,tracks,hk]
    | removed k
    | allRemoved ns app => rfl

end CronEvent

namespace CronLoop
open CronEvent
variable {next : String → ℕ → Option ℕ}

/-- The schedules of `T` are in the queue, and the waiting events bring in every stored and enabled
schedule that is not, and take out none. -/
def Covered (T : CronScheduleKey → Bool) (s : CronLoop) : Prop :=
  ∀ e, s.schedules.Holds e → e.enabled=true → tracksAll e.scheduleKey (T e.scheduleKey) s.channel = true

lemma Covered.mono {T T' : CronScheduleKey → Bool} {s : CronLoop} (h : s.Covered T)
    (hT : ∀ e, s.schedules.Holds e → e.enabled=true → T e.scheduleKey ≤ T' e.scheduleKey) :
    s.Covered T' := by
  intro e he hen
  have hle := tracksAll_mono e.scheduleKey (hT e he hen) s.channel
  rw [h e he hen] at hle
  exact Bool.eq_true_of_true_le hle

end CronLoop

/-! ### Writes -/

namespace CronSchedules
open CronEvent
variable {next : String → ℕ → Option ℕ}

/-- A schedule that is stored after a write was created by it, or was stored before and the event
of the write is not about it. -/
lemma holds_write {s : CronSchedules} {w : CronWrite} {e : CronScheduleEntry}
    (h : (s.write next w).1.Holds e) :
    (∀ b, tracksAll e.scheduleKey b (s.write next w).2.toList = true) ∨
      s.Holds e ∧ ∀ b, tracksAll e.scheduleKey b (s.write next w).2.toList = b := by
  cases w with
  | create key cronExpression input nowMs clock =>
    rw [write,createCronSchedule] at h ⊢
    cases hn : next cronExpression nowMs with
    | none =>
      rw [hn] at h
      exact .inr ⟨h,fun b => rfl⟩
    | some nextFireTimeMs =>
      rw [hn] at h
      rcases holds_putCronScheduleEntry.mp h with rfl | ⟨hs,hne⟩
      · refine .inl fun b => ?_
        simp [tracksAll,tracks,CronScheduleEntry.scheduleKey]
      refine .inr ⟨hs,fun b => ?_⟩
      have hk : key≠e.scheduleKey := by
        rintro rfl
        exact hne rfl
      simp [tracksAll,tracks,hk]
  | delete key =>
    rw [write,deleteCronScheduleById] at h ⊢
    split_ifs at h ⊢ with hex
    · obtain ⟨hs,hne⟩ := holds_dropRows.mp h
      refine .inr ⟨hs,fun b => ?_⟩
      have hk : key≠e.scheduleKey := by
        rintro rfl
        exact of_decide_eq_false hne rfl
      simp [tracksAll,tracks,hk]
    · exact .inr ⟨h,fun b => rfl⟩
  | deleteApplication ns app => exact .inr ⟨(holds_dropRows.mp h).1,fun b => rfl⟩

/-- A write sends events of single schedules only. -/
lemma event_write {s : CronSchedules} {w : CronWrite} {e : CronEvent}
    (h : (s.write next w).2 = some e) (ns app : String) : e ≠ .allRemoved ns app := by
  rintro rfl
  cases w with
  | create key cronExpression input nowMs clock =>
    rw [write] at h
    cases hc : s.createCronSchedule next key cronExpression input nowMs clock <;> rw [hc] at h <;> cases h
  | delete key =>
    rw [write] at h
    split_ifs at h
    cases h
  | deleteApplication => cases h

end CronSchedules

namespace CronLoop
open CronEvent
variable {next : String → ℕ → Option ℕ} {s : CronLoop}

@[simp] lemma queue_writes (s : CronLoop) (ws : List CronWrite) : (s.writes next ws).queue = s.queue :=
  Trace.frame (write next) queue (fun _ _ => rfl) s ws

@[simp] lemma started_writes (s : CronLoop) (ws : List CronWrite) :
    (s.writes next ws).started = s.started :=
  Trace.frame (write next) started (fun _ _ => rfl) s ws

lemma writes_append (s : CronLoop) (ws : List CronWrite) (w : CronWrite) :
    s.writes next (ws++[w]) = (s.writes next ws).write next w := by
  simp [writes]

lemma channel_writes (next : String → ℕ → Option ℕ) (s : CronLoop) (ws : List CronWrite) :
    s.channel <+: (s.writes next ws).channel := by
  induction ws using List.reverseRecOn with
  | nil => exact prefix_rfl
  | append_singleton ws w ih =>
    rw [writes_append]
    exact ih.trans (prefix_append _ _)

/-- A schedule that is stored after several writes was created by one of them, after which no event
takes it out, or was stored all the time. -/
lemma holds_writes {ws : List CronWrite} {e : CronScheduleEntry}
    (h : (s.writes next ws).schedules.Holds e) :
    ∃ evs, (s.writes next ws).channel = s.channel++evs ∧ ((∀ b, tracksAll e.scheduleKey b evs = true) ∨
        (∀ n, (s.writes next (ws.take n)).schedules.Holds e) ∧ ∀ b, tracksAll e.scheduleKey b evs = b) := by
  induction ws using List.reverseRecOn with
  | nil => exact ⟨[],(append_nil _).symm,.inr ⟨fun n => by simpa using h,fun b => rfl⟩⟩
  | append_singleton ws w ih =>
    have hlast := h
    rw [writes_append] at h
    rw [writes_append]
    have hchannel : ((s.writes next ws).write next w).channel = (s.writes next ws).channel ++
        ((s.writes next ws).schedules.write next w).2.toList := rfl
    rcases holds_write h with hnew | ⟨hold,hid⟩
    · obtain ⟨evs,hevs⟩ := channel_writes next s ws
      refine ⟨evs++((s.writes next ws).schedules.write next w).2.toList,?_,.inl fun b => ?_⟩
      · rw [hchannel,← hevs,append_assoc]
      · rw [tracksAll_append]
        exact hnew _
    obtain ⟨evs,hevs,hcases⟩ := ih hold
    refine ⟨evs++((s.writes next ws).schedules.write next w).2.toList,?_,?_⟩
    · rw [hchannel,hevs,append_assoc]
    simp only [tracksAll_append,hid]
    refine hcases.imp id fun ⟨hall,hb⟩ => ⟨fun n => ?_,hb⟩
    rcases le_or_gt n ws.length with hn | hn
    · rw [take_append_of_le_length hn]
      exact hall n
    · rw [take_of_length_le (by simpa using Nat.succ_le_of_lt hn)]
      exact hlast

lemma singles_writes (h : ∀ ns app, .allRemoved ns app ∉ s.channel) (ws : List CronWrite) (ns app : String) :
    .allRemoved ns app ∉ (s.writes next ws).channel := by
  induction ws using List.reverseRecOn with
  | nil => exact h ns app
  | append_singleton ws w ih =>
    rw [writes_append]
    intro hmem
    rcases mem_append.mp hmem with hmem | hmem
    · exact ih hmem
    · exact event_write (Option.mem_toList.mp hmem) ns app rfl

lemma Covered.writes {T : CronScheduleKey → Bool} (h : s.Covered T)
    (ws : List CronWrite) : (s.writes next ws).Covered T := by
  intro e he hen
  obtain ⟨evs,hevs,hcases⟩ := holds_writes he
  rw [hevs,tracksAll_append]
  rcases hcases with hnew | ⟨hall,hid⟩
  · exact hnew _
  · rw [hid]
    exact h e (by simpa [CronLoop.writes] using hall 0) hen

/-! ### The loop -/

def tracked (s : CronLoop) (key : CronScheduleKey) : Bool := !s.started || (s.queue.due key).isSome

/-- No schedule is in the queue twice, the queue is empty before the start, the channel has events of
single schedules only, and the stored and enabled schedules are in the queue or on their way. -/
structure Inv (s : CronLoop) : Prop where
  consistent : s.queue.Consistent
  idle : s.started=false → ∀ key, s.queue.due key = none
  singles : ∀ ns app, .allRemoved ns app ∉ s.channel
  covered : s.Covered s.tracked

lemma Inv.writes (h : s.Inv) (ws : List CronWrite) : (s.writes next ws).Inv where
  consistent := by rw [queue_writes]; exact h.consistent
  idle := by rw [queue_writes,started_writes]; exact h.idle
  singles := singles_writes h.singles ws
  covered := by
    have ht : (s.writes next ws).tracked = s.tracked := by
      funext key
      simp [tracked]
    rw [ht]
    exact h.covered.writes ws

lemma loadSchedules_spec {q : CronQueue} (hq : q.Consistent) (nowMs : ℕ)
    {entries : List CronScheduleEntry} (hnd : (entries.map (·.scheduleKey)).Nodup)
    (hfree : ∀ e∈entries, q.due e.scheduleKey = none) :
    (entries.foldl (loadSchedule nowMs) q).Consistent ∧
      ∀ k, ((entries.foldl (loadSchedule nowMs) q).due k).isSome =
        ((q.due k).isSome || entries.any fun e => e.enabled && e.scheduleKey = k) := by
  induction entries generalizing q with
  | nil => exact ⟨hq,fun k => by simp⟩
  | cons e entries ih =>
    obtain ⟨hfresh,hnd'⟩ := nodup_cons.mp hnd
    have hone : (loadSchedule nowMs q e).Consistent ∧ ∀ k, ((loadSchedule nowMs q e).due k).isSome =
        ((q.due k).isSome || (e.enabled && e.scheduleKey = k)) := by
      unfold loadSchedule
      split_ifs with hen
      · refine ⟨hq.arm (hfree e mem_cons_self) _ _,fun k => ?_⟩
        rw [CronQueue.schedule,hq.due_arm]
        by_cases hk : k=e.scheduleKey
        · simp [hk,hen]
        · simp [hk,Ne.symm hk]
      · exact ⟨hq,fun k => by simp [hen]⟩
    obtain ⟨hc,hdue⟩ := ih hone.1 hnd' (by
      intro e' he'
      have hne : e.scheduleKey≠e'.scheduleKey := by
        intro he
        refine hfresh (mem_map.mpr ⟨e',he',he.symm⟩)
      rw [← Option.not_isSome_iff_eq_none,hone.2,hfree e' (mem_cons_of_mem _ he')]
      simp [hne])
    refine ⟨hc,fun k => ?_⟩
    rw [foldl_cons,hdue k,hone.2 k,any_cons,Bool.or_assoc]

end CronLoop

namespace CronSchedules

lemma nodup_scheduleKeys (s : CronSchedules) : (s.getAllCronSchedules.map (·.scheduleKey)).Nodup := by
  have hkeys : s.getAllCronSchedules.map (fun e => rowKey e.scheduleKey) = s.rows.keys :=
    Dict.map_key_values s.keyed
  refine List.Nodup.of_map rowKey ?_
  rw [map_map]
  exact hkeys ▸ s.rows.nodupKeys

end CronSchedules

namespace CronLoop
open CronEvent
variable {next : String → ℕ → Option ℕ}

lemma Inv.loadAllSchedules {s : CronLoop} (h : s.Inv) (hs : s.started=false) (nowMs : ℕ) :
    (s.loadAllSchedules nowMs false).Inv := by
  obtain ⟨hc,hdue⟩ := loadSchedules_spec h.consistent nowMs s.schedules.nodup_scheduleKeys
    fun e _ => h.idle hs e.scheduleKey
  refine ⟨hc,(nomatch ·),h.singles,h.covered.mono fun e he hen => ?_⟩
  have hmem : (s.schedules.getAllCronSchedules.any fun e' =>
      e'.enabled && e'.scheduleKey = e.scheduleKey) = true :=
    any_eq_true.mpr ⟨e,mem_getAllCronSchedules.mpr he,by simp [hen]⟩
  have hdue' := hdue e.scheduleKey
  rw [hmem] at hdue'
  have htracked : (s.loadAllSchedules nowMs false).tracked e.scheduleKey = true :=
    (congrArg (_ || ·) hdue').trans (Bool.or_true _)
  rw [htracked]
  exact Bool.le_true _

lemma isSome_foldl_effect {view : CronView} {key : CronScheduleKey} (h : view.Enabled key)
    (due : Option (ℕ × ℕ)) (events : List CronEvent) :
    (events.foldl (view.effect key) due).isSome = tracksAll key due.isSome events := by
  have hup : ∀ due, (view.upserted key due).isSome = true := by
    obtain ⟨entry,hr,hen⟩ := h
    simp [CronView.upserted,hr,hen]
  induction events generalizing due with
  | nil => rfl
  | cons e events ih =>
    rw [foldl_cons,ih,tracksAll,tracksAll,foldl_cons]
    congr 1
    cases e with
    | upserted k =>
      by_cases hk : key=k
      · simp [CronView.effect,tracks,hk,hk ▸ hup due]
      · simp [CronView.effect,tracks,hk,Ne.symm hk]
    | removed k =>
      by_cases hk : key=k
      · simp [CronView.effect,tracks,hk]
      · simp [CronView.effect,tracks,hk,Ne.symm hk]
    | allRemoved ns app =>
      by_cases hk : key.app = (ns,app) <;> simp [CronView.effect,tracks,hk]

end CronLoop

lemma CronView.not_lost {view : CronView} (hr : ∀ key, ¬ view.Unreadable key) {e : CronEvent}
    (he : ∀ ns app, e ≠ .allRemoved ns app) (e' : CronEvent) : ¬ view.Lost e e' := by
  intro hl
  cases e with
  | upserted => exact hl
  | removed k =>
    cases e' with
    | upserted => exact hr k hl.2
    | removed | allRemoved => exact hl
  | allRemoved ns app => exact he ns app rfl

namespace CronLoop
open CronEvent
variable {next : String → ℕ → Option ℕ} {s : CronLoop} {key : CronScheduleKey}

lemma Inv.drain (h : s.Inv) (hs : s.started=true) (nowMs : ℕ) (meanwhile : List CronWrite)
    (readAt : CronScheduleKey → ℕ) : (s.drain next nowMs meanwhile readAt []).Inv := by
  let view := ({s with channel := []} : CronLoop).viewOf next nowMs meanwhile readAt []
  have hread : ∀ key, ¬ view.Unreadable key := by
    intro key hr
    simp [CronView.Unreadable,view,viewOf] at hr
  have horderly : s.channel.Pairwise fun e e' => ¬ view.Lost e e' := by
    refine pairwise_of_forall_mem_list fun e he e' _ => CronView.not_lost hread ?_ e'
    rintro ns app rfl
    exact h.singles ns app he
  obtain ⟨hc,hdue⟩ := CronQueue.applyEvents_spec h.consistent view s.channel
  have hstarted : (s.drain next nowMs meanwhile readAt []).started = true := by
    simp [CronLoop.drain,hs]
  refine ⟨hc,fun hf => ?_,singles_writes (by simp) meanwhile,fun e he hen => ?_⟩
  · rw [hstarted] at hf
    cases hf
  obtain ⟨evs,hevs,hcases⟩ := holds_writes he
  have hchannel : (s.drain next nowMs meanwhile readAt []).channel = evs := hevs
  rw [hchannel]
  rcases hcases with hnew | ⟨hall,hid⟩
  · exact hnew _
  -- stored all the time: every read of it finds it
  have henabled : view.Enabled e.scheduleKey :=
    ⟨e,congrArg Except.ok (hall (readAt e.scheduleKey)),hen⟩
  have hbefore := h.covered e (hall 0) hen
  have hdue' : (TrackedQueue.due (CronQueue.applyEvents view s.queue s.channel)
      e.scheduleKey).isSome = true := by
    rw [hdue,← CronScan.foldl_effect horderly,isSome_foldl_effect henabled]
    simpa [tracked,hs] using hbefore
  rw [hid,tracked,hstarted]
  exact hdue'

lemma holds_advance {s s' : CronSchedules} {cronExpression : String} {firedAtMs : ℕ}
    (h : s.advanceCronSchedule next key cronExpression firedAtMs = some s') {e : CronScheduleEntry}
    (he : s'.Holds e) : ∃ e', s.Holds e' ∧ e'.scheduleKey=e.scheduleKey ∧ e'.enabled=e.enabled := by
  obtain ⟨entry,hentry,h⟩ := Option.bind_eq_some_iff.mp h
  obtain ⟨nextFireTimeMs,-,h⟩ := Option.bind_eq_some_iff.mp h
  cases h
  rcases holds_putCronScheduleEntry.mp he with rfl | ⟨hs,-⟩
  · refine ⟨entry,?_,rfl,rfl⟩
    rw [Holds,s.keyed hentry]
    exact hentry
  · exact ⟨e,hs,rfl,rfl⟩

lemma Covered.of_missing {T : CronScheduleKey → Bool} (h : s.Covered fun k => k = key || T k)
    (hkey : s.schedules.getCronSchedule key = none) : s.Covered T := by
  refine h.mono fun e he _ => ?_
  have hne : e.scheduleKey≠key := by
    rintro rfl
    rw [getCronSchedule,rowKey_scheduleKey,he] at hkey
    cases hkey
  simp [hne]

/-- The state while a schedule is fired: as in the loop, if the schedule still counted. -/
structure Firing (s : CronLoop) (key : CronScheduleKey) : Prop where
  consistent : s.queue.Consistent
  started : s.started=true
  singles : ∀ ns app, .allRemoved ns app ∉ s.channel
  out : s.queue.due key = none
  covered : s.Covered fun k => k = key || (s.queue.due k).isSome

lemma tracked_of_started (hs : s.started=true) : s.tracked = fun k => (s.queue.due k).isSome := by
  funext k
  simp [tracked,hs]

variable (h : s.Firing key)
include h

lemma Firing.writes (ws : List CronWrite) : (s.writes next ws).Firing key where
  consistent := by rw [queue_writes]; exact h.consistent
  started := by rw [started_writes]; exact h.started
  singles := singles_writes h.singles ws
  out := by rw [queue_writes]; exact h.out
  covered := by rw [queue_writes]; exact h.covered.writes ws

lemma Firing.of_missing
    (hkey : s.schedules.getCronSchedule key = none) : s.Inv where
  consistent := h.consistent
  idle := by
    intro hf
    rw [h.started] at hf
    cases hf
  singles := h.singles
  covered := by
    rw [tracked_of_started h.started]
    exact h.covered.of_missing hkey

lemma Firing.advance {schedules : CronSchedules} {cronExpression : String} {firedAtMs : ℕ}
    (hadv : s.schedules.advanceCronSchedule next key cronExpression firedAtMs = some schedules) :
    ({s with schedules := schedules} : CronLoop).Firing key where
  consistent := h.consistent
  started := h.started
  singles := h.singles
  out := h.out
  covered := by
    intro e he hen
    obtain ⟨e',he',hkey,hen'⟩ := holds_advance hadv he
    have hcov := h.covered e' he' (hen'.trans hen)
    rw [hkey] at hcov
    exact hcov

lemma Firing.schedule (nextFireTimeMs nowMs : ℕ) :
    ({s with queue := CronQueue.schedule s.queue key nextFireTimeMs nowMs} : CronLoop).Inv where
  consistent := h.consistent.arm h.out _ _
  idle := by
    intro hf
    exact absurd (h.started.symm.trans hf) (by decide)
  singles := h.singles
  covered := by
    have ht : ({s with queue := CronQueue.schedule s.queue key nextFireTimeMs nowMs} :
        CronLoop).tracked = fun k => k = key || (s.queue.due k).isSome := by
      funext k
      simp only [tracked,h.started,CronQueue.schedule,h.consistent.due_arm]
      by_cases hk : k = key <;> simp [hk]
    rw [ht]
    exact h.covered

lemma Firing.fireAndReschedule
    (nowMs : ℕ) (beforeAdvance beforeInsert : List CronWrite)
    (hnext : ∀ entry, s.schedules.getCronSchedule key = some entry →
      (next entry.cronExpression nowMs).isSome) :
    (s.fireAndReschedule next nowMs key beforeAdvance beforeInsert false false).Inv := by
  unfold CronLoop.fireAndReschedule
  cases hentry : s.schedules.getCronSchedule key with
  | none => exact h.of_missing hentry
  | some entry =>
    obtain ⟨nextFireTimeMs,hn⟩ := Option.isSome_iff_exists.mp (hnext entry hentry)
    have hw : (s.writes next beforeAdvance).Firing key := h.writes beforeAdvance
    simp only [hn]
    cases hadv : (s.writes next beforeAdvance).schedules.advanceCronSchedule next key
        entry.cronExpression nowMs with
    | none =>
      refine hw.of_missing ?_
      -- the expression has a next occurrence, so the row is what is missing
      by_contra hrow
      obtain ⟨row,hrow⟩ := Option.ne_none_iff_exists'.mp hrow
      simp [advanceCronSchedule,hrow,hn] at hadv
    | some schedules => exact ((hw.advance hadv).writes beforeInsert).schedule _ _

omit h

lemma Inv.firing (h : s.Inv) (hs : s.started=true) {slot d : ℕ}
    (hslot : s.queue.queue.slots.lookup slot = some (key,d)) :
    ({s with queue := s.queue.expire slot} : CronLoop).Firing key where
  consistent := h.consistent.expire slot
  started := hs
  singles := h.singles
  out := by simp [h.consistent.due_expire hslot]
  covered := by
    have hmono : s.Covered fun k => k = key || ((s.queue.expire slot).due k).isSome := by
      refine h.covered.mono fun e _ _ => ?_
      rw [tracked_of_started hs,h.consistent.due_expire hslot]
      by_cases hk : e.scheduleKey=key
      · simp [hk]
      · simp [hk]
    exact hmono

/-- The steps of the loop that succeed: the scan at the start, every read and write of the
processor and every computation of a next occurrence. -/
def Succeeds (next : String → ℕ → Option ℕ) (s : CronLoop) : CronLoopEvent → Prop
  | .write _ => True
  | .start _ scanFails => scanFails=false
  | .drain _ _ _ failing => failing=[]
  | .expire nowMs slot beforeRead _ _ readFails advanceFails =>
    readFails = false ∧ advanceFails=false ∧ (((s.queue.queue.slots.lookup slot).bind fun k =>
        (({s with queue := s.queue.expire slot}).writes next beforeRead).schedules.getCronSchedule
          k.1).all fun entry => (next entry.cronExpression nowMs).isSome) = true

instance (s : CronLoop) (e : CronLoopEvent) : Decidable (Succeeds next s e) := by
  unfold Succeeds
  split <;> infer_instance

lemma Inv.step {e : CronLoopEvent} (h : s.Inv) (he : Succeeds next s e) : (s.step next e).Inv := by
  cases e with
  | write w => exact h.writes [w]
  | start nowMs scanFails =>
    cases he
    unfold CronLoop.step
    split_ifs with hs
    · exact h
    · exact h.loadAllSchedules (Bool.eq_false_of_not_eq_true hs) nowMs
  | drain nowMs meanwhile readAt failing =>
    cases he
    unfold CronLoop.step
    split_ifs with hs
    · exact h.drain hs nowMs meanwhile readAt
    · exact h
  | expire nowMs slot beforeRead beforeAdvance beforeInsert readFails advanceFails =>
    obtain ⟨rfl,rfl,hnext⟩ := he
    unfold CronLoop.step CronLoop.expire
    split_ifs with hs
    · cases hslot : s.queue.queue.slots.lookup slot with
      | none =>
        simp only [hslot]
        exact h
      | some k =>
        simp only [hslot]
        split_ifs
        · refine ((h.firing hs hslot).writes beforeRead).fireAndReschedule nowMs beforeAdvance
            beforeInsert fun entry hentry => ?_
          rw [hslot,Option.bind_some,hentry] at hnext
          exact hnext
        · exact h
    · exact h

end CronLoop

def everyMinute (_ : String) (fromMs : ℕ) : Option ℕ := some (fromMs + 60000)

/-- A schedule is created before the loop starts, its event is drained and its slot expires; the
last step reads the schedule or fails to. -/
def firedOnce (readFails : Bool) : List CronLoopEvent :=
  [.write (.create nightlyKey "* * * * *" none 0 3),
    .start 10 false,
    .drain 20 [] (fun _ => 0) [],
    .expire 60000 1 [] [] [] readFails false]

end Indexify
