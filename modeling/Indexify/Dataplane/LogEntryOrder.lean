import Indexify.Dataplane.ReportDelivery

/-! Log entries before outcomes. A child call is announced by a log entry and its parent's end by
an outcome; the two travel in different channels and buffers. The entries are at the server first
as long as every request with an outcome carries all entries of its allocation that were not yet
processed. -/
namespace Indexify.Dataplane
open Outbox List

/-- The entry was handed over before the outcome of its allocation. -/
def Report.Precedes (l o : Report) : Prop :=
  l.category = .allocationLogEntries ∧ o.category=.allocationOutcomes ∧
    l.item.allocationId = o.item.allocationId ∧ l.number<o.number
  deriving Decidable

def Fragment.Ingested (f : Fragment) (v : Verdict) : Prop :=
  ∀ o ∈ f.batch .allocationOutcomes, ∀ l ∈ f.batch .allocationLogEntries, l.Precedes o →
    v.fails l.number = false
  deriving Decidable

def Stage.withOutcomes : Stage → Option Fragment
  | outcomesCollected f => some f
  | idle | nextFragment | responsesCollected _ | sent _ | answered _ _ => none

namespace Heartbeats

/-- The entries of the collected outcomes have left the channel, and those in the buffer fit into
the request. -/
def Carries (encodedLen : Item → ℕ) (s : Heartbeats) (f : Fragment) : Prop :=
  ∀ o ∈ f.batch .allocationOutcomes, ∀ l∈s.handedOver, l.Precedes o →
    l ∉ s.channels .activity ∧ (l ∈ (s.buffers .allocationLogEntries).pending →
      PendingBuffer.Fits encodedLen (PendingBuffer.size encodedLen (f.batch .commandResponses) +
        PendingBuffer.size encodedLen (f.batch .allocationOutcomes))
        (s.buffers .allocationLogEntries).pending l)
  deriving Decidable

/-- No entry is dropped for a full buffer, a request with an outcome carries the entries of its
allocation, and those do not fail. -/
def Together (encodedLen : Item → ℕ) (s : Heartbeats) : HeartbeatEvent → Prop
  | .drainChannel .activity => s.channels .activity ≠ [] →
    (s.buffers .allocationLogEntries).pending.length<stateReportMaxPendingItems
  | .advance => ∀ f∈s.stage.withOutcomes, s.Carries encodedLen f
  | .arrive v => ∀ f∈s.stage.underWay, f.Ingested v
  | .arriveLate i v => ∀ f ∈ s.abandoned[i]?, f.Ingested v
  | _ => True

instance (encodedLen : Item → ℕ) (s : Heartbeats) (e : HeartbeatEvent) :
    Decidable (s.Together encodedLen e) := by
  induction e using HeartbeatEvent.casesOn with
  | drainChannel c => induction c using Channel.casesOn <;> dsimp only [Together] <;> infer_instance
  | _ => dsimp only [Together]; infer_instance

def Carried (s : Heartbeats) (f : Fragment) : Prop :=
  ∀ o ∈ f.batch .allocationOutcomes, ∀ l∈s.handedOver, l.Precedes o →
    l ∈ f.batch .allocationLogEntries ∨ l∈s.server.processed

structure Accompanied (s : Heartbeats) : Prop where
  kept : ∀ l∈s.handedOver, l.category=.allocationLogEntries →
    l ∈ s.channels .activity ∨ l ∈ s.history .allocationLogEntries
  sent : ∀ f, s.stage = .sent f → s.Carried f
  answered : ∀ f a, s.stage = .answered f a → s.Carried f
  abandoned : ∀ f∈s.abandoned, s.Carried f
  processed : ∀ r∈s.server.processed, r.number<s.nextNumber
  causal : Causal (fun l o => l∈s.handedOver ∧ l.Precedes o) s.server.processed

namespace Accompanied
variable {s s' : Heartbeats} {encodedLen : Item → ℕ} {f : Fragment} {v : Verdict}

lemma initial : Accompanied {} where
  kept := by rintro l ⟨⟩
  sent := by rintro f ⟨⟩
  answered := by rintro f a ⟨⟩
  abandoned := by rintro f ⟨⟩
  processed := by rintro r ⟨⟩
  causal := Causal.nil

lemma not_precedes_of_new {l o : Report} (hl : l.number=s.nextNumber)
    (ho : o.number<s.nextNumber) : ¬l.Precedes o := fun h =>
  absurd h.2.2.2 (by omega)

lemma carried_send (h : s.Carried f) (hparts : f.batch .allocationOutcomes ⊆
    s.history .allocationOutcomes) (hs : Delivered s) (c : Channel) (item : Item) :
    (s.send c item).Carried f := by
  intro o ho l hl hprec
  rcases mem_append.mp hl with hl | hl
  · exact h o ho l hl hprec
  · obtain rfl := mem_singleton.mp hl
    exact absurd hprec (not_precedes_of_new rfl (hs.placed.stored _ o (hparts ho)).2)

variable (h : Accompanied s)
include h

lemma send (hs : Delivered s) (c : Channel) {item : Item}
    (hitem : item.category=c.category) : Accompanied (s.send c item) := by
  have hgrown : ∀ c' r, r ∈ s.channels c' → r ∈ (s.send c item).channels c' :=
    (Function.forall_update_iff s.channels fun c' l => ∀ r, r ∈ s.channels c' → r∈l).mpr
      ⟨fun _ => mem_append_left _,fun _ _ _ hr => hr⟩
  constructor
  · intro l hl hcat
    rcases mem_append.mp hl with hl | hl
    · exact (h.kept l hl hcat).imp_left (hgrown _ l)
    obtain rfl := mem_singleton.mp hl
    have hc : c=.activity := by
      cases c with
      | activity => rfl
      | _ => exact absurd (hitem.symm.trans hcat) (by decide)
    subst hc
    simp [Heartbeats.send]
  · intro f hf
    exact carried_send (h.sent f hf) (hs.isPart (by rw [show s.stage = _ from hf]; rfl) _).subset
      hs c item
  · intro f a hf
    exact carried_send (h.answered f a hf)
      (hs.isPart (by rw [show s.stage = _ from hf]; rfl) _).subset hs c item
  · intro f hf
    exact carried_send (h.abandoned f hf) (hs.abandoned f hf _).subset hs c item
  · exact fun r hr => Nat.lt_succ_of_lt (h.processed r hr)
  · refine h.causal.mono fun o ho l hl => ⟨?_,hl.2⟩
    refine (mem_append.mp hl.1).resolve_right fun hnew => ?_
    obtain rfl := mem_singleton.mp hnew
    exact not_precedes_of_new rfl (h.processed o ho) hl.2

lemma drainChannel (c : Channel)
    (hok : s.Together encodedLen (.drainChannel c)) : Accompanied (s.drainChannel c) := by
  unfold Heartbeats.drainChannel
  cases hc : s.channels c with
  | nil => exact h
  | cons r rs =>
    refine {h with kept := fun l hl hcat => ?_}
    change l ∈ Function.update s.channels c rs .activity ∨ l ∈ (Function.update s.buffers c.category
      (PendingBuffer.receive (s.buffers c.category) r) .allocationLogEntries).history
    cases c with
    | activity =>
      have hroom := hok (by rw [hc]; exact cons_ne_nil r rs)
      rw [Function.update_self,Channel.category,Function.update_self,PendingBuffer.receive,
        if_neg (Nat.not_le.mpr hroom),history_push]
      rcases h.kept l hl hcat with hwaits | hstored
      · rcases mem_cons.mp (hc ▸ hwaits) with rfl | hwaits
        · exact .inr (mem_append_right _ mem_cons_self)
        · exact .inl hwaits
      · exact .inr (mem_append_left _ hstored)
    | _ => exact h.kept l hl hcat

lemma advance (ha : Accounted s) (hok : s.Together encodedLen .advance) :
    Accompanied (s.advance encodedLen) := by
  unfold Heartbeats.advance
  cases hstage : s.stage with
  | idle
  | nextFragment
  | responsesCollected f => exact {h with sent := by rintro f ⟨⟩, answered := by rintro f a ⟨⟩}
  | outcomesCollected f =>
    have hcarries := hok f (by rw [hstage]; rfl)
    refine {h with sent := ?_, answered := by rintro f a ⟨⟩}
    rintro f' ⟨rfl⟩ o ho l hl hprec
    have ho' : o ∈ f.batch .allocationOutcomes := by
      simpa [collectLogEntries,Fragment.collect] using ho
    obtain ⟨hgone,hfits⟩ := hcarries o ho' l hl hprec
    rcases mem_append.mp ((h.kept l hl hprec.1).resolve_left hgone) with hd | hp
    · exact .inr (ha.drained _ hd)
    · left
      exact (hfits hp).mem_collect hp
  | sent f
  | answered f a => exact h

variable (hs : Delivered s)
include hs

lemma causal_heartbeat (hparts : ∀ k, f.batch k ⊆ s.history k) (hf : s.Carried f) (hok : f.Ingested v) :
    Causal (fun l o => l∈s.handedOver ∧ l.Precedes o) (s.server.heartbeat f v).1.processed := by
  have hcategory : ∀ k, ∀ r ∈ f.batch k, r.category=k := fun k r hr =>
    (hs.placed.stored k r (hparts k hr)).1
  have hforeign : ∀ k, k≠.allocationOutcomes → ∀ o ∈ (f.batch k).filter
      (fun r => !v.fails r.number), ∀ l, ¬(l∈s.handedOver ∧ l.Precedes o) := by
    intro k hk o ho l hl
    exact hk ((hcategory k o (mem_filter.mp ho).1).symm.trans hl.2.2.1)
  rcases s.server.heartbeat_processed f v with he | he
  · exact he ▸ h.causal
  rw [he,Fragment.reports,filter_append,filter_append,← append_assoc,← append_assoc]
  refine ((h.causal.append_foreign (hforeign _ (by decide))).append_foreign
    (hforeign _ (by decide))).append fun earlier o later hsplit l hl => ?_
  have ho : o ∈ f.batch .allocationOutcomes := mem_of_mem_filter
    (hsplit ▸ mem_append_right earlier mem_cons_self)
  rcases hf o ho l hl.1 hl.2 with hlog | hdone
  · have hfails : (!v.fails l.number) = true := by simp [hok o ho l hlog hl.2]
    simp [hlog,hfails]
  · simp [hdone]

lemma receive (hparts : ∀ k, f.batch k ⊆ s.history k) (hf : s.Carried f) (hok : f.Ingested v)
    {stage : Stage} (hsent : ∀ f, stage = .sent f → s.Carried f)
    (hanswered : ∀ f a, stage = .answered f a → s.Carried f) {abandoned : List Fragment}
    (habandoned : abandoned ⊆ s.abandoned) :
    Accompanied {s with
      server := (s.server.heartbeat f v).1, stage := stage, abandoned := abandoned} := by
  have hgrown : ∀ {f' : Fragment}, s.Carried f' → ∀ o ∈ f'.batch .allocationOutcomes,
      ∀ l∈s.handedOver, l.Precedes o → l ∈ f'.batch .allocationLogEntries ∨
        l ∈ (s.server.heartbeat f v).1.processed := fun hf' o ho l hl hprec =>
    (hf' o ho l hl hprec).imp_right fun hd => s.server.processed_subset f v hd
  constructor
  · exact h.kept
  · exact fun f' hf' => hgrown (hsent f' hf')
  · exact fun f' a hf' => hgrown (hanswered f' a hf')
  · exact fun f' hf' => hgrown (h.abandoned f' (habandoned hf'))
  · intro r hr
    rcases s.server.heartbeat_processed f v with he | he
    · exact h.processed r (he ▸ hr)
    rcases mem_append.mp (he ▸ hr) with hr | hr
    · exact h.processed r hr
    · obtain ⟨k,hk⟩ := Fragment.mem_reports.mp (mem_of_mem_filter hr)
      exact (hs.placed.stored k r (hparts k hk)).2
  · exact h.causal_heartbeat hs hparts hf hok

lemma arrive (hok : s.Together encodedLen (.arrive v)) : Accompanied (s.arrive v) := by
  unfold Heartbeats.arrive
  cases hstage : s.stage with
  | sent f =>
    refine h.receive hs (fun k => (hs.isPart (by rw [hstage]; rfl) k).subset) (h.sent f hstage)
      (hok f (by rw [hstage]; rfl)) (by rintro f ⟨⟩) ?_ (List.Subset.refl _)
    rintro f' a ⟨⟩
    exact h.sent f hstage
  | _ => exact h

lemma arriveLate {i : ℕ}
    (hok : s.Together encodedLen (.arriveLate i v)) : Accompanied (s.arriveLate i v) := by
  unfold Heartbeats.arriveLate
  cases hf : s.abandoned[i]? with
  | none => exact h
  | some f =>
    have hmem := mem_of_getElem? hf
    exact h.receive hs (fun k => (hs.abandoned f hmem k).subset) (h.abandoned f hmem) (hok f hf)
      h.sent h.answered (eraseIdx_sublist _ _).subset

omit hs

lemma settle (hchannels : s'.channels=s.channels)
    (hhistory : s'.history=s.history) (hnumber : s'.nextNumber=s.nextNumber)
    (hhanded : s'.handedOver=s.handedOver) (hserver : s'.server=s.server)
    (habandoned : s'.abandoned=s.abandoned)
    (hstage : s'.stage=.idle ∨ s'.stage=.nextFragment) : Accompanied s' := by
  have hcarried : ∀ f, s.Carried f → s'.Carried f := by
    intro f hf
    unfold Carried
    rw [hhanded,hserver]
    exact hf
  constructor
  · rw [hhanded,hchannels,hhistory]
    exact h.kept
  · intro f hf
    rcases hstage with he | he <;> rw [he] at hf <;> cases hf
  · intro f a hf
    rcases hstage with he | he <;> rw [he] at hf <;> cases hf
  · rw [habandoned]
    exact fun f hf => hcarried f (h.abandoned f hf)
  · rw [hserver,hnumber]
    exact h.processed
  · rw [hserver,hhanded]
    exact h.causal

lemma rpcFailed : Accompanied s.rpcFailed :=
  h.settle rfl rfl rfl rfl rfl rfl (.inl rfl)

lemma answer : Accompanied s.answer := by
  unfold Heartbeats.answer
  cases s.stage with
  | answered f a =>
    cases a with
    | error => exact h.rpcFailed
    | ok sendState =>
      dsimp only
      rcases s.rpcSucceeded_cases f sendState with
        ⟨-,cmd,res,he⟩ | ⟨-,cmd,res,conn,stage,he,hstage⟩
      · rw [he]
        exact h.settle rfl rfl rfl rfl rfl rfl (.inl rfl)
      · rw [he]
        exact h.settle rfl (funext fun k => history_drain) rfl rfl rfl rfl hstage
  | _ => exact h

lemma fail : Accompanied s.fail := by
  unfold Heartbeats.fail
  cases hstage : s.stage with
  | sent f =>
    refine {h.rpcFailed with abandoned := fun f' hf' => ?_}
    rcases mem_append.mp hf' with hf' | hf'
    · exact h.abandoned f' hf'
    · exact mem_singleton.mp hf' ▸ h.sent f hstage
  | answered f a => exact h.rpcFailed
  | _ => exact h

lemma step (hs : Delivered s) (ha : Accounted s) {e : HeartbeatEvent}
    (hok : s.Together encodedLen e) : Accompanied (s.step encodedLen e) := by
  cases e with
  | sendResponse response => exact h.send hs .response rfl
  | sendContainerResponse response => exact h.send hs .containerResponse rfl
  | sendLogEntry entry => exact h.send hs .activity rfl
  | sendOutcome outcome => exact h.send hs .outcome rfl
  | drainChannel c => exact h.drainChannel c hok
  | advance => exact h.advance ha hok
  | arrive v => exact h.arrive hs hok
  | arriveLate i v => exact h.arriveLate hs hok
  | answer => exact h.answer
  | fail => exact h.fail
  | forget => exact {h with}

end Accompanied

/-- The server processes every log entry of an allocation before its outcome, as long as requests
carry the two together and no later fragment finds a forgotten executor. -/
theorem logEntries_processed_before_outcome (encodedLen : Item → ℕ) (events : List HeartbeatEvent)
    (h : Trace.Along (fun s => step s encodedLen)
      (fun s e => s.Recognised e ∧ s.Together encodedLen e) {} events)
    {earlier later : List Report} {l o : Report}
    (ho : (run {} encodedLen events).server.processed = earlier++o::later)
    (hl : l ∈ (run {} encodedLen events).handedOver) (hprec : l.Precedes o) : l∈earlier := by
  have hall := @Trace.Along.invariant _ _ (fun s => step s encodedLen)
    (fun s e => s.Recognised e ∧ s.Together encodedLen e)
    (fun s => Delivered s ∧ Accounted s ∧ Accompanied s)
    (fun hs hok => ⟨hs.1.step _,hs.2.1.step hs.1 hok.1,hs.2.2.step hs.1 hs.2.1 hok.2⟩) {} events
    ⟨.initial,.initial,.initial⟩ h
  exact hall.2.2.causal earlier o later ho l ⟨hl,hprec⟩

def callEntry (clock : ℕ) : Proto.AllocationLogEntry where
  allocationId := "alloc"
  clock := clock
  entry := some (.callFunction ⟨some "default",some "pipeline",some "req",none,some "fc"⟩)

def failedOutcome : Proto.AllocationOutcome :=
  .failed ⟨"alloc",2,none,some "fc",some "req",none,none,none⟩

/-- An allocation calls a function twice and fails; all of it waits for two requests. -/
def callsThenFails : List HeartbeatEvent :=
  registration++[.sendLogEntry (callEntry 0),.sendLogEntry (callEntry 1),
    .sendOutcome failedOutcome,.drainChannel .activity,.drainChannel .activity,
    .drainChannel .outcome,.advance,.advance,.advance,.arrive {},.answer,
    .advance,.advance,.advance,.arrive {},.answer]

theorem callsThenFails_in_order : Trace.Along (fun s => step s fun _ => 100)
    (fun s e => s.Recognised e ∧ s.Together (fun _ => 100) e) {} callsThenFails ∧
    (⟨1,.allocationLogEntry (callEntry 1)⟩ : Report) ∈
      [⟨0,.allocationLogEntry (callEntry 0)⟩,⟨1,.allocationLogEntry (callEntry 1)⟩] := by
  have hok : Trace.Along (fun s => step s fun _ => 100)
    (fun s e => s.Recognised e ∧ s.Together (fun _ => 100) e) {} callsThenFails := by decide
  have hrun : (run {} (fun _ => 100) callsThenFails).server.processed =
    [⟨0,.allocationLogEntry (callEntry 0)⟩,⟨1,.allocationLogEntry (callEntry 1)⟩] ++
      ⟨2,.allocationOutcome failedOutcome⟩::[] := by decide
  exact ⟨hok,logEntries_processed_before_outcome _ _ hok hrun (by decide) (by decide)⟩

def largeEntries : Item → ℕ
  | .allocationLogEntry _ => 10*1024*1024
  | _ => 100

/-- The outcomes are collected before the entries, of which only one fits: the second one reaches
the server after the outcome. -/
theorem large_entry_after_outcome : (run {} largeEntries callsThenFails).server.processed =
    [⟨0,.allocationLogEntry (callEntry 0)⟩,⟨2,.allocationOutcome failedOutcome⟩,
      ⟨1,.allocationLogEntry (callEntry 1)⟩] ∧
    (⟨1,.allocationLogEntry (callEntry 1)⟩ : Report).Precedes
      ⟨2,.allocationOutcome failedOutcome⟩ := by
  decide

end Heartbeats
end Indexify.Dataplane
