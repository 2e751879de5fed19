import Indexify.Dataplane.Heartbeats

/-! What leaves the buffers of reports. Reports reach the server in the order of their buffer
whatever fails; that a drained report was processed depends on the server still knowing the
executor when a later fragment of a heartbeat arrives. -/
namespace Indexify.Dataplane
open Outbox List
variable {received : List Report}

/-- A part of the history before which everything was received. -/
def IsPart (history received batch : List Report) : Prop :=
  ∃ older rest, history = older++batch++rest ∧ older ⊆ received

lemma IsPart.mono {history received' batch : List Report} (h : IsPart history received batch)
    (hreceived : received ⊆ received') (new : List Report) : IsPart (history++new) received' batch := by
  obtain ⟨older,rest,rfl,holder⟩ := h
  exact ⟨older,rest++new,by simp,List.Subset.trans holder hreceived⟩

lemma IsPart.subset {history batch : List Report} (h : IsPart history received batch) :
    batch ⊆ history := by
  obtain ⟨older,rest,rfl,-⟩ := h
  intro r hr
  simp [hr]

/-- The reports in the channels and the histories of the buffers are all different, carry the
right category and a number that was given out. -/
structure Placed (channels : Channel → List Report) (history : Category → List Report)
    (nextNumber : ℕ) : Prop where
  waiting : ∀ c, ∀ r ∈ channels c, r.category=c.category ∧ r.number<nextNumber
  stored : ∀ k, ∀ r ∈ history k, r.category=k ∧ r.number<nextNumber
  waitingNodup : ∀ c, (channels c).Nodup
  storedNodup : ∀ k, (history k).Nodup
  apart : ∀ c c', c≠c' → (channels c).Disjoint (channels c')
  fresh : ∀ c k, (channels c).Disjoint (history k)

namespace Placed
variable {channels : Channel → List Report} {history : Category → List Report} {nextNumber : ℕ}
  {c : Channel} {r : Report} {rs : List Report}

lemma send (h : Placed channels history nextNumber) (c : Channel) {item : Item}
    (hitem : item.category=c.category) :
    Placed (Function.update channels c (channels c++[⟨nextNumber,item⟩])) history
      (nextNumber+1) := by
  have hnew : ∀ c', (⟨nextNumber,item⟩ : Report) ∉ channels c' := fun c' hr =>
    absurd (h.waiting c' _ hr).2 (lt_irrefl nextNumber)
  have hmem : ∀ {c' r}, r ∈ Function.update channels c (channels c++[⟨nextNumber,item⟩]) c' →
      r ∈ channels c' ∨ c'=c ∧ r = ⟨nextNumber,item⟩ := by
    intro c' r hr
    by_cases hc : c'=c
    · subst hc
      rw [Function.update_self] at hr
      exact (mem_append.mp hr).imp_right fun hr => ⟨rfl,mem_singleton.mp hr⟩
    · rw [Function.update_of_ne hc] at hr
      exact .inl hr
  constructor
  · intro c' r hr
    rcases hmem hr with hr | ⟨rfl,rfl⟩
    · exact ⟨(h.waiting c' r hr).1,Nat.lt_succ_of_lt (h.waiting c' r hr).2⟩
    · exact ⟨hitem,Nat.lt_succ_self nextNumber⟩
  · exact fun k r hr => ⟨(h.stored k r hr).1,Nat.lt_succ_of_lt (h.stored k r hr).2⟩
  · refine (Function.forall_update_iff channels fun _ l => l.Nodup).mpr
      ⟨?_,fun c' _ => h.waitingNodup c'⟩
    exact nodup_append.mpr ⟨h.waitingNodup c,nodup_singleton _,
      fun a ha b hb hab => hnew c (mem_singleton.mp hb ▸ hab ▸ ha)⟩
  · exact h.storedNodup
  · intro c₁ c₂ hne r h₁ h₂
    rcases hmem h₁ with h₁ | ⟨rfl,rfl⟩
    · rcases hmem h₂ with h₂ | ⟨-,rfl⟩
      · exact h.apart c₁ c₂ hne h₁ h₂
      · exact hnew c₁ h₁
    rcases hmem h₂ with h₂ | ⟨hc,-⟩
    · exact hnew c₂ h₂
    · exact hne hc.symm
  · intro c' k r hr hstored
    rcases hmem hr with hr | ⟨rfl,rfl⟩
    · exact h.fresh c' k hr hstored
    · exact absurd (h.stored k _ hstored).2 (lt_irrefl nextNumber)

lemma drainChannel (h : Placed channels history nextNumber) (hc : channels c = r::rs)
    {history' : Category → List Report}
    (hhistory : ∀ k, history' k = history k ∨ k=c.category ∧ history' k = history k++[r]) :
    Placed (Function.update channels c rs) history' nextNumber := by
  have hr : r ∈ channels c := hc ▸ mem_cons_self
  have hnodup : (r::rs).Nodup := hc ▸ h.waitingNodup c
  have hmem : ∀ {c' r'}, r' ∈ Function.update channels c rs c' → r' ∈ channels c' ∧ r'≠r := by
    intro c' r' hr'
    by_cases hsame : c'=c
    · subst hsame
      rw [Function.update_self] at hr'
      exact ⟨hc ▸ mem_cons_of_mem _ hr',fun he => (nodup_cons.mp hnodup).1 (he ▸ hr')⟩
    · rw [Function.update_of_ne hsame] at hr'
      exact ⟨hr',fun he => h.apart c' c hsame hr' (he ▸ hr)⟩
  have hstored : ∀ {k r'}, r' ∈ history' k → r' ∈ history k ∨ k=c.category ∧ r'=r := by
    intro k r' hr'
    rcases hhistory k with he | ⟨hk,he⟩
    · exact .inl (he ▸ hr')
    · rw [he] at hr'
      exact (mem_append.mp hr').imp_right fun hr' => ⟨hk,mem_singleton.mp hr'⟩
  constructor
  · exact fun c' r' hr' => h.waiting c' r' (hmem hr').1
  · intro k r' hr'
    rcases hstored hr' with hr' | ⟨rfl,rfl⟩
    · exact h.stored k r' hr'
    · exact h.waiting c _ hr
  · exact (Function.forall_update_iff channels fun _ l => l.Nodup).mpr
      ⟨(nodup_cons.mp hnodup).2,fun c' _ => h.waitingNodup c'⟩
  · intro k
    rcases hhistory k with he | ⟨-,he⟩
    · exact he ▸ h.storedNodup k
    rw [he]
    exact nodup_append.mpr ⟨h.storedNodup k,nodup_singleton _,
      fun a ha b hb hab => h.fresh c k hr (mem_singleton.mp hb ▸ hab ▸ ha)⟩
  · exact fun c₁ c₂ hne r' h₁ h₂ => h.apart c₁ c₂ hne (hmem h₁).1 (hmem h₂).1
  · intro c' k r' hr' hs
    rcases hstored hs with hs | ⟨-,rfl⟩
    · exact h.fresh c' k (hmem hr').1 hs
    · exact (hmem hr').2 rfl

end Placed

/-! ### The server -/

namespace HeartbeatServer
variable (srv : HeartbeatServer) (f : Fragment) (v : Verdict)

@[simp] lemma processReports_received : (srv.processReports f v).1.received = srv.received := by
  unfold processReports
  split_ifs <;> rfl

@[simp] lemma heartbeat_received : (srv.heartbeat f v).1.received = srv.received++f.reports := by
  unfold heartbeat
  split_ifs
  · cases v.sync <;> simp
  · simp

lemma heartbeat_processed : (srv.heartbeat f v).1.processed = srv.processed ∨
    (srv.heartbeat f v).1.processed = srv.processed++f.reports.filter fun r => !v.fails r.number := by
  have hprocess : ∀ srv' : HeartbeatServer, (srv'.processReports f v).1.processed = srv'.processed ∨
      (srv'.processReports f v).1.processed =
        srv'.processed++f.reports.filter fun r => !v.fails r.number := by
    intro srv'
    unfold processReports
    cases srv'.known with
    | true => exact .inr rfl
    | false => exact .inl rfl
  unfold heartbeat
  split_ifs
  · cases v.sync with
    | applied => exact hprocess _
    | refused
    | interrupted => exact .inl rfl
  · exact hprocess _

lemma processed_subset : srv.processed ⊆ (srv.heartbeat f v).1.processed := by
  rcases srv.heartbeat_processed f v with he | he
  · exact he ▸ List.Subset.refl _
  · exact he ▸ subset_append_left _ _

lemma heartbeat_ok {sendState : Bool} (h : (srv.heartbeat f v).2 = .ok sendState) :
    f.reports ⊆ (srv.heartbeat f v).1.processed ∨ srv.known=false ∧ sendState=true := by
  have hprocess : ∀ srv' : HeartbeatServer, (srv'.processReports f v).2 = .ok sendState →
      f.reports ⊆ (srv'.processReports f v).1.processed ∨ srv'.known=false ∧ sendState=true := by
    intro srv' hok
    unfold processReports at hok ⊢
    cases hknown : srv'.known with
    | false =>
      simp only [hknown,Bool.false_eq_true,if_false,Answer.ok.injEq] at hok
      exact .inr ⟨rfl,hok.symm⟩
    | true =>
      split_ifs at hok with hany
      have hnone : ∀ r∈f.reports, v.fails r.number = false := by
        intro r hr
        by_contra hfails
        exact hany (any_eq_true.mpr ⟨r,hr,by simpa using hfails⟩)
      refine .inl fun r hr => mem_append_right _ (mem_filter.mpr ⟨hr,?_⟩)
      simp [hnone r hr]
  unfold heartbeat at h ⊢
  split_ifs at h ⊢
  · cases hsync : v.sync with
    | applied =>
      simp only [hsync] at h ⊢
      exact (hprocess _ h).imp_right fun hunknown => absurd hunknown.1 (by simp)
    | refused
    | interrupted => simp [hsync] at h
  · exact hprocess _ h

end HeartbeatServer

/-! ### Reports reach the server in order -/

lemma inOrder_reports {history : Category → List Report} {f : Fragment}
    (hstored : ∀ k, ∀ r ∈ history k, r.category=k) {k : Category} (hnodup : (history k).Nodup)
    (hparts : ∀ k, IsPart (history k) received (f.batch k)) (h : InOrder (history k) received) :
    InOrder (history k) (received++f.reports) := by
  have hforeign : ∀ k', k'≠k → ∀ r ∈ f.batch k', r ∉ history k := by
    intro k' hne r hr hk
    exact hne ((hstored k' r ((hparts k').subset hr)).symm.trans (hstored k r hk))
  obtain ⟨older,rest,hbatch,holder⟩ := hparts k
  have hgrown : ∀ new, older ⊆ received++new := fun new =>
    List.Subset.trans holder (subset_append_left _ _)
  unfold Fragment.reports
  rw [← append_assoc,← append_assoc]
  cases k with
  | commandResponses =>
    exact ((h.append_batch hnodup hbatch holder).append_foreign (hforeign _ (by decide))
      ).append_foreign (hforeign _ (by decide))
  | allocationLogEntries =>
    exact ((h.append_foreign (hforeign _ (by decide))).append_batch hnodup hbatch (hgrown _)
      ).append_foreign (hforeign _ (by decide))
  | allocationOutcomes =>
    refine ((h.append_foreign (hforeign _ (by decide))).append_foreign (hforeign _ (by decide))
      ).append_batch hnodup hbatch ?_
    rw [append_assoc]
    exact hgrown _

namespace Heartbeats

def history (s : Heartbeats) (k : Category) : List Report := (s.buffers k).history

/-- Where the reports are and what the server has seen of them. -/
structure Delivered (s : Heartbeats) : Prop where
  placed : Placed s.channels s.history s.nextNumber
  received : ∀ r∈s.server.received, r ∈ s.history r.category
  inOrder : ∀ k, InOrder (s.history k) s.server.received
  drained : ∀ k, (s.buffers k).drained ⊆ s.server.received
  collected : ∀ f∈s.stage.fragment, ∀ k, f.batch k <+: (s.buffers k).pending
  answered : ∀ f a, s.stage = .answered f a → f.reports ⊆ s.server.received
  abandoned : ∀ f∈s.abandoned, ∀ k, IsPart (s.history k) s.server.received (f.batch k)

namespace Delivered
variable {s : Heartbeats} {encodedLen : Item → ℕ} {f : Fragment}

lemma initial : Delivered {} where
  placed :=
    {waiting := by rintro c r ⟨⟩
     stored := by rintro k r ⟨⟩
     waitingNodup := fun _ => nodup_nil
     storedNodup := fun _ => nodup_nil
     apart := by rintro c c' - r ⟨⟩
     fresh := by rintro c k r ⟨⟩}
  received := by rintro r ⟨⟩
  inOrder := fun _ => Causal.nil
  drained := fun _ => nil_subset _
  collected := by rintro f ⟨⟩
  answered := by rintro f a ⟨⟩
  abandoned := by rintro f ⟨⟩

lemma send (h : Delivered s) (c : Channel) {item : Item} (hitem : item.category=c.category) :
    Delivered (s.send c item) :=
  {h with placed := h.placed.send c hitem}

lemma drainChannel (h : Delivered s) (c : Channel) : Delivered (s.drainChannel c) := by
  rcases s.drainChannel_cases c with he | ⟨r,rs,buffers,hc,he,hbuffers⟩
  · rw [he]
    exact h
  have hr : r ∈ s.channels c := hc ▸ mem_cons_self
  have hnew : r∉s.server.received := fun hrec => h.placed.fresh c _ hr (h.received r hrec)
  have hhistory : ∀ k, (buffers k).history = s.history k ∨
      k = c.category ∧ (buffers k).history = s.history k++[r] := fun k =>
    (hbuffers k).imp (fun he => congrArg Outbox.history he) fun ⟨hk,he⟩ =>
      ⟨hk,(congrArg Outbox.history he).trans history_push⟩
  have hgrown : ∀ k, ∃ new, (buffers k).history = s.history k++new := fun k =>
    (hhistory k).elim (fun he => ⟨[],by rw [he,append_nil]⟩) fun he => ⟨[r],he.2⟩
  have hreceived : ∀ r∈s.server.received, r ∈ (buffers r.category).history := by
    intro r' hr'
    obtain ⟨new,he⟩ := hgrown r'.category
    rw [he]
    exact mem_append_left new (h.received r' hr')
  have hbuffer : ∀ k, InOrder (buffers k).history s.server.received ∧
      (buffers k).drained ⊆ s.server.received ∧
      ∀ f∈s.stage.fragment, f.batch k <+: (buffers k).pending := by
    intro k
    rcases hbuffers k with he | ⟨-,he⟩
    · rw [he]
      exact ⟨h.inOrder k,h.drained k,fun f hf => h.collected f hf k⟩
    · rw [he,history_push]
      exact ⟨(h.inOrder k).push hnew,h.drained k,fun f hf => prefix_push (h.collected f hf k)⟩
  have habandoned : ∀ f∈s.abandoned, ∀ k, IsPart (buffers k).history s.server.received (f.batch k) := by
    intro f hf k
    obtain ⟨new,he⟩ := hgrown k
    rw [he]
    exact (h.abandoned f hf k).mono (List.Subset.refl _) new
  rw [he]
  exact ⟨h.placed.drainChannel hc hhistory,hreceived,fun k => (hbuffer k).1,
    fun k => (hbuffer k).2.1,fun f hf k => (hbuffer k).2.2 f hf,h.answered,habandoned⟩

lemma collect_isPrefix {buffers : Category → PendingBuffer} (hf : ∀ k, f.batch k <+: (buffers k).pending)
    (category : Category) (baseSize : ℕ) (k : Category) :
    (f.collect encodedLen category (buffers category) baseSize).batch k <+: (buffers k).pending := by
  by_cases hk : k=category
  · subst hk
    simp only [Fragment.collect,Function.update_self]
    exact PendingBuffer.collect_isPrefix baseSize _
  · simp only [Fragment.collect,Function.update_of_ne hk]
    exact hf k

variable (h : Delivered s)
include h

lemma advance : Delivered (s.advance encodedLen) := by
  have hstart : ∀ isFirst k, (s.begin encodedLen isFirst).batch k <+: (s.buffers k).pending :=
    fun isFirst => collect_isPrefix (fun _ => List.nil_prefix) _ _
  unfold Heartbeats.advance
  cases hstage : s.stage with
  | idle =>
    refine {h with collected := ?_, answered := by rintro f a ⟨⟩}
    rintro f ⟨rfl⟩
    exact hstart true
  | nextFragment =>
    refine {h with collected := ?_, answered := by rintro f a ⟨⟩}
    rintro f ⟨rfl⟩
    exact hstart false
  | responsesCollected f
  | outcomesCollected f =>
    refine {h with collected := ?_, answered := by rintro f a ⟨⟩}
    rintro f' ⟨rfl⟩
    exact collect_isPrefix (h.collected f (by rw [hstage]; rfl)) _ _
  | sent f
  | answered f a => exact h

lemma isPart (hf : f∈s.stage.fragment) (k : Category) :
    IsPart (s.history k) s.server.received (f.batch k) := by
  obtain ⟨rest,hrest⟩ := history_of_prefix (h.collected f hf k)
  exact ⟨_,rest,hrest,h.drained k⟩

lemma receive (v : Verdict) (hparts : ∀ k, IsPart (s.history k) s.server.received (f.batch k))
    {stage : Stage} (hstage : stage.fragment=s.stage.fragment ∨ stage.fragment=none)
    (hanswered : ∀ f' a, stage = .answered f' a → f'=f ∨ s.stage = .answered f' a)
    {abandoned : List Fragment} (habandoned : abandoned ⊆ s.abandoned) :
    Delivered {s with
      server := (s.server.heartbeat f v).1, stage := stage, abandoned := abandoned} := by
  have hreceived : (s.server.heartbeat f v).1.received = s.server.received++f.reports :=
    s.server.heartbeat_received f v
  have hstored : ∀ k, ∀ r ∈ s.history k, r.category=k := fun k r hr => (h.placed.stored k r hr).1
  constructor
  · exact h.placed
  · intro r hr
    rw [hreceived] at hr
    rcases mem_append.mp hr with hr | hr
    · exact h.received r hr
    obtain ⟨k,hk⟩ := Fragment.mem_reports.mp hr
    have hmem := (hparts k).subset hk
    exact (hstored k r hmem).symm ▸ hmem
  · intro k
    rw [hreceived]
    exact inOrder_reports hstored (h.placed.storedNodup k) hparts (h.inOrder k)
  · intro k
    rw [hreceived]
    exact List.Subset.trans (h.drained k) (subset_append_left _ _)
  · intro f' hf'
    rcases hstage with he | he
    · exact h.collected f' (he ▸ hf')
    · rw [he] at hf'
      cases hf'
  · intro f' a ha
    rw [hreceived]
    rcases hanswered f' a ha with rfl | ha
    · exact subset_append_right _ _
    · exact List.Subset.trans (h.answered f' a ha) (subset_append_left _ _)
  · intro f' hf' k
    have := (h.abandoned f' (habandoned hf') k).mono
      (hreceived ▸ subset_append_left s.server.received f.reports) []
    rwa [append_nil] at this

lemma arrive (v : Verdict) : Delivered (s.arrive v) := by
  unfold Heartbeats.arrive
  cases hstage : s.stage with
  | sent f =>
    refine h.receive v (fun k => h.isPart (by rw [hstage]; rfl) k) (.inl (by rw [hstage]; rfl)) ?_
      (List.Subset.refl _)
    rintro f' a ⟨⟩
    exact .inl rfl
  | _ => exact h

lemma arriveLate (i : ℕ) (v : Verdict) : Delivered (s.arriveLate i v) := by
  unfold Heartbeats.arriveLate
  cases hf : s.abandoned[i]? with
  | none => exact h
  | some f =>
    exact h.receive v (h.abandoned f (mem_of_getElem? hf)) (.inl rfl)
      (fun f' a ha => .inr ha) (eraseIdx_sublist _ _).subset

lemma settle {s' : Heartbeats} (hchannels : s'.channels=s.channels)
    (hhistory : s'.history=s.history) (hnumber : s'.nextNumber=s.nextNumber)
    (hserver : s'.server=s.server) (habandoned : s'.abandoned=s.abandoned)
    (hdrained : ∀ k, (s'.buffers k).drained ⊆ s.server.received)
    (hstage : s'.stage=.idle ∨ s'.stage=.nextFragment) : Delivered s' := by
  have hnone : s'.stage.fragment=none := by rcases hstage with he | he <;> rw [he] <;> rfl
  constructor
  · rw [hchannels,hhistory,hnumber]
    exact h.placed
  · rw [hserver,hhistory]
    exact h.received
  · rw [hserver,hhistory]
    exact h.inOrder
  · rw [hserver]
    exact hdrained
  · rw [hnone]
    rintro f ⟨⟩
  · intro f a ha
    rw [ha] at hnone
    cases hnone
  · rw [hserver,hhistory,habandoned]
    exact h.abandoned

lemma rpcFailed : Delivered s.rpcFailed :=
  h.settle rfl rfl rfl rfl rfl h.drained (.inl rfl)

lemma rpcSucceeded (sendState : Bool) (hf : f∈s.stage.fragment)
    (hreceived : f.reports ⊆ s.server.received) : Delivered (s.rpcSucceeded f sendState) := by
  rcases s.rpcSucceeded_cases f sendState with ⟨-,cmd,res,he⟩ | ⟨-,cmd,res,conn,stage,he,hstage⟩
  · rw [he]
    exact h.settle rfl rfl rfl rfl rfl h.drained (.inl rfl)
  rw [he]
  refine h.settle rfl (funext fun k => history_drain) rfl rfl rfl (fun k => ?_) hstage
  rw [drained_drain (h.collected f hf k)]
  exact append_subset.mpr
    ⟨h.drained k,fun r hr => hreceived (Fragment.mem_reports.mpr ⟨k,hr⟩)⟩

lemma answer : Delivered s.answer := by
  unfold Heartbeats.answer
  cases hstage : s.stage with
  | answered f a =>
    cases a with
    | error => exact h.rpcFailed
    | ok sendState => exact h.rpcSucceeded sendState (by rw [hstage]; rfl) (h.answered f _ hstage)
  | _ => exact h

lemma fail : Delivered s.fail := by
  unfold Heartbeats.fail
  cases hstage : s.stage with
  | sent f =>
    refine {h.rpcFailed with abandoned := fun f' hf' => ?_}
    rcases mem_append.mp hf' with hf' | hf'
    · exact h.abandoned f' hf'
    · obtain rfl := mem_singleton.mp hf'
      exact h.isPart (by rw [hstage]; rfl)
  | answered f a => exact h.rpcFailed
  | _ => exact h

lemma step (e : HeartbeatEvent) : Delivered (s.step encodedLen e) := by
  cases e with
  | sendResponse response => exact h.send .response rfl
  | sendContainerResponse response => exact h.send .containerResponse rfl
  | sendLogEntry entry => exact h.send .activity rfl
  | sendOutcome outcome => exact h.send .outcome rfl
  | drainChannel c => exact h.drainChannel c
  | advance => exact h.advance
  | arrive v => exact h.arrive v
  | arriveLate i v => exact h.arriveLate i v
  | answer => exact h.answer
  | fail => exact h.fail
  | forget => exact {h with}

end Delivered

/-! ### Only processed reports are drained -/

/-- A later fragment of a heartbeat finds an executor that the server still knows. -/
def Recognised (s : Heartbeats) : HeartbeatEvent → Prop
  | .arrive _ => ∀ f∈s.stage.underWay, f.isFirst=false → s.server.known=true
  | _ => True

instance (s : Heartbeats) (e : HeartbeatEvent) : Decidable (s.Recognised e) := by
  unfold Recognised
  split <;> infer_instance

/-- Everything drained was processed, and so is what an answer allows to drain. -/
structure Accounted (s : Heartbeats) : Prop where
  drained : ∀ k, (s.buffers k).drained ⊆ s.server.processed
  answered : ∀ f sendState, s.stage = .answered f (.ok sendState) →
    (f.isFirst && sendState) = false → f.reports ⊆ s.server.processed

namespace Accounted
variable {s s' : Heartbeats} {encodedLen : Item → ℕ} {f : Fragment}

lemma initial : Accounted {} := ⟨fun _ => nil_subset _,by rintro f sendState ⟨⟩⟩

variable (h : Accounted s)
include h

lemma frame (hdrained : ∀ k, (s'.buffers k).drained = (s.buffers k).drained)
    (hprocessed : s.server.processed ⊆ s'.server.processed)
    (hstage : ∀ f a, s'.stage = .answered f a → s.stage = .answered f a) : Accounted s' where
  drained k := hdrained k ▸ List.Subset.trans (h.drained k) hprocessed
  answered f sendState hf hread :=
    List.Subset.trans (h.answered f sendState (hstage f _ hf) hread) hprocessed

lemma drainChannel (c : Channel) : Accounted (s.drainChannel c) := by
  rcases s.drainChannel_cases c with he | ⟨r,rs,buffers,-,he,hbuffers⟩
  · rw [he]
    exact h
  rw [he]
  refine h.frame (fun k => ?_) (List.Subset.refl _) fun f a hf => hf
  change (buffers k).drained = (s.buffers k).drained
  rcases hbuffers k with he | ⟨-,he⟩
  · rw [he]
  · rw [he]
    rfl

lemma advance : Accounted (s.advance encodedLen) := by
  unfold Heartbeats.advance
  cases s.stage with
  | sent f
  | answered f a => exact h
  | _ => exact h.frame (fun k => rfl) (List.Subset.refl _) (by rintro f a ⟨⟩)

lemma arrive {v : Verdict} (hok : s.Recognised (.arrive v)) : Accounted (s.arrive v) := by
  unfold Heartbeats.arrive
  cases hstage : s.stage with
  | sent f =>
    refine ⟨fun k => List.Subset.trans (h.drained k) (s.server.processed_subset f v),?_⟩
    rintro f' sendState hf hread
    obtain ⟨rfl,hanswer⟩ := Stage.answered.inj hf
    refine (s.server.heartbeat_ok f v hanswer).resolve_right fun ⟨hunknown,hsend⟩ => ?_
    -- an unknown executor is asked for its state, which only the first fragment reads
    rw [hsend,Bool.and_true] at hread
    exact absurd (hok f (by rw [hstage]; rfl) hread) (by simp [hunknown])
  | _ => exact h

lemma arriveLate (i : ℕ) (v : Verdict) : Accounted (s.arriveLate i v) := by
  unfold Heartbeats.arriveLate
  cases s.abandoned[i]? with
  | none => exact h
  | some f => exact h.frame (fun k => rfl) (s.server.processed_subset f v) fun f a hf => hf

lemma rpcFailed : Accounted s.rpcFailed :=
  h.frame (fun k => rfl) (List.Subset.refl _) (by rintro f a ⟨⟩)

lemma answer (hs : Delivered s) : Accounted s.answer := by
  unfold Heartbeats.answer
  cases hstage : s.stage with
  | answered f a =>
    cases a with
    | error => exact h.rpcFailed
    | ok sendState =>
      dsimp only
      rcases s.rpcSucceeded_cases f sendState with
        ⟨-,cmd,res,he⟩ | ⟨hread,cmd,res,conn,stage,he,hidle⟩
      · rw [he]
        exact h.frame (fun k => rfl) (List.Subset.refl _) (by rintro f a ⟨⟩)
      rw [he]
      constructor
      · intro k
        have hpre := hs.collected f (by rw [hstage]; rfl) k
        have hbatch : f.batch k ⊆ s.server.processed := fun r hr =>
          h.answered f sendState hstage hread (Fragment.mem_reports.mpr ⟨k,hr⟩)
        exact drained_drain hpre ▸ append_subset.mpr ⟨h.drained k,hbatch⟩
      · rintro f' sendState' hf'
        rcases hidle with rfl | rfl
        · cases hf'
        · cases hf'
  | _ => exact h

lemma fail : Accounted s.fail := by
  unfold Heartbeats.fail
  cases s.stage with
  | sent f => exact {h.rpcFailed with}
  | answered f a => exact h.rpcFailed
  | _ => exact h

lemma step (hs : Delivered s) {e : HeartbeatEvent} (hok : s.Recognised e) :
    Accounted (s.step encodedLen e) := by
  cases e with
  | drainChannel c => exact h.drainChannel c
  | advance => exact h.advance
  | arrive v => exact h.arrive hok
  | arriveLate i v => exact h.arriveLate i v
  | answer => exact h.answer hs
  | fail => exact h.fail
  | _ => exact {h with}

end Accounted

/-- Reports reach the server in the order of their buffers, and a report leaves its buffer only
after it was processed, as long as no later fragment finds a forgotten executor. -/
theorem drained_only_after_processing (encodedLen : Item → ℕ) (events : List HeartbeatEvent)
    (h : Trace.Along (fun s => step s encodedLen) Recognised {} events) :
    (∀ k, ∀ r ∈ ((run {} encodedLen events).buffers k).drained,
      r ∈ (run {} encodedLen events).server.processed) ∧
      ∀ k, InOrder ((run {} encodedLen events).buffers k).history
        (run {} encodedLen events).server.received := by
  have hall : Delivered (run {} encodedLen events) ∧ Accounted (run {} encodedLen events) :=
    @Trace.Along.invariant _ _ (fun s => step s encodedLen) Recognised
      (fun s => Delivered s ∧ Accounted s) (fun hs hok => ⟨hs.1.step _,hs.2.step hs.1 hok⟩) {} events
      ⟨.initial,.initial⟩ h
  exact ⟨hall.2.drained,hall.1.inOrder⟩

/-- The executor registers: the first heartbeat asks for its state, the second one brings it. -/
def registration : List HeartbeatEvent :=
  [.advance,.advance,.advance,.arrive {},.answer,.advance,.advance,.advance,.arrive {},.answer]

def twoFragments (between : List HeartbeatEvent) : List HeartbeatEvent :=
  registration++[.sendResponse ⟨some 1,none⟩,.sendResponse ⟨some 2,none⟩,.drainChannel .response,
    .drainChannel .response,.advance,.advance,.advance,.arrive {},.answer]++between ++
    [.advance,.advance,.advance,.arrive {},.answer]

theorem twoFragments_drained_processed :
    Trace.Along (fun s => step s fun _ => 10*1024*1024) Recognised {} (twoFragments []) ∧
      (((run {} (fun _ => 10*1024*1024) (twoFragments [])).buffers
        .commandResponses).drained).length = 2 ∧
      ∀ r ∈ ((run {} (fun _ => 10*1024*1024) (twoFragments [])).buffers .commandResponses).drained,
        r ∈ (run {} (fun _ => 10*1024*1024) (twoFragments [])).server.processed := by
  have hok : Trace.Along (fun s => step s fun _ => 10*1024*1024) Recognised {}
    (twoFragments []) := by decide
  exact ⟨hok,by decide,(drained_only_after_processing _ _ hok).1 _⟩

/-- The server forgets the executor between two fragments: the second one is dropped with
success, and the dataplane drains it. -/
theorem forgotten_between_fragments_drains_unprocessed :
    ∃ r ∈ ((run {} (fun _ => 10*1024*1024) (twoFragments [.forget])).buffers
        .commandResponses).drained,
      r ∉ (run {} (fun _ => 10*1024*1024) (twoFragments [.forget])).server.processed :=
  ⟨⟨1,.commandResponse ⟨some 2,none⟩⟩,by decide,by decide⟩

/-- Whatever is lost, delayed or forgotten on the way: the server receives only reports that were
buffered, no report is buffered twice, none leaves its buffer before the server received it, and
what is in flight is always the front of a buffer. -/
theorem run_reports_received (encodedLen : Item → ℕ) (events : List HeartbeatEvent) :
    let s := run {} encodedLen events
    (∀ r∈s.server.received, r ∈ s.history r.category) ∧ ∀ k, (s.history k).Nodup ∧
      (s.buffers k).drained ⊆ s.server.received ∧
      ∀ f∈s.stage.fragment, f.batch k <+: (s.buffers k).pending := by
  have hall : Delivered (run {} encodedLen events) :=
    Trace.invariant (fun e h => h.step e) .initial events
  exact ⟨hall.received,fun k => ⟨hall.placed.storedNodup k,hall.drained k,
    fun f hf => hall.collected f hf k⟩⟩

end Heartbeats
end Indexify.Dataplane
