import Indexify.Dataplane.PollLoops

/-! The cursors of the poll loops across registrations. The dataplane forgets its cursors when a
full state was accepted that it had sent while registering; the loops then start at the new
streams. -/
namespace Indexify.Dataplane
open List

/-! ### Full states and answers -/

namespace HeartbeatServer
variable (srv : HeartbeatServer) (f : Fragment) (v : Verdict)

lemma processReports_registrations : (srv.processReports f v).1.registrations = srv.registrations := by
  unfold processReports
  split_ifs <;> rfl

lemma heartbeat_registrations (h : f.fullState=true → v.sync≠.applied) :
    (srv.heartbeat f v).1.registrations = srv.registrations := by
  unfold heartbeat
  split_ifs with hfull
  · cases hsync : v.sync with
    | applied => exact absurd hsync (h hfull)
    | refused
    | interrupted => rfl
  · exact processReports_registrations _ f v

lemma heartbeat_registers (hfull : f.fullState=true) (h : v.sync=.applied) :
    (srv.heartbeat f v).1.registrations = srv.registrations+1 := by
  unfold heartbeat
  simp only [hfull,h,if_true]
  exact processReports_registrations _ f v

lemma heartbeat_error (hfull : f.fullState=true) (h : v.sync≠.applied) :
    (srv.heartbeat f v).2 = .error := by
  unfold heartbeat
  simp only [hfull]
  cases hsync : v.sync with
  | applied => exact absurd hsync h
  | refused
  | interrupted => rfl

end HeartbeatServer

namespace Heartbeats

/-- What the loop has decided about the request it works on. -/
structure Framed (h : Heartbeats) : Prop where
  fullState : ∀ f∈h.stage.fragment, f.fullState=h.sendFullState
  first : ∀ f∈h.stage.fragment, f.fullState=true → f.isFirst=true
  registering : ∀ f∈h.stage.fragment, f.forRegistration=true → h.connectionState=.registering
  later : h.stage=.nextFragment → h.sendFullState=false

namespace Framed
variable {h : Heartbeats} {encodedLen : Item → ℕ}

lemma of_idle (hstage : h.stage=.idle) : Framed h where
  fullState := by rw [hstage]; rintro f ⟨⟩
  first := by rw [hstage]; rintro f ⟨⟩
  registering := by rw [hstage]; rintro f ⟨⟩
  later hnext := by rw [hstage] at hnext; cases hnext

lemma of_fragment (hf : Framed h) {h' : Heartbeats} (f : Fragment) {f' : Fragment}
    (hold : h.stage.fragment = some f) (hnew : h'.stage.fragment = some f')
    (hsend : h'.sendFullState=h.sendFullState) (hconn : h'.connectionState=h.connectionState)
    (hfull : f'.fullState=f.fullState) (hfirst : f'.isFirst=f.isFirst)
    (hreg : f'.forRegistration=f.forRegistration) : Framed h' where
  fullState := by
    rw [hnew]
    rintro g ⟨rfl⟩
    rw [hfull,hsend]
    exact hf.fullState f hold
  first := by
    rw [hnew]
    rintro g ⟨rfl⟩
    rw [hfull,hfirst]
    exact hf.first f hold
  registering := by
    rw [hnew]
    rintro g ⟨rfl⟩
    rw [hreg,hconn]
    exact hf.registering f hold
  later hnext := by
    rw [hnext] at hnew
    cases hnew

lemma begin_framed (isFirst : Bool) (hlater : isFirst=false → h.sendFullState=false) :
    Framed {h with stage := .responsesCollected (h.begin encodedLen isFirst)} where
  fullState := by
    rintro f ⟨rfl⟩
    cases isFirst with
    | true => rfl
    | false => exact (hlater rfl).symm
  first := by
    rintro f ⟨rfl⟩ hfull
    exact (Bool.and_eq_true_iff.mp hfull).1
  registering := by
    rintro f ⟨rfl⟩ hreg
    exact eq_of_beq (Bool.and_eq_true_iff.mp hreg).2
  later := by rintro ⟨⟩

lemma advance (hf : Framed h) : Framed (h.advance encodedLen) := by
  unfold Heartbeats.advance
  cases hstage : h.stage with
  | idle => exact begin_framed true (by rintro ⟨⟩)
  | nextFragment => exact begin_framed false fun _ => hf.later hstage
  | responsesCollected f
  | outcomesCollected f =>
    exact hf.of_fragment f (by rw [hstage]; rfl) rfl rfl rfl rfl rfl rfl
  | sent f
  | answered f a => exact hf

lemma rpcSucceeded (f : Fragment) (sendState : Bool) : Framed (h.rpcSucceeded f sendState) := by
  rcases h.rpcSucceeded_cases f sendState with ⟨-,cmd,res,he⟩ | ⟨-,cmd,res,conn,stage,he,hstage⟩
  · rw [he]
    exact of_idle rfl
  rw [he]
  rcases hstage with rfl | rfl
  · exact of_idle rfl
  exact
    {fullState := by rintro f ⟨⟩
     first := by rintro f ⟨⟩
     registering := by rintro f ⟨⟩
     later := fun _ => rfl}

lemma arrive (hf : Framed h) (v : Verdict) : Framed (h.arrive v) := by
  unfold Heartbeats.arrive
  cases hstage : h.stage with
  | sent f => exact hf.of_fragment f (by rw [hstage]; rfl) rfl rfl rfl rfl rfl rfl
  | _ => exact hf

lemma step (hf : Framed h) (e : HeartbeatEvent) : Framed (h.step encodedLen e) := by
  cases e with
  | sendResponse response
  | sendContainerResponse response
  | sendLogEntry entry
  | sendOutcome outcome
  | forget => exact {hf with}
  | drainChannel c =>
    change Framed (h.drainChannel c)
    unfold Heartbeats.drainChannel
    cases h.channels c with
    | nil => exact hf
    | cons r rs => exact {hf with}
  | advance => exact hf.advance
  | arrive v => exact hf.arrive v
  | arriveLate i v =>
    change Framed (h.arriveLate i v)
    unfold Heartbeats.arriveLate
    cases h.abandoned[i]? with
    | none => exact hf
    | some f => exact {hf with}
  | answer =>
    change Framed h.answer
    unfold Heartbeats.answer
    cases h.stage with
    | answered f a =>
      cases a with
      | error => exact of_idle rfl
      | ok sendState => exact rpcSucceeded f sendState
    | _ => exact hf
  | fail =>
    change Framed h.fail
    unfold Heartbeats.fail
    cases h.stage with
    | sent f
    | answered f a => exact of_idle rfl
    | _ => exact hf

end Framed
end Heartbeats

/-! ### Cursors of the current streams -/

namespace Heartbeats
variable (h : Heartbeats)

lemma lastApplied_rpcSucceeded (f : Fragment) (sendState : Bool) (kind : StreamKind) :
    (h.rpcSucceeded f sendState).lastApplied kind =
      if f.isFirst && f.fullState && f.forRegistration then 0 else h.lastApplied kind := by
  have hreset : (h.rpcSucceeded f sendState).lastApplied kind = (h.resetSeqs f).lastApplied kind := by
    unfold rpcSucceeded
    cases f.isFirst && sendState <;> cases kind <;> rfl
  rw [hreset]
  unfold resetSeqs
  split_ifs
  · cases kind <;> rfl
  · rfl

lemma lastApplied_store (seq : ℕ) (kind kind' : StreamKind) :
    (h.storeLastApplied seq kind).lastApplied kind' = if kind'=kind then seq else h.lastApplied kind' := by
  cases kind <;> cases kind' <;> rfl

@[simp] lemma server_store (seq : ℕ) (kind : StreamKind) :
    (h.storeLastApplied seq kind).server = h.server := by
  cases kind <;> rfl

end Heartbeats

def PollLoop.items : PollLoop → List Sequenced
  | paused | admitted | waiting => []
  | answered items | handling items _ => items

namespace Polling

/-- Both loops wait for the connection, and no poll is on its way. -/
def Quiet (s : Polling) : Prop :=
  s.loops .commands = .paused ∧ s.loops .results = .paused ∧ s.requests = []
  deriving Decidable

/-- A full state is accepted only from a loop that registers and has not given it up, and while
nothing is polled. -/
def Settled (s : Polling) : PollEvent → Prop
  | .beat (.arrive v) => ∀ f∈s.heartbeats.stage.underWay, f.fullState=true →
    v.sync = .applied → f.forRegistration=true ∧ s.Quiet
  | .beat (.arriveLate i v) => ∀ f ∈ s.heartbeats.abandoned[i]?, f.fullState=true → v.sync ≠ .applied
  | _ => True

instance (s : Polling) (e : PollEvent) : Decidable (s.Settled e) := by
  unfold Settled
  split <;> infer_instance

def AppliedUpTo (s : Polling) (kind : StreamKind) (ack : ℕ) : Prop :=
  ∀ n, 0<n → n ≤ ack → ⟨s.current,n⟩ ∈ s.applied kind

/-- The cursors count what was applied of the current streams, or they are those of old streams
and nothing is polled until the full state was accepted. -/
structure Cursors (s : Polling) : Prop where
  framed : s.heartbeats.Framed
  accepted : ∀ f sendState, s.heartbeats.stage = .answered f (.ok sendState) →
    f.fullState = true → f.forRegistration=true ∧ s.Quiet
  cursors : (∀ kind, s.AppliedUpTo kind (s.heartbeats.lastApplied kind)) ∨
    s.heartbeats.sendFullState = true ∧ s.heartbeats.connectionState≠.ready ∧ s.Quiet
  requests : ∀ r∈s.requests, s.AppliedUpTo r.1 r.2
  numbered : ∀ kind, 0<(s.streams kind).nextSeq
  pending : ∀ kind, ∀ x ∈ (s.streams kind).pending, x.stream=s.current ∧ 0<x.seq
  items : ∀ kind, ∀ x ∈ (s.loops kind).items, x.stream=s.current
  expected : ∀ kind items nextSeq, s.loops kind = .handling items nextSeq →
    nextSeq = s.heartbeats.lastApplied kind+1
  acked : ∀ kind, ∀ x ∈ s.acked kind, ∀ n, 0<n → n ≤ x.seq → ⟨x.stream,n⟩ ∈ s.applied kind
  dropped : ∀ kind, ∀ x ∈ s.dropped kind, x ∈ s.applied kind

namespace Cursors
variable {s : Polling} {encodedLen : Item → ℕ} {kind : StreamKind} {h : Heartbeats}

lemma initial : Cursors {} where
  framed := Heartbeats.Framed.of_idle rfl
  accepted := by rintro f sendState ⟨⟩
  cursors := .inl fun kind n hn hle => by cases kind <;> exact absurd hn (Nat.not_lt.mpr hle)
  requests := by rintro r ⟨⟩
  numbered := fun _ => Nat.one_pos
  pending := by rintro kind x ⟨⟩
  items := by rintro kind x ⟨⟩
  expected := by rintro kind items nextSeq ⟨⟩
  acked := by rintro kind x ⟨⟩
  dropped := by rintro kind x ⟨⟩

lemma paused_of_quiet (h : s.Quiet) (kind : StreamKind) : s.loops kind = .paused := by
  cases kind with
  | commands => exact h.1
  | results => exact h.2.1

/-! #### The heartbeat loop -/

variable (hc : Cursors s)
include hc

lemma beat_same (hframed : h.Framed) (hsame : h.server.registrations=s.current)
    (haccepted : ∀ f sendState, h.stage = .answered f (.ok sendState) → f.fullState=true →
      f.forRegistration = true ∧ s.Quiet) (hcursors : (∀ kind, s.AppliedUpTo kind (h.lastApplied kind)) ∨
      h.sendFullState = true ∧ h.connectionState≠.ready ∧ s.Quiet)
    (hexpected : ∀ kind, h.lastApplied kind = s.heartbeats.lastApplied kind ∨ s.Quiet) :
    Cursors (s.follow h) := by
  rw [follow,if_pos hsame]
  have hcurrent : Polling.current {s with heartbeats := h} = s.current := hsame
  have happlied : ∀ kind ack, Polling.AppliedUpTo {s with heartbeats := h} kind ack ↔
      s.AppliedUpTo kind ack := by
    intro kind ack
    unfold AppliedUpTo
    rw [hcurrent]
  constructor
  · exact hframed
  · exact haccepted
  · exact hcursors.imp_left fun hup kind => (happlied kind _).mpr (hup kind)
  · exact fun r hr => (happlied _ _).mpr (hc.requests r hr)
  · exact hc.numbered
  · rw [hcurrent]
    exact hc.pending
  · rw [hcurrent]
    exact hc.items
  · intro kind items nextSeq hloop
    rcases hexpected kind with he | hquiet
    · rw [hc.expected kind items nextSeq hloop]
      exact congrArg (· + 1) he.symm
    · cases (paused_of_quiet hquiet kind).symm.trans hloop
  · exact hc.acked
  · exact hc.dropped

lemma beat_frame (hframed : h.Framed) (hsame : h.server.registrations=s.current)
    (hstage : ∀ f a, h.stage = .answered f a → s.heartbeats.stage = .answered f a)
    (hsend : h.sendFullState=s.heartbeats.sendFullState)
    (hconn : h.connectionState=s.heartbeats.connectionState)
    (hcursor : ∀ kind, h.lastApplied kind = s.heartbeats.lastApplied kind) : Cursors (s.follow h) := by
  refine hc.beat_same hframed hsame (fun f sendState hf => hc.accepted f sendState (hstage f _ hf))
    ?_ fun kind => .inl (hcursor kind)
  rw [hsend,hconn]
  exact hc.cursors.imp_left fun hup kind => (hcursor kind).symm ▸ hup kind

lemma rpcFailed (hframed : h.Framed) (hserver : h.server=s.heartbeats.server) (hstage : h.stage=.idle)
    (hsend : h.sendFullState=s.heartbeats.sendFullState) (hconn : h.connectionState=.unhealthy)
    (hcursor : ∀ kind, h.lastApplied kind = s.heartbeats.lastApplied kind) : Cursors (s.follow h) := by
  refine hc.beat_same hframed (by rw [hserver]; rfl) ?_ ?_ fun kind => .inl (hcursor kind)
  · intro f sendState hf
    rw [hstage] at hf
    cases hf
  · refine hc.cursors.imp (fun hup kind => (hcursor kind).symm ▸ hup kind) fun hold => ?_
    exact ⟨hsend.trans hold.1,by rw [hconn]; decide,hold.2.2⟩

lemma rpcSucceeded {f : Fragment} {sendState : Bool}
    (hstage : s.heartbeats.stage = .answered f (.ok sendState)) :
    Cursors (s.follow (s.heartbeats.rpcSucceeded f sendState)) := by
  have hf : f∈s.heartbeats.stage.fragment := by rw [hstage]; rfl
  have hserver : (s.heartbeats.rpcSucceeded f sendState).server = s.heartbeats.server ∧
      ∀ g a, (s.heartbeats.rpcSucceeded f sendState).stage ≠ .answered g a := by
    rcases s.heartbeats.rpcSucceeded_cases f sendState with
      ⟨-,cmd,res,he⟩ | ⟨-,cmd,res,conn,stage,he,hidle⟩
    · rw [he]
      exact ⟨rfl,by rintro g a ⟨⟩⟩
    rw [he]
    refine ⟨rfl,fun g a hg => ?_⟩
    rcases hidle with rfl | rfl <;> cases hg
  have hcursor := s.heartbeats.lastApplied_rpcSucceeded f sendState
  refine hc.beat_same (.rpcSucceeded f sendState) (congrArg (·.registrations) hserver.1)
    (fun g a hg => absurd hg (hserver.2 g _)) (.inl fun kind => ?_) fun kind => ?_
  · rw [hcursor]
    cases hfull : f.fullState with
    | true =>
      rw [(hc.accepted f sendState hstage hfull).1,hc.framed.first f hf hfull]
      exact fun n hn hle => absurd hn (Nat.not_lt.mpr hle)
    | false =>
      rw [Bool.and_false,Bool.false_and]
      refine hc.cursors.elim (· kind) fun hold => ?_
      exact absurd (hc.framed.fullState f hf) (by rw [hfull,hold.1]; decide)
  · rw [hcursor]
    cases hfull : f.fullState with
    | true => exact .inr (hc.accepted f sendState hstage hfull).2
    | false =>
      rw [Bool.and_false]
      exact .inl rfl

lemma register (hframed : h.Framed) {f : Fragment} {a : Answer} (hstage : h.stage = .answered f a)
    (hreg : f.forRegistration=true) (hquiet : s.Quiet) (hsend : h.sendFullState=true)
    (hnew : h.server.registrations≠s.current) : Cursors (s.follow h) := by
  rw [follow,if_neg hnew]
  have hconn : h.connectionState=.registering :=
    hframed.registering f (by rw [hstage]; rfl) hreg
  have hpaused : ∀ kind, s.loops kind = .paused := paused_of_quiet hquiet
  constructor
  · exact hframed
  · intro g sendState hg hfull
    rw [show h.stage = _ from hg] at hstage
    obtain ⟨rfl,-⟩ := Stage.answered.inj hstage
    exact ⟨hreg,hquiet⟩
  · exact .inr ⟨hsend,by rw [hconn]; decide,hquiet⟩
  · intro r hr
    rw [show s.requests = _ from hquiet.2.2] at hr
    cases hr
  · exact fun kind => Nat.one_pos
  · rintro kind x ⟨⟩
  · intro kind x hx
    rw [hpaused kind] at hx
    cases hx
  · intro kind items nextSeq hloop
    cases (hpaused kind).symm.trans hloop
  · exact hc.acked
  · exact hc.dropped

lemma follow_self : Cursors (s.follow s.heartbeats) := by
  have hself : s.follow s.heartbeats = s := if_pos rfl
  exact hself.symm ▸ hc

lemma follow_arrive {v : Verdict} (hok : s.Settled (.beat (.arrive v))) :
    Cursors (s.follow (s.heartbeats.arrive v)) := by
  have hframed := hc.framed.arrive v
  rcases s.heartbeats.arrive_cases v with he | ⟨f,hstage,he⟩
  · rw [he]
    exact hc.follow_self
  have hf : s.heartbeats.stage.fragment = some f := by rw [hstage]; rfl
  rw [he] at hframed ⊢
  by_cases happlied : f.fullState=true ∧ v.sync=.applied
  · -- the full state was accepted: new streams begin
    obtain ⟨hreg,hquiet⟩ := hok f (by rw [hstage]; rfl) happlied.1 happlied.2
    have hnew := s.heartbeats.server.heartbeat_registers f v happlied.1 happlied.2
    refine hc.register hframed rfl hreg hquiet
      ((hc.framed.fullState f hf).symm.trans happlied.1) ?_
    exact fun he => Nat.succ_ne_self _ (hnew.symm.trans he)
  have hnot : f.fullState=true → v.sync≠.applied := fun hfull hsync =>
    happlied ⟨hfull,hsync⟩
  refine hc.beat_same hframed (s.heartbeats.server.heartbeat_registrations f v hnot) ?_
    hc.cursors fun kind => .inl (by cases kind <;> rfl)
  intro g sendState hg hfull
  obtain ⟨rfl,hanswer⟩ := Stage.answered.inj hg
  rw [s.heartbeats.server.heartbeat_error f v hfull (hnot hfull)] at hanswer
  cases hanswer

lemma follow_step {e : HeartbeatEvent} (hok : s.Settled (.beat e)) :
    Cursors (s.follow (s.heartbeats.step encodedLen e)) := by
  have hframed : (s.heartbeats.step encodedLen e).Framed := hc.framed.step e
  have hcursor : ∀ {h : Heartbeats}, h.lastAppliedCommandSeq=s.heartbeats.lastAppliedCommandSeq →
      h.lastAppliedResultSeq = s.heartbeats.lastAppliedResultSeq →
      ∀ kind, h.lastApplied kind = s.heartbeats.lastApplied kind := by
    intro h hcmd hres kind
    cases kind with
    | commands => exact hcmd
    | results => exact hres
  cases e with
  | sendResponse response
  | sendContainerResponse response
  | sendLogEntry entry
  | sendOutcome outcome =>
    exact hc.beat_frame hframed rfl (fun f a hf => hf) rfl rfl (hcursor rfl rfl)
  | drainChannel c =>
    change Heartbeats.Framed (s.heartbeats.drainChannel c) at hframed
    change Cursors (s.follow (s.heartbeats.drainChannel c))
    rcases s.heartbeats.drainChannel_cases c with he | ⟨r,rs,buffers,-,he,-⟩
    · rw [he]
      exact hc.follow_self
    · rw [he] at hframed ⊢
      exact hc.beat_frame hframed rfl (fun f a hf => hf) rfl rfl (hcursor rfl rfl)
  | advance =>
    change Heartbeats.Framed (s.heartbeats.advance encodedLen) at hframed
    change Cursors (s.follow (s.heartbeats.advance encodedLen))
    rcases s.heartbeats.advance_cases encodedLen with he | ⟨stage,he,hstage⟩
    · rw [he]
      exact hc.follow_self
    rw [he] at hframed ⊢
    exact hc.beat_frame hframed rfl (fun f a hf => absurd hf (hstage f a)) rfl rfl
      (hcursor rfl rfl)
  | arrive v => exact hc.follow_arrive hok
  | arriveLate i v =>
    change Heartbeats.Framed (s.heartbeats.arriveLate i v) at hframed
    change Cursors (s.follow (s.heartbeats.arriveLate i v))
    unfold Heartbeats.arriveLate at hframed ⊢
    cases hf : s.heartbeats.abandoned[i]? with
    | none => exact hc.follow_self
    | some f =>
      rw [hf] at hframed
      exact hc.beat_frame hframed (s.heartbeats.server.heartbeat_registrations f v (hok f hf))
        (fun f a hf => hf) rfl rfl (hcursor rfl rfl)
  | answer =>
    change Heartbeats.Framed s.heartbeats.answer at hframed
    change Cursors (s.follow s.heartbeats.answer)
    unfold Heartbeats.answer at hframed ⊢
    cases hstage : s.heartbeats.stage with
    | answered f a =>
      rw [hstage] at hframed
      cases a with
      | error => exact hc.rpcFailed hframed rfl rfl rfl rfl (hcursor rfl rfl)
      | ok sendState => exact hc.rpcSucceeded hstage
    | _ => exact hc.follow_self
  | fail =>
    change Heartbeats.Framed s.heartbeats.fail at hframed
    change Cursors (s.follow s.heartbeats.fail)
    unfold Heartbeats.fail at hframed ⊢
    cases hstage : s.heartbeats.stage with
    | sent f =>
      rw [hstage] at hframed
      exact hc.rpcFailed hframed rfl rfl rfl rfl (hcursor rfl rfl)
    | answered f a =>
      rw [hstage] at hframed
      exact hc.rpcFailed hframed rfl rfl rfl rfl (hcursor rfl rfl)
    | _ => exact hc.follow_self
  | forget => exact hc.beat_frame hframed rfl (fun f a hf => hf) rfl rfl (hcursor rfl rfl)

/-! #### The poll loops -/

lemma live (hbusy : s.heartbeats.connectionState=.ready ∨ ¬s.Quiet) :
    (∀ kind, s.AppliedUpTo kind (s.heartbeats.lastApplied kind)) ∧
      ∀ f sendState, s.heartbeats.stage = .answered f (.ok sendState) → f.fullState≠true := by
  constructor
  · refine hc.cursors.resolve_right fun hold => ?_
    exact hbusy.elim hold.2.1 fun hquiet => hquiet hold.2.2
  intro f sendState hstage hfull
  obtain ⟨hreg,hquiet⟩ := hc.accepted f sendState hstage hfull
  have hconn := hc.framed.registering f (by rw [hstage]; rfl) hreg
  rcases hbusy with hready | hbusy
  · rw [hready] at hconn
    cases hconn
  · exact hbusy hquiet

omit hc

lemma not_quiet (kind : StreamKind) (hloop : s.loops kind ≠ .paused) : ¬s.Quiet := fun hquiet =>
  hloop (paused_of_quiet hquiet kind)

include hc

lemma setLoop (hbusy : s.heartbeats.connectionState=.ready ∨ ¬s.Quiet)
    {loop : PollLoop} (hitems : ∀ x∈loop.items, x.stream=s.current)
    (hexpected : ∀ items nextSeq, loop = .handling items nextSeq →
      nextSeq = s.heartbeats.lastApplied kind+1) : Cursors (s.setLoop kind loop) := by
  obtain ⟨hup,hnone⟩ := hc.live hbusy
  exact {hc with
    accepted := fun f sendState hstage hfull => absurd hfull (hnone f sendState hstage)
    cursors := .inl hup
    items := (Function.forall_update_iff s.loops fun _ l => ∀ x∈l.items,
      x.stream = s.current).mpr ⟨hitems,fun k _ => hc.items k⟩
    expected := (Function.forall_update_iff s.loops fun k l => ∀ items nextSeq,
      l = .handling items nextSeq → nextSeq = s.heartbeats.lastApplied k+1).mpr
        ⟨hexpected,fun k _ => hc.expected k⟩}

variable (kind)

lemma emit : Cursors (s.emit kind) := by
  refine {hc with
    numbered := (Function.forall_update_iff s.streams fun _ q => 0<q.nextSeq).mpr
      ⟨Nat.succ_pos _,fun k _ => hc.numbered k⟩
    pending := (Function.forall_update_iff s.streams fun _ q => ∀ x∈q.pending,
      x.stream = s.current ∧ 0<x.seq).mpr ⟨fun x hx => ?_,fun k _ => hc.pending k⟩}
  rcases mem_append.mp hx with hx | hx
  · exact hc.pending kind x hx
  · obtain rfl := mem_singleton.mp hx
    exact ⟨rfl,hc.numbered kind⟩

lemma proceed : Cursors (s.proceed kind) := by
  unfold Polling.proceed
  split_ifs with hadmit
  · exact hc.setLoop (.inl hadmit.2) (by rintro x ⟨⟩) (by rintro items nextSeq ⟨⟩)
  · exact hc

lemma request : Cursors (s.request kind) := by
  unfold Polling.request
  split_ifs with hloop
  · have hbusy : ¬s.Quiet := not_quiet kind (by rw [hloop]; decide)
    obtain ⟨hup,hnone⟩ := hc.live (.inr hbusy)
    have hset : Cursors (s.setLoop kind .waiting) :=
      hc.setLoop (.inr hbusy) (by rintro x ⟨⟩) (by rintro items nextSeq ⟨⟩)
    refine {hset with
      accepted := fun f sendState hstage hfull => absurd hfull (hnone f sendState hstage)
      cursors := .inl hup
      requests := fun r hr => ?_}
    rcases mem_append.mp hr with hr | hr
    · exact hc.requests r hr
    · obtain rfl := mem_singleton.mp hr
      exact hup kind
  · exact hc

lemma arrive (i : ℕ) : Cursors (s.arrive i) := by
  unfold Polling.arrive
  cases hr : s.requests[i]? with
  | none => exact hc
  | some r =>
    obtain ⟨kind,ack⟩ := r
    have hmem := mem_of_getElem? hr
    have hbusy : ¬s.Quiet := by
      intro hquiet
      rw [hquiet.2.2] at hmem
      cases hmem
    obtain ⟨hup,hnone⟩ := hc.live (.inr hbusy)
    have hack := hc.requests _ hmem
    refine {hc with
      accepted := fun f sendState hstage hfull => absurd hfull (hnone f sendState hstage)
      cursors := .inl hup
      requests := fun r hr => hc.requests r (mem_of_mem_eraseIdx hr)
      numbered := (Function.forall_update_iff s.streams fun _ q => 0<q.nextSeq).mpr
        ⟨hc.numbered kind,fun k _ => hc.numbered k⟩
      pending := (Function.forall_update_iff s.streams fun _ q => ∀ x∈q.pending,
        x.stream = s.current ∧ 0<x.seq).mpr
          ⟨fun x hx => hc.pending kind x (mem_of_mem_filter hx),fun k _ => hc.pending k⟩
      acked := (Function.forall_update_iff s.acked fun k l => ∀ x∈l, ∀ n, 0<n → n ≤ x.seq →
        ⟨x.stream,n⟩ ∈ s.applied k).mpr ⟨fun x hx => ?_,fun k _ => hc.acked k⟩
      dropped := (Function.forall_update_iff s.dropped fun k l => ∀ x∈l, x ∈ s.applied k).mpr
        ⟨fun x hx => ?_,fun k _ => hc.dropped k⟩}
    · rcases mem_append.mp hx with hx | hx
      · exact hc.acked kind x hx
      · obtain rfl := mem_singleton.mp hx
        exact hack
    rcases mem_append.mp hx with hx | hx
    · exact hc.dropped kind x hx
    obtain ⟨hpending,hle⟩ := mem_filter.mp hx
    obtain ⟨hstream,hpos⟩ := hc.pending kind x hpending
    have happlied := hack x.seq hpos (of_decide_eq_true hle)
    rwa [← hstream] at happlied

lemma respond (count : ℕ) : Cursors (s.respond kind count) := by
  unfold Polling.respond
  split_ifs with hloop
  · refine hc.setLoop (.inr (not_quiet kind (by rw [hloop]; decide))) (fun x hx => ?_)
      (by rintro items nextSeq ⟨⟩)
    exact (hc.pending kind x (mem_of_mem_take hx)).1
  · exact hc

lemma receive : Cursors (s.receive kind) := by
  unfold Polling.receive
  cases hloop : s.loops kind with
  | answered items =>
    refine hc.setLoop (.inr (not_quiet kind (by rw [hloop]; rintro ⟨⟩))) (fun x hx => ?_) ?_
    · exact hc.items kind x (by rw [hloop]; exact hx)
    · rintro items' nextSeq ⟨⟩
      rfl
  | _ => exact hc

lemma abandon : Cursors (s.abandon kind) := by
  unfold Polling.abandon
  cases hloop : s.loops kind with
  | paused
  | handling items nextSeq => exact hc
  | _ =>
    exact hc.setLoop (.inr (not_quiet kind (by rw [hloop]; rintro ⟨⟩)))
      (by rintro x ⟨⟩) (by rintro items nextSeq ⟨⟩)

variable {kind}

lemma apply {x : Sequenced} {xs : List Sequenced} {nextSeq : ℕ}
    (hloop : s.loops kind = .handling (x::xs) nextSeq) (hseq : x.seq=nextSeq) :
    Cursors {s.setLoop kind (.handling xs (nextSeq+1)) with
      heartbeats := s.heartbeats.storeLastApplied x.seq kind
      applied := Function.update s.applied kind (s.applied kind++[x])} := by
  have hbusy : ¬s.Quiet := not_quiet kind (by rw [hloop]; rintro ⟨⟩)
  obtain ⟨hup,hnone⟩ := hc.live (.inr hbusy)
  have hstream : x.stream=s.current := hc.items kind x (by rw [hloop]; exact mem_cons_self)
  have hnext : nextSeq = s.heartbeats.lastApplied kind+1 := hc.expected kind _ _ hloop
  have hgrown : ∀ kind', ∀ {y}, y ∈ s.applied kind' →
      y ∈ Function.update s.applied kind (s.applied kind++[x]) kind' :=
    (Function.forall_update_iff s.applied fun k l => ∀ {y}, y ∈ s.applied k → y∈l).mpr
      ⟨mem_append_left _,fun _ _ _ hy => hy⟩
  have hcurrent : (s.heartbeats.storeLastApplied x.seq kind).server.registrations = s.current := by
    rw [Heartbeats.server_store]
    rfl
  have hcursors : ∀ kind' n, 0<n →
      n ≤ (s.heartbeats.storeLastApplied x.seq kind).lastApplied kind' →
      (⟨s.current,n⟩ : Sequenced) ∈
        Function.update s.applied kind (s.applied kind++[x]) kind' := by
    intro kind' n hn hle
    rw [Heartbeats.lastApplied_store] at hle
    by_cases hk : kind'=kind
    · subst hk
      rw [if_pos rfl] at hle
      rcases Nat.lt_or_ge n x.seq with hlt | hge
      · exact hgrown _ (hup kind' n hn (by omega))
      obtain rfl : n=x.seq := le_antisymm hle hge
      rw [Function.update_self,← hstream]
      exact mem_append_right _ mem_cons_self
    · rw [if_neg hk] at hle
      exact hgrown _ (hup kind' n hn hle)
  constructor
  · cases kind <;> exact {hc.framed with}
  · intro f sendState hstage hfull
    exact absurd hfull (hnone f sendState (by cases kind <;> exact hstage))
  · refine .inl fun kind' n hn hle => ?_
    rw [Polling.current,hcurrent]
    exact hcursors kind' n hn hle
  · intro r hr n hn hle
    rw [Polling.current,hcurrent]
    exact hgrown _ (hc.requests r hr n hn hle)
  · exact hc.numbered
  · rw [Polling.current,hcurrent]
    exact hc.pending
  · rw [Polling.current,hcurrent]
    refine (Function.forall_update_iff s.loops fun _ l => ∀ y∈l.items,
      y.stream = s.current).mpr ⟨fun y hy => ?_,fun k _ => hc.items k⟩
    exact hc.items kind y (by rw [hloop]; exact mem_cons_of_mem x hy)
  · intro kind' items nextSeq' hloop'
    rw [Heartbeats.lastApplied_store]
    by_cases hk : kind'=kind
    · subst hk
      simp only [Polling.setLoop,Function.update_self] at hloop'
      obtain ⟨-,rfl⟩ := PollLoop.handling.inj hloop'
      rw [if_pos rfl,hseq]
    · simp only [Polling.setLoop,Function.update_of_ne hk] at hloop'
      rw [if_neg hk]
      exact hc.expected kind' items nextSeq' hloop'
  · exact fun kind' y hy n hn hle => hgrown kind' (hc.acked kind' y hy n hn hle)
  · exact fun kind' y hy => hgrown kind' (hc.dropped kind' y hy)

lemma handle (kind : StreamKind) (shouldAdvanceAck : Bool) :
    Cursors (s.handle kind shouldAdvanceAck) := by
  unfold Polling.handle
  split
  · next hloop =>
    exact hc.setLoop (.inr (not_quiet kind (by rw [hloop]; rintro ⟨⟩)))
      (by rintro x ⟨⟩) (by rintro items nextSeq ⟨⟩)
  · next x xs nextSeq hloop =>
    have hbusy : ¬s.Quiet := not_quiet kind (by rw [hloop]; rintro ⟨⟩)
    have hpaused : Cursors (s.setLoop kind .paused) :=
      hc.setLoop (.inr hbusy) (by rintro x ⟨⟩) (by rintro items nextSeq ⟨⟩)
    split_ifs with hold hgap hrefused
    · refine hc.setLoop (.inr hbusy) (fun y hy => ?_) ?_
      · exact hc.items kind y (by rw [hloop]; exact mem_cons_of_mem x hy)
      · rintro items nextSeq' ⟨⟩
        exact hc.expected kind _ _ hloop
    · exact hpaused
    · exact hpaused
    · exact hc.apply hloop (by omega)
  · exact hc

lemma step {e : PollEvent} (hok : s.Settled e) : Cursors
    (s.step encodedLen e) := by
  cases e with
  | beat e => exact hc.follow_step hok
  | emit kind => exact hc.emit kind
  | proceed kind => exact hc.proceed kind
  | request kind => exact hc.request kind
  | arrive i => exact hc.arrive i
  | respond kind count => exact hc.respond kind count
  | receive kind => exact hc.receive kind
  | handle kind shouldAdvanceAck => exact hc.handle kind shouldAdvanceAck
  | abandon kind => exact hc.abandon kind

end Cursors

/-- No poll acks and no poll drops what the dataplane has not applied of the same stream, as long
as every accepted full state was sent while registering and accepted while nothing was polled. -/
theorem acked_only_after_applying (encodedLen : Item → ℕ) (events : List PollEvent)
    (h : Trace.Along (fun s => step s encodedLen) Settled {} events) :
    (∀ kind, ∀ x ∈ (run {} encodedLen events).acked kind, ∀ n, 0<n → n ≤ x.seq →
      ⟨x.stream,n⟩ ∈ (run {} encodedLen events).applied kind) ∧
      ∀ kind, ∀ x ∈ (run {} encodedLen events).dropped kind,
        x ∈ (run {} encodedLen events).applied kind := by
  have hc : Cursors (run {} encodedLen events) :=
    @Trace.Along.invariant _ _ (fun s => step s encodedLen) Settled Cursors
      (fun hs hok => hs.step hok) {} events .initial h
  exact ⟨hc.acked,hc.dropped⟩

def heartbeat : List PollEvent :=
  [.beat .advance,.beat .advance,.beat .advance,.beat (.arrive {}),.beat .answer]

def pollTwice : List PollEvent :=
  [.emit .commands,.proceed .commands,.request .commands,.arrive 0,.respond .commands 1,
    .receive .commands,.handle .commands true,.handle .commands true,
    .proceed .commands,.request .commands,.arrive 0]

/-- The dataplane registers, applies a command, and registers again with a server that has
forgotten it; `between` happens before it sends its full state. -/
def registerAgain (between : List PollEvent) : List PollEvent :=
  heartbeat++heartbeat++pollTwice++[.beat .forget,.abandon .commands]++heartbeat ++
    between++heartbeat

theorem registerAgain_acks_applied :
    Trace.Along (fun s => step s fun _ => 0) Settled {} (registerAgain []++pollTwice) ∧
      (run {} (fun _ => 0) (registerAgain []++pollTwice)).dropped .commands = [⟨1,1⟩,⟨2,1⟩] ∧
      ∀ x ∈ (run {} (fun _ => 0) (registerAgain []++pollTwice)).dropped .commands,
        x ∈ (run {} (fun _ => 0) (registerAgain []++pollTwice)).applied .commands := by
  have hok : Trace.Along (fun s => step s fun _ => 0) Settled {} (registerAgain []++pollTwice) := by
    decide
  exact ⟨hok,by decide +kernel,(acked_only_after_applying _ _ hok).2 .commands⟩

/-- The first request with the full state fails, and the second one is sent as unhealthy: the
cursor of the old stream stays, and the next poll drops a command that was never seen. -/
theorem failed_registration_drops_unapplied :
    ∃ x ∈ (run {} (fun _ => 0) (registerAgain [.beat .advance,.beat .advance,.beat .advance,
        .beat .fail]++[.emit .commands,.proceed .commands,.request .commands,.arrive 0])).dropped
        .commands,
      x ∉ (run {} (fun _ => 0) (registerAgain [.beat .advance,.beat .advance,.beat .advance,
        .beat .fail]++[.emit .commands,.proceed .commands,.request .commands,.arrive 0])).applied
        .commands :=
  ⟨⟨2,1⟩,by decide +kernel,by decide +kernel⟩

end Polling
end Indexify.Dataplane
