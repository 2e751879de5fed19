import Indexify.Library.InOrder
import Indexify.StateStore.CommandOutbox

/-! Which commands an ack may remove. Acks are cumulative, so a command is safe only while
nothing persisted before it is missing from the buffer that polls answer from. -/
namespace Indexify
namespace CommandOutbox
open InOrder List

def keys (cmds : List Queued) : List (ℕ ×ₗ ℕ) := cmds.map Queued.key

lemma mem_keys {k : ℕ ×ₗ ℕ} {cmds : List Queued} : k ∈ keys cmds ↔ ∃ q∈cmds, q.key=k :=
  mem_map

lemma keys_append (cmds cmds' : List Queued) : keys (cmds++cmds') = keys cmds++keys cmds' :=
  map_append

lemma key_le_iff {q : Queued} {stream seq : ℕ} : q.key ≤ toLex (stream,seq) ↔
    q.stream<stream ∨ q.stream=stream ∧ q.cmd.seq ≤ seq :=
  Prod.Lex.toLex_le_toLex

def Fits (encodedLen : Command → ℕ) (cmds : List Queued) : Prop :=
  ∀ q∈cmds, encodedLen q.cmd ≤ maxPollResponseBytes
  deriving Decidable

namespace State

/-- The ack is of a command that a response of the current stream contained. -/
def AckOf (s : State) (seq : ℕ) : Prop := seq = 0 ∨ toLex (s.stream,seq) ∈ s.delivered
  deriving Decidable

/-- The commands go to the end of the buffer in the order in which they were persisted: one that
is not yet there, or in a response, comes after all that are, and nothing older that is still in
the outbox is left out. -/
def ReadyFor (s : State) (conn : ℕ) (cmds : List Queued) : Prop :=
  ∀ c ∈ s.connections[conn]?, Ready (keys s.outbox) (keys c.pending++s.delivered) (keys cmds)
  deriving Decidable

/-- What the delivery of commands asks of a call that is resumed. -/
def Admits (encodedLen : Command → ℕ) (s : State) : Call → Prop
  | .drainPush conn cmds => s.emitLocked conn = false → s.current = some conn → s.ReadyFor conn cmds
  | .emitPush _ cmds => ∀ conn∈s.current, s.ReadyFor conn cmds
  | .registerInsert _ cmds =>
    s.current = none → Ready (keys s.outbox) s.delivered (keys cmds) ∧ Fits encodedLen cmds
  | .pollAck _ seq prevAcked => s.AckOf seq ∧ prevAcked ≤ s.acked
  | .pollDrain _ seq => s.AckOf seq
  | _ => True

instance (encodedLen : Command → ℕ) (s : State) (call : Call) : Decidable (s.Admits encodedLen call) := by
  unfold Admits
  split <;> infer_instance

end State

/-- A step that hands commands on in order and acks only what was handed on. -/
def Orderly (encodedLen : Command → ℕ) (s : State) : Event → Prop
  | .resume i _ => ∀ call ∈ s.calls[i]?, s.Admits encodedLen call
  | _ => True

instance (encodedLen : Command → ℕ) (s : State) (e : Event) : Decidable (Orderly encodedLen s e) := by
  unfold Orderly
  split <;> infer_instance

/-! ### What every allowed step keeps -/

def State.nextKey (s : State) : ℕ ×ₗ ℕ := toLex (s.stream,s.nextSeq)

/-- A key not above `bound` with a number that a transaction can give. -/
def Known (bound k : ℕ ×ₗ ℕ) : Prop := k ≤ bound ∧ 0<(ofLex k).2

/-- A buffer that polls may answer from. -/
structure Buffered (encodedLen : Command → ℕ) (outbox : List Queued) (delivered : List (ℕ ×ₗ ℕ))
    (bound : ℕ ×ₗ ℕ) (pending : List Queued) : Prop where
  ready : Ready (keys outbox) delivered (keys pending)
  known : ∀ q∈pending, Known bound q.key
  fits : Fits encodedLen pending

/-- The commands that a call holds are known, and a poll holds the connection in the table. -/
structure Holds (bound : ℕ ×ₗ ℕ) (current : Option ℕ) (call : Call) : Prop where
  known : ∀ q∈call.cmds, Known bound q.key
  polls : ∀ conn∈call.polls, current = some conn

structure Sound (encodedLen : Command → ℕ) (s : State) : Prop where
  nextSeq : 0<s.nextSeq
  inRange : s.nextSeq ≤ u64Max
  stream : ∀ q∈s.outbox, q.stream=s.stream
  outbox : ∀ q∈s.outbox, Known s.nextKey q.key
  delivered : ∀ k∈s.delivered, Known s.nextKey k
  covered : Covered (keys s.outbox) s.delivered
  acked : s.acked=0 ∨ ∃ seq, s.acked ≤ seq ∧ toLex (s.stream,seq) ∈ s.delivered
  current : ∀ conn∈s.current, conn<s.connections.length
  buffered : ∀ conn∈s.current, ∀ c ∈ s.connections[conn]?,
    Buffered encodedLen s.outbox s.delivered s.nextKey c.pending
  calls : ∀ call∈s.calls, Holds s.nextKey s.current call
  unseen : s.unseen = []

variable {encodedLen : Command → ℕ} {s : State} {bound bound' k : ℕ ×ₗ ℕ} {current : Option ℕ}
  {call : Call}

lemma Known.mono (h : Known bound k) (hle : bound ≤ bound') : Known bound' k :=
  ⟨h.1.trans hle,h.2⟩

lemma Holds.mono (h : Holds bound current call) (hle : bound ≤ bound') : Holds bound' current call :=
  ⟨fun q hq => (h.known q hq).mono hle,h.polls⟩

lemma Holds.idle (hcmds : call.cmds = []) (hpolls : call.polls=none) : Holds bound current call :=
  ⟨by simp [hcmds],by simp [hpolls]⟩

namespace Sound
variable (h : Sound encodedLen s)
include h

lemma setCall (i : ℕ) (hcall : Holds s.nextKey s.current call) : Sound encodedLen (s.setCall i call) := by
  refine {h with calls := fun call' hcall' => ?_}
  rcases mem_or_eq_of_mem_set hcall' with hold | rfl
  · exact h.calls call' hold
  · exact hcall

lemma addCall (hcall : Holds s.nextKey s.current call) : Sound encodedLen (s.addCall call) := by
  refine {h with calls := fun call' hcall' => ?_}
  rcases mem_append.mp hcall' with hold | hnew
  · exact h.calls call' hold
  · exact mem_singleton.mp hnew ▸ hcall

lemma modifyConnection (conn : ℕ) {f : Connection → Connection}
    (hf : ∀ c ∈ s.connections[conn]?, s.current = some conn →
      Buffered encodedLen s.outbox s.delivered s.nextKey (f c).pending) :
    Sound encodedLen (s.modifyConnection conn f) := by
  refine {h with current := ?_, buffered := ?_}
  · intro conn' hconn'
    rw [State.modifyConnection,length_modify]
    exact h.current conn' hconn'
  intro conn' hconn' c' hc'
  rw [State.modifyConnection,List.getElem?_modify,Option.mem_def,Option.map_eq_map,
    Option.map_eq_some_iff] at hc'
  obtain ⟨c,hc,rfl⟩ := hc'
  by_cases hsame : conn=conn'
  · subst hsame
    rw [if_pos rfl]
    exact hf c hc hconn'
  · rw [if_neg hsame]
    exact h.buffered conn' hconn' c hc

lemma insertConnection (hnone : s.current=none) {c : Connection}
    (hc : Buffered encodedLen s.outbox s.delivered s.nextKey c.pending) :
    Sound encodedLen (s.insertConnection c) := by
  refine {h with current := ?_, buffered := ?_, calls := fun call hcall => ?_}
  · rintro conn ⟨rfl⟩
    simp [State.insertConnection]
  · rintro conn ⟨rfl⟩ c' hc'
    obtain rfl : c=c' := by simpa [State.insertConnection] using hc'
    exact hc
  · -- no call polls while the table has no connection
    refine ⟨(h.calls call hcall).known,fun conn hconn => ?_⟩
    rw [(h.calls call hcall).polls conn hconn] at hnone
    cases hnone

lemma removeConnection (hfree : s.tableLocked=false) : Sound encodedLen s.removeConnection := by
  refine {h with current := ?_, buffered := ?_, calls := fun call hcall => ?_}
  · rintro conn ⟨⟩
  · rintro conn ⟨⟩
  · refine ⟨(h.calls call hcall).known,fun conn hconn => ?_⟩
    have hidle := any_eq_false.mp hfree call hcall
    rw [Option.mem_def.mp hconn] at hidle
    simp at hidle

lemma resetExecutorCommandOutbox : Sound encodedLen s.resetExecutorCommandOutbox := by
  have hle : s.nextKey ≤ s.resetExecutorCommandOutbox.nextKey :=
    Prod.Lex.toLex_le_toLex.mpr (.inl (Nat.lt_succ_self s.stream))
  exact
    {nextSeq := Nat.one_pos
     inRange := show 1 ≤ u64Max by decide
     stream := by rintro q ⟨⟩
     outbox := by rintro q ⟨⟩
     delivered := fun k hk => (h.delivered k hk).mono hle
     covered := by rintro p ⟨⟩
     acked := .inl rfl
     current := h.current
     buffered := fun conn hconn c hc =>
       let hold := h.buffered conn hconn c hc
       ⟨hold.ready.restore (by rintro p ⟨⟩),fun q hq => (hold.known q hq).mono hle,hold.fits⟩
     calls := fun call hcall => (h.calls call hcall).mono hle
     unseen := h.unseen}

end Sound

/-! ### Persisting commands -/

lemma assignSeqs_spec (stream : ℕ) {nextSeq : ℕ} (hn : nextSeq ≤ u64Max) (bodies : List (List UInt8)) :
    let (cmds,next) := assignSeqs stream nextSeq bodies
    nextSeq ≤ next ∧ next ≤ u64Max ∧
      ∀ q∈cmds, q.stream=stream ∧ nextSeq ≤ q.cmd.seq ∧ q.cmd.seq ≤ next := by
  induction bodies generalizing nextSeq with
  | nil => exact ⟨le_rfl,hn,by rintro q ⟨⟩⟩
  | cons body bodies ih =>
    have hsucc : nextSeq ≤ saturatingSucc nextSeq := by unfold saturatingSucc; omega
    have hnext : saturatingSucc nextSeq ≤ u64Max := by unfold saturatingSucc; omega
    obtain ⟨hle,hmax,hcmds⟩ := ih hnext
    refine ⟨hsucc.trans hle,hmax,fun q hq => ?_⟩
    rcases mem_cons.mp hq with rfl | hq
    · exact ⟨rfl,le_rfl,hsucc.trans hle⟩
    · obtain ⟨hstream,hlow,hhigh⟩ := hcmds q hq
      exact ⟨hstream,hsucc.trans hlow,hhigh⟩

lemma mem_foldl_putCommand {cmds outbox : List Queued} {q : Queued}
    (h : q ∈ cmds.foldl putCommand outbox) : q∈outbox ∨ q∈cmds := by
  refine List.foldlRecOn (motive := fun acc => q∈acc → q∈outbox ∨ q∈cmds) cmds putCommand .inl
    (fun acc ih c hc hq => ?_) h
  rcases mem_append.mp hq with hold | hnew
  · exact ih (mem_of_mem_filter hold)
  · exact .inr (mem_singleton.mp hnew ▸ hc)

namespace Sound

lemma assigned (h : Sound encodedLen s) {bodies : List (List UInt8)} {q : Queued}
    (hq : q ∈ s.assigned bodies) :
    q.stream = s.stream ∧ s.nextKey ≤ q.key ∧ Known (s.commitCommands bodies).nextKey q.key := by
  obtain ⟨hstream,hlow,hhigh⟩ := (assignSeqs_spec s.stream h.inRange bodies).2.2 q hq
  have hnext := h.nextSeq
  refine ⟨hstream,Prod.Lex.toLex_le_toLex.mpr (.inr ⟨hstream.symm,hlow⟩),
    key_le_iff.mpr (.inr ⟨hstream,hhigh⟩),?_⟩
  exact hnext.trans_le hlow

lemma commitCommands (h : Sound encodedLen s) (bodies : List (List UInt8)) :
    Sound encodedLen (s.commitCommands bodies) := by
  obtain ⟨hgrow,hmax,-⟩ := assignSeqs_spec s.stream h.inRange bodies
  have hle : s.nextKey ≤ (s.commitCommands bodies).nextKey :=
    Prod.Lex.toLex_le_toLex.mpr (.inr ⟨rfl,hgrow⟩)
  have houtbox : ∀ q ∈ (s.commitCommands bodies).outbox, q∈s.outbox ∨ q ∈ s.assigned bodies :=
    fun q hq => mem_foldl_putCommand hq
  have hfresh : ∀ p ∈ keys (s.commitCommands bodies).outbox, p ∈ keys s.outbox ∨ s.nextKey ≤ p := by
    intro p hp
    obtain ⟨q,hq,rfl⟩ := mem_keys.mp hp
    exact (houtbox q hq).imp (fun hold => mem_keys.mpr ⟨q,hold,rfl⟩) fun hnew => (h.assigned hnew).2.1
  exact
    {nextSeq := h.nextSeq.trans_le hgrow
     inRange := hmax
     stream := fun q hq => (houtbox q hq).elim (h.stream q) fun hnew => (h.assigned hnew).1
     outbox := fun q hq => (houtbox q hq).elim (fun hold => (h.outbox q hold).mono hle)
       fun hnew => (h.assigned hnew).2.2
     delivered := fun k hk => (h.delivered k hk).mono hle
     covered := h.covered.restore fun p hp => (hfresh p hp).imp_right
       fun hge k hk => (h.delivered k hk).1.trans hge
     acked := h.acked
     current := h.current
     buffered := fun conn hconn c hc => by
       have hold := h.buffered conn hconn c hc
       refine ⟨hold.ready.restore fun p hp => (hfresh p hp).imp_right fun hge k hk => ?_,
         fun q hq => (hold.known q hq).mono hle,hold.fits⟩
       obtain ⟨q,hq,rfl⟩ := mem_keys.mp hk
       exact (hold.known q hq).1.trans hge
     calls := fun call hcall => (h.calls call hcall).mono hle
     unseen := h.unseen}

end Sound

/-! ### Handing commands on -/

lemma takeWithin_is_initial {α : Type} (len : α → ℕ) (limit total : ℕ) (l : List α) :
    ExecutorConnection.takeWithin len limit total l <+: l := by
  induction l generalizing total with
  | nil => exact prefix_rfl
  | cons a as ih =>
    rw [ExecutorConnection.takeWithin]
    split
    · exact cons_prefix_cons.mpr ⟨rfl,ih _⟩
    · exact List.nil_prefix

lemma cappedClone_is_initial {α : Type} (len : α → ℕ) (limit : ℕ) (l : List α) :
    ExecutorConnection.cappedClone len limit l <+: l := by
  cases l with
  | nil => exact prefix_rfl
  | cons a as => exact cons_prefix_cons.mpr ⟨rfl,takeWithin_is_initial len limit _ as⟩

lemma cloneCommandsCapped_spec {c : Connection} (hfits : Fits encodedLen c.pending) :
    (c.cloneCommandsCapped encodedLen).1 = c.pending ∧
      (c.cloneCommandsCapped encodedLen).2 <+: c.pending := by
  have hkept : (c.pending.dropWhile fun q =>
      decide (maxPollResponseBytes<encodedLen q.cmd)) = c.pending := by
    rcases hp : c.pending with _ | ⟨q,rest⟩
    · rfl
    have hq : ¬maxPollResponseBytes<encodedLen q.cmd :=
      not_lt.mpr (hfits q (hp ▸ mem_cons_self))
    rw [dropWhile_cons_of_neg (by simpa using hq)]
  refine ⟨hkept,?_⟩
  have := cappedClone_is_initial (fun q : Queued => encodedLen q.cmd) maxPollResponseBytes c.pending
  rwa [Connection.cloneCommandsCapped,ExecutorConnection.clonePending,hkept]

namespace Buffered
variable {outbox : List Queued} {delivered : List (ℕ ×ₗ ℕ)} {pending cmds : List Queued}

lemma nil : Buffered encodedLen outbox delivered bound [] :=
  ⟨trivial,by rintro q ⟨⟩,by rintro q ⟨⟩⟩

lemma pushCommands {c : Connection} (h : Buffered encodedLen outbox delivered bound c.pending)
    (hready : Ready (keys outbox) (keys c.pending++delivered) (keys cmds))
    (hknown : ∀ q∈cmds, Known bound q.key) :
    Buffered encodedLen outbox delivered bound (c.pushCommands encodedLen cmds).pending := by
  unfold Connection.pushCommands
  split
  · exact h
  next hfits =>
  refine ⟨?_,fun q hq => ?_,fun q hq => ?_⟩
  · rw [keys_append]
    exact ready_append.mpr ⟨h.ready,hready⟩
  · exact (mem_append.mp hq).elim (h.known q) (hknown q)
  · rcases mem_append.mp hq with hold | hnew
    · exact h.fits q hold
    · by_contra hlong
      exact hfits (any_eq_true.mpr ⟨q,hnew,by simpa using hlong⟩)

end Buffered

namespace Sound
variable {seq conn : ℕ} {q : Queued}
variable (h : Sound encodedLen s)
include h

lemma mem_delivered_of_ack (hack : s.AckOf seq)
    (hq : q∈s.outbox) (hle : q.cmd.seq ≤ seq) : q.key∈s.delivered := by
  rcases hack with rfl | hack
  · exact absurd (h.outbox q hq).2 (by simpa [Queued.key] using hle)
  · exact h.covered q.key (mem_keys.mpr ⟨q,hq,rfl⟩) _ hack (key_le_iff.mpr (.inr ⟨h.stream q hq,hle⟩))

lemma mem_delivered_of_acked (hq : q∈s.outbox) (hle : q.cmd.seq ≤ s.acked) : q.key∈s.delivered := by
  rcases h.acked with hzero | ⟨seq,hseq,hack⟩
  · exact h.mem_delivered_of_ack (.inl rfl) hq (hle.trans hzero.le)
  · exact h.mem_delivered_of_ack (.inr hack) hq (hle.trans hseq)

lemma ackExecutorCommands {prevAcked : ℕ} (hack : s.AckOf seq)
    (hprev : prevAcked ≤ s.acked) : Sound encodedLen (s.ackExecutorCommands seq prevAcked) := by
  have hseen : ∀ q∈s.outbox, q.cmd.seq ≤ max seq prevAcked → q.key∈s.delivered := by
    intro q hq hle
    rcases le_max_iff.mp hle with hle | hle
    · exact h.mem_delivered_of_ack hack hq hle
    · exact h.mem_delivered_of_acked hq (hle.trans hprev)
  have hsub : ∀ p ∈ keys (s.ackExecutorCommands seq prevAcked).outbox, p ∈ keys s.outbox := by
    intro p hp
    obtain ⟨q,hq,rfl⟩ := mem_keys.mp hp
    exact mem_keys.mpr ⟨q,mem_of_mem_filter hq,rfl⟩
  refine {h with
    stream := fun q hq => h.stream q (mem_of_mem_filter hq)
    outbox := fun q hq => h.outbox q (mem_of_mem_filter hq)
    covered := h.covered.restore fun p hp => .inl (hsub p hp)
    acked := ?_
    buffered := fun conn hconn c hc => ?_
    unseen := ?_}
  · change max seq prevAcked = 0 ∨ ∃ seq', max seq prevAcked ≤ seq' ∧ _
    rcases max_choice seq prevAcked with hmax | hmax <;> rw [hmax]
    · exact hack.imp_right fun hack => ⟨seq,le_rfl,hack⟩
    · exact h.acked.imp (by omega) fun ⟨seq',hle,hmem⟩ => ⟨seq',hprev.trans hle,hmem⟩
  · have hold := h.buffered conn hconn c hc
    exact ⟨hold.ready.restore fun p hp => .inl (hsub p hp),hold.known,hold.fits⟩
  · change s.unseen++_ = []
    rw [h.unseen,nil_append,filter_eq_nil_iff]
    intro q hq hremoved
    simp only [decide_eq_true_eq] at hremoved
    exact hremoved.2 (hseen q hq hremoved.1)

variable (hconn : s.current = some conn)
include hconn

lemma mem_delivered_of_drained
    {c : Connection} (hc : s.connections[conn]? = some c) (hack : s.AckOf seq)
    (hq : q∈c.pending) (hle : q.cmd.seq ≤ seq) : q.key∈s.delivered := by
  have hbuf := h.buffered conn hconn c hc
  obtain ⟨hbound,hpos⟩ := hbuf.known q hq
  rcases hack with rfl | hack
  · exact absurd hpos (by simpa [Queued.key] using hle)
  · refine hbuf.ready.mem_of_le hack (mem_keys.mpr ⟨q,hq,rfl⟩) (key_le_iff.mpr ?_)
    exact (key_le_iff.mp hbound).imp_right fun hsame => ⟨hsame.1,hle⟩

lemma drainCommandsUpTo
    (hack : s.AckOf seq) : Sound encodedLen (s.drainCommandsUpTo conn seq) := by
  have hdrained : Sound encodedLen (s.modifyConnection conn (Connection.drainCommandsUpTo seq)) := by
    refine h.modifyConnection conn fun c hc _ => ?_
    have hbuf := h.buffered conn hconn c hc
    refine ⟨?_,fun q hq => hbuf.known q (mem_of_mem_filter hq),
      fun q hq => hbuf.fits q (mem_of_mem_filter hq)⟩
    have hkeys : keys (c.drainCommandsUpTo seq).pending =
        (keys c.pending).filter fun k => decide (seq<(ofLex k).2) := by
      rw [keys,keys,filter_map]
      rfl
    rw [hkeys]
    refine hbuf.ready.filter fun k hk hle => ?_
    obtain ⟨q,hq,rfl⟩ := mem_keys.mp hk
    exact h.mem_delivered_of_drained hconn hc hack hq
      (not_lt.mp (of_decide_eq_false hle))
  refine {hdrained with unseen := ?_}
  change s.unseen++_ = []
  rw [h.unseen,nil_append,filter_eq_nil_iff]
  intro q hq hremoved
  simp only [decide_eq_true_eq] at hremoved
  cases hc : s.connections[conn]? with
  | none => simp [hc] at hq
  | some c =>
    rw [hc] at hq
    exact hremoved.2 (h.mem_delivered_of_drained hconn hc hack hq hremoved.1)

lemma respond_spec : ∃ c items rest, s.connections[conn]? = some c ∧ c.pending = items++rest ∧
    s.respond encodedLen conn =
      (items,{s.modifyConnection conn (fun c' => {c' with pending := c.pending}) with
        delivered := s.delivered++keys items}) := by
  have hlt := h.current conn hconn
  have hc := List.getElem?_eq_getElem hlt
  obtain ⟨hkept,rest,hrest⟩ := cloneCommandsCapped_spec (h.buffered conn hconn _ hc).fits
  refine ⟨_,_,rest,hc,hrest.symm,?_⟩
  rw [State.respond,hc,Option.getD_some,hkept]
  rfl

lemma respond : Sound encodedLen (s.respond encodedLen conn).2 := by
  obtain ⟨c,items,rest,hc,hrest,heq⟩ := h.respond_spec hconn
  have hbuf := h.buffered conn hconn c hc
  have hready : Ready (keys s.outbox) s.delivered (keys items++keys rest) := by
    rw [← keys_append,← hrest]
    exact hbuf.ready
  have hmem : ∀ k, k ∈ keys items++s.delivered ↔ k ∈ s.delivered++keys items := by
    intro k
    simp only [mem_append,or_comm]
  have hkept : Sound encodedLen (s.modifyConnection conn fun c' => {c' with pending := c.pending}) :=
    h.modifyConnection conn fun c' _ _ => hbuf
  rw [heq]
  refine {hkept with delivered := ?_, covered := ?_, acked := ?_, buffered := ?_}
  · intro k hk
    rcases mem_append.mp hk with hold | hnew
    · exact h.delivered k hold
    · obtain ⟨q,hq,rfl⟩ := mem_keys.mp hnew
      exact hbuf.known q (hrest ▸ mem_append_left _ hq)
  · intro p hp k hk hle
    exact (hmem p).mp (h.covered.hand_on (ready_append.mp hready).1 p hp k ((hmem k).mpr hk) hle)
  · exact h.acked.imp_right fun ⟨seq,hseq,hack⟩ => ⟨seq,hseq,mem_append_left _ hack⟩
  · rintro conn' hconn' c' hc'
    obtain rfl : conn=conn' := Option.some.inj (hconn.symm.trans hconn')
    have hpending : c'.pending=c.pending := by
      rw [State.modifyConnection,List.getElem?_modify,hc] at hc'
      simp only [if_true,Option.map_eq_map,Option.map_some,Option.mem_def,Option.some.injEq] at hc'
      rw [← hc']
    rw [hpending]
    refine ⟨?_,hbuf.known,hbuf.fits⟩
    rw [hrest,keys_append]
    exact hready.hand_on.congr hmem

omit hconn

/-! ### Whole runs -/

omit h

lemma init : Sound encodedLen {} where
  nextSeq := Nat.one_pos
  inRange := by decide
  stream := by rintro q ⟨⟩
  outbox := by rintro q ⟨⟩
  delivered := by rintro k ⟨⟩
  covered := by rintro p ⟨⟩
  acked := .inl rfl
  current := by rintro conn ⟨⟩
  buffered := by rintro conn ⟨⟩
  calls := by rintro call ⟨⟩
  unseen := rfl

include h

lemma pushCommands {cmds : List Queued} (hready : s.current = some conn → s.ReadyFor conn cmds)
    (hknown : ∀ q∈cmds, Known s.nextKey q.key) :
    Sound encodedLen (s.modifyConnection conn (Connection.pushCommands encodedLen cmds)) :=
  h.modifyConnection conn fun c hc hcur =>
    (h.buffered conn hcur c hc).pushCommands (hready hcur c hc) hknown

lemma resume (hcall : Holds s.nextKey s.current call)
    (hok : s.Admits encodedLen call) (desired : Option (List (List UInt8))) (i : ℕ) :
    Sound encodedLen (s.resume encodedLen desired i call) := by
  cases call with
  | drain cmds =>
    unfold State.resume
    cases hcur : s.current with
    | none => exact h.setCall i (.idle rfl rfl)
    | some conn => exact h.setCall i ⟨hcall.known,by rintro conn ⟨⟩⟩
  | drainPush conn cmds =>
    unfold State.resume
    dsimp only
    split
    · exact h
    · next hfree =>
      exact (h.pushCommands (hok (by simpa using hfree)) hcall.known).setCall i (.idle rfl rfl)
  | emit forceFullSync
  | register =>
    unfold State.resume
    cases hcur : s.current with
    | none
    | some conn => exact h.setCall i (.idle rfl rfl)
  | emitLock conn forceFullSync =>
    unfold State.resume
    dsimp only
    split
    · exact h
    · cases forceFullSync <;> exact h.setCall i (.idle rfl rfl)
  | emitReset conn
  | registerReset conn
  | deregisterReset => exact h.resetExecutorCommandOutbox.setCall i (.idle rfl rfl)
  | emitClear conn
  | registerClear conn => exact (h.modifyConnection conn fun _ _ _ => .nil).setCall i (.idle rfl rfl)
  | emitSnapshot conn =>
    unfold State.resume
    dsimp only
    split
    · exact h.setCall i (.idle rfl rfl)
    · exact h.setCall i (.idle rfl rfl)
    · next bodies _ =>
      exact (h.commitCommands bodies).setCall i
        ⟨fun q hq => (h.assigned hq).2.2,by rintro conn ⟨⟩⟩
  | emitPush _ cmds =>
    unfold State.resume
    cases hcur : s.current with
    | none => exact h.setCall i (.idle rfl rfl)
    | some conn =>
      exact (h.pushCommands (fun hcur => hok conn hcur) hcall.known).setCall i (.idle rfl rfl)
  | registerAcked => exact h.setCall i (.idle rfl rfl)
  | registerPending acked =>
    exact h.setCall i ⟨fun q hq => h.outbox q (mem_of_mem_filter hq),by rintro conn ⟨⟩⟩
  | registerInsert acked cmds =>
    unfold State.resume
    dsimp only
    split
    · exact h
    cases hcur : s.current with
    | some conn => exact h.setCall i (.idle rfl rfl)
    | none =>
      obtain ⟨hready,hfits⟩ := hok hcur
      exact (h.insertConnection hcur ⟨hready,hcall.known,hfits⟩).setCall i (.idle rfl rfl)
  | deregister =>
    unfold State.resume
    dsimp only
    split
    · exact h
    next hfree =>
    cases hcur : s.current with
    | none => exact h.setCall i (.idle rfl rfl)
    | some conn =>
      exact (h.removeConnection (by simpa using hfree)).setCall i (.idle rfl rfl)
  | poll ackedSeq =>
    unfold State.resume
    cases hcur : s.current with
    | none => exact h.setCall i (.idle rfl rfl)
    | some conn =>
      have hobserved := h.modifyConnection conn (f := Connection.observeCommandAck ackedSeq)
        fun c hc hcur => by
          unfold Connection.observeCommandAck
          dsimp only
          split <;> exact h.buffered conn hcur c hc
      refine hobserved.setCall i ?_
      cases ackedSeq <;> exact ⟨by rintro q ⟨⟩,by rintro conn' ⟨rfl⟩; exact hcur⟩
  | pollAcked conn seq => exact h.setCall i ⟨by rintro q ⟨⟩,hcall.polls⟩
  | pollAck conn seq prevAcked =>
    exact (h.ackExecutorCommands hok.1 hok.2).setCall i ⟨by rintro q ⟨⟩,hcall.polls⟩
  | pollDrain conn seq =>
    exact (h.drainCommandsUpTo (hcall.polls conn rfl) hok).setCall i ⟨by rintro q ⟨⟩,hcall.polls⟩
  | pollClone conn =>
    have hdone : Holds s.nextKey s.current
        (if (s.respond encodedLen conn).1 = [] then .pollWait else .done) := by
      split <;> exact .idle rfl rfl
    exact (h.respond (hcall.polls conn rfl)).setCall i hdone
  | pollWait =>
    unfold State.resume
    cases hcur : s.current with
    | none => exact h.setCall i (.idle rfl rfl)
    | some conn => exact (h.respond hcur).setCall i (.idle rfl rfl)
  | done => exact h

lemma step {e : Event} (hok : Orderly encodedLen s e) : Sound encodedLen (step encodedLen s e) := by
  cases e with
  | intents bodies => exact {h with}
  | drain maxItems =>
    unfold CommandOutbox.step
    dsimp only
    split
    · exact h
    next bodies _ =>
    have hmoved : Sound encodedLen {s with intents := s.intents.drop maxItems} := {h with}
    exact (hmoved.commitCommands _).addCall ⟨fun q hq => (h.assigned hq).2.2,by rintro conn ⟨⟩⟩
  | emit _ | register | deregister | poll _ => exact h.addCall (.idle rfl rfl)
  | resume i desired =>
    unfold CommandOutbox.step
    dsimp only
    cases hi : s.calls[i]? with
    | none => exact h
    | some call => exact h.resume (h.calls call (mem_of_getElem? hi)) (hok call hi) desired i
  | restart => exact {h with
      current := by rintro conn ⟨⟩
      buffered := by rintro conn ⟨⟩
      calls := by rintro call ⟨⟩}

end Sound

/-- In a run that hands commands on in the order in which they were persisted and acks only what
responses contained, no ack removes a command from the outbox or from a buffer before some
response contained it. -/
theorem run_unseen_eq_nil (encodedLen : Command → ℕ) (events : List Event)
    (h : Trace.Along (step encodedLen) (Orderly encodedLen) {} events) :
    (run encodedLen events).unseen = [] := by
  have hsound : Sound encodedLen (run encodedLen events) :=
    Trace.Along.invariant (fun hs hok => hs.step hok) Sound.init h
  exact hsound.unseen

/-- A call that is resumed `n` times. -/
def resumeTimes (call n : ℕ) : List Event := List.replicate n (.resume call none)

/-- One command is delivered and acked. The server starts again before it has delivered the second,
which the new connection takes from the outbox. -/
def deliveredRun : List Event :=
  [.register]++resumeTimes 0 4++[.intents [[1]],.drain 256]++resumeTimes 1 2 ++
    [.poll none]++resumeTimes 2 2++[.poll (some 1)]++resumeTimes 3 4 ++
    [.intents [[2]],.drain 256,.restart,.register]++resumeTimes 0 4 ++
    [.poll none]++resumeTimes 1 2++[.poll (some 2)]++resumeTimes 2 4

theorem deliveredRun_unseen : (run (fun cmd => cmd.body.length) deliveredRun).outbox = [] ∧
    (run (fun cmd => cmd.body.length) deliveredRun).delivered = [toLex (0,1),toLex (0,2)] ∧
    (run (fun cmd => cmd.body.length) deliveredRun).unseen = [] :=
  ⟨by decide,by decide,run_unseen_eq_nil (fun cmd => cmd.body.length) deliveredRun (by decide)⟩

/-- The first command is persisted after a registration has read the outbox and before it has
inserted the connection; the second one is pushed to that connection. -/
def skippedRun : List Event :=
  [.register]++resumeTimes 0 3++[.intents [[1]],.drain 256]++resumeTimes 1 1 ++
    resumeTimes 0 1++[.intents [[2]],.drain 256]++resumeTimes 2 2 ++
    [.poll none]++resumeTimes 3 2++[.poll (some 2)]++resumeTimes 4 3

/-- The only response contains the second command alone. The ack of that command removes the
first one from the outbox. -/
theorem skippedRun_unseen : (run (fun cmd => cmd.body.length) skippedRun).delivered = [toLex (0,2)] ∧
    (run (fun cmd => cmd.body.length) skippedRun).outbox = [] ∧
    (run (fun cmd => cmd.body.length) skippedRun).unseen = [⟨0,⟨1,[1]⟩⟩] := by
  decide

end CommandOutbox
end Indexify
