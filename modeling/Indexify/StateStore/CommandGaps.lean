import Indexify.StateStore.CommandDelivery

/-! Commands for a connected executor, emitted and polled one call after another. Numbers are given
and stored before the buffer is asked to take the commands, and the dataplane applies commands in
consecutive order only. -/
namespace Indexify.CommandOutbox
open List

/-- The server with one connection, and the last command that the dataplane applied. -/
structure Link where
  server : State := {connections := [{}], current := some 0}
  applied : ℕ := 0

inductive LinkEvent
  | emit (bodies : List (List UInt8))
  /-- The dataplane polls and can apply so many of the commands that it gets. -/
  | poll (handled : ℕ)

def applyCommands : ℕ → ℕ → List Queued → ℕ
  | applied,_,[] => applied
  | applied,handled,q::qs =>
    if q.cmd.seq<applied+1 then applyCommands applied handled qs
    else if applied+1<q.cmd.seq then applied
    else match handled with
      | 0 => applied
      | handled+1 => applyCommands q.cmd.seq handled qs

namespace Link
variable (encodedLen : Command → ℕ)

def answer (l : Link) : List Queued × State :=
  let ack := if 0<l.applied then some l.applied else none
  let s := l.server.modifyConnection 0 (Connection.observeCommandAck ack)
  let s := match ack with
    | none => s
    | some seq => (s.ackExecutorCommands seq s.acked).drainCommandsUpTo 0 seq
  s.respond encodedLen 0

def step (l : Link) : LinkEvent → Link
  | .emit bodies =>
    let push := Connection.pushCommands encodedLen (l.server.assigned bodies)
    {l with server := (l.server.commitCommands bodies).modifyConnection 0 push}
  | .poll handled =>
    let r := answer encodedLen l
    ⟨r.2,applyCommands l.applied handled r.1⟩

/-- The buffer holds what the outbox holds, with consecutive numbers from the last acknowledged
one up to the last one given. -/
def Consecutive (l : Link) : Prop :=
  ∃ c, l.server.connections = [c] ∧ c.pending=l.server.outbox ∧ c.pending.map (·.cmd.seq) =
      range' (l.server.acked+1) (l.server.nextSeq-(l.server.acked+1))

/-- Every command fits into a response and the numbers do not run out. -/
def Fitting (l : Link) : LinkEvent → Prop
  | .emit bodies => Fits encodedLen (l.server.assigned bodies) ∧ l.server.nextSeq+bodies.length ≤ u64Max
  | .poll _ => True

instance (l : Link) : (e : LinkEvent) → Decidable (Fitting encodedLen l e)
  | .emit _ => inferInstanceAs (Decidable (_ ∧ _))
  | .poll _ => .isTrue trivial

end Link

section
variable {cmds outbox : List Queued} {n k m handled : ℕ}

lemma assignSeqs_seqs (stream : ℕ) (bodies : List (List UInt8)) (h : n+bodies.length ≤ u64Max) :
    (assignSeqs stream n bodies).1.map (·.cmd.seq) = range' n bodies.length ∧
      (assignSeqs stream n bodies).2 = n+bodies.length := by
  induction bodies generalizing n with
  | nil => simp [assignSeqs]
  | cons body bodies ih =>
    rw [length_cons] at h
    have hsucc : saturatingSucc n = n+1 := by unfold saturatingSucc; omega
    obtain ⟨hseqs,hnext⟩ := @ih (n+1) (by omega)
    simp only [assignSeqs,hsucc,map_cons,hseqs,hnext,length_cons,range'_succ]
    exact ⟨trivial,by omega⟩

lemma seq_of_mem (h : cmds.map (·.cmd.seq) = range' n cmds.length) {q : Queued}
    (hq : q∈cmds) : n ≤ q.cmd.seq ∧ q.cmd.seq<n+cmds.length := by
  have hmem := mem_map_of_mem (f := fun q : Queued => q.cmd.seq) hq
  rwa [h,mem_range'_1] at hmem

lemma foldl_putCommand_fresh (hold : ∀ q∈outbox, q.cmd.seq<n)
    (hcmds : cmds.map (·.cmd.seq) = range' n cmds.length) :
    cmds.foldl putCommand outbox = outbox++cmds := by
  induction cmds generalizing outbox n with
  | nil => simp
  | cons q cmds ih =>
    simp only [map_cons,length_cons,range'_succ,cons.injEq] at hcmds
    have hput : putCommand outbox q = outbox++[q] := by
      unfold putCommand
      rw [filter_eq_self.mpr fun p hp => by
        have := hold p hp
        simp only [decide_eq_true_eq]
        omega]
    rw [foldl_cons,hput,@ih _ (n+1) ?_ hcmds.2]
    · simp
    intro p hp
    rcases mem_append.mp hp with hp | hp
    · exact (hold p hp).trans (Nat.lt_succ_self n)
    · rw [mem_singleton.mp hp]
      omega

lemma filter_acked (h : cmds.map (·.cmd.seq) = range' (n+1) cmds.length) (hm : n ≤ m) :
    (cmds.filter fun q => m<q.cmd.seq) = cmds.drop (m-n) := by
  induction cmds generalizing n with
  | nil => simp
  | cons q cmds ih =>
    simp only [map_cons,length_cons,range'_succ,cons.injEq] at h
    rcases Nat.eq_or_lt_of_le hm with rfl | hlt
    · have hrest : ∀ p∈cmds, n<p.cmd.seq := fun p hp => by
        have := seq_of_mem h.2 hp
        omega
      simp [filter_eq_self.mpr fun p hp => decide_eq_true (hrest p hp),h.1]
    · rw [filter_cons_of_neg (by simp; omega),ih h.2 hlt,show m-n = (m-(n+1))+1 by omega,drop_succ_cons]

lemma applyCommands_range (h : cmds.map (·.cmd.seq) = range' (n+1) cmds.length) :
    n ≤ applyCommands n handled cmds ∧ applyCommands n handled cmds ≤ n+cmds.length := by
  induction cmds generalizing n handled with
  | nil => simp [applyCommands]
  | cons q cmds ih =>
    simp only [map_cons,length_cons,range'_succ,cons.injEq] at h
    cases handled with
    | zero => simp [applyCommands,h.1]
    | succ handled =>
      have hrest := @ih (n+1) handled h.2
      simp only [applyCommands,h.1,Nat.lt_irrefl,if_false,length_cons]
      omega

end

namespace Link
variable {encodedLen : Command → ℕ} {l : Link} {c : Connection}

/-- The buffer is the outbox without gaps, and the dataplane is somewhere in it. -/
structure Gapless (encodedLen : Command → ℕ) (l : Link) (c : Connection) : Prop where
  only : l.server.connections = [c]
  same : c.pending=l.server.outbox
  fits : Fits encodedLen c.pending
  seqs : c.pending.map (·.cmd.seq) = range' (l.server.acked+1) c.pending.length
  next : l.server.nextSeq = l.server.acked+1+c.pending.length
  acked : l.server.acked ≤ l.applied
  applied : l.applied<l.server.nextSeq

lemma Gapless.emit (h : Gapless encodedLen l c) {bodies : List (List UInt8)}
    (hfit : Fitting encodedLen l (.emit bodies)) :
    ∃ c', Gapless encodedLen (step encodedLen l (.emit bodies)) c' := by
  obtain ⟨hfits,hroom⟩ := hfit
  obtain ⟨hseqs,hnext⟩ := assignSeqs_seqs l.server.stream bodies hroom
  change (l.server.assigned bodies).map _ = _ at hseqs
  have hlen : (l.server.assigned bodies).length = bodies.length := by
    simpa using congrArg length hseqs
  have hput : (l.server.assigned bodies).foldl putCommand l.server.outbox =
      c.pending++l.server.assigned bodies := by
    rw [← h.same]
    refine foldl_putCommand_fresh (fun q hq => ?_) (hlen ▸ hseqs)
    have := seq_of_mem h.seqs hq
    have := h.next
    omega
  have hpush : c.pushCommands encodedLen (l.server.assigned bodies) =
      {c with pending := c.pending++l.server.assigned bodies} := by
    unfold Connection.pushCommands
    rw [if_neg]
    simpa [Fits] using hfits
  have hcommit : (l.server.commitCommands bodies).nextSeq = l.server.nextSeq+bodies.length := hnext
  refine ⟨{c with pending := c.pending++l.server.assigned bodies},?_,hput.symm,?_,?_,?_,h.acked,?_⟩
  · simp [step,State.modifyConnection,State.commitCommands,h.only,hpush]
  · intro q hq
    exact (mem_append.mp hq).elim (h.fits q) (hfits q)
  · change map _ (_++_) = range' (l.server.acked+1) (length (_++_))
    rw [map_append,h.seqs,hseqs,length_append,hlen,h.next,range'_append_1]
  · change (l.server.commitCommands bodies).nextSeq = _
    rw [hcommit,h.next,length_append,hlen,Nat.add_assoc]
    rfl
  · change l.applied<(l.server.commitCommands bodies).nextSeq
    have := h.applied
    omega

lemma respond_single {s : State} (hs : s.connections = [c]) (hfits : Fits encodedLen c.pending) :
    (s.respond encodedLen 0).1 = ExecutorConnection.cappedClone (fun q => encodedLen q.cmd)
        maxPollResponseBytes c.pending ∧
      ∃ delivered, (s.respond encodedLen 0).2 = {s with delivered := delivered} := by
  have hkept := (cloneCommandsCapped_spec hfits).1
  have hc : s.connections[0]?.getD {} = c := by simp [hs]
  refine ⟨?_,_,show _ = {s with delivered := (s.respond encodedLen 0).2.delivered} from ?_⟩ <;>
    simp only [State.respond,hc]
  · exact congrArg (ExecutorConnection.cappedClone _ _) hkept
  · simp [State.modifyConnection,hs,hkept]

lemma Gapless.answered (h : Gapless encodedLen l c) :
    ∃ c', Gapless encodedLen {l with server := (answer encodedLen l).2} c' ∧
      (answer encodedLen l).2.acked = l.applied ∧
      (answer encodedLen l).2.nextSeq = l.server.nextSeq ∧
      (answer encodedLen l).1 = ExecutorConnection.cappedClone (fun q => encodedLen q.cmd)
        maxPollResponseBytes c'.pending := by
  have hacked := h.acked
  have happlied := h.applied
  have hnext := h.next
  have hdrop : (c.pending.filter fun q => l.applied<q.cmd.seq) =
      c.pending.drop (l.applied-l.server.acked) := filter_acked h.seqs hacked
  have hfits : Fits encodedLen (c.pending.drop (l.applied-l.server.acked)) := fun q hq =>
    h.fits q (mem_of_mem_drop hq)
  have hseqs : (c.pending.drop (l.applied-l.server.acked)).map (·.cmd.seq) =
      range' (l.applied+1) (c.pending.drop (l.applied-l.server.acked)).length := by
    rw [map_drop,h.seqs,drop_range']
    simp
    omega
  have hobserve : ∀ ack, (c.observeCommandAck ack).pending = c.pending := by
    intro ack
    unfold Connection.observeCommandAck
    dsimp only
    split_ifs <;> rfl
  -- the state whose buffer is offered: an acknowledgement of zero is not sent and drops nothing
  obtain ⟨s,c',hanswer,hconn,hpending,houtbox,hseq,hack⟩ : ∃ (s : State) (c' : Connection),
      answer encodedLen l = s.respond encodedLen 0 ∧ s.connections = [c'] ∧
      c'.pending = c.pending.drop (l.applied-l.server.acked) ∧ s.outbox=c'.pending ∧
      s.nextSeq = l.server.nextSeq ∧ s.acked=l.applied := by
    by_cases hzero : l.applied=0
    · refine ⟨_,c.observeCommandAck none,by simp [answer,hzero]; rfl,?_⟩
      simp [State.modifyConnection,h.only,hzero,h.same,hobserve]
      omega
    refine ⟨_,(c.observeCommandAck (some l.applied)).drainCommandsUpTo l.applied,by
      simp [answer,Nat.pos_of_ne_zero hzero]; rfl,?_⟩
    simp [State.modifyConnection,State.drainCommandsUpTo,State.ackExecutorCommands,h.only,
      Connection.drainCommandsUpTo,hobserve,hdrop,← h.same,Nat.max_eq_left hacked]
  rw [← hpending] at hfits hseqs
  obtain ⟨hitems,delivered,hstate⟩ := respond_single hconn hfits
  rw [hanswer,hstate]
  refine ⟨c',⟨hconn,houtbox.symm,hfits,?_,?_,?_,?_⟩,hack,hseq,hitems⟩ <;> dsimp only
  · rw [hack,hseqs]
  · rw [hseq,hack,hnext,hpending,length_drop]
    omega
  · rw [hack]
  · rwa [hseq]

lemma Gapless.poll (h : Gapless encodedLen l c) (handled : ℕ) :
    ∃ c', Gapless encodedLen (step encodedLen l (.poll handled)) c' := by
  obtain ⟨c',hg,hack,hseq,hitems⟩ := h.answered
  obtain ⟨rest,hrest⟩ := cappedClone_is_initial (fun q : Queued => encodedLen q.cmd)
    maxPollResponseBytes c'.pending
  rw [← hitems] at hrest
  have hseqs := hg.seqs
  rw [hack,← hrest,map_append,length_append,← range'_append_1] at hseqs
  obtain ⟨hown,-⟩ := append_inj hseqs (by simp)
  have hrange := @applyCommands_range _ _ handled hown
  have hlen := congrArg length hrest
  have hnext := hg.next
  dsimp only at hnext
  rw [length_append] at hlen
  refine ⟨c',hg.only,hg.same,hg.fits,hg.seqs,hg.next,?_,?_⟩ <;> dsimp only [step]
  · rw [hack]
    exact hrange.1
  · omega

lemma gapless_run (encodedLen : Command → ℕ) {events : List LinkEvent}
    (hrun : Trace.Along (step encodedLen) (Fitting encodedLen) {} events) :
    ∃ c, Gapless encodedLen (events.foldl (step encodedLen) {}) c := by
  refine @Trace.Along.invariant _ _ _ _ (fun l => ∃ c, Gapless encodedLen l c) ?_ _ _
    ⟨{},rfl,rfl,by simp [Fits],rfl,rfl,le_rfl,Nat.one_pos⟩ hrun
  rintro l e ⟨c,hc⟩ hfit
  cases e with
  | emit bodies => exact hc.emit hfit
  | poll handled => exact hc.poll handled

/-- As long as every command fits, the buffer has all that is stored in consecutive order, and a
poll of a dataplane that is behind offers the command it waits for. -/
theorem commands_consecutive (encodedLen : Command → ℕ) (events : List LinkEvent)
    (hrun : Trace.Along (step encodedLen) (Fitting encodedLen) {} events) :
    let l := events.foldl (step encodedLen) {}
    l.Consecutive ∧ (l.applied+1<l.server.nextSeq →
      ((answer encodedLen l).1.head?.map (·.cmd.seq)) = some (l.applied+1)) := by
  obtain ⟨c,hc⟩ := gapless_run encodedLen hrun
  refine ⟨⟨c,hc.only,hc.same,?_⟩,fun hbehind => ?_⟩
  · rw [hc.seqs,hc.next,Nat.add_sub_cancel_left]
  obtain ⟨c',hg,hack,hseq,hitems⟩ := hc.answered
  have hseqs := hg.seqs
  have hnext := hg.next
  rw [hack] at hseqs
  rw [hitems]
  cases hp : c'.pending with
  | nil =>
    rw [hp,hack,hseq,length_nil] at hnext
    omega
  | cons q rest =>
    rw [hp,length_cons,range'_succ] at hseqs
    simpa [ExecutorConnection.cappedClone] using (cons.inj hseqs).1

/-- A size for every command: those that start with one are too long. -/
def markedLen (cmd : Command) : ℕ := if cmd.body = [1] then maxPollResponseBytes+1 else 1

def smallEvents : List LinkEvent := [.emit [[2],[3]],.poll 1,.emit [[4]],.poll 2]

theorem smallEvents_consecutive :
    let l := smallEvents.foldl (step markedLen) {}
    l.applied = 3 ∧ l.Consecutive := by
  exact ⟨by decide +kernel,(commands_consecutive markedLen smallEvents (by decide +kernel)).1⟩

/-- The first command is stored under number one and never enters the buffer. The second one is
offered by every poll, and the dataplane waits for the first. -/
theorem oversized_command_leaves_gap :
    let l := [LinkEvent.emit [[1]],.emit [[2]],.poll 2,.poll 2].foldl (step markedLen) {}
    l.server.outbox.map (·.cmd.seq) = [1,2] ∧
      l.server.connections.map (fun c => c.pending.map (·.cmd.seq)) = [[2]] ∧
      l.applied = 0 ∧ ¬l.Consecutive := by
  refine ⟨by decide +kernel,by decide +kernel,by decide +kernel,?_⟩
  rintro ⟨c,hc,hsame,-⟩
  have hlen := congrArg (fun cs => (cs.map fun c => c.pending.length)) hc
  simp only [map_cons,map_nil,hsame] at hlen
  revert hlen
  decide +kernel

end Link
end Indexify.CommandOutbox
