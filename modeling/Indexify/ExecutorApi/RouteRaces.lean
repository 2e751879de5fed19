import Indexify.ExecutorApi.ResultRouting

/-! Calls of the result router that run at the same time. A call is suspended at every access of
the store and whenever it waits for the lock of the routes in memory, so between two of its
accesses other calls may run. A take that finds its route in memory keeps the lock until the
persisted route is deleted; no other access of memory is followed by an access of the store under
the lock. Accesses of the store succeed: the source only logs a failed delete of a take, and the route
it leaves behind would be handed out again. -/
namespace Indexify.RouteRaces
open Dict List

inductive RouterCall
  | register (id : String) (r : PendingFunctionCall)
  | registerFromParent (id : String) (new : PendingFunctionCall)
  | take (id : String)
  | purgeExecutor (executorId : ExecutorId)
  deriving DecidableEq

/-- Where a call is suspended: what it does next. -/
inductive Progress
  /-- Writes the route to the store. -/
  | upserting (id : String) (r : PendingFunctionCall)
  /-- Puts the route that was just written into memory. -/
  | publishing (id : String) (r : PendingFunctionCall)
  /-- Looks for an existing route in memory. -/
  | reading (id : String) (new : PendingFunctionCall)
  /-- Looks for an existing route in the store. -/
  | fetching (id : String) (new : PendingFunctionCall)
  /-- Asks whether the parent of the existing route is alive. -/
  | checking (id : String) (new existing : PendingFunctionCall)
  /-- Keeps the existing route, in memory too. -/
  | loading (id : String) (existing : PendingFunctionCall)
  /-- Looks for the route in memory. `era` counts the registrations of the id that had begun when
  the take did. -/
  | taking (id : String) (era : ℕ)
  /-- Has the route and the lock, and deletes the persisted route. -/
  | removing (id : String) (r : PendingFunctionCall) (era : ℕ)
  /-- Takes the persisted route. -/
  | takingStored (id : String) (era : ℕ)
  /-- Drops the routes of the executor from memory. -/
  | purging (executorId : ExecutorId)
  /-- Reads which persisted routes are those of the executor. -/
  | scanning (executorId : ExecutorId)
  /-- Deletes what the scan found. -/
  | deleting (executorId : ExecutorId) (ids : List String)
  deriving DecidableEq

inductive Kind
  | registers (id : String)
  | takes (id : String)
  | purges
  deriving DecidableEq

def RouterCall.kind : RouterCall → Kind
  | .register id _ => .registers id
  | .registerFromParent id _ => .registers id
  | .take id => .takes id
  | .purgeExecutor _ => .purges

def Progress.kind : Progress → Kind
  | .upserting id _ => .registers id
  | .publishing id _ => .registers id
  | .reading id _ => .registers id
  | .fetching id _ => .registers id
  | .checking id _ _ => .registers id
  | .loading id _ => .registers id
  | .taking id _ => .takes id
  | .removing id _ _ => .takes id
  | .takingStored id _ => .takes id
  | .purging _ => .purges
  | .scanning _ => .purges
  | .deleting _ _ => .purges

/-- A registration conflicts with every other call for its id and with a purge. -/
def Kind.Conflicts : Kind → Kind → Prop
  | .registers id,.registers id' => id=id'
  | .registers id,.takes id' => id=id'
  | .takes id,.registers id' => id=id'
  | .registers _,.purges => True
  | .purges,.registers _ => True
  | _,_ => False

instance : DecidableRel Kind.Conflicts := fun _ _ => by
  unfold Kind.Conflicts
  split <;> infer_instance

lemma Kind.Conflicts.symm {k k' : Kind} (h : k.Conflicts k') : k'.Conflicts k := by
  cases k <;> cases k' <;> simp_all [Kind.Conflicts]

structure RouterState where
  pending : Dict String PendingFunctionCall := ∅
  routes : Dict String PendingFunctionCall := ∅
  /-- The call that holds the lock across an access of the store. -/
  lock : Option ℕ := none
  calls : Dict ℕ Progress := ∅
  next : ℕ := 0
  /-- The ids of the registrations that have begun, for the statements below. -/
  registered : List String := []
  /-- The takes that handed out a route: the id and the era. -/
  handed : List (String × ℕ) := []

namespace RouterState
variable {s : RouterState}

def era (s : RouterState) (id : String) : ℕ := s.registered.count id

def goto (s : RouterState) (n : ℕ) (pc : Progress) : RouterState :=
  {s with calls := s.calls.insert n pc}

def finish (s : RouterState) (n : ℕ) : RouterState := {s with calls := s.calls.erase n}

/-- How a registration by a parent goes on once it knows the existing route. -/
def resolve (id : String) (new : PendingFunctionCall) : Option PendingFunctionCall → Progress
  | none => .upserting id new
  | some existing =>
    if existing.parentAllocationId=new.parentAllocationId ∧
        existing.executorId = new.executorId then .loading id existing
    else if existing.originalFunctionCallId≠id then .checking id new existing
    else .upserting id new

/-- The next access of a call. Whoever needs the lock waits while a take holds it; `alive` is what
the store says about the parent of an existing route. -/
def advance (s : RouterState) (n : ℕ) (alive : Bool) : Progress → RouterState
  | .upserting id r => {s.goto n (.publishing id r) with routes := s.routes.insert id r}
  | .publishing id r =>
    if s.lock.isSome then s else {s.finish n with pending := s.pending.insert id r}
  | .reading id new =>
    if s.lock.isSome then s
    else
      match s.pending.lookup id with
      | some existing => s.goto n (resolve id new (some existing))
      | none => s.goto n (.fetching id new)
  | .fetching id new => s.goto n (resolve id new (s.routes.lookup id))
  | .checking id new existing =>
    if alive then s.goto n (.loading id existing)
    else s.goto n (.upserting id {new with
      originalFunctionCallId := existing.originalFunctionCallId})
  | .loading id existing =>
    if s.lock.isSome then s
    else if id∈s.pending then s.finish n
    else {s.finish n with pending := s.pending.insert id existing}
  | .taking id era =>
    if s.lock.isSome then s
    else
      match s.pending.lookup id with
      | some r => {s.goto n (.removing id r era) with pending := s.pending.erase id, lock := some n}
      | none => s.goto n (.takingStored id era)
  | .removing id _ era =>
    {s.finish n with
      routes := s.routes.erase id
      lock := none
      handed := s.handed++[(id,era)]}
  | .takingStored id era =>
    match s.routes.lookup id with
    | some _ => {s.finish n with routes := s.routes.erase id, handed := s.handed++[(id,era)]}
    | none => s.finish n
  | .purging e =>
    if s.lock.isSome then s
    else {s.goto n (.scanning e) with pending := s.pending.retain fun _ r => r.executorId ≠ e}
  | .scanning e =>
    s.goto n (.deleting e (s.routes.retain fun _ r => r.executorId=e).keys)
  | .deleting _ ids => {s.finish n with routes := ids.foldl (fun m id => m.erase id) s.routes}

def entry (s : RouterState) : RouterCall → Progress
  | .register id r => .upserting id r
  | .registerFromParent id new => .reading id new
  | .take id => .taking id (s.era id)
  | .purgeExecutor e => .purging e

def registrations : RouterCall → List String
  | .register id _ => [id]
  | .registerFromParent id _ => [id]
  | _ => []

def begin (s : RouterState) (call : RouterCall) : RouterState :=
  {s with
    calls := s.calls.insert s.next (s.entry call)
    next := s.next+1
    registered := s.registered++registrations call}

inductive Event
  | begins (call : RouterCall)
  | advances (n : ℕ) (alive : Bool)
  deriving DecidableEq

def step (s : RouterState) : Event → RouterState
  | .begins call => s.begin call
  | .advances n alive =>
    match s.calls.lookup n with
    | some pc => s.advance n alive pc
    | none => s

def run (s : RouterState) (events : List Event) : RouterState := events.foldl step s

/-- Calls that conflict do not overlap. -/
def Allowed (s : RouterState) : Event → Prop
  | .begins call => ∀ pc∈s.calls.values, ¬call.kind.Conflicts pc.kind
  | .advances _ _ => True

instance (s : RouterState) : DecidablePred s.Allowed := fun _ => by
  unfold Allowed
  split <;> infer_instance

/-- Between calls memory agrees with the store. A route that was handed out is handed out again,
or left in a map, only when a registration of its id began after the take that handed it out. -/
structure Safe (s : RouterState) : Prop where
  stored : s.calls = ∅ → ∀ id r, s.pending.lookup id = some r → s.routes.lookup id = some r
  once : s.handed.Nodup
  gone : ∀ id era, (id,era) ∈ s.handed → era = s.era id →
    s.pending.lookup id = none ∧ s.routes.lookup id = none

def Fresh (s : RouterState) (id : String) : Prop := (id,s.era id) ∉ s.handed

def Holds (s : RouterState) : Progress → Prop
  | .upserting id _ => s.Fresh id
  | .publishing id r => s.Fresh id ∧ s.routes.lookup id = some r
  | .reading id _ => s.Fresh id
  | .fetching id _ => s.Fresh id
  | .checking id _ existing => s.Fresh id ∧ s.routes.lookup id = some existing
  | .loading id existing => s.Fresh id ∧ s.routes.lookup id = some existing
  | .taking id era => era = s.era id
  | .removing id _ era => era = s.era id ∧ s.pending.lookup id = none ∧ s.Fresh id
  | .takingStored id era => era = s.era id ∧ s.pending.lookup id = none
  | .purging _ => True
  | .scanning e => ∀ id r, s.pending.lookup id = some r → r.executorId≠e
  | .deleting e ids => (∀ id r, s.pending.lookup id = some r → r.executorId≠e) ∧
      ∀ id∈ids, ∀ r, s.routes.lookup id = some r → r.executorId=e

structure Inv (s : RouterState) : Prop where
  lock : ∀ n, s.lock = some n ↔ ∃ id r era, s.calls.lookup n = some (.removing id r era)
  fresh : ∀ {n pc}, s.calls.lookup n = some pc → n<s.next
  apart : ∀ {n m pc pc'}, s.calls.lookup n = some pc → s.calls.lookup m = some pc' → n≠m →
    ¬pc.kind.Conflicts pc'.kind
  holds : ∀ {n pc}, s.calls.lookup n = some pc → s.Holds pc
  stored : ∀ {id r}, s.pending.lookup id = some r → s.routes.lookup id = some r ∨
    ∃ n r', s.calls.lookup n = some (.publishing id r')
  one : ∀ {n m id r era era'}, s.calls.lookup n = some (.removing id r era) →
    s.calls.lookup m ≠ some (.takingStored id era')
  once : s.handed.Nodup
  past : ∀ {id era}, (id,era) ∈ s.handed → era ≤ s.era id
  gone : ∀ {id era}, (id,era) ∈ s.handed → era = s.era id →
    s.pending.lookup id = none ∧ s.routes.lookup id = none

section
variable {s s' : RouterState} {n : ℕ} {pc pc' : Progress} {id : String}
variable (s)

@[simp] lemma lookup_goto (n m : ℕ) (pc : Progress) :
    (s.goto n pc).calls.lookup m = if m=n then some pc else s.calls.lookup m :=
  lookup_insert_if _ _ _ _

lemma lookup_goto_self (n : ℕ) (pc : Progress) :
    (s.goto n pc).calls.lookup n = some pc := AList.lookup_insert _

@[simp] lemma lookup_finish (n m : ℕ) :
    (s.finish n).calls.lookup m = if m=n then none else s.calls.lookup m :=
  lookup_erase_if _ _ _

variable {s}

lemma kind_resolve (id : String) (new : PendingFunctionCall) (o : Option PendingFunctionCall) :
    (resolve id new o).kind = .registers id := by
  cases o with
  | none => rfl
  | some existing =>
    unfold resolve
    dsimp only
    split_ifs <;> rfl

structure Shrinks (s s' : RouterState) : Prop where
  registered : s'.registered=s.registered
  pending : ∀ {id r}, s'.pending.lookup id = some r → s.pending.lookup id = some r
  routes : ∀ {id r}, s'.routes.lookup id = some r → s.routes.lookup id = some r

lemma Shrinks.era_eq (h : Shrinks s s') (id : String) : s'.era id = s.era id := by
  unfold era
  rw [h.registered]

lemma Shrinks.pending_none (h : Shrinks s s') (hn : s.pending.lookup id = none) :
    s'.pending.lookup id = none := by
  cases hl : s'.pending.lookup id with
  | none => rfl
  | some r => cases hn.symm.trans (h.pending hl)

lemma Shrinks.routes_none (h : Shrinks s s') (hn : s.routes.lookup id = none) :
    s'.routes.lookup id = none := by
  cases hl : s'.routes.lookup id with
  | none => rfl
  | some r => cases hn.symm.trans (h.routes hl)

lemma Holds.mono (h : s.Holds pc) (hera : ∀ id, pc.kind = .takes id → s'.era id = s.era id)
    (hfresh : ∀ id, (pc.kind = .registers id ∨ ∃ r era, pc = .removing id r era) → s.Fresh id → s'.Fresh id)
    (hroutes : ∀ id, pc.kind = .registers id → s'.routes.lookup id = s.routes.lookup id)
    (hpending : ∀ id, pc.kind = .takes id → s.pending.lookup id = none → s'.pending.lookup id = none)
    (hpurges : pc.kind=.purges → ∀ id r, (s'.pending.lookup id = some r → s.pending.lookup id = some r) ∧
        (s'.routes.lookup id = some r → s.routes.lookup id = some r)) : s'.Holds pc := by
  cases pc with
  | upserting id r
  | reading id new
  | fetching id new => exact hfresh id (.inl rfl) h
  | publishing id r
  | checking id new existing
  | loading id existing => exact ⟨hfresh id (.inl rfl) h.1,(hroutes id rfl).trans h.2⟩
  | taking id era => exact h.trans (hera id rfl).symm
  | removing id r era =>
    exact ⟨h.1.trans (hera id rfl).symm,hpending id rfl h.2.1,hfresh id (.inr ⟨r,era,rfl⟩) h.2.2⟩
  | takingStored id era => exact ⟨h.1.trans (hera id rfl).symm,hpending id rfl h.2⟩
  | purging e => trivial
  | scanning e => exact fun id r hl => h id r ((hpurges rfl id r).1 hl)
  | deleting e ids =>
    exact ⟨fun id r hl => h.1 id r ((hpurges rfl id r).1 hl),
      fun id hid r hl => h.2 id hid r ((hpurges rfl id r).2 hl)⟩

structure Writes (id : String) (s s' : RouterState) : Prop where
  registered : s'.registered=s.registered
  handed : s'.handed=s.handed
  pending : ∀ i, i≠id → s'.pending.lookup i = s.pending.lookup i
  routes : ∀ i, i≠id → s'.routes.lookup i = s.routes.lookup i

lemma Writes.era_eq (h : Writes id s s') (i : String) : s'.era i = s.era i := by
  unfold era
  rw [h.registered]

lemma Writes.fresh_iff (h : Writes id s s') (i : String) : s'.Fresh i ↔ s.Fresh i := by
  unfold Fresh
  rw [h.era_eq,h.handed]

lemma Holds.write (h : s.Holds pc) (hs : Writes id s s')
    (hpc : ¬(Kind.registers id).Conflicts pc.kind) : s'.Holds pc := by
  refine h.mono (fun i _ => hs.era_eq i) (fun i _ => (hs.fresh_iff i).mpr) (fun i hk => ?_)
    (fun i hk => ?_) fun hk => ?_ <;> rw [hk] at hpc
  · exact hs.routes i (Ne.symm hpc)
  · rw [hs.pending i (Ne.symm hpc)]
    exact fun hl => hl
  · exact absurd trivial hpc

end

section
variable {s s' : RouterState} {n : ℕ} {pc : Progress} {o : Option Progress} {m : ℕ} {q : Progress}

/-- One call moves on, or ends, and stays what it is. -/
structure Moves (s s' : RouterState) (n : ℕ) (pc : Progress) (o : Option Progress) : Prop where
  now : s.calls.lookup n = some pc
  calls : ∀ m, s'.calls.lookup m = if m=n then o else s.calls.lookup m
  kind : ∀ pc'∈o, pc'.kind=pc.kind
  next : s'.next=s.next

lemma moves_goto (pc' : Progress) (hn : s.calls.lookup n = some pc) (hk : pc'.kind=pc.kind)
    (hcalls : s'.calls = (s.goto n pc').calls) (hnext : s'.next=s.next) : Moves s s' n pc (some pc') where
  now := hn
  calls m := by rw [hcalls,lookup_goto]
  kind q hq := by
    cases hq
    exact hk
  next := hnext

lemma moves_finish (hn : s.calls.lookup n = some pc) (hcalls : s'.calls = (s.finish n).calls)
    (hnext : s'.next=s.next) : Moves s s' n pc none where
  now := hn
  calls m := by rw [hcalls,lookup_finish]
  kind q hq := by cases hq
  next := hnext

lemma Moves.cases (h : Moves s s' n pc o) (hm : s'.calls.lookup m = some q) :
    m = n ∧ o = some q ∨ m≠n ∧ s.calls.lookup m = some q := by
  rw [h.calls] at hm
  split_ifs at hm with hmn
  · exact .inl ⟨hmn,hm⟩
  · exact .inr ⟨hmn,hm⟩

lemma Moves.other (h : Moves s s' n pc o) (hne : m≠n)
    (hm : s.calls.lookup m = some q) : s'.calls.lookup m = some q := by
  rw [h.calls,if_neg hne]
  exact hm

lemma Moves.publishing (hm : Moves s s' n pc o) {id : String} {r : PendingFunctionCall}
    (hpc : ∀ r, pc ≠ .publishing id r) (hp : s.calls.lookup m = some (.publishing id r)) :
    s'.calls.lookup m = some (.publishing id r) := by
  refine hm.other ?_ hp
  rintro rfl
  exact hpc r (Option.some.inj (hm.now.symm.trans hp))

variable (h : s.Inv) (hm : Moves s s' n pc o)
include h hm

lemma Inv.fresh_moves (hl : s'.calls.lookup m = some q) : m<s'.next := by
  rw [hm.next]
  rcases hm.cases hl with ⟨rfl,-⟩ | ⟨-,hl⟩
  · exact h.fresh hm.now
  · exact h.fresh hl

lemma Inv.apart_moves {m' : ℕ} {q' : Progress}
    (hl : s'.calls.lookup m = some q) (hl' : s'.calls.lookup m' = some q') (hne : m≠m') :
    ¬q.kind.Conflicts q'.kind := by
  rcases hm.cases hl with ⟨rfl,ho⟩ | ⟨-,hl⟩ <;> rcases hm.cases hl' with ⟨rfl,ho'⟩ | ⟨-,hl'⟩
  · exact absurd rfl hne
  · rw [hm.kind q ho]
    exact h.apart hm.now hl' hne
  · rw [hm.kind q' ho']
    exact h.apart hl hm.now hne
  · exact h.apart hl hl' hne

lemma Inv.lock_moves (hlock : s'.lock=s.lock)
    (hpc : ∀ {id r era}, pc ≠ .removing id r era) (ho : ∀ {id r era}, o ≠ some (.removing id r era))
    (m : ℕ) : s'.lock = some m ↔ ∃ id r era, s'.calls.lookup m = some (.removing id r era) := by
  rw [hlock,h.lock]
  constructor
  · rintro ⟨id,r,era,hl⟩
    refine ⟨id,r,era,hm.other ?_ hl⟩
    rintro rfl
    exact hpc (Option.some.inj (hm.now.symm.trans hl))
  rintro ⟨id,r,era,hl⟩
  rcases hm.cases hl with ⟨-,hl⟩ | ⟨-,hl⟩
  · exact absurd hl ho
  · exact ⟨id,r,era,hl⟩

lemma Inv.one_moves {m' : ℕ} {id : String} {r : PendingFunctionCall} {era era' : ℕ}
    (hnew : ∀ {id r era}, o = some (.removing id r era) →
      ∀ m era', s.calls.lookup m ≠ some (.takingStored id era'))
    (hstored : ∀ {id era}, o = some (.takingStored id era) → s.lock=none)
    (hl : s'.calls.lookup m = some (.removing id r era)) :
    s'.calls.lookup m' ≠ some (.takingStored id era') := by
  intro hl'
  rcases hm.cases hl with ⟨-,ho⟩ | ⟨-,hl⟩ <;> rcases hm.cases hl' with ⟨-,ho'⟩ | ⟨-,hl'⟩
  · cases ho.symm.trans ho'
  · exact hnew ho m' era' hl'
  · cases (hstored ho').symm.trans ((h.lock m).mpr ⟨id,r,era,hl⟩)
  · exact h.one hl hl'

lemma Inv.write (id : String)
    (hkind : pc.kind = .registers id) (hs : Writes id s s') (hlock : s'.lock=s.lock)
    (hfresh : s.Fresh id) (hholds : ∀ q∈o, s'.Holds q)
    (hstored : ∀ r, s'.pending.lookup id = some r → s'.routes.lookup id = some r ∨
      ∃ r', o = some (.publishing id r')) : s'.Inv := by
  have hnew : ∀ {i era}, o ≠ some (.takingStored i era) := by
    rintro i era rfl
    cases (hm.kind _ rfl).trans hkind
  have hnot : ∀ {i r era}, o ≠ some (.removing i r era) := by
    rintro i r era rfl
    cases (hm.kind _ rfl).trans hkind
  constructor
  · refine h.lock_moves hm hlock ?_ hnot
    rintro i r era rfl
    cases hkind
  · exact h.fresh_moves hm
  · exact h.apart_moves hm
  · intro m q hl
    rcases hm.cases hl with ⟨-,ho⟩ | ⟨hne,hl⟩
    · exact hholds q ho
    · exact (h.holds hl).write hs (hkind ▸ h.apart hm.now hl (Ne.symm hne))
  · intro i r hl
    by_cases hi : i=id
    · subst hi
      rcases hstored r hl with hr | ⟨r',ho⟩
      · exact .inl hr
      · exact .inr ⟨n,r',by rw [hm.calls,if_pos rfl,ho]⟩
    rw [hs.pending i hi] at hl
    rw [hs.routes i hi]
    refine (h.stored hl).imp_right fun ⟨m,r',hp⟩ => ⟨m,r',hm.publishing ?_ hp⟩
    rintro r rfl
    exact hi (Kind.registers.inj hkind)
  · exact h.one_moves hm (fun ho => absurd ho hnot) fun ho => absurd ho hnew
  · rw [hs.handed]
    exact h.once
  · intro i era hmem
    rw [hs.era_eq]
    exact h.past (hs.handed ▸ hmem)
  · intro i era hmem he
    rw [hs.era_eq] at he
    rw [hs.handed] at hmem
    have hi : i≠id := by
      rintro rfl
      exact hfresh (he ▸ hmem)
    rw [hs.pending i hi,hs.routes i hi]
    exact h.gone hmem he

lemma Inv.shrink (hs : Shrinks s s') (hpc : ∀ id r, pc ≠ .publishing id r)
    (hlock : ∀ m, s'.lock = some m ↔ ∃ id r era, s'.calls.lookup m = some (.removing id r era))
    (hroutes : ∀ {m q id}, s.calls.lookup m = some q → m≠n → q.kind = .registers id →
      s'.routes.lookup id = s.routes.lookup id) (hfresh : ∀ {m q id}, s.calls.lookup m = some q → m≠n →
      (q.kind = .registers id ∨ ∃ r era, q = .removing id r era) → s.Fresh id → s'.Fresh id)
    (hholds : ∀ q∈o, s'.Holds q)
    (hstored : ∀ {id r}, s'.pending.lookup id = some r → s.routes.lookup id = some r →
      s'.routes.lookup id = some r) (hone : ∀ {id r era}, o = some (.removing id r era) →
      ∀ m era', s.calls.lookup m ≠ some (.takingStored id era'))
    (htaking : ∀ {id era}, o = some (.takingStored id era) → s.lock=none)
    (honce : s'.handed.Nodup) (hpast : ∀ {id era}, (id,era) ∈ s'.handed → era ≤ s.era id)
    (hgone : ∀ {id era}, (id,era) ∈ s'.handed → era = s.era id →
      s'.pending.lookup id = none ∧ s'.routes.lookup id = none) : s'.Inv := by
  constructor
  · exact hlock
  · exact h.fresh_moves hm
  · exact h.apart_moves hm
  · intro m q hl
    rcases hm.cases hl with ⟨-,ho⟩ | ⟨hne,hl⟩
    · exact hholds q ho
    exact (h.holds hl).mono (fun id _ => hs.era_eq id) (fun _ hk => hfresh hl hne hk)
      (fun _ hk => hroutes hl hne hk) (fun _ _ => hs.pending_none)
      fun _ _ _ => ⟨hs.pending,hs.routes⟩
  · intro id r hl
    exact (h.stored (hs.pending hl)).imp (hstored hl) fun ⟨m,r',hp⟩ =>
      ⟨m,r',hm.publishing (hpc id) hp⟩
  · exact h.one_moves hm hone htaking
  · exact honce
  · intro id era hmem
    rw [hs.era_eq]
    exact hpast hmem
  · intro id era hmem he
    rw [hs.era_eq] at he
    exact hgone hmem he

omit hm in
lemma Inv.idle {calls : Dict ℕ Progress} (hm : Moves s {s with calls := calls} n pc o)
    (hpc : ∀ id r, pc ≠ .publishing id r) (hkeep : ∀ id r era, pc ≠ .removing id r era)
    (hnew : ∀ id r era, o ≠ some (.removing id r era))
    (hstored : ∀ id era, o = some (.takingStored id era) → s.lock=none)
    (hholds : ∀ q∈o, s.Holds q) : ({s with calls := calls} : RouterState).Inv := by
  refine h.shrink hm ⟨rfl,fun hl => hl,fun hl => hl⟩ hpc
    (h.lock_moves hm rfl (hkeep _ _ _) (hnew _ _ _)) (fun _ _ _ => rfl) (fun _ _ _ hf => hf)
    (fun q hq => ?_) (fun _ hr => hr) (fun ho => absurd ho (hnew _ _ _)) (hstored _ _) h.once h.past
    h.gone
  have hsame := hholds q hq
  cases q <;> exact hsame

end

section
variable {s : RouterState} {n : ℕ} {id : String}
  {alive : Bool} {pc : Progress} {existing new r : PendingFunctionCall}

lemma Inv.routes_of_pending (h : s.Inv) (hn : s.calls.lookup n = some pc)
    (hkind : pc.kind = .registers id) (hpc : ∀ i r, pc ≠ .publishing i r)
    (hp : s.pending.lookup id = some existing) : s.routes.lookup id = some existing := by
  rcases h.stored hp with hr | ⟨m,r',hm⟩
  · exact hr
  by_cases hmn : m=n
  · subst hmn
    exact absurd (Option.some.inj (hn.symm.trans hm)) (hpc id r')
  have hno := h.apart hn hm (Ne.symm hmn)
  rw [hkind] at hno
  exact absurd rfl hno

lemma holds_resolve {o : Option PendingFunctionCall} (hf : s.Fresh id)
    (hr : ∀ existing∈o, s.routes.lookup id = some existing) : s.Holds (resolve id new o) := by
  cases o with
  | none => exact hf
  | some existing =>
    unfold resolve
    dsimp only
    split_ifs
    · exact ⟨hf,hr existing rfl⟩
    · exact ⟨hf,hr existing rfl⟩
    · exact hf

variable (h : s.Inv)
include h

lemma Inv.goto_registers {pc' : Progress} (hn : s.calls.lookup n = some pc)
    (hkind : pc.kind = .registers id) (hkind' : pc'.kind = .registers id)
    (hpc : ∀ i r, pc ≠ .publishing i r) (hholds : s.Holds pc') : (s.goto n pc').Inv := by
  refine h.idle (moves_goto pc' hn (hkind'.trans hkind.symm) rfl rfl) hpc ?_ ?_ ?_ ?_
  · rintro i r era rfl
    cases hkind
  · intro i r era ho
    cases ho
    cases hkind'
  · intro i era ho
    cases ho
    cases hkind'
  · intro q hq
    cases hq
    exact hholds

lemma Inv.upserting (hn : s.calls.lookup n = some (.upserting id r)) :
    (s.advance n alive (.upserting id r)).Inv := by
  have hfresh : s.Fresh id := h.holds hn
  refine h.write (moves_goto (.publishing id r) hn rfl rfl rfl) id rfl ⟨rfl,rfl,fun _ _ => rfl,?_⟩ rfl hfresh
    ?_ ?_
  · intro i hi
    exact AList.lookup_insert_ne hi
  · intro q hq
    cases hq
    exact ⟨hfresh,AList.lookup_insert _⟩
  · exact fun _ _ => .inr ⟨r,rfl⟩

lemma Inv.insert_pending (hn : s.calls.lookup n = some pc) (hkind : pc.kind = .registers id)
    (hfresh : s.Fresh id) (hr : s.routes.lookup id = some r) :
    ({s.finish n with pending := s.pending.insert id r} : RouterState).Inv := by
  refine h.write (moves_finish hn rfl rfl) id hkind ⟨rfl,rfl,?_,fun _ _ => rfl⟩ rfl hfresh
    ?_ ?_
  · intro i hi
    exact AList.lookup_insert_ne hi
  · intro q hq
    cases hq
  · intro r' hl
    rw [lookup_insert_if,if_pos rfl] at hl
    cases hl
    exact .inl hr

lemma Inv.publishing (hn : s.calls.lookup n = some (.publishing id r)) :
    (s.advance n alive (.publishing id r)).Inv := by
  obtain ⟨hfresh,hr⟩ := h.holds hn
  unfold advance
  dsimp only
  split_ifs
  · exact h
  · exact h.insert_pending hn rfl hfresh hr

lemma Inv.reading (hn : s.calls.lookup n = some (.reading id new)) :
    (s.advance n alive (.reading id new)).Inv := by
  have hfresh : s.Fresh id := h.holds hn
  have hpc : ∀ i r, Progress.reading id new ≠ .publishing i r := fun _ _ he => by cases he
  unfold advance
  dsimp only
  split_ifs
  · exact h
  cases hp : s.pending.lookup id with
  | none => exact h.goto_registers hn rfl rfl hpc hfresh
  | some existing =>
    refine h.goto_registers hn rfl (kind_resolve _ _ _) hpc (holds_resolve hfresh ?_)
    intro e he
    cases he
    exact h.routes_of_pending hn rfl hpc hp

lemma Inv.fetching (hn : s.calls.lookup n = some (.fetching id new)) :
    (s.advance n alive (.fetching id new)).Inv :=
  h.goto_registers hn rfl (kind_resolve _ _ _) (fun _ _ he => by cases he)
    (holds_resolve (h.holds hn) fun _ he => he)

lemma Inv.checking (hn : s.calls.lookup n = some (.checking id new existing)) :
    (s.advance n alive (.checking id new existing)).Inv := by
  have hholds := h.holds hn
  have hpc : ∀ i r, Progress.checking id new existing ≠ .publishing i r := fun _ _ he => by cases he
  unfold advance
  dsimp only
  split_ifs
  · exact h.goto_registers hn rfl rfl hpc hholds
  · exact h.goto_registers hn rfl rfl hpc hholds.1

lemma Inv.loading (hn : s.calls.lookup n = some (.loading id existing)) :
    (s.advance n alive (.loading id existing)).Inv := by
  obtain ⟨hfresh,hr⟩ := h.holds hn
  unfold advance
  dsimp only
  split_ifs
  · exact h
  · refine h.idle (moves_finish hn rfl rfl) ?_ ?_ ?_ ?_ ?_ <;> simp
  · exact h.insert_pending hn rfl hfresh hr

omit h
end

section
variable {s : RouterState} {n : ℕ} {alive : Bool} {id : String} {era : ℕ}

lemma Inv.taking (h : s.Inv) (hn : s.calls.lookup n = some (.taking id era)) :
    (s.advance n alive (.taking id era)).Inv := by
  have hera : era = s.era id := h.holds hn
  unfold advance
  dsimp only
  split_ifs with hfree
  · exact h
  have hlock : s.lock=none := Option.not_isSome_iff_eq_none.mp hfree
  cases hp : s.pending.lookup id with
  | none =>
    refine h.idle (moves_goto (.takingStored id era) hn rfl rfl rfl) ?_ ?_ ?_ (fun _ _ _ => hlock) ?_
    · simp
    · simp
    · simp
    · intro q hq
      cases hq
      exact ⟨hera,hp⟩
  | some r =>
    have hfresh : s.Fresh id := by
      intro hmem
      cases hp.symm.trans (h.gone hmem rfl).1
    have hm : Moves s {s.goto n (.removing id r era) with
        pending := s.pending.erase id, lock := some n} n (.taking id era)
        (some (.removing id r era)) := moves_goto _ hn rfl rfl rfl
    have hs : Shrinks s {s.goto n (.removing id r era) with
        pending := s.pending.erase id, lock := some n} := by
      exact ⟨rfl,fun hl => (lookup_of_erase hl).2,fun hl => hl⟩
    have herased : (s.pending.erase id).lookup id = none :=
      AList.lookup_erase _ _
    refine h.shrink hm hs ?_ ?_ (fun _ _ _ => rfl) (fun _ _ _ hf => hf) ?_ (fun _ hr => hr) ?_ ?_
      h.once h.past ?_
    · simp
    · intro m
      constructor
      · intro hlk
        obtain rfl := Option.some.inj hlk
        exact ⟨id,r,era,by rw [hm.calls,if_pos rfl]⟩
      rintro ⟨i,r',era',hl⟩
      rcases hm.cases hl with ⟨rfl,-⟩ | ⟨-,hl⟩
      · rfl
      · cases hlock.symm.trans ((h.lock m).mpr ⟨i,r',era',hl⟩)
    · intro q hq
      cases hq
      exact ⟨hera,herased,hfresh⟩
    · intro i r' era' ho m era'' hl
      cases ho
      cases hp.symm.trans (h.holds hl).2
    · simp
    · intro i era' hmem he
      obtain ⟨hp',hr'⟩ := h.gone hmem he
      exact ⟨hs.pending_none hp',hr'⟩

lemma Inv.hand_out (h : s.Inv) {pc : Progress} {lock : Option ℕ} (hn : s.calls.lookup n = some pc)
    (hkind : pc.kind = .takes id) (hera : era = s.era id) (hpending : s.pending.lookup id = none)
    (hfresh : s.Fresh id)
    (hlock : ∀ m, lock = some m ↔ m≠n ∧ ∃ i r era, s.calls.lookup m = some (.removing i r era))
    (hother : ∀ m r era', m≠n → s.calls.lookup m ≠ some (.removing id r era')) :
    ({s.finish n with
      routes := s.routes.erase id, lock := lock,
      handed := s.handed++[(id,era)]} : RouterState).Inv := by
  have hm : Moves s {s.finish n with
      routes := s.routes.erase id, lock := lock, handed := s.handed++[(id,era)]} n pc none :=
    moves_finish hn rfl rfl
  have hs : Shrinks s {s.finish n with
      routes := s.routes.erase id, lock := lock, handed := s.handed++[(id,era)]} := by
    exact ⟨rfl,fun hl => hl,fun hl => (lookup_of_erase hl).2⟩
  have hoff : ∀ {i}, i≠id → (s.routes.erase id).lookup i = s.routes.lookup i :=
    fun hi => AList.lookup_erase_ne hi
  -- a registration of the id would conflict with the take
  have hreg : ∀ {m q i}, s.calls.lookup m = some q → m≠n → q.kind = .registers i → i≠id := by
    rintro m q i hl hne hk rfl
    have hno := h.apart hl hn hne
    rw [hk,hkind] at hno
    exact hno rfl
  refine h.shrink hm hs ?_ ?_ (fun hl hne hk => hoff (hreg hl hne hk)) ?_ ?_ ?_ ?_ ?_ ?_ ?_ ?_
  · rintro i r rfl
    cases hkind
  · intro m
    rw [hlock]
    constructor
    · rintro ⟨hne,i,r,era',hl⟩
      exact ⟨i,r,era',hm.other hne hl⟩
    rintro ⟨i,r,era',hl⟩
    rcases hm.cases hl with ⟨-,ho⟩ | ⟨hne,hl⟩
    · cases ho
    · exact ⟨hne,i,r,era',hl⟩
  · intro m q i hl hne hq hf
    have hi : i≠id := by
      rcases hq with hk | ⟨r,era',rfl⟩
      · exact hreg hl hne hk
      · rintro rfl
        exact hother m r era' hne hl
    intro hmem
    rcases mem_append.mp hmem with hmem | hmem
    · exact hf hmem
    · exact hi (Prod.mk.inj (mem_singleton.mp hmem)).1
  · simp
  · intro i r hp hr
    have hi : i≠id := by
      rintro rfl
      cases hpending.symm.trans hp
    exact (hoff hi).trans hr
  · simp
  · simp
  · refine nodup_append.mpr ⟨h.once,nodup_singleton _,?_⟩
    rintro p hp q hq rfl
    rw [mem_singleton.mp hq,hera] at hp
    exact hfresh hp
  · intro i era' hmem
    rcases mem_append.mp hmem with hmem | hmem
    · exact h.past hmem
    · obtain ⟨rfl,rfl⟩ := Prod.mk.inj (mem_singleton.mp hmem)
      exact hera.le
  · intro i era' hmem he
    rcases mem_append.mp hmem with hmem | hmem
    · obtain ⟨hp,hr⟩ := h.gone hmem he
      exact ⟨hp,hs.routes_none hr⟩
    · obtain ⟨rfl,rfl⟩ := Prod.mk.inj (mem_singleton.mp hmem)
      exact ⟨hpending,AList.lookup_erase _ _⟩

lemma Inv.removing (h : s.Inv) {r : PendingFunctionCall}
    (hn : s.calls.lookup n = some (.removing id r era)) :
    (s.advance n alive (.removing id r era)).Inv := by
  obtain ⟨hera,hpending,hfresh⟩ := h.holds hn
  have hlock := (h.lock n).mpr ⟨id,r,era,hn⟩
  refine h.hand_out hn rfl hera hpending hfresh ?_ ?_
  · intro m
    constructor
    · intro hm
      cases hm
    · rintro ⟨hne,i,r',era',hl⟩
      exact absurd (Option.some.inj (((h.lock m).mpr ⟨i,r',era',hl⟩).symm.trans hlock)) hne
  · intro m r' era' hne hl
    exact hne (Option.some.inj (((h.lock m).mpr ⟨id,r',era',hl⟩).symm.trans hlock))

lemma Inv.takingStored (h : s.Inv) (hn : s.calls.lookup n = some (.takingStored id era)) :
    (s.advance n alive (.takingStored id era)).Inv := by
  obtain ⟨hera,hpending⟩ := h.holds hn
  unfold advance
  dsimp only
  cases hr : s.routes.lookup id with
  | none => refine h.idle (moves_finish hn rfl rfl) ?_ ?_ ?_ ?_ ?_ <;> simp
  | some r =>
    refine h.hand_out hn rfl hera hpending ?_ ?_ fun m r' era' _ hl => h.one hl hn
    · intro hmem
      cases hr.symm.trans (h.gone hmem rfl).2
    intro m
    change s.lock = some m ↔ _
    rw [h.lock m]
    constructor
    · rintro ⟨i,r',era',hl⟩
      refine ⟨?_,i,r',era',hl⟩
      rintro rfl
      cases Option.some.inj (hn.symm.trans hl)
    · exact fun hl => hl.2

end

section
variable {s : RouterState} {n : ℕ} {alive : Bool} {e : ExecutorId}

lemma Inv.purge (h : s.Inv) {s' : RouterState} {pc : Progress} {o : Option Progress}
    (hm : Moves s s' n pc o) (hkind : pc.kind=.purges) (hs : Shrinks s s')
    (hlock : s'.lock=s.lock) (hhanded : s'.handed=s.handed) (hholds : ∀ q∈o, s'.Holds q)
    (hstored : ∀ {id r}, s'.pending.lookup id = some r → s.routes.lookup id = some r →
      s'.routes.lookup id = some r) : s'.Inv := by
  have hkind' : ∀ {q}, o = some q → q.kind=.purges := fun ho => (hm.kind _ ho).trans hkind
  have hfresh : ∀ {i}, s.Fresh i → s'.Fresh i := by
    intro i hf
    unfold Fresh
    rwa [hs.era_eq,hhanded]
  refine h.shrink hm hs ?_ ?_ ?_ (fun _ _ _ => hfresh) hholds hstored ?_ ?_ (hhanded ▸ h.once)
    (fun hmem => h.past (hhanded ▸ hmem)) ?_
  · rintro i r rfl
    cases hkind
  · refine h.lock_moves hm hlock ?_ fun ho => by cases hkind' ho
    rintro i r era rfl
    cases hkind
  · intro m q id hl hne hk
    have hno := h.apart hl hm.now hne
    rw [hk,hkind] at hno
    exact absurd trivial hno
  · intro i r era ho
    cases hkind' ho
  · intro i era ho
    cases hkind' ho
  · intro i era hmem he
    obtain ⟨hp,hr⟩ := h.gone (hhanded ▸ hmem) he
    exact ⟨hs.pending_none hp,hs.routes_none hr⟩

lemma Inv.purging (h : s.Inv) (hn : s.calls.lookup n = some (.purging e)) :
    (s.advance n alive (.purging e)).Inv := by
  have hretain : ∀ {i r}, (s.pending.retain fun _ r => decide (r.executorId≠e)).lookup i =
      some r → s.pending.lookup i = some r ∧ r.executorId≠e := by
    intro i r hl
    have := (lookup_retain_eq_some _ _ _ _).mp hl
    simpa using this
  unfold advance
  dsimp only
  split_ifs
  · exact h
  refine h.purge (moves_goto (.scanning e) hn rfl rfl rfl) rfl
    ⟨rfl,fun hl => (hretain hl).1,fun hl => hl⟩ rfl rfl ?_ fun _ hr => hr
  intro q hq
  cases hq
  exact fun i r hl => (hretain hl).2

lemma Inv.scanning (h : s.Inv) (hn : s.calls.lookup n = some (.scanning e)) :
    (s.advance n alive (.scanning e)).Inv := by
  refine h.purge (moves_goto (.deleting e _) hn rfl rfl rfl) rfl ⟨rfl,fun hl => hl,fun hl => hl⟩
    rfl rfl ?_ fun _ hr => hr
  intro q hq
  cases hq
  refine ⟨h.holds hn,?_⟩
  intro i hi r hl
  obtain ⟨r',hr'⟩ := exists_of_mem (AList.mem_keys.mpr hi)
  obtain ⟨hr,he⟩ := (lookup_retain_eq_some _ _ _ _).mp hr'
  cases hl.symm.trans hr
  exact of_decide_eq_true he

lemma lookup_foldl_erase_id (routes : Dict String PendingFunctionCall) (ids : List String) (i : String) :
    (ids.foldl (fun m id => m.erase id) routes).lookup i = if i∈ids then none else routes.lookup i := by
  simpa using lookup_foldl_erase id routes ids i

lemma Inv.deleting (h : s.Inv) {ids : List String} (hn : s.calls.lookup n = some (.deleting e ids)) :
    (s.advance n alive (.deleting e ids)).Inv := by
  obtain ⟨hpending,hids⟩ := h.holds hn
  refine h.purge (moves_finish hn rfl rfl) rfl ⟨rfl,fun hl => hl,?_⟩ rfl rfl ?_ ?_
  · intro i r hl
    have hl' := (lookup_foldl_erase_id s.routes ids i).symm.trans hl
    split_ifs at hl'
    exact hl'
  · intro q hq
    cases hq
  · intro i r hp hr
    refine (lookup_foldl_erase_id s.routes ids i).trans ?_
    rw [if_neg fun hi => hpending i r hp (hids i hi r hr)]
    exact hr

lemma Inv.advance (h : s.Inv) {pc : Progress} (hn : s.calls.lookup n = some pc) :
    (s.advance n alive pc).Inv := by
  cases pc with
  | upserting id r => exact h.upserting hn
  | publishing id r => exact h.publishing hn
  | reading id new => exact h.reading hn
  | fetching id new => exact h.fetching hn
  | checking id new existing => exact h.checking hn
  | loading id existing => exact h.loading hn
  | taking id era => exact h.taking hn
  | removing id r era => exact h.removing hn
  | takingStored id era => exact h.takingStored hn
  | purging e => exact h.purging hn
  | scanning e => exact h.scanning hn
  | deleting e ids => exact h.deleting hn

end

section
variable {s : RouterState} {call : RouterCall}
variable (s)

lemma kind_entry (call : RouterCall) : (s.entry call).kind = call.kind := by
  cases call <;> rfl

lemma lookup_begin (call : RouterCall) (m : ℕ) :
    (s.begin call).calls.lookup m = if m=s.next then some (s.entry call) else s.calls.lookup m :=
  lookup_insert_if _ _ _ _

lemma era_begin (call : RouterCall) (id : String) :
    (s.begin call).era id = if call.kind = .registers id then s.era id+1 else s.era id := by
  unfold era begin
  cases call with
  | register i r
  | registerFromParent i new => by_cases hi : i = id <;> simp [registrations,RouterCall.kind,hi]
  | take i
  | purgeExecutor e => simp [registrations,RouterCall.kind]

variable {s}

lemma Holds.begin {pc : Progress} (h : s.Holds pc) (hpc : ¬call.kind.Conflicts pc.kind) :
    (s.begin call).Holds pc := by
  have hera : ∀ {id}, pc.kind = .registers id ∨ pc.kind = .takes id →
      (s.begin call).era id = s.era id := by
    intro id hid
    rw [era_begin,if_neg]
    intro hk
    rw [hk] at hpc
    rcases hid with h | h <;> rw [h] at hpc <;> exact hpc rfl
  refine h.mono (fun _ hk => hera (.inr hk)) (fun id hid hf => ?_) (fun _ _ => rfl)
    (fun _ _ hl => hl) fun _ _ _ => ⟨fun hl => hl,fun hl => hl⟩
  unfold Fresh
  rw [hera (hid.imp_right fun ⟨_,_,he⟩ => by rw [he]; rfl)]
  exact hf

lemma Inv.holds_entry (h : s.Inv) (call : RouterCall) : (s.begin call).Holds (s.entry call) := by
  have hfresh : ∀ id, call.kind = .registers id → (s.begin call).Fresh id := by
    intro id hk hmem
    have := h.past hmem
    rw [era_begin,if_pos hk] at this
    omega
  cases call with
  | register id r
  | registerFromParent id new => exact hfresh id rfl
  | take id => exact ((era_begin s (.take id) id).trans (if_neg (by simp [RouterCall.kind]))).symm
  | purgeExecutor e => trivial

lemma Inv.begin (h : s.Inv) (hcall : s.Allowed (.begins call)) : (s.begin call).Inv := by
  have hfree : s.calls.lookup s.next = none := by
    cases hl : s.calls.lookup s.next with
    | none => rfl
    | some pc => exact absurd (h.fresh hl) (lt_irrefl _)
  have hold : ∀ {m pc}, s.calls.lookup m = some pc → (s.begin call).calls.lookup m = some pc := by
    intro m pc hl
    rw [lookup_begin,if_neg]
    · exact hl
    · rintro rfl
      cases hfree.symm.trans hl
  have hcases : ∀ {m pc}, (s.begin call).calls.lookup m = some pc →
      m = s.next ∧ pc = s.entry call ∨ s.calls.lookup m = some pc := by
    intro m pc hl
    rw [lookup_begin] at hl
    split_ifs at hl with hm
    · exact .inl ⟨hm,(Option.some.inj hl).symm⟩
    · exact .inr hl
  have hapart : ∀ {m pc}, s.calls.lookup m = some pc → ¬call.kind.Conflicts pc.kind :=
    fun hl => hcall _ ((mem_values_iff _ _).mpr ⟨_,hl⟩)
  have hentry : ∀ {id r era}, s.entry call ≠ .removing id r era := by
    intro id r era he
    cases call <;> cases he
  constructor
  · intro m
    change s.lock = some m ↔ _
    rw [h.lock]
    constructor
    · rintro ⟨id,r,era,hl⟩
      exact ⟨id,r,era,hold hl⟩
    rintro ⟨id,r,era,hl⟩
    rcases hcases hl with ⟨-,he⟩ | hl
    · exact absurd he.symm hentry
    · exact ⟨id,r,era,hl⟩
  · intro m pc hl
    rcases hcases hl with ⟨rfl,-⟩ | hl
    · exact Nat.lt_succ_self _
    · exact (h.fresh hl).trans (Nat.lt_succ_self _)
  · intro m m' pc pc' hl hl' hne
    rcases hcases hl with ⟨rfl,rfl⟩ | hl <;> rcases hcases hl' with ⟨rfl,rfl⟩ | hl'
    · exact absurd rfl hne
    · rw [kind_entry]
      exact hapart hl'
    · rw [kind_entry]
      exact fun hc => hapart hl hc.symm
    · exact h.apart hl hl' hne
  · intro m pc hl
    rcases hcases hl with ⟨-,rfl⟩ | hl
    · exact h.holds_entry call
    · exact (h.holds hl).begin (hapart hl)
  · intro id r hl
    rcases h.stored hl with hr | ⟨m,r',hm⟩
    · exact .inl hr
    · exact .inr ⟨m,r',hold hm⟩
  · intro m m' id r era era' hl hl'
    rcases hcases hl with ⟨-,he⟩ | hl
    · exact hentry he.symm
    rcases hcases hl' with ⟨-,he⟩ | hl'
    · cases call <;> cases he
    · exact h.one hl hl'
  · exact h.once
  · intro id era hmem
    have hpast := h.past hmem
    rw [era_begin]
    split_ifs <;> omega
  · intro id era hmem he
    have hpast := h.past hmem
    rw [era_begin] at he
    split_ifs at he
    · omega
    · exact h.gone hmem he

end

lemma Inv.step (h : s.Inv) {event : Event} (hev : s.Allowed event) : (s.step event).Inv := by
  cases event with
  | begins call => exact h.begin hev
  | advances n alive =>
    unfold RouterState.step
    dsimp only
    cases hn : s.calls.lookup n with
    | none => exact h
    | some pc => exact h.advance hn

lemma Inv.safe (h : s.Inv) : s.Safe where
  stored hidle id r hl := by
    rcases h.stored hl with hr | ⟨n,r',hn⟩
    · exact hr
    · rw [hidle] at hn
      cases hn
  once := h.once
  gone id era hmem he := h.gone hmem he

/-- From a restart with any persisted routes, as long as calls that conflict do not overlap. -/
theorem run_routes_safe (routes : Dict String PendingFunctionCall) (events : List Event)
    (h : Trace.Along step Allowed {routes := routes} events) : (run {routes := routes} events).Safe :=
  (@Trace.Along.invariant _ _ step Allowed Inv (fun hs hev => hs.step hev) _ _ (by constructor <;> simp)
    h).safe

end RouterState

/-! ### A call that runs alone -/

/-- The calls as the report handlers make them, one after the other. -/
def sequential (a : ApiState) (ns application requestId : String) : RouterCall → ApiState
  | .register id r => a.register id r
  | .registerFromParent id new => (registerFromParent a id new ns application requestId).1
  | .take id => (a.take id).1
  | .purgeExecutor e => purgeExecutor a e

def existingAlive (a : ApiState) (ns application requestId : String) : RouterCall → Bool
  | .registerFromParent id _ =>
    match a.route id with
    | some existing => a.isAllocationAlive ns application requestId existing.parentAllocationId
    | none => false
  | _ => false

namespace RouterState

/-- With no other call in between, the call ends and leaves the two maps as given. -/
def Ends (s : RouterState) (n : ℕ) (alive : Bool) (a : ApiState) : Prop :=
  ∃ k, (∀ i, (run s (replicate k (.advances n alive))).pending.lookup i = a.pending.lookup i) ∧
    (∀ i, (run s (replicate k (.advances n alive))).routes.lookup i = a.routes.lookup i) ∧
    (run s (replicate k (.advances n alive))).calls.lookup n = none

lemma lookup_foldl_erase_retain (routes : Dict String PendingFunctionCall) (e : ExecutorId) (i : String) :
    ((routes.retain fun _ r => decide (r.executorId=e)).keys.foldl (fun m id => m.erase id)
      routes).lookup i = (routes.retain fun _ r => decide (r.executorId≠e)).lookup i := by
  have hmem : i ∈ (routes.retain fun _ r => decide (r.executorId=e)).keys ↔
      ∃ r, routes.lookup i = some r ∧ r.executorId=e := by
    rw [← AList.mem_keys,← AList.lookup_isSome,Option.isSome_iff_exists]
    simp [lookup_retain_eq_some]
  refine Option.ext fun r => ?_
  rw [lookup_foldl_erase_id,lookup_retain_eq_some]
  split_ifs with hi
  · obtain ⟨r',hr',he⟩ := hmem.mp hi
    grind
  · have hne : ∀ r, routes.lookup i = some r → r.executorId≠e := fun r hr he => hi (hmem.mpr ⟨r,hr,he⟩)
    simpa using hne r

section
variable {s : RouterState} {n : ℕ} {alive : Bool} {a : ApiState} {id : String}
  (hlock : s.lock=none) (hp : s.pending=a.pending) (hr : s.routes=a.routes)

lemma Ends.finish {calls : Dict ℕ Progress} (hcalls : s.calls = calls.erase n) (hp : s.pending=a.pending)
    (hr : ∀ i, s.routes.lookup i = a.routes.lookup i) : Ends s n alive a := by
  refine ⟨0,fun i => ?_,hr,?_⟩
  · exact congrArg (AList.lookup i) hp
  · exact hcalls ▸ AList.lookup_erase _ _

lemma Ends.next {pc : Progress} (hn : s.calls.lookup n = some pc)
    (h : Ends (s.advance n alive pc) n alive a) : Ends s n alive a := by
  obtain ⟨k,hk⟩ := h
  refine ⟨k+1,?_⟩
  have hstep : s.step (.advances n alive) = s.advance n alive pc := by
    unfold step
    simp only [hn]
  change (∀ i, (run (s.step _) _).pending.lookup i = _) ∧ (∀ i, (run (s.step _) _).routes.lookup i =
    _) ∧ (run (s.step _) _).calls.lookup n = none
  rw [hstep]
  exact hk

include hlock hp hr

lemma ends_upserting {r : PendingFunctionCall} (hn : s.calls.lookup n = some (.upserting id r)) :
    Ends s n alive (a.register id r) := by
  refine Ends.next hn (Ends.next (lookup_goto_self s n _) ?_)
  simp only [advance,goto,hlock,Option.isSome_none,Bool.false_eq_true,if_false]
  refine .finish rfl ?_ fun i => ?_
  · exact congrArg (·.insert id r) hp
  · exact congrArg (fun m => (m.insert id r).lookup i) hr

lemma ends_loading {existing : PendingFunctionCall}
    (hn : s.calls.lookup n = some (.loading id existing)) : Ends s n alive (a.load id existing) := by
  refine Ends.next hn ?_
  unfold ApiState.load
  simp only [advance,hlock,Option.isSome_none,Bool.false_eq_true,if_false,← hp]
  split_ifs
  · exact .finish rfl hp fun i => congrArg (AList.lookup i) hr
  · exact .finish rfl rfl fun i => congrArg (AList.lookup i) hr

lemma ends_resolve {new : PendingFunctionCall} {o : Option PendingFunctionCall}
    {ns application requestId : String} (ho : a.route id = o)
    (hn : s.calls.lookup n = some (resolve id new o))
    (halive : alive = existingAlive a ns application requestId (.registerFromParent id new)) :
    Ends s n alive (registerFromParent a id new ns application requestId).1 := by
  unfold existingAlive at halive
  unfold registerFromParent
  simp only [ho] at halive ⊢
  cases o with
  | none => exact ends_upserting hlock hp hr hn
  | some existing =>
    unfold resolve at hn
    dsimp only at hn halive ⊢
    by_cases hsame : existing.parentAllocationId=new.parentAllocationId ∧
        existing.executorId = new.executorId
    · rw [if_pos hsame] at hn ⊢
      exact ends_loading hlock hp hr hn
    rw [if_neg hsame] at hn ⊢
    by_cases hmoved : existing.originalFunctionCallId≠id
    · rw [if_pos hmoved] at hn ⊢
      refine Ends.next hn ?_
      rw [← halive]
      cases alive with
      | true => exact ends_loading (s := s.goto n _) hlock hp hr (lookup_goto_self s n _)
      | false => exact ends_upserting (s := s.goto n _) hlock hp hr (lookup_goto_self s n _)
    · rw [if_neg hmoved] at hn ⊢
      exact ends_upserting hlock hp hr hn

lemma ends_reading {new : PendingFunctionCall} {ns application requestId : String}
    (hn : s.calls.lookup n = some (.reading id new))
    (halive : alive = existingAlive a ns application requestId (.registerFromParent id new)) :
    Ends s n alive (registerFromParent a id new ns application requestId).1 := by
  refine Ends.next hn ?_
  simp only [advance,hlock]
  cases hl : s.pending.lookup id with
  | some existing =>
    refine ends_resolve (s := s.goto n _) hlock hp hr ?_ (lookup_goto_self s n _) halive
    rw [ApiState.route,← hp,hl]
    rfl
  | none =>
    refine Ends.next (lookup_goto_self s n _) ?_
    refine ends_resolve (s := (s.goto n _).goto n _) hlock hp hr ?_ (lookup_goto_self _ n _) halive
    rw [ApiState.route,← hp,← hr,hl]
    rfl

lemma ends_taking {era : ℕ} (hn : s.calls.lookup n = some (.taking id era)) :
    Ends s n alive (a.take id).1 := by
  refine Ends.next hn ?_
  unfold ApiState.take
  simp only [advance,hlock,Option.isSome_none,Bool.false_eq_true,if_false,← hp,← hr]
  cases s.pending.lookup id with
  | some r => exact Ends.next (lookup_goto_self s n _) (.finish rfl rfl fun _ => rfl)
  | none =>
    refine Ends.next (lookup_goto_self s n _) ?_
    simp only [advance,goto]
    cases s.routes.lookup id with
    | some r => exact .finish rfl rfl fun _ => rfl
    | none => exact .finish rfl hp fun i => congrArg (AList.lookup i) hr

lemma ends_purging {e : ExecutorId} (hn : s.calls.lookup n = some (.purging e)) :
    Ends s n alive (purgeExecutor a e) := by
  refine Ends.next hn ?_
  unfold purgeExecutor
  simp only [advance,hlock,← hp,← hr]
  refine Ends.next (lookup_goto_self s n _) (Ends.next (lookup_goto_self _ n _) ?_)
  exact .finish rfl rfl fun i => lookup_foldl_erase_retain s.routes e i

end
end RouterState

open RouterState in
/-- A call that runs alone does what the sequential call does. -/
theorem alone_sequential (s : RouterState) (a : ApiState) (hp : s.pending=a.pending)
    (hr : s.routes=a.routes) (hlock : s.lock=none) (ns application requestId : String)
    (call : RouterCall) :
    Ends (s.begin call) s.next (existingAlive a ns application requestId call)
      (sequential a ns application requestId call) := by
  have hn : (s.begin call).calls.lookup s.next = some (s.entry call) :=
    (lookup_begin s call s.next).trans (if_pos rfl)
  cases call with
  | register id r => exact ends_upserting (s := s.begin _) hlock hp hr hn
  | registerFromParent id new => exact ends_reading (s := s.begin _) hlock hp hr hn rfl
  | take id => exact ends_taking hlock hp hr hn
  | purgeExecutor e => exact ends_purging (s := s.begin _) hlock hp hr hn

namespace Samples

def route : PendingFunctionCall := ⟨"parent","call",⟨"executor"⟩⟩

/-- A take runs between the two writes of a registration, and a second take after both. -/
def takeBetween : List RouterState.Event :=
  [.begins (.register "call" route),.advances 0 true,.begins (.take "call"),.advances 1 true,
    .advances 1 true,.advances 0 true]

/-- A registration, then two takes of it at once, while another id is registered. -/
def takesTogether : List RouterState.Event :=
  [.begins (.register "call" route),.advances 0 true,.advances 0 true,.begins (.take "call"),
    .begins (.take "call"),.begins (.register "other" route),.advances 1 true,.advances 3 true,
    .advances 2 true,.advances 1 true,.advances 2 true,.advances 2 true,.advances 3 true]

end Samples

open Samples in
/-- Only one of the two takes gets the route. -/
theorem RouterState.takesTogether_safe :
    (run {} takesTogether).Safe ∧ (run {} takesTogether).calls.keys = [] ∧
      (run {} takesTogether).handed = [("call",1)] := by
  refine ⟨run_routes_safe ∅ takesTogether (by decide),?_,?_⟩
  · decide
  · decide

open Samples in
/-- The take finds the route in the store only and hands it out; the registration then puts it
into memory, from where a second take hands it out again. -/
theorem RouterState.takeBetween_duplicates :
    let s := run {} takeBetween
    s.calls.keys = [] ∧ s.registered = ["call"] ∧ s.pending.lookup "call" = some route ∧
      s.routes.lookup "call" = none ∧ s.handed = [("call",1)] ∧
      (run s [.begins (.take "call"),.advances 2 true,.advances 2 true]).handed =
        [("call",1),("call",1)] := by
  decide

end Indexify.RouteRaces
