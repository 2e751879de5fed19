import Indexify.StateStore.SandboxState

/-! Agreement of the sandbox indexes with the table of sandboxes. The four places that describe the
sandboxes awaiting allocation are one description of a partial function from keys to profiles; the
indexes by executor and by container are listings of the table. -/
namespace Indexify.SandboxState
open List Dict

def pendingPart (m : SandboxState) : Finset SandboxKey × Index ResourceProfile SandboxKey ×
    Dict SandboxKey ResourceProfile × ResourceProfileHistogram :=
  (m.pendingSandboxes,m.pendingSandboxesByProfile,m.pendingSandboxProfile,m.pendingResources)

/-- The awaiting sandboxes are those with a profile, and each is filed under its profile. -/
structure Describes (m : SandboxState) (f : SandboxKey → Option ResourceProfile) : Prop where
  pending : ∀ k, k∈m.pendingSandboxes ↔ (f k).isSome
  byProfile : ∀ p k, k ∈ m.pendingSandboxesByProfile.ids p ↔ f k = some p
  profile : ∀ k, m.pendingSandboxProfile.lookup k = f k
  histogram : Tally.Tallies m.pendingResources m.pendingSandboxes f

section
variable {m m' : SandboxState} {f g : SandboxKey → Option ResourceProfile} {key : SandboxKey}
  {p : ResourceProfile}
variable (h : m.Describes f)
include h

lemma Describes.of_part (hpart : m'.pendingPart=m.pendingPart) : m'.Describes f := by
  simp only [pendingPart,Prod.mk.injEq] at hpart
  obtain ⟨hp,hb,hl,hr⟩ := hpart
  exact ⟨by rw [hp]; exact h.pending,by rw [hb]; exact h.byProfile,by rw [hl]; exact h.profile,
    by rw [hp,hr]; exact h.histogram⟩

lemma Describes.congr (hfg : f=g) : m.Describes g := hfg ▸ h

lemma Describes.add (hk : f key = none) :
    (m.addPendingSandbox key p).Describes (Function.update f key (some p)) := by
  have hnew : key∉m.pendingSandboxes := by simp [h.pending,hk]
  constructor
  · intro k
    change k ∈ insert key m.pendingSandboxes ↔ _
    by_cases hkey : k=key
    · simp [hkey]
    · simp [hkey,h.pending]
  · intro q k
    change k ∈ (m.pendingSandboxesByProfile.add p key).ids q ↔ _
    rw [Index.mem_add,h.byProfile]
    by_cases hkey : k=key
    · simp [hkey,hk,eq_comm]
    · simp [hkey]
  · intro k
    change (m.pendingSandboxProfile.insert key p).lookup k = _
    rw [lookup_insert_if,h.profile]
    by_cases hkey : k=key
    · simp [hkey]
    · simp [hkey]
  · have hsame : ∀ a∈m.pendingSandboxes, f a = Function.update f key (some p) a := by
      intro a ha
      have hne : a≠key := fun he => hnew (he ▸ ha)
      simp [hne]
    exact (h.histogram.congr hsame).insert hnew (by simp)

lemma Describes.remove : (m.removePendingSandbox key).Describes (Function.update f key none) := by
  have hrest : ∀ a ∈ m.pendingSandboxes.erase key, f a = Function.update f key none a := by
    intro a ha
    simp [(Finset.mem_erase.mp ha).1]
  have hpend : ∀ k, k ∈ m.pendingSandboxes.erase key ↔ (Function.update f key none k).isSome := by
    intro k
    by_cases hkey : k=key
    · simp [hkey]
    · simp [hkey,h.pending]
  unfold removePendingSandbox
  cases hp : f key with
  | none =>
    -- the key is not filed anywhere, and its removal from the set changes nothing
    have hf : f = Function.update f key none := by
      rw [← hp,Function.update_eq_self]
    have hnot : key∉m.pendingSandboxes := by simp [h.pending,hp]
    rw [h.profile key,hp]
    rw [Finset.erase_eq_of_notMem hnot,← hf]
    exact h
  | some p =>
    have hin : key∈m.pendingSandboxes := by simp [h.pending,hp]
    rw [h.profile key,hp]
    constructor
    · exact hpend
    · intro q k
      rw [Index.mem_remove,h.byProfile]
      by_cases hkey : k=key
      · subst hkey
        simp [hp,eq_comm]
      · simp [hkey]
    · intro k
      rw [lookup_erase_if,h.profile]
      by_cases hkey : k=key
      · simp [hkey]
      · simp [hkey]
    · exact (h.histogram.erase hin hp).congr hrest

omit h
end

section
variable (m : SandboxState) (key : SandboxKey) (sandbox : Sandbox)

@[simp] lemma pendingPart_store : (m.store key sandbox).pendingPart = m.pendingPart := rfl

@[simp] lemma pendingPart_linkContainer (id : Option ContainerId) :
    (m.linkContainer key id).pendingPart = m.pendingPart := by cases id <;> rfl

@[simp] lemma pendingPart_linkExecutor (id : Option ExecutorId) :
    (m.linkExecutor key id).pendingPart = m.pendingPart := by cases id <;> rfl

@[simp] lemma pendingPart_link : (m.link key sandbox).pendingPart = m.pendingPart := by
  simp [link]

@[simp] lemma pendingPart_unlinkContainer (id : Option ContainerId) :
    (m.unlinkContainer id).pendingPart = m.pendingPart := by cases id <;> rfl

@[simp] lemma pendingPart_unlinkExecutor (prune : Bool) (id : Option ExecutorId) :
    (m.unlinkExecutor key prune id).pendingPart = m.pendingPart := by
  cases id with
  | none => rfl
  | some id =>
    simp only [unlinkExecutor]
    cases m.sandboxesByExecutor.lookup id <;> rfl

@[simp] lemma pendingPart_discard (prune : Bool) :
    (m.discard key sandbox prune).pendingPart = m.pendingPart := by
  change ((m.unlinkContainer sandbox.containerId).unlinkExecutor key prune
    sandbox.executorId).pendingPart = _
  simp

end

def listedPart (m : SandboxState) : Dict SandboxKey Sandbox × Dict ContainerId SandboxKey ×
    Dict ExecutorId (Finset SandboxKey) :=
  (m.sandboxes,m.sandboxByContainer,m.sandboxesByExecutor)

@[simp] lemma listedPart_removePendingSandbox (m : SandboxState) (key : SandboxKey) :
    (m.removePendingSandbox key).listedPart = m.listedPart := by
  unfold removePendingSandbox
  cases m.pendingSandboxProfile.lookup key <;> rfl

section
variable (m : SandboxState) (key : SandboxKey) (sandbox : Sandbox)

@[simp] lemma sandboxes_link : (m.link key sandbox).sandboxes = m.sandboxes := by
  unfold link
  cases sandbox.containerId <;> cases sandbox.executorId <;> rfl

lemma lookup_container_link (c : ContainerId) : (m.link key sandbox).sandboxByContainer.lookup c =
    if sandbox.containerId = some c then some key else m.sandboxByContainer.lookup c := by
  have hexec : (m.link key sandbox).sandboxByContainer =
      (m.linkContainer key sandbox.containerId).sandboxByContainer := by
    unfold link
    cases sandbox.executorId <;> rfl
  rw [hexec]
  cases hc : sandbox.containerId with
  | none => simp [linkContainer]
  | some id =>
    change (m.sandboxByContainer.insert id key).lookup c = _
    rw [lookup_insert_if]
    simp [eq_comm]

lemma mem_onExecutor_link (e : ExecutorId) (k : SandboxKey) : k ∈ (m.link key sandbox).onExecutor e ↔
    k ∈ m.onExecutor e ∨ k=key ∧ sandbox.executorId = some e := by
  have hcont : (m.linkContainer key sandbox.containerId).sandboxesByExecutor =
      m.sandboxesByExecutor := by cases sandbox.containerId <;> rfl
  unfold link
  cases he : sandbox.executorId with
  | none => simp [linkExecutor,onExecutor,hcont]
  | some id =>
    simp only [linkExecutor,onExecutor,hcont]
    by_cases hid : e=id
    · subst hid
      simp [or_comm]
    · have hne : ¬id=e := fun h => hid h.symm
      simp [hid,hne]

lemma sandboxes_discard (m : SandboxState) (key : SandboxKey) (old : Sandbox) (prune : Bool) :
    (m.discard key old prune).sandboxes = m.sandboxes.erase key := by
  simp only [discard,unlinkExecutor]
  cases old.containerId <;> cases old.executorId with
  | none => rfl
  | some id =>
    dsimp only [unlinkContainer]
    cases m.sandboxesByExecutor.lookup id <;> rfl

lemma lookup_container_discard (prune : Bool) (c : ContainerId) :
    (m.discard key sandbox prune).sandboxByContainer.lookup c =
      if sandbox.containerId = some c then none else m.sandboxByContainer.lookup c := by
  have hexec : (m.discard key sandbox prune).sandboxByContainer =
      (m.unlinkContainer sandbox.containerId).sandboxByContainer := by
    simp only [discard,unlinkExecutor]
    cases sandbox.executorId with
    | none => rfl
    | some id =>
      dsimp only
      cases (m.unlinkContainer sandbox.containerId).sandboxesByExecutor.lookup id <;> rfl
  rw [hexec]
  cases hc : sandbox.containerId with
  | none => simp [unlinkContainer]
  | some id =>
    change (m.sandboxByContainer.erase id).lookup c = _
    rw [lookup_erase_if]
    simp [eq_comm]

lemma mem_onExecutor_discard (prune : Bool) (e : ExecutorId) (k : SandboxKey) :
    k ∈ (m.discard key sandbox prune).onExecutor e ↔
      k ∈ m.onExecutor e ∧ ¬(k=key ∧ sandbox.executorId = some e) := by
  have hcont : (m.unlinkContainer sandbox.containerId).sandboxesByExecutor =
      m.sandboxesByExecutor := by cases sandbox.containerId <;> rfl
  simp only [discard,onExecutor,unlinkExecutor]
  cases he : sandbox.executorId with
  | none => simp [hcont]
  | some id =>
    rw [hcont]
    dsimp only
    cases hk : m.sandboxesByExecutor.lookup id with
    | none =>
      rw [hcont]
      by_cases hid : e=id
      · subst hid
        simp [hk]
      · have hne : ¬id=e := fun h => hid h.symm
        simp [hne]
    | some keys =>
      dsimp only
      by_cases hid : e=id
      · subst hid
        split_ifs with hp
        · -- the pruned set held no other key
          have hempty : keys.erase key = ∅ := by simpa using (Bool.and_eq_true_iff.mp hp).2
          have hiff : k ∈ keys.erase key ↔ False := by simp [hempty]
          rw [Finset.mem_erase] at hiff
          simp [hk]
          tauto
        · simp [hk,and_comm]
      · have hne : ¬id=e := fun h => hid h.symm
        split_ifs <;> simp [hid,hne]

end

/-- The indexes by executor and by container list exactly the live sandboxes. -/
structure Listed (m : SandboxState) : Prop where
  byExecutor : Listing.Lists (fun e k => k ∈ m.onExecutor e) m.sandboxes Sandbox.liveExecutor
  byContainer : Listing.Lists (fun c k => m.sandboxByContainer.lookup c = some k) m.sandboxes
    Sandbox.liveContainer

section
variable {m m' : SandboxState} {key : SandboxKey} {sandbox : Sandbox}

lemma Listed.of_part (h : m.Listed) (hpart : m'.listedPart=m.listedPart) : m'.Listed := by
  simp only [listedPart,Prod.mk.injEq] at hpart
  obtain ⟨hs,hc,he⟩ := hpart
  constructor
  · simp only [onExecutor,hs,he]
    exact h.byExecutor
  · rw [hs,hc]
    exact h.byContainer

lemma Listed.store_same (h : m.Listed)
    (he : (m.sandboxes.lookup key).bind Sandbox.liveExecutor = sandbox.liveExecutor)
    (hc : (m.sandboxes.lookup key).bind Sandbox.liveContainer = sandbox.liveContainer) :
    (m.store key sandbox).Listed :=
  ⟨(Listing.Lists.insert_iff h.byExecutor).mpr he,(Listing.Lists.insert_iff h.byContainer).mpr hc⟩

lemma Listed.store_link (h : m.Listed) (hm : m'.listedPart = (m.store key sandbox).listedPart)
    (hlive : sandbox.status≠.terminated) (hexec : ∀ old, m.sandboxes.lookup key = some old →
      old.liveExecutor = none ∨ old.liveExecutor=sandbox.executorId)
    (hcont : ∀ old, m.sandboxes.lookup key = some old →
      old.liveContainer = none ∨ old.liveContainer=sandbox.containerId)
    (hfree : ∀ c k, sandbox.containerId = some c → m.sandboxByContainer.lookup c = some k →
      k = key) : (m'.link key sandbox).Listed := by
  simp only [listedPart,Prod.mk.injEq] at hm
  obtain ⟨hs,hc,he⟩ := hm
  have hon : ∀ e, m'.onExecutor e = m.onExecutor e := fun e => by simp [onExecutor,he,store]
  constructor
  · rw [sandboxes_link,hs]
    refine h.byExecutor.insert (fun e => ?_) fun e k hk => ?_
    · rw [mem_onExecutor_link,hon,Sandbox.liveExecutor,if_neg hlive]
      constructor
      · rintro (hin | ⟨-,hsome⟩)
        · exact Listing.Lists.eq_of hexec h.byExecutor hin
        · exact hsome
      · exact fun hsome => .inr ⟨rfl,hsome⟩
    · rw [mem_onExecutor_link,hon]
      simp [hk]
  rw [sandboxes_link,hs]
  refine h.byContainer.insert (fun c => ?_) fun c k hk => ?_
  · rw [lookup_container_link,hc,Sandbox.liveContainer]
    split_ifs with hsome
    · simp [hsome]
    · refine iff_of_false (fun hin => hsome ?_) hsome
      exact Listing.Lists.eq_of hcont h.byContainer hin
  rw [lookup_container_link,hc]
  split_ifs with hsome
  · refine iff_of_false (fun he => hk (Option.some.inj he).symm) fun hin => ?_
    exact hk (hfree c k hsome hin)
  · exact Iff.rfl

lemma Listed.discard (h : m.Listed) {old : Sandbox} (hold : m.sandboxes.lookup key = some old)
    (hlive : old.status≠.terminated) (hm : m'.listedPart=m.listedPart) (prune : Bool) :
    (m'.discard key old prune).Listed := by
  simp only [listedPart,Prod.mk.injEq] at hm
  obtain ⟨hs,hc,he⟩ := hm
  have hon : ∀ e, m'.onExecutor e = m.onExecutor e := fun e => by simp [onExecutor,he]
  have htable : (m'.discard key old prune).sandboxes = m.sandboxes.erase key := by
    rw [sandboxes_discard,hs]
  constructor
  · rw [htable]
    refine h.byExecutor.erase_unlisted (k := old.executorId) (fun v hv => ?_) fun e k => ?_
    · obtain rfl := Option.some.inj (hold.symm.trans hv)
      exact .inr (by rw [Sandbox.liveExecutor,if_neg hlive])
    · rw [mem_onExecutor_discard,hon]
  rw [htable]
  refine h.byContainer.erase (fun c => ?_) fun c k hk => ?_
  · rw [lookup_container_discard,hc]
    split_ifs with hsome
    · simp
    intro hin
    obtain ⟨v,hv,hvc⟩ := (h.byContainer c key).mp hin
    obtain rfl := Option.some.inj (hold.symm.trans hv)
    rw [Sandbox.liveContainer,if_neg hlive] at hvc
    exact hsome hvc
  rw [lookup_container_discard,hc]
  split_ifs with hsome
  · -- the entry of the container is the one of this sandbox
    have hself : m.sandboxByContainer.lookup c = some key :=
      (h.byContainer c key).mpr ⟨old,hold,by rw [Sandbox.liveContainer,if_neg hlive,hsome]⟩
    rw [hself]
    refine iff_of_false (by simp) fun he => hk (Option.some.inj he).symm
  · exact Iff.rfl

end

def awaited (m : SandboxState) (key : SandboxKey) : Option ResourceProfile :=
  (m.sandboxes.lookup key).bind Sandbox.pendingProfile

structure Agrees (m : SandboxState) : Prop where
  describes : m.Describes m.awaited
  listed : m.Listed

/-- Sandboxes sit under their own keys, none is terminated, and a sandbox waits for a container, or
has an executor, only with a container of its own. -/
structure Proper (m : SandboxState) : Prop where
  keyed : ∀ {k sandbox}, m.sandboxes.lookup k = some sandbox → SandboxKey.fromSandbox sandbox = k
  live : ∀ {k sandbox}, m.sandboxes.lookup k = some sandbox → sandbox.status≠.terminated
  waiting : ∀ {k sandbox}, m.sandboxes.lookup k = some sandbox →
    sandbox.status = .pending .waitingForContainer → sandbox.containerId≠none
  placed : ∀ {k sandbox}, m.sandboxes.lookup k = some sandbox → sandbox.containerId=none →
    sandbox.executorId = none

def Holds (m : SandboxState) (id : ContainerId) : Prop :=
  ∃ sandbox∈m.sandboxes.values, sandbox.containerId = some id
  deriving Decidable

/-- What the processors make of a stored sandbox. -/
inductive Transition (m : SandboxState) (old : Sandbox) : Sandbox → Prop
  | retry (reason : SandboxPendingReason) (hpending : old.status.isPending)
      (hcontainer : old.containerId=none) (hreason : reason≠.waitingForContainer) :
      Transition m old {old with status := .pending reason}
  | place (status : SandboxStatus) (container : ContainerId) (executor : ExecutorId)
      (hpending : old.status.isPending) (hcontainer : old.containerId=none)
      (hstatus : status = .pending .waitingForContainer ∨ status=.running)
      (hfree : ¬m.Holds container) :
      Transition m old
        {old with status := status, executorId := some executor, containerId := some container}
  | promote (hpending : old.status.isPending) : Transition m old {old with status := .running}
  | terminate (outcome : Option SandboxOutcome) :
      Transition m old {old with status := .terminated, outcome := outcome}

section
variable {m m' : SandboxState} {key : SandboxKey} {old sandbox : Sandbox}

lemma awaited_store (m : SandboxState) (key : SandboxKey) (sandbox : Sandbox) :
    (m.store key sandbox).awaited = Function.update m.awaited key sandbox.pendingProfile := by
  funext k
  unfold awaited
  change ((m.sandboxes.insert key sandbox).lookup k).bind _ = _
  rw [lookup_insert_if]
  by_cases hk : k=key
  · simp [hk]
  · simp [hk]

lemma awaited_erase (h : m'.sandboxes = m.sandboxes.erase key) :
    m'.awaited = Function.update m.awaited key none := by
  funext k
  unfold awaited
  rw [h,lookup_erase_if]
  by_cases hk : k=key
  · simp [hk]
  · simp [hk]

lemma awaited_of_sandboxes (h : m'.sandboxes=m.sandboxes) : m'.awaited=m.awaited := by
  unfold awaited
  rw [h]

lemma sandboxes_of_listedPart (h : m'.listedPart=m.listedPart) : m'.sandboxes=m.sandboxes := by
  simp only [listedPart,Prod.mk.injEq] at h
  exact h.1

lemma awaited_of_lookup (h : m.sandboxes.lookup key = some sandbox) :
    m.awaited key = sandbox.pendingProfile := by
  simp [awaited,h]

lemma Proper.awaits (h : m.Proper) (hold : m.sandboxes.lookup key = some old)
    (hpending : old.status.isPending) (hcontainer : old.containerId=none) :
    old.pendingProfile = some old.profile := by
  have hwait := h.waiting hold
  unfold Sandbox.pendingProfile Sandbox.awaitsAllocation
  cases hs : old.status with
  | pending reason =>
    have hne : reason≠.waitingForContainer := fun hr => hwait (by rw [hs,hr]) hcontainer
    simp [hne]
  | running
  | terminated
  | snapshotting id => simp [hs,SandboxStatus.isPending] at hpending

lemma Agrees.mem_pending (h : m.Agrees) (hold : m.sandboxes.lookup key = some old) :
    key ∈ m.pendingSandboxes ↔ old.pendingProfile.isSome := by
  rw [h.describes.pending,awaited_of_lookup hold]

lemma Proper.insert (h : m.Proper) (hs : m'.sandboxes = m.sandboxes.insert key sandbox)
    (hkey : SandboxKey.fromSandbox sandbox = key) (hlive : sandbox.status≠.terminated)
    (hwait : sandbox.status = .pending .waitingForContainer → sandbox.containerId≠none)
    (hplaced : sandbox.containerId=none → sandbox.executorId=none) : m'.Proper := by
  constructor <;> rw [hs]
  · exact of_lookup_insert h.keyed hkey
  · exact of_lookup_insert h.live hlive
  · exact of_lookup_insert h.waiting hwait
  · exact of_lookup_insert h.placed hplaced

lemma Proper.of_subset (h : m.Proper)
    (hs : ∀ {k s}, m'.sandboxes.lookup k = some s → m.sandboxes.lookup k = some s) : m'.Proper :=
  ⟨fun hk => h.keyed (hs hk),fun hk => h.live (hs hk),fun hk => h.waiting (hs hk),
    fun hk => h.placed (hs hk)⟩

lemma Describes.settle {f : SandboxKey → Option ResourceProfile} (h : m.Describes f) :
    (if key∈m.pendingSandboxes then m.removePendingSandbox key else m).Describes
      (Function.update f key none) := by
  split_ifs with hin
  · exact h.remove
  have hnone : f key = none := by simpa [h.pending] using hin
  rw [← hnone,Function.update_eq_self]
  exact h

lemma Listed.holds (h : m.Listed) {c : ContainerId} {k : SandboxKey}
    (hk : m.sandboxByContainer.lookup c = some k) : m.Holds c := by
  obtain ⟨sandbox,hs,hc⟩ := (h.byContainer c k).mp hk
  refine ⟨sandbox,(mem_values_iff _ _).mpr ⟨k,hs⟩,?_⟩
  unfold Sandbox.liveContainer at hc
  split_ifs at hc
  exact hc

lemma listedPart_remove_if (c : Prop) [Decidable c] :
    (if c then m.removePendingSandbox key else m).listedPart = m.listedPart := by
  split_ifs
  · exact listedPart_removePendingSandbox m key
  · rfl

lemma applySandbox_retry {reason : SandboxPendingReason} (hs : sandbox.status = .pending reason)
    (hreason : reason≠.waitingForContainer) (hin : key∈m.pendingSandboxes) (hc : sandbox.containerId=none)
    (he : sandbox.executorId=none) : m.applySandbox ⟨key,sandbox⟩ = m.store key sandbox := by
  simp [SandboxState.applySandbox,hs,hreason,hin,link,hc,he,linkContainer,linkExecutor]

lemma applySandbox_settle
    (hs : sandbox.status = .pending .waitingForContainer ∨ sandbox.status=.running)
    (hin : key∈m.pendingSandboxes) : m.applySandbox ⟨key,sandbox⟩ =
      ((m.store key sandbox).removePendingSandbox key).link key sandbox := by
  rcases hs with hs | hs
  · simp [SandboxState.applySandbox,hs,hin]
  · simp [SandboxState.applySandbox,hs,hin]

lemma applySandbox_started (hs : sandbox.status=.running) (hin : key∉m.pendingSandboxes) :
    m.applySandbox ⟨key,sandbox⟩ = m.store key sandbox := by
  simp [SandboxState.applySandbox,hs,hin]

lemma Agrees.of_parts (h : m.Agrees) (hl : m'.listedPart=m.listedPart)
    (hp : m'.pendingPart=m.pendingPart) : m'.Agrees :=
  ⟨(h.describes.of_part hp).congr (awaited_of_sandboxes (sandboxes_of_listedPart hl)).symm,
    h.listed.of_part hl⟩

variable (h : m.Agrees) (hp : m.Proper) (hold : m.sandboxes.lookup key = some old)
include h hp hold

lemma Agrees.apply_kept
    (hprofile : sandbox.pendingProfile=old.pendingProfile) (hlive : sandbox.status≠.terminated)
    (hexec : sandbox.executorId=old.executorId) (hcont : sandbox.containerId=old.containerId) :
    (m.store key sandbox).Agrees := by
  constructor
  · refine (h.describes.of_part (pendingPart_store _ _ _)).congr ?_
    rw [awaited_store,hprofile,← awaited_of_lookup hold,Function.update_eq_self]
  refine h.listed.store_same ?_ ?_
  · simp [hold,Sandbox.liveExecutor,hp.live hold,hlive,hexec]
  · simp [hold,Sandbox.liveContainer,hp.live hold,hlive,hcont]

lemma Agrees.apply_settled
    (hnone : sandbox.pendingProfile=none) (hlive : sandbox.status≠.terminated)
    (hexec : old.executorId=none ∨ old.executorId=sandbox.executorId)
    (hcont : old.containerId=none ∨ old.containerId=sandbox.containerId)
    (hfree : ∀ c, sandbox.containerId = some c → old.containerId = some c ∨ ¬m.Holds c) :
    (((m.store key sandbox).removePendingSandbox key).link key sandbox).Agrees := by
  have htable : (((m.store key sandbox).removePendingSandbox key).link key sandbox).sandboxes =
      (m.store key sandbox).sandboxes := by
    rw [sandboxes_link,sandboxes_of_listedPart (listedPart_removePendingSandbox _ _)]
  constructor
  · have hstored : (m.store key sandbox).Describes m.awaited := h.describes.of_part rfl
    have hremoved : ((m.store key sandbox).removePendingSandbox key).Describes
        (Function.update m.awaited key none) := hstored.remove
    refine (hremoved.of_part (pendingPart_link _ _ _)).congr ?_
    rw [awaited_of_sandboxes htable,awaited_store,hnone]
  refine h.listed.store_link (listedPart_removePendingSandbox _ _) hlive ?_ ?_ ?_
  · intro s hs
    obtain rfl := Option.some.inj (hold.symm.trans hs)
    rw [Sandbox.liveExecutor,if_neg (hp.live hold)]
    exact hexec
  · intro s hs
    obtain rfl := Option.some.inj (hold.symm.trans hs)
    rw [Sandbox.liveContainer,if_neg (hp.live hold)]
    exact hcont
  · intro c k hc hk
    rcases hfree c hc with hsame | hnot
    · have hself : m.sandboxByContainer.lookup c = some key := (h.listed.byContainer c key).mpr
        ⟨old,hold,by rw [Sandbox.liveContainer,if_neg (hp.live hold),hsame]⟩
      exact Option.some.inj (hk.symm.trans hself)
    · exact absurd (h.listed.holds hk) hnot

lemma Agrees.discard
    (hpart : m'.listedPart=m.listedPart) (hdesc : m'.Describes (Function.update m.awaited key none))
    (prune : Bool) : (m'.discard key old prune).Agrees ∧ (m'.discard key old prune).Proper := by
  have htable : (m'.discard key old prune).sandboxes = m.sandboxes.erase key := by
    rw [sandboxes_discard,sandboxes_of_listedPart hpart]
  refine ⟨⟨?_,h.listed.discard hold (hp.live hold) hpart prune⟩,
    hp.of_subset fun hk => (lookup_of_erase (htable ▸ hk)).2⟩
  exact (hdesc.of_part (pendingPart_discard _ _ _ _)).congr (awaited_erase htable).symm

omit hold in
lemma Agrees.apply_terminated (hs : sandbox.status=.terminated) :
    (m.applySandbox ⟨key,sandbox⟩).Agrees ∧ (m.applySandbox ⟨key,sandbox⟩).Proper := by
  have hpart := @listedPart_remove_if m key (key∈m.pendingSandboxes) _
  simp only [applySandbox,hs,decide_eq_true_eq]
  cases hold : m.sandboxes.lookup key with
  | none =>
    have hnone : m.awaited key = none := by simp [awaited,hold]
    have htable := sandboxes_of_listedPart hpart
    refine ⟨⟨?_,h.listed.of_part hpart⟩,hp.of_subset (by rw [htable]; exact id)⟩
    refine h.describes.settle.congr ?_
    rw [awaited_of_sandboxes htable,← hnone,Function.update_eq_self]
  | some old => exact h.discard hp hold hpart h.describes.settle true

lemma Agrees.applySandbox
    (ht : m.Transition old sandbox) :
    (m.applySandbox ⟨key,sandbox⟩).Agrees ∧ (m.applySandbox ⟨key,sandbox⟩).Proper := by
  have hkey := hp.keyed hold
  have htable : ∀ sb, (((m.store key sb).removePendingSandbox key).link key sb).sandboxes =
      m.sandboxes.insert key sb := fun sb =>
    (sandboxes_link _ _ _).trans (sandboxes_of_listedPart (listedPart_removePendingSandbox _ _))
  cases ht with
  | retry reason hpending hcontainer hreason =>
    have hwaits := hp.awaits hold hpending hcontainer
    have hin : key∈m.pendingSandboxes := by simp [h.mem_pending hold,hwaits]
    have hexec := hp.placed hold hcontainer
    rw [applySandbox_retry rfl hreason hin (by exact hcontainer) (by exact hexec)]
    refine ⟨h.apply_kept hp hold ?_ (by simp) rfl rfl,
      hp.insert rfl hkey (by simp) (by simp [hreason]) fun _ => hexec⟩
    rw [hwaits]
    simp [Sandbox.pendingProfile,Sandbox.awaitsAllocation,hreason,Sandbox.profile]
  | place status container executor hpending hcontainer hstatus hfree =>
    have hwaits := hp.awaits hold hpending hcontainer
    have hin : key∈m.pendingSandboxes := by simp [h.mem_pending hold,hwaits]
    have hlive : status≠.terminated := by rcases hstatus with rfl | rfl <;> simp
    rw [applySandbox_settle hstatus hin]
    refine ⟨h.apply_settled hp hold ?_ hlive (.inl (hp.placed hold hcontainer))
      (.inl hcontainer) ?_,hp.insert (htable _) hkey hlive (by simp) (by simp)⟩
    · rcases hstatus with rfl | rfl <;> rfl
    intro c hc
    obtain rfl := Option.some.inj hc
    exact .inr hfree
  | promote hpending =>
    have hplaced := hp.placed hold
    by_cases hin : key∈m.pendingSandboxes
    · rw [applySandbox_settle (.inr rfl) hin]
      exact ⟨h.apply_settled hp hold rfl (by simp) (.inr rfl) (.inr rfl) fun c hc => .inl hc,
        hp.insert (htable _) hkey (by simp) (by simp) hplaced⟩
    rw [applySandbox_started rfl hin]
    have hnone : old.pendingProfile=none := by simpa [h.mem_pending hold] using hin
    exact ⟨h.apply_kept hp hold hnone.symm (by simp) rfl rfl,
      hp.insert rfl hkey (by simp) (by simp) hplaced⟩
  | terminate outcome => exact h.apply_terminated hp rfl

end

section
variable {m : SandboxState}

lemma Agrees.putSnapshot (h : m.Agrees) (e : Sigma fun _ : SnapshotKey => Snapshot) :
    (m.putSnapshot e).Agrees := h.of_parts rfl rfl

lemma Agrees.createSandbox (h : m.Agrees) {sandbox : Sandbox}
    (hnew : m.sandboxes.lookup (.fromSandbox sandbox) = none)
    (hwaits : sandbox.awaitsAllocation=true) (hexec : sandbox.executorId=none)
    (hcont : sandbox.containerId=none) : (m.createSandbox sandbox).Agrees := by
  have hpending : sandbox.status.isPending=true := by
    unfold Sandbox.awaitsAllocation at hwaits
    cases hs : sandbox.status <;> simp [hs,SandboxStatus.isPending] at hwaits ⊢
  unfold SandboxState.createSandbox
  rw [if_pos hpending]
  constructor
  · have hstored : (m.store (.fromSandbox sandbox) sandbox).Describes m.awaited :=
      h.describes.of_part rfl
    have hnone : m.awaited (.fromSandbox sandbox) = none := by simp [awaited,hnew]
    refine (hstored.add hnone).congr ?_
    refine Eq.trans ?_ (awaited_store _ _ _).symm
    simp [Sandbox.pendingProfile,hwaits]
  · have hstored : (m.store (.fromSandbox sandbox) sandbox).Listed :=
      h.listed.store_same (by simp [hnew,Sandbox.liveExecutor,hexec])
        (by simp [hnew,Sandbox.liveContainer,hcont])
    exact hstored.of_part rfl

lemma Proper.createSandbox (h : m.Proper) {sandbox : Sandbox} (hwaits : sandbox.awaitsAllocation=true)
    (hexec : sandbox.executorId=none) : (m.createSandbox sandbox).Proper := by
  have htable : (m.createSandbox sandbox).sandboxes =
      m.sandboxes.insert (.fromSandbox sandbox) sandbox := by
    unfold SandboxState.createSandbox
    split_ifs <;> rfl
  unfold Sandbox.awaitsAllocation at hwaits
  refine h.insert htable rfl ?_ ?_ fun _ => hexec
  · intro hs
    simp [hs] at hwaits
  · intro hs
    simp [hs] at hwaits

lemma Agrees.snapshotSandbox (h : m.Agrees) (hp : m.Proper) {snapshot : Snapshot}
    (hnot : SandboxKey.new snapshot.namespace snapshot.sandboxId.get ∉ m.pendingSandboxes) :
    (m.snapshotSandbox snapshot).Agrees ∧ (m.snapshotSandbox snapshot).Proper := by
  have htable : (m.snapshotSandbox snapshot).sandboxes =
      m.sandboxes.modify (.new snapshot.namespace snapshot.sandboxId.get) fun sandbox =>
        {sandbox with status := .snapshotting snapshot.id, snapshotId := some snapshot.id} := rfl
  have hrest : (m.snapshotSandbox snapshot).listedPart =
      ((m.snapshotSandbox snapshot).sandboxes,m.sandboxByContainer,m.sandboxesByExecutor) := rfl
  generalize hkey : SandboxKey.new snapshot.namespace snapshot.sandboxId.get = key at hnot htable
  cases hold : m.sandboxes.lookup key with
  | none =>
    rw [modify_of_lookup_none hold] at htable
    rw [htable] at hrest
    exact ⟨h.of_parts hrest rfl,hp.of_subset (by rw [htable]; exact id)⟩
  | some old =>
    obtain ⟨new,hnew⟩ : ∃ new : Sandbox, new =
        {old with status := .snapshotting snapshot.id, snapshotId := some snapshot.id} := ⟨_,rfl⟩
    rw [modify_of_lookup hold,← hnew] at htable
    rw [htable] at hrest
    have hnone : old.pendingProfile=none := by simpa [h.mem_pending hold] using hnot
    have hstored : (m.store key new).Agrees :=
      h.apply_kept hp hold (by rw [hnone,hnew]; rfl) (by simp [hnew]) (by rw [hnew]) (by rw [hnew])
    have hkeyed := hp.keyed hold
    have hplaced := hp.placed hold
    refine ⟨hstored.of_parts hrest rfl,hp.insert htable ?_ (by simp [hnew]) (by simp [hnew]) ?_⟩
    · rw [hnew]
      exact hkeyed
    · rw [hnew]
      exact hplaced

lemma Agrees.completeSnapshot (h : m.Agrees) (hp : m.Proper) (id : SnapshotId) (uri : String)
    (sizeBytes : ℕ) : (m.completeSnapshot id uri sizeBytes).Agrees ∧
      (m.completeSnapshot id uri sizeBytes).Proper := by
  unfold SandboxState.completeSnapshot
  cases m.findSnapshot id with
  | none => exact ⟨h,hp⟩
  | some e =>
    dsimp only
    have hput := h.putSnapshot ⟨e.1,{e.2 with
      status := .completed, snapshotUri := some uri, sizeBytes := some sizeBytes}⟩
    generalize hm : m.putSnapshot ⟨e.1,{e.2 with
      status := .completed, snapshotUri := some uri, sizeBytes := some sizeBytes}⟩ = m' at hput
    have hp' : m'.Proper := hp.of_subset (by rw [← hm]; exact fun hk => hk)
    generalize SandboxKey.new e.2.namespace e.2.sandboxId.get = key
    cases hold : m'.sandboxes.lookup key with
    | none => exact ⟨hput,hp'⟩
    | some old =>
      refine hput.discard hp' hold (listedPart_remove_if _) ?_ false
      split_ifs with hs
      · exact hput.describes.remove
      have hnone : m'.awaited key = none := (awaited_of_lookup hold).trans
        (Sandbox.pendingProfile_of_not_pending (by simpa using hs))
      rw [← hnone,Function.update_eq_self]
      exact hput.describes

lemma Agrees.failSnapshot (h : m.Agrees) (hp : m.Proper) {id : SnapshotId} {error : String}
    (hgone : ∀ e, m.findSnapshot id = some e →
      m.sandboxes.lookup (.new e.2.namespace e.2.sandboxId.get) = none) :
    (m.failSnapshot id error).Agrees ∧ (m.failSnapshot id error).Proper := by
  unfold SandboxState.failSnapshot
  cases he : m.findSnapshot id with
  | none => exact ⟨h,hp⟩
  | some e =>
    have htable := modify_of_lookup_none (hgone e he) fun sandbox : Sandbox =>
      {sandbox with status := .terminated}
    refine ⟨h.of_parts ?_ rfl,hp.of_subset ?_⟩
    · exact congrArg (fun d => (d,m.sandboxByContainer,m.sandboxesByExecutor)) htable
    · intro k s hk
      exact (congrArg (fun d : Dict SandboxKey Sandbox => d.lookup k) htable).symm.trans hk

end

section
variable {m : SandboxState}

/-- The rows of the store that are loaded have distinct keys and containers, and are placed as
stored sandboxes are. -/
structure Loadable (rows : List Sandbox) : Prop where
  apart : (rows.filter fun r => r.status≠.terminated).Pairwise fun a b =>
    SandboxKey.fromSandbox a ≠ .fromSandbox b ∧ (a.containerId=none ∨ a.containerId≠b.containerId)
  waiting : ∀ r∈rows, r.status = .pending .waitingForContainer → r.containerId≠none
  placed : ∀ r∈rows, r.containerId=none → r.executorId=none

lemma Agrees.load (h : m.Agrees) (hp : m.Proper) {row : Sandbox}
    (hnew : m.sandboxes.lookup (.fromSandbox row) = none)
    (hfree : ∀ c, row.containerId = some c → ¬m.Holds c)
    (hwait : row.status = .pending .waitingForContainer → row.containerId≠none)
    (hplaced : row.containerId=none → row.executorId=none) (hlive : row.status≠.terminated) :
    (m.load row).Agrees ∧ (m.load row).Proper ∧
      (m.load row).sandboxes = m.sandboxes.insert (.fromSandbox row) row := by
  have hnone : m.awaited (.fromSandbox row) = none := by simp [awaited,hnew]
  simp only [SandboxState.load,if_neg hlive]
  generalize hkey : SandboxKey.fromSandbox row = key at hnew hnone
  -- the pending part is written first
  have hfirst : (if row.awaitsAllocation then m.addPendingSandbox key row.profile else m).Describes
      (Function.update m.awaited key row.pendingProfile) ∧
      (if row.awaitsAllocation then m.addPendingSandbox key row.profile else m).listedPart =
        m.listedPart := by
    unfold Sandbox.pendingProfile
    split_ifs
    · exact ⟨h.describes.add hnone,rfl⟩
    · rw [← hnone,Function.update_eq_self]
      exact ⟨h.describes,rfl⟩
  generalize (if row.awaitsAllocation then m.addPendingSandbox key row.profile else m) = m'
    at hfirst
  obtain ⟨hdesc,hpart⟩ := hfirst
  have htable : ((m'.link key row).store key row).sandboxes = m.sandboxes.insert key row := by
    change (m'.link key row).sandboxes.insert key row = _
    rw [sandboxes_link,sandboxes_of_listedPart hpart]
  refine ⟨⟨?_,?_⟩,hp.insert htable hkey hlive hwait hplaced,htable⟩
  · refine (hdesc.of_part ?_).congr ?_
    · rw [pendingPart_store,pendingPart_link]
    · rw [← awaited_store]
      exact (awaited_of_sandboxes htable).symm
  -- storing and linking commute
  have hstored : (m'.store key row).listedPart = (m.store key row).listedPart := by
    simp only [listedPart,Prod.mk.injEq] at hpart
    simp [listedPart,store,hpart]
  have hlinked := h.listed.store_link hstored hlive (by simp [hnew]) (by simp [hnew])
    fun c k hc hk => absurd (h.listed.holds hk) (hfree c hc)
  refine hlinked.of_part ?_
  unfold link
  cases row.containerId <;> cases row.executorId <;> rfl

lemma agrees_loadAll {rows : List Sandbox} (h : m.Agrees) (hp : m.Proper) (hrows : Loadable rows)
    (hfresh : ∀ r∈rows, r.status≠.terminated → m.sandboxes.lookup (.fromSandbox r) = none ∧
      ∀ c, r.containerId = some c → ¬m.Holds c) :
    (rows.foldl SandboxState.load m).Agrees ∧ (rows.foldl SandboxState.load m).Proper := by
  induction rows generalizing m with
  | nil => exact ⟨h,hp⟩
  | cons row rows ih =>
    have hrest : Loadable rows := by
      refine ⟨?_,fun r hr => hrows.waiting r (mem_cons_of_mem _ hr),
        fun r hr => hrows.placed r (mem_cons_of_mem _ hr)⟩
      have := hrows.apart
      rw [filter_cons] at this
      split_ifs at this
      · exact (pairwise_cons.mp this).2
      · exact this
    rw [foldl_cons]
    by_cases hlive : row.status=.terminated
    · have hsame : m.load row = m := by simp [SandboxState.load,hlive]
      rw [hsame]
      exact ih h hp hrest fun r hr => hfresh r (mem_cons_of_mem _ hr)
    obtain ⟨hnew,hfree⟩ := hfresh row mem_cons_self hlive
    obtain ⟨h',hp',htable⟩ := h.load hp hnew hfree (hrows.waiting row mem_cons_self)
      (hrows.placed row mem_cons_self) hlive
    have hapart := hrows.apart
    rw [filter_cons,if_pos (by simpa using hlive)] at hapart
    refine ih h' hp' hrest fun r hr hr' => ?_
    obtain ⟨hkey,hcont⟩ := (pairwise_cons.mp hapart).1 r
      (mem_filter.mpr ⟨hr,by simpa using hr'⟩)
    obtain ⟨hnew',hfree'⟩ := hfresh r (mem_cons_of_mem _ hr) hr'
    refine ⟨?_,fun c hc => ?_⟩
    · rw [htable,lookup_insert_if,if_neg (Ne.symm hkey)]
      exact hnew'
    rintro ⟨s,hs,hsc⟩
    obtain ⟨k,hk⟩ := (mem_values_iff _ _).mp hs
    rw [htable] at hk
    rcases lookup_insert_cases hk with ⟨-,rfl⟩ | ⟨-,hk⟩
    · rcases hcont with hnone | hne
      · simp [hsc] at hnone
      · exact hne (hsc.trans hc.symm)
    · exact hfree' c hc ⟨s,(mem_values_iff _ _).mpr ⟨k,hk⟩,hsc⟩

lemma agrees_empty : ({} : SandboxState).Agrees ∧ ({} : SandboxState).Proper := by
  refine ⟨⟨⟨?_,?_,?_,fun _ => rfl⟩,?_,?_⟩,?_,?_,?_,?_⟩
  · intro k
    simp [awaited]
  · intro p k
    simp [awaited]
  · intro k
    rfl
  · intro e k
    simp [onExecutor]
  · intro c k
    simp
  all_goals
    intro k s hk
    cases hk

lemma agrees_new {rows : List Sandbox} (hrows : Loadable rows) (snapshots : List Snapshot) :
    (SandboxState.new rows snapshots).Agrees ∧ (SandboxState.new rows snapshots).Proper := by
  have hloaded := agrees_loadAll agrees_empty.1 agrees_empty.2 hrows fun r _ _ =>
    ⟨rfl,fun c _ hc => by obtain ⟨s,hs,-⟩ := hc; cases hs⟩
  exact @Trace.invariant _ _ _ (fun m : SandboxState => m.Agrees ∧ m.Proper)
    (fun _ hm => ⟨hm.1.putSnapshot _,hm.2.of_subset fun hk => hk⟩) _ hloaded snapshots

end
end Indexify.SandboxState
