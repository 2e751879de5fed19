import Indexify.Processor.IdleContainers

/-! Reaping keeps the floor of every pool, however many of its containers are due at once. -/
namespace Indexify.ContainerScheduler
variable {key : ContainerPoolKey} {s s' s'' : ContainerScheduler}

/-- The pool stays as it is defined and does not fall below its floor. -/
def KeepsFloor (key : ContainerPoolKey) (s s' : ContainerScheduler) : Prop :=
  s'.getPool key = s.getPool key ∧
    min (s.poolFloor key) (s.poolContainerCount key) ≤ s'.poolContainerCount key

lemma KeepsFloor.refl (s : ContainerScheduler) : KeepsFloor key s s :=
  ⟨rfl,Nat.min_le_right _ _⟩

lemma KeepsFloor.trans (h : KeepsFloor key s s') (h' : KeepsFloor key s' s'') :
    KeepsFloor key s s'' := by
  have hfloor : s'.poolFloor key = s.poolFloor key := by rw [poolFloor,poolFloor,h.1]
  obtain ⟨hpool,hcount⟩ := h
  obtain ⟨hpool',hcount'⟩ := h'
  rw [hfloor] at hcount'
  exact ⟨hpool'.trans hpool,by omega⟩

lemma keepsFloor_reapContainer (r : Reaping) (id : ContainerId) :
    KeepsFloor key r.scheduler (reapContainer r id).scheduler := by
  unfold reapContainer
  cases hfc : r.scheduler.functionContainers.lookup id with
  | none => exact .refl _
  | some fc =>
    dsimp only
    split_ifs with hterm hremovable hfloor
    · exact .refl _
    · exact .refl _
    · exact .refl _
    have hhosts : HostFree fun s : ContainerScheduler => (s.containersByPool,s.getPool key) :=
      fun _ _ _ _ => rfl
    have hcontainers : ContainerFree fun s : ContainerScheduler => s.getPool key :=
      fun _ _ _ _ _ _ _ _ _ => rfl
    obtain ⟨hpools,hpool⟩ := Prod.mk.inj (hhosts.freeReaped (r.scheduler.terminateContainer id).1
      fc.executorId fc.functionContainer)
    have hremoved : (r.scheduler.terminateContainer id).1.containersByPool =
        r.scheduler.containersByPool.removeAt fc.functionContainer.poolKey id := by
      simp only [terminateContainer,hfc]
      cases fc.idleSince <;> rfl
    obtain ⟨hcard,hother⟩ := r.scheduler.containersByPool.card_removeAt
      fc.functionContainer.poolKey id key
    rw [← hremoved,← hpools] at hcard hother
    refine ⟨hpool.trans (hcontainers.terminateContainer _ _),?_⟩
    change min _ _ ≤ poolContainerCount (freeReaped _ _ _) key
    by_cases hkey : fc.functionContainer.poolKey = some key
    · have habove : r.scheduler.poolFloor key<r.scheduler.poolContainerCount key := by
        simpa [aboveFloor,hkey] using hfloor
      unfold poolContainerCount at habove ⊢
      omega
    · rw [poolContainerCount,poolContainerCount,hother hkey]
      exact Nat.min_le_right _ _

/-- Reaping leaves every pool the larger of its minimum and its buffer, as far as it was there, also if
many of its containers are due. It ends containers that are due and can be removed, and no others. -/
theorem reaping_keeps_floor (s : ContainerScheduler) (minIdleAge now : ℕ) :
    (∀ key, min (s.poolFloor key) (s.poolContainerCount key) ≤
      (s.reapIdleContainers minIdleAge now).1.poolContainerCount key) ∧
    ∀ id, (s.reapIdleContainers minIdleAge now).1.functionContainers.lookup id =
        s.functionContainers.lookup id ∨
      id ∈ s.dueIdle minIdleAge now ∧
        ∃ fc, s.functionContainers.lookup id = some fc ∧ fc.canBeRemoved=true := by
  constructor
  · intro key
    have hrun := @Trace.invariant _ _ reapContainer (fun r => KeepsFloor key s r.scheduler)
      (fun {r} id h => h.trans (keepsFloor_reapContainer r id)) ⟨{s with reapedContainers := ∅},{},[]⟩
      (KeepsFloor.refl s) (s.dueIdle minIdleAge now)
    exact hrun.2
  · exact lookup_foldl_reapContainer ⟨{s with reapedContainers := ∅},{},[]⟩ _

end Indexify.ContainerScheduler
