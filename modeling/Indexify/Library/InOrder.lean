import Mathlib.Order.Lattice

/-! Handing on keyed items in order. Items are stored under keys, a queue of them is handed on
from the front, and `seen` are the keys handed on so far; an acknowledged key stands for every
smaller one. -/
namespace InOrder
open List
variable {κ : Type*} [LinearOrder κ]

/-- Each key of the queue was seen, or is newer than everything seen while every older stored
key was seen; a key counts as seen for those behind it. -/
def Ready (stored : List κ) : List κ → List κ → Prop
  | _,[] => True
  | seen,k::ks =>
    (k∈seen ∨ (∀ k'∈seen, k'<k) ∧ ∀ p∈stored, p<k → p∈seen) ∧ Ready stored (k::seen) ks

/-- No stored key below a seen one is unseen. -/
def Covered (stored seen : List κ) : Prop := ∀ p∈stored, ∀ k∈seen, p ≤ k → p∈seen

variable {stored stored' seen seen' ks ks' : List κ} {k : κ}

instance Ready.decidable : ∀ seen ks : List κ, Decidable (Ready stored seen ks)
  | _,[] => isTrue trivial
  | seen,k::ks =>
    haveI := Ready.decidable (k::seen) ks
    inferInstanceAs (Decidable ((k∈seen ∨ (∀ k'∈seen, k'<k) ∧ ∀ p∈stored, p<k → p∈seen) ∧
      Ready stored (k::seen) ks))

lemma Ready.congr (hseen : ∀ k, k∈seen ↔ k∈seen') (h : Ready stored seen ks) : Ready stored seen' ks := by
  induction ks generalizing seen seen' with
  | nil => trivial
  | cons k ks ih =>
    refine ⟨?_,ih (by simp [hseen]) h.2⟩
    simpa only [hseen] using h.1

lemma ready_append : Ready stored seen (ks++ks') ↔
    Ready stored seen ks ∧ Ready stored (ks++seen) ks' := by
  induction ks generalizing seen with
  | nil => simp [Ready]
  | cons k ks ih =>
    have hperm : Ready stored (ks++k::seen) ks' ↔ Ready stored (k::ks++seen) ks' :=
      ⟨Ready.congr (by simp [or_left_comm]),Ready.congr (by simp [or_left_comm])⟩
    simp only [cons_append,Ready,ih,and_assoc]
    rw [hperm]
    rfl

lemma Ready.mem_of_le (h : Ready stored seen ks) (hk : k∈seen) {q : κ} (hq : q∈ks)
    (hle : q ≤ k) : q∈seen := by
  induction ks generalizing seen with
  | nil => cases hq
  | cons k' ks ih =>
    have hhead : k' ≤ k → k'∈seen := fun hle' =>
      h.1.resolve_right fun hnew => absurd (hnew.1 k hk) (not_lt.mpr hle')
    rcases mem_cons.mp hq with rfl | hq
    · exact hhead hle
    rcases mem_cons.mp (ih h.2 (mem_cons_of_mem _ hk) hq) with rfl | hmem
    · exact hhead hle
    · exact hmem

lemma Covered.hand_on (hcov : Covered stored seen) (h : Ready stored seen ks) :
    Covered stored (ks++seen) := by
  induction ks generalizing seen with
  | nil => exact hcov
  | cons k ks ih =>
    have hnext : Covered stored (k::seen) := by
      intro p hp k' hk' hle
      rcases mem_cons.mp hk' with rfl | hk'
      · rcases hle.eq_or_lt with rfl | hlt
        · exact mem_cons_self
        refine mem_cons_of_mem _ ?_
        rcases h.1 with hold | hnew
        · exact hcov p hp _ hold hle
        · exact hnew.2 p hp hlt
      · exact mem_cons_of_mem _ (hcov p hp k' hk' hle)
    have hall := ih hnext h.2
    intro p hp k' hk' hle
    have := hall p hp k' (by simpa [or_left_comm] using hk') hle
    simpa [or_left_comm] using this

lemma Ready.of_subset (hsub : ∀ k∈ks, k∈seen) : Ready stored seen ks := by
  induction ks generalizing seen with
  | nil => trivial
  | cons k ks ih =>
    exact ⟨.inl (hsub k mem_cons_self),
      ih fun k' hk' => mem_cons_of_mem _ (hsub k' (mem_cons_of_mem _ hk'))⟩

lemma Ready.hand_on (h : Ready stored seen (ks++ks')) : Ready stored (ks++seen) (ks++ks') := by
  refine ready_append.mpr ⟨Ready.of_subset fun k hk => mem_append_left _ hk,?_⟩
  exact (ready_append.mp h).2.congr (by simp)

lemma Ready.filter {f : κ → Bool} (h : Ready stored seen ks)
    (hf : ∀ k∈ks, f k = false → k∈seen) : Ready stored seen (ks.filter f) := by
  induction ks generalizing seen with
  | nil => trivial
  | cons k ks ih =>
    have htail : Ready stored (k::seen) (ks.filter f) :=
      ih h.2 fun k' hk' hfk' => mem_cons_of_mem _ (hf k' (mem_cons_of_mem _ hk') hfk')
    cases hfk : f k with
    | true => rw [filter_cons_of_pos hfk]; exact ⟨h.1,htail⟩
    | false =>
      rw [filter_cons_of_neg (by simp [hfk])]
      have hk := hf k mem_cons_self hfk
      exact htail.congr fun k' => by
        rw [mem_cons,or_iff_right_of_imp]
        rintro rfl
        exact hk

lemma Ready.restore (h : Ready stored seen ks)
    (hnew : ∀ p∈stored', p∈stored ∨ ∀ k∈ks, k ≤ p) : Ready stored' seen ks := by
  induction ks generalizing seen with
  | nil => trivial
  | cons k ks ih =>
    refine ⟨h.1.imp_right fun hold => ⟨hold.1,fun p hp hlt => ?_⟩,ih h.2 fun p hp => ?_⟩
    · rcases hnew p hp with hp | hle
      · exact hold.2 p hp hlt
      · exact absurd hlt (not_lt.mpr (hle k mem_cons_self))
    · exact (hnew p hp).imp_right fun hle k' hk' => hle k' (mem_cons_of_mem _ hk')

lemma Covered.restore (h : Covered stored seen)
    (hnew : ∀ p∈stored', p∈stored ∨ ∀ k∈seen, k ≤ p) : Covered stored' seen := by
  intro p hp k hk hle
  rcases hnew p hp with hp | hge
  · exact h p hp k hk hle
  · exact le_antisymm hle (hge k hk) ▸ hk

end InOrder
