import Mathlib.Data.List.Infix

/-! Words joined by a separator. The first word of a joined word is known when it does not contain
the separator. -/
namespace Separator
open List
variable {α : Type*} {sep : α} {a b x y : List α}

lemma append_cons_prefix_iff (ha : sep∉a) (hb : sep∉b) : a++sep::x <+: b++sep::y ↔ a=b ∧ x <+: y := by
  induction a generalizing b with
  | nil =>
    cases b with
    | nil => simp
    | cons c b =>
      have hc : sep≠c := fun he => hb (he ▸ mem_cons_self)
      simp [cons_prefix_cons,hc]
  | cons d a ih =>
    obtain ⟨hd,ha'⟩ := not_or.mp (mem_cons.not.mp ha)
    cases b with
    | nil => simp [cons_prefix_cons,Ne.symm hd]
    | cons c b =>
      have hb' : sep∉b := fun hm => hb (mem_cons_of_mem _ hm)
      simp [cons_prefix_cons,ih ha' hb',and_assoc]

lemma append_cons_inj_iff (ha : sep∉a) (hb : sep∉b) : a++sep::x = b++sep::y ↔ a=b ∧ x=y := by
  constructor
  · intro h
    have hp : a++sep::x <+: b++sep::y := by rw [h]
    obtain ⟨rfl,-⟩ := (append_cons_prefix_iff ha hb).mp hp
    exact ⟨rfl,by simpa using h⟩
  · rintro ⟨rfl,rfl⟩
    rfl

lemma prefix_of_prefix_append (hb : sep∉b) (h : x++[sep] <+: a++b) : x++[sep] <+: a := by
  rcases List.prefix_or_prefix_of_prefix h (prefix_append a b) with hp | ⟨t,ht⟩
  · exact hp
  rcases eq_nil_or_concat t with rfl | ⟨t',c,rfl⟩
  · exact ⟨[],by simpa using ht.symm⟩
  rw [concat_eq_append,← append_assoc] at ht
  obtain ⟨-,hc⟩ := append_inj' ht rfl
  obtain rfl : c=sep := by simpa using hc
  obtain ⟨u,hu⟩ := h
  rw [← ht,append_assoc,append_assoc] at hu
  have hmem : c∈b := by
    rw [← append_cancel_left hu]
    simp
  exact absurd hmem hb

def cut [DecidableEq α] (sep : α) : List α → Option (List α × List α)
  | [] => none
  | c::cs => if c=sep then some ([],cs) else (cut sep cs).map fun p => (c::p.1,p.2)

end Separator
