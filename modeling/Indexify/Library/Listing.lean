import Indexify.Library.Dict

/-! Listings of a table: a relation between keys and ids that holds exactly between the key of a
value and the id the value is stored under. Ids are listed and unlisted one pair at a time, so a
listing is only right when the pair that is taken out is the one that was put in. -/
namespace Listing
variable {K A V : Type} [DecidableEq A]

/-- Every entry of the table is listed under the key of its value, and entries without a key
nowhere. -/
def Lists (R : K → A → Prop) (table : Dict A V) (key : V → Option K) : Prop :=
  ∀ k a, R k a ↔ ∃ v, table.lookup a = some v ∧ key v = some k

variable {R R' : K → A → Prop} {table : Dict A V} {key : V → Option K} {a : A} {v : V}

lemma Lists.insert (h : Lists R table key) (hself : ∀ k, R' k a ↔ key v = some k)
    (hother : ∀ k b, b≠a → (R' k b ↔ R k b)) : Lists R' (table.insert a v) key := by
  intro k b
  rw [Dict.lookup_insert_if]
  by_cases hb : b=a
  · subst hb
    rw [if_pos rfl,hself k]
    simp
  · rw [if_neg hb,hother k b hb]
    exact h k b

lemma Lists.insert_iff (h : Lists R table key) :
    Lists R (table.insert a v) key ↔ (table.lookup a).bind key = key v := by
  have hold : ∀ k, R k a ↔ (table.lookup a).bind key = some k := fun k => by
    rw [h k a,Option.bind_eq_some_iff]
  constructor
  · intro hnew
    refine Option.ext fun k => ?_
    rw [← hold k,hnew k a,AList.lookup_insert]
    simp
  · intro hkey
    refine h.insert (fun k => ?_) fun _ _ _ => Iff.rfl
    rw [hold k,hkey]

lemma Lists.erase (h : Lists R table key) (hself : ∀ k, ¬R' k a)
    (hother : ∀ k b, b≠a → (R' k b ↔ R k b)) : Lists R' (table.erase a) key := by
  intro k b
  rw [Dict.lookup_erase_if]
  by_cases hb : b=a
  · subst hb
    simp [hself k]
  · rw [if_neg hb,hother k b hb]
    exact h k b

section
variable {k : Option K} (ho : ∀ v, table.lookup a = some v → key v = none ∨ key v = k)

include ho in
lemma Lists.eq_of (h : Lists R table key) {k' : K} (ha : R k' a) : k = some k' := by
  obtain ⟨w,hw,hkw⟩ := (h k' a).mp ha
  rcases ho w hw with hn | hs
  · cases hn.symm.trans hkw
  · exact hs.symm.trans hkw

include ho in
lemma Lists.insert_moved (h : Lists R table key)
    (hR : ∀ k' b, R' k' b ↔ R k' b ∧ ¬(b=a ∧ k = some k') ∨ b=a ∧ key v = some k') :
    Lists R' (table.insert a v) key := by
  refine h.insert (fun k' => ?_) fun k' b hb => ?_
  · rw [hR]
    constructor
    · rintro (⟨ha,hn⟩ | ⟨-,hk⟩)
      · exact absurd ⟨rfl,h.eq_of ho ha⟩ hn
      · exact hk
    · exact fun hk => Or.inr ⟨rfl,hk⟩
  · rw [hR]
    simp [hb]

include ho in
lemma Lists.erase_unlisted (h : Lists R table key)
    (hR : ∀ k' b, R' k' b ↔ R k' b ∧ ¬(b=a ∧ k = some k')) : Lists R' (table.erase a) key := by
  refine h.erase (fun k' hk => ?_) fun k' b hb => ?_
  · obtain ⟨ha,hn⟩ := (hR k' a).mp hk
    exact hn ⟨rfl,h.eq_of ho ha⟩
  · rw [hR]
    simp [hb]

end

lemma Lists.unlist_all {T : Type} {table' : Dict A V} (h : Lists R table key) {rs : List T}
    {rkey : T → Option K} {rid : T → A}
    (hR : ∀ k a, R' k a ↔ R k a ∧ ∀ r∈rs, ¬(a = rid r ∧ rkey r = some k))
    (hout : ∀ a, (∀ r∈rs, rid r ≠ a) → table'.lookup a = table.lookup a)
    (hin : ∀ r∈rs, ∀ v, table'.lookup (rid r) = some v → key v = none)
    (hkey : ∀ r∈rs, ∀ v, table.lookup (rid r) = some v → key v = none ∨ key v = rkey r) :
    Lists R' table' key := by
  intro k a
  rw [hR]
  by_cases hr : ∃ r∈rs, rid r = a
  · obtain ⟨r,hr,rfl⟩ := hr
    constructor
    · rintro ⟨ha,hn⟩
      exact absurd ⟨rfl,h.eq_of (hkey r hr) ha⟩ (hn r hr)
    · rintro ⟨v,hv,hk⟩
      cases (hin r hr v hv).symm.trans hk
  · have hne : ∀ r∈rs, rid r ≠ a := fun r hr' he => hr ⟨r,hr',he⟩
    rw [hout a hne,← h k a]
    constructor
    · exact And.left
    · exact fun ha => ⟨ha,fun r hr' he => hne r hr' he.1.symm⟩

end Listing
