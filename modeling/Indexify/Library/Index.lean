import Indexify.Library.Listing

/-! Indexes from keys to sets of ids. The set under a key is never empty: a key goes with its
last id. `Groups` says that an index lists the entries of a table by a key computed from each
value. -/

structure Index (K A : Type) [DecidableEq K] where
  sets : Dict K (Finset A)
  nonempty : ∀ {k s}, sets.lookup k = some s → s ≠ ∅

namespace Index
open Dict
variable {K A : Type} [DecidableEq K] [DecidableEq A] (x : Index K A)

instance : EmptyCollection (Index K A) := ⟨∅,by rintro k s h; cases h⟩

variable (x : Index K A)

def keys : List K := x.sets.keys

def ids (k : K) : Finset A := (x.sets.lookup k).getD ∅

/-- As `entry(k).or_default().insert(a)`. -/
def add (k : K) (a : A) : Index K A where
  sets := x.sets.insert k (insert a (x.ids k))
  nonempty {k' s} h := by
    rw [lookup_insert_if] at h
    split_ifs at h
    · cases h
      exact Finset.insert_ne_empty _ _
    · exact x.nonempty h

/-- The id leaves the set under the key, and the key goes with the last id. -/
def remove (k : K) (a : A) : Index K A where
  sets := if (x.ids k).erase a = ∅ then x.sets.erase k else x.sets.insert k ((x.ids k).erase a)
  nonempty {k' s} h := by
    split_ifs at h with he
    · rw [lookup_erase_if] at h
      split_ifs at h
      exact x.nonempty h
    rw [lookup_insert_if] at h
    split_ifs at h
    · cases h
      exact he
    · exact x.nonempty h

def addAt : Option K → A → Index K A
  | some k,a => x.add k a
  | none,_ => x

def removeAt : Option K → A → Index K A
  | some k,a => x.remove k a
  | none,_ => x

/-- The key goes with all its ids. -/
def drop (k : K) : Index K A where
  sets := x.sets.erase k
  nonempty {k' s} h := by
    rw [lookup_erase_if] at h
    split_ifs at h
    exact x.nonempty h

omit [DecidableEq A] in
@[simp] lemma ids_empty (k : K) : (∅ : Index K A).ids k = ∅ := rfl

@[simp] lemma mem_add (k k' : K) (a b : A) : b ∈ (x.add k a).ids k' ↔ b ∈ x.ids k' ∨ b=a ∧ k'=k := by
  unfold add
  rw [ids,lookup_insert_if]
  split_ifs with hk
  · simp [hk,or_comm]
  · simp [ids,hk]

@[simp] lemma mem_remove (k k' : K) (a b : A) :
    b ∈ (x.remove k a).ids k' ↔ b ∈ x.ids k' ∧ ¬(b=a ∧ k'=k) := by
  change b ∈ ((if (x.ids k).erase a = ∅ then x.sets.erase k
    else x.sets.insert k ((x.ids k).erase a)).lookup k').getD ∅ ↔ _
  by_cases he : (x.ids k).erase a = ∅
  · rw [if_pos he,lookup_erase_if]
    split_ifs with hk
    · have hb : b ∉ (x.ids k).erase a := by simp [he]
      simp only [Finset.mem_erase] at hb
      simp [hk]
      tauto
    · simp [ids,hk]
  · rw [if_neg he,lookup_insert_if]
    split_ifs with hk
    · simp [hk,and_comm]
    · simp [ids,hk]

lemma mem_foldl_add (ks : List K) (x : Index K A) (k' : K) (a b : A) :
    b ∈ (ks.foldl (fun x k => x.add k a) x).ids k' ↔ b ∈ x.ids k' ∨ b=a ∧ k'∈ks := by
  induction ks generalizing x with
  | nil => simp
  | cons k ks ih =>
    rw [List.foldl_cons,ih,mem_add,List.mem_cons]
    tauto

lemma mem_foldl_remove (ks : List K) (x : Index K A) (k' : K) (a b : A) :
    b ∈ (ks.foldl (fun x k => x.remove k a) x).ids k' ↔ b ∈ x.ids k' ∧ ¬(b=a ∧ k'∈ks) := by
  induction ks generalizing x with
  | nil => simp
  | cons k ks ih =>
    rw [List.foldl_cons,ih,mem_remove,List.mem_cons]
    tauto

@[simp] lemma mem_addAt (k : Option K) (k' : K) (a b : A) :
    b ∈ (x.addAt k a).ids k' ↔ b ∈ x.ids k' ∨ b=a ∧ k = some k' := by
  cases k with
  | none => simp [addAt]
  | some k => simp [addAt,eq_comm]

@[simp] lemma mem_removeAt (k : Option K) (k' : K) (a b : A) :
    b ∈ (x.removeAt k a).ids k' ↔ b ∈ x.ids k' ∧ ¬(b=a ∧ k = some k') := by
  cases k with
  | none => simp [removeAt]
  | some k => simp [removeAt,eq_comm]

lemma card_removeAt (k : Option K) (a : A) (k' : K) :
    (x.ids k').card ≤ ((x.removeAt k a).ids k').card+1 ∧
      (k ≠ some k' → (x.removeAt k a).ids k' = x.ids k') := by
  constructor
  · have hsub : (x.ids k').erase a ⊆ (x.removeAt k a).ids k' := by
      intro b hb
      simp only [Finset.mem_erase] at hb
      simp [hb.1,hb.2]
    have herase := Finset.pred_card_le_card_erase (s := x.ids k') (a := a)
    have hcard := Finset.card_le_card hsub
    omega
  · intro hk
    ext b
    simp [hk]

omit [DecidableEq A] in
@[simp] lemma mem_drop (k k' : K) (b : A) : b ∈ (x.drop k).ids k' ↔ b ∈ x.ids k' ∧ k'≠k := by
  unfold drop
  rw [ids,lookup_erase_if]
  split_ifs with hk
  · simp [hk]
  · simp [ids,hk]

omit [DecidableEq A] in
lemma mem_keys_of_mem {x : Index K A} {k : K} {a : A} (h : a ∈ x.ids k) : k∈x.keys := by
  cases hs : x.sets.lookup k with
  | none => simp [ids,hs] at h
  | some s =>
    have : (x.sets.lookup k).isSome := by rw [hs]; rfl
    exact AList.mem_keys.mp (AList.lookup_isSome.mp this)

/-- The index lists every entry of the table under the key of its value, and entries without a
key nowhere. -/
def Groups {V : Type} (x : Index K A) (table : Dict A V) (key : V → Option K) : Prop :=
  ∀ k a, a ∈ x.ids k ↔ ∃ v, table.lookup a = some v ∧ key v = some k

section
variable {V : Type} {x y : Index K A} {table : Dict A V} {key : V → Option K} {k : K} {a : A} {v : V}

lemma groups_empty : (∅ : Index K A).Groups (∅ : Dict A V) key := by
  intro k a
  simp [AList.lookup_empty]

variable (h : x.Groups table key)
include h

lemma Groups.mem_iff (hv : table.lookup a = some v) (k : K) : a ∈ x.ids k ↔ key v = some k := by
  rw [h k a]
  simp [hv]

lemma Groups.insert (hself : ∀ k, a ∈ y.ids k ↔ key v = some k)
    (hother : ∀ k b, b≠a → (b ∈ y.ids k ↔ b ∈ x.ids k)) :
    y.Groups (table.insert a v) key := Listing.Lists.insert h hself hother

lemma Groups.insert_same (hv : (table.lookup a).bind key = key v) :
    x.Groups (table.insert a v) key := (Listing.Lists.insert_iff h).mpr hv

/-- The id is under the key, or under no key at all. -/
def OnlyUnder (table : Dict A V) (key : V → Option K) (a : A) (k : Option K) : Prop :=
  ∀ v, table.lookup a = some v → key v = none ∨ key v = k

lemma Groups.insert_addAt {k : Option K} (ho : OnlyUnder table key a k)
    (hv : key v = k) : (x.addAt k a).Groups (table.insert a v) key := by
  refine h.insert (fun k' => ?_) fun k' b hb => by simp [hb]
  rw [mem_addAt,hv]
  constructor
  · rintro (ha | ⟨-,hk⟩)
    · exact Listing.Lists.eq_of ho h ha
    · exact hk
  · exact fun hk => Or.inr ⟨rfl,hk⟩

lemma Groups.insert_removeAt {k : Option K} (ho : OnlyUnder table key a k) (hv : key v = none) :
    (x.removeAt k a).Groups (table.insert a v) key :=
  Listing.Lists.insert_moved ho h fun k' b => by simp [hv]

lemma Groups.erase_removeAt {k : Option K}
    (ho : OnlyUnder table key a k) : (x.removeAt k a).Groups (table.erase a) key :=
  Listing.Lists.erase_unlisted ho h fun k' b => mem_removeAt x k k' a b

omit h

def removeAll {R : Type} (x : Index K A) (rs : List R) (rkey : R → Option K) (rid : R → A) :
    Index K A := rs.foldl (fun x r => x.removeAt (rkey r) (rid r)) x

lemma mem_removeAll {R : Type} (x : Index K A) (rs : List R) (rkey : R → Option K) (rid : R → A)
    (k : K) (a : A) : a ∈ (x.removeAll rs rkey rid).ids k ↔
      a ∈ x.ids k ∧ ∀ r∈rs, ¬(a = rid r ∧ rkey r = some k) := by
  induction rs generalizing x with
  | nil => simp [removeAll]
  | cons r rs ih =>
    change a ∈ ((x.removeAt (rkey r) (rid r)).removeAll rs rkey rid).ids k ↔ _
    rw [ih,mem_removeAt]
    simp only [List.forall_mem_cons]
    tauto

lemma Groups.removeAll {R : Type} {table' : Dict A V} (h : x.Groups table key) {rs : List R}
    {rkey : R → Option K} {rid : R → A}
    (hout : ∀ a, (∀ r∈rs, rid r ≠ a) → table'.lookup a = table.lookup a)
    (hin : ∀ r∈rs, ∀ v, table'.lookup (rid r) = some v → key v = none)
    (hkey : ∀ r∈rs, OnlyUnder table key (rid r) (rkey r)) : (x.removeAll rs rkey rid).Groups table' key :=
  Listing.Lists.unlist_all h (mem_removeAll x rs rkey rid) hout hin hkey

lemma Groups.card (h : x.Groups table key) {k : K} {p : V → Bool}
    (hp : ∀ v, key v = some k ↔ p v = true) : (x.ids k).card = table.values.countP p := by
  refine card_eq_countP fun a => ?_
  simp only [← hp]
  exact h k a

end
end Index
