import Mathlib.Algebra.Order.Ring.Nat
import Mathlib.Data.Finmap

/-! Finite maps with iteration. A dictionary is an association list without duplicate keys:
lookups see a partial function, loops over a map see its entry list, and no result below
depends on the order of that list. -/

abbrev Dict (K V : Type) := AList (fun _ : K => V)

namespace Dict
open List AList
variable {K V : Type} [DecidableEq K] {m : Dict K V} {k : K} {v : V} {A : Type}

def values (m : Dict K V) : List V := m.entries.map Sigma.snd

/-- One conditional equation instead of the two library lemmas for equal and distinct keys. -/
lemma lookup_insert_if (m : Dict K V) (k k' : K) (v : V) :
    (m.insert k v).lookup k' = if k'=k then some v else m.lookup k' := by
  split_ifs with h
  · subst h; exact lookup_insert m
  · exact lookup_insert_ne h

lemma lookup_erase_if (m : Dict K V) (k k' : K) :
    (m.erase k).lookup k' = if k'=k then none else m.lookup k' := by
  split_ifs with h
  · subst h; exact lookup_erase k' m
  · exact lookup_erase_ne h

lemma lookup_insert_cases {k' : K} {v' : V} (h : (m.insert k v).lookup k' = some v') :
    k' = k ∧ v'=v ∨ k'≠k ∧ m.lookup k' = some v' := by
  rw [lookup_insert_if] at h
  split_ifs at h with hk
  · exact .inl ⟨hk,(Option.some.inj h).symm⟩
  · exact .inr ⟨hk,h⟩

lemma of_lookup_insert {P : K → V → Prop} (h : ∀ {k v}, m.lookup k = some v → P k v) (hv : P k v)
    {k' : K} {v' : V} (hv' : (m.insert k v).lookup k' = some v') : P k' v' := by
  rcases lookup_insert_cases hv' with ⟨rfl,rfl⟩ | ⟨-,hv'⟩
  · exact hv
  · exact h hv'

lemma lookup_of_erase {k' : K} (h : (m.erase k).lookup k' = some v) : k' ≠ k ∧ m.lookup k' = some v := by
  rw [lookup_erase_if] at h
  split_ifs at h with hk
  exact ⟨hk,h⟩

lemma mem_entries_iff (m : Dict K V) (k : K) (v : V) :
    (⟨k,v⟩ : Sigma fun _ : K => V) ∈ m.entries ↔ m.lookup k = some v := by
  rw [← mem_lookup_iff]
  rfl

lemma mem_of_lookup (h : m.lookup k = some v) : k∈m := lookup_isSome.mp (by rw [h]; rfl)

lemma exists_of_mem (h : k∈m) : ∃ v, m.lookup k = some v :=
  Option.isSome_iff_exists.mp (lookup_isSome.mpr h)

lemma lookup_union (m m' : Dict K V) (k : K) :
    (m ∪ m').lookup k = (m.lookup k).or (m'.lookup k) := by
  cases hk : m.lookup k with
  | none => exact lookup_union_right (lookup_eq_none.mp hk)
  | some v => exact (lookup_union_left (mem_of_lookup hk)).trans hk

lemma mem_values_iff (m : Dict K V) (v : V) : v∈m.values ↔ ∃ k, m.lookup k = some v := by
  simp only [values,mem_map]
  constructor
  · rintro ⟨⟨k,w⟩,hm,rfl⟩
    exact ⟨k,(mem_entries_iff m k w).mp hm⟩
  · rintro ⟨k,hk⟩
    exact ⟨⟨k,v⟩,(mem_entries_iff m k v).mpr hk,rfl⟩

lemma map_key_values {key : V → K} (h : ∀ {k v}, m.lookup k = some v → key v = k) :
    m.values.map key = m.keys := by
  rw [values,map_map]
  apply map_congr_left
  intro e he
  exact h ((mem_entries_iff m e.1 e.2).mp he)

def retain (m : Dict K V) (p : K → V → Bool) : Dict K V where
  entries := m.entries.filter fun e => p e.1 e.2
  nodupKeys := by
    have hs : (m.entries.filter fun e => p e.1 e.2).Sublist m.entries := List.filter_sublist
    exact List.Nodup.sublist (hs.map Sigma.fst) m.nodupKeys

lemma lookup_retain_eq_some (m : Dict K V) (p : K → V → Bool) (k : K) (v : V) :
    (m.retain p).lookup k = some v ↔ m.lookup k = some v ∧ p k v = true := by
  rw [← mem_entries_iff,← mem_entries_iff]
  simp [retain]

lemma lookup_retain_of_pos {p : K → V → Bool} (h : ∀ v, m.lookup k = some v → p k v = true) :
    (m.retain p).lookup k = m.lookup k := by
  apply Option.ext
  intro v
  rw [lookup_retain_eq_some]
  exact ⟨fun hv => hv.1,fun hv => ⟨hv,h v hv⟩⟩

def mapValues {W : Type} (m : Dict K V) (f : K → V → W) : Dict K W where
  entries := m.entries.map fun e => ⟨e.1,f e.1 e.2⟩
  nodupKeys := by
    have hk : (m.entries.map fun e => (⟨e.1,f e.1 e.2⟩ : Sigma fun _ : K => W)).keys = m.entries.keys := by
      simp [List.keys,Function.comp_def]
    rw [List.NodupKeys,hk]
    exact m.nodupKeys

lemma lookup_mapValues_eq_some {W : Type} (m : Dict K V) (f : K → V → W) (k : K) (w : W) :
    (m.mapValues f).lookup k = some w ↔ ∃ v, m.lookup k = some v ∧ f k v = w := by
  rw [← mem_entries_iff]
  simp only [mapValues,mem_map]
  constructor
  · rintro ⟨⟨k',v⟩,hm,he⟩
    cases he
    exact ⟨v,(mem_entries_iff m k' v).mp hm,rfl⟩
  · rintro ⟨v,hv,rfl⟩
    exact ⟨⟨k,v⟩,(mem_entries_iff m k v).mpr hv,rfl⟩

def modify (m : Dict K V) (k : K) (f : V → V) : Dict K V :=
  match m.lookup k with
  | some v => m.insert k (f v)
  | none => m

lemma lookup_modify (m : Dict K V) (k k' : K) (f : V → V) :
    (m.modify k f).lookup k' = if k'=k then (m.lookup k).map f else m.lookup k' := by
  unfold modify
  cases h : m.lookup k with
  | none =>
    split_ifs with hk
    · subst hk; simpa using h
    · rfl
  | some v => simp [lookup_insert_if]

lemma modify_of_lookup (h : m.lookup k = some v) (f : V → V) :
    m.modify k f = m.insert k (f v) := by simp [modify,h]

lemma modify_of_lookup_none (h : m.lookup k = none) (f : V → V) : m.modify k f = m := by simp [modify,h]

/-- Insert the entries of a list one after the other, each combined with what is already
there. -/
def absorb (f : Option V → V → V) (m : Dict K V) (es : List (Sigma fun _ : K => V)) : Dict K V :=
  es.foldl (fun m e => m.insert e.1 (f (m.lookup e.1) e.2)) m

lemma lookup_absorb_of_notMem (f : Option V → V → V) (m : Dict K V) (es : List (Sigma fun _ : K => V))
    (k : K) (h : k∉es.keys) : (absorb f m es).lookup k = m.lookup k := by
  induction es generalizing m with
  | nil => rfl
  | cons e es ih =>
    simp only [keys_cons,mem_cons,not_or] at h
    change (absorb f (m.insert e.1 _) es).lookup k = _
    rw [ih _ h.2,lookup_insert_if,if_neg h.1]

lemma lookup_absorb (f : Option V → V → V) (m other : Dict K V) (k : K) :
    (absorb f m other.entries).lookup k = match other.lookup k with
        | some v => some (f (m.lookup k) v)
        | none => m.lookup k := by
  obtain ⟨es,hes⟩ := other
  change (absorb f m es).lookup k = match es.dlookup k with
    | some v => some (f (m.lookup k) v)
    | none => m.lookup k
  induction es generalizing m with
  | nil => rfl
  | cons e es ih =>
    obtain ⟨hn,hes'⟩ := nodupKeys_cons.mp hes
    change (absorb f (m.insert e.1 (f (m.lookup e.1) e.2)) es).lookup k = _
    by_cases hk : k=e.1
    · subst hk
      rw [lookup_absorb_of_notMem f _ _ _ hn,lookup_insert_if,if_pos rfl,dlookup_cons_eq]
    · rw [ih _ hes',dlookup_cons_ne _ _ hk,lookup_insert_if,if_neg hk]

def insertPairs (m : Dict K V) (ps : List (K × V)) : Dict K V :=
  ps.foldl (fun m p => m.insert p.1 p.2) m

lemma lookup_insertPairs (m : Dict K V) (ps : List (K × V)) (k : K) :
    (∃ v, (k,v) ∈ ps ∧ (insertPairs m ps).lookup k = some v) ∨
      (∀ v, (k,v) ∉ ps) ∧ (insertPairs m ps).lookup k = m.lookup k := by
  induction ps generalizing m with
  | nil => exact .inr ⟨by simp,rfl⟩
  | cons p ps ih =>
    obtain ⟨k',v'⟩ := p
    rcases ih (m.insert k' v') with ⟨w,hw,hl⟩ | ⟨hn,hl⟩
    · exact .inl ⟨w,mem_cons_of_mem _ hw,hl⟩
    rw [lookup_insert_if] at hl
    by_cases hk : k=k'
    · subst hk
      rw [if_pos rfl] at hl
      exact .inl ⟨v',mem_cons_self,hl⟩
    rw [if_neg hk] at hl
    refine .inr ⟨?_,hl⟩
    intro w hw
    rcases mem_cons.mp hw with he | hw
    · exact hk (Prod.mk.inj he).1
    · exact hn w hw

def insertAll (key : V → K) (m : Dict K V) (vs : List V) : Dict K V :=
  insertPairs m (vs.map fun v => (key v,v))

lemma lookup_insertAll (key : V → K) (m : Dict K V) (vs : List V) (k : K) :
    (∃ v∈vs, key v = k ∧ (insertAll key m vs).lookup k = some v) ∨
      (∀ v∈vs, key v ≠ k) ∧ (insertAll key m vs).lookup k = m.lookup k := by
  rcases lookup_insertPairs m (vs.map fun v => (key v,v)) k with ⟨v,hv,hl⟩ | ⟨hn,hl⟩
  · obtain ⟨w,hw,he⟩ := mem_map.mp hv
    obtain ⟨hk,rfl⟩ := Prod.mk.inj he
    exact .inl ⟨w,hw,hk,hl⟩
  refine .inr ⟨?_,hl⟩
  rintro v hv rfl
  exact hn v (mem_map.mpr ⟨v,hv,rfl⟩)

lemma lookup_foldl_erase (key : A → K) (m : Dict K V) (as : List A) (k : K) :
    (as.foldl (fun m a => m.erase (key a)) m).lookup k =
      if ∃ a∈as, key a = k then none else m.lookup k := by
  induction as generalizing m with
  | nil => simp
  | cons a as ih =>
    rw [foldl_cons,ih]
    by_cases hk : key a = k
    · simp [hk]
    · simp [hk,Ne.symm hk]

lemma lookup_of_lookup_foldl_erase {key : A → K} {as : List A}
    (h : (as.foldl (fun m a => m.erase (key a)) m).lookup k = some v) : m.lookup k = some v := by
  rw [lookup_foldl_erase] at h
  split_ifs at h
  exact h

lemma lookup_foldl_erase_of_mem {key : A → K} {as : List A} {a : A}
    (h : a∈as) : (as.foldl (fun m a => m.erase (key a)) m).lookup (key a) = none := by
  rw [lookup_foldl_erase,if_pos ⟨a,h,rfl⟩]

lemma erase_of_lookup_eq_none (h : m.lookup k = none) : m.erase k = m :=
  ext (kerase_of_notMem_keys (lookup_eq_none.mp h))

def total (f : V → ℕ) (m : Dict K V) : ℕ := (m.values.map f).sum

lemma total_insert (h : m.lookup k = none) (f : V → ℕ) (v : V) :
    total f (m.insert k v) = f v + total f m := by
  have hk : k∉m := lookup_eq_none.mp h
  unfold total values
  rw [insert_of_notMem hk]
  simp

lemma sum_kerase {es : List (Sigma fun _ : K => V)} (f : V → ℕ) (h : es.dlookup k = some v) :
    f v + ((es.kerase k).map fun e => f e.2).sum = (es.map fun e => f e.2).sum := by
  induction es with
  | nil => cases h
  | cons e es ih =>
    obtain ⟨k',v'⟩ := e
    by_cases hk : k=k'
    · subst hk
      rw [dlookup_cons_eq] at h
      obtain rfl := Option.some.inj h
      simp
    · rw [dlookup_cons_ne _ _ hk] at h
      rw [kerase_cons_ne hk,map_cons,map_cons,sum_cons,sum_cons,← ih h]
      omega

lemma total_erase (h : m.lookup k = some v) (f : V → ℕ) : f v + total f (m.erase k) = total f m := by
  have := sum_kerase f h
  simpa [total,values,erase,Function.comp_def] using this

lemma total_write (m : Dict K V) (k : K) (f : V → ℕ) (v : V) :
    total f (m.insert k v)+(m.lookup k).elim 0 f = total f m+f v := by
  have hinsert : total f (m.insert k v) = f v+total f (m.erase k) := by
    simp [total,values,erase]
  cases h : m.lookup k with
  | none =>
    rw [hinsert,erase_of_lookup_eq_none h,Option.elim_none]
    omega
  | some w =>
    have herase := total_erase h f
    rw [Option.elim_some]
    omega

lemma countP_insert (m : Dict K V) (k : K) (v : V) (p : V → Bool) :
    (values (m.insert k v)).countP p+(if (m.lookup k).any p then 1 else 0) =
      m.values.countP p+(if p v then 1 else 0) := by
  have hkerase : ∀ es : List (Sigma fun _ : K => V),
      ((es.kerase k).map Sigma.snd).countP p+(if (es.dlookup k).any p then 1 else 0) =
        (es.map Sigma.snd).countP p := by
    intro es
    induction es with
    | nil => rfl
    | cons e es ih =>
      obtain ⟨k',v'⟩ := e
      by_cases hk : k=k'
      · subst hk
        simp [countP_cons]
      rw [dlookup_cons_ne _ _ hk,kerase_cons_ne hk]
      simp only [map_cons,countP_cons]
      omega
  have hold := hkerase m.entries
  have hnew : values (m.insert k v) = v::(m.entries.kerase k).map Sigma.snd := rfl
  change _ = (m.entries.map Sigma.snd).countP p+_
  rw [hnew,countP_cons]
  change _+(if (m.entries.dlookup k).any p then 1 else 0) = _
  omega

omit [DecidableEq K] in
lemma countP_retain {p : K → V → Bool} {q : V → Bool} (h : ∀ k v, q v = true → p k v = true)
    (m : Dict K V) : (m.retain p).values.countP q = m.values.countP q := by
  unfold retain values
  rw [countP_map,countP_map,countP_filter]
  refine countP_congr fun e _ => ?_
  simpa using h e.1 e.2

lemma card_eq_countP {ks : Finset K} {p : V → Bool}
    (h : ∀ k, k∈ks ↔ ∃ v, m.lookup k = some v ∧ p v = true) : ks.card = m.values.countP p := by
  have hks : ks = ((m.entries.filter fun e => p e.2).map Sigma.fst).toFinset := by
    ext k
    rw [h k,mem_toFinset]
    simp only [mem_map,mem_filter]
    constructor
    · rintro ⟨v,hv,hp⟩
      exact ⟨⟨k,v⟩,⟨(mem_entries_iff _ _ _).mpr hv,hp⟩,rfl⟩
    · rintro ⟨⟨k',v⟩,⟨hm,hp⟩,rfl⟩
      exact ⟨v,(mem_entries_iff _ _ _).mp hm,hp⟩
  have hnodup : ((m.entries.filter fun e => p e.2).map Sigma.fst).Nodup :=
    List.Nodup.sublist (filter_sublist.map Sigma.fst) m.nodupKeys
  rw [hks,toFinset_card_of_nodup hnodup,length_map,← countP_eq_length_filter,values,countP_map]
  rfl

def write (m : Dict K V) (w : K × Option V) : Dict K V :=
  match w.2 with
  | some v => m.insert w.1 v
  | none => m.erase w.1

def written (k : K) : List (K × Option V) → Option (Option V)
  | [] => none
  | w::ws => (written k ws).or (if k=w.1 then some w.2 else none)

lemma lookup_write (m : Dict K V) (w : K × Option V) (k : K) :
    (m.write w).lookup k = if k=w.1 then w.2 else m.lookup k := by
  obtain ⟨k',_ | v⟩ := w
  · exact lookup_erase_if m k' k
  · exact lookup_insert_if m k' k v

lemma lookup_foldl_write (m : Dict K V) (ws : List (K × Option V)) (k : K) :
    (ws.foldl write m).lookup k = (written k ws).getD (m.lookup k) := by
  induction ws generalizing m with
  | nil => rfl
  | cons w ws ih =>
    rw [foldl_cons,ih,written,lookup_write]
    cases written k ws with
    | some v => rfl
    | none => split_ifs <;> rfl

lemma written_eq_none {ws : List (K × Option V)} (h : k ∉ ws.map Prod.fst) : written k ws = none := by
  induction ws with
  | nil => rfl
  | cons w ws ih =>
    rw [map_cons,mem_cons,not_or] at h
    rw [written,ih h.2,if_neg h.1]
    rfl

lemma mem_foldl_write {ws : List (K × Option V)} (h : (k,none) ∉ ws) :
    k ∈ ws.foldl write m ↔ k∈m ∨ k ∈ ws.map Prod.fst := by
  induction ws generalizing m with
  | nil => simp
  | cons w ws ih =>
    rw [mem_cons,not_or] at h
    have hw : k ∈ m.write w ↔ k∈m ∨ k=w.1 := by
      simp only [← lookup_isSome,lookup_write]
      obtain ⟨k',_ | v⟩ := w
      · have hne : k≠k' := fun he => h.1 (he ▸ rfl)
        simp [hne]
      · by_cases hk : k = k' <;> simp [hk]
    rw [foldl_cons,ih h.2,hw,map_cons,mem_cons,or_assoc]

end Dict
