import Indexify.DataModel.Containers

/-! Equivalence classes of executors for constraint checks. The sorted map of labels is the
set of its entries and the sorted allowlist a multiset, so that two classes are equal exactly
when the server's are. -/
namespace Indexify

structure ExecutorClass where
  labels : Finset (String × String)
  allowlist : Option (Multiset FunctionAllowlist)
  deriving DecidableEq

namespace ExecutorClass

def fromExecutor (executor : ExecutorMetadata) : ExecutorClass where
  labels := (executor.labels.entries.map fun e => (e.1,e.2)).toFinset
  allowlist := executor.functionAllowlist.map fun list => (list : Multiset FunctionAllowlist)

/-- The class of an executor nobody knows. -/
def default : ExecutorClass := ⟨∅,none⟩

lemma mem_labels {executor : ExecutorMetadata} {key value : String} :
    (key,value) ∈ (fromExecutor executor).labels ↔ executor.labels.lookup key = some value := by
  rw [fromExecutor,List.mem_toFinset,List.mem_map,← Dict.mem_entries_iff]
  constructor
  · rintro ⟨⟨k,v⟩,hm,he⟩
    cases he
    exact hm
  · exact fun hm => ⟨⟨key,value⟩,hm,rfl⟩

section
variable {e e' : ExecutorMetadata} (h : fromExecutor e = fromExecutor e')
include h

lemma labels_lookup_eq (key : String) : e.labels.lookup key = e'.labels.lookup key := by
  refine Option.ext fun value => ?_
  rw [← mem_labels,← mem_labels,h]

lemma matches_eq (filter : LabelsFilter) : filter.matches e.labels = filter.matches e'.labels := by
  unfold LabelsFilter.matches
  simp only [labels_lookup_eq h]

lemma any_allowlist_eq (p : FunctionAllowlist → Bool) :
    e.functionAllowlist.map (List.any · p) = e'.functionAllowlist.map (List.any · p) := by
  have hlist := congrArg ExecutorClass.allowlist h
  simp only [fromExecutor] at hlist
  cases he : e.functionAllowlist with
  | none =>
    rw [he] at hlist
    cases he' : e'.functionAllowlist with
    | none => rfl
    | some l' => rw [he'] at hlist; cases hlist
  | some l =>
    rw [he] at hlist
    cases he' : e'.functionAllowlist with
    | none => rw [he'] at hlist; cases hlist
    | some l' =>
      rw [he'] at hlist
      have hperm : l.Perm l' := Multiset.coe_eq_coe.mp (Option.some.inj hlist)
      exact congrArg some hperm.any_eq

lemma isFunctionAllowed_eq (ns application : String) (function : Function) :
    e.isFunctionAllowed ns application function = e'.isFunctionAllowed ns application function := by
  have hany := any_allowlist_eq h fun a => a.matchesFunction ns application function
  unfold ExecutorMetadata.isFunctionAllowed
  cases he : e.functionAllowlist <;> cases he' : e'.functionAllowlist <;> rw [he,he'] at hany
  · cases hany
  · cases hany
  · exact Option.some.inj hany

lemma isNamespaceAllowed_eq (ns : String) : e.isNamespaceAllowed ns = e'.isNamespaceAllowed ns := by
  have hany := any_allowlist_eq h fun a => decide (a.namespace = some ns)
  unfold ExecutorMetadata.isNamespaceAllowed
  cases he : e.functionAllowlist <;> cases he' : e'.functionAllowlist <;> rw [he,he'] at hany
  · cases hany
  · cases hany
  · exact Option.some.inj hany

end
end ExecutorClass
end Indexify
