import Mathlib.Data.List.Basic

/-! Paths as a file system reads them: a segment is entered, `.` stays where it is and `..` goes up. -/
namespace Paths
open List

def enter (dir : List (List Char)) (segment : List Char) : List (List Char) :=
  if segment=[] ∨ segment=['.'] then dir
  else if segment=['.','.'] then dir.dropLast
  else dir++[segment]

def locate (cwd : List (List Char)) (path : List Char) : List (List Char) :=
  (path.splitOn '/').foldl enter (if path.head? = some '/' then [] else cwd)

def Below (dir location : List (List Char)) : Prop := dir <+: location ∧ location≠dir
  deriving Decidable

lemma locate_append {path segment : List Char} (hpath : path≠[]) (hsegment : '/'∉segment)
    (cwd : List (List Char)) :
    locate cwd (path++ '/'::segment) = enter (locate cwd path) segment := by
  unfold locate
  rw [splitOn_append_cons_self,splitOn_eq_singleton hsegment,foldl_append,head?_append_of_ne_nil _ hpath]
  rfl

lemma below_enter_iff (dir : List (List Char)) (segment : List Char) :
    Below dir (enter dir segment) ↔ segment≠[] ∧ segment≠['.'] ∧ segment≠['.','.'] := by
  unfold Below enter
  split_ifs with hstay hup
  · rcases hstay with rfl | rfl <;> simp
  · refine iff_of_false ?_ fun h => h.2.2 hup
    rintro ⟨hwithin,hne⟩
    exact hne (( dropLast_prefix dir).eq_of_length_le hwithin.length_le)
  · simp [not_or.1 hstay,hup]

end Paths
