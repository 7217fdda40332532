import Mathlib.Data.List.Basic
import Mathlib.Data.Nat.Notation

/-!
# Texts in pieces

The pieces of a text between the occurrences of a character. A text either is a
piece itself, or starts with one and the character (`components_cases`), and
its pieces are read off such a beginning (`components_append`).
-/

namespace Text

variable {separator : Char} {text : String}

/-- The pieces of a text between the separators. -/
def components (separator : Char) (text : String) : List String :=
  (text.toList.splitOn separator).map String.ofList

/-- A text without a separator is in one piece. -/
theorem components_of_not_mem (h : separator ∉ text.toList) :
    components separator text = [text] := by
  rw [components, List.splitOn_eq_singleton h, List.map_singleton, String.ofList_toList]

/-- What comes before the first separator is the first piece. -/
theorem components_append {a : String} (ha : separator ∉ a.toList) (rest : String) :
    components separator (a ++ String.singleton separator ++ rest) =
      a :: components separator rest := by
  have hlist : (a ++ String.singleton separator ++ rest).toList =
      a.toList ++ separator :: rest.toList := by simp
  rw [components, hlist, List.splitOn_append_cons_self_of_not_mem ha, List.map_cons,
    String.ofList_toList, components]

/-- A text without the separator, or the piece before the first one. -/
theorem components_cases (separator : Char) (text : String) :
    separator ∉ text.toList ∨
      ∃ a rest, text = a ++ String.singleton separator ++ rest ∧ separator ∉ a.toList := by
  by_cases h : separator ∈ text.toList
  · obtain ⟨a, rest, htext, ha⟩ := List.eq_append_cons_of_mem h
    refine .inr ⟨.ofList a, .ofList rest, ?_, by rwa [String.toList_ofList]⟩
    rw [← String.toList_inj, htext]
    simp
  · exact .inl h

end Text
