import Mathlib.Data.List.Sort

/-!
# Sorters

A *sorter* is any function that sorts lists: what a library promises of a sort
that need not be stable. Equal elements come out in any order, so a program
that calls such a sort is verified for every sorter at once.

Insertion sort is one (`Sorter.insertion`), which computes. Another one brings
the elements of a kind before the others that are equal to them
(`Sorter.favouring`): what depends on the order of equal elements, some sorter
breaks.
-/

/-- A function that sorts lists by the relation `r`. -/
structure Sorter (α : Type*) (r : α → α → Prop) where
  /-- The sorted list. -/
  sort : List α → List α
  perm : ∀ l, (sort l).Perm l
  pairwise : ∀ l, (sort l).Pairwise r

namespace Sorter

variable {α : Type*} {r : α → α → Prop}

@[simp] theorem length_sort (S : Sorter α r) (l : List α) : (S.sort l).length = l.length :=
  (S.perm l).length_eq

@[simp] theorem mem_sort (S : Sorter α r) {l : List α} {a : α} : a ∈ S.sort l ↔ a ∈ l :=
  (S.perm l).mem_iff

/-- Insertion sort. -/
def insertion (r : α → α → Prop) [DecidableRel r] [Std.Total r] [IsTrans α r] : Sorter α r where
  sort := List.insertionSort r
  perm := List.perm_insertionSort r
  pairwise := List.pairwise_insertionSort r

/-! ## Equal elements -/

section favouring

variable (r : α → α → Prop) (p : α → Prop)

/-- The order `r`, in which the elements of the kind `p` come before the others
    that are equal to them. -/
def Favoured (a b : α) : Prop := r a b ∧ (r b a → p b → p a)

instance [DecidableRel r] [DecidablePred p] : DecidableRel (Favoured r p) :=
  fun _ _ => inferInstanceAs (Decidable (_ ∧ _))

instance [Std.Total r] : Std.Total (Favoured r p) where
  total a b := by
    by_cases hab : r a b
    · by_cases hp : r b a ∧ p b ∧ ¬p a
      · exact .inr ⟨hp.1, fun _ ha => absurd ha hp.2.2⟩
      · exact .inl ⟨hab, fun hba hb => by_contra fun ha => hp ⟨hba, hb, ha⟩⟩
    · exact .inr ⟨(Std.Total.total a b).resolve_left hab, fun h => absurd h hab⟩

instance [IsTrans α r] : IsTrans α (Favoured r p) where
  trans _ _ _ hab hbc :=
    ⟨IsTrans.trans _ _ _ hab.1 hbc.1, fun hca hc =>
      hab.2 (IsTrans.trans _ _ _ hbc.1 hca) (hbc.2 (IsTrans.trans _ _ _ hca hab.1) hc)⟩

variable [DecidableRel r] [Std.Total r] [IsTrans α r] [DecidablePred p]

/-- Insertion sort that brings the elements of the kind `p` before the others
    that are equal to them. -/
def favouring : Sorter α r where
  sort := List.insertionSort (Favoured r p)
  perm := List.perm_insertionSort (Favoured r p)
  pairwise l := (List.pairwise_insertionSort (Favoured r p) l).imp And.left

theorem pairwise_favouring (l : List α) :
    ((favouring r p).sort l).Pairwise (Favoured r p) :=
  List.pairwise_insertionSort (Favoured r p) l

end favouring

end Sorter
