import Mathlib.Algebra.Ring.Nat
import Mathlib.Data.List.Basic
import Mathlib.Data.List.Induction
import Mathlib.Data.List.Nodup
import Mathlib.Data.List.Perm.Basic

/-!
# Places in lists

Lists whose elements are addressed by their place: replacing the element at a
place, adding one at the end, and taking one out.
-/

namespace Lists

variable {α : Type*} {l : List α} {i : ℕ} {x y : α}

/-! ## Replacing an element -/

/-- An element of a list after a replacement: the new one, or one in another place. -/
theorem getElem?_set_cases {j : ℕ} (h : (l.set i x)[j]? = some y) :
    (j = i ∧ y = x) ∨ (j ≠ i ∧ l[j]? = some y) := by
  rw [List.getElem?_set] at h
  split_ifs at h with hij hi
  · exact .inl ⟨hij.symm, (Option.some.inj h).symm⟩
  · exact .inr ⟨Ne.symm hij, h⟩

/-- An element set where it is changes nothing. -/
theorem set_of_getElem? (h : l[i]? = some x) : l.set i x = l := by
  obtain ⟨hlt, rfl⟩ := List.getElem?_eq_some_iff.1 h
  exact List.set_getElem_self hlt

/-- An element set at the place of another one appears twice. -/
theorem not_nodup_set (hx : x ∈ l) (hi : i < l.length) (hne : l[i]? ≠ some x) :
    ¬(l.set i x).Nodup := by
  obtain ⟨j, hj, rfl⟩ := List.getElem_of_mem hx
  have hij : i ≠ j := by
    rintro rfl
    exact hne (List.getElem?_eq_getElem hj)
  intro hnodup
  have hi' : i < (l.set i l[j]).length := by rwa [List.length_set]
  have hj' : j < (l.set i l[j]).length := by rwa [List.length_set]
  have hsame : (l.set i l[j])[i] = (l.set i l[j])[j] := by
    rw [List.getElem_set_self, List.getElem_set_ne hij]
  exact hij (hnodup.getElem_inj_iff.1 hsame)

/-- The elements of a list, read off one by one. -/
theorem filterMap_range_getElem? (l : List α) :
    (List.range l.length).filterMap (fun i => l[i]?) = l := by
  induction l with
  | nil => rfl
  | cons x l ih =>
    rw [List.length_cons, List.range_succ_eq_map, List.filterMap_cons, List.filterMap_map]
    exact congrArg (x :: ·) ih

/-- What one of the elements is after one has been modified: that one, or another. -/
theorem exists_mem_modify_iff {f : α → α} {P : α → Prop} (h : l[i]? = some x) :
    (∃ y ∈ l.modify i f, P y) ↔ P (f x) ∨ ∃ j y, j ≠ i ∧ l[j]? = some y ∧ P y := by
  constructor
  · rintro ⟨y, hy, hP⟩
    obtain ⟨j, hj⟩ := List.getElem?_of_mem hy
    by_cases hji : j = i
    · subst hji
      rw [List.getElem?_modify_eq, h] at hj
      exact .inl (Option.some.inj hj ▸ hP)
    · rw [List.getElem?_modify_ne f l (Ne.symm hji)] at hj
      exact .inr ⟨j, y, hji, hj, hP⟩
  · rintro (hP | ⟨j, y, hji, hj, hP⟩)
    · refine ⟨f x, List.mem_of_getElem? (i := i) ?_, hP⟩
      rw [List.getElem?_modify_eq, h]
      rfl
    · refine ⟨y, List.mem_of_getElem? (i := j) ?_, hP⟩
      rw [List.getElem?_modify_ne f l (Ne.symm hji), hj]

/-- A sum over a list after a replacement. -/
theorem sum_map_set {f : α → ℕ} (h : l[i]? = some y) :
    ((l.set i x).map f).sum + f y = (l.map f).sum + f x := by
  induction l generalizing i with
  | nil => simp at h
  | cons z l ih =>
    cases i with
    | zero =>
      obtain rfl : z = y := Option.some.inj h
      simp only [List.set_cons_zero, List.map_cons, List.sum_cons]
      omega
    | succ i =>
      have hrest := ih h
      simp only [List.set_cons_succ, List.map_cons, List.sum_cons]
      omega

/-! ## Sorted lists -/

/-- A sorted list starts with the elements `d`, in this order, if none of the
    others may come before an element of `d` but the ones that do so in `d`. -/
theorem isPrefix_of_pairwise {r : α → α → Prop} {d : List α} (hl : l.Pairwise r) (hnl : l.Nodup)
    (hnd : d.Nodup) (hsub : d ⊆ l)
    (h : ∀ i a, d[i]? = some a → ∀ b ∈ l, b ∉ d.take (i + 1) → ¬r b a) : d <+: l := by
  induction d generalizing l with
  | nil => exact List.nil_prefix
  | cons x d ih =>
    obtain ⟨hxd, hnd⟩ := List.nodup_cons.1 hnd
    cases l with
    | nil => exact absurd (hsub List.mem_cons_self) List.not_mem_nil
    | cons y l =>
      obtain ⟨hyl, hnl'⟩ := List.nodup_cons.1 hnl
      obtain ⟨hy, hl'⟩ := List.pairwise_cons.1 hl
      obtain rfl : x = y := by
        by_contra hne
        have hx : x ∈ l := (List.mem_cons.1 (hsub List.mem_cons_self)).resolve_left hne
        refine h 0 x rfl y List.mem_cons_self (fun hyx => hne ?_) (hy x hx)
        exact (List.mem_singleton.1 hyx).symm
      refine List.cons_prefix_cons.2
        ⟨rfl, ih hl' hnl' hnd (fun a ha => ?_) fun i a ha b hb hbd => ?_⟩
      · have hne : a ≠ x := fun hax => hxd (hax ▸ ha)
        exact (List.mem_cons.1 (hsub (List.mem_cons_of_mem x ha))).resolve_left hne
      · refine h (i + 1) a ha b (List.mem_cons_of_mem x hb) fun hb' => ?_
        rcases List.mem_cons.1 hb' with rfl | hb'
        · exact hyl hb
        · exact hbd hb'

/-- In a sorted list that starts with `d`, the elements that may not come after
    an element of `d` are among those that come before it there. -/
theorem mem_take_of_isPrefix {r : α → α → Prop} {d : List α} (hl : l.Pairwise r) (hd : d <+: l)
    {a b : α} (ha : d[i]? = some a) (hb : b ∈ l) (hab : ¬r a b) (hne : b ≠ a) :
    b ∈ d.take (i + 1) := by
  obtain ⟨j, hj, rfl⟩ := List.getElem_of_mem hb
  obtain ⟨hi, rfl⟩ := List.getElem?_eq_some_iff.1 ha
  have hil : i < l.length := Nat.lt_of_lt_of_le hi hd.length_le
  have hia : d[i] = l[i] := hd.getElem hi
  have hji : j < i := by
    rcases Nat.lt_trichotomy j i with hji | rfl | hij
    · exact hji
    · exact absurd hia.symm hne
    · exact absurd (List.pairwise_iff_getElem.1 hl i j hil hj hij) (hia ▸ hab)
  have hjd : j < d.length := Nat.lt_trans hji hi
  rw [← hd.getElem hjd, List.mem_take_iff_getElem]
  exact ⟨j, by omega, rfl⟩

/-- No element comes after the last one. -/
theorem rel_getLast? {r : α → α → Prop} (hl : l.Pairwise r) (hx : l.getLast? = some x)
    (hy : y ∈ l) : r y x ∨ y = x := by
  obtain ⟨l, rfl⟩ := List.getLast?_eq_some_iff.1 hx
  rcases List.mem_append.1 hy with hy | hy
  · exact .inl ((List.pairwise_append.1 hl).2.2 y hy x (List.mem_singleton_self x))
  · exact .inr (List.mem_singleton.1 hy)

/-- What is read off the last element, if it is read off every element. -/
theorem getLast?_filterMap_of_isSome {β : Type*} {f : α → Option β} (h : ∀ a ∈ l, (f a).isSome) :
    (l.filterMap f).getLast? = l.getLast?.bind f := by
  induction l using List.reverseRecOn with
  | nil => rfl
  | append_singleton l a _ =>
    obtain ⟨b, hb⟩ := Option.isSome_iff_exists.1 (h a (by simp))
    rw [List.filterMap_append, List.filterMap_cons_some hb, List.filterMap_nil,
      List.getLast?_concat, List.getLast?_concat, Option.bind_some, hb]

/-- Of two elements of a list, one comes before the other. -/
theorem pair_sublist_or (hx : x ∈ l) (hy : y ∈ l) (hne : x ≠ y) :
    [x, y].Sublist l ∨ [y, x].Sublist l := by
  induction l with
  | nil => exact absurd hx List.not_mem_nil
  | cons z l ih =>
    rcases List.mem_cons.1 hx with rfl | hxl
    · have hyl : y ∈ l := (List.mem_cons.1 hy).resolve_left hne.symm
      exact .inl (.cons_cons x (List.singleton_sublist.2 hyl))
    · rcases List.mem_cons.1 hy with rfl | hyl
      · exact .inr (.cons_cons y (List.singleton_sublist.2 hxl))
      · exact (ih hxl hyl).imp (.cons z) (.cons z)

/-- Two sorted lists agree on the order of two elements that the relation tells apart. -/
theorem pair_sublist_of_pairwise {r : α → α → Prop} {l' : List α} (hl : l.Pairwise r)
    (hl' : l'.Pairwise r) (hsub : l ⊆ l') (hxy : ¬r x y ∨ ¬r y x) (h : [x, y].Sublist l) :
    [x, y].Sublist l' := by
  have hr : r x y := List.pairwise_pair.1 (hl.sublist h)
  have hnr : ¬r y x := hxy.resolve_left fun hn => hn hr
  have hne : x ≠ y := by
    rintro rfl
    exact hnr hr
  have hx : x ∈ l' := hsub (h.subset List.mem_cons_self)
  have hy : y ∈ l' := hsub (h.subset (List.mem_cons_of_mem x (List.mem_singleton_self y)))
  exact (pair_sublist_or hx hy hne).resolve_right fun hyx =>
    hnr (List.pairwise_pair.1 (hl'.sublist hyx))

/-! ## Adding and taking out -/

/-- An element of a list with one more at the end. -/
theorem getElem?_concat (h : (l ++ [x])[i]? = some y) : l[i]? = some y ∨ x = y := by
  rw [List.getElem?_append] at h
  split_ifs at h
  · exact .inl h
  · exact .inr (List.mem_singleton.1 (List.mem_of_getElem? h)).symm

/-- A list is one of its elements, and the others. -/
theorem perm_cons_eraseIdx (h : l[i]? = some x) : l.Perm (x :: l.eraseIdx i) := by
  obtain ⟨hlt, rfl⟩ := List.getElem?_eq_some_iff.1 h
  exact (List.getElem_cons_eraseIdx_perm hlt).symm

/-- The elements with a property, before one element is taken out. -/
theorem countP_eraseIdx (p : α → Bool) (h : l[i]? = some x) :
    l.countP p = (l.eraseIdx i).countP p + if p x then 1 else 0 := by
  rw [(perm_cons_eraseIdx h).countP_eq p, List.countP_cons]

theorem length_eraseIdx_of_getElem? (h : l[i]? = some x) : l.length = (l.eraseIdx i).length + 1 :=
  (perm_cons_eraseIdx h).length_eq

/-- What is read off a list is read off one of its elements, and off the others. -/
theorem filterMap_perm_eraseIdx {β : Type*} (f : α → Option β) (h : l[i]? = some x) :
    (l.filterMap f).Perm ((f x).toList ++ (l.eraseIdx i).filterMap f) := by
  have hperm := (perm_cons_eraseIdx h).filterMap f
  rw [List.filterMap_cons] at hperm
  cases hx : f x with
  | none => simpa [hx] using hperm
  | some y => simpa [hx] using hperm

end Lists
