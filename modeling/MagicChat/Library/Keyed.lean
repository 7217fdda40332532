import Mathlib.Data.List.Basic

/-!
# Keyed lists

A *keyed list* is a finite map kept in the order in which its keys appeared:
the children of a node, the fields of a dictionary. It is read with
`List.lookup`.

* `Keyed.set` writes a key: in place if it is there, at the end if it is new.
* `Keyed.added` are the entries of a list whose keys another list lacks: what
  an observer of additions is told about.
-/

/-- A finite map, in the order in which its keys appeared. -/
abbrev Keyed (κ ν : Type*) := List (κ × ν)

namespace Keyed

variable {κ ν : Type*} [DecidableEq κ]

/-- Write `v` at the key `k`: in place of its value, or else at the end. -/
def set : Keyed κ ν → κ → ν → Keyed κ ν
  | [], k, v => [(k, v)]
  | (k', v') :: l, k, v => if k' = k then (k, v) :: l else (k', v') :: set l k v

/-- Write several entries, in turn. -/
def setAll (l : Keyed κ ν) (entries : Keyed κ ν) : Keyed κ ν :=
  entries.foldl (fun l e => set l e.1 e.2) l

/-- The entries of `new` whose keys `old` lacks. -/
def added (old new : Keyed κ ν) : Keyed κ ν :=
  new.filter fun e => (old.lookup e.1).isNone

/-- No key appears twice. -/
def NodupKeys (l : Keyed κ ν) : Prop := (l.map Prod.fst).Nodup

/-! ## Reading -/

theorem lookup_cons_of_ne {l : Keyed κ ν} {k k' : κ} {v : ν} (h : k' ≠ k) :
    List.lookup k' ((k, v) :: l) = l.lookup k' := by
  rw [List.lookup_cons, beq_eq_false_iff_ne.2 h]

omit [DecidableEq κ] in
theorem mem_of_lookup [BEq κ] [LawfulBEq κ] {l : Keyed κ ν} {k : κ} {v : ν}
    (h : l.lookup k = some v) : (k, v) ∈ l := by
  obtain ⟨l₁, l₂, rfl, _⟩ := List.lookup_eq_some_iff.1 h
  exact List.mem_append_right _ List.mem_cons_self

theorem lookup_ne_none_of_mem {l : Keyed κ ν} {e : κ × ν} (h : e ∈ l) :
    l.lookup e.1 ≠ none := fun hn => by
  simpa using List.lookup_eq_none_iff.1 hn e h

theorem mem_keys_iff {l : Keyed κ ν} {k : κ} : k ∈ l.map Prod.fst ↔ l.lookup k ≠ none := by
  constructor
  · intro h
    obtain ⟨e, he, rfl⟩ := List.mem_map.1 h
    exact lookup_ne_none_of_mem he
  · intro h
    obtain ⟨v, hv⟩ := Option.ne_none_iff_exists'.1 h
    exact List.mem_map.2 ⟨(k, v), mem_of_lookup hv, rfl⟩

/-- Without repeated keys, the entries are those that are read. -/
theorem NodupKeys.lookup_eq_some_iff {l : Keyed κ ν} (h : NodupKeys l) {k : κ} {v : ν} :
    l.lookup k = some v ↔ (k, v) ∈ l := by
  refine ⟨mem_of_lookup, fun hmem => ?_⟩
  induction l with
  | nil => simp at hmem
  | cons e l ih =>
    obtain ⟨k₀, v₀⟩ := e
    obtain ⟨h₀, hl⟩ := List.nodup_cons.1 h
    rcases List.mem_cons.1 hmem with he | htail
    · simp [Prod.mk.inj he]
    · have hk : k ≠ k₀ := by
        rintro rfl
        exact h₀ (List.mem_map.2 ⟨(k, v), htail, rfl⟩)
      rw [lookup_cons_of_ne hk, ih hl htail]

/-! ## Writing -/

theorem lookup_set (l : Keyed κ ν) (k k' : κ) (v : ν) :
    (set l k v).lookup k' = if k' = k then some v else l.lookup k' := by
  induction l with
  | nil =>
    by_cases h : k' = k <;> simp [set, h]
  | cons e l ih =>
    obtain ⟨k₀, v₀⟩ := e
    by_cases h₀ : k₀ = k
    · subst h₀
      by_cases h : k' = k₀
      · simp [set, h]
      · simp only [set, if_true, lookup_cons_of_ne h, h, if_false]
    · by_cases h : k' = k₀
      · subst h
        simp [set, h₀]
      · rw [set, if_neg h₀, lookup_cons_of_ne h, lookup_cons_of_ne h, ih]

/-- A value written over another one of the same key replaces it. -/
@[simp] theorem set_set (l : Keyed κ ν) (k : κ) (v v' : ν) : set (set l k v) k v' = set l k v' := by
  induction l with
  | nil => simp [set]
  | cons e l ih =>
    obtain ⟨k₀, v₀⟩ := e
    by_cases h₀ : k₀ = k
    · simp [set, h₀]
    · simp [set, h₀, ih]

/-- A new key goes to the end. -/
theorem set_of_lookup_eq_none {l : Keyed κ ν} {k : κ} {v : ν} (h : l.lookup k = none) :
    set l k v = l ++ [(k, v)] := by
  induction l with
  | nil => rfl
  | cons e l ih =>
    obtain ⟨k₀, v₀⟩ := e
    have h₀ : k₀ ≠ k := fun hk => by simp [hk] at h
    rw [lookup_cons_of_ne h₀.symm] at h
    simp [set, h₀, ih h]

theorem mem_keys_set {l : Keyed κ ν} {k k' : κ} {v : ν} :
    k' ∈ (set l k v).map Prod.fst ↔ k' = k ∨ k' ∈ l.map Prod.fst := by
  rw [mem_keys_iff, mem_keys_iff, lookup_set]
  split_ifs with h <;> simp [h]

omit [DecidableEq κ] in
theorem nodupKeys_nil : NodupKeys ([] : Keyed κ ν) := List.nodup_nil

theorem NodupKeys.set {l : Keyed κ ν} (h : NodupKeys l) (k : κ) (v : ν) :
    NodupKeys (set l k v) := by
  induction l with
  | nil => simp [Keyed.set, NodupKeys]
  | cons e l ih =>
    obtain ⟨k₀, v₀⟩ := e
    obtain ⟨h₀, hl⟩ := List.nodup_cons.1 h
    rw [Keyed.set]
    split_ifs with hk
    · subst hk
      exact List.nodup_cons.2 ⟨h₀, hl⟩
    · refine List.nodup_cons.2 ⟨fun hmem => ?_, ih hl⟩
      rcases mem_keys_set.1 hmem with he | hmem
      · exact hk he
      · exact h₀ hmem

omit [DecidableEq κ] in
/-- Entries read off others, with the same keys, do not repeat keys either. -/
theorem NodupKeys.filterMap {μ : Type*} {l : Keyed κ ν} (h : NodupKeys l)
    {f : κ × ν → Option (κ × μ)} (hf : ∀ e x, f e = some x → x.1 = e.1) :
    NodupKeys (l.filterMap f) := by
  refine h.sublist ?_
  clear h
  induction l with
  | nil => exact .slnil
  | cons e l ih =>
    rw [List.filterMap_cons]
    split
    · exact ih.cons _
    · rename_i x hx
      rw [List.map_cons, List.map_cons, hf e x hx]
      exact ih.cons_cons _

/-- Writing a key with a value that a function does not tell from the one
    there changes nothing that the function reads off the list. -/
theorem filterMap_set {β : Type*} (f : κ × ν → Option β) {l : Keyed κ ν} {k : κ} {v v' : ν}
    (h : l.lookup k = some v) (hf : f (k, v') = f (k, v)) :
    (set l k v').filterMap f = l.filterMap f := by
  induction l with
  | nil => simp at h
  | cons e l ih =>
    obtain ⟨k₀, v₀⟩ := e
    by_cases h₀ : k₀ = k
    · subst h₀
      obtain rfl : v₀ = v := by simpa using h
      rw [set, if_pos rfl, List.filterMap_cons, List.filterMap_cons, hf]
    · rw [lookup_cons_of_ne (Ne.symm h₀)] at h
      rw [set, if_neg h₀, List.filterMap_cons, List.filterMap_cons, ih h]

/-! ## Additions -/

theorem added_self (l : Keyed κ ν) : added l l = [] := by
  refine List.filter_eq_nil_iff.2 fun e he => ?_
  simpa [Option.isNone_iff_eq_none] using lookup_ne_none_of_mem he

/-- The keys added are new. -/
theorem not_mem_keys_of_mem_added {l l' : Keyed κ ν} {k : κ}
    (h : k ∈ (added l l').map Prod.fst) : k ∉ l.map Prod.fst := by
  obtain ⟨e, he, rfl⟩ := List.mem_map.1 h
  rw [mem_keys_iff, not_not]
  exact Option.isNone_iff_eq_none.1 (List.mem_filter.1 he).2

theorem NodupKeys.added {l' : Keyed κ ν} (h : NodupKeys l') (l : Keyed κ ν) :
    NodupKeys (added l l') :=
  h.sublist (List.filter_sublist.map Prod.fst)

/-- Writing a new key adds its entry. -/
theorem added_set_of_lookup_eq_none {l : Keyed κ ν} {k : κ} {v : ν} (h : l.lookup k = none) :
    added l (set l k v) = [(k, v)] := by
  rw [set_of_lookup_eq_none h, added, List.filter_append]
  have := added_self l
  rw [added] at this
  simp [this, h]

/-- Writing a key that is there adds nothing. -/
theorem added_set_of_lookup_ne_none {l : Keyed κ ν} {k : κ} {v : ν} (h : l.lookup k ≠ none) :
    added l (set l k v) = [] := by
  refine List.filter_eq_nil_iff.2 fun e he => ?_
  have hk := lookup_ne_none_of_mem he
  rw [lookup_set] at hk
  split_ifs at hk with he
  · simpa [he, Option.isNone_iff_eq_none] using h
  · simpa [Option.isNone_iff_eq_none] using hk

/-- Writing a key leaves the keys there, in their order, and adds those that are new. -/
theorem map_fst_set (l : Keyed κ ν) (k : κ) (v : ν) :
    (set l k v).map Prod.fst = l.map Prod.fst ++ (added l (set l k v)).map Prod.fst := by
  by_cases h : l.lookup k = none
  · rw [added_set_of_lookup_eq_none h, set_of_lookup_eq_none h, List.map_append]
  · rw [added_set_of_lookup_ne_none h, List.map_nil, List.append_nil]
    induction l with
    | nil => exact absurd rfl h
    | cons e l ih =>
      obtain ⟨k₀, v₀⟩ := e
      by_cases h₀ : k₀ = k
      · simp [set, h₀]
      · rw [lookup_cons_of_ne (Ne.symm h₀)] at h
        simp [set, h₀, ih h]

end Keyed
