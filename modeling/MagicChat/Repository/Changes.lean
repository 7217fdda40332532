import MagicChat.Repository.Fresh

/-!
# What a step changes

The changes of the database that an observer can be told of: a step appends a
record to a conversation, or sets the read flag of one that is there
(`conversations_step`), and it writes a pointer, of the form `{location: L}`
(`users_step`).

Of these, only a pointer that gets another location replaces something
(`Replaces`).
-/

namespace MagicChat

namespace Repository

variable {s t : Repository} {a : Action}

/-- The write of a step is that of the call whose write has been applied. -/
theorem exists_at_of_write? {w : Write} (h : s.write? a = some w) :
    ∃ i c, a = .resume i (.write true) ∧ s.At i c ∧ c.write? = some w := by
  cases a with
  | resume i r =>
    cases r with
    | write ok =>
      cases ok with
      | true =>
        obtain ⟨c, hc, hw⟩ := Option.bind_eq_some_iff.1 h
        exact ⟨i, c, rfl, hc, hw⟩
      | false => cases h
    | _ => cases h
  | _ => cases h

/-- A message is stored where there is none. -/
theorem Fresh.message_of_setMessage (hs : s.Fresh) {ref : Reference} {values : Fields}
    (h : s.write? a = some (.setMessage ref values)) : s.db.message ref = none := by
  obtain ⟨i, c, _, hc, hw⟩ := exists_at_of_write? h
  have storing : ∀ u, c.storing = some (u, ref) → s.db.message ref = none := fun u hu =>
    (hs.storing i c u ref hc hu).2 ref.location
  cases c with
  | append u ref' =>
    obtain ⟨rfl, _⟩ := Write.setMessage.inj (Option.some.inj hw)
    exact storing u rfl
  | create u ref' =>
    obtain ⟨rfl, _⟩ := Write.setMessage.inj (Option.some.inj hw)
    exact storing u rfl
  | pointOwn => cases hw
  | pointPeer => cases hw
  | markWrites _ _ keys => cases keys <;> cases hw
  | _ => cases hw

/-- The read flag is set of a message that is there. -/
theorem Fresh.message_of_setRead (hs : s.Fresh) {ref : Reference}
    (h : s.write? a = some (.setRead ref)) : ∃ v, s.db.message ref = some v := by
  obtain ⟨i, c, _, hc, hw⟩ := exists_at_of_write? h
  cases c with
  | markWrites u L keys =>
    cases keys with
    | nil => cases hw
    | cons k keys =>
      obtain rfl := Write.setRead.inj (Option.some.inj hw)
      obtain ⟨v, _, hv, _⟩ := hs.marking i _ u L (k :: keys) hc rfl k List.mem_cons_self
      exact ⟨v, hv⟩
  | _ => cases hw

/-- A step appends a record to a conversation, or sets the read flag of one, or
    leaves the conversation alone. -/
theorem conversations_step (hs : s.Fresh) (h : machine.step s a = some t) (L : Key) :
    t.db.conversations L = s.db.conversations L ∨
      (∃ k v, (s.db.conversations L).lookup k = none ∧
        t.db.conversations L = s.db.conversations L ++ [(k, v)]) ∨
      ∃ k v, (s.db.conversations L).lookup k = some v ∧ t.db.conversations L =
        Keyed.set (s.db.conversations L) k (v.setField "isRead" (.bool true)) := by
  have hdb := (Step.of_step h).db_eq
  cases hw : s.write? a with
  | none =>
    rw [hw] at hdb
    exact .inl (by rw [hdb]; rfl)
  | some w =>
    rw [hw] at hdb
    cases w with
    | setMessage ref values =>
      by_cases hL : L = ref.location
      · subst hL
        -- The key is fresh, so the record goes to the end.
        have hnone := hs.message_of_setMessage hw
        refine .inr (.inl ⟨ref.key, .dictionary values, hnone, ?_⟩)
        rw [hdb, ← Keyed.set_of_lookup_eq_none hnone]
        exact Function.update_self ..
      · exact .inl (by rw [hdb]; exact Function.update_of_ne hL ..)
    | setRead ref =>
      by_cases hL : L = ref.location
      · subst hL
        obtain ⟨v, hv⟩ := hs.message_of_setRead hw
        refine .inr (.inr ⟨ref.key, v, hv, ?_⟩)
        rw [hdb, Option.elim_some, Database.after, hv]
        exact Function.update_self ..
      · exact .inl (by rw [hdb]; exact Function.update_of_ne hL ..)
    | updatePointer x y L' => exact .inl (by rw [hdb]; rfl)

/-- What does not depend on the read flags is read off a conversation after a
    step as it was before, and then off the records added. -/
theorem filterMap_conversations_step {β : Type*} {f : Key × Value → Option β}
    (hf : ∀ k v, f (k, v.setField "isRead" (.bool true)) = f (k, v)) (hs : s.Fresh)
    (h : machine.step s a = some t) (L : Key) :
    (t.db.conversations L).filterMap f = (s.db.conversations L).filterMap f ++
      (Keyed.added (s.db.conversations L) (t.db.conversations L)).filterMap f := by
  rcases conversations_step hs h L with he | ⟨k, v, hk, he⟩ | ⟨k, v, hk, he⟩
  · rw [he, Keyed.added_self, List.filterMap_nil, List.append_nil]
  · rw [he, ← Keyed.set_of_lookup_eq_none hk, Keyed.added_set_of_lookup_eq_none hk,
      Keyed.set_of_lookup_eq_none hk, List.filterMap_append]
  · have hk' : (s.db.conversations L).lookup k ≠ none := by simp [hk]
    rw [he, Keyed.added_set_of_lookup_ne_none hk', Keyed.filterMap_set f hk (hf k v),
      List.filterMap_nil, List.append_nil]

/-- A step writes one pointer, or none. -/
theorem users_step (hs : s.Fresh) (h : machine.step s a = some t) (x : UserID) :
    t.db.users x = s.db.users x ∨ ∃ y L, s.write? a = some (.updatePointer x y L) ∧
      t.db.users x = Keyed.set (s.db.users x) y (Value.pointer L) := by
  have hdb := (Step.of_step h).db_eq
  cases hw : s.write? a with
  | none =>
    rw [hw] at hdb
    exact .inl (by rw [hdb]; rfl)
  | some w =>
    rw [hw] at hdb
    cases w with
    | updatePointer x' y L =>
      by_cases hx : x = x'
      · subst hx
        refine .inr ⟨y, L, rfl, ?_⟩
        rw [hdb, ← hs.pointers.update_eq x y L]
        exact Function.update_self ..
      · exact .inl (by rw [hdb]; exact Function.update_of_ne hx ..)
    | _ => exact .inl (by rw [hdb]; rfl)

/-- The action gives the pointer of `x` to `y` another location than it holds. -/
def Replaces (s : Repository) (a : Action) (x y : UserID) : Prop :=
  ∃ L L', s.db.location x y = some L ∧ s.write? a = some (.updatePointer x y L') ∧ L' ≠ L

/-- A first location replaces nothing. -/
theorem not_replaces_of_location {x y : UserID} (h : s.db.location x y = none) :
    ¬s.Replaces a x y := by
  rintro ⟨L, _, hL, _⟩
  simp [h] at hL

theorem not_replaces_of_write? {x y x' y' : UserID} {L : Key}
    (h : s.write? a = some (.updatePointer x' y' L)) (hx : x' ≠ x) : ¬s.Replaces a x y := by
  rintro ⟨_, _, _, hw, _⟩
  exact hx (Write.updatePointer.inj (Option.some.inj (h.symm.trans hw))).1

/-- A pointer that is not replaced stays, or it is new. -/
theorem pointer_step (hs : s.Fresh) (h : machine.step s a = some t) {x y : UserID}
    (hn : ¬s.Replaces a x y) :
    t.db.pointer x y = s.db.pointer x y ∨
      (s.db.pointer x y = none ∧ ∃ L, t.db.pointer x y = some (Value.pointer L)) := by
  rcases users_step hs h x with he | ⟨y', L', hw, he⟩
  · exact .inl (congrArg (List.lookup y) he)
  · have hpointer : t.db.pointer x y =
        if y = y' then some (Value.pointer L') else s.db.pointer x y :=
      (congrArg (List.lookup y) he).trans (Keyed.lookup_set ..)
    by_cases hy : y = y'
    · subst hy
      rw [if_pos rfl] at hpointer
      cases hv : s.db.pointer x y with
      | none => exact .inr ⟨rfl, L', hpointer⟩
      | some v =>
        obtain ⟨L, rfl⟩ := hs.pointers x y v hv
        have hL : s.db.location x y = some L := by rw [Database.location, hv]; rfl
        have hLL : L' = L := by_contra fun hne => hn ⟨L, L', hL, hw, hne⟩
        exact .inl (hLL ▸ hpointer)
    · exact .inl (by rw [hpointer, if_neg hy])

/-- A location that is not replaced stays. -/
theorem location_step (hs : s.Fresh) (h : machine.step s a = some t) {x y : UserID} {L : Key}
    (hn : ¬s.Replaces a x y) (hL : s.db.location x y = some L) : t.db.location x y = some L := by
  rcases pointer_step hs h hn with he | ⟨hnone, _⟩
  · rw [Database.location, he]
    exact hL
  · simp [Database.location, hnone] at hL

end Repository

end MagicChat
