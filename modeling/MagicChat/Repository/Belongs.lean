import MagicChat.Repository.Pair

/-!
# Whose a location is

A location is drawn by a call that has found no pointer, and from then on it is
that of the pair of this call (`Belongs`): the pointers that hold it are between
the two, the uploads that go there are theirs, and so are the calls that mark
the messages there, since each has found the location at a pointer of its reader.

Before it is drawn, nothing concerns a location, and it is any pair's
(`exists_belongs_of_reachable`).
-/

namespace MagicChat

/-- The reader for whom a call marks messages, and the location where they are. -/
def Call.markedAt : Call → Option (UserID × Key)
  | .markSnapshot currentUserID location => some (currentUserID, location)
  | .markWrites currentUserID location _ => some (currentUserID, location)
  | _ => none

/-- A call that has just started knows no location yet. -/
theorem Starts.markedAt {currentUser : Device → Option UserID} {a : Repository.Action} {c : Call}
    (h : Starts currentUser a c) : c.markedAt = none := by
  cases h <;> rfl

/-- A call comes to mark the messages of a location where a pointer of its reader leads. -/
theorem Resumes.markedAt {db : Database} {currentUser : Device → Option UserID} {c : Call}
    {r : Response} {o : Outcome} (h : Resumes db currentUser c r o) {u : UserID} {L : Key}
    (hn : o.next.markedAt = some (u, L)) :
    c.markedAt = some (u, L) ∨ ∃ peer, db.location u peer = some L := by
  cases h with
  | markLocated hL =>
    obtain ⟨rfl, rfl⟩ := Prod.mk.inj (Option.some.inj hn)
    exact .inr ⟨_, hL⟩
  | snapped => exact .inl hn
  | marked => exact .inl hn
  | _ => simp [Call.markedAt] at hn

namespace Repository

/-- The location `L` is that of the pair `p`. -/
structure Belongs (L : Key) (p : Sym2 UserID) (s : Repository) : Prop where
  pointers : ∀ x y, s.db.location x y = some L → s(x, y) = p
  refs : ∀ i c u ref, s.At i c → c.ref? = some (u, ref) → ref.location = L → u.pair = p
  readers : ∀ i c u, s.At i c → c.markedAt = some (u, L) → u ∈ p

/-- The location is some pair's, or any pair's, before it has been drawn. -/
def Owned (L : Key) (s : Repository) : Prop := ∃ p, ∀ q, q = p ∨ L ∉ s.issued → s.Belongs L q

variable {s t : Repository} {L : Key} {p : Sym2 UserID}

theorem belongs_init : machine.init.Belongs L p where
  pointers x y h := by
    simp [machine, Database.location, Database.pointer, Database.empty] at h
  refs _ _ _ _ h := absurd h not_at_init
  readers _ _ _ h := absurd h not_at_init

theorem Belongs.start {a : Action} {c : Call} (h : s.Belongs L p) (hc : Starts s.currentUser a c) :
    (s.start c).Belongs L p where
  pointers := h.pointers
  refs j c' u ref hj hu := h.refs j c' u ref (at_of_start hc.ref? hj hu) hu
  readers j c' u hj hu := h.readers j c' u (at_of_start hc.markedAt hj hu) hu

theorem Belongs.stop {i : ℕ} (h : s.Belongs L p) :
    Belongs L p { s with calls := s.calls.set i .finished } where
  pointers := h.pointers
  refs j c' u ref hj hu := h.refs j c' u ref (at_of_stop rfl hj hu) hu
  readers j c' u hj hu := h.readers j c' u (at_of_stop rfl hj hu) hu

section fire

variable {i : ℕ} {r : Response} {c : Call} {o : Outcome}

/-- A callback keeps a location its pair's, if it does not draw it for another. -/
theorem Belongs.fire (h : s.Belongs L p) (hs : s.Fresh) (hc : s.At i c)
    (ho : Resumes s.db s.currentUser c r o)
    (hnew : ∀ u ref, o.next.ref? = some (u, ref) → o.issued = [ref.location, ref.key] →
      ref.location = L → u.pair = p) : (s.fire i c r o).Belongs L p where
  pointers x y hL := by
    rcases hs.location_of_written hL with hL | ⟨u, ref, hu, he, hxy⟩
    · exact h.pointers x y hL
    · exact hxy.trans (h.refs i c u ref hc (Call.ref?_of_creating hu) he)
  refs j c' u ref hj hu hL := by
    rcases at_set hj with ⟨rfl, rfl⟩ | ⟨_, hj⟩
    · rcases ho.ref? hu with hr | ⟨rfl, hloc⟩ | ⟨_, _, _, hissued⟩
      · exact h.refs j c u ref hc hr hL
      · exact h.pointers _ _ (hL ▸ hloc)
      · exact hnew u ref hu hissued hL
    · exact h.refs j c' u ref hj hu hL
  readers j c' u hj hu := by
    rcases at_set hj with ⟨rfl, rfl⟩ | ⟨_, hj⟩
    · rcases ho.markedAt hu with hr | ⟨peer, hloc⟩
      · exact h.readers j c u hc hr
      · exact h.pointers u peer hloc ▸ Sym2.mem_mk_left u peer
    · exact h.readers j c' u hj hu

end fire

/-- A location that has been drawn stays its pair's. -/
theorem Belongs.step {a : Action} (h : s.Belongs L p) (hs : s.Fresh) (hL : L ∈ s.issued)
    (ht : s.Step a t) : t.Belongs L p := by
  cases ht with
  | login => exact ⟨h.pointers, h.refs, h.readers⟩
  | logOut => exact ⟨h.pointers, h.refs, h.readers⟩
  | start hc => exact h.start hc
  | fire hc ho _ hfresh =>
    refine h.fire hs hc ho fun u ref _ hissued hloc => ?_
    have hmem : L ∈ [ref.location, ref.key] := hloc ▸ List.mem_cons_self
    exact absurd hL (hfresh L (hissued ▸ hmem))
  | stop => exact h.stop

/-- The keys drawn stay drawn. -/
theorem Step.issued_subset {a : Action} (h : s.Step a t) : s.issued ⊆ t.issued := by
  cases h with
  | fire => exact List.subset_append_right _ _
  | _ => exact List.Subset.refl _

theorem Owned.step {a : Action} (h : s.Owned L) (hs : s.Fresh) (ht : s.Step a t) : t.Owned L := by
  obtain ⟨p, h⟩ := h
  have old : ∀ q, q = p ∨ L ∉ t.issued → s.Belongs L q := fun q hq =>
    h q (hq.imp_right fun hn hmem => hn (ht.issued_subset hmem))
  cases ht with
  | login => exact ⟨p, fun q hq => ⟨(old q hq).pointers, (old q hq).refs, (old q hq).readers⟩⟩
  | logOut => exact ⟨p, fun q hq => ⟨(old q hq).pointers, (old q hq).refs, (old q hq).readers⟩⟩
  | start hc => exact ⟨p, fun q hq => (old q hq).start hc⟩
  | @fire i r c o hc ho _ hfresh =>
    by_cases hnew : ∃ u ref, o.next.ref? = some (u, ref) ∧ o.issued = [ref.location, ref.key] ∧
        ref.location = L
    · -- The location is drawn in this step, for the pair of the upload.
      obtain ⟨u, ref, hu, hissued, rfl⟩ := hnew
      have hdrawn : ref.location ∈ o.issued := hissued ▸ List.mem_cons_self
      refine ⟨u.pair, fun q hq => ?_⟩
      obtain rfl : q = u.pair := hq.resolve_right fun hn => hn (List.mem_append_left _ hdrawn)
      refine (h u.pair (.inr (hfresh _ hdrawn))).fire hs hc ho fun u' ref' hu' _ _ => ?_
      obtain ⟨rfl, _⟩ := Prod.mk.inj (Option.some.inj (hu.symm.trans hu'))
      rfl
    · exact ⟨p, fun q hq => (old q hq).fire hs hc ho fun u ref hu hissued hL =>
        absurd ⟨u, ref, hu, hissued, hL⟩ hnew⟩
  | stop => exact ⟨p, fun q hq => (old q hq).stop⟩

/-- Every location is some pair's. -/
theorem exists_belongs_of_reachable (h : machine.Reachable s) (L : Key) : ∃ p, s.Belongs L p := by
  have howned : s.Owned L := h.invariant ⟨s("", ""), fun _ _ => belongs_init⟩
    fun _ _ _ hr hi ht => hi.step (fresh_of_reachable hr) (.of_step ht)
  obtain ⟨p, hp⟩ := howned
  exact ⟨p, hp p (.inl rfl)⟩

end Repository

end MagicChat
