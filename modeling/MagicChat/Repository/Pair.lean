import Mathlib.Data.Sym.Sym2
import MagicChat.Repository.Fresh

/-!
# The uploads of a pair of users

Two users write to each other from both ends, so what concerns their
conversation is stated for the unordered pair of them (`Upload.pair`).

A call *creates* a conversation from the moment it has found no pointer until
it has written both (`Call.creating`): only such a call moves the pointers of
the pair (`Fresh.written_location_of_pair`), to a location that no other call
creates (`Drawn`).
-/

namespace MagicChat

/-- The two users of an upload, whichever of them sends. -/
def Upload.pair (u : Upload) : Sym2 UserID := s(u.currentUserID, u.toID)

/-- The upload that a call is making. -/
def Call.upload? : Call → Option Upload
  | .readPointer upload => some upload
  | .append upload _ => some upload
  | .create upload _ => some upload
  | .pointOwn upload _ => some upload
  | .pointPeer upload _ => some upload
  | _ => none

/-- The upload of a call that is creating a conversation, and its first record. -/
def Call.creating : Call → Option (Upload × Reference)
  | .create upload ref => some (upload, ref)
  | .pointOwn upload ref => some (upload, ref)
  | .pointPeer upload ref => some (upload, ref)
  | _ => none

theorem Call.ref?_of_creating {c : Call} {e : Upload × Reference} (h : c.creating = some e) :
    c.ref? = some e := by
  cases c <;> first | exact h | simp [Call.creating] at h

theorem Call.upload?_of_ref? {c : Call} {u : Upload} {ref : Reference}
    (h : c.ref? = some (u, ref)) : c.upload? = some u := by
  cases c <;> simp_all [Call.ref?, Call.upload?]

/-- The call is creating a conversation, and has not come to its second pointer. -/
def Call.unpointed : Call → Option (Upload × Reference)
  | .create upload ref => some (upload, ref)
  | .pointOwn upload ref => some (upload, ref)
  | _ => none

theorem Call.creating_of_unpointed {c : Call} {e : Upload × Reference} (h : c.unpointed = some e) :
    c.creating = some e := by
  cases c <;> first | exact h | simp [Call.unpointed] at h

/-- A call that has just started creates nothing yet. -/
theorem Starts.creating {currentUser : Device → Option UserID} {a : Repository.Action} {c : Call}
    (h : Starts currentUser a c) : c.creating = none := by
  cases h <;> rfl

/-- A conversation is created by a call that was creating it, or that has found
    no pointer in this step. -/
theorem Resumes.creating {db : Database} {currentUser : Device → Option UserID} {c : Call}
    {r : Response} {o : Outcome} (h : Resumes db currentUser c r o) {u : Upload}
    {ref : Reference} (hn : o.next.creating = some (u, ref)) :
    c.creating = some (u, ref) ∨
      (c = .readPointer u ∧ r = .snapshot ref ∧ db.pointer u.currentUserID u.toID = none ∧
        o.issued = [ref.location, ref.key]) := by
  cases h with
  | missing hm =>
    obtain ⟨rfl, rfl⟩ := Prod.mk.inj (Option.some.inj hn)
    exact .inr ⟨rfl, rfl, hm, rfl⟩
  | created => exact .inl hn
  | ownPointed => exact .inl hn
  | _ => simp [Call.creating] at hn

namespace Repository

/-- No upload of the pair is pending. -/
def Quiet (p : Sym2 UserID) (s : Repository) : Prop :=
  ∀ i c u, s.At i c → c.upload? = some u → u.pair ≠ p

/-- No call is creating a conversation of the pair. -/
def Uncreated (p : Sym2 UserID) (s : Repository) : Prop :=
  ∀ i c u ref, s.At i c → c.creating = some (u, ref) → u.pair ≠ p

theorem quiet_of_calls {p : Sym2 UserID} {s : Repository} (h : ∀ c ∈ s.calls, c.upload? = none) :
    s.Quiet p := fun i c u hc hu => by
  simp [h c (List.mem_of_getElem? hc)] at hu

theorem Quiet.uncreated {p : Sym2 UserID} {s : Repository} (h : s.Quiet p) : s.Uncreated p :=
  fun i c u _ hc hu => h i c u hc (Call.upload?_of_ref? (Call.ref?_of_creating hu))

/-- A location that a pointer holds after a response was there before, or the
    call is creating a conversation there for the two users. -/
theorem Fresh.location_of_written {s : Repository} (hs : s.Fresh) {c : Call} {r : Response}
    {x y : UserID} {L : Key} (h : (written s.db c r).location x y = some L) :
    s.db.location x y = some L ∨
      ∃ u ref, c.creating = some (u, ref) ∧ ref.location = L ∧ s(x, y) = u.pair := by
  rcases hs.written_location c r x y with he | ⟨u, ref, _, hw, ⟨rfl, rfl, rfl⟩ | ⟨rfl, rfl, rfl⟩⟩
  · exact .inl (he ▸ h)
  · exact .inr ⟨u, ref, rfl, Option.some.inj (hw.symm.trans h), rfl⟩
  · exact .inr ⟨u, ref, rfl, Option.some.inj (hw.symm.trans h), Sym2.eq_swap⟩

/-- A response to a call leaves the pointers of a pair alone, unless the call is
    creating a conversation of the pair. -/
theorem Fresh.written_location_of_pair {s : Repository} (hs : s.Fresh) {p : Sym2 UserID} {c : Call}
    (hc : ∀ u ref, c.creating = some (u, ref) → u.pair ≠ p) (r : Response) {x y : UserID}
    (hxy : s(x, y) = p) : (written s.db c r).location x y = s.db.location x y := by
  rcases hs.written_location c r x y with he | ⟨u, ref, _, _, ⟨rfl, rfl, rfl⟩ | ⟨rfl, rfl, rfl⟩⟩
  · exact he
  · exact absurd hxy (hc u ref rfl)
  · exact absurd (Sym2.eq_swap.trans hxy) (hc u ref rfl)

/-- The second pointer written, the two of a pair agree if the first one holds the
    same location. -/
theorem Fresh.agree_pointPeer {s : Repository} (hs : s.Fresh) {u : Upload} {ref : Reference}
    (hown : s.db.location u.currentUserID u.toID = some ref.location) {x y : UserID}
    (hxy : s(x, y) = u.pair) :
    (written s.db (.pointPeer u ref) (.write true)).location x y =
      (written s.db (.pointPeer u ref) (.write true)).location y x := by
  have hpointer : ∀ x y, (written s.db (.pointPeer u ref) (.write true)).location x y = _ :=
    fun x y => hs.pointers.location_updatePointer u.toID u.currentUserID x y ref.location
  have hpeer := (hpointer u.toID u.currentUserID).trans (if_pos ⟨rfl, rfl⟩)
  have hkept : (written s.db (.pointPeer u ref) (.write true)).location u.currentUserID u.toID =
      some ref.location := by
    rw [hpointer, hown, ite_self]
  rcases Sym2.eq_iff.1 hxy with ⟨rfl, rfl⟩ | ⟨rfl, rfl⟩
  · rw [hkept, hpeer]
  · rw [hkept, hpeer]

/-! ## Locations are created once -/

/-- The locations being created are distinct, and no pointer holds one before
    the call that creates it has written its first. -/
structure Drawn (s : Repository) : Prop where
  distinct : ∀ i j c c' u u' ref ref', s.At i c → s.At j c' → c.creating = some (u, ref) →
    c'.creating = some (u', ref') → ref.location = ref'.location → i = j
  unwritten : ∀ i c u ref, s.At i c → c.unpointed = some (u, ref) →
    ∀ x y, s.db.location x y ≠ some ref.location

variable {s : Repository}

theorem drawn_init : machine.init.Drawn where
  distinct _ _ _ _ _ _ _ _ h := absurd h not_at_init
  unwritten _ _ _ _ h := absurd h not_at_init

theorem Drawn.start {a : Action} {c : Call} (h : s.Drawn) (hc : Starts s.currentUser a c) :
    (s.start c).Drawn where
  distinct i j c₁ c₂ u u' ref ref' hi hj hu hu' :=
    h.distinct i j c₁ c₂ u u' ref ref' (at_of_start hc.creating hi hu)
      (at_of_start hc.creating hj hu') hu hu'
  unwritten j c' u ref hj hu :=
    h.unwritten j c' u ref (at_of_start hc.creating hj (Call.creating_of_unpointed hu)) hu

section fire

variable {i : ℕ} {r : Response} {c : Call} {o : Outcome}

/-- A new creation is at a location that no other call holds. -/
theorem Drawn.distinct_fire (h : s.Drawn) (hl : s.Located) (hc : s.At i c)
    (ho : Resumes s.db s.currentUser c r o) (hfresh : ∀ key ∈ o.issued, key ∉ s.issued) {j : ℕ}
    {c' : Call} {u u' : Upload} {ref ref' : Reference} (hj : s.At j c')
    (hu : c'.creating = some (u, ref)) (hu' : o.next.creating = some (u', ref'))
    (he : ref.location = ref'.location) : j = i := by
  rcases ho.creating hu' with hu' | ⟨_, _, _, hissued⟩
  · exact h.distinct j i c' c u u' ref ref' hj hc hu hu' he
  · have hnew : ref'.location ∈ o.issued := hissued ▸ List.mem_cons_self
    exact absurd (he ▸ hl.refs j c' u ref hj (Call.ref?_of_creating hu)) (hfresh _ hnew)

/-- No other call writes the location that a call is creating. -/
theorem Drawn.written_location_ne (h : s.Drawn) (hs : s.Fresh) (hc : s.At i c) (r : Response)
    {j : ℕ} {c' : Call} {u : Upload} {ref : Reference} (hne : j ≠ i) (hj : s.At j c')
    (hu : c'.creating = some (u, ref)) {x y : UserID}
    (hxy : s.db.location x y ≠ some ref.location) :
    (written s.db c r).location x y ≠ some ref.location := by
  intro hw
  rcases hs.location_of_written hw with hloc | ⟨u', ref', hu', he, _⟩
  · exact hxy hloc
  · exact hne (h.distinct j i c' c u u' ref ref' hj hc hu hu' he.symm)

theorem Drawn.unwritten_next (h : s.Drawn) (hl : s.Located) (hc : s.At i c)
    (ho : Resumes s.db s.currentUser c r o) (hfresh : ∀ key ∈ o.issued, key ∉ s.issued)
    {u : Upload} {ref : Reference} (hu : o.next.unpointed = some (u, ref)) (x y : UserID) :
    (written s.db c r).location x y ≠ some ref.location := by
  cases ho with
  | missing hm =>
    obtain ⟨rfl, rfl⟩ := Prod.mk.inj (Option.some.inj hu)
    exact fun hw => hfresh _ List.mem_cons_self (hl.pointers x y _ hw)
  | @created u' ref' ok =>
    have hw : (written s.db (.create u' ref') (.write ok)).location x y = s.db.location x y := by
      cases ok <;> rfl
    exact hw ▸ h.unwritten i _ u ref hc hu x y
  | _ => simp [Call.unpointed] at hu

theorem Drawn.fire (h : s.Drawn) (hs : s.Fresh) (hl : s.Located) (hc : s.At i c)
    (ho : Resumes s.db s.currentUser c r o) (hfresh : ∀ key ∈ o.issued, key ∉ s.issued) :
    (s.fire i c r o).Drawn where
  distinct := by
    intro j j' c₁ c₂ u u' ref ref' hj hj' hu hu' he
    rcases at_set hj with ⟨hi, rfl⟩ | ⟨_, hs₁⟩ <;> rcases at_set hj' with ⟨hi', rfl⟩ | ⟨_, hs₂⟩
    · rw [hi, hi']
    · rw [hi, h.distinct_fire hl hc ho hfresh hs₂ hu' hu he.symm]
    · rw [hi', h.distinct_fire hl hc ho hfresh hs₁ hu hu' he]
    · exact h.distinct j j' c₁ c₂ u u' ref ref' hs₁ hs₂ hu hu' he
  unwritten j c' u ref hj hu x y := by
    rcases at_set hj with ⟨rfl, rfl⟩ | ⟨hne, hj⟩
    · exact h.unwritten_next hl hc ho hfresh hu x y
    · exact h.written_location_ne hs hc r hne hj (Call.creating_of_unpointed hu)
        (h.unwritten j c' u ref hj hu x y)

end fire

theorem Drawn.stop {i : ℕ} (h : s.Drawn) :
    Drawn { s with calls := s.calls.set i .finished } where
  distinct j j' c₁ c₂ u u' ref ref' hj hj' hu hu' :=
    h.distinct j j' c₁ c₂ u u' ref ref' (at_of_stop rfl hj hu) (at_of_stop rfl hj' hu') hu hu'
  unwritten j c' u ref hj hu := h.unwritten j c' u ref (at_of_stop rfl hj hu) hu

theorem drawn_of_reachable (h : machine.Reachable s) : s.Drawn := by
  refine h.invariant (I := Drawn) drawn_init fun s a t hr hd ht => ?_
  cases Step.of_step ht with
  | login => exact ⟨hd.distinct, hd.unwritten⟩
  | logOut => exact ⟨hd.distinct, hd.unwritten⟩
  | start hc => exact hd.start hc
  | fire hc ho _ hfresh =>
    exact hd.fire (fresh_of_reachable hr) (located_of_reachable hr) hc ho hfresh
  | stop => exact hd.stop

end Repository

end MagicChat
