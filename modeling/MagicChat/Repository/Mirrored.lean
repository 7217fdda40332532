import MagicChat.Repository.Pair

/-!
# Mirrored pointers

The two ends of a conversation point to the same location (`Mirrored`) once
nothing is pending, if the two pointer writes of each creation count as one
(`Whole`): both are applied or none is, and no other first pointer of the pair is
written between the two. A call that has written one of its pointers is *half*
done (`Half`): along such runs there is one at most, and the ends agree
whenever there is none (`Paired`).

Nothing in the program makes the writes one: they are separate requests, whose
outcomes nobody looks at.
-/

namespace MagicChat

namespace Repository

/-- The pointers of the pair are both missing, or both hold one location. -/
def Mirrored (p : Sym2 UserID) (db : Database) : Prop :=
  ∀ x y, s(x, y) = p → (db.pointer x y = none ∧ db.pointer y x = none) ∨
    ∃ L, db.location x y = some L ∧ db.location y x = some L

/-- The call `i` has written the pointer of the sender, and is about to write
    that of the addressee. -/
def Half (s : Repository) (i : ℕ) (u : Upload) (ref : Reference) : Prop :=
  s.At i (.pointPeer u ref) ∧ s.db.location u.currentUserID u.toID = some ref.location

/-- The step does not tear the pointer writes of a creation of the pair: the
    first is applied while no call is half done, the second if and only if the
    first was, and a call does not stop half done. -/
def Whole (p : Sym2 UserID) (s : Repository) : Action → Prop
  | .resume i (.write ok) => ∀ u ref, u.pair = p →
    (s.At i (.pointOwn u ref) → ok → ∀ j u' ref', u'.pair = p → ¬s.Half j u' ref') ∧
      (s.At i (.pointPeer u ref) → (ok ↔ s.Half i u ref))
  | .stop i => ∀ u ref, u.pair = p → ¬s.Half i u ref
  | _ => True

/-- One call of the pair at most is half done, and the pointers agree if none is. -/
structure Paired (p : Sym2 UserID) (s : Repository) : Prop where
  unique : ∀ i j u u' ref ref', s.Half i u ref → s.Half j u' ref' → u.pair = p → u'.pair = p →
    i = j
  agree : (∀ i u ref, u.pair = p → ¬s.Half i u ref) → ∀ x y, s(x, y) = p →
    s.db.location x y = s.db.location y x

variable {p : Sym2 UserID} {s : Repository}

theorem paired_init : machine.init.Paired p where
  unique _ _ _ _ _ _ h := absurd h.1 not_at_init
  agree _ _ _ _ := rfl

/-- The calls that are half done and the pointers are all that matters. -/
theorem Paired.congr {t : Repository} (h : s.Paired p)
    (hhalf : ∀ i u ref, u.pair = p → (t.Half i u ref ↔ s.Half i u ref))
    (hloc : ∀ x y, s(x, y) = p → t.db.location x y = s.db.location x y) : t.Paired p where
  unique i j u u' ref ref' hi hj hp hp' :=
    h.unique i j u u' ref ref' ((hhalf i u ref hp).1 hi) ((hhalf j u' ref' hp').1 hj) hp hp'
  agree hn x y hxy := by
    rw [hloc x y hxy, hloc y x (Sym2.eq_swap.trans hxy)]
    exact h.agree (fun i u ref hp hi => hn i u ref hp ((hhalf i u ref hp).2 hi)) x y hxy

theorem Paired.start {a : Action} {c : Call} (h : s.Paired p) (hc : Starts s.currentUser a c) :
    (s.start c).Paired p := by
  refine h.congr (fun i u ref _ => ⟨fun hi => ⟨?_, hi.2⟩, fun hi => ⟨at_start_of_at hi.1, hi.2⟩⟩)
    fun _ _ _ => rfl
  rcases at_start hi.1 with hi | ⟨_, rfl⟩
  · exact hi
  · exact absurd hc.creating (by simp [Call.creating])

theorem Paired.stop {i : ℕ} (h : s.Paired p) (hw : s.Whole p (.stop i)) :
    Paired p { s with calls := s.calls.set i .finished } := by
  refine h.congr (fun j u ref hp => ⟨fun hj => ⟨?_, hj.2⟩, fun hj => ⟨?_, hj.2⟩⟩) fun _ _ _ => rfl
  · rcases at_set hj.1 with ⟨_, he⟩ | ⟨_, hj⟩
    · cases he
    · exact hj
  · have hij : i ≠ j := by
      rintro rfl
      exact hw u ref hp hj
    exact at_set_of_ne (Ne.symm hij) hj.1

section fire

variable {i : ℕ} {r : Response} {c : Call} {o : Outcome}

/-- A step makes no other call half done. -/
theorem half_of_fire (hd : s.Drawn) (hs : s.Fresh) (hc : s.At i c) {j : ℕ} {u : Upload}
    {ref : Reference} (hne : j ≠ i) (hj : (s.fire i c r o).Half j u ref) : s.Half j u ref := by
  have hj' : s.At j (.pointPeer u ref) := (List.getElem?_set_ne hne.symm).symm.trans hj.1
  refine ⟨hj', by_contra fun hn => ?_⟩
  exact hd.written_location_ne hs hc r hne hj' rfl hn hj.2

/-- A step that does not tear a creation leaves the other calls half done. -/
theorem Paired.half_fire (h : s.Paired p) (hs : s.Fresh) (hc : s.At i c)
    (hw : s.Whole p (.resume i r)) {j : ℕ} {u : Upload} {ref : Reference} (hp : u.pair = p)
    (hne : j ≠ i) (hj : s.Half j u ref) : (s.fire i c r o).Half j u ref := by
  refine ⟨at_set_of_ne hne hj.1, ?_⟩
  change (written s.db c r).location _ _ = _
  rcases hs.written_location c r u.currentUserID u.toID with
    he | ⟨u', ref', rfl, _, ⟨rfl, hx, hy⟩ | ⟨rfl, hx, hy⟩⟩
  · exact he.trans hj.2
  · -- The first pointer of another call would be written while this one is half done.
    have hp' : u'.pair = p := by rw [← hp, Upload.pair, Upload.pair, hx, hy]
    exact absurd hj ((hw u' ref' hp').1 hc rfl j u ref hp)
  · -- The other call would be half done as well.
    have hp' : u'.pair = p := by rw [← hp, Upload.pair, Upload.pair, hx, hy, Sym2.eq_swap]
    have hi : s.Half i u' ref' := ((hw u' ref' hp').2 hc).1 rfl
    exact absurd (h.unique j i u u' ref ref' hj hi hp hp') hne

/-- A call becomes half done by writing its first pointer. -/
theorem half_next (hd : s.Drawn) (hc : s.At i c) (ho : Resumes s.db s.currentUser c r o)
    {u : Upload} {ref : Reference} (hi : (s.fire i c r o).Half i u ref) :
    c = .pointOwn u ref ∧ r = .write true := by
  have hnext : o.next = .pointPeer u ref :=
    Option.some.inj ((at_set_self hc).symm.trans hi.1)
  cases ho with
  | @ownPointed u' ref' ok =>
    obtain ⟨rfl, rfl⟩ := Call.pointPeer.inj hnext
    cases ok with
    | true => exact ⟨rfl, rfl⟩
    | false => exact absurd hi.2 (hd.unwritten i _ u' ref' hc rfl _ _)
  | _ => cases hnext

theorem Paired.agree_fire (h : s.Paired p) (hs : s.Fresh) (hc : s.At i c)
    (ho : Resumes s.db s.currentUser c r o) (hw : s.Whole p (.resume i r))
    (hn : ∀ j u ref, u.pair = p → ¬(s.fire i c r o).Half j u ref) {x y : UserID}
    (hxy : s(x, y) = p) :
    (written s.db c r).location x y = (written s.db c r).location y x := by
  by_cases hi : ∃ u ref, u.pair = p ∧ s.Half i u ref
  · -- The half done call is the one that moves, and it writes its second pointer.
    obtain ⟨u, ref, hp, hhalf⟩ := hi
    obtain rfl : c = .pointPeer u ref := Option.some.inj (hc.symm.trans hhalf.1)
    cases ho with
    | @peerPointed _ _ ok =>
      obtain rfl : ok = true := ((hw u ref hp).2 hc).2 hhalf
      exact hs.agree_pointPeer hhalf.2 (hxy.trans hp.symm)
  · -- No call was half done, and no pointer of the pair is written.
    have hnone : ∀ j u ref, u.pair = p → ¬s.Half j u ref := by
      intro j u ref hp hj
      by_cases hji : j = i
      · exact hi ⟨u, ref, hp, hji ▸ hj⟩
      · exact hn j u ref hp (h.half_fire hs hc hw hp hji hj)
    have hkeep : ∀ x y, s(x, y) = p → (written s.db c r).location x y = s.db.location x y := by
      intro x y hxy
      rcases hs.written_location c r x y with
        he | ⟨u, ref, rfl, hloc, ⟨rfl, hx, hy⟩ | ⟨rfl, hx, hy⟩⟩
      · exact he
      · -- A first pointer: the call would be half done now.
        have hp : u.pair = p := by rw [← hxy, Upload.pair, hx, hy]
        cases ho with
        | ownPointed =>
          refine absurd ⟨at_set_self hc, ?_⟩ (hn i u ref hp)
          exact hx ▸ hy ▸ hloc
      · -- A second pointer: the call would have been half done.
        have hp : u.pair = p := by rw [← hxy, Upload.pair, hx, hy, Sym2.eq_swap]
        exact absurd (((hw u ref hp).2 hc).1 rfl) (hnone i u ref hp)
    rw [hkeep x y hxy, hkeep y x (Sym2.eq_swap.trans hxy), h.agree hnone x y hxy]

theorem Paired.fire (h : s.Paired p) (hd : s.Drawn) (hs : s.Fresh) (hc : s.At i c)
    (ho : Resumes s.db s.currentUser c r o) (hw : s.Whole p (.resume i r)) :
    (s.fire i c r o).Paired p where
  unique := by
    -- A call that has become half done is alone.
    have new : ∀ j u u' ref ref', (s.fire i c r o).Half i u ref → s.Half j u' ref' → u.pair = p →
        u'.pair ≠ p := by
      intro j u u' ref ref' hi hj hp hp'
      obtain ⟨rfl, rfl⟩ := half_next hd hc ho hi
      exact (hw u ref hp).1 hc rfl j u' ref' hp' hj
    intro j j' u u' ref ref' hj hj' hp hp'
    by_cases hji : j = i
    · subst hji
      by_contra hne
      exact new j' u u' ref ref' hj (half_of_fire hd hs hc (Ne.symm hne) hj') hp hp'
    · have hs₁ := half_of_fire hd hs hc hji hj
      by_cases hji' : j' = i
      · subst hji'
        exact absurd hp (new j u' u ref' ref hj' hs₁ hp')
      · exact h.unique j j' u u' ref ref' hs₁ (half_of_fire hd hs hc hji' hj') hp hp'
  agree hn _ _ := h.agree_fire hs hc ho hw hn

end fire

theorem Paired.step {a : Action} {t : Repository} (h : s.Paired p) (hd : s.Drawn) (hs : s.Fresh)
    (hw : s.Whole p a) (ht : s.Step a t) : t.Paired p := by
  cases ht with
  | login => exact ⟨h.unique, h.agree⟩
  | logOut => exact ⟨h.unique, h.agree⟩
  | start hc => exact h.start hc
  | fire hc ho _ _ => exact h.fire hd hs hc ho hw
  | stop => exact h.stop hw

/-- In a run whose steps do not tear the pointer writes of a creation, the two
    ends of the conversation agree whenever no upload of the pair is pending. -/
theorem mirrored_of_whole {as : List Action} (hw : machine.Along (Whole p) as)
    (h : machine.exec as = some s) (hq : s.Quiet p) : Mirrored p s.db := by
  have hpaired : s.Paired p := hw.invariant paired_init
    (fun _ _ _ hr hi ha ht =>
      hi.step (drawn_of_reachable hr) (fresh_of_reachable hr) ha (.of_step ht))
    h
  have hnone : ∀ i u ref, u.pair = p → ¬s.Half i u ref := fun i u ref hp hi =>
    hq i _ u hi.1 rfl hp
  have hwf := (fresh_of_reachable ⟨as, h⟩).pointers
  intro x y hxy
  have hagree := hpaired.agree hnone x y hxy
  cases hL : s.db.location x y with
  | none =>
    exact .inl ⟨hwf.location_eq_none_iff.1 hL, hwf.location_eq_none_iff.1 (hagree ▸ hL)⟩
  | some L => exact .inr ⟨L, rfl, hagree ▸ hL⟩

/-- A first message and its answer, whose writes are all applied, tear nothing. -/
theorem mirrored_firstAnswer : ∃ s, machine.exec firstAnswer = some s ∧
    Mirrored s("u", "v") s.db := by
  have hw : machine.Along (Whole s("u", "v")) firstAnswer := by
    refine Machine.along_iff_alongFrom.2 ?_
    -- Logging in, sending and reading the pointer write nothing.
    refine .cons trivial rfl (.cons trivial rfl (.cons trivial rfl (.cons trivial rfl ?_)))
    refine .cons (fun u ref _ => ⟨nofun, nofun⟩) rfl ?_
    refine .cons (fun u ref _ => ⟨?_, nofun⟩) rfl (.cons (fun u ref _ => ⟨nofun, ?_⟩) rfl ?_)
    · rintro _ _ (_ | j) u' ref' _ ⟨hj, _⟩ <;> cases hj
    · intro hc
      obtain ⟨rfl, rfl⟩ := Call.pointPeer.inj (Option.some.inj hc)
      exact ⟨fun _ => ⟨rfl, rfl⟩, fun _ => rfl⟩
    -- The answer writes no pointer.
    · refine .cons trivial rfl (.cons trivial rfl ?_)
      exact .cons (fun u ref _ => ⟨nofun, nofun⟩) rfl trivial
  exact ⟨_, rfl, mirrored_of_whole hw rfl (quiet_of_calls (by decide))⟩

/-- `u` and `v` create their conversation at the same time, and write the two
    pointers in opposite orders. -/
def crossing : List Action :=
  [.loginUser 0 "u", .loginUser 1 "v",
    .send 0 (composeMessage .text (.field (.string "hi")) 1) "v",
    .send 1 (composeMessage .text (.field (.string "hello")) 1) "u",
    .resume 0 (.snapshot ⟨"L0", "k0"⟩), .resume 1 (.snapshot ⟨"L1", "k1"⟩),
    .resume 0 (.write true), .resume 1 (.write true),
    .resume 0 (.write true), .resume 1 (.write true),
    .resume 0 (.write true), .resume 1 (.write true)]

/-- Every write has been applied, and the two ends have swapped locations. -/
theorem not_mirrored_crossing : ∃ s, machine.exec crossing = some s ∧ s.Quiet s("u", "v") ∧
    ¬Mirrored s("u", "v") s.db := by
  refine ⟨_, rfl, quiet_of_calls (by decide), fun h => ?_⟩
  rcases h "u" "v" rfl with ⟨hn, _⟩ | ⟨L, hu, hv⟩
  · exact absurd hn (by decide)
  · exact absurd (hu.trans hv.symm) (by decide)

end Repository

end MagicChat
