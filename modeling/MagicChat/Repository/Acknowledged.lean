import MagicChat.Repository.Pair

/-!
# Acknowledged messages

A user who sees an upload completed expects the message in the conversation that
both users read (`Completion.Kept`). That is so in the runs in which the
conversation of the pair has one creation at a time (`Alone`), and in no other
(`acknowledged_iff`):

* along such runs, the pointers of the pair are written once, by the one call
  that creates its conversation, and every other upload appends to the location
  they hold (`Settled`);
* two creations at a time draw two locations (`Split`), both are acknowledged,
  and the pointers hold one location at most.

The program does not prevent the second creation: the pointer is read, found
missing, and written by separate requests, never in a transaction.
-/

namespace MagicChat

/-- The record of a completed upload is stored, at the location that both
    pointers of the pair hold. -/
def Completion.Kept (db : Database) (c : Completion) : Prop :=
  Repository.Stored db c.ref c.upload.values ∧
    db.location c.upload.currentUserID c.upload.toID = some c.ref.location ∧
    db.location c.upload.toID c.upload.currentUserID = some c.ref.location

/-- What a call with a reference relies on, if its pair has one creation at a time. -/
def Call.Sound (db : Database) : Call → Prop
  | .append u ref => db.location u.currentUserID u.toID = some ref.location
  | .create u _ =>
    db.location u.currentUserID u.toID = none ∧ db.location u.toID u.currentUserID = none
  | .pointOwn u ref =>
    Repository.Stored db ref u.values ∧
      db.location u.currentUserID u.toID = none ∧ db.location u.toID u.currentUserID = none
  | .pointPeer u ref =>
    Repository.Stored db ref u.values ∧
      db.location u.currentUserID u.toID = some ref.location ∧
      ∀ L, db.location u.toID u.currentUserID = some L → L = ref.location
  | _ => True

namespace Repository

/-- The action is neither a failing write nor a client that stops. -/
def Action.succeeds : Action → Bool
  | .resume _ (.write ok) => ok
  | .stop _ => false
  | _ => true

/-- An upload of the pair that finds no pointer does so while no other call is
    creating a conversation of the pair. -/
def Alone (p : Sym2 UserID) (s : Repository) (a : Action) : Prop :=
  ∀ i autoID u, a = .resume i (.snapshot autoID) → s.At i (.readPointer u) → u.pair = p →
    s.db.pointer u.currentUserID u.toID = none → s.Uncreated p

/-! ## One creation at a time -/

/-- The conversation of the pair has one creation at a time. -/
structure Settled (p : Sym2 UserID) (s : Repository) : Prop where
  unique : ∀ i j c c' u u' ref ref', s.At i c → s.At j c' → c.creating = some (u, ref) →
    c'.creating = some (u', ref') → u.pair = p → u'.pair = p → i = j
  sound : ∀ i c u ref, s.At i c → c.ref? = some (u, ref) → u.pair = p → c.Sound s.db
  agree : s.Uncreated p → ∀ x y, s(x, y) = p → s.db.location x y = s.db.location y x
  acknowledged : ∀ c ∈ s.completions, c.upload.pair = p → c.status = true →
    Stored s.db c.ref c.upload.values ∧
      (s.db.location c.upload.currentUserID c.upload.toID = some c.ref.location ∨
        ∃ i, s.At i (.pointOwn c.upload c.ref))

variable {p : Sym2 UserID} {s : Repository}

theorem settled_init : machine.init.Settled p where
  unique _ _ _ _ _ _ _ _ h := absurd h not_at_init
  sound _ _ _ _ h := absurd h not_at_init
  agree _ _ _ _ := rfl
  acknowledged _ h := by simp [machine] at h

theorem Settled.start {a : Action} {c : Call} (h : s.Settled p) (hc : Starts s.currentUser a c) :
    (s.start c).Settled p where
  unique i j c₁ c₂ u u' ref ref' hi hj hu hu' :=
    h.unique i j c₁ c₂ u u' ref ref' (at_of_start hc.creating hi hu)
      (at_of_start hc.creating hj hu') hu hu'
  sound j c' u ref hj hu := h.sound j c' u ref (at_of_start hc.ref? hj hu) hu
  agree hn := h.agree fun i c' u ref hi => hn i c' u ref (at_start_of_at hi)
  acknowledged e he hp hstatus := by
    obtain ⟨hst, hloc⟩ := h.acknowledged e he hp hstatus
    refine ⟨hst, hloc.imp_right ?_⟩
    rintro ⟨i, hi⟩
    exact ⟨i, at_start_of_at hi⟩

section fire

variable {i : ℕ} {r : Response} {c : Call} {o : Outcome}

/-- A pointer of the pair is never moved. -/
theorem Settled.location_keep (h : s.Settled p) (hs : s.Fresh) (hc : s.At i c) (r : Response)
    {x y : UserID} {L : Key} (hxy : s(x, y) = p) (hL : s.db.location x y = some L) :
    (written s.db c r).location x y = some L := by
  rcases hs.written_location c r x y with he | ⟨u, ref, _, hw, ⟨rfl, rfl, rfl⟩ | ⟨rfl, rfl, rfl⟩⟩
  · rw [he, hL]
  · obtain ⟨_, hnone, _⟩ := h.sound i _ u ref hc rfl hxy
    simp [hnone] at hL
  · obtain ⟨_, _, hpeer⟩ := h.sound i _ u ref hc rfl (Sym2.eq_swap.trans hxy)
    rw [hw, hpeer L hL]

/-- What the other calls of the pair rely on stays. -/
theorem Settled.sound_of_ne (h : s.Settled p) (hs : s.Fresh) (hc : s.At i c) (r : Response) {j : ℕ}
    {c' : Call} {u : Upload} {ref : Reference} (hne : j ≠ i) (hj : s.At j c')
    (hu : c'.ref? = some (u, ref)) (hp : u.pair = p) : c'.Sound (written s.db c r) := by
  have hsound := h.sound j c' u ref hj hu hp
  by_cases hcr : c'.creating = some (u, ref)
  · -- The other call is the creation of the pair, so this one is not.
    have hother : ∀ u' ref', c.creating = some (u', ref') → u'.pair ≠ p := fun u' ref' hu' hp' =>
      hne (h.unique j i c' c u u' ref ref' hj hc hcr hu' hp hp')
    have hloc : ∀ {x y}, s(x, y) = p → (written s.db c r).location x y = s.db.location x y :=
      fun hxy => hs.written_location_of_pair hother r hxy
    cases c' with
    | create u' ref' =>
      obtain ⟨rfl, rfl⟩ := Prod.mk.inj (Option.some.inj hu)
      exact ⟨(hloc hp).trans hsound.1, (hloc (Sym2.eq_swap.trans hp)).trans hsound.2⟩
    | pointOwn u' ref' =>
      obtain ⟨rfl, rfl⟩ := Prod.mk.inj (Option.some.inj hu)
      exact ⟨hs.written_stored hc r hsound.1, (hloc hp).trans hsound.2.1,
        (hloc (Sym2.eq_swap.trans hp)).trans hsound.2.2⟩
    | pointPeer u' ref' =>
      obtain ⟨rfl, rfl⟩ := Prod.mk.inj (Option.some.inj hu)
      refine ⟨hs.written_stored hc r hsound.1, (hloc hp).trans hsound.2.1, fun L hL => ?_⟩
      exact hsound.2.2 L ((hloc (Sym2.eq_swap.trans hp)).symm.trans hL)
    | _ => simp [Call.creating] at hcr
  · cases c' with
    | append u' ref' =>
      obtain ⟨rfl, rfl⟩ := Prod.mk.inj (Option.some.inj hu)
      exact h.location_keep hs hc r hp hsound
    | create => exact absurd hu hcr
    | pointOwn => exact absurd hu hcr
    | pointPeer => exact absurd hu hcr
    | _ => simp [Call.ref?] at hu

/-- A record that has just been written is stored. -/
theorem stored_setMessage (db : Database) (ref : Reference) (values : Fields) :
    Stored (db.after (.setMessage ref values)) ref values :=
  ⟨_, (Database.message_setMessage ..).trans (if_pos rfl), .refl _⟩

/-- What the call itself relies on next. -/
theorem Settled.sound_next (h : s.Settled p) (hs : s.Fresh) (hc : s.At i c)
    (ho : Resumes s.db s.currentUser c r o) (hr : (Action.resume i r).succeeds)
    (ha : s.Alone p (.resume i r)) {u : Upload} {ref : Reference}
    (hu : o.next.ref? = some (u, ref)) (hp : u.pair = p) : o.next.Sound (written s.db c r) := by
  cases ho with
  | located hl => exact hl
  | missing hm =>
    -- No other creation is under way, so the pointer of the peer is missing as well.
    obtain ⟨rfl, rfl⟩ := Prod.mk.inj (Option.some.inj hu)
    have hnone : s.db.location _ _ = none := hs.pointers.location_eq_none_iff.2 hm
    exact ⟨hnone, (h.agree (ha i _ _ rfl hc hp hm) _ _ hp).symm.trans hnone⟩
  | created =>
    obtain ⟨rfl, rfl⟩ := Prod.mk.inj (Option.some.inj hu)
    obtain rfl := hr
    exact ⟨stored_setMessage .., h.sound i _ _ _ hc rfl hp⟩
  | @ownPointed u' ref' =>
    obtain ⟨rfl, rfl⟩ := Prod.mk.inj (Option.some.inj hu)
    obtain rfl := hr
    have hsound := h.sound i _ _ _ hc rfl hp
    have hw : ∀ x y, (written s.db (.pointOwn u' ref') (.write true)).location x y = _ :=
      fun x y => hs.pointers.location_updatePointer u'.currentUserID u'.toID x y ref'.location
    refine ⟨hs.written_stored hc _ hsound.1, (hw _ _).trans (if_pos ⟨rfl, rfl⟩), fun L hL => ?_⟩
    rw [hw] at hL
    split_ifs at hL
    · exact (Option.some.inj hL).symm
    · simp [hsound.2.2] at hL
  | _ => simp [Call.ref?] at hu

/-- The creation of the pair, if any, is still one. -/
theorem Settled.unique_fire (h : s.Settled p) (hc : s.At i c)
    (ho : Resumes s.db s.currentUser c r o) (ha : s.Alone p (.resume i r)) {j : ℕ} {c' : Call}
    {u u' : Upload} {ref ref' : Reference} (hj : s.At j c') (hu : c'.creating = some (u, ref))
    (hu' : o.next.creating = some (u', ref')) (hp : u.pair = p) (hp' : u'.pair = p) : j = i := by
  rcases ho.creating hu' with hu' | ⟨rfl, rfl, hm, _⟩
  · exact h.unique j i c' c u u' ref ref' hj hc hu hu' hp hp'
  · exact absurd hp (ha i ref' u' rfl hc hp' hm j c' u ref hj hu)

/-- When nobody creates the conversation of the pair any more, the pointers agree. -/
theorem Settled.agree_fire (h : s.Settled p) (hs : s.Fresh) (hc : s.At i c)
    (ho : Resumes s.db s.currentUser c r o) (hr : (Action.resume i r).succeeds)
    (hn : (s.fire i c r o).Uncreated p) {x y : UserID} (hxy : s(x, y) = p) :
    (written s.db c r).location x y = (written s.db c r).location y x := by
  have hnext : (s.fire i c r o).At i o.next := at_set_self hc
  by_cases hcr : ∀ u ref, c.creating = some (u, ref) → u.pair ≠ p
  · -- The call has not created it, and nobody else has.
    have hs' : s.Uncreated p := by
      intro j c' u ref hj hu
      by_cases hji : j = i
      · subst hji
        obtain rfl : c' = c := Option.some.inj (hj.symm.trans hc)
        exact hcr u ref hu
      · exact hn j c' u ref (at_set_of_ne hji hj) hu
    rw [hs.written_location_of_pair hcr r hxy,
      hs.written_location_of_pair hcr r (Sym2.eq_swap.trans hxy), h.agree hs' x y hxy]
  · -- The call has created it: it has just written the second pointer.
    push Not at hcr
    obtain ⟨u, ref, hu, hp⟩ := hcr
    cases ho with
    | created => exact absurd hp (hn i _ u ref hnext hu)
    | ownPointed => exact absurd hp (hn i _ u ref hnext hu)
    | @peerPointed u' ref' =>
      obtain ⟨rfl, rfl⟩ := Prod.mk.inj (Option.some.inj hu)
      obtain rfl := hr
      have hown := (h.sound i _ u' ref' hc rfl hp).2.1
      exact hs.agree_pointPeer hown (hxy.trans hp.symm)
    | _ => simp [Call.creating] at hu

/-- The pointer of the sender is where its call has written it. -/
theorem Fresh.location_pointOwn (hs : s.Fresh) (u : Upload) (ref : Reference) :
    (written s.db (.pointOwn u ref) (.write true)).location u.currentUserID u.toID =
      some ref.location :=
  (hs.pointers.location_updatePointer ..).trans (if_pos ⟨rfl, rfl⟩)

/-- What has been acknowledged stays stored, and the pointer of the sender leads
    there, or is about to. -/
theorem Settled.acknowledged_fire (h : s.Settled p) (hs : s.Fresh) (hc : s.At i c)
    (ho : Resumes s.db s.currentUser c r o) (hr : (Action.resume i r).succeeds) {e : Completion}
    (he : e ∈ (s.fire i c r o).completions) (hp : e.upload.pair = p) (hstatus : e.status = true) :
    Stored (written s.db c r) e.ref e.upload.values ∧
      ((written s.db c r).location e.upload.currentUserID e.upload.toID = some e.ref.location ∨
        ∃ j, (s.fire i c r o).At j (.pointOwn e.upload e.ref)) := by
  rcases List.mem_append.1 he with he | he
  · obtain ⟨hst, hloc⟩ := h.acknowledged e he hp hstatus
    refine ⟨hs.written_stored hc r hst, ?_⟩
    rcases hloc with hloc | ⟨j, hj⟩
    · exact .inl (h.location_keep hs hc r hp hloc)
    · by_cases hji : j = i
      · -- The pointer is written in this step.
        subst hji
        obtain rfl : Call.pointOwn e.upload e.ref = c := Option.some.inj (hj.symm.trans hc)
        cases ho with
        | ownPointed =>
          obtain rfl := hr
          exact .inl (hs.location_pointOwn e.upload e.ref)
      · exact .inr ⟨j, at_set_of_ne hji hj⟩
  · rcases ho.completion (Option.mem_toList.1 he) with ⟨rfl, rfl⟩ | ⟨rfl, hnext, ok, rfl⟩
    · rw [hstatus]
      exact ⟨stored_setMessage .., .inl (h.sound i _ _ _ hc rfl hp)⟩
    · obtain rfl := hr
      exact ⟨stored_setMessage .., .inr ⟨i, hnext ▸ at_set_self hc⟩⟩

theorem Settled.fire (h : s.Settled p) (hs : s.Fresh) (hc : s.At i c)
    (ho : Resumes s.db s.currentUser c r o) (hr : (Action.resume i r).succeeds)
    (ha : s.Alone p (.resume i r)) : (s.fire i c r o).Settled p where
  unique := by
    intro j j' c₁ c₂ u u' ref ref' hj hj' hu hu' hp hp'
    rcases at_set hj with ⟨hi, rfl⟩ | ⟨_, hs₁⟩ <;> rcases at_set hj' with ⟨hi', rfl⟩ | ⟨_, hs₂⟩
    · rw [hi, hi']
    · rw [hi, h.unique_fire hc ho ha hs₂ hu' hu hp' hp]
    · rw [hi', h.unique_fire hc ho ha hs₁ hu hu' hp hp']
    · exact h.unique j j' c₁ c₂ u u' ref ref' hs₁ hs₂ hu hu' hp hp'
  sound j c' u ref hj hu hp := by
    rcases at_set hj with ⟨rfl, rfl⟩ | ⟨hne, hj⟩
    · exact h.sound_next hs hc ho hr ha hu hp
    · exact h.sound_of_ne hs hc r hne hj hu hp
  agree hn _ _ := h.agree_fire hs hc ho hr hn
  acknowledged _ := h.acknowledged_fire hs hc ho hr

end fire

theorem Settled.step {a : Action} {t : Repository} (h : s.Settled p) (hs : s.Fresh)
    (ha : s.Alone p a) (hsucc : a.succeeds) (ht : s.Step a t) : t.Settled p := by
  cases ht with
  | login => exact ⟨h.unique, h.sound, h.agree, h.acknowledged⟩
  | logOut => exact ⟨h.unique, h.sound, h.agree, h.acknowledged⟩
  | start hc => exact h.start hc
  | fire hc ho _ _ => exact h.fire hs hc ho hsucc ha
  | stop => simp [Action.succeeds] at hsucc

/-- Without a creation in flight, what has been acknowledged is kept. -/
theorem Settled.kept (h : s.Settled p) (hq : s.Uncreated p) {c : Completion}
    (hc : c ∈ s.completions) (hp : c.upload.pair = p) (hstatus : c.status = true) :
    c.Kept s.db := by
  obtain ⟨hst, hown | ⟨i, hi⟩⟩ := h.acknowledged c hc hp hstatus
  · exact ⟨hst, hown, (h.agree hq _ _ hp).symm.trans hown⟩
  · exact absurd hp (hq i _ c.upload c.ref hi rfl)

/-! ## Two creations at a time -/

/-- The upload is about to store the first record of a conversation, or has been
    acknowledged with it. -/
def Creates (s : Repository) (u : Upload) (ref : Reference) : Prop :=
  (∃ i, s.At i (.create u ref)) ∨ ⟨u, ref, true⟩ ∈ s.completions

/-- Two uploads of the pair create conversations at different locations. -/
def Split (p : Sym2 UserID) (s : Repository) : Prop :=
  ∃ u u' ref ref', s.Creates u ref ∧ s.Creates u' ref' ∧ u.pair = p ∧ u'.pair = p ∧
    ref.location ≠ ref'.location

theorem Creates.step {a : Action} {t : Repository} {u : Upload} {ref : Reference}
    (h : s.Creates u ref) (hsucc : a.succeeds) (ht : s.Step a t) : t.Creates u ref := by
  cases ht with
  | login => exact h
  | logOut => exact h
  | start hc =>
    rcases h with ⟨i, hi⟩ | h
    · exact .inl ⟨i, at_start_of_at hi⟩
    · exact .inr h
  | @fire i r c o hc ho =>
    rcases h with ⟨j, hj⟩ | h
    · by_cases hji : j = i
      · subst hji
        obtain rfl : Call.create u ref = c := Option.some.inj (hj.symm.trans hc)
        cases ho with
        | created => exact .inr (List.mem_append_right _ (List.mem_singleton_self _))
      · exact .inl ⟨j, at_set_of_ne hji hj⟩
    · exact .inr (List.mem_append_left _ h)
  | stop => simp [Action.succeeds] at hsucc

/-- A call that creates a conversation has been acknowledged, unless it is about
    to store the first record. -/
def Completed (s : Repository) : Prop :=
  ∀ i c u ref, s.At i c → c.creating = some (u, ref) →
    c = .create u ref ∨ ⟨u, ref, true⟩ ∈ s.completions

theorem Completed.step {a : Action} {t : Repository} (h : s.Completed) (ht : s.Step a t) :
    t.Completed := by
  cases ht with
  | login => exact h
  | logOut => exact h
  | start hc => exact fun j c' u ref hj hu => h j c' u ref (at_of_start hc.creating hj hu) hu
  | @fire i r c o hc ho =>
    intro j c' u ref hj hu
    rcases at_set hj with ⟨rfl, rfl⟩ | ⟨_, hj⟩
    · cases ho with
      | missing =>
        obtain ⟨rfl, rfl⟩ := Prod.mk.inj (Option.some.inj hu)
        exact .inl rfl
      | created =>
        obtain ⟨rfl, rfl⟩ := Prod.mk.inj (Option.some.inj hu)
        exact .inr (List.mem_append_right _ (List.mem_singleton_self _))
      | ownPointed =>
        rcases h j _ u ref hc hu with he | hmem
        · cases he
        · exact .inr (List.mem_append_left _ hmem)
      | _ => simp [Call.creating] at hu
    · exact (h j c' u ref hj hu).imp_right (List.mem_append_left _)
  | stop => exact fun j c' u ref hj hu => h j c' u ref (at_of_stop rfl hj hu) hu

theorem completed_of_reachable (h : machine.Reachable s) : s.Completed :=
  h.invariant (I := Completed) (fun _ _ _ _ h => absurd h not_at_init)
    fun _ _ _ _ hi ht => hi.step (.of_step ht)

theorem Split.step {a : Action} {t : Repository} (h : s.Split p) (hsucc : a.succeeds)
    (ht : s.Step a t) : t.Split p := by
  obtain ⟨u, u', ref, ref', hu, hu', hrest⟩ := h
  exact ⟨u, u', ref, ref', hu.step hsucc ht, hu'.step hsucc ht, hrest⟩

/-- A second creation draws a second location. -/
theorem split_of_not_alone {a : Action} {t : Repository} (hl : s.Located) (hcomp : s.Completed)
    (ha : ¬s.Alone p a) (ht : s.Step a t) : t.Split p := by
  simp only [Alone, Uncreated, not_forall, not_not] at ha
  obtain ⟨i, autoID, u, rfl, hi, hp, hm, j, c', u', ref', hj, hu', hp'⟩ := ha
  cases ht with
  | start hc => cases hc
  | @fire _ _ c o hc ho _ hfresh =>
    obtain rfl : Call.readPointer u = c := Option.some.inj (hi.symm.trans hc)
    have hji : j ≠ i := by
      rintro rfl
      obtain rfl : c' = .readPointer u := Option.some.inj (hj.symm.trans hi)
      simp [Call.creating] at hu'
    have hnext : (s.fire i (.readPointer u) (.snapshot autoID) o).At i o.next := at_set_self hi
    have hother : (s.fire i (.readPointer u) (.snapshot autoID) o).Creates u' ref' := by
      rcases hcomp j c' u' ref' hj hu' with rfl | hmem
      · exact .inl ⟨j, at_set_of_ne hji hj⟩
      · exact .inr (List.mem_append_left _ hmem)
    have hissued : ref'.location ∈ s.issued :=
      hl.refs j c' u' ref' hj (Call.ref?_of_creating hu')
    cases ho with
    | located hloc => simp [Database.location, hm] at hloc
    | malformed hn => exact absurd hm hn
    | missing =>
      refine ⟨u, u', autoID, ref', .inl ⟨i, hnext⟩, hother, hp, hp', ?_⟩
      intro he
      exact hfresh autoID.location List.mem_cons_self (he ▸ hissued)

/-- Of two locations, the pointers hold one at most. -/
theorem Split.not_kept (h : s.Split p) (hq : s.Uncreated p) :
    ¬∀ c ∈ s.completions, c.upload.pair = p → c.status = true → c.Kept s.db := by
  intro hk
  obtain ⟨u, u', ref, ref', hu, hu', hp, hp', hne⟩ := h
  have kept : ∀ {u ref}, s.Creates u ref → u.pair = p →
      ∀ x y, s(x, y) = p → s.db.location x y = some ref.location := by
    intro u ref hu hp x y hxy
    rcases hu with ⟨i, hi⟩ | hmem
    · exact absurd hp (hq i _ u ref hi rfl)
    · obtain ⟨_, hown, hpeer⟩ := hk _ hmem hp rfl
      rcases Sym2.eq_iff.1 (hxy.trans hp.symm) with ⟨rfl, rfl⟩ | ⟨rfl, rfl⟩
      · exact hown
      · exact hpeer
  exact hne (Option.some.inj ((kept hu hp _ _ hp).symm.trans (kept hu' hp' _ _ hp)))

/-- In a run in which every write succeeds, once no upload of the pair is
    pending: all that has been acknowledged is kept if and only if the
    conversation of the pair has had one creation at a time. -/
theorem acknowledged_iff {as : List Action} (hsucc : ∀ a ∈ as, a.succeeds)
    (h : machine.exec as = some s) (hq : s.Quiet p) :
    (∀ c ∈ s.completions, c.upload.pair = p → c.status = true → c.Kept s.db) ↔
      machine.Along (Alone p) as := by
  constructor
  · refine fun hk => by_contra fun hn => ?_
    obtain ⟨r, a, t, bs, hr, ha, hbreak, ht, hbs, hs⟩ := Machine.exists_of_not_along h hn
    have hsplit : t.Split p := split_of_not_alone (located_of_reachable hr)
      (completed_of_reachable hr) hbreak (.of_step ht)
    have hend : s.Split p := Machine.execFrom_invariant (P := fun a => a.succeeds)
      (fun _ _ _ hb hi hstep => Split.step hi hb (.of_step hstep))
      (fun b hb => hsucc b (hbs hb)) hs hsplit
    exact hend.not_kept hq.uncreated hk
  · intro halone
    have hsettled : s.Settled p := (halone.and (Machine.along_of_forall hsucc)).invariant
      settled_init (fun _ _ _ hr hi ha ht =>
        hi.step (fresh_of_reachable hr) ha.1 ha.2 (.of_step ht)) h
    exact fun c hc hp hstatus => hsettled.kept hq.uncreated hc hp hstatus

/-- A first message and its answer have one creation at a time. -/
theorem alone_firstAnswer : machine.Along (Alone s("u", "v")) firstAnswer := by
  refine (acknowledged_iff (by decide) rfl (quiet_of_calls (by decide))).1 fun c hc _ _ => ?_
  rcases List.mem_pair.1 hc with rfl | rfl
  · exact ⟨⟨_, rfl, .refl _⟩, rfl, rfl⟩
  · exact ⟨⟨_, rfl, .refl _⟩, rfl, rfl⟩

/-- `u` and `v` send each other a first message at the same time: both find no
    pointer, and `v` writes the pointers last. -/
def race : List Action :=
  [.loginUser 0 "u", .loginUser 1 "v",
    .send 0 (composeMessage .text (.field (.string "hi")) 1) "v",
    .send 1 (composeMessage .text (.field (.string "hello")) 1) "u",
    .resume 0 (.snapshot ⟨"L0", "k0"⟩), .resume 1 (.snapshot ⟨"L1", "k1"⟩),
    .resume 0 (.write true), .resume 1 (.write true),
    .resume 0 (.write true), .resume 0 (.write true),
    .resume 1 (.write true), .resume 1 (.write true)]

/-- The message of `u` is acknowledged, and lost. -/
theorem not_acknowledged_race : ∃ s c, machine.exec race = some s ∧ (∀ a ∈ race, a.succeeds) ∧
    s.Quiet s("u", "v") ∧ c ∈ s.completions ∧ c.upload.pair = s("u", "v") ∧ c.status = true ∧
    ¬c.Kept s.db := by
  refine ⟨_, ⟨⟨"u", "v", messageValues .text (.string "hi") "u" "v" 1⟩, ⟨"L0", "k0"⟩, true⟩,
    rfl, by decide, quiet_of_calls (by decide), by decide, rfl, rfl, ?_⟩
  rintro ⟨_, hloc, _⟩
  exact absurd hloc (by decide)

end Repository

end MagicChat
