import MagicChat.Repository.Step

/-!
# Fresh keys

The bookkeeping of the auto ids, an invariant of every run (`Fresh`): whatever
is stored, or about to be, is stored under a key drawn before; a record about to
be stored has its key to itself; and the messages whose read flags are about to
be written are stored, and are another user's.

What a step does to one record of the database follows, once and for all
(`written_message`): nothing, or it stores a record where there was none, or it
sets the read flag of the record that is there.
-/

namespace MagicChat

/-- The record a call is about to store. -/
def Call.storing : Call → Option (Upload × Reference)
  | .append upload ref => some (upload, ref)
  | .create upload ref => some (upload, ref)
  | _ => none

/-- The upload a call carries, with the reference it holds. -/
def Call.ref? : Call → Option (Upload × Reference)
  | .append upload ref => some (upload, ref)
  | .create upload ref => some (upload, ref)
  | .pointOwn upload ref => some (upload, ref)
  | .pointPeer upload ref => some (upload, ref)
  | _ => none

/-- The messages whose read flags a call is about to write, and for which reader. -/
def Call.marking : Call → Option (UserID × Key × List Key)
  | .markWrites currentUserID location keys => some (currentUserID, location, keys)
  | _ => none

/-- The messages marked for a reader are those of another user. -/
theorem exists_of_mem_keysToMark {u : UserID} {l : Keyed Key Value} {k : Key}
    (h : k ∈ keysToMark u l) :
    ∃ v f, (k, v) ∈ l ∧ v.fromID = some f ∧ f ≠ u := by
  induction l with
  | nil => simp [keysToMark] at h
  | cons e l ih =>
    obtain ⟨k₀, v₀⟩ := e
    have tail : k ∈ keysToMark u l → ∃ v f, (k, v) ∈ (k₀, v₀) :: l ∧ v.fromID = some f ∧ f ≠ u := by
      intro h
      obtain ⟨v, f, hmem, hv⟩ := ih h
      exact ⟨v, f, List.mem_cons_of_mem _ hmem, hv⟩
    rw [keysToMark] at h
    split at h
    · next f hf =>
      split_ifs at h with hne
      · rcases List.mem_cons.1 h with rfl | h
        · exact ⟨v₀, f, List.mem_cons_self, hf, hne⟩
        · exact tail h
      · exact tail h
    · simp at h

/-- A call that has just started stores nothing yet. -/
theorem Starts.storing {currentUser : Device → Option UserID} {a : Repository.Action} {c : Call}
    (h : Starts currentUser a c) : c.storing = none := by
  cases h <;> rfl

/-- A call that has just started holds no reference yet. -/
theorem Starts.ref? {currentUser : Device → Option UserID} {a : Repository.Action} {c : Call}
    (h : Starts currentUser a c) : c.ref? = none := by
  cases h <;> rfl

/-- A call that has just started marks nothing yet. -/
theorem Starts.marking {currentUser : Device → Option UserID} {a : Repository.Action} {c : Call}
    (h : Starts currentUser a c) : c.marking = none := by
  cases h <;> rfl

section resumes

variable {db : Database} {currentUser : Device → Option UserID} {c : Call} {r : Response}
  {o : Outcome}

/-- A record about to be stored gets a key drawn in the callback. -/
theorem Resumes.storing (h : Resumes db currentUser c r o) {u : Upload} {ref : Reference}
    (hn : o.next.storing = some (u, ref)) :
    ref.key ∈ o.issued ∧ ∃ autoID, r = .snapshot autoID := by
  cases h with
  | located hl =>
    obtain ⟨rfl, rfl⟩ := Prod.mk.inj (Option.some.inj hn)
    exact ⟨List.mem_cons_self, _, rfl⟩
  | missing hm =>
    obtain ⟨rfl, rfl⟩ := Prod.mk.inj (Option.some.inj hn)
    exact ⟨List.mem_cons_of_mem _ List.mem_cons_self, _, rfl⟩
  | _ => simp [Call.storing] at hn

/-- The reference an upload holds: the one it held, one at the location of its
    pointer, or a new one. -/
theorem Resumes.ref? (h : Resumes db currentUser c r o) {u : Upload} {ref : Reference}
    (hn : o.next.ref? = some (u, ref)) :
    c.ref? = some (u, ref) ∨
      (c = .readPointer u ∧ db.location u.currentUserID u.toID = some ref.location) ∨
      (c = .readPointer u ∧ r = .snapshot ref ∧ db.pointer u.currentUserID u.toID = none ∧
        o.issued = [ref.location, ref.key]) := by
  cases h with
  | located hl =>
    obtain ⟨rfl, rfl⟩ := Prod.mk.inj (Option.some.inj hn)
    exact .inr (.inl ⟨rfl, hl⟩)
  | missing hm =>
    obtain ⟨rfl, rfl⟩ := Prod.mk.inj (Option.some.inj hn)
    exact .inr (.inr ⟨rfl, rfl, hm, rfl⟩)
  | created => exact .inl hn
  | ownPointed => exact .inl hn
  | _ => simp [Call.ref?] at hn

/-- The messages about to be marked are those of the snapshot, or what is left of them. -/
theorem Resumes.marking (h : Resumes db currentUser c r o) {u : UserID} {L : Key}
    {keys : List Key} (hn : o.next.marking = some (u, L, keys)) :
    keys = keysToMark u (db.conversations L) ∨ ∃ key, c.marking = some (u, L, key :: keys) := by
  cases h with
  | snapped =>
    simp only [Call.marking, Option.some.injEq, Prod.mk.injEq] at hn
    obtain ⟨rfl, rfl, rfl⟩ := hn
    exact .inl rfl
  | marked =>
    simp only [Call.marking, Option.some.injEq, Prod.mk.injEq] at hn
    obtain ⟨rfl, rfl, rfl⟩ := hn
    exact .inr ⟨_, rfl⟩
  | _ => simp [Call.marking] at hn

end resumes

namespace Repository

/-- The bookkeeping of the auto ids. -/
structure Fresh (s : Repository) : Prop where
  pointers : s.db.PointersWellFormed
  stored : ∀ ref v, s.db.message ref = some v → ref.key ∈ s.issued
  storing : ∀ i c u ref, s.At i c → c.storing = some (u, ref) →
    ref.key ∈ s.issued ∧ ∀ L, s.db.message ⟨L, ref.key⟩ = none
  distinct : ∀ i j c c' u u' ref ref', s.At i c → s.At j c' →
    c.storing = some (u, ref) → c'.storing = some (u', ref') → ref.key = ref'.key → i = j
  marking : ∀ i c u L keys, s.At i c → c.marking = some (u, L, keys) →
    ∀ k ∈ keys, ∃ v f, s.db.message ⟨L, k⟩ = some v ∧ v.fromID = some f ∧ f ≠ u

/-! ## What a step does to a record -/

variable {s : Repository}

/-- A response to a call leaves a record alone, stores it where there was none,
    or sets its read flag. -/
theorem Fresh.written_message (hs : s.Fresh) {i : ℕ} {c : Call} (hc : s.At i c)
    (r : Response) (ref : Reference) :
    (written s.db c r).message ref = s.db.message ref ∨
      (∃ u, r = .write true ∧ c.storing = some (u, ref) ∧ s.db.message ref = none ∧
        (written s.db c r).message ref = some (.dictionary u.values)) ∨
      ∃ u keys v, r = .write true ∧ c = .markWrites u ref.location (ref.key :: keys) ∧
        s.db.message ref = some v ∧
        (written s.db c r).message ref = some (v.setField "isRead" (.bool true)) := by
  by_cases hr : r = .write true
  · subst hr
    have storing : ∀ u ref', c.storing = some (u, ref') →
        c.write? = some (.setMessage ref' u.values) →
        (written s.db c (.write true)).message ref = s.db.message ref ∨
          ∃ u, c.storing = some (u, ref) ∧ s.db.message ref = none ∧
            (written s.db c (.write true)).message ref = some (.dictionary u.values) := by
      intro u ref' hu hw
      simp only [written, hw, Option.elim_some, Database.message_setMessage]
      split_ifs with h
      · subst h
        exact .inr ⟨u, hu, (hs.storing i c u ref hc hu).2 ref.location, rfl⟩
      · exact .inl rfl
    have unwritten : c.write? = none →
        (written s.db c (.write true)).message ref = s.db.message ref := by
      intro hw
      simp [written, hw]
    cases c with
    | append u ref' =>
      rcases storing u ref' rfl rfl with he | ⟨u, hu⟩
      · exact .inl he
      · exact .inr (.inl ⟨u, rfl, hu⟩)
    | create u ref' =>
      rcases storing u ref' rfl rfl with he | ⟨u, hu⟩
      · exact .inl he
      · exact .inr (.inl ⟨u, rfl, hu⟩)
    | pointOwn u ref' => exact .inl rfl
    | pointPeer u ref' => exact .inl rfl
    | markWrites u L keys =>
      cases keys with
      | nil => exact .inl (unwritten rfl)
      | cons k keys =>
        have hw : (written s.db (.markWrites u L (k :: keys)) (.write true)).message ref = _ :=
          Database.message_setRead ⟨L, k⟩ ref
        split_ifs at hw with h
        · subst h
          obtain ⟨v, _, hv, _⟩ := hs.marking i _ u L (k :: keys) hc rfl k List.mem_cons_self
          exact .inr (.inr ⟨u, keys, v, rfl, rfl, hv, by rw [hw, hv]; rfl⟩)
        · exact .inl hw
    | _ => exact .inl (unwritten rfl)
  · refine .inl ?_
    rw [written]
    intro h
    exact absurd h hr

/-- What holds of every record, and of the one about to be stored, whatever the
    read flag, holds of every record after a response. -/
theorem Fresh.forall_written_message (hs : s.Fresh) {i : ℕ} {c : Call} (hc : s.At i c)
    (r : Response) {P : Reference → Value → Prop}
    (hold : ∀ ref v, s.db.message ref = some v → P ref v)
    (hnew : ∀ u ref, c.storing = some (u, ref) → P ref (.dictionary u.values))
    (hread : ∀ ref v, P ref v → P ref (v.setField "isRead" (.bool true))) (ref : Reference)
    (v : Value) (hv : (written s.db c r).message ref = some v) : P ref v := by
  rcases hs.written_message hc r ref with he | ⟨u, _, hu, _, hw⟩ | ⟨_, _, v', _, _, hv', hw⟩
  · exact hold ref v (he ▸ hv)
  · obtain rfl := Option.some.inj (hw.symm.trans hv)
    exact hnew u ref hu
  · obtain rfl := Option.some.inj (hw.symm.trans hv)
    exact hread ref v' (hold ref v' hv')

/-- The sender of a record never changes. -/
theorem Fresh.written_message_fromID (hs : s.Fresh) {i : ℕ} {c : Call}
    (hc : s.At i c) (r : Response) {ref : Reference} {v : Value} {f : UserID}
    (hv : s.db.message ref = some v) (hf : v.fromID = some f) :
    ∃ v', (written s.db c r).message ref = some v' ∧ v'.fromID = some f := by
  rcases hs.written_message hc r ref with he | ⟨u, _, _, hn, _⟩ | ⟨u, keys, v', _, _, hv', hw⟩
  · exact ⟨v, by rw [he, hv], hf⟩
  · simp [hv] at hn
  · obtain rfl : v' = v := Option.some.inj (hv'.symm.trans hv)
    exact ⟨_, hw, by rw [fromID_setRead, hf]⟩

/-- A response to a call leaves a pointer alone, or it is the one that the call
    was about to write, with the location that the call holds. -/
theorem Fresh.written_location (hs : s.Fresh) (c : Call) (r : Response) (x y : UserID) :
    (written s.db c r).location x y = s.db.location x y ∨
      ∃ u ref, r = .write true ∧ (written s.db c r).location x y = some ref.location ∧
        ((c = .pointOwn u ref ∧ x = u.currentUserID ∧ y = u.toID) ∨
          (c = .pointPeer u ref ∧ x = u.toID ∧ y = u.currentUserID)) := by
  by_cases hr : r = .write true
  · subst hr
    cases c with
    | append u ref => exact .inl rfl
    | create u ref => exact .inl rfl
    | pointOwn u ref =>
      have hw : (written s.db (.pointOwn u ref) (.write true)).location x y = _ :=
        hs.pointers.location_updatePointer u.currentUserID u.toID x y ref.location
      split_ifs at hw with h
      · exact .inr ⟨u, ref, rfl, hw, .inl ⟨rfl, h⟩⟩
      · exact .inl hw
    | pointPeer u ref =>
      have hw : (written s.db (.pointPeer u ref) (.write true)).location x y = _ :=
        hs.pointers.location_updatePointer u.toID u.currentUserID x y ref.location
      split_ifs at hw with h
      · exact .inr ⟨u, ref, rfl, hw, .inr ⟨rfl, h⟩⟩
      · exact .inl hw
    | markWrites u L keys => cases keys <;> exact .inl rfl
    | _ => exact .inl rfl
  · refine .inl ?_
    rw [written]
    exact fun h => absurd h hr

/-! ## The invariant -/

theorem not_at_init {i : ℕ} {c : Call} : ¬machine.init.At i c := by
  simp [At, machine]

theorem fresh_init : machine.init.Fresh where
  pointers := Database.pointersWellFormed_empty
  stored _ _ h := by simp [machine, Database.message, Database.empty] at h
  storing _ _ _ _ h := absurd h not_at_init
  distinct _ _ _ _ _ _ _ _ h := absurd h not_at_init
  marking _ _ _ _ _ h := absurd h not_at_init

theorem Fresh.start {a : Action} {c : Call} (hs : s.Fresh) (hc : Starts s.currentUser a c) :
    (s.start c).Fresh where
  pointers := hs.pointers
  stored := hs.stored
  storing j c' u ref hj h := hs.storing j c' u ref (at_of_start hc.storing hj h) h
  distinct j j' c₁ c₂ u u' ref ref' hj hj' h h' :=
    hs.distinct j j' c₁ c₂ u u' ref ref' (at_of_start hc.storing hj h)
      (at_of_start hc.storing hj' h') h h'
  marking j c' u L keys hj h := hs.marking j c' u L keys (at_of_start hc.marking hj h) h

theorem Fresh.stop {i : ℕ} (hs : s.Fresh) :
    Fresh { s with calls := s.calls.set i .finished } where
  pointers := hs.pointers
  stored := hs.stored
  storing j c' u ref hj h := hs.storing j c' u ref (at_of_stop rfl hj h) h
  distinct j j' c₁ c₂ u u' ref ref' hj hj' h h' :=
    hs.distinct j j' c₁ c₂ u u' ref ref' (at_of_stop rfl hj h) (at_of_stop rfl hj' h') h h'
  marking j c' u L keys hj h := hs.marking j c' u L keys (at_of_stop rfl hj h) h

section fire

variable {i : ℕ} {r : Response} {c : Call} {o : Outcome}

/-- The keys drawn for a record name no record yet. -/
theorem Fresh.message_eq_none (hs : s.Fresh) {k : Key} (hk : k ∉ s.issued) (L : Key) :
    s.db.message ⟨L, k⟩ = none :=
  Option.eq_none_iff_forall_ne_some.2 fun v hv => hk (hs.stored ⟨L, k⟩ v hv)

/-- A record about to be stored by another call is still not there. -/
theorem Fresh.fire_message_eq_none (hs : s.Fresh) (hc : s.At i c) {j : ℕ} {c' : Call}
    {u : Upload} {ref : Reference} (hne : j ≠ i) (hj : s.At j c')
    (hu : c'.storing = some (u, ref)) (L : Key) :
    (written s.db c r).message ⟨L, ref.key⟩ = none := by
  have hn := (hs.storing j c' u ref hj hu).2 L
  rcases hs.written_message hc r ⟨L, ref.key⟩ with he | ⟨u', _, hu', _⟩ | ⟨_, _, v, _, _, hv, _⟩
  · rw [he, hn]
  · exact absurd (hs.distinct j i c' c u u' ref _ hj hc hu hu' rfl) hne
  · simp [hn] at hv

theorem Fresh.fire (hs : s.Fresh) (hc : s.At i c) (ho : Resumes s.db s.currentUser c r o)
    (hfresh : ∀ key ∈ o.issued, key ∉ s.issued) : (s.fire i c r o).Fresh where
  pointers := by
    change (written s.db c r).PointersWellFormed
    rw [written_eq hc]
    cases s.write? (.resume i r) with
    | none => exact hs.pointers
    | some w => exact hs.pointers.after w
  stored ref v hv := List.mem_append_right _ <|
    hs.forall_written_message hc r (P := fun ref _ => ref.key ∈ s.issued) hs.stored
      (fun u ref hu => (hs.storing i c u ref hc hu).1) (fun _ _ h => h) ref v hv
  storing j c' u ref hj := by
    intro h
    rcases at_set hj with ⟨rfl, rfl⟩ | ⟨hne, hj⟩
    · obtain ⟨hk, autoID, rfl⟩ := ho.storing h
      exact ⟨List.mem_append_left _ hk, hs.message_eq_none (hfresh _ hk)⟩
    · exact ⟨List.mem_append_right _ (hs.storing j c' u ref hj h).1,
        hs.fire_message_eq_none hc hne hj h⟩
  distinct := by
    intro j j' c₁ c₂ u u' ref ref' hj hj' h h' hk
    -- A key drawn in this step differs from those of the other calls.
    rcases at_set hj with ⟨hi, rfl⟩ | ⟨_, hs₁⟩ <;> rcases at_set hj' with ⟨hi', rfl⟩ | ⟨_, hs₂⟩
    · rw [hi, hi']
    · exact absurd (hk ▸ (hs.storing j' c₂ u' ref' hs₂ h').1) (hfresh _ (ho.storing h).1)
    · exact absurd (hk ▸ (hs.storing j c₁ u ref hs₁ h).1) (hfresh _ (ho.storing h').1)
    · exact hs.distinct j j' c₁ c₂ u u' ref ref' hs₁ hs₂ h h' hk
  marking j c' u L keys hj := by
    have keep : ∀ k, (∃ v f, s.db.message ⟨L, k⟩ = some v ∧ v.fromID = some f ∧ f ≠ u) →
        ∃ v f, (written s.db c r).message ⟨L, k⟩ = some v ∧ v.fromID = some f ∧ f ≠ u := by
      rintro k ⟨v, f, hv, hf, hne⟩
      obtain ⟨v', hv', hf'⟩ := hs.written_message_fromID hc r hv hf
      exact ⟨v', f, hv', hf', hne⟩
    intro h k hk
    refine keep k ?_
    rcases at_set hj with ⟨rfl, rfl⟩ | ⟨_, hj⟩
    · rcases ho.marking h with rfl | ⟨key, hm⟩
      · obtain ⟨v, f, hmem, hv⟩ := exists_of_mem_keysToMark hk
        exact ⟨v, f, (s.db.nodup_conversations L).lookup_eq_some_iff.2 hmem, hv⟩
      · exact hs.marking j c u L (key :: keys) hc hm k (List.mem_cons_of_mem _ hk)
    · exact hs.marking j c' u L keys hj h k hk

end fire

/-- Every step keeps the bookkeeping. -/
theorem Fresh.step {a : Action} {t : Repository} (hs : s.Fresh) (h : s.Step a t) : t.Fresh := by
  cases h with
  | login => exact ⟨hs.pointers, hs.stored, hs.storing, hs.distinct, hs.marking⟩
  | logOut => exact ⟨hs.pointers, hs.stored, hs.storing, hs.distinct, hs.marking⟩
  | start hc => exact hs.start hc
  | fire hc ho _ hfresh => exact hs.fire hc ho hfresh
  | stop => exact hs.stop

theorem fresh_of_reachable (h : machine.Reachable s) : s.Fresh :=
  h.invariant (I := Fresh) fresh_init fun _ _ _ _ hs ht => hs.step (.of_step ht)

/-! ## Locations -/

/-- Every location in use has been drawn. -/
structure Located (s : Repository) : Prop where
  pointers : ∀ x y L, s.db.location x y = some L → L ∈ s.issued
  messages : ∀ ref v, s.db.message ref = some v → ref.location ∈ s.issued
  refs : ∀ i c u ref, s.At i c → c.ref? = some (u, ref) → ref.location ∈ s.issued

theorem located_init : machine.init.Located where
  pointers _ _ _ h := by simp [machine, Database.location, Database.pointer, Database.empty] at h
  messages _ _ h := by simp [machine, Database.message, Database.empty] at h
  refs _ _ _ _ h := absurd h not_at_init

theorem Call.ref?_of_storing {c : Call} {p : Upload × Reference} (h : c.storing = some p) :
    c.ref? = some p := by
  cases c <;> first | exact h | simp [Call.storing] at h

theorem Located.fire (hl : s.Located) (hs : s.Fresh) {i : ℕ} {r : Response} {c : Call} {o : Outcome}
    (hc : s.At i c) (ho : Resumes s.db s.currentUser c r o) : (s.fire i c r o).Located where
  pointers x y L h := by
    refine List.mem_append_right _ ?_
    rcases hs.written_location c r x y with he | ⟨u, ref, _, hw, hu⟩
    · exact hl.pointers x y L (he ▸ h)
    · obtain rfl : ref.location = L := Option.some.inj (hw.symm.trans h)
      rcases hu with ⟨rfl, _⟩ | ⟨rfl, _⟩ <;> exact hl.refs i _ u ref hc rfl
  messages ref v hv := List.mem_append_right _ <|
    hs.forall_written_message hc r (P := fun ref _ => ref.location ∈ s.issued) hl.messages
      (fun u ref hu => hl.refs i c u ref hc (Call.ref?_of_storing hu)) (fun _ _ h => h) ref v hv
  refs j c' u ref hj h := by
    rcases at_set hj with ⟨rfl, rfl⟩ | ⟨_, hj⟩
    · rcases ho.ref? h with hr | ⟨_, hloc⟩ | ⟨_, _, _, hissued⟩
      · exact List.mem_append_right _ (hl.refs j c u ref hc hr)
      · exact List.mem_append_right _ (hl.pointers _ _ _ hloc)
      · exact List.mem_append_left _ (hissued ▸ List.mem_cons_self)
    · exact List.mem_append_right _ (hl.refs j c' u ref hj h)

theorem Located.step {a : Action} {t : Repository} (hl : s.Located) (hs : s.Fresh)
    (h : s.Step a t) : t.Located := by
  cases h with
  | login => exact ⟨hl.pointers, hl.messages, hl.refs⟩
  | logOut => exact ⟨hl.pointers, hl.messages, hl.refs⟩
  | start hc =>
    exact ⟨hl.pointers, hl.messages, fun j c' u ref hj h =>
      hl.refs j c' u ref (at_of_start hc.ref? hj h) h⟩
  | fire hc ho _ _ => exact hl.fire hs hc ho
  | stop =>
    exact ⟨hl.pointers, hl.messages, fun j c' u ref hj h =>
      hl.refs j c' u ref (at_of_stop rfl hj h) h⟩

theorem located_of_reachable (h : machine.Reachable s) : s.Located :=
  h.invariant (I := Located) located_init fun _ _ _ hr hl ht =>
    hl.step (fresh_of_reachable hr) (.of_step ht)

/-- The keys drawn can be parts of paths. -/
theorem isValidPathString_of_issued (h : machine.Reachable s) {key : Key} (hkey : key ∈ s.issued) :
    isValidPathString key := by
  refine h.invariant (I := fun s => ∀ key ∈ s.issued, isValidPathString key)
    (fun key hkey => absurd hkey List.not_mem_nil) (fun s a t _ hi ht key hkey => ?_) key hkey
  cases Step.of_step ht with
  | fire _ _ _ _ hvalid => exact (List.mem_append.1 hkey).elim (hvalid key) (hi key)
  | _ => exact hi key hkey

/-- Every location that a pointer holds is one of them. -/
theorem isValidPathString_of_location (h : machine.Reachable s) {x y : UserID} {L : Key}
    (hL : s.db.location x y = some L) : isValidPathString L :=
  isValidPathString_of_issued h ((located_of_reachable h).pointers x y L hL)

/-! ## Records -/

/-- The record `values` is stored under `ref`, but for its read flag. -/
def Stored (db : Database) (ref : Reference) (values : Fields) : Prop :=
  ∃ v, db.message ref = some v ∧ SameRecord (.dictionary values) v

/-- A stored record stays. -/
theorem Fresh.written_stored (hs : s.Fresh) {i : ℕ} {c : Call} (hc : s.At i c) (r : Response)
    {ref : Reference} {values : Fields} (h : Stored s.db ref values) :
    Stored (written s.db c r) ref values := by
  obtain ⟨v, hv, hsame⟩ := h
  rcases hs.written_message hc r ref with he | ⟨_, _, _, hn, _⟩ | ⟨_, _, v', _, _, hv', hw⟩
  · exact ⟨v, he.trans hv, hsame⟩
  · simp [hv] at hn
  · obtain rfl : v' = v := Option.some.inj (hv'.symm.trans hv)
    exact ⟨_, hw, hsame.setRead⟩

end Repository

end MagicChat
