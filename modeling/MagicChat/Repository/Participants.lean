import MagicChat.Repository.Pair

/-!
# The participants of a conversation

A conversation holds the messages of its two participants and no others: every
location in use is one pair's (`Assigned`), and every record is stored at a
location of its own pair.

It is so as long as the link to a photo is fetched while its sender is signed in,
or nobody is (`SameUser`): `send` puts the user signed in when it starts into
the record, `uploadMessage` follows the pointers of the user signed in when it
starts, and for a photo there are two requests to the storage between the two.
-/

namespace MagicChat

/-- The record to be uploaded is from the user who uploads it, to the addressee. -/
def Upload.Own (u : Upload) : Prop :=
  (Value.dictionary u.values).fromID = some u.currentUserID ∧
    (Value.dictionary u.values).toID = some u.toID

theorem Upload.own_messageValues (type : MessageType) (content : Field) (fromID toID : UserID)
    (timestamp : Int) :
    Upload.Own ⟨fromID, toID, messageValues type content fromID toID timestamp⟩ := ⟨rfl, rfl⟩

/-- The pair of users that a record names. -/
def Value.Names (v : Value) (p : Sym2 UserID) : Prop :=
  ∃ f t, v.fromID = some f ∧ v.toID = some t ∧ s(f, t) = p

theorem Upload.Own.names {u : Upload} (h : u.Own) : (Value.dictionary u.values).Names u.pair :=
  ⟨_, _, h.1, h.2, rfl⟩

theorem Value.Names.setRead {v : Value} {p : Sym2 UserID} (h : v.Names p) :
    (v.setField "isRead" (.bool true)).Names p := by
  obtain ⟨f, t, hf, ht, hp⟩ := h
  exact ⟨f, t, by rw [fromID_setRead, hf], by rw [toID_setRead, ht], hp⟩

/-- An upload is one that was under way, or that of a photo whose link has come. -/
theorem Resumes.upload? {db : Database} {currentUser : Device → Option UserID} {c : Call}
    {r : Response} {o : Outcome} (h : Resumes db currentUser c r o) {u : Upload}
    (hn : o.next.upload? = some u) :
    c.upload? = some u ∨ ∃ d fromID timestamp path, c = .downloadURL d fromID u.toID timestamp ∧
      r = .downloadURL (some path) ∧ currentUser d = some u.currentUserID ∧
      u.values = messageValues .photo (.string path) fromID u.toID timestamp := by
  cases h with
  | linked hd =>
    obtain rfl := Option.some.inj hn
    exact .inr ⟨_, _, _, _, rfl, rfl, hd, rfl⟩
  | located => exact .inl hn
  | missing => exact .inl hn
  | created => exact .inl hn
  | ownPointed => exact .inl hn
  | _ => simp [Call.upload?] at hn

namespace Repository

/-- The action is not a direct call to `uploadMessage`, which only `send` makes. -/
def Action.isSend : Action → Bool
  | .uploadMessage .. => false
  | _ => true

/-- When the link to a photo comes, nobody but its sender is signed in on the device. -/
def SameUser (s : Repository) (a : Action) : Prop :=
  ∀ i path d fromID toID timestamp u, a = .resume i (.downloadURL (some path)) →
    s.At i (.downloadURL d fromID toID timestamp) → s.currentUser d = some u → u = fromID

/-- Every location in use is that of the pair it is assigned to. -/
structure Assigned (pair : Key → Sym2 UserID) (s : Repository) : Prop where
  pointers : ∀ x y L, s.db.location x y = some L → s(x, y) = pair L
  uploads : ∀ i c u, s.At i c → c.upload? = some u → u.Own
  refs : ∀ i c u ref, s.At i c → c.ref? = some (u, ref) → u.pair = pair ref.location
  records : ∀ ref v, s.db.message ref = some v → v.Names (pair ref.location)

variable {pair pair' : Key → Sym2 UserID} {s : Repository}

theorem assigned_init : machine.init.Assigned pair where
  pointers x y L h := by
    simp [machine, Database.location, Database.pointer, Database.empty] at h
  uploads _ _ _ h := absurd h not_at_init
  refs _ _ _ _ h := absurd h not_at_init
  records _ _ h := by simp [machine, Database.message, Database.empty] at h

/-- A location that is not in use can be assigned to any pair. -/
theorem Assigned.congr (h : s.Assigned pair) (hl : s.Located)
    (he : ∀ L ∈ s.issued, pair' L = pair L) : s.Assigned pair' where
  pointers x y L hL := (h.pointers x y L hL).trans (he L (hl.pointers x y L hL)).symm
  uploads := h.uploads
  refs i c u ref hc hu := (h.refs i c u ref hc hu).trans (he _ (hl.refs i c u ref hc hu)).symm
  records ref v hv := he _ (hl.messages ref v hv) ▸ h.records ref v hv

theorem Assigned.start {a : Action} {c : Call} (h : s.Assigned pair)
    (hc : Starts s.currentUser a c) (hsend : a.isSend) : (s.start c).Assigned pair where
  pointers := h.pointers
  uploads j c' u hj hu := by
    rcases at_start hj with hj | ⟨rfl, rfl⟩
    · exact h.uploads j c' u hj hu
    · cases hc with
      | send => exact Option.some.inj hu ▸ Upload.own_messageValues ..
      | upload => simp [Action.isSend] at hsend
      | _ => simp [Call.upload?] at hu
  refs j c' u ref hj hu := h.refs j c' u ref (at_of_start hc.ref? hj hu) hu
  records := h.records

theorem Assigned.stop {i : ℕ} (h : s.Assigned pair) :
    Assigned pair { s with calls := s.calls.set i .finished } where
  pointers := h.pointers
  uploads j c' u hj hu := h.uploads j c' u (at_of_stop rfl hj hu) hu
  refs j c' u ref hj hu := h.refs j c' u ref (at_of_stop rfl hj hu) hu
  records := h.records

section fire

variable {i : ℕ} {r : Response} {c : Call} {o : Outcome}

/-- The uploads of a photo are its sender's own, if nobody else is signed in. -/
theorem Assigned.own_next (h : s.Assigned pair) (hc : s.At i c)
    (ho : Resumes s.db s.currentUser c r o) (hsame : s.SameUser (.resume i r)) {u : Upload}
    (hu : o.next.upload? = some u) : u.Own := by
  rcases ho.upload? hu with hu | ⟨d, fromID, timestamp, path, rfl, rfl, hd, hvalues⟩
  · exact h.uploads i c u hc hu
  · have hfrom : u.currentUserID = fromID := hsame i path d _ _ _ _ rfl hc hd
    rw [Upload.Own, hvalues, hfrom]
    exact ⟨rfl, rfl⟩

/-- The record that a call is about to store names the pair of its location. -/
theorem Assigned.names_of_storing (h : s.Assigned pair) (hc : s.At i c) {u : Upload}
    {ref : Reference} (hu : c.storing = some (u, ref)) :
    (Value.dictionary u.values).Names (pair ref.location) := by
  have href := Call.ref?_of_storing hu
  exact h.refs i c u ref hc href ▸ (h.uploads i c u hc (Call.upload?_of_ref? href)).names

/-- A callback keeps an assignment that holds of the reference it gets. -/
theorem Assigned.fire (h : s.Assigned pair) (hs : s.Fresh) (hc : s.At i c)
    (ho : Resumes s.db s.currentUser c r o) (hsame : s.SameUser (.resume i r))
    (hnext : ∀ u ref, o.next.ref? = some (u, ref) → u.pair = pair ref.location) :
    (s.fire i c r o).Assigned pair where
  pointers x y L hL := by
    rcases hs.location_of_written hL with hL | ⟨u, ref, hu, rfl, hxy⟩
    · exact h.pointers x y L hL
    · exact hxy.trans (h.refs i c u ref hc (Call.ref?_of_creating hu))
  uploads j c' u hj hu := by
    rcases at_set hj with ⟨rfl, rfl⟩ | ⟨_, hj⟩
    · exact h.own_next hc ho hsame hu
    · exact h.uploads j c' u hj hu
  refs j c' u ref hj hu := by
    rcases at_set hj with ⟨rfl, rfl⟩ | ⟨_, hj⟩
    · exact hnext u ref hu
    · exact h.refs j c' u ref hj hu
  records := hs.forall_written_message hc r h.records (fun _ _ hu => h.names_of_storing hc hu)
    fun _ _ hv => hv.setRead

/-- A new location is assigned to the pair that creates it. -/
theorem Assigned.exists_fire (h : s.Assigned pair) (hs : s.Fresh) (hl : s.Located) (hc : s.At i c)
    (ho : Resumes s.db s.currentUser c r o) (hsame : s.SameUser (.resume i r))
    (hfresh : ∀ key ∈ o.issued, key ∉ s.issued) :
    ∃ pair', (s.fire i c r o).Assigned pair' := by
  by_cases hnew : ∃ u ref, o.next.ref? = some (u, ref) ∧ o.issued = [ref.location, ref.key]
  · obtain ⟨u, ref, hu, hissued⟩ := hnew
    have he : ∀ L ∈ s.issued, Function.update pair ref.location u.pair L = pair L := by
      intro L hL
      refine Function.update_of_ne ?_ _ _
      rintro rfl
      exact hfresh _ (hissued ▸ List.mem_cons_self) hL
    refine ⟨_, (h.congr hl he).fire hs hc ho hsame fun u' ref' hu' => ?_⟩
    obtain ⟨rfl, rfl⟩ := Prod.mk.inj (Option.some.inj (hu.symm.trans hu'))
    rw [Function.update_self]
  · refine ⟨pair, h.fire hs hc ho hsame fun u ref hu => ?_⟩
    rcases ho.ref? hu with hr | ⟨rfl, hloc⟩ | ⟨_, _, _, hissued⟩
    · exact h.refs i c u ref hc hr
    · exact h.pointers _ _ _ hloc
    · exact absurd ⟨u, ref, hu, hissued⟩ hnew

end fire

theorem Assigned.step {a : Action} {t : Repository} (h : s.Assigned pair) (hs : s.Fresh)
    (hl : s.Located) (hsame : s.SameUser a) (hsend : a.isSend) (ht : s.Step a t) :
    ∃ pair', t.Assigned pair' := by
  cases ht with
  | login => exact ⟨pair, h.pointers, h.uploads, h.refs, h.records⟩
  | logOut => exact ⟨pair, h.pointers, h.uploads, h.refs, h.records⟩
  | start hc => exact ⟨pair, h.start hc hsend⟩
  | fire hc ho _ hfresh => exact h.exists_fire hs hl hc ho hsame hfresh
  | stop => exact ⟨pair, h.stop⟩

/-- In a run in which nobody but its sender is signed in when the link to a photo
    comes, every record stored where a pointer of `x` to `y` leads is a message
    between `x` and `y`. -/
theorem participants_of_sameUser {as : List Action} (hsend : ∀ a ∈ as, a.isSend)
    (hsame : machine.Along SameUser as) (h : machine.exec as = some s) {x y : UserID}
    {L key : Key} {v : Value} (hL : s.db.location x y = some L)
    (hv : s.db.message ⟨L, key⟩ = some v) :
    ∃ f t, v.fromID = some f ∧ v.toID = some t ∧ s(f, t) = s(x, y) := by
  have hassigned : ∃ pair, s.Assigned pair :=
    (hsame.and (Machine.along_of_forall hsend)).invariant (I := fun s => ∃ pair, s.Assigned pair)
      ⟨fun _ => s("", ""), assigned_init⟩
      (fun _ _ _ hr ⟨_, hi⟩ ha ht =>
        hi.step (fresh_of_reachable hr) (located_of_reachable hr) ha.1 ha.2 (.of_step ht)) h
  obtain ⟨pair, hassigned⟩ := hassigned
  rw [hassigned.pointers x y L hL]
  exact hassigned.records ⟨L, key⟩ v hv

/-- `a` sends `b` a photo; what happens on the device of `a` before the link to
    the photo comes is `between`. -/
def sendPhoto (between : List Action) : List Action :=
  [.loginUser 0 "a", .send 0 (composeMessage .photo (.image ⟨0, true⟩) 1) "b",
    .resume 0 (.putData true)] ++ between ++
  [.resume 0 (.downloadURL (some "url")), .resume 0 (.snapshot ⟨"L", "k"⟩),
    .resume 0 (.write true), .resume 0 (.write true), .resume 0 (.write true)]

/-- The photo is stored in the conversation of `a` and `b`, if `a` stays signed in. -/
theorem participants_sendPhoto : ∃ s v, machine.exec (sendPhoto []) = some s ∧
    s.db.message ⟨"L", "k"⟩ = some v ∧
    ∃ f t, v.fromID = some f ∧ v.toID = some t ∧ s(f, t) = s("b", "a") := by
  have hsame : machine.Along SameUser (sendPhoto []) := by
    refine Machine.along_iff_alongFrom.2 ?_
    have skip : ∀ {s : Repository} {a : Action},
        (∀ i path, a ≠ .resume i (.downloadURL (some path))) → s.SameUser a :=
      fun h i path _ _ _ _ _ ha => absurd ha (h i path)
    refine .cons (skip nofun) rfl (.cons (skip nofun) rfl (.cons (skip nofun) rfl
      (.cons ?_ rfl ?_)))
    · intro i path d fromID toID timestamp u ha hi hu
      obtain ⟨rfl, _⟩ := Action.resume.inj ha
      obtain ⟨rfl, rfl, _⟩ := Call.downloadURL.inj (Option.some.inj hi)
      exact (Option.some.inj hu).symm
    · refine .cons (skip nofun) rfl (.cons (skip nofun) rfl (.cons (skip nofun) rfl ?_))
      exact .cons (skip nofun) rfl trivial
  refine ⟨_, .dictionary (messageValues .photo (.string "url") "a" "b" 1), rfl, rfl, ?_⟩
  exact @participants_of_sameUser _ _ (by decide) hsame rfl "b" "a" "L" "k" _ rfl rfl

/-- If `c` has signed in on the device meanwhile, it is stored in the conversation
    of `c` and `b`. -/
theorem not_participants_sendPhoto : ∃ s v,
    machine.exec (sendPhoto [.logOutUser 0, .loginUser 0 "c"]) = some s ∧
    (∀ a ∈ sendPhoto [.logOutUser 0, .loginUser 0 "c"], a.isSend) ∧
    s.db.location "c" "b" = some "L" ∧ s.db.message ⟨"L", "k"⟩ = some v ∧
    ¬∃ f t, v.fromID = some f ∧ v.toID = some t ∧ s(f, t) = s("c", "b") := by
  refine ⟨_, .dictionary (messageValues .photo (.string "url") "a" "b" 1), rfl, by decide, rfl, rfl,
    ?_⟩
  rintro ⟨f, t, hf, ht, hp⟩
  obtain rfl := Option.some.inj hf
  obtain rfl := Option.some.inj ht
  simp at hp

end Repository

end MagicChat
