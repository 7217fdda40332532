import MagicChat.Repository.Acknowledged
import MagicChat.Repository.Changes
import MagicChat.Repository.Origin
import MagicChat.Repository.Participants

/-!
# The messages sent between two users

The conversation of two users is where their pointers lead, and it should hold
the messages that they have sent each other, and no others.

* As long as the conversation has one creation at a time (`Orderly`), the
  pointers of both are never moved (`Settled.not_replaces`).
* Where nothing else goes wrong either (`Regular`), a record is at the location
  that the pointers hold if and only if it names the two (`names_iff_location`),
  and once all calls have ended, each message that one of them has sent the other
  has one record there (`exists_bijOn_sends`).
-/

namespace MagicChat

/-- A record names the same users, whatever its read flag. -/
theorem SameRecord.names {v v' : Value} {p : Sym2 UserID} (h : SameRecord v v') (hv : v.Names p) :
    v'.Names p := by
  obtain ⟨f, t, hf, ht, hp⟩ := hv
  refine ⟨f, t, h.fromID.trans hf, ?_, hp⟩
  rw [Value.toID, h "toID" (by decide)]
  exact ht

theorem SameRecord.symm {v v' : Value} (h : SameRecord v v') : SameRecord v' v :=
  fun name hn => (h name hn).symm

/-- A record names one pair of users. -/
theorem Value.Names.eq {v : Value} {p q : Sym2 UserID} (hp : v.Names p) (hq : v.Names q) :
    p = q := by
  obtain ⟨f, t, hf, ht, rfl⟩ := hp
  obtain ⟨f', t', hf', ht', rfl⟩ := hq
  obtain rfl := Option.some.inj (hf.symm.trans hf')
  obtain rfl := Option.some.inj (ht.symm.trans ht')
  rfl

theorem names_messageValues (type : MessageType) (content : Field) (fromID toID : UserID)
    (timestamp : Int) :
    (Value.dictionary (messageValues type content fromID toID timestamp)).Names s(fromID, toID) :=
  ⟨fromID, toID, rfl, rfl, rfl⟩

section resumes

variable {db : Database} {currentUser : Device → Option UserID} {c : Call} {o : Outcome}

/-- A write that stores a record acknowledges its upload. -/
theorem Resumes.completion_of_storing {u : Upload} {ref : Reference}
    (ho : Resumes db currentUser c (.write true) o) (hu : c.storing = some (u, ref)) :
    o.completion = some ⟨u, ref, true⟩ := by
  cases ho with
  | appended =>
    obtain ⟨rfl, rfl⟩ := Prod.mk.inj (Option.some.inj hu)
    rfl
  | created =>
    obtain ⟨rfl, rfl⟩ := Prod.mk.inj (Option.some.inj hu)
    rfl
  | _ => simp [Call.storing] at hu

/-- What is acknowledged has been under way. -/
theorem Resumes.upload?_of_completion {resp : Response} (ho : Resumes db currentUser c resp o)
    {e : Completion} (he : o.completion = some e) : c.upload? = some e.upload := by
  rcases ho.completion he with ⟨rfl, _⟩ | ⟨rfl, _⟩ <;> rfl

end resumes

namespace Repository

/-- No write fails and no client stops, and the conversation of the pair has one
    creation at a time. -/
structure Orderly (p : Sym2 UserID) (s : Repository) (a : Action) : Prop where
  succeeds : a.succeeds
  alone : s.Alone p a

/-- Nothing goes wrong between the users of the pair: no request fails, messages are
    uploaded by `send`, the sender of a photo is signed in when its link comes, and
    the conversation has one creation at a time. -/
structure Regular (p : Sym2 UserID) (s : Repository) (a : Action) : Prop where
  answered : s.Answered a
  isSend : a.isSend
  sameUser : s.SameUser a
  alone : s.Alone p a

variable {p : Sym2 UserID} {s r : Repository} {a : Action} {as : List Action} {u : Upload}
  {v : Value} {ref : Reference} {n : ℕ} {reader : UserID}

theorem Answered.succeeds (h : s.Answered a) : a.succeeds := by
  cases a with
  | resume i resp =>
    cases resp with
    | write ok => exact h
    | _ => rfl
  | stop i => exact h.elim
  | _ => rfl

theorem Regular.orderly (h : s.Regular p a) : s.Orderly p a := ⟨h.answered.succeeds, h.alone⟩

/-- Steps that read a pointer only while no conversation is being created. -/
theorem Regular.of_calls (hok : s.Answered a) (hsend : a.isSend)
    (hlink : ∀ i path, a ≠ .resume i (.downloadURL path))
    (h : (∀ i autoID, a ≠ .resume i (.snapshot autoID)) ∨ ∀ c ∈ s.calls, c.creating = none) :
    s.Regular p a where
  answered := hok
  isSend := hsend
  sameUser i path _ _ _ _ _ ha := absurd ha (hlink i (some path))
  alone i autoID u ha _ _ _ := by
    rcases h with h | h
    · exact absurd ha (h i autoID)
    · intro j c u ref hc hu
      simp [h c (List.mem_of_getElem? hc)] at hu

theorem settled_of_orderly (horderly : machine.Along (Orderly p) as)
    (h : machine.exec as = some s) : s.Settled p :=
  horderly.invariant settled_init
    (fun _ _ _ hr hi ha ht => hi.step (fresh_of_reachable hr) ha.alone ha.succeeds (.of_step ht)) h

/-- A pointer of the pair is written where there is none, or with the location that
    it holds. -/
theorem Settled.not_replaces {x y : UserID} (h : s.Settled s(x, y)) (a : Action) :
    ¬s.Replaces a x y := by
  rintro ⟨L, L', hL, hw, hne⟩
  obtain ⟨i, c, _, hc, hw⟩ := exists_at_of_write? hw
  cases c with
  | pointOwn u ref =>
    obtain ⟨rfl, rfl, rfl⟩ := Write.updatePointer.inj (Option.some.inj hw)
    obtain ⟨_, hnone, _⟩ := h.sound i _ u ref hc rfl rfl
    simp [hnone] at hL
  | pointPeer u ref =>
    obtain ⟨rfl, rfl, rfl⟩ := Write.updatePointer.inj (Option.some.inj hw)
    obtain ⟨_, _, hpeer⟩ := h.sound i _ u ref hc rfl Sym2.eq_swap
    exact hne (hpeer L hL).symm
  | append => cases hw
  | create => cases hw
  | markWrites _ _ keys => cases keys <;> cases hw
  | _ => cases hw

theorem idle_of_calls {calls : List Call} (h : s.calls = calls) (hended : ∀ c ∈ calls, c.Ended) :
    s.Idle := by
  rw [Idle, h]
  exact hended

theorem Idle.uncreated (h : s.Idle) : s.Uncreated p := by
  intro i c u ref hc hu
  obtain ⟨hstage, _⟩ := h c (List.mem_of_getElem? hc)
  cases c <;> simp [Call.creating, Call.stage] at hu hstage

/-! ## The uploads of the records -/

/-- Every record is that of an upload that has been acknowledged. -/
def Receipted (s : Repository) : Prop :=
  ∀ ref v, s.db.message ref = some v → ∃ e ∈ s.completions, e.ref = ref ∧ e.status = true ∧
    SameRecord (.dictionary e.upload.values) v

theorem Receipted.fire (h : s.Receipted) (hs : s.Fresh) {i : ℕ} {resp : Response} {c : Call}
    {o : Outcome} (hc : s.At i c) (ho : Resumes s.db s.currentUser c resp o) :
    (s.fire i c resp o).Receipted := by
  intro ref v hv
  have keep : ∀ v₀, s.db.message ref = some v₀ →
      (∀ w, SameRecord w v₀ → SameRecord w v) →
      ∃ e ∈ (s.fire i c resp o).completions, e.ref = ref ∧ e.status = true ∧
        SameRecord (.dictionary e.upload.values) v := by
    intro v₀ hv₀ hsame
    obtain ⟨e, he, href, hstatus, hrecord⟩ := h ref v₀ hv₀
    exact ⟨e, List.mem_append_left _ he, href, hstatus, hsame _ hrecord⟩
  rcases hs.written_message hc resp ref with
    he | ⟨u, rfl, hu, _, hw⟩ | ⟨_, _, v₀, _, _, hv₀, hw⟩
  · exact keep v (he ▸ hv) fun _ hsame => hsame
  · obtain rfl := Option.some.inj (hw.symm.trans hv)
    refine ⟨⟨u, ref, true⟩, List.mem_append_right _ ?_, rfl, rfl, .refl _⟩
    exact Option.mem_toList.2 (ho.completion_of_storing hu)
  · obtain rfl := Option.some.inj (hw.symm.trans hv)
    exact keep v₀ hv₀ fun _ hsame => hsame.setRead

theorem receipted_of_reachable (h : machine.Reachable s) : s.Receipted := by
  refine h.invariant (I := Receipted) (fun _ _ hv => ?_) fun s a t hr hi ht => ?_
  · simp [machine, Database.message, Database.empty] at hv
  · cases Step.of_step ht with
    | fire hc ho => exact hi.fire (fresh_of_reachable hr) hc ho
    | _ => exact hi

/-- The locations are assigned, and what has been acknowledged is its sender's own. -/
structure Attributed (s : Repository) : Prop where
  assigned : ∃ pair, s.Assigned pair
  own : ∀ e ∈ s.completions, e.upload.Own

theorem Attributed.step {t : Repository} (h : s.Attributed) (hs : s.Fresh) (hl : s.Located)
    (hsame : s.SameUser a) (hsend : a.isSend) (ht : s.Step a t) : t.Attributed := by
  obtain ⟨pair, hassigned⟩ := h.assigned
  refine ⟨hassigned.step hs hl hsame hsend ht, ?_⟩
  cases ht with
  | @fire i resp c o hc ho =>
    intro e he
    rcases List.mem_append.1 he with he | he
    · exact h.own e he
    · exact hassigned.uploads i c e.upload hc (ho.upload?_of_completion (Option.mem_toList.1 he))
  | _ => exact h.own

theorem attributed_of_regular (hreg : machine.Along (Regular p) as) (h : machine.exec as = some s) :
    s.Attributed :=
  hreg.invariant ⟨⟨fun _ => p, assigned_init⟩, fun _ he => absurd he List.not_mem_nil⟩
    (fun _ _ _ hr hi ha ht => hi.step (fresh_of_reachable hr) (located_of_reachable hr)
      ha.sameUser ha.isSend (.of_step ht)) h

/-- A record names two users if and only if it is where their pointers lead. -/
theorem names_iff_location {x y : UserID} (hreg : machine.Along (Regular s(x, y)) as)
    (h : machine.exec as = some s) (hq : s.Uncreated s(x, y)) (hv : s.db.message ref = some v) :
    v.Names s(x, y) ↔ s.db.location x y = some ref.location := by
  obtain ⟨⟨pair, hassigned⟩, hown⟩ := attributed_of_regular hreg h
  constructor
  · intro hnames
    -- The upload of the record has been acknowledged, so it has been kept.
    obtain ⟨e, he, rfl, hstatus, hsame⟩ := receipted_of_reachable ⟨as, h⟩ ref v hv
    have hpair : e.upload.pair = s(x, y) := (hsame.names (hown e he).names).eq hnames
    have hsettled := settled_of_orderly (hreg.mono fun _ _ hr => hr.orderly) h
    obtain ⟨_, hlocation, hpeer⟩ := hsettled.kept hq he hpair hstatus
    rcases Sym2.eq_iff.1 hpair with ⟨rfl, rfl⟩ | ⟨rfl, rfl⟩
    · exact hlocation
    · exact hpeer
  · intro hlocation
    rw [hassigned.pointers x y ref.location hlocation]
    exact hassigned.records ref v hv

/-! ## The messages sent -/

/-- In the state `r`, the action sends a message between the users of the pair: the
    one who is signed in sends the other one a text, coordinates, or a picture that
    has a JPEG representation. -/
inductive Sends (p : Sym2 UserID) (r : Repository) : Action → Prop
  | field {d : Device} {fromID toID : UserID} {message : Message} {content : String} :
    r.currentUser d = some fromID → message.type ≠ .photo →
    message.content = .field (.string content) → s(fromID, toID) = p →
    Sends p r (.send d message toID)
  | photo {d : Device} {fromID toID : UserID} {message : Message} :
    r.SendsPhoto d fromID message → s(fromID, toID) = p → Sends p r (.send d message toID)

theorem Sends.accepts (h : r.Sends p a) : r.Accepts a := by
  cases h with
  | field hd htype hcontent => exact .send hd htype hcontent
  | photo hphoto => exact .photo hphoto

/-- What is sent names the two users, and can be read. -/
theorem Sends.of_composes (h : r.Sends p a) (hu : r.Composes as n a u) :
    (Value.dictionary u.values).Names p ∧
      ∀ reader, downloadedMessage reader (.dictionary u.values) ≠ none := by
  cases hu with
  | @send d fromID toID message content hd htype hcontent =>
    cases h with
    | field hd' _ hcontent' hp =>
      obtain rfl := Option.some.inj (hd.symm.trans hd')
      obtain rfl := Content.field.inj (hcontent.symm.trans hcontent')
      refine ⟨hp ▸ names_messageValues .., fun reader => ?_⟩
      rw [downloadedMessage_messageValues]
      exact Option.some_ne_none _
    | photo hphoto => exact absurd hphoto.type htype
  | @photo d fromID toID currentUserID message path hphoto =>
    cases h with
    | field _ htype => exact absurd hphoto.type htype
    | photo hphoto' hp =>
      obtain rfl := Option.some.inj (hphoto.signedIn.symm.trans hphoto'.signedIn)
      refine ⟨hp ▸ names_messageValues .., fun reader => ?_⟩
      rw [downloadedMessage_messageValues]
      exact Option.some_ne_none _
  | uploadMessage => cases h

/-- What names the two users, and can be read, has been sent. -/
theorem Composes.sends (hu : r.Composes as n a u) (hsend : a.isSend)
    (hnames : (Value.dictionary u.values).Names p)
    (hread : downloadedMessage reader (.dictionary u.values) ≠ none) : r.Sends p a := by
  cases hu with
  | @send d fromID toID message content hd htype hcontent =>
    have hp := (names_messageValues ..).eq hnames
    cases content with
    | string content => exact .field hd htype hcontent hp
    | _ => exact absurd rfl hread
  | photo hphoto => exact .photo hphoto ((names_messageValues ..).eq hnames)
  | uploadMessage => cases hsend

theorem length_calls_step {t : Repository} (h : machine.step s a = some t) :
    s.calls.length ≤ t.calls.length := by
  cases Step.of_step h with
  | start => simp [start]
  | fire => simp [fire]
  | stop => simp
  | _ => exact Nat.le_refl _

/-- What the steps of a run meet, the action that starts a call does. -/
theorem StartedAt.along {C : Repository → Action → Prop} (h : StartedAt as n r a)
    (hC : machine.Along C as) : C r a := by
  obtain ⟨q, hq, hr, _⟩ := h
  exact hC q a hq r hr

/-- Where an action has something to store, one that comes later starts another call. -/
theorem eq_of_isPrefix {q q' : List Action} {r' : Repository} {a' : Action}
    (hr : machine.exec q = some r) (hr' : machine.exec q' = some r')
    (hq : q ++ [a] <+: q' ++ [a']) (ha : r.Accepts a)
    (hlength : r.calls.length = r'.calls.length) : r = r' ∧ a = a' := by
  rcases List.prefix_concat_iff.1 hq with he | hbefore
  · obtain ⟨rfl, hab⟩ := List.append_inj' he rfl
    exact ⟨Option.some.inj (hr.symm.trans hr'), List.singleton_inj.1 hab⟩
  · -- The call of the first action is there when the second one is taken.
    obtain ⟨t, ht⟩ := Machine.exec_of_isPrefix hr' hbefore
    obtain ⟨r₀, hr₀, hstep⟩ := Machine.exec_concat_eq_some.1 ht
    obtain rfl := Option.some.inj (hr.symm.trans hr₀)
    obtain ⟨c, hc, _⟩ := unstored_of_accepts ha hstep
    have hlt := (List.getElem?_eq_some_iff.1 hc).1
    have hle : t.calls.length ≤ r'.calls.length :=
      Machine.rel_of_isPrefix (R := fun s t => s.calls.length ≤ t.calls.length)
        (fun _ => Nat.le_refl _) (fun _ _ _ => Nat.le_trans) (fun _ _ _ _ => length_calls_step)
        hbefore ht hr'
    omega

/-- Two actions with something to store start different calls. -/
theorem StartedAt.unique {r' : Repository} {a' : Action} (hstart : StartedAt as n r a)
    (hstart' : StartedAt as n r' a') (ha : r.Accepts a) (ha' : r'.Accepts a') :
    r = r' ∧ a = a' := by
  obtain ⟨q, hq, hr, rfl⟩ := hstart
  obtain ⟨q', hq', hr', hn⟩ := hstart'
  rcases List.prefix_or_prefix_of_prefix hq hq' with hle | hle
  · exact eq_of_isPrefix hr hr' hle ha hn.symm
  · exact (eq_of_isPrefix hr' hr hle ha' hn).imp Eq.symm Eq.symm

/-- The records that name the two users, and that can be read. -/
def Between (p : Sym2 UserID) (s : Repository) : Set Reference :=
  {ref | ∃ v, s.db.message ref = some v ∧ v.Names p ∧ ∀ reader, downloadedMessage reader v ≠ none}

/-- In a run in which nothing goes wrong between two users, once all calls have ended,
    each message that one of them has sent the other has one record, which says what
    has been sent. -/
theorem exists_bijOn_sends (hreg : machine.Along (Regular p) as) (h : machine.exec as = some s)
    (hidle : s.Idle) : ∃ origin : Reference → ℕ,
      Set.BijOn origin (Between p s) {n | ∃ r a, StartedAt as n r a ∧ r.Sends p a} ∧
      ∀ ref v, s.db.message ref = some v → ∃ r a u, StartedAt as (origin ref) r a ∧
        r.Composes as (origin ref) a u ∧ SameRecord (.dictionary u.values) v := by
  obtain ⟨origin, htraced, hcomplete⟩ := exists_complete (hreg.mono fun _ _ hr => hr.answered) h
  refine ⟨origin, ⟨?_, htraced.injOn.mono ?_, ?_⟩, fun _ _ => htraced.composes⟩
  · rintro ref ⟨v, hv, hnames, hread⟩
    obtain ⟨r, a, u, hstart, hcomp, hsame⟩ := htraced.composes hv
    have hread' := hread ""
    rw [downloadedMessage_of_sameRecord hsame] at hread'
    exact ⟨r, a, hstart,
      hcomp.sends (hstart.along hreg).isSend (hsame.symm.names hnames) hread'⟩
  · rintro ref ⟨v, hv, _⟩
    simp [hv]
  · rintro n ⟨r, a, hstart, hsends⟩
    obtain ⟨ref, href, horigin⟩ := hcomplete.exists_message hidle hstart hsends.accepts
    obtain ⟨v, hv⟩ := Option.ne_none_iff_exists'.1 href
    obtain ⟨r', a', u, hstart', hcomp, hsame⟩ := htraced.composes hv
    obtain ⟨rfl, rfl⟩ := StartedAt.unique hstart (horigin ▸ hstart') hsends.accepts hcomp.accepts
    obtain ⟨hnames, hread⟩ := hsends.of_composes hcomp
    refine ⟨ref, ⟨v, hv, hsame.names hnames, fun reader => ?_⟩, horigin⟩
    rw [downloadedMessage_of_sameRecord hsame]
    exact hread reader

end Repository

end MagicChat
