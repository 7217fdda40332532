import MagicChat.Repository.Belongs
import MagicChat.Repository.Immutable
import MagicChat.Repository.Participants

/-!
# What the readers make of a message sent

A message that `u` sends to `v` (`Posted`) is encoded by `send`, and decoded by
two readers: `downloadAllMessages` for the chats, `downloadLastMessage` for the
lists. Both get back its type, its content and its timestamp, on either side,
as the `receiver`'s for `u` and as the `sender`'s for `v` (`Decodes`), whatever
happens after the record has been stored.

The read flag that `downloadLastMessage` reports is the stored one, and `v` has
to call `markMessagesRead` before it is set: only the two users of a location
mark the messages there, and the sender does not mark its own. But the record
of a photo is stored where the user signed in when the link comes uploads it,
and if that is not its sender, it is this user who may mark it.
-/

namespace MagicChat

/-- Where the call to `send` a message of `u` to `v` can wait, given which
    strings it can have uploaded as the content. -/
inductive Sending (u v : UserID) (message : Message) (uploads : String → Prop) : Call → Prop
  | putData {d : Device} : message.type = .photo →
    Sending u v message uploads (.putData d u v message.timestamp)
  | downloadURL {d : Device} : message.type = .photo →
    Sending u v message uploads (.downloadURL d u v message.timestamp)
  | uploading {c : Call} {content : String} : uploads content →
    c.upload? =
      some ⟨u, v, messageValues message.type (.string content) u v message.timestamp⟩ →
    Sending u v message uploads c
  | finished : Sending u v message uploads .finished

/-- An upload goes on, or ends. -/
theorem Resumes.upload_next {db : Database} {currentUser : Device → Option UserID} {c : Call}
    {r : Response} {o : Outcome} (h : Resumes db currentUser c r o) {u : Upload}
    (hu : c.upload? = some u) : o.next.upload? = some u ∨ o.next = .finished := by
  cases h with
  | located => exact .inl hu
  | malformed => exact .inr rfl
  | missing => exact .inl hu
  | appended => exact .inr rfl
  | created => exact .inl hu
  | ownPointed => exact .inl hu
  | peerPointed => exact .inr rfl
  | _ => simp [Call.upload?] at hu

namespace Sending

variable {u v : UserID} {message : Message} {uploads uploads' : String → Prop} {c : Call}

theorem mono (h : Sending u v message uploads c) (hup : ∀ text, uploads text → uploads' text) :
    Sending u v message uploads' c := by
  cases h with
  | putData hphoto => exact .putData hphoto
  | downloadURL hphoto => exact .downloadURL hphoto
  | uploading hcontent hu => exact .uploading (hup _ hcontent) hu
  | finished => exact .finished

/-- A message that is no photo is uploaded at once. -/
theorem send (d : Device)
    (h : message.type ≠ .photo → ∃ text, message.content = .field (.string text) ∧ uploads text) :
    Sending u v message uploads (MagicChat.send d (some u) message v) := by
  obtain ⟨type, content, owner, timestamp, isRead⟩ := message
  cases type with
  | photo =>
    cases content with
    | field f => exact .finished
    | image i =>
      simp only [MagicChat.send]
      split_ifs
      · exact .putData rfl
      · exact .finished
  | text =>
    obtain ⟨text, rfl, htext⟩ := h fun htype => by cases htype
    exact .uploading htext rfl
  | location =>
    obtain ⟨text, rfl, htext⟩ := h fun htype => by cases htype
    exact .uploading htext rfl

/-- A photo is uploaded when its link comes, by its sender if nobody else is signed in. -/
theorem resumes {db : Database} {currentUser : Device → Option UserID} {r : Response} {o : Outcome}
    (h : Sending u v message uploads c) (ho : Resumes db currentUser c r o)
    (hsame : ∀ d path u', c = .downloadURL d u v message.timestamp →
      r = .downloadURL (some path) → currentUser d = some u' → u' = u)
    (hlink : ∀ path, message.type = .photo → r = .downloadURL (some path) → uploads path) :
    Sending u v message uploads o.next := by
  cases h with
  | putData hphoto =>
    cases ho with
    | stored => exact .downloadURL hphoto
    | notStored => exact .finished
  | downloadURL hphoto =>
    cases ho with
    | linked hd =>
      obtain rfl := hsame _ _ _ rfl rfl hd
      exact .uploading (hlink _ hphoto rfl) (hphoto ▸ rfl)
    | notLinked => exact .finished
  | uploading hcontent hu =>
    rcases ho.upload_next hu with hnext | hnext
    · exact .uploading hcontent hnext
    · exact hnext ▸ .finished
  | finished => cases ho

end Sending

/-! ## The record of a message -/

section record

variable {u v : UserID} {type : MessageType} {content : Field} {text : String} {timestamp : Int}
  {w : Value}

/-- The fields of a record that agrees with the one of a message. -/
theorem SameRecord.field_messageValues
    (h : SameRecord (.dictionary (messageValues type content u v timestamp)) w) :
    w.field "type" = some (.string type.tag) ∧ w.field "content" = some content ∧
      w.fromID = some u ∧ w.field "timestamp" = some (.int timestamp) := by
  refine ⟨h "type" (by decide), h "content" (by decide), ?_, h "timestamp" (by decide)⟩
  rw [h.fromID]
  rfl

/-- `downloadAllMessages` accepts the record of a message with a string content. -/
theorem SameRecord.downloadedMessage
    (h : SameRecord (.dictionary (messageValues type (.string text) u v timestamp)) w)
    (reader : UserID) :
    downloadedMessage reader w =
      some { type, content := .field (.string text), owner := .of u reader, timestamp,
             isRead := true } := by
  obtain ⟨htype, hcontent, hfrom, htimestamp⟩ := h.field_messageValues
  refine downloadedMessage_eq_some_iff.2 ⟨type.tag, text, u, timestamp, ?_, ?_, hfrom, ?_, ?_⟩
  · rw [htype]
    rfl
  · rw [hcontent]
    rfl
  · rw [htimestamp]
    rfl
  · rw [MessageType.ofTag_tag]

/-- `downloadLastMessage` accepts the record of a message, and reports its read flag. -/
theorem SameRecord.listedMessage
    (h : SameRecord (.dictionary (messageValues type content u v timestamp)) w) {flag : Bool}
    (hflag : w.isRead = some flag) (reader : UserID) :
    listedMessage reader w =
      some { type, content := .field content, owner := .of u reader, timestamp,
             isRead := flag } := by
  obtain ⟨htype, hcontent, hfrom, htimestamp⟩ := h.field_messageValues
  refine listedMessage_eq_some_iff.2
    ⟨content, timestamp, type.tag, u, flag, hcontent, ?_, ?_, hfrom, hflag, ?_⟩
  · rw [htimestamp]
    rfl
  · rw [htype]
    rfl
  · rw [MessageType.ofTag_tag]

end record

/-- `downloadLastMessage` accepts the record, for every reader. -/
def Value.Listed (w : Value) : Prop := ∀ reader, (listedMessage reader w).isSome

theorem Value.listed_messageValues (type : MessageType) (content : Field) (fromID toID : UserID)
    (timestamp : Int) :
    (Value.dictionary (messageValues type content fromID toID timestamp)).Listed := fun reader => by
  rw [(SameRecord.refl _).listedMessage rfl reader]
  rfl

theorem Value.Listed.setRead {w : Value} (h : w.Listed) :
    (w.setField "isRead" (.bool true)).Listed := fun reader => by
  obtain ⟨message, hmessage⟩ := Option.isSome_iff_exists.1 (h reader)
  obtain ⟨content, timestamp, tag, fromID, _, hcontent, htimestamp, htag, hfrom, _⟩ :=
    listedMessage_eq_some_iff.1 hmessage
  refine Option.isSome_iff_exists.2 ⟨_, listedMessage_eq_some_iff.2
    ⟨content, timestamp, tag, fromID, true, ?_, ?_, ?_, ?_, isRead_setRead w, rfl⟩⟩
  · rw [Value.field_setField, if_neg (by decide), hcontent]
  · rw [Value.field_setField, if_neg (by decide), htimestamp]
  · rw [Value.field_setField, if_neg (by decide), htag]
  · rw [fromID_setRead, hfrom]

namespace Repository

/-- In the run `as`, the call `i` uploads the string as the content of the
    message: its text, or the link that has come to its photo. -/
def Uploads (as : List Action) (i : ℕ) (message : Message) (content : String) : Prop :=
  (message.type ≠ .photo ∧ message.content = .field (.string content)) ∨
    (message.type = .photo ∧ .resume i (.downloadURL (some content)) ∈ as)

/-- In the run `as`, the call `i` is to `send` a message of `u` to `v`, and has
    stored its record under `ref`. -/
def Posted (as : List Action) (i : ℕ) (u v : UserID) (message : Message) (ref : Reference) :
    Prop :=
  ∃ before d between after s t c upload,
    as = before ++ .send d message v :: between ++ .resume i (.write true) :: after ∧
    machine.exec before = some s ∧ s.currentUser d = some u ∧ s.calls.length = i ∧
    machine.exec (before ++ .send d message v :: between) = some t ∧ t.At i c ∧
    c.storing = some (upload, ref)

/-- When the link to the photo of the call `i` comes, nobody but its sender is
    signed in on the device. -/
def SameUserAt (i : ℕ) (s : Repository) (a : Action) : Prop :=
  ∀ path d fromID toID timestamp u, a = .resume i (.downloadURL (some path)) →
    s.At i (.downloadURL d fromID toID timestamp) → s.currentUser d = some u → u = fromID

/-- The reader is given the message under `ref` by `downloadAllMessages`, and by
    `downloadLastMessage`, which does not give up before it. -/
structure Decodes (db : Database) (ref : Reference) (message : Message) (content : String)
    (flag : Bool) (reader : UserID) (owner : MessageOwner) : Prop where
  downloaded : (db.message ref).bind (downloadedMessage reader) =
    some { type := message.type, content := .field (.string content), owner,
           timestamp := message.timestamp, isRead := true }
  listed : (db.message ref).bind (listedMessage reader) =
    some { type := message.type, content := .field (.string content), owner,
           timestamp := message.timestamp, isRead := flag }
  reached : ∀ e ∈ db.conversations ref.location, (listedMessage reader e.2).isSome

variable {as bs : List Action} {s t : Repository} {i : ℕ} {u v : UserID} {message : Message}
  {ref : Reference} {content : String}

theorem Uploads.mono (h : Uploads as i message content) (hp : as ⊆ bs) :
    Uploads bs i message content :=
  h.imp_right fun hlink => ⟨hlink.1, hp hlink.2⟩

/-! ## The call -/

/-- A call to `send` uploads the message of its sender, if nobody else is signed
    in when the link to a photo comes. -/
theorem sending_of_send {d : Device} (hs : machine.exec as = some s) (hu : s.currentUser d = some u)
    (hcontent : message.type ≠ .photo → ∃ text, message.content = .field (.string text))
    (hp : as ++ [.send d message v] <+: bs) (ht : machine.exec bs = some t)
    (hsame : machine.Along (SameUserAt s.calls.length) bs) :
    ∃ c, t.At s.calls.length c ∧
      Sending u v message (Uploads bs s.calls.length message) c := by
  refine Machine.exec_induction_from (motive := fun bs t => ∃ c, t.At s.calls.length c ∧
      Sending u v message (Uploads bs s.calls.length message) c)
    ⟨_, at_start_self _, ?_⟩ ?_ hp (Machine.exec_concat_eq_some.2 ⟨s, hs, rfl⟩) ht
  · rw [hu]
    refine .send d fun htype => ?_
    obtain ⟨text, htext⟩ := hcontent htype
    exact ⟨text, htext, .inl ⟨htype, htext⟩⟩
  · rintro bs r a r' - hbs hr ⟨c, hc, hsending⟩ hstep
    have hmono : ∀ text, Uploads bs s.calls.length message text →
        Uploads (bs ++ [a]) s.calls.length message text :=
      fun _ hup => hup.mono (List.subset_append_left bs [a])
    rcases at_of_step hstep hc with hc' | hc' | ⟨response, o, rfl, ho, hc'⟩
    · exact ⟨c, hc', hsending.mono hmono⟩
    · exact ⟨.finished, hc', .finished⟩
    · -- The condition of the run is needed where the link to a photo comes.
      refine ⟨o.next, hc', (hsending.mono hmono).resumes ho ?_ ?_⟩
      · rintro d path u' rfl rfl hd
        exact hsame bs _ hbs r hr path d u v message.timestamp u' rfl hc hd
      · rintro path hphoto rfl
        exact .inr ⟨hphoto, by simp⟩

/-! ## The record -/

/-- The write of a record about to be stored. -/
theorem message_of_storing {c : Call} {upload : Upload} (hc : s.At i c)
    (hstoring : c.storing = some (upload, ref))
    (h : machine.step s (.resume i (.write true)) = some t) :
    t.db.message ref = some (.dictionary upload.values) := by
  have hwrite : s.write? (.resume i (.write true)) = some (.setMessage ref upload.values) := by
    rw [write?, hc, Option.bind_some]
    cases c with
    | append =>
      obtain ⟨rfl, rfl⟩ := Prod.mk.inj (Option.some.inj hstoring)
      rfl
    | create =>
      obtain ⟨rfl, rfl⟩ := Prod.mk.inj (Option.some.inj hstoring)
      rfl
    | _ => simp [Call.storing] at hstoring
  rw [(Step.of_step h).db_eq, hwrite, Option.elim_some, Database.message_setMessage, if_pos rfl]

/-- The record is that of the message, at a location of `u` and `v`, and its read
    flag is only set if `v` has called `markMessagesRead`. -/
structure Kept (as : List Action) (s : Repository) (u v : UserID) (values : Fields)
    (ref : Reference) : Prop where
  belongs : s.Belongs ref.location s(u, v)
  drawn : ref.location ∈ s.issued
  record : ∃ w flag, s.db.message ref = some w ∧ SameRecord (.dictionary values) w ∧
    w.isRead = some flag ∧ (flag = true → ∃ j, StartedBy as j v)

/-- A step keeps the record. -/
theorem Kept.step {values : Fields} (h : Kept as s u v values ref)
    (hfrom : (Value.dictionary values).fromID = some u) (hs : machine.exec as = some s)
    {a : Action} (ht : machine.step s a = some t) : Kept (as ++ [a]) t u v values ref where
  belongs := h.belongs.step (fresh_of_reachable ⟨as, hs⟩) h.drawn (.of_step ht)
  drawn := (Step.of_step ht).issued_subset h.drawn
  record := by
    obtain ⟨w, flag, hw, hsame, hflag, hcause⟩ := h.record
    rcases message_step hs ht hw with
      hkeep | ⟨hset, r, j, reader, f, keys, hr, _, hj, hstart, hf, hne⟩
    · refine ⟨w, flag, hkeep, hsame, hflag, fun htrue => ?_⟩
      obtain ⟨j, hj⟩ := hcause htrue
      exact ⟨j, hj.append [a]⟩
    · refine ⟨_, true, hset, hsame.setRead, isRead_setRead w, fun _ => ⟨j, ?_⟩⟩
      -- The reader is one of the two users of the location, and not the sender.
      obtain rfl : s = r := Option.some.inj (hs.symm.trans hr)
      obtain rfl : u = f := Option.some.inj ((hfrom.symm.trans hsame.fromID.symm).trans hf)
      have hreader : reader = u ∨ reader = v := Sym2.mem_iff.1 (h.belongs.readers j _ reader hj rfl)
      obtain rfl := hreader.resolve_left hne
      exact hstart.append [a]

/-- The record of a message is kept from the moment when it is stored. -/
theorem kept_of_posted {c : Call} (hs : machine.exec as = some s) (hc : s.At i c)
    {values : Fields} (hstoring : c.storing = some (⟨u, v, values⟩, ref))
    (hfrom : (Value.dictionary values).fromID = some u)
    (hflag : (Value.dictionary values).isRead = some false)
    (hp : as ++ [.resume i (.write true)] <+: bs) (ht : machine.exec bs = some t) :
    Kept bs t u v values ref := by
  obtain ⟨r, hr, _⟩ : ∃ r, machine.step s (.resume i (.write true)) = some r ∧
      machine.exec (as ++ [.resume i (.write true)]) = some r := by
    obtain ⟨r, hr⟩ := Machine.exec_of_isPrefix ht hp
    obtain ⟨s', hs', hstep⟩ := Machine.exec_concat_eq_some.1 hr
    obtain rfl : s = s' := Option.some.inj (hs.symm.trans hs')
    exact ⟨r, hstep, hr⟩
  have hreach : machine.Reachable s := ⟨as, hs⟩
  have href : c.ref? = some (⟨u, v, values⟩, ref) := Call.ref?_of_storing hstoring
  refine Machine.exec_induction_from (motive := fun bs t => Kept bs t u v values ref) ?_
    (fun bs r a r' _ _ hr hkept hstep => hkept.step hfrom hr hstep) hp
    (Machine.exec_concat_eq_some.2 ⟨s, hs, hr⟩) ht
  have hdrawn : ref.location ∈ s.issued := (located_of_reachable hreach).refs i c _ ref hc href
  -- The call holds the location, which is therefore that of its own pair.
  obtain ⟨p, hbelongs⟩ := exists_belongs_of_reachable hreach ref.location
  obtain rfl : s(u, v) = p := hbelongs.refs i c _ ref hc href rfl
  exact
    { belongs := hbelongs.step (fresh_of_reachable hreach) hdrawn (.of_step hr)
      drawn := (Step.of_step hr).issued_subset hdrawn
      record := ⟨_, false, message_of_storing hc hstoring hr, .refl _, hflag, nofun⟩ }

/-! ## The other records -/

/-- `downloadLastMessage` accepts all records, stored or about to be. -/
structure AllListed (s : Repository) : Prop where
  uploads : ∀ i c u, s.At i c → c.upload? = some u → (Value.dictionary u.values).Listed
  records : ∀ ref w, s.db.message ref = some w → w.Listed

theorem allListed_init : machine.init.AllListed where
  uploads _ _ _ h := absurd h not_at_init
  records _ _ h := by simp [machine, Database.message, Database.empty] at h

theorem AllListed.step {a : Action} (h : s.AllListed) (hs : s.Fresh) (hsend : a.isSend)
    (ht : s.Step a t) : t.AllListed := by
  cases ht with
  | login => exact ⟨h.uploads, h.records⟩
  | logOut => exact ⟨h.uploads, h.records⟩
  | start hc =>
    refine ⟨fun j c u hj hu => ?_, h.records⟩
    rcases at_start hj with hj | ⟨rfl, rfl⟩
    · exact h.uploads j c u hj hu
    · cases hc with
      | send => exact Option.some.inj hu ▸ Value.listed_messageValues _ _ _ _ _
      | upload => simp [Action.isSend] at hsend
      | _ => simp [Call.upload?] at hu
  | @fire i r c o hc ho =>
    constructor
    · intro j c' u hj hu
      rcases at_set hj with ⟨rfl, rfl⟩ | ⟨_, hj⟩
      · rcases ho.upload? hu with hu | ⟨_, _, _, _, _, _, _, hvalues⟩
        · exact h.uploads j c u hc hu
        · exact hvalues ▸ Value.listed_messageValues _ _ _ _ _
      · exact h.uploads j c' u hj hu
    · refine hs.forall_written_message hc r h.records (fun u ref hu => ?_) fun _ _ hw => hw.setRead
      exact h.uploads i c u hc (Call.upload?_of_ref? (Call.ref?_of_storing hu))
  | stop => exact ⟨fun j c u hj hu => h.uploads j c u (at_of_stop rfl hj hu) hu, h.records⟩

theorem allListed_of_isSend (hsend : ∀ a ∈ as, a.isSend) (h : machine.exec as = some s) :
    s.AllListed :=
  (Machine.along_of_forall hsend).invariant (I := AllListed) allListed_init
    (fun _ _ _ hr hi ha ht => hi.step (fresh_of_reachable hr) ha (.of_step ht)) h

/-! ## The readers -/

/-- A record of the message is decoded by both readers. -/
theorem decodes_of_sameRecord {w : Value} {flag : Bool} (hs : s.AllListed)
    (hw : s.db.message ref = some w)
    (hsame : SameRecord
      (.dictionary (messageValues message.type (.string content) u v message.timestamp)) w)
    (hflag : w.isRead = some flag) (reader : UserID) :
    Decodes s.db ref message content flag reader (.of u reader) where
  downloaded := by rw [hw, Option.bind_some, hsame.downloadedMessage]
  listed := by rw [hw, Option.bind_some, hsame.listedMessage hflag]
  reached e he := by
    have hmessage : s.db.message ⟨ref.location, e.1⟩ = some e.2 :=
      (s.db.nodup_conversations ref.location).lookup_eq_some_iff.2 he
    exact hs.records _ e.2 hmessage reader

/-- A message that `u` has sent to `v` is decoded by both readers on both sides,
    if nobody but `u` is signed in when the link to a photo comes; and its read
    flag is not set before `v` has called `markMessagesRead`. -/
theorem decodes_of_posted (hsend : ∀ a ∈ as, a.isSend) (hsame : machine.Along (SameUserAt i) as)
    (ht : machine.exec as = some t) (hposted : Posted as i u v message ref) (hne : u ≠ v)
    (hcontent : message.type ≠ .photo → ∃ text, message.content = .field (.string text)) :
    ∃ content flag, Uploads as i message content ∧
      (t.db.message ref).bind Value.isRead = some flag ∧
      Decodes t.db ref message content flag u .receiver ∧
      Decodes t.db ref message content flag v .sender ∧
      (flag = true → ∃ j, StartedBy as j v) := by
  obtain ⟨before, d, between, after, s, r, c, upload, rfl, hs, hu, rfl, hr, hc, hstoring⟩ := hposted
  have hbetween : before ++ .send d message v :: between <+:
      before ++ .send d message v :: between ++ .resume s.calls.length (.write true) :: after :=
    List.prefix_append _ _
  have hp : before ++ [.send d message v] <+: before ++ .send d message v :: between :=
    (List.prefix_append_right_inj before).2 (List.prefix_append [.send d message v] between)
  obtain ⟨c', hc', hsending⟩ := sending_of_send hs hu hcontent hp hr (hsame.of_isPrefix hbetween)
  obtain rfl : c = c' := Option.some.inj (hc.symm.trans hc')
  have hupload : c.upload? = some upload := Call.upload?_of_ref? (Call.ref?_of_storing hstoring)
  cases hsending with
  | @uploading _ content hcontent hup =>
    obtain rfl := Option.some.inj (hup.symm.trans hupload)
    have hafter : before ++ .send d message v :: between ++
        [.resume s.calls.length (.write true)] <+:
        before ++ .send d message v :: between ++ .resume s.calls.length (.write true) :: after :=
      (List.prefix_append_right_inj _).2 (List.prefix_append [_] after)
    obtain ⟨w, flag, hw, hrecord, hflag, hcause⟩ :=
      (kept_of_posted hr hc hstoring rfl rfl hafter ht).record
    have hdecodes := decodes_of_sameRecord (allListed_of_isSend hsend ht) hw hrecord hflag
    refine ⟨content, flag, hcontent.mono hbetween.subset, ?_, ?_, ?_, hcause⟩
    · rw [hw, Option.bind_some, hflag]
    · have hown := hdecodes u
      rwa [MessageOwner.of, if_pos rfl] at hown
    · have hother := hdecodes v
      rwa [MessageOwner.of, if_neg hne] at hother
  | _ => simp [Call.upload?] at hupload

/-- The first message is decoded on both sides. -/
theorem decodes_firstMessage : ∃ t content flag, machine.exec firstMessage = some t ∧
    Uploads firstMessage 0 (composeMessage .text (.field (.string "hi")) 1) content ∧
    Decodes t.db ⟨"L", "k"⟩ (composeMessage .text (.field (.string "hi")) 1) content flag "v"
      .sender := by
  have hposted : Posted firstMessage 0 "u" "v" (composeMessage .text (.field (.string "hi")) 1)
      ⟨"L", "k"⟩ :=
    ⟨[.loginUser 0 "u", .loginUser 1 "v"], 0, [.resume 0 (.snapshot ⟨"L", "k"⟩)],
      [.resume 0 (.write true), .resume 0 (.write true)], _, _, _, _, rfl, rfl, rfl, rfl, rfl, rfl,
      rfl⟩
  have hsame : machine.Along (SameUserAt 0) firstMessage := by
    have hlinks : ∀ a ∈ firstMessage, ∀ path, a ≠ .resume 0 (.downloadURL (some path)) := by
      simp [firstMessage]
    exact (Machine.along_of_forall hlinks).mono fun _ _ h path _ _ _ _ _ ha => absurd ha (h path)
  obtain ⟨content, flag, hcontent, _, _, hv, _⟩ := decodes_of_posted (by decide) hsame rfl hposted
    (by decide) fun _ => ⟨"hi", rfl⟩
  exact ⟨_, content, flag, rfl, hcontent, hv⟩

/-- A user who is signed in has signed in. -/
theorem mem_of_currentUser {d : Device} (h : machine.exec as = some s)
    (hu : s.currentUser d = some u) : .loginUser d u ∈ as := by
  refine Machine.exec_induction
    (motive := fun as s => s.currentUser d = some u → .loginUser d u ∈ as)
    (fun hu => by simp [machine] at hu) ?_ h hu
  intro as s a t _ ih ht hu
  have keep : s.currentUser d = some u → .loginUser d u ∈ as ++ [a] := fun hu =>
    List.mem_append_left _ (ih hu)
  cases Step.of_step ht with
  | @login d' u' =>
    change Function.update s.currentUser d' (some u') d = some u at hu
    rw [Function.update_apply] at hu
    split_ifs at hu with hd
    · obtain rfl := Option.some.inj hu
      exact List.mem_append_right _ (hd ▸ List.mem_singleton_self _)
    · exact keep hu
  | @logOut d' =>
    change Function.update s.currentUser d' none d = some u at hu
    rw [Function.update_apply] at hu
    split_ifs at hu
    exact keep hu
  | start => exact keep hu
  | fire => exact keep hu
  | stop => exact keep hu

/-- `c`, who has signed in on the device of `a` before the link to the photo
    has come, reads the conversation with `b`. -/
def readByOther : List Action :=
  sendPhoto [.logOutUser 0, .loginUser 0 "c"] ++
    [.markMessagesRead 0 "b", .resume 1 (.snapshot ⟨"", ""⟩), .resume 1 (.snapshot ⟨"", ""⟩),
      .resume 1 (.write true)]

/-- The photo of `a` to `b` is marked as read, and `b` has never called `markMessagesRead`. -/
theorem isRead_readByOther : ∃ t, machine.exec readByOther = some t ∧
    Posted readByOther 0 "a" "b" (composeMessage .photo (.image ⟨0, true⟩) 1) ⟨"L", "k"⟩ ∧
    (t.db.message ⟨"L", "k"⟩).bind Value.isRead = some true ∧
    ¬∃ j, StartedBy readByOther j "b" := by
  refine ⟨_, rfl, ?_, rfl, ?_⟩
  · exact ⟨[.loginUser 0 "a"], 0,
      [.resume 0 (.putData true), .logOutUser 0, .loginUser 0 "c",
        .resume 0 (.downloadURL (some "url")), .resume 0 (.snapshot ⟨"L", "k"⟩)],
      [.resume 0 (.write true), .resume 0 (.write true), .markMessagesRead 0 "b",
        .resume 1 (.snapshot ⟨"", ""⟩), .resume 1 (.snapshot ⟨"", ""⟩), .resume 1 (.write true)],
      _, _, _, _, rfl, rfl, rfl, rfl, rfl, rfl, rfl⟩
  · rintro ⟨j, p, d, peer, s, hp, hs, _, hd⟩
    have hlogin : .loginUser d "b" ∈ readByOther :=
      hp.subset (List.mem_append_left _ (mem_of_currentUser hs hd))
    simp [readByOther, sendPhoto] at hlogin

end Repository

end MagicChat
