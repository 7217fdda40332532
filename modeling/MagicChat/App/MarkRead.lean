import MagicChat.App.Delivered
import MagicChat.ChatVC.Items

/-!
# The messages marked when a chat closes

`viewWillDisappear` starts a call to `markMessagesRead`, which reads the pointer
and then the conversation, each at some later time. What it marks are messages
stored there since then, and not by the user (`StoredAfter`), and not what the
screen has shown: a message that comes in between is marked as well.

Of the messages that the conversation holds when the chat closes, though, it
marks only those on the screen, and those whose events are still to come
(`shows_or_awaits_of_marked`), if every download of the chat has completed in
place.
-/

namespace MagicChat

/-! ## The call -/

/-- Where a call of `u` to mark the messages of `v` can wait, when `located` are
    the locations that it can have read, and `snapped` the messages. -/
inductive Marking (u v : UserID) (located : Key → Prop) (snapped : Reference → Prop) : Call → Prop
  | pointer : Marking u v located snapped (.markPointer u v)
  | snapshot {L : Key} : located L → Marking u v located snapped (.markSnapshot u L)
  | writes {L : Key} {keys : List Key} : (∀ k ∈ keys, snapped ⟨L, k⟩) →
    Marking u v located snapped (.markWrites u L keys)
  | finished : Marking u v located snapped .finished

section marking

variable {u v : UserID} {located located' : Key → Prop} {snapped snapped' : Reference → Prop}
  {c : Call}

theorem Marking.mono (h : Marking u v located snapped c) (hl : ∀ L, located L → located' L)
    (hs : ∀ ref, snapped ref → snapped' ref) : Marking u v located' snapped' c := by
  cases h with
  | pointer => exact .pointer
  | snapshot hL => exact .snapshot (hl _ hL)
  | writes hk => exact .writes fun k hmem => hs _ (hk k hmem)
  | finished => exact .finished

/-- The callbacks read the location off the pointer, and the messages off the conversation. -/
theorem Marking.resumes {db : Database} {currentUser : Device → Option UserID} {r : Response}
    {o : Outcome} (h : Marking u v located snapped c) (ho : Resumes db currentUser c r o)
    (hl : ∀ L, db.location u v = some L → located L)
    (hs : ∀ ref w f, located ref.location → db.message ref = some w → w.fromID = some f → f ≠ u →
      snapped ref) : Marking u v located snapped o.next := by
  cases h with
  | pointer =>
    cases ho with
    | markLocated hL => exact .snapshot (hl _ hL)
    | unmarked => exact .finished
  | snapshot hL =>
    cases ho with
    | snapped =>
      refine .writes fun k hk => ?_
      obtain ⟨w, f, hmem, hf, hne⟩ := exists_of_mem_keysToMark hk
      exact hs ⟨_, k⟩ w f hL ((db.nodup_conversations _).lookup_eq_some_iff.2 hmem) hf hne
  | writes hk =>
    cases ho with
    | marked => exact .writes fun k hmem => hk k (List.mem_cons_of_mem _ hmem)
  | finished => cases ho

end marking

/-! ## The chat -/

/-- The event brings the record, or the location where it is. -/
def ChatEvent.Brings (ref : Reference) : ChatEvent → Prop
  | .value snapshot => snapshot.bind Value.location = some ref.location
  | .childAdded ref' _ => ref' = ref

namespace Chat

/-- The conversation of the chat holds a message under `ref`. -/
def Holds (db : Database) (c : Chat) (ref : Reference) : Prop :=
  db.location c.user c.peer = some ref.location ∧
    ∃ v, db.message ref = some v ∧ downloadedMessage c.user v ≠ none

/-- The message under `ref` is on the screen. -/
def Shows (c : Chat) (ref : Reference) : Prop :=
  ∃ item ∈ c.screen.items, c.sources[item.id]? = some ref

/-- An event is pending that brings the message under `ref`. -/
def Awaits (c : Chat) (ref : Reference) : Prop := ∃ e ∈ c.events, e.Brings ref

/-- The location of the pointer is observed, or about to be. -/
def Follows (db : Database) (c : Chat) : Prop :=
  ∀ L, db.location c.user c.peer = some L → L ∈ c.locations

theorem follows_opened (db : Database) (d : Device) (user peer : UserID) :
    (opened db d user peer).Follows db := fun _ hL =>
  List.mem_append_right _ (List.mem_filterMap.2 ⟨_, List.mem_singleton_self _, hL⟩)

/-- A change of the pointer is about to come. -/
theorem Follows.notify {db db' : Database} {c : Chat} (h : c.Follows db) :
    (c.notify db db').Follows db' := by
  intro L hL
  rw [locations_notify, List.mem_append]
  by_cases hp : db'.pointer c.user c.peer = db.pointer c.user c.peer
  · refine .inl (h L ?_)
    rw [Database.location, ← hp]
    exact hL
  · rw [if_neg hp, Option.mem_toList]
    exact .inr hL

theorem Follows.receive {S : Sorter Item Item.Before} {db : Database} {c : Chat}
    (h : c.Follows db) {i : ℕ} {e : ChatEvent} (he : c.events[i]? = some e) :
    (Chat.receive S db { c with events := c.events.eraseIdx i } e).Follows db := by
  intro L hL
  rw [receive_user, receive_peer] at hL
  exact (locations_receive he).mem_iff.2 (h L hL)

/-- A message in the log is on the screen, if the items are the delivered ones. -/
theorem shows_of_mem_log {c : Chat} (htr : c.screen.Tracked) (hf : c.screen.Faithful)
    {ref : Reference} {message : Message} (h : (ref, message) ∈ c.log) : c.Shows ref := by
  obtain ⟨i, hi⟩ := List.getElem?_of_mem h
  obtain ⟨hsource, hmessage⟩ := List.getElem?_zip_eq_some.1 hi
  rw [List.getElem?_map, Option.map_eq_some_iff] at hmessage
  obtain ⟨item, hitem, _⟩ := hmessage
  refine ⟨item, hf.1.mem_iff.2 (List.mem_of_getElem? hitem), ?_⟩
  rw [htr.id_eq hitem, hsource]

/-- A message of the conversation is on the screen, or about to come. -/
theorem shows_or_awaits {db : Database} {c : Chat} (htold : c.Told db) (hfollows : c.Follows db)
    (htr : c.screen.Tracked) (hf : c.screen.Faithful) {ref : Reference} (h : c.Holds db ref) :
    c.Shows ref ∨ c.Awaits ref := by
  obtain ⟨hL, v, hv, hmessage⟩ := h
  rcases List.mem_append.1 (hfollows _ hL) with hobserved | hpending
  · -- The location is observed: the record has been delivered, or its event is pending.
    obtain ⟨message, hmessage⟩ := Option.ne_none_iff_exists'.1 hmessage
    have hdelivery : (ref, message) ∈
        deliveries c.user ref.location (db.conversations ref.location) := by
      refine List.mem_filterMap.2 ⟨(ref.key, v), Keyed.mem_of_lookup hv, ?_⟩
      rw [delivery?, hmessage]
      rfl
    have hstored : (ref, message) ∈
        c.observed.flatMap fun L => deliveries c.user L (db.conversations L) :=
      List.mem_flatMap.2 ⟨ref.location, hobserved, hdelivery⟩
    rcases List.mem_append.1 (htold.deliveries.mem_iff.2 hstored) with hlog | hevents
    · exact .inl (shows_of_mem_log htr hf hlog)
    · obtain ⟨e, he, hbrings⟩ := List.mem_filterMap.1 hevents
      refine .inr ⟨e, he, ?_⟩
      cases e with
      | value => cases hbrings
      | childAdded ref' snap =>
        obtain ⟨_, _, hpair⟩ := Option.map_eq_some_iff.1 hbrings
        exact (Prod.mk.inj hpair).1
  · -- The pointer itself has not come yet.
    obtain ⟨e, he, hlocation⟩ := List.mem_filterMap.1 hpending
    refine .inr ⟨e, he, ?_⟩
    cases e with
    | value => exact hlocation
    | childAdded => cases hlocation

/-- What an event brings to the screen is a delivery, or nothing. -/
theorem receive_screen (S : Sorter Item Item.Before) (db : Database) (c : Chat) (e : ChatEvent) :
    (receive S db c e).screen = c.screen ∨
      ∃ message, (receive S db c e).screen = c.screen.deliver S message := by
  cases e with
  | value snapshot =>
    rw [receive]
    split <;> exact .inl rfl
  | childAdded ref snap =>
    rw [receive]
    split
    · next message _ => exact .inr ⟨message, rfl⟩
    · exact .inl rfl

end Chat

namespace App

variable {F : Foundation} {s t : App}

/-! ## The screen -/

/-- A move of a chat is a step of its screen, or leaves it alone. -/
theorem ChatMove.screen_step {j : ℕ} {c c' : Chat} {a : Action} (h : ChatMove F s t j c a c') :
    c'.screen = c.screen ∨ ∃ b, (b.isDelivery ∨ a = .screen j b) ∧
      (ChatVC.machine F.sortItems F.validURL).step c.screen b = some c'.screen := by
  cases h with
  | notify => exact .inl rfl
  | @receive i e =>
    rcases Chat.receive_screen F.sortItems s.repo.db
      { c with events := c.events.eraseIdx i } e with he | ⟨message, he⟩
    · exact .inl he
    · exact .inr ⟨.deliver message, .inl rfl, congrArg some he.symm⟩
  | @screen b _ _ hstep => exact .inr ⟨b, .inr rfl, hstep⟩
  | stay => exact .inl rfl

/-- The screen of a chat is a chat screen. -/
theorem reachable_screen (h : (machine F).Reachable s) {j : ℕ} {c : Chat}
    (hc : s.chats[j]? = some c) :
    (ChatVC.machine F.sortItems F.validURL).Reachable c.screen := by
  refine chat_invariant_of_reachable
    (P := fun _ c => (ChatVC.machine F.sortItems F.validURL).Reachable c.screen)
    (fun _ _ _ _ => .init) (fun s t j c a c' _ hi hmove => ?_) h hc
  rcases hmove.screen_step with he | ⟨b, _, hstep⟩
  · rw [he]
    exact hi
  · exact hi.step hstep

/-- The downloads of the chat `j` complete in place. -/
def InPlaceAt (j : ℕ) (s : App) (a : Action) : Prop :=
  ∀ b c, a = .screen j b → s.chats[j]? = some c → c.screen.InPlace b

theorem faithful_of_inPlaceAt {j : ℕ} {as : List Action} (hin : (machine F).Along (InPlaceAt j) as)
    (h : (machine F).exec as = some s) {c : Chat} (hc : s.chats[j]? = some c) :
    c.screen.Faithful := by
  refine chat_invariant (P := fun j' _ c => j' = j → c.screen.Faithful)
    (fun _ _ _ _ _ _ => ⟨.refl _, .nil⟩) (fun s t j' c a c' _ _ ha hj hi hmove heq => ?_)
    hin h j c hc rfl
  subst heq
  rcases hmove.screen_step with he | ⟨b, hb, hstep⟩
  · rw [he]
    exact hi rfl
  · refine (hi rfl).step ?_ (.of_step hstep)
    rcases hb with hb | rfl
    · -- A delivery completes no download.
      rintro _ _ _ rfl
      cases hb
    · exact ha b c rfl hj

theorem follows_of_reachable (h : (machine F).Reachable s) {j : ℕ} {c : Chat}
    (hc : s.chats[j]? = some c) : c.Follows s.repo.db := by
  refine chat_invariant_of_reachable (P := fun db c => c.Follows db) Chat.follows_opened
    (fun s t j c a c' _ hi hmove => ?_) h hc
  cases hmove with
  | notify => exact hi.notify
  | receive he hrepo =>
    rw [hrepo]
    exact hi.receive he
  | screen _ _ hrepo =>
    rw [hrepo]
    exact hi
  | stay hdb =>
    rw [hdb]
    exact hi

/-! ## The call of a closed chat -/

/-- Some time along `m`, after the run `p`, the pointer of `u` to `v` holds the location. -/
def LocatedAfter (F : Foundation) (p m : List Action) (u v : UserID) (L : Key) : Prop :=
  ∃ m₁ y, m₁ <+: m ∧ (machine F).exec (p ++ m₁) = some y ∧ y.repo.db.location u v = some L

/-- Some time along `m`, after the run `p`, the pointer of `u` to `v` holds the
    location of `ref`, and from then on, some time, a message is stored under `ref`,
    which is not by `u`. -/
def StoredAfter (F : Foundation) (p m : List Action) (u v : UserID) (ref : Reference) : Prop :=
  ∃ m₁ m₂ y z w f, m₁ <+: m₂ ∧ m₂ <+: m ∧
    (machine F).exec (p ++ m₁) = some y ∧ y.repo.db.location u v = some ref.location ∧
    (machine F).exec (p ++ m₂) = some z ∧ z.repo.db.message ref = some w ∧
    w.fromID = some f ∧ f ≠ u

/-- What a call to mark messages knows, it has read since it has started. -/
theorem marking_of_exec {p m : List Action} {n : ℕ} {u v : UserID} {x : App}
    (hs : (machine F).exec p = some s) (hn : s.repo.At n (.markPointer u v))
    (hx : (machine F).exec (p ++ m) = some x) :
    ∃ c, x.repo.At n c ∧ Marking u v (LocatedAfter F p m u v) (StoredAfter F p m u v) c := by
  induction m using List.reverseRecOn generalizing x with
  | nil =>
    rw [List.append_nil, hs] at hx
    obtain rfl := Option.some.inj hx
    exact ⟨_, hn, .pointer⟩
  | append_singleton m a ih =>
    rw [← List.append_assoc] at hx
    obtain ⟨y, hy, ht⟩ := Machine.exec_concat_eq_some.1 hx
    obtain ⟨c, hc, hm⟩ := ih hy
    have hpre := List.prefix_append m [a]
    have later : ∀ {c'}, Marking u v (LocatedAfter F p m u v) (StoredAfter F p m u v) c' →
        Marking u v (LocatedAfter F p (m ++ [a]) u v) (StoredAfter F p (m ++ [a]) u v) c' :=
      fun h => h.mono (fun L ⟨m₁, y, hm₁, h⟩ => ⟨m₁, y, hm₁.trans hpre, h⟩)
        fun ref ⟨m₁, m₂, y, z, w, f, hm₁, hm₂, h⟩ =>
          ⟨m₁, m₂, y, z, w, f, hm₁, hm₂.trans hpre, h⟩
    rcases repo_of_step ht with he | ⟨b, hb⟩
    · exact ⟨c, he ▸ hc, later hm⟩
    · rcases Repository.at_of_step hb hc with hc | hc | ⟨r, o, _, ho, hc⟩
      · exact ⟨c, hc, later hm⟩
      · exact ⟨_, hc, .finished⟩
      · -- The callback reads the database before the step.
        refine ⟨_, hc, later (hm.resumes ho (fun L hL => ⟨m, y, List.prefix_rfl, hy, hL⟩) ?_)⟩
        rintro ref w f ⟨m₁, z, hm₁, hz, hL⟩ hw hf hne
        exact ⟨m₁, m, z, y, w, f, hm₁, List.prefix_rfl, hz, hL, hy, hw, hf, hne⟩

/-- What the call started by closing a chat marks, has been stored in the conversation
    since, and not by its user; and of the messages that the conversation held when
    the chat was closed, with every download in place, it marks those that were on the
    screen, or about to come. -/
theorem shows_or_awaits_of_marked {p m : List Action} {j : ℕ} {r x : App} {c : Chat}
    (hr : (machine F).exec p = some r) (hc : r.chats[j]? = some c)
    (hu : r.repo.currentUser c.device = some c.user)
    (hx : (machine F).exec (p ++ [.closeChat j] ++ m) = some x) {ref : Reference}
    (hw : x.repo.write? (.resume r.repo.calls.length (.write true)) = some (.setRead ref)) :
    StoredAfter F (p ++ [.closeChat j]) m c.user c.peer ref ∧
      ((machine F).Along (InPlaceAt j) p → c.Holds r.repo.db ref →
        c.Shows ref ∨ c.Awaits ref) := by
  refine ⟨?_, ?_⟩
  · -- The call is followed from the step that closes the chat.
    obtain ⟨s, hs, _⟩ := Machine.exec_append_eq_some.1 hx
    obtain ⟨r', hr', hclose⟩ := Machine.exec_concat_eq_some.1 hs
    obtain rfl : r = r' := Option.some.inj (hr.symm.trans hr')
    obtain ⟨c', hc', rfl⟩ := step_closeChat hclose
    obtain rfl : c = c' := Option.some.inj (hc.symm.trans hc')
    have hstart : (r.markMessagesRead c.device c.peer).repo.At r.repo.calls.length
        (.markPointer c.user c.peer) := by
      simp [markMessagesRead, hu, MagicChat.markMessagesRead, Repository.At, Repository.start]
    obtain ⟨call, hcall, hmarking⟩ := marking_of_exec hs hstart hx
    obtain ⟨call', hcall', hwrite⟩ := Option.bind_eq_some_iff.1 hw
    obtain rfl : call = call' := Option.some.inj (hcall.symm.trans hcall')
    cases hmarking with
    | @writes L keys hk =>
      cases keys with
      | nil => cases hwrite
      | cons k keys =>
        obtain rfl := Write.setRead.inj (Option.some.inj hwrite)
        exact hk k List.mem_cons_self
    | _ => cases hwrite
  · intro hin
    exact Chat.shows_or_awaits (told_of_reachable ⟨p, hr⟩ hc) (follows_of_reachable ⟨p, hr⟩ hc)
      (ChatVC.tracked_of_reachable (reachable_screen ⟨p, hr⟩ hc)) (faithful_of_inPlaceAt hin hr hc)

/-- `v` sends `u` a first message, and `u` opens the chat, which shows it. -/
def shownChat : List Action :=
  [.repository (.loginUser 0 "u"), .repository (.loginUser 1 "v"),
    .repository (.send 1 (composeMessage .text (.field (.string "hi")) 1) "u"),
    .repository (.resume 0 (.snapshot ⟨"L", "k"⟩)), .repository (.resume 0 (.write true)),
    .repository (.resume 0 (.write true)), .repository (.resume 0 (.write true)),
    .openChat 0 "v", .chatEvent 0 0, .chatEvent 0 0]

/-- The call reads the pointer and the conversation. -/
def readConversation (n : ℕ) : List Action :=
  [.repository (.resume n (.snapshot ⟨"", ""⟩)), .repository (.resume n (.snapshot ⟨"", ""⟩))]

/-- The message shown is marked when the chat closes. -/
theorem shows_shownChat : ∃ r c, (machine .insertion).exec shownChat = some r ∧
    r.chats[0]? = some c ∧ c.events = [] ∧ c.Holds r.repo.db ⟨"L", "k"⟩ ∧
    StoredAfter .insertion (shownChat ++ [.closeChat 0]) (readConversation 2) "u" "v" ⟨"L", "k"⟩ ∧
    (c.Shows ⟨"L", "k"⟩ ∨ c.Awaits ⟨"L", "k"⟩) := by
  have hin : (machine .insertion).Along (InPlaceAt 0) shownChat := by
    have hnone : ∀ a ∈ shownChat, ∀ b, a ≠ .screen 0 b := by
      simp [shownChat]
    exact (Machine.along_of_forall hnone).mono fun _ a ha b _ hb => absurd hb (ha b)
  obtain ⟨r, c, x, hr, hc, hevents, huser, hpeer, hu, hholds, hx, hw⟩ : ∃ r c x,
      (machine .insertion).exec shownChat = some r ∧ r.chats[0]? = some c ∧ c.events = [] ∧
      c.user = "u" ∧ c.peer = "v" ∧ r.repo.currentUser c.device = some c.user ∧
      c.Holds r.repo.db ⟨"L", "k"⟩ ∧
      (machine .insertion).exec (shownChat ++ [.closeChat 0] ++ readConversation 2) = some x ∧
      x.repo.write? (.resume r.repo.calls.length (.write true)) = some (.setRead ⟨"L", "k"⟩) :=
    ⟨_, _, _, rfl, rfl, rfl, rfl, rfl, rfl, ⟨rfl, _, rfl, by decide⟩, rfl, rfl⟩
  obtain ⟨hstored, hshows⟩ := shows_or_awaits_of_marked hr hc hu hx hw
  rw [huser, hpeer] at hstored
  exact ⟨r, c, hr, hc, hevents, hholds, hstored, hshows hin hholds⟩

/-- `u` has closed the chat when `v` sends a first message. -/
def sentAfterClose : List Action :=
  [.repository (.send 1 (composeMessage .text (.field (.string "hi")) 1) "u"),
    .repository (.resume 2 (.snapshot ⟨"L", "k"⟩)), .repository (.resume 2 (.write true)),
    .repository (.resume 2 (.write true)), .repository (.resume 2 (.write true))] ++
  readConversation 1

/-- The message is marked, and has never been on the screen. -/
theorem not_shows_sentAfterClose : ∃ r x c, (machine .insertion).exec openedChat = some r ∧
    r.chats[0]? = some c ∧ r.repo.currentUser c.device = some c.user ∧
    (machine .insertion).exec (openedChat ++ [.closeChat 0] ++ sentAfterClose) = some x ∧
    x.repo.write? (.resume r.repo.calls.length (.write true)) = some (.setRead ⟨"L", "k"⟩) ∧
    ¬c.Shows ⟨"L", "k"⟩ := by
  refine ⟨_, _, _, rfl, rfl, rfl, rfl, rfl, ?_⟩
  rintro ⟨item, hitem, _⟩
  cases hitem

end App

end MagicChat
