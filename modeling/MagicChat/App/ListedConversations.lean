import MagicChat.App.Synced

/-!
# The listed conversations

What a list displays for a peer is the last message of the conversation at the
location that its user's pointer to the peer holds, as long as the device of the
list does not see such a pointer get another location, or lose it, while the list
is open (`KeepsAll`): a list reads a pointer once, when it first appears, and from
then on has its location captured, first in the event, then with the profile asked
for, last in an observer (`Current`). And what an object of the list holds has
been read off the conversation that an observer of this object has captured (`Told`).
-/

namespace MagicChat

namespace ConversationList

/-! ## The locations captured -/

/-- Each location captured is that of the pointer. -/
structure Current (db : Database) (l : ConversationList) : Prop where
  events : ∀ peer snap L, .childAdded peer snap ∈ l.events → snap.location = some L →
    db.location l.user peer = some L
  profiles : ∀ peer L, (peer, L) ∈ l.profiles → db.location l.user peer = some L
  observers : ∀ o ∈ l.observers, ∃ peer,
    (l.screen.conversations.map Conversation.user)[o.conversation]? = some peer ∧
      db.location l.user peer = some o.location

theorem Current.observes {db : Database} {l : ConversationList} (h : l.Current db) {peer : UserID}
    {L : Key} (ho : l.Observes peer L) : db.location l.user peer = some L := by
  obtain ⟨o, ho, rfl, hpeer⟩ := ho
  obtain ⟨peer', hpeer', hL⟩ := h.observers o ho
  obtain rfl : peer = peer' := Option.some.inj (hpeer.symm.trans hpeer')
  exact hL

/-- The pointers in events are those of the database. -/
theorem location_of_mem_pointerEvents {db : Database} {x : UserID} {pointers : Keyed UserID Value}
    (hsub : pointers ⊆ db.users x) {peer : UserID} {snap : Value} {L : Key}
    (h : .childAdded peer snap ∈ pointerEvents pointers) (hL : snap.location = some L) :
    db.location x peer = some L := by
  obtain ⟨⟨peer', snap'⟩, hmem, he⟩ := List.mem_map.1 h
  obtain ⟨rfl, rfl⟩ := ListEvent.childAdded.inj he
  have hpointer : db.pointer x peer' = some snap' :=
    (db.nodup_users x).lookup_eq_some_iff.2 (hsub hmem)
  rw [Database.location, hpointer]
  exact hL

theorem current_opened (db : Database) (d : Device) (user : UserID) :
    Current db (opened db d user) where
  events _ _ _ h hL := location_of_mem_pointerEvents (List.Subset.refl _) h hL
  profiles _ _ h := absurd h List.not_mem_nil
  observers _ h := absurd h List.not_mem_nil

variable {db : Database} {l : ConversationList}

/-- A change in which no location of the user is lost keeps the list current. -/
theorem Current.notify {db' : Database} (h : l.Current db)
    (hkeep : ∀ y L, db.location l.user y = some L → db'.location l.user y = some L) :
    (l.notify db db').Current db' where
  events peer snap L hmem hL := by
    rcases List.mem_append.1 hmem with hmem | hmem
    · exact hkeep peer L (h.events peer snap L hmem hL)
    · rcases List.mem_append.1 hmem with hmem | hmem
      · exact location_of_mem_pointerEvents (List.filter_subset_self _) hmem hL
      · simp at hmem
  profiles peer L hmem := hkeep peer L (h.profiles peer L hmem)
  observers o ho := by
    obtain ⟨peer, hpeer, hL⟩ := h.observers o ho
    exact ⟨peer, hpeer, hkeep peer o.location hL⟩

theorem Current.receive {T : Sorter (Int × ℕ) Later} (h : l.Current db) {i : ℕ} {e : ListEvent}
    (he : l.events[i]? = some e) :
    (ConversationList.receive T { l with events := l.events.eraseIdx i } e).Current db := by
  have hevents : ∀ peer snap L, .childAdded peer snap ∈ l.events.eraseIdx i →
      snap.location = some L → db.location l.user peer = some L :=
    fun peer snap L hmem => h.events peer snap L (List.mem_of_mem_eraseIdx hmem)
  cases e with
  | childAdded peer snap =>
    rw [ConversationList.receive]
    cases hL : snap.location with
    | none => exact ⟨hevents, h.profiles, h.observers⟩
    | some L =>
      refine ⟨hevents, fun peer' L' hmem => ?_, h.observers⟩
      rcases List.mem_append.1 hmem with hmem | hmem
      · exact h.profiles peer' L' hmem
      · obtain ⟨rfl, rfl⟩ := Prod.mk.inj (List.mem_singleton.1 hmem)
        exact h.events peer' snap L' (List.mem_of_getElem? he) hL
  | value o snapshot =>
    refine ⟨hevents, h.profiles, fun o' ho' => ?_⟩
    simp only [ConversationList.receive, ConversationsVC.receiveAll_users]
    exact h.observers o' ho'

theorem Current.info {currentUser : Option UserID} (h : l.Current db) {i : ℕ} {peer : UserID}
    {L : Key} (he : l.profiles[i]? = some (peer, L)) :
    (downloadLastMessage db currentUser
      { l with
        profiles := l.profiles.eraseIdx i
        screen := l.screen.append { user := peer, lastMessage := emptyMessage } }
      l.screen.conversations.length L).Current db := by
  have hL : db.location l.user peer = some L := h.profiles peer L (List.mem_of_getElem? he)
  have hprofiles : ∀ peer' L', (peer', L') ∈ l.profiles.eraseIdx i →
      db.location l.user peer' = some L' :=
    fun peer' L' hmem => h.profiles peer' L' (List.mem_of_mem_eraseIdx hmem)
  -- The objects of the observers that were there are still in their places.
  have hobservers : ∀ o ∈ l.observers, ∃ peer',
      (l.screen.conversations.map Conversation.user ++ [peer])[o.conversation]? = some peer' ∧
        db.location l.user peer' = some o.location := by
    intro o ho
    obtain ⟨peer', hpeer', hL'⟩ := h.observers o ho
    refine ⟨peer', ?_, hL'⟩
    rw [List.getElem?_append_left (List.getElem?_eq_some_iff.1 hpeer').1, hpeer']
  cases currentUser with
  | none =>
    refine ⟨h.events, hprofiles, ?_⟩
    simp only [downloadLastMessage, ConversationsVC.append_users]
    exact hobservers
  | some currentUserID =>
    refine ⟨fun peer' snap L' hmem => ?_, hprofiles, ?_⟩
    · rcases List.mem_append.1 hmem with hmem | hmem
      · exact h.events peer' snap L' hmem
      · cases List.mem_singleton.1 hmem
    · simp only [downloadLastMessage, ConversationsVC.append_users]
      intro o ho
      rcases List.mem_append.1 ho with ho | ho
      · exact hobservers o ho
      · obtain rfl := List.mem_singleton.1 ho
        refine ⟨peer, ?_, hL⟩
        rw [List.getElem?_append_right (by simp)]
        simp

/-! ## The messages read -/

/-- The message is the last that the observer reads off one of the versions of its conversation. -/
def LastOf (V : Database → Prop) (o : LocationObserver) (message : Message) : Prop :=
  ∃ db, V db ∧
    (listedMessages o.currentUserID (db.conversations o.location)).getLast? = some message

/-- What the list has been told are versions of the conversations observed, and what
    an object holds has been read by an observer of it. -/
structure Told (V : Database → Prop) (l : ConversationList) : Prop where
  events : ∀ o snapshot, .value o snapshot ∈ l.events →
    o ∈ l.observers ∧ ∃ db, V db ∧ snapshot = db.conversations o.location
  messages : ∀ k c, l.screen.conversations[k]? = some c →
    c.lastMessage = emptyMessage ∨
      ∃ o ∈ l.observers, o.conversation = k ∧ LastOf V o c.lastMessage

variable {V : Database → Prop}

theorem Told.mono {V' : Database → Prop} (hV : ∀ db, V db → V' db) (h : l.Told V) :
    l.Told V' where
  events o snapshot hmem := by
    obtain ⟨ho, db, hdb, he⟩ := h.events o snapshot hmem
    exact ⟨ho, db, hV db hdb, he⟩
  messages k c hc := by
    refine (h.messages k c hc).imp_right ?_
    rintro ⟨o, ho, hk, db, hdb, hlast⟩
    exact ⟨o, ho, hk, db, hV db hdb, hlast⟩

theorem told_opened (d : Device) (user : UserID) : Told V (opened db d user) where
  events o snapshot h := by simp [opened, pointerEvents] at h
  messages k c h := by simp [opened] at h

theorem Told.notify {db' : Database} (h : l.Told V) (hV : V db') : (l.notify db db').Told V where
  events o snapshot hmem := by
    rcases List.mem_append.1 hmem with hmem | hmem
    · exact h.events o snapshot hmem
    · rcases List.mem_append.1 hmem with hmem | hmem
      · simp [pointerEvents] at hmem
      · obtain ⟨o', ho', he⟩ := List.mem_map.1 hmem
        obtain ⟨rfl, rfl⟩ := ListEvent.value.inj he
        exact ⟨(List.mem_filter.1 ho').1, db', hV, rfl⟩
  messages := h.messages

theorem Told.receive {T : Sorter (Int × ℕ) Later} (h : l.Told V) {i : ℕ} {e : ListEvent}
    (he : l.events[i]? = some e) :
    (ConversationList.receive T { l with events := l.events.eraseIdx i } e).Told V := by
  have hevents : ∀ o snapshot, .value o snapshot ∈ l.events.eraseIdx i →
      o ∈ l.observers ∧ ∃ db, V db ∧ snapshot = db.conversations o.location :=
    fun o snapshot hmem => h.events o snapshot (List.mem_of_mem_eraseIdx hmem)
  cases e with
  | childAdded peer snap =>
    rw [ConversationList.receive]
    cases snap.location with
    | none => exact ⟨hevents, h.messages⟩
    | some L => exact ⟨hevents, h.messages⟩
  | value o snapshot =>
    refine ⟨hevents, fun k c hc => ?_⟩
    obtain ⟨ho, db, hdb, rfl⟩ := h.events o snapshot (List.mem_of_getElem? he)
    rcases List.eq_nil_or_concat (listedMessages o.currentUserID (db.conversations o.location))
      with hnil | ⟨messages, message, hconcat⟩
    · simp only [ConversationList.receive, hnil] at hc
      exact h.messages k c hc
    · simp only [ConversationList.receive, hconcat, List.concat_eq_append,
        ConversationsVC.conversations_receiveAll_concat] at hc
      by_cases hk : o.conversation = k
      · -- The object holds the last of the messages.
        rw [hk, List.getElem?_modify_eq, Option.map_eq_map, Option.map_eq_some_iff] at hc
        obtain ⟨c, _, rfl⟩ := hc
        exact .inr ⟨o, ho, hk, db, hdb, by rw [hconcat, List.concat_eq_append,
          List.getLast?_concat]⟩
      · rw [List.getElem?_modify_ne _ _ hk] at hc
        exact h.messages k c hc

theorem Told.info {currentUser : Option UserID} (h : l.Told V) (hV : V db) (i : ℕ) (peer : UserID)
    (L : Key) :
    (downloadLastMessage db currentUser
      { l with
        profiles := l.profiles.eraseIdx i
        screen := l.screen.append { user := peer, lastMessage := emptyMessage } }
      l.screen.conversations.length L).Told V := by
  have hmessages : ∀ k c, (l.screen.conversations ++
      [{ user := peer, lastMessage := emptyMessage }])[k]? = some c →
      c.lastMessage = emptyMessage ∨
        ∃ o ∈ l.observers, o.conversation = k ∧ LastOf V o c.lastMessage := by
    intro k c hc
    rcases Lists.getElem?_concat hc with hc | rfl
    · exact h.messages k c hc
    · exact .inl rfl
  cases currentUser with
  | none => exact ⟨h.events, hmessages⟩
  | some currentUserID =>
    refine ⟨fun o snapshot hmem => ?_, fun k c hc => (hmessages k c hc).imp_right ?_⟩
    · rcases List.mem_append.1 hmem with hmem | hmem
      · obtain ⟨ho, hsnapshot⟩ := h.events o snapshot hmem
        exact ⟨List.mem_append_left _ ho, hsnapshot⟩
      · obtain ⟨rfl, rfl⟩ := ListEvent.value.inj (List.mem_singleton.1 hmem)
        exact ⟨List.mem_append_right _ (List.mem_singleton_self _), db, hV, rfl⟩
    · rintro ⟨o, ho, hlast⟩
      exact ⟨o, List.mem_append_left _ ho, hlast⟩

end ConversationList

namespace Synced

variable {F : Foundation} {s : Synced}

/-- While a list of `u` is open, its device does not see a pointer of `u` that holds
    a location get another one, or lose it. -/
def KeepsAll (F : Foundation) (u : UserID) (s : Synced) (a : Action) : Prop :=
  ∀ t, (machine F).step s a = some t → ∀ l ∈ s.lists, l.user = u →
    ∀ y L, (s.view l.device).location u y = some L → (t.view l.device).location u y = some L

/-- What the device has seen along a run. -/
def Seen (F : Foundation) (as : List Action) (d : Device) (db : Database) : Prop :=
  ∃ p r, p <+: as ∧ (machine F).exec p = some r ∧ r.view d = db

/-- The pointer of `x` to `y` holds the location: as the device sees it, and in the
    database, unless a write of the device to it is pending. -/
def Points (s : Synced) (d : Device) (x y : UserID) (L : Key) : Prop :=
  (s.view d).location x y = some L ∧
    ((∀ L', .updatePointer x y L' ∉ s.writes d) → s.repo.db.location x y = some L)

theorem points_of_view {d : Device} {x y : UserID} {L : Key}
    (h : (s.view d).location x y = some L) : s.Points d x y L :=
  ⟨h, fun hwrites => (location_view hwrites).symm.trans h⟩

/-- The lists of `u` stay current along a run in which their devices see no
    location of `u`'s pointers replaced or lost. -/
theorem current_of_along {u : UserID} {as : List Action}
    (hkeep : (machine F).Along (KeepsAll F u) as) (h : (machine F).exec as = some s)
    {l : ConversationList} (hl : l ∈ s.lists) : l.user = u → l.Current (s.view l.device) := by
  refine list_induction (P := fun _ s l => l.user = u → l.Current (s.view l.device))
    (fun as s d user _ _ => ConversationList.current_opened (s.view d) d user) ?_ hkeep h hl
  intro as s a t l l' _ ha _ ht hl hcurrent hmove hu
  cases hmove with
  | notify => exact (hcurrent hu).notify (hu ▸ ha t ht l hl hu)
  | receive he hview =>
    rw [ConversationList.receive_user] at hu
    rw [ConversationList.receive_device, hview]
    exact (hcurrent hu).receive he
  | info he hview =>
    rw [ConversationList.downloadLastMessage_user] at hu
    rw [ConversationList.downloadLastMessage_device, hview]
    exact (hcurrent hu).info he
  | block hblock hview =>
    have h := hcurrent hu
    refine ⟨?_, ?_, ?_⟩
    · rw [hview]
      exact h.events
    · rw [hview]
      exact h.profiles
    · rw [hview, ConversationsVC.runBlock_conversations hblock]
      exact h.observers
  | stay hview =>
    rw [hview]
    exact hcurrent hu

/-- What a list has been told is what its device has seen. -/
theorem told_of_exec {as : List Action} (h : (machine F).exec as = some s) {l : ConversationList}
    (hl : l ∈ s.lists) : l.Told (Seen F as l.device) := by
  refine list_induction (C := fun _ _ => True) (P := fun as _ l => l.Told (Seen F as l.device))
    (fun _ _ d user _ => ConversationList.told_opened d user) ?_
    (Machine.along_of_forall fun _ _ => trivial) h hl
  intro as s a t l l' hs _ hst _ _ htold hmove
  have hseen : ∀ db, Seen F as l.device db → Seen F (as ++ [a]) l.device db := by
    rintro db ⟨p, r, hp, hr⟩
    exact ⟨p, r, hp.trans (List.prefix_append _ _), hr⟩
  have hlast : Seen F (as ++ [a]) l.device (t.view l.device) :=
    ⟨_, t, List.prefix_rfl, hst, rfl⟩
  cases hmove with
  | notify => exact (htold.mono hseen).notify hlast
  | receive he _ =>
    rw [ConversationList.receive_device]
    exact (htold.mono hseen).receive he
  | info _ hview =>
    rw [ConversationList.downloadLastMessage_device]
    exact (htold.mono hseen).info (congrFun hview l.device ▸ hlast) _ _ _
  | block hblock _ =>
    refine ⟨(htold.mono hseen).events, ?_⟩
    rw [ConversationsVC.runBlock_conversations hblock]
    exact (htold.mono hseen).messages
  | stay _ => exact htold.mono hseen

/-- Along a run in which the device of an open list of `u` sees no location that a
    pointer of `u` holds replaced or lost, the list observes for each peer the
    conversation at the location that the pointer holds, and what it displays for
    the peer is the last message that it has read there. -/
theorem location_of_displays {as : List Action} {l : ConversationList}
    (hkeep : (machine F).Along (KeepsAll F l.user) as) (h : (machine F).exec as = some s)
    (hl : l ∈ s.lists) (peer : UserID) :
    (∀ L, l.Observes peer L → s.Points l.device l.user peer L) ∧
      ∀ message, l.Displays peer message → message = emptyMessage ∨
        ∃ o ∈ l.observers, s.Points l.device l.user peer o.location ∧
          ConversationList.LastOf (Seen F as l.device) o message := by
  have hcurrent := current_of_along hkeep h hl rfl
  refine ⟨fun L ho => points_of_view (hcurrent.observes ho), ?_⟩
  rintro message ⟨k, _, hk⟩
  refine ((told_of_exec h hl).messages k _ hk).imp_right ?_
  rintro ⟨o, ho, rfl, hlast⟩
  refine ⟨o, ho, points_of_view (hcurrent.observes ⟨o, ho, rfl, ?_⟩), hlast⟩
  rw [List.getElem?_map, hk, Option.map_some]

/-- `u` opens the list, sends `v` a first message, and the list shows it. -/
def firstMessageListed : List Action :=
  [.repository (.loginUser 0 "u"), .openList 0,
    .repository (.send 0 (composeMessage .text (.field (.string "hi")) 1) "v"),
    .repository (.resume 0 (.snapshot ⟨"L", "k"⟩)), .repository (.resume 0 (.write true)),
    .listEvent 0 0, .profile 0 0, .listEvent 0 0, .listBlock 0,
    .repository (.resume 0 (.write true)), .repository (.resume 0 (.write true))]

/-- The message that the list shows. -/
def listedFirst : Message :=
  { type := .text, content := .field (.string "hi"), owner := .receiver, timestamp := 1,
    isRead := false }

/-- The only write to a pointer of `u` is the first. -/
theorem location_firstMessageListed : ∃ s l, (machine .insertion).exec firstMessageListed = some s ∧
    l ∈ s.lists ∧ l.Observes "v" "L" ∧ s.repo.db.location "u" "v" = some "L" ∧
    l.Displays "v" listedFirst ∧ ConversationList.LastOf
      (Seen .insertion firstMessageListed 0) ⟨0, "L", "u"⟩ listedFirst := by
  have keep : ∀ {s t : Synced} {a : Action}, (machine .insertion).step s a = some t →
      (s.lists.all fun l => l.device == 0) = true →
      ((s.view 0).users "u" = [] ∨ (t.view 0).users "u" = (s.view 0).users "u") →
      KeepsAll .insertion "u" s a := by
    intro s t a ht hdevice husers t' ht' l hl _ y L hL
    obtain rfl : t = t' := Option.some.inj (ht.symm.trans ht')
    obtain hd : l.device = 0 := by simpa using List.all_eq_true.1 hdevice l hl
    rw [hd, Database.location, Database.pointer] at hL ⊢
    rcases husers with hnil | hsame
    · simp [hnil] at hL
    · rwa [hsame]
  have hkeep : (machine .insertion).Along (KeepsAll .insertion "u") firstMessageListed := by
    refine Machine.along_iff_alongFrom.2 ?_
    refine .cons (keep rfl rfl (.inl rfl)) rfl (.cons (keep rfl rfl (.inl rfl)) rfl ?_)
    refine .cons (keep rfl rfl (.inl rfl)) rfl (.cons (keep rfl rfl (.inl rfl)) rfl ?_)
    -- The pointers are issued.
    refine .cons (keep rfl rfl (.inl rfl)) rfl (.cons (keep rfl rfl (.inr rfl)) rfl ?_)
    refine .cons (keep rfl rfl (.inr rfl)) rfl (.cons (keep rfl rfl (.inr rfl)) rfl ?_)
    refine .cons (keep rfl rfl (.inr rfl)) rfl (.cons (keep rfl rfl (.inr rfl)) rfl ?_)
    exact .cons (keep rfl rfl (.inr rfl)) rfl trivial
  obtain ⟨s, l, hs, hl, hdevice, huser, hdone, hobservers, ho, hd⟩ : ∃ s l,
      (machine .insertion).exec firstMessageListed = some s ∧ l ∈ s.lists ∧ l.device = 0 ∧
      l.user = "u" ∧ s.writes 0 = [] ∧ l.observers = [⟨0, "L", "u"⟩] ∧ l.Observes "v" "L" ∧
      l.Displays "v" listedFirst :=
    ⟨_, _, rfl, List.mem_singleton_self _, rfl, rfl, rfl, rfl,
      ⟨_, List.mem_singleton_self _, rfl, rfl⟩, 0, List.mem_singleton_self _, rfl⟩
  obtain ⟨hobserves, hdisplays⟩ := location_of_displays (huser ▸ hkeep) hs hl "v"
  rw [hdevice, huser] at hobserves
  rw [hdevice, huser, hobservers] at hdisplays
  refine ⟨s, l, hs, hl, ho, (hobserves "L" ho).2 fun L' => ?_, hd, ?_⟩
  · rw [hdone]
    exact List.not_mem_nil
  · obtain ⟨o, ho, _, hlast⟩ := (hdisplays listedFirst hd).resolve_left (by decide)
    exact List.mem_singleton.1 ho ▸ hlast

/-- While the list of `u` is open, `u` and `v` send each other a first message at
    the same time. -/
def raceListed : List Action :=
  [.repository (.loginUser 0 "u"), .repository (.loginUser 1 "v"), .openList 0,
    .repository (.send 0 (composeMessage .text (.field (.string "hi")) 1) "v"),
    .repository (.send 1 (composeMessage .text (.field (.string "hello")) 1) "u"),
    .repository (.resume 0 (.snapshot ⟨"L0", "k0"⟩)),
    .repository (.resume 1 (.snapshot ⟨"L1", "k1"⟩)),
    .repository (.resume 0 (.write true)), .repository (.resume 1 (.write true)),
    .repository (.resume 0 (.write true)), .repository (.resume 0 (.write true)),
    .repository (.resume 1 (.write true)), .repository (.resume 1 (.write true)),
    .listEvent 0 0, .profile 0 0, .listEvent 0 0, .listBlock 0]

/-- `u` sends `v` a first message, and the pointer of `u` is rejected. -/
def rejectedListed : List Action :=
  firstMessageListed.take 9 ++
    [.repository (.resume 0 (.write false)), .repository (.resume 0 (.write true))]

/-- The list of `u` displays the conversation that the pointer of `u` has left, or
    one that it has never held. -/
theorem not_location_raceListed :
    (∃ s l, (machine .insertion).exec raceListed = some s ∧ l ∈ s.lists ∧ l.user = "u" ∧
      l.events = [] ∧ l.profiles = [] ∧ s.allWrites = [] ∧ l.Displays "v" listedFirst ∧
      (listedMessages "u" (s.repo.db.conversations "L0")).getLast? = some listedFirst ∧
      s.repo.db.location "u" "v" = some "L1" ∧
      (listedMessages "u" (s.repo.db.conversations "L1")).getLast? ≠ some listedFirst) ∧
    ∃ s l, (machine .insertion).exec rejectedListed = some s ∧ l ∈ s.lists ∧ l.user = "u" ∧
      l.events = [] ∧ l.profiles = [] ∧ s.allWrites = [] ∧ l.Displays "v" listedFirst ∧
      s.repo.db.location "u" "v" = none :=
  ⟨⟨_, _, rfl, List.mem_singleton_self _, rfl, rfl, rfl, rfl, ⟨0, List.mem_singleton_self _, rfl⟩,
      rfl, rfl, by decide⟩,
    _, _, rfl, List.mem_singleton_self _, rfl, rfl, rfl, rfl, ⟨0, List.mem_singleton_self _, rfl⟩,
    rfl⟩

end Synced

end MagicChat
