import MagicChat.App.Step
import MagicChat.ConversationsVC.Alerts
import MagicChat.Repository.FirstMessage

/-!
# After a user has logged out

A list of conversations that a user has opened is not left alone when the user
has logged out, and another one is signed in on the device: from every such
state, a first message that comes later reaches it, and plays the new-message
sound (`exists_sound_after_logOut`). It is so for every list on a device where
somebody is signed in (`exists_sound`): the observers of a list do not depend on
its user being signed in, and none is ever removed.
-/

namespace MagicChat

namespace App

variable {F : Foundation} {s t : App} {j : ℕ} {l : ConversationList}

/-! ## What can happen to a list -/

/-- A list hears of a step of the repository. -/
theorem exists_repository {r : Repository} {b : Repository.Action}
    (hb : Repository.machine.step s.repo b = some r) (hl : s.lists[j]? = some l) :
    ∃ t, (machine F).Leads s t ∧ t.repo = r ∧
      t.lists[j]? = some (l.notify s.repo.db r.db) := by
  let t : App := { repo := r
                   chats := s.chats.map (Chat.notify s.repo.db r.db)
                   lists := s.lists.map (ConversationList.notify s.repo.db r.db) }
  have hstep : (machine F).step s (.repository b) = some t :=
    Option.bind_eq_some_iff.2 ⟨r, hb, rfl⟩
  exact ⟨t, .of_step hstep, rfl, by simp [t, hl]⟩

/-- What the devices do without the screens only adds to the events of a list. -/
theorem exists_repository_leads {r : Repository} (h : Repository.machine.Leads s.repo r)
    (hl : s.lists[j]? = some l) :
    ∃ t events, (machine F).Leads s t ∧ t.repo = r ∧
      t.lists[j]? = some { l with events := l.events ++ events } := by
  obtain ⟨bs, hbs⟩ := h
  induction bs generalizing s l with
  | nil => exact ⟨s, [], .refl s, Option.some.inj hbs, by rw [hl, List.append_nil]⟩
  | cons b bs ih =>
    obtain ⟨r', hr', hbs⟩ := Option.bind_eq_some_iff.1 hbs
    obtain ⟨s', hs', rfl, hl'⟩ := exists_repository (F := F) hr' hl
    obtain ⟨t, events, ht, hrepo, hlt⟩ := ih hl' hbs
    refine ⟨t, l.changes s.repo.db s'.repo.db ++ events, hs'.trans ht, hrepo, ?_⟩
    rw [hlt, ← List.append_assoc]
    rfl

theorem getElem?_setList {l' : ConversationList} (hl : s.lists[j]? = some l) :
    (s.setList j l').lists[j]? = some l' :=
  List.getElem?_set_self (List.getElem?_eq_some_iff.1 hl).1

/-- An observer can be told of its event. -/
theorem exists_listEvent (hl : s.lists[j]? = some l) {e : ListEvent} (he : e ∈ l.events) :
    ∃ t events, (machine F).Leads s t ∧ t.repo = s.repo ∧
      t.lists[j]? = some (ConversationList.receive F.sortConversations { l with events } e) := by
  obtain ⟨i, hi⟩ := List.getElem?_of_mem he
  have hstep : (machine F).step s (.listEvent j i) = some (s.setList j
      (ConversationList.receive F.sortConversations
        { l with events := l.events.eraseIdx i } e)) := by
    simp [machine, step, hl, ConversationList.fire, hi]
  exact ⟨_, _, .of_step hstep, rfl, getElem?_setList hl⟩

/-- A profile asked for can come. -/
theorem exists_profile (hl : s.lists[j]? = some l) {peer : UserID} {L : Key}
    (hp : (peer, L) ∈ l.profiles) :
    ∃ t profiles, (machine F).Leads s t ∧ t.repo = s.repo ∧ t.lists[j]? = some
      (ConversationList.downloadLastMessage s.repo.db (s.repo.currentUser l.device)
        { l with
          profiles
          screen := l.screen.append { user := peer, lastMessage := emptyMessage } }
        l.screen.conversations.length L) := by
  obtain ⟨i, hi⟩ := List.getElem?_of_mem hp
  have hstep : (machine F).step s (.profile j i) = some (s.setList j
      (ConversationList.downloadLastMessage s.repo.db (s.repo.currentUser l.device)
        { l with
          profiles := l.profiles.eraseIdx i
          screen := l.screen.append { user := peer, lastMessage := emptyMessage } }
        l.screen.conversations.length L)) := by
    simp [machine, step, hl, ConversationList.info, hi]
  exact ⟨_, _, .of_step hstep, rfl, getElem?_setList hl⟩

/-- A block can run. -/
theorem exists_listBlock (hl : s.lists[j]? = some l) {screen : ConversationsVC}
    (hb : l.screen.runBlock = some screen) :
    ∃ t, (machine F).Leads s t ∧ t.repo = s.repo ∧ t.lists[j]? = some { l with screen } := by
  have hstep : (machine F).step s (.listBlock j) = some (s.setList j { l with screen }) := by
    simp [machine, step, hl, hb]
  exact ⟨_, .of_step hstep, rfl, getElem?_setList hl⟩

/-! ## A new conversation -/

/-- A pointer that comes to a list on a device where somebody is signed in gets
    its conversation displayed, with a sound for an unread first message. -/
theorem exists_sound_of_childAdded (hl : s.lists[j]? = some l) {p : UserID} {L : Key}
    (he : .childAdded p (Value.pointer L) ∈ l.events) {currentUserID : UserID}
    (hu : s.repo.currentUser l.device = some currentUserID) {message : Message}
    (hm : listedMessages currentUserID (s.repo.db.conversations L) = [message])
    (hread : message.isRead = false) :
    ∃ t l', (machine F).Leads s t ∧ t.repo = s.repo ∧ t.lists[j]? = some l' ∧ l'.user = l.user ∧
      l'.Observes p L ∧ l'.Displays p message ∧ l'.screen.sounds = l.screen.sounds + 1 := by
  let o : LocationObserver :=
    { conversation := l.screen.conversations.length, location := L, currentUserID }
  -- The list asks for the profile of the peer.
  obtain ⟨t₁, _, ht₁, hrepo₁, hl₁⟩ := exists_listEvent (F := F) hl he
  simp only [ConversationList.receive, Value.location_pointer] at hl₁
  -- With the profile, it starts to observe the conversation.
  obtain ⟨t₂, _, ht₂, hrepo₂, hl₂⟩ := exists_profile (F := F) hl₁
    (List.mem_append_right l.profiles (List.mem_singleton_self (p, L)))
  simp only [hrepo₁, hu, ConversationList.downloadLastMessage] at hl₂
  -- The observer is told of the conversation.
  obtain ⟨t₃, _, ht₃, hrepo₃, hl₃⟩ := exists_listEvent (F := F) hl₂
    (List.mem_append_right _
      (List.mem_singleton_self (ListEvent.value o (s.repo.db.conversations L))))
  simp only [ConversationList.receive, o, hm, ConversationsVC.receiveAll, List.foldl_cons,
    List.foldl_nil] at hl₃
  have hk : l.screen.conversations.length <
      (l.screen.append { user := p, lastMessage := emptyMessage }).conversations.length := by
    rw [ConversationsVC.length_conversations_append]
    exact Nat.lt_succ_self _
  obtain ⟨screen, hblock, hdisplayed, hsounds⟩ :=
    ConversationsVC.exists_runBlock_receive F.sortConversations hk hread
  obtain ⟨t₄, ht₄, hrepo₄, hl₄⟩ := exists_listBlock (F := F) hl₃ hblock
  have hconversation : screen.conversations[l.screen.conversations.length]? =
      some { user := p, lastMessage := message } := by
    rw [ConversationsVC.runBlock_conversations hblock]
    simp [ConversationsVC.receive, ConversationsVC.setLastMessage, ConversationsVC.append]
  refine ⟨t₄, _, ht₁.trans (ht₂.trans (ht₃.trans ht₄)), ?_, hl₄, rfl, ?_,
    ⟨_, hdisplayed, hconversation⟩, hsounds⟩
  · rw [hrepo₄, hrepo₃, hrepo₂, hrepo₁]
  · refine ⟨o, List.mem_append_right _ (List.mem_singleton_self o), rfl, ?_⟩
    rw [List.getElem?_map, hconversation, Option.map_some]

/-- A first location is an addition to the pointers of its user. -/
theorem mem_changes_of_updatePointer {db : Database} {p : UserID} {L : Key}
    (hp : db.pointer l.user p = none) :
    .childAdded p (Value.pointer L) ∈ l.changes db (db.after (.updatePointer l.user p L)) := by
  have hadded : Keyed.added (db.users l.user)
      ((db.after (.updatePointer l.user p L)).users l.user) = [(p, Value.pointer L)] := by
    simp only [Database.after, Database.setPointer, Function.update_self, hp,
      Value.updateChildValues_none]
    exact Keyed.added_set_of_lookup_eq_none hp
  rw [ConversationList.changes, hadded]
  exact List.mem_append_left _ (List.mem_singleton_self _)

/-- From every reachable state, a first message can be sent that reaches a list
    on a device where somebody is signed in. -/
theorem exists_sound (hr : (machine F).Reachable s) (hl : s.lists[j]? = some l) {v : UserID}
    (hv : s.repo.currentUser l.device = some v) :
    ∃ t l' p L message, (machine F).Leads s t ∧ t.repo.currentUser l.device = some v ∧
      s.repo.db.pointer l.user p = none ∧ t.lists[j]? = some l' ∧ l'.user = l.user ∧
      listedMessages v (t.repo.db.conversations L) = [message] ∧ l'.Observes p L ∧
      l'.Displays p message ∧ l'.screen.sounds = l.screen.sounds + 1 := by
  have hrepo := reachable_repo hr
  obtain ⟨xs, hxs⟩ := Repository.exists_users hrepo
  obtain ⟨p, _, hp⟩ := exists_key (l.user :: xs ++ (s.repo.db.users l.user).map Prod.fst)
  obtain ⟨L, k, hLk, hL, hk⟩ := s.repo.exists_unissued
  simp only [List.cons_append, List.mem_cons, List.mem_append, not_or] at hp
  obtain ⟨hpl, hpx, hpk⟩ := hp
  have hpu : s.repo.db.pointer p l.user = none := by simp [Database.pointer, hxs p hpx]
  have hup : s.repo.db.pointer l.user p = none := not_not.1 (Keyed.mem_keys_iff.not.1 hpk)
  -- On another device, `p` sends the user of the list a first message.
  obtain ⟨r, n, hlead, hn, huser, hdb⟩ :=
    Repository.exists_firstUpload (l.device + 1) hpu hL hk hLk
  obtain ⟨s₁, events, hs₁, rfl, hl₁⟩ := exists_repository_leads (F := F) hlead hl
  have hwrite := Repository.step_resume (r := .write true) hn rfl s₁.repo.unissued_nil
  obtain ⟨s₂, hs₂, hrepo₂, hl₂⟩ := exists_repository (F := F) hwrite hl₁
  have hu₂ : s₂.repo.currentUser l.device = some v := by
    rw [hrepo₂]
    change s₁.repo.currentUser l.device = some v
    rw [huser, Function.update_of_ne (Nat.succ_ne_self l.device).symm, hv]
  have hconversation : s₂.repo.db.conversations L =
      [(k, .dictionary (Repository.firstValues p l.user))] := by
    rw [hrepo₂]
    change s₁.repo.db.conversations L = _
    rw [hdb]
    change Function.update s.repo.db.conversations L _ L = _
    rw [Function.update_self, (Repository.located_of_reachable hrepo).conversations_eq_nil hL.2]
    rfl
  have hevent : .childAdded p (Value.pointer L) ∈
      ({ l with events := l.events ++ events } : ConversationList).changes s₁.repo.db
        (s₁.repo.db.after (.updatePointer l.user p L)) := by
    refine mem_changes_of_updatePointer ?_
    rw [hdb, Database.pointer_updatePointer, if_neg (fun h => hpl h.1.symm)]
    exact hup
  have hlisted : ∃ message, listedMessages v (s₂.repo.db.conversations L) = [message] ∧
      message.isRead = false := by
    rw [hconversation]
    exact ⟨_, rfl, rfl⟩
  obtain ⟨message, hm, hread⟩ := hlisted
  obtain ⟨t, l', ht, htrepo, hl', huser', hobserves, hdisplays, hsounds⟩ :=
    exists_sound_of_childAdded hl₂ (List.mem_append_right _ hevent) hu₂ hm hread
  exact ⟨t, l', p, L, message, hs₁.trans (hs₂.trans ht), htrepo ▸ hu₂, hup, hl', huser',
    htrepo ▸ hm, hobserves, hdisplays, hsounds⟩

/-! ## After a log-out -/

/-- Whenever the user of a list has logged out, and `v` is signed in on the device
    later on, a message to the user of the list can still reach it: the list
    observes and displays the new conversation, and plays the sound, while `v` is
    signed in. -/
theorem exists_sound_after_logOut {as bs : List Action} {v : UserID}
    (h : (machine F).exec (as ++ .repository (.logOutUser l.device) :: bs) = some s)
    (hl : s.lists[j]? = some l) (hv : s.repo.currentUser l.device = some v) :
    ∃ t l' p L message, (machine F).Leads s t ∧ t.repo.currentUser l.device = some v ∧
      s.repo.db.pointer l.user p = none ∧ t.lists[j]? = some l' ∧ l'.user = l.user ∧
      listedMessages v (t.repo.db.conversations L) = [message] ∧ l'.Observes p L ∧
      l'.Displays p message ∧ l'.screen.sounds = l.screen.sounds + 1 :=
  exists_sound ⟨_, h⟩ hl hv

/-- `u` opens the list and a chat with `v`, and logs out; `v` logs in on another
    device, and `w` on this one. -/
def loggedOut : List Action :=
  [.repository (.loginUser 0 "u"), .openList 0, .openChat 0 "v", .chatEvent 0 0,
    .repository (.logOutUser 0), .repository (.loginUser 1 "v"), .repository (.loginUser 0 "w")]

/-- A later message can reach the list of `u`. -/
theorem sound_loggedOut : ∃ s t l p message, (machine .insertion).exec loggedOut = some s ∧
    (machine .insertion).Leads s t ∧ t.repo.currentUser 0 = some "w" ∧ t.lists[0]? = some l ∧
    l.user = "u" ∧ l.Displays p message ∧ l.screen.sounds = 1 := by
  obtain ⟨s, l, hs, hl, hdevice, huser, hv, hsilent⟩ : ∃ s l,
      (machine .insertion).exec loggedOut = some s ∧ s.lists[0]? = some l ∧ l.device = 0 ∧
      l.user = "u" ∧ s.repo.currentUser 0 = some "w" ∧ l.screen.sounds = 0 :=
    ⟨_, _, rfl, rfl, rfl, rfl, rfl, rfl⟩
  have hs' : (machine .insertion).exec (loggedOut.take 4 ++
      .repository (.logOutUser l.device) :: loggedOut.drop 5) = some s := by
    rw [hdevice]
    exact hs
  obtain ⟨t, l', p, _, message, hlead, hw, _, hl', huser', _, _, hdisplays, hsounds⟩ :=
    exists_sound_after_logOut hs' hl (hdevice ▸ hv)
  exact ⟨s, t, l', p, message, hs, hlead, hdevice ▸ hw, hl', huser'.trans huser, hdisplays,
    hsounds.trans (by rw [hsilent])⟩

/-- `v` sends `u` a first message, and the observers are told of it. -/
def sentAfterLogOut : List Action :=
  [.repository (.send 1 (composeMessage .text (.field (.string "hi")) 1) "u"),
    .repository (.resume 1 (.snapshot ⟨"L", "k"⟩)), .repository (.resume 1 (.write true)),
    .repository (.resume 1 (.write true)), .repository (.resume 1 (.write true)),
    .listEvent 0 0, .profile 0 0, .listEvent 0 0, .listBlock 0, .chatEvent 0 0, .chatEvent 0 0]

/-- While `w` is signed in, the list of `u` plays the sound, and the chat of `u`
    shows the message. -/
theorem not_silent_loggedOut : ∃ s t l l' c c', (machine .insertion).exec loggedOut = some s ∧
    (machine .insertion).execFrom s sentAfterLogOut = some t ∧
    t.repo.currentUser 0 = some "w" ∧
    s.lists[0]? = some l ∧ t.lists[0]? = some l' ∧ l'.user = "u" ∧
    l.screen.sounds = 0 ∧ l'.screen.sounds = 1 ∧
    s.chats[0]? = some c ∧ t.chats[0]? = some c' ∧ c'.user = "u" ∧
    c.screen.items = [] ∧ c'.screen.items.length = 1 :=
  ⟨_, _, _, _, _, _, rfl, rfl, rfl, rfl, rfl, rfl, rfl, rfl, rfl, rfl, rfl, rfl, rfl⟩

end App

end MagicChat
