import MagicChat.App.Basic
import MagicChat.Library.Lists

/-!
# The steps of the program

What a step of the program can do to one chat (`ChatMove`) and to one list of
conversations (`ListMove`), and the rules by which an invariant of each is
proved. The repository within the program is a repository machine
(`repositoryProjection`).
-/

namespace MagicChat

namespace App

variable {F : Foundation} {s t : App} {a : Action}

/-! ## The repository -/

theorem step_repository {b : Repository.Action} (h : (machine F).step s (.repository b) = some t) :
    Repository.machine.step s.repo b = some t.repo ∧
      t.chats = s.chats.map (Chat.notify s.repo.db t.repo.db) ∧
      t.lists = s.lists.map (ConversationList.notify s.repo.db t.repo.db) := by
  obtain ⟨repo, hrepo, h⟩ := Option.bind_eq_some_iff.1 h
  obtain rfl := Option.some.inj h
  exact ⟨hrepo, rfl, rfl⟩

theorem step_openChat {d : Device} {peer : UserID}
    (h : (machine F).step s (.openChat d peer) = some t) :
    ∃ user, s.repo.currentUser d = some user ∧
      t = { s.markMessagesRead d peer with
        chats := s.chats ++ [Chat.opened s.repo.db d user peer] } := by
  obtain ⟨user, huser, h⟩ := Option.bind_eq_some_iff.1 h
  exact ⟨user, huser, (Option.some.inj h).symm⟩

theorem step_closeChat {j : ℕ} (h : (machine F).step s (.closeChat j) = some t) :
    ∃ c, s.chats[j]? = some c ∧ t = s.markMessagesRead c.device c.peer := by
  obtain ⟨c, hc, h⟩ := Option.bind_eq_some_iff.1 h
  exact ⟨c, hc, (Option.some.inj h).symm⟩

theorem step_chatEvent {j i : ℕ} (h : (machine F).step s (.chatEvent j i) = some t) :
    ∃ c e, s.chats[j]? = some c ∧ c.events[i]? = some e ∧
      t = s.setChat j
        (Chat.receive F.sortItems s.repo.db { c with events := c.events.eraseIdx i } e) := by
  obtain ⟨c, hc, h⟩ := Option.bind_eq_some_iff.1 h
  obtain ⟨c', hc', h⟩ := Option.bind_eq_some_iff.1 h
  obtain ⟨e, he, hc'⟩ := Option.bind_eq_some_iff.1 hc'
  obtain rfl := Option.some.inj hc'
  exact ⟨c, e, hc, he, (Option.some.inj h).symm⟩

theorem step_screen {j : ℕ} {b : ChatVC.Action} (h : (machine F).step s (.screen j b) = some t) :
    ∃ c screen, s.chats[j]? = some c ∧ b.isDelivery = false ∧
      (ChatVC.machine F.sortItems F.validURL).step c.screen b = some screen ∧
      t = s.setChat j { c with screen } := by
  obtain ⟨c, hc, h⟩ := Option.bind_eq_some_iff.1 h
  obtain ⟨screen, hscreen, h⟩ := Option.bind_eq_some_iff.1 h
  split_ifs at h with hb
  exact ⟨c, screen, hc, Bool.eq_false_iff.2 hb, hscreen, (Option.some.inj h).symm⟩

theorem step_openList {d : Device} (h : (machine F).step s (.openList d) = some t) :
    ∃ user, s.repo.currentUser d = some user ∧
      t = { s with lists := s.lists ++ [ConversationList.opened s.repo.db d user] } := by
  obtain ⟨user, huser, h⟩ := Option.bind_eq_some_iff.1 h
  exact ⟨user, huser, (Option.some.inj h).symm⟩

theorem step_listEvent {j i : ℕ} (h : (machine F).step s (.listEvent j i) = some t) :
    ∃ l e, s.lists[j]? = some l ∧ l.events[i]? = some e ∧
      t = s.setList j (ConversationList.receive F.sortConversations
        { l with events := l.events.eraseIdx i } e) := by
  obtain ⟨l, hl, h⟩ := Option.bind_eq_some_iff.1 h
  obtain ⟨l', hl', h⟩ := Option.bind_eq_some_iff.1 h
  obtain ⟨e, he, hl'⟩ := Option.bind_eq_some_iff.1 hl'
  obtain rfl := Option.some.inj hl'
  exact ⟨l, e, hl, he, (Option.some.inj h).symm⟩

theorem step_profile {j i : ℕ} (h : (machine F).step s (.profile j i) = some t) :
    ∃ l peer location, s.lists[j]? = some l ∧ l.profiles[i]? = some (peer, location) ∧
      t = s.setList j (ConversationList.downloadLastMessage s.repo.db (s.repo.currentUser l.device)
        { l with
          profiles := l.profiles.eraseIdx i
          screen := l.screen.append { user := peer, lastMessage := emptyMessage } }
        l.screen.conversations.length location) := by
  obtain ⟨l, hl, h⟩ := Option.bind_eq_some_iff.1 h
  obtain ⟨l', hl', h⟩ := Option.bind_eq_some_iff.1 h
  obtain ⟨⟨peer, location⟩, he, hl'⟩ := Option.bind_eq_some_iff.1 hl'
  obtain rfl := Option.some.inj hl'
  exact ⟨l, peer, location, hl, he, (Option.some.inj h).symm⟩

theorem step_listBlock {j : ℕ} (h : (machine F).step s (.listBlock j) = some t) :
    ∃ l screen, s.lists[j]? = some l ∧ l.screen.runBlock = some screen ∧
      t = s.setList j { l with screen } := by
  obtain ⟨l, hl, h⟩ := Option.bind_eq_some_iff.1 h
  obtain ⟨screen, hscreen, h⟩ := Option.bind_eq_some_iff.1 h
  exact ⟨l, screen, hl, hscreen, (Option.some.inj h).symm⟩

/-- A step of the program is one of the repository, or leaves it alone. -/
theorem repo_of_step (h : (machine F).step s a = some t) :
    t.repo = s.repo ∨ ∃ b, Repository.machine.step s.repo b = some t.repo := by
  cases a with
  | repository b => exact .inr ⟨b, (step_repository h).1⟩
  | openChat d peer =>
    obtain ⟨user, _, rfl⟩ := step_openChat h
    exact .inr ⟨.markMessagesRead d peer, rfl⟩
  | closeChat j =>
    obtain ⟨c, _, rfl⟩ := step_closeChat h
    exact .inr ⟨.markMessagesRead c.device c.peer, rfl⟩
  | chatEvent j i =>
    obtain ⟨_, _, _, _, rfl⟩ := step_chatEvent h
    exact .inl rfl
  | screen j b =>
    obtain ⟨_, _, _, _, _, rfl⟩ := step_screen h
    exact .inl rfl
  | openList d =>
    obtain ⟨_, _, rfl⟩ := step_openList h
    exact .inl rfl
  | listEvent j i =>
    obtain ⟨_, _, _, _, rfl⟩ := step_listEvent h
    exact .inl rfl
  | profile j i =>
    obtain ⟨_, _, _, _, _, rfl⟩ := step_profile h
    exact .inl rfl
  | listBlock j =>
    obtain ⟨_, _, _, _, rfl⟩ := step_listBlock h
    exact .inl rfl

/-- The repository within the program is a repository machine. -/
def repositoryProjection (F : Foundation) : Machine.Projection (machine F) Repository.machine where
  onState := App.repo
  init := rfl
  step s a t h := by
    rcases repo_of_step h with he | ⟨b, hb⟩
    · rw [he]
      exact .refl _
    · exact .of_step hb

theorem reachable_repo (h : (machine F).Reachable s) : Repository.machine.Reachable s.repo :=
  (repositoryProjection F).reachable h

/-! ## One chat -/

/-- What a step from `s` to `t` can do to the chat `j`. -/
inductive ChatMove (F : Foundation) (s t : App) (j : ℕ) (c : Chat) : Action → Chat → Prop
  | notify {b : Repository.Action} : Repository.machine.step s.repo b = some t.repo →
    ChatMove F s t j c (.repository b) (c.notify s.repo.db t.repo.db)
  | receive {i : ℕ} {e : ChatEvent} : c.events[i]? = some e → t.repo = s.repo →
    ChatMove F s t j c (.chatEvent j i)
      (Chat.receive F.sortItems s.repo.db { c with events := c.events.eraseIdx i } e)
  | screen {b : ChatVC.Action} {screen : ChatVC} : b.isDelivery = false →
    (ChatVC.machine F.sortItems F.validURL).step c.screen b = some screen → t.repo = s.repo →
    ChatMove F s t j c (.screen j b) { c with screen }
  | stay {a : Action} : t.repo.db = s.repo.db → ChatMove F s t j c a c

/-- After a step, a chat is one that was there, or it has just been opened. -/
theorem chat_of_step (h : (machine F).step s a = some t) {j : ℕ} {c' : Chat}
    (hc' : t.chats[j]? = some c') :
    (∃ c, s.chats[j]? = some c ∧ ChatMove F s t j c a c') ∨
      ∃ d user peer, c' = Chat.opened s.repo.db d user peer ∧ t.repo.db = s.repo.db := by
  have stay : t.chats = s.chats → t.repo.db = s.repo.db →
      ∃ c, s.chats[j]? = some c ∧ ChatMove F s t j c a c' :=
    fun hchats hdb => ⟨c', hchats ▸ hc', .stay hdb⟩
  cases a with
  | repository b =>
    obtain ⟨hrepo, hchats, _⟩ := step_repository h
    rw [hchats, List.getElem?_map, Option.map_eq_some_iff] at hc'
    obtain ⟨c, hc, rfl⟩ := hc'
    exact .inl ⟨c, hc, .notify hrepo⟩
  | openChat d peer =>
    obtain ⟨user, _, rfl⟩ := step_openChat h
    rcases Lists.getElem?_concat hc' with hc | rfl
    · exact .inl ⟨c', hc, .stay rfl⟩
    · exact .inr ⟨d, user, peer, rfl, rfl⟩
  | closeChat k =>
    obtain ⟨c, _, rfl⟩ := step_closeChat h
    exact .inl (stay rfl rfl)
  | chatEvent k i =>
    obtain ⟨c, e, hc, he, rfl⟩ := step_chatEvent h
    rcases Lists.getElem?_set_cases hc' with ⟨rfl, rfl⟩ | ⟨_, hc'⟩
    · exact .inl ⟨c, hc, .receive he rfl⟩
    · exact .inl ⟨c', hc', .stay rfl⟩
  | screen k b =>
    obtain ⟨c, screen, hc, hb, hscreen, rfl⟩ := step_screen h
    rcases Lists.getElem?_set_cases hc' with ⟨rfl, rfl⟩ | ⟨_, hc'⟩
    · exact .inl ⟨c, hc, .screen hb hscreen rfl⟩
    · exact .inl ⟨c', hc', .stay rfl⟩
  | openList d =>
    obtain ⟨_, _, rfl⟩ := step_openList h
    exact .inl (stay rfl rfl)
  | listEvent k i =>
    obtain ⟨_, _, _, _, rfl⟩ := step_listEvent h
    exact .inl (stay rfl rfl)
  | profile k i =>
    obtain ⟨_, _, _, _, _, rfl⟩ := step_profile h
    exact .inl (stay rfl rfl)
  | listBlock k =>
    obtain ⟨_, _, _, _, rfl⟩ := step_listBlock h
    exact .inl (stay rfl rfl)

/-- An invariant of every chat, along a condition: it holds of a chat that is
    opened, and is kept by what the steps do to a chat. -/
theorem chat_invariant {C : App → Action → Prop} {P : ℕ → Database → Chat → Prop}
    (opened : ∀ j db d user peer, P j db (Chat.opened db d user peer))
    (move : ∀ s t j c a c', (machine F).Reachable s → (machine F).step s a = some t → C s a →
      s.chats[j]? = some c → P j s.repo.db c → ChatMove F s t j c a c' → P j t.repo.db c')
    {as : List Action} (hC : (machine F).Along C as) (h : (machine F).exec as = some s) :
    ∀ (j : ℕ) (c : Chat), s.chats[j]? = some c → P j s.repo.db c := by
  refine hC.invariant (I := fun s => ∀ (j : ℕ) (c : Chat), s.chats[j]? = some c → P j s.repo.db c)
    (fun j c hc => by simp [machine] at hc) (fun s a t hr hi ha ht j c' hc' => ?_) h
  rcases chat_of_step ht hc' with ⟨c, hc, hmove⟩ | ⟨d, user, peer, rfl, hdb⟩
  · exact move s t j c a c' hr ht ha hc (hi j c hc) hmove
  · rw [hdb]
    exact opened j s.repo.db d user peer

/-- An invariant of every chat of a reachable state. -/
theorem chat_invariant_of_reachable {P : Database → Chat → Prop}
    (opened : ∀ db d user peer, P db (Chat.opened db d user peer))
    (move : ∀ s t j c a c', (machine F).Reachable s → P s.repo.db c → ChatMove F s t j c a c' →
      P t.repo.db c')
    (h : (machine F).Reachable s) {j : ℕ} {c : Chat} (hc : s.chats[j]? = some c) :
    P s.repo.db c := by
  obtain ⟨as, has⟩ := h
  exact chat_invariant (C := fun _ _ => True) (P := fun _ => P) (fun _ => opened)
    (fun s t j c a c' hr _ _ _ hi hmove => move s t j c a c' hr hi hmove)
    (Machine.along_of_forall fun _ _ => trivial) has j c hc

/-! ## One list -/

/-- What a step from `s` to `t` can do to the list `j`. -/
inductive ListMove (F : Foundation) (s t : App) (j : ℕ) (l : ConversationList) :
    Action → ConversationList → Prop
  | notify {b : Repository.Action} : Repository.machine.step s.repo b = some t.repo →
    ListMove F s t j l (.repository b) (l.notify s.repo.db t.repo.db)
  | receive {i : ℕ} {e : ListEvent} : l.events[i]? = some e → t.repo = s.repo →
    ListMove F s t j l (.listEvent j i)
      (ConversationList.receive F.sortConversations { l with events := l.events.eraseIdx i } e)
  | info {i : ℕ} {peer : UserID} {location : Key} : l.profiles[i]? = some (peer, location) →
    t.repo = s.repo →
    ListMove F s t j l (.profile j i)
      (ConversationList.downloadLastMessage s.repo.db (s.repo.currentUser l.device)
        { l with
          profiles := l.profiles.eraseIdx i
          screen := l.screen.append { user := peer, lastMessage := emptyMessage } }
        l.screen.conversations.length location)
  | block {screen : ConversationsVC} : l.screen.runBlock = some screen → t.repo = s.repo →
    ListMove F s t j l (.listBlock j) { l with screen }
  | stay {a : Action} : t.repo.db = s.repo.db → ListMove F s t j l a l

/-- After a step, a list is one that was there, or it has just been opened. -/
theorem list_of_step (h : (machine F).step s a = some t) {j : ℕ} {l' : ConversationList}
    (hl' : t.lists[j]? = some l') :
    (∃ l, s.lists[j]? = some l ∧ ListMove F s t j l a l') ∨
      ∃ d user, l' = ConversationList.opened s.repo.db d user ∧ t.repo.db = s.repo.db := by
  have stay : t.lists = s.lists → t.repo.db = s.repo.db →
      ∃ l, s.lists[j]? = some l ∧ ListMove F s t j l a l' :=
    fun hlists hdb => ⟨l', hlists ▸ hl', .stay hdb⟩
  cases a with
  | repository b =>
    obtain ⟨hrepo, _, hlists⟩ := step_repository h
    rw [hlists, List.getElem?_map, Option.map_eq_some_iff] at hl'
    obtain ⟨l, hl, rfl⟩ := hl'
    exact .inl ⟨l, hl, .notify hrepo⟩
  | openChat d peer =>
    obtain ⟨_, _, rfl⟩ := step_openChat h
    exact .inl (stay rfl rfl)
  | closeChat k =>
    obtain ⟨_, _, rfl⟩ := step_closeChat h
    exact .inl (stay rfl rfl)
  | chatEvent k i =>
    obtain ⟨_, _, _, _, rfl⟩ := step_chatEvent h
    exact .inl (stay rfl rfl)
  | screen k b =>
    obtain ⟨_, _, _, _, _, rfl⟩ := step_screen h
    exact .inl (stay rfl rfl)
  | openList d =>
    obtain ⟨user, _, rfl⟩ := step_openList h
    rcases Lists.getElem?_concat hl' with hl | rfl
    · exact .inl ⟨l', hl, .stay rfl⟩
    · exact .inr ⟨d, user, rfl, rfl⟩
  | listEvent k i =>
    obtain ⟨l, e, hl, he, rfl⟩ := step_listEvent h
    rcases Lists.getElem?_set_cases hl' with ⟨rfl, rfl⟩ | ⟨_, hl'⟩
    · exact .inl ⟨l, hl, .receive he rfl⟩
    · exact .inl ⟨l', hl', .stay rfl⟩
  | profile k i =>
    obtain ⟨l, peer, location, hl, he, rfl⟩ := step_profile h
    rcases Lists.getElem?_set_cases hl' with ⟨rfl, rfl⟩ | ⟨_, hl'⟩
    · exact .inl ⟨l, hl, .info he rfl⟩
    · exact .inl ⟨l', hl', .stay rfl⟩
  | listBlock k =>
    obtain ⟨l, screen, hl, hscreen, rfl⟩ := step_listBlock h
    rcases Lists.getElem?_set_cases hl' with ⟨rfl, rfl⟩ | ⟨_, hl'⟩
    · exact .inl ⟨l, hl, .block hscreen rfl⟩
    · exact .inl ⟨l', hl', .stay rfl⟩

/-- An invariant of every list of a reachable state. -/
theorem list_invariant_of_reachable {P : Database → ConversationList → Prop}
    (opened : ∀ db d user, P db (ConversationList.opened db d user))
    (move : ∀ s t j l a l', (machine F).Reachable s → P s.repo.db l → ListMove F s t j l a l' →
      P t.repo.db l')
    (h : (machine F).Reachable s) {j : ℕ} {l : ConversationList} (hl : s.lists[j]? = some l) :
    P s.repo.db l := by
  refine h.invariant
      (I := fun s => ∀ (j : ℕ) (l : ConversationList), s.lists[j]? = some l → P s.repo.db l)
    (fun j l hl => by simp [machine] at hl) (fun s a t hr hi ht j l' hl' => ?_) j l hl
  rcases list_of_step ht hl' with ⟨l, hl, hmove⟩ | ⟨d, user, rfl, hdb⟩
  · exact move s t j l a l' hr (hi j l hl) hmove
  · rw [hdb]
    exact opened s.repo.db d user

end App

end MagicChat
