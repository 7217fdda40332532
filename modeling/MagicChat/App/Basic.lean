import MagicChat.App.Chat
import MagicChat.App.ConversationList
import MagicChat.Repository.Fresh

/-!
# The program

The devices together: the repository machine, and the chats and the lists of
conversations that the users have opened. Every step of the repository is
observed by all of them (`App.repository`), when it is applied (`Synced` has lists
that are told of the writes of their device before); their own steps do not write to
the database, but opening and closing a chat starts a call to `markMessagesRead`.

A screen that has been closed, or whose user has logged out, keeps its
observers: the program removes none.
-/

namespace MagicChat

/-- What Foundation decides: how it sorts, and which links are URLs. -/
structure Foundation where
  sortItems : Sorter Item Item.Before
  sortConversations : Sorter (Int × ℕ) Later
  validURL : String → Bool

/-- Insertion sorts, with every link a URL. -/
def Foundation.insertion : Foundation where
  sortItems := .insertion Item.Before
  sortConversations := .insertion Later
  validURL _ := true

/-- The state of the program. -/
structure App where
  repo : Repository
  /-- The chats opened so far. -/
  chats : List Chat
  /-- The lists of conversations opened so far. -/
  lists : List ConversationList

namespace App

inductive Action
  /-- A step of the repository. -/
  | repository (a : Repository.Action)
  /-- `ChatVC.viewDidLoad`. -/
  | openChat (device : Device) (peer : UserID)
  /-- `ChatVC.viewWillDisappear`. -/
  | closeChat (chat : ℕ)
  /-- An observer of a chat is told of an event. -/
  | chatEvent (chat i : ℕ)
  /-- Something else happens to the screen of a chat. -/
  | screen (chat : ℕ) (a : ChatVC.Action)
  /-- `ConversationsVC.viewDidLoad`. -/
  | openList (device : Device)
  /-- An observer of a list is told of an event. -/
  | listEvent (list i : ℕ)
  /-- A profile comes that a list has asked for. -/
  | profile (list i : ℕ)
  /-- A block of a list runs. -/
  | listBlock (list : ℕ)

/-- The action of the repository that an action is, if it is one. -/
def Action.repository? : Action → Option Repository.Action
  | .repository a => some a
  | _ => none

variable (F : Foundation) (s : App)

/-- A step of the repository, which every chat and every list observes. -/
def repository (a : Repository.Action) : Option App := do
  let repo ← Repository.step s.repo a
  some { repo
         chats := s.chats.map (Chat.notify s.repo.db repo.db)
         lists := s.lists.map (ConversationList.notify s.repo.db repo.db) }

/-- `markMessagesRead(forUserID:)` on a device. -/
def markMessagesRead (device : Device) (forUserID : UserID) : App :=
  { s with
    repo := s.repo.start (MagicChat.markMessagesRead (s.repo.currentUser device) forUserID) }

/-- Replace the chat `j`. -/
def setChat (j : ℕ) (c : Chat) : App := { s with chats := s.chats.set j c }

/-- Replace the list `j`. -/
def setList (j : ℕ) (l : ConversationList) : App := { s with lists := s.lists.set j l }

/-- One step of the program. A chat or a list is opened by a user who is signed in. -/
def step : Action → Option App
  | .repository a => s.repository a
  | .openChat device peer => do
    let user ← s.repo.currentUser device
    let chat := Chat.opened s.repo.db device user peer
    some { s.markMessagesRead device peer with chats := s.chats ++ [chat] }
  | .closeChat j => do
    let chat ← s.chats[j]?
    some (s.markMessagesRead chat.device chat.peer)
  | .chatEvent j i => do
    let chat ← s.chats[j]?
    let chat ← chat.fire F.sortItems s.repo.db i
    some (s.setChat j chat)
  | .screen j a => do
    let chat ← s.chats[j]?
    let screen ← chat.screen.step F.sortItems F.validURL a
    -- Messages are delivered by the observers.
    if a.isDelivery then none else some (s.setChat j { chat with screen })
  | .openList device => do
    let user ← s.repo.currentUser device
    some { s with lists := s.lists ++ [ConversationList.opened s.repo.db device user] }
  | .listEvent j i => do
    let list ← s.lists[j]?
    let list ← list.fire F.sortConversations i
    some (s.setList j list)
  | .profile j i => do
    let list ← s.lists[j]?
    let list ← list.info s.repo.db (s.repo.currentUser list.device) i
    some (s.setList j list)
  | .listBlock j => do
    let list ← s.lists[j]?
    let screen ← list.screen.runBlock
    some (s.setList j { list with screen })

/-- The machine of the program. -/
def machine : Machine App Action where
  init := { repo := Repository.machine.init, chats := [], lists := [] }
  step s := s.step F

/-- A run: `u` opens a chat with `v`, whom nobody has written to yet. -/
def openedChat : List Action :=
  [.repository (.loginUser 0 "u"), .repository (.loginUser 1 "v"), .openChat 0 "v",
    .chatEvent 0 0]

end App

end MagicChat
