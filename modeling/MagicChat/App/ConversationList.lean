import MagicChat.ConversationsVC.Basic
import MagicChat.Database.Basic

/-!
# A list of conversations and its observers

What `showConversations` sets up for a list of conversations. It observes the
children of `users/x/conversations`: for each, it captures the location that the
pointer holds, and asks for the profile of the peer. When the profile comes,
`downloadLastMessage` observes the value of the conversation at the location
captured, for the user who is signed in by then. No observer is ever removed.
-/

namespace MagicChat

/-- An observer of a conversation: the object it updates, the location it has
    captured, and the user for whom it reads. -/
structure LocationObserver where
  conversation : ℕ
  location : Key
  currentUserID : UserID
  deriving DecidableEq

/-- What an observer of a list is told. -/
inductive ListEvent
  /-- A pointer of the user. -/
  | childAdded (peer : UserID) (snap : Value)
  /-- The value of a conversation. -/
  | value (observer : LocationObserver) (snapshot : Keyed Key Value)
  deriving DecidableEq

/-- A list of the conversations of a user, and its observers. -/
structure ConversationList where
  device : Device
  /-- The user who was signed in when the list was opened. -/
  user : UserID
  /-- What the observers have not been told yet. -/
  events : List ListEvent := []
  /-- The profiles asked for, with the locations captured. -/
  profiles : List (UserID × Key) := []
  /-- The observers of the conversations. -/
  observers : List LocationObserver := []
  screen : ConversationsVC := {}

/-- An event for each of the given pointers. -/
def pointerEvents (pointers : Keyed UserID Value) : List ListEvent :=
  pointers.map fun e => .childAdded e.1 e.2

namespace ConversationList

/-- A list that has just been opened. -/
def opened (db : Database) (device : Device) (user : UserID) : ConversationList :=
  { device, user, events := pointerEvents (db.users user) }

/-- The events of a change of the database from `db` to `db'`. -/
def changes (l : ConversationList) (db db' : Database) : List ListEvent :=
  pointerEvents (Keyed.added (db.users l.user) (db'.users l.user)) ++
    (l.observers.filter fun o => db'.conversations o.location ≠ db.conversations o.location).map
      fun o => .value o (db'.conversations o.location)

/-- The list after a change of the database. -/
def notify (db db' : Database) (l : ConversationList) : ConversationList :=
  { l with events := l.events ++ l.changes db db' }

/-- The callback of an observer, in `showConversations` and in `downloadLastMessage`. -/
def receive (T : Sorter (Int × ℕ) Later) (l : ConversationList) : ListEvent → ConversationList
  | .childAdded peer snap =>
    match snap.location with
    | some location => { l with profiles := l.profiles ++ [(peer, location)] }
    | none => l
  | .value observer snapshot =>
    { l with
      screen := l.screen.receiveAll T observer.conversation
        (listedMessages observer.currentUserID snapshot) }

/-- The list after its event `i`. -/
def fire (T : Sorter (Int × ℕ) Later) (l : ConversationList) (i : ℕ) : Option ConversationList := do
  let event ← l.events[i]?
  some (receive T { l with events := l.events.eraseIdx i } event)

/-- `downloadLastMessage(forLocation:)`, for the conversation object `k`. -/
def downloadLastMessage (db : Database) (currentUser : Option UserID) (l : ConversationList) (k : ℕ)
    (location : Key) : ConversationList :=
  match currentUser with
  | some currentUserID =>
    let o : LocationObserver := { conversation := k, location, currentUserID }
    { l with
      observers := l.observers ++ [o]
      events := l.events ++ [.value o (db.conversations location)] }
  | none => l

/-- The completion of `info(forUserID:)`, in `showConversations`, for the profile `i`. -/
def info (db : Database) (currentUser : Option UserID) (l : ConversationList) (i : ℕ) :
    Option ConversationList := do
  let (peer, location) ← l.profiles[i]?
  let l' := { l with
    profiles := l.profiles.eraseIdx i
    screen := l.screen.append { user := peer, lastMessage := emptyMessage } }
  some (downloadLastMessage db currentUser l' l.screen.conversations.length location)

/-- The list observes the conversation at the location, for the peer. -/
def Observes (l : ConversationList) (peer : UserID) (location : Key) : Prop :=
  ∃ o ∈ l.observers, o.location = location ∧
    (l.screen.conversations.map Conversation.user)[o.conversation]? = some peer

/-- A row of the list displays the message for the peer. -/
def Displays (l : ConversationList) (peer : UserID) (message : Message) : Prop :=
  ∃ k ∈ l.screen.displayed,
    l.screen.conversations[k]? = some { user := peer, lastMessage := message }

/-! ## The user and the device of a list -/

@[simp] theorem receive_user (T : Sorter (Int × ℕ) Later) (l : ConversationList) (e : ListEvent) :
    (receive T l e).user = l.user := by
  cases e with
  | value => rfl
  | childAdded peer snap =>
    rw [receive]
    split <;> rfl

@[simp] theorem downloadLastMessage_user (db : Database) (currentUser : Option UserID)
    (l : ConversationList) (k : ℕ) (location : Key) :
    (downloadLastMessage db currentUser l k location).user = l.user := by
  cases currentUser <;> rfl

@[simp] theorem receive_device (T : Sorter (Int × ℕ) Later) (l : ConversationList)
    (e : ListEvent) : (receive T l e).device = l.device := by
  cases e with
  | value => rfl
  | childAdded peer snap =>
    rw [receive]
    split <;> rfl

@[simp] theorem downloadLastMessage_device (db : Database) (currentUser : Option UserID)
    (l : ConversationList) (k : ℕ) (location : Key) :
    (downloadLastMessage db currentUser l k location).device = l.device := by
  cases currentUser <;> rfl

end ConversationList

end MagicChat
