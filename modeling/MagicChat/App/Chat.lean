import MagicChat.ChatVC.Basic
import MagicChat.Database.Basic

/-!
# A chat and its observers

What `downloadAllMessages` sets up for a chat screen. It observes the value of
the pointer of its user, and each time this observer is told of a location, it
observes the children of that location. No observer is ever removed.

An observer of a value is told the value when it starts, and after each change
of it; an observer of children is told of each child that is there when it
starts, and of each one that is added later. What it has not been told yet
are the *events* of the chat, each with the snapshot it brings.
-/

namespace MagicChat

/-- What an observer of a chat is told. -/
inductive ChatEvent
  /-- The value of the pointer. -/
  | value (snapshot : Option Value)
  /-- A child of an observed location. -/
  | childAdded (ref : Reference) (snap : Value)
  deriving DecidableEq

/-- A chat: the screen of a user with a peer, and its observers. -/
structure Chat where
  device : Device
  /-- The user who was signed in when the chat was opened. -/
  user : UserID
  peer : UserID
  /-- The locations whose children are observed. -/
  observed : List Key := []
  /-- What the observers have not been told yet. -/
  events : List ChatEvent := []
  screen : ChatVC := {}
  /-- The records of the delivered messages, in the order of their delivery. -/
  sources : List Reference := []

/-- An event for each of the given children of a location. -/
def childEvents (location : Key) (children : Keyed Key Value) : List ChatEvent :=
  children.map fun e => .childAdded ⟨location, e.1⟩ e.2

namespace Chat

/-- A chat that has just been opened. -/
def opened (db : Database) (device : Device) (user peer : UserID) : Chat :=
  { device, user, peer, events := [.value (db.pointer user peer)] }

/-- The events of a change of the database from `db` to `db'`. -/
def changes (c : Chat) (db db' : Database) : List ChatEvent :=
  (if db'.pointer c.user c.peer = db.pointer c.user c.peer then []
    else [.value (db'.pointer c.user c.peer)]) ++
  c.observed.flatMap fun L => childEvents L (Keyed.added (db.conversations L) (db'.conversations L))

/-- The chat after a change of the database. -/
def notify (db db' : Database) (c : Chat) : Chat :=
  { c with events := c.events ++ c.changes db db' }

/-- The callback of an observer, in `downloadAllMessages`. -/
def receive (S : Sorter Item Item.Before) (db : Database) (c : Chat) : ChatEvent → Chat
  | .value snapshot =>
    match snapshot.bind Value.location with
    | some location =>
      { c with
        observed := c.observed ++ [location]
        events := c.events ++ childEvents location (db.conversations location) }
    | none => c
  | .childAdded ref snap =>
    match downloadedMessage c.user snap with
    | some message =>
      { c with screen := c.screen.deliver S message, sources := c.sources ++ [ref] }
    | none => c

/-- The chat after its event `i`. -/
def fire (S : Sorter Item Item.Before) (db : Database) (c : Chat) (i : ℕ) : Option Chat := do
  let event ← c.events[i]?
  some (receive S db { c with events := c.events.eraseIdx i } event)

/-! ## The participants of a chat -/

variable (S : Sorter Item Item.Before) (db : Database) (c : Chat)

@[simp] theorem receive_user (e : ChatEvent) : (receive S db c e).user = c.user := by
  cases e <;> (rw [receive]; split <;> rfl)

@[simp] theorem receive_peer (e : ChatEvent) : (receive S db c e).peer = c.peer := by
  cases e <;> (rw [receive]; split <;> rfl)

end Chat

end MagicChat
