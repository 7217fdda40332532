import MagicChat.Session.Basic

/-!
# The contacts

`ContatctsViewController`, with the `downloadAllUsers` that collects its users:
the nodes `users/x` are observed as they are added, those there before and those
that come later; for each of them but one's own, with complete credentials, the
picture is downloaded; and a block on the main queue appends the user and
reloads the view.

A node `users/x` is added with its credentials, or with a conversation, and it is
added only once: credentials that come after a conversation are not observed.
The machine lets nodes be written, events be told, downloads end, rows be
selected and blocks run in any order.
-/

namespace MagicChat

/-- The node `users`: for each user, in the order of their appearance, the
    credentials, if the node has any. -/
abbrev Users := Keyed UserID (Option Value)

/-- A block on the main queue. -/
inductive ContactsBlock
  /-- The completion of `downloadAllUsers`, in `fetchUsers`. -/
  | append (user : User)
  /-- `ConversationsVC.selected(user:)`. -/
  | selected (user : User)
  deriving DecidableEq

/-- The state of the contacts. -/
structure ContatctsViewController where
  exceptID : UserID
  /-- The nodes added that the observer has not been told of. -/
  events : Users := []
  /-- The pictures being downloaded: for whom, with name and address. -/
  tasks : List (UserID × String × String) := []
  mainQueue : List ContactsBlock := []
  items : List User := []
  /-- The users that the view read when it last reloaded. -/
  displayed : List User := []
  /-- The users with whom a chat has been opened. -/
  chats : List User := []

/-- The database, and the contacts, once they have been opened. -/
structure Contacts where
  users : Users
  screen : Option ContatctsViewController

namespace ContatctsViewController

variable (c : ContatctsViewController)

/-- The callback of `.childAdded`, in `downloadAllUsers`. -/
def childAdded (validURL : String → Bool) (id : UserID) (credentials : Option Value) :
    ContatctsViewController :=
  if id = c.exceptID then c
  else
    match Phone.profile credentials with
    | some (name, email, profileLink) =>
      if validURL profileLink then { c with tasks := c.tasks ++ [(id, name, email)] } else c
    | none => c

/-- The completion of a download, in `downloadAllUsers`. -/
def downloaded (id : UserID) (name email : String) (profilePic : Option UIImage) :
    ContatctsViewController :=
  match profilePic with
  | some profilePic =>
    { c with mainQueue := c.mainQueue ++ [.append { name, email, id, profilePic }] }
  | none => c

/-- Run a block. -/
def run : ContactsBlock → ContatctsViewController
  | .append user => { c with items := c.items ++ [user], displayed := c.items ++ [user] }
  | .selected user => { c with chats := c.chats ++ [user] }

/-- `collectionView(_:didSelectItemAt:)`. -/
def didSelectItem (row : ℕ) : Option ContatctsViewController :=
  if c.items.isEmpty then some c
  else
    -- A row that is no item is out of range.
    c.items[row]?.map fun user => { c with mainQueue := c.mainQueue ++ [.selected user] }

end ContatctsViewController

namespace Contacts

inductive Action
  /-- The credentials of a user are written. -/
  | setCredentials (id : UserID) (credentials : Value)
  /-- A pointer of a user is written. -/
  | setConversation (id : UserID)
  /-- `viewDidLoad`. -/
  | viewDidLoad (currentUser : Option UserID)
  /-- The observer is told of a node. -/
  | childAdded (i : ℕ)
  /-- A download ends. -/
  | downloaded (i : ℕ) (profilePic : Option UIImage)
  /-- A row of the view is selected. -/
  | didSelectItem (row : ℕ)
  | runBlock
  deriving DecidableEq

variable (s : Contacts)

/-- The node `users` changes; what is added is observed. -/
def write (users : Users) : Contacts where
  users := users
  screen := s.screen.map fun c => { c with events := c.events ++ Keyed.added s.users users }

/-- One step. The contacts are opened once, and observe nobody when nobody is signed in. -/
def step (validURL : String → Bool) : Action → Option Contacts
  | .setCredentials id credentials => some (s.write (Keyed.set s.users id (some credentials)))
  | .setConversation id =>
    some (s.write (Keyed.set s.users id ((s.users.lookup id).getD none)))
  | .viewDidLoad currentUser =>
    match s.screen, currentUser with
    | none, some exceptID => some { s with screen := some { exceptID, events := s.users } }
    | _, _ => none
  | .childAdded i => do
    let c ← s.screen
    let e ← c.events[i]?
    let c := { c with events := c.events.eraseIdx i }
    some { s with screen := some (c.childAdded validURL e.1 e.2) }
  | .downloaded i profilePic => do
    let c ← s.screen
    let task ← c.tasks[i]?
    let c := { c with tasks := c.tasks.eraseIdx i }
    some { s with screen := some (c.downloaded task.1 task.2.1 task.2.2 profilePic) }
  | .didSelectItem row => do
    let c ← s.screen
    -- A row can be selected if the view shows it.
    if row < c.displayed.length then
      let c ← c.didSelectItem row
      some { s with screen := some c }
    else none
  | .runBlock => do
    let c ← s.screen
    match c.mainQueue with
    | [] => none
    | b :: mainQueue =>
      some { s with screen := some ({ c with mainQueue : ContatctsViewController }.run b) }

/-- The machine of the contacts. -/
def machine (validURL : String → Bool) : Machine Contacts Action where
  init := { users := [], screen := none }
  step s := s.step validURL

end Contacts

end MagicChat
