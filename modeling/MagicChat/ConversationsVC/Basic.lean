import MagicChat.Library.Sorter
import MagicChat.Message

/-!
# The list of conversations

`ConversationsVC`, with the `conversations` that `showConversations` collects for
it. A conversation is an object shared by the two: `conversations` holds the
objects in the order of their creation, and `items` refers to them by their
place there.

Each message that an observer of a conversation reads is stored in the object,
and the list then takes over the `conversations`, sorts them, and leaves a block
on the main queue, which reloads the table and plays a sound if a listed
conversation is unread.
-/

namespace MagicChat

/-- A conversation with a user. -/
structure Conversation where
  user : UserID
  lastMessage : Message
  deriving DecidableEq

/-- The last message of a conversation none of whose messages has been read yet. -/
def emptyMessage : Message :=
  { type := .text, content := .field (.string "loading"), owner := .sender, timestamp := 0,
    isRead := true }

/-- The order of the listed conversations, given with their timestamps: the latest comes first. -/
def Later (a b : Int × ℕ) : Prop := b.1 ≤ a.1

instance : DecidableRel Later := fun _ _ => inferInstanceAs (Decidable (_ ≤ _))

instance : Std.Total Later := ⟨fun _ _ => le_total _ _⟩

instance : IsTrans (Int × ℕ) Later := ⟨fun _ _ _ h h' => le_trans h' h⟩

/-- The state of a list of conversations. -/
structure ConversationsVC where
  /-- The conversation objects created so far. -/
  conversations : List Conversation := []
  items : List ℕ := []
  /-- The items in the order in which the table read them when it last reloaded. -/
  displayed : List ℕ := []
  /-- The number of blocks on the main queue. -/
  mainQueue : ℕ := 0
  /-- How often the new-message sound has been played. -/
  sounds : ℕ := 0

namespace ConversationsVC

variable (s : ConversationsVC)

/-- `conversations.append(conversation)`. -/
def append (conversation : Conversation) : ConversationsVC :=
  { s with conversations := s.conversations ++ [conversation] }

/-- `conversation.lastMessage = message`. -/
def setLastMessage (k : ℕ) (message : Message) : ConversationsVC :=
  { s with conversations := s.conversations.modify k fun c => { c with lastMessage := message } }

/-- The completion of `showConversations`, in `fetchData`. -/
def fetchData (T : Sorter (Int × ℕ) Later) : ConversationsVC :=
  let stamped := s.conversations.zipIdx.map fun e => (e.1.lastMessage.timestamp, e.2)
  { s with items := (T.sort stamped).map Prod.snd, mainQueue := s.mainQueue + 1 }

/-- The completion of `downloadLastMessage`, in `showConversations`. -/
def receive (T : Sorter (Int × ℕ) Later) (k : ℕ) (message : Message) : ConversationsVC :=
  (s.setLastMessage k message).fetchData T

/-- The object `k` has an unread last message. -/
def unread (k : ℕ) : Bool := s.conversations[k]?.any fun c => !c.lastMessage.isRead

/-- Run a block of the main queue. -/
def runBlock : Option ConversationsVC :=
  if s.mainQueue = 0 then none
  else
    some { s with
      displayed := s.items
      mainQueue := s.mainQueue - 1
      sounds := if s.items.any s.unread then s.sounds + 1 else s.sounds }

/-- Receive several messages of one conversation, in turn. -/
def receiveAll (T : Sorter (Int × ℕ) Later) (k : ℕ) (messages : List Message) : ConversationsVC :=
  messages.foldl (fun s message => s.receive T k message) s

variable {s}

/-! ## The conversations -/

@[simp] theorem fetchData_conversations (T : Sorter (Int × ℕ) Later) :
    (s.fetchData T).conversations = s.conversations := rfl

theorem runBlock_conversations {t : ConversationsVC} (h : s.runBlock = some t) :
    t.conversations = s.conversations := by
  rw [runBlock] at h
  by_cases hq : s.mainQueue = 0
  · simp [hq] at h
  · rw [if_neg hq] at h
    exact Option.some.inj h ▸ rfl

@[simp] theorem append_users (c : Conversation) : (s.append c).conversations.map Conversation.user =
    s.conversations.map Conversation.user ++ [c.user] := List.map_append

@[simp] theorem length_conversations_append (c : Conversation) :
    (s.append c).conversations.length = s.conversations.length + 1 := List.length_append

/-- The objects do not change their users. -/
@[simp] theorem receive_users (T : Sorter (Int × ℕ) Later) (k : ℕ) (message : Message) :
    (s.receive T k message).conversations.map Conversation.user =
      s.conversations.map Conversation.user := by
  refine List.ext_getElem? fun i => ?_
  simp only [receive, fetchData_conversations, setLastMessage, List.getElem?_map,
    List.getElem?_modify]
  cases s.conversations[i]? with
  | none => rfl
  | some c => by_cases hk : k = i <;> simp [hk]

@[simp] theorem receiveAll_users (T : Sorter (Int × ℕ) Later) (k : ℕ) (messages : List Message) :
    (s.receiveAll T k messages).conversations.map Conversation.user =
      s.conversations.map Conversation.user := by
  induction messages generalizing s with
  | nil => rfl
  | cons message messages ih => exact ih.trans (receive_users T k message)

theorem length_conversations_receive {T : Sorter (Int × ℕ) Later} {k : ℕ} {message : Message} :
    (s.receive T k message).conversations.length = s.conversations.length := by
  rw [receive, fetchData_conversations, setLastMessage, List.length_modify]

theorem length_conversations_receiveAll {T : Sorter (Int × ℕ) Later} {k : ℕ}
    {messages : List Message} :
    (s.receiveAll T k messages).conversations.length = s.conversations.length := by
  rw [← List.length_map Conversation.user, receiveAll_users, List.length_map]

/-- After several messages the object has the last of them. -/
theorem conversations_receiveAll_concat {T : Sorter (Int × ℕ) Later} {k : ℕ}
    (messages : List Message) (message : Message) :
    (s.receiveAll T k (messages ++ [message])).conversations =
      s.conversations.modify k fun c => { c with lastMessage := message } := by
  induction messages generalizing s with
  | nil => rfl
  | cons first messages ih =>
    refine (ih (s := s.receive T k first)).trans ?_
    rw [receive, fetchData_conversations, setLastMessage, List.modify_modify_eq]
    rfl

end ConversationsVC

end MagicChat
