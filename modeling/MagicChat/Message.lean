import MagicChat.Database.Value

/-!
# Messages

A message on the screen (`Message`), the record of it in the database, and the
three translations between the two that the program spells out in different
places:

* `messageValues`: the record that `send` stores;
* `downloadedMessage`: what `downloadAllMessages` makes of one child of a
  conversation, for a chat;
* `listedMessages`: what `downloadLastMessage` makes of a whole conversation,
  for the list of conversations: it goes through the children in order, and
  gives up at the first one that is not of the expected shape.
-/

namespace MagicChat

inductive MessageType
  | photo
  | text
  | location
  deriving DecidableEq

/-- Whose message it is. The reader's own messages are the `receiver`'s. -/
inductive MessageOwner
  | sender
  | receiver
  deriving DecidableEq

/-- A picture, as far as the program asks: whether it has a JPEG representation. -/
structure UIImage where
  id : ℕ
  hasJPEG : Bool
  deriving DecidableEq

/-- The content of a message: a field of a record, or a picture yet to be uploaded. -/
inductive Content
  | field (f : Field)
  | image (i : UIImage)
  deriving DecidableEq

/-- A message. The picture downloaded for it later is kept apart, by the screen. -/
structure Message where
  type : MessageType
  content : Content
  owner : MessageOwner
  timestamp : Int
  isRead : Bool
  deriving DecidableEq

/-- The message a user composes: `timestamp` is the clock of the device, in
    whole seconds. -/
def composeMessage (type : MessageType) (content : Content) (timestamp : Int) : Message :=
  { type, content, owner := .sender, timestamp, isRead := false }

/-- `content as? String`. -/
def Content.asString : Content → Option String
  | .field f => f.asString
  | .image _ => none

/-- The tag of a message type in a record. -/
def MessageType.tag : MessageType → String
  | .photo => "photo"
  | .text => "text"
  | .location => "location"

/-- The message type of a tag; an unknown one is a text. -/
def MessageType.ofTag (tag : String) : MessageType :=
  if tag = "photo" then .photo else if tag = "location" then .location else .text

theorem MessageType.ofTag_tag (t : MessageType) : ofTag t.tag = t := by
  cases t <;> rfl

/-- The record of a message, as `send` writes it. -/
def messageValues (type : MessageType) (content : Field) (fromID toID : UserID)
    (timestamp : Int) : Fields :=
  [("type", .string type.tag), ("content", content), ("fromID", .string fromID),
    ("toID", .string toID), ("timestamp", .int timestamp), ("isRead", .bool false)]

/-- The owner of a message from `fromID`, for the reader `currentUserID`. -/
def MessageOwner.of (fromID currentUserID : UserID) : MessageOwner :=
  if fromID = currentUserID then .receiver else .sender

namespace Value

/-- The sender of a record, if it is a dictionary with a string `fromID`. -/
def fromID (v : Value) : Option UserID := (v.field "fromID").bind Field.asString

/-- The addressee of a record. -/
def toID (v : Value) : Option UserID := (v.field "toID").bind Field.asString

/-- The read flag of a record. -/
def isRead (v : Value) : Option Bool := (v.field "isRead").bind Field.asBool

end Value

/-- What `downloadAllMessages` delivers for a child of a conversation, if anything. -/
def downloadedMessage (currentUserID : UserID) (snap : Value) : Option Message := do
  let messageType ← (snap.field "type").bind Field.asString
  let content ← (snap.field "content").bind Field.asString
  let fromID ← snap.fromID
  let timestamp ← (snap.field "timestamp").bind Field.asInt
  some { type := .ofTag messageType, content := .field (.string content),
         owner := .of fromID currentUserID, timestamp, isRead := true }

/-- What `downloadLastMessage` makes of a child of a conversation, if it has the
    expected shape. -/
def listedMessage (currentUserID : UserID) (snap : Value) : Option Message := do
  let content ← snap.field "content"
  let timestamp ← (snap.field "timestamp").bind Field.asInt
  let messageType ← (snap.field "type").bind Field.asString
  let fromID ← snap.fromID
  let isRead ← snap.isRead
  some { type := .ofTag messageType, content := .field content,
         owner := .of fromID currentUserID, timestamp, isRead }

/-- The messages `downloadLastMessage` reports for a snapshot of a conversation,
    in order: those before the first child of another shape. -/
def listedMessages (currentUserID : UserID) : Keyed Key Value → List Message
  | [] => []
  | (_, snap) :: rest =>
    match listedMessage currentUserID snap with
    | some message => message :: listedMessages currentUserID rest
    -- The guard leaves the callback, not only this round of the loop.
    | none => []

/-! ## What the readers accept -/

theorem downloadedMessage_eq_some_iff {reader : UserID} {v : Value} {message : Message} :
    downloadedMessage reader v = some message ↔
      ∃ tag content fromID timestamp, (v.field "type").bind Field.asString = some tag ∧
        (v.field "content").bind Field.asString = some content ∧ v.fromID = some fromID ∧
        (v.field "timestamp").bind Field.asInt = some timestamp ∧
        message = { type := .ofTag tag, content := .field (.string content),
                    owner := .of fromID reader, timestamp, isRead := true } := by
  simp only [downloadedMessage, Option.bind_eq_bind]
  constructor
  · intro h
    obtain ⟨tag, htag, h⟩ := Option.bind_eq_some_iff.1 h
    obtain ⟨content, hcontent, h⟩ := Option.bind_eq_some_iff.1 h
    obtain ⟨fromID, hfrom, h⟩ := Option.bind_eq_some_iff.1 h
    obtain ⟨timestamp, htimestamp, h⟩ := Option.bind_eq_some_iff.1 h
    exact ⟨tag, content, fromID, timestamp, htag, hcontent, hfrom, htimestamp,
      (Option.some.inj h).symm⟩
  · rintro ⟨tag, content, fromID, timestamp, htag, hcontent, hfrom, htimestamp, rfl⟩
    simp only [htag, hcontent, hfrom, htimestamp, Option.bind_some]

theorem listedMessage_eq_some_iff {reader : UserID} {v : Value} {message : Message} :
    listedMessage reader v = some message ↔
      ∃ content timestamp tag fromID isRead, v.field "content" = some content ∧
        (v.field "timestamp").bind Field.asInt = some timestamp ∧
        (v.field "type").bind Field.asString = some tag ∧ v.fromID = some fromID ∧
        v.isRead = some isRead ∧
        message = { type := .ofTag tag, content := .field content, owner := .of fromID reader,
                    timestamp, isRead } := by
  simp only [listedMessage, Option.bind_eq_bind]
  constructor
  · intro h
    obtain ⟨content, hcontent, h⟩ := Option.bind_eq_some_iff.1 h
    obtain ⟨timestamp, htimestamp, h⟩ := Option.bind_eq_some_iff.1 h
    obtain ⟨tag, htag, h⟩ := Option.bind_eq_some_iff.1 h
    obtain ⟨fromID, hfrom, h⟩ := Option.bind_eq_some_iff.1 h
    obtain ⟨isRead, hread, h⟩ := Option.bind_eq_some_iff.1 h
    exact ⟨content, timestamp, tag, fromID, isRead, hcontent, htimestamp, htag, hfrom, hread,
      (Option.some.inj h).symm⟩
  · rintro ⟨content, timestamp, tag, fromID, isRead, hcontent, htimestamp, htag, hfrom, hread, rfl⟩
    simp only [hcontent, htimestamp, htag, hfrom, hread, Option.bind_some]

/-- Where every record has the expected shape, all are reported. -/
theorem listedMessages_of_forall {u : UserID} {content : Keyed Key Value}
    (h : ∀ e ∈ content, (listedMessage u e.2).isSome) :
    listedMessages u content = content.filterMap fun e => listedMessage u e.2 := by
  induction content with
  | nil => rfl
  | cons e content ih =>
    obtain ⟨key, v⟩ := e
    obtain ⟨message, hmessage⟩ : ∃ message, listedMessage u v = some message :=
      Option.isSome_iff_exists.1 (h (key, v) List.mem_cons_self)
    have hrest := ih fun e he => h e (List.mem_cons_of_mem _ he)
    simp only [listedMessages, List.filterMap_cons, hmessage, hrest]

/-- The messages reported are those of the records before the first one given up at. -/
theorem listedMessages_eq (u : UserID) (content : Keyed Key Value) :
    listedMessages u content =
      ((content.map Prod.snd).takeWhile fun v => (listedMessage u v).isSome).filterMap
        (listedMessage u) := by
  induction content with
  | nil => rfl
  | cons e content ih =>
    obtain ⟨key, v⟩ := e
    rw [listedMessages, List.map_cons]
    cases hv : listedMessage u v with
    | none => rw [List.takeWhile_cons_of_neg (by simp [hv]), List.filterMap_nil]
    | some m =>
      rw [List.takeWhile_cons_of_pos (by simp [hv]), List.filterMap_cons_some hv, ← ih]

/-! ## The read flag -/

@[simp] theorem fromID_setRead (v : Value) :
    (v.setField "isRead" (.bool true)).fromID = v.fromID := by
  simp [Value.fromID, Value.field_setField]

@[simp] theorem toID_setRead (v : Value) :
    (v.setField "isRead" (.bool true)).toID = v.toID := by
  simp [Value.toID, Value.field_setField]

@[simp] theorem isRead_setRead (v : Value) :
    (v.setField "isRead" (.bool true)).isRead = some true := by
  simp [Value.isRead, Value.field_setField, Field.asBool]

/-- A chat does not look at the read flag. -/
@[simp] theorem downloadedMessage_setRead (currentUserID : UserID) (v : Value) :
    downloadedMessage currentUserID (v.setField "isRead" (.bool true)) =
      downloadedMessage currentUserID v := by
  simp [downloadedMessage, Value.field_setField]

/-- The records `v` and `v'` agree but for the read flag. -/
def SameRecord (v v' : Value) : Prop := ∀ name, name ≠ "isRead" → v'.field name = v.field name

theorem SameRecord.refl (v : Value) : SameRecord v v := fun _ _ => rfl

theorem SameRecord.setRead {v v' : Value} (h : SameRecord v v') :
    SameRecord v (v'.setField "isRead" (.bool true)) := fun name hn => by
  rw [Value.field_setField, if_neg hn, h name hn]

theorem SameRecord.fromID {v v' : Value} (h : SameRecord v v') : v'.fromID = v.fromID := by
  rw [Value.fromID, Value.fromID, h "fromID" (by decide)]

/-! ## The record of a message -/

/-- A stored message with a string content is delivered to a chat. -/
theorem downloadedMessage_messageValues (currentUserID : UserID) (type : MessageType) (s : String)
    (fromID toID : UserID) (timestamp : Int) :
    downloadedMessage currentUserID
        (.dictionary (messageValues type (.string s) fromID toID timestamp)) =
      some { type, content := .field (.string s), owner := .of fromID currentUserID,
             timestamp, isRead := true } := by
  change some (Message.mk (MessageType.ofTag type.tag) _ _ _ _) = _
  rw [MessageType.ofTag_tag]

end MagicChat
