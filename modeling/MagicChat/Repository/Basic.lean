import MagicChat.Database.Basic
import MagicChat.Library.Machine
import MagicChat.Message

/-!
# The message repository

`MessageRemoteRepository` as a machine: any number of devices call `send`,
`uploadMessage` and `markMessagesRead` on one shared database, while their
users log in and out.

A call is a chain of callbacks. Between two of them it waits for a remote
service, and the machine holds what the next callback has captured (`Call`): in
particular the user that was signed in when the call captured it, which need
not be the one signed in when the callback fires. The services answer in any
order, at any later time, or never:

* `putData` and `downloadURL` answer for the storage of pictures;
* a snapshot is taken from the database at the moment it is answered;
* a write is applied to the database, as a whole, or fails.

`childByAutoId` draws a key never drawn before (`Repository.issued`), which can be
part of a path. A location read off a pointer need not be: then `child` throws,
and the call is never heard of again. A client that stops for good drops its calls,
whatever they wait for (`Action.stop`).
-/

namespace MagicChat

/-- What a call to `uploadMessage` has captured. -/
structure Upload where
  currentUserID : UserID
  toID : UserID
  values : Fields
  deriving DecidableEq

/-- A call into the repository, by what it waits for. -/
inductive Call
  /-- `send` of a photo: the picture is being stored. -/
  | putData (device : Device) (fromID toID : UserID) (timestamp : Int)
  /-- `send` of a photo: the link to the picture is being fetched. -/
  | downloadURL (device : Device) (fromID toID : UserID) (timestamp : Int)
  /-- `uploadMessage`: the pointer of the sender is being read. -/
  | readPointer (upload : Upload)
  /-- `uploadMessage`, where the pointer holds a location: the record is being written. -/
  | append (upload : Upload) (ref : Reference)
  /-- `uploadMessage`, without a pointer: the first record of a new location is
      being written. -/
  | create (upload : Upload) (ref : Reference)
  /-- `uploadMessage`, after `create`: the pointer of the sender is being written. -/
  | pointOwn (upload : Upload) (ref : Reference)
  /-- `uploadMessage`, after `create`: the pointer of the addressee is being written. -/
  | pointPeer (upload : Upload) (ref : Reference)
  /-- `markMessagesRead`: the pointer of the reader is being read. -/
  | markPointer (currentUserID forUserID : UserID)
  /-- `markMessagesRead`: the conversation is being read. -/
  | markSnapshot (currentUserID : UserID) (location : Key)
  /-- `markMessagesRead`: the read flags of the messages `keys` are being written. -/
  | markWrites (currentUserID : UserID) (location : Key) (keys : List Key)
  /-- The call has returned, or will never be heard of again. -/
  | finished
  deriving DecidableEq

/-- A call to the `completion` of an upload. The reference is that of the write. -/
structure Completion where
  upload : Upload
  ref : Reference
  status : Bool
  deriving DecidableEq

/-- An answer of a remote service to a call. -/
inductive Response
  | putData (ok : Bool)
  | downloadURL (path : Option String)
  /-- A snapshot of the node being read, with the keys that `childByAutoId`
      draws in the callback. -/
  | snapshot (autoID : Reference)
  | write (ok : Bool)
  deriving DecidableEq

/-! ## Calls -/

/-- `uploadMessage(withValues:toID:)`, up to its first remote step. -/
def uploadMessage (currentUser : Option UserID) (values : Fields) (toID : UserID) : Call :=
  match currentUser with
  | some currentUserID => .readPointer { currentUserID, toID, values }
  | none => .finished

/-- `send(message:toID:)`, up to its first remote step. A text or a location
    whose content is a picture cannot be written to the database. -/
def send (device : Device) (currentUser : Option UserID) (message : Message) (toID : UserID) :
    Call :=
  match currentUser with
  | none => .finished
  | some currentUserID =>
    match message.type, message.content with
    | .photo, .image image =>
      if image.hasJPEG then .putData device currentUserID toID message.timestamp else .finished
    | .photo, .field _ => .finished
    | type, .field content =>
      uploadMessage currentUser
        (messageValues type content currentUserID toID message.timestamp) toID
    | _, .image _ => .finished

/-- `markMessagesRead(forUserID:)`, up to its first remote step. -/
def markMessagesRead (currentUser : Option UserID) (forUserID : UserID) : Call :=
  match currentUser with
  | some currentUserID => .markPointer currentUserID forUserID
  | none => .finished

/-- The messages of a snapshot whose read flags `markMessagesRead` writes: those
    of another user, up to the first child without a sender. -/
def keysToMark (currentUserID : UserID) : Keyed Key Value → List Key
  | [] => []
  | (key, snap) :: rest =>
    match snap.fromID with
    | some fromID =>
      if fromID ≠ currentUserID then key :: keysToMark currentUserID rest
      else keysToMark currentUserID rest
    -- The guard leaves the callback, not only this round of the loop.
    | none => []

/-! ## Callbacks -/

/-- The write a call waits for. -/
def Call.write? : Call → Option Write
  | .append upload ref => some (.setMessage ref upload.values)
  | .create upload ref => some (.setMessage ref upload.values)
  | .pointOwn upload ref => some (.updatePointer upload.currentUserID upload.toID ref.location)
  | .pointPeer upload ref => some (.updatePointer upload.toID upload.currentUserID ref.location)
  | .markWrites _ location (key :: _) => some (.setRead ⟨location, key⟩)
  | _ => none

/-- What a callback does, besides the write it was waiting for. -/
structure Outcome where
  /-- What the call waits for next. -/
  next : Call
  /-- The auto ids it draws. -/
  issued : List Key := []
  /-- The completion it calls. -/
  completion : Option Completion := none

/-- The callback of a call, fired with a response. -/
def Call.resume (db : Database) (currentUser : Device → Option UserID) :
    Call → Response → Option Outcome
  | .putData device fromID toID timestamp, .putData ok =>
    some { next := if ok then .downloadURL device fromID toID timestamp else .finished }
  | .downloadURL device fromID toID timestamp, .downloadURL path =>
    match path with
    -- `uploadMessage` asks again who is signed in.
    | some path =>
      let values := messageValues .photo (.string path) fromID toID timestamp
      some { next := uploadMessage (currentUser device) values toID }
    | none => some { next := .finished }
  | .readPointer upload, .snapshot autoID =>
    match db.pointer upload.currentUserID upload.toID with
    | some node =>
      match node.location with
      | some location =>
        -- `child(location)` throws on what is no path.
        if isValidPathString location then
          some { next := .append upload ⟨location, autoID.key⟩, issued := [autoID.key] }
        else some { next := .finished }
      | none => some { next := .finished }
    -- The node does not exist: both auto ids are drawn here, not read.
    | none =>
      some { next := .create upload autoID, issued := [autoID.location, autoID.key] }
  | .append upload ref, .write ok =>
    some { next := .finished, completion := some { upload, ref, status := ok } }
  -- The error of this write is ignored. The completion is called when the
  -- pointer writes have been issued, whatever becomes of them.
  | .create upload ref, .write _ =>
    some { next := .pointOwn upload ref, completion := some { upload, ref, status := true } }
  | .pointOwn upload ref, .write _ => some { next := .pointPeer upload ref }
  | .pointPeer _ _, .write _ => some { next := .finished }
  | .markPointer currentUserID forUserID, .snapshot _ =>
    match (db.pointer currentUserID forUserID).bind Value.location with
    | some location => some { next := .markSnapshot currentUserID location }
    | none => some { next := .finished }
  | .markSnapshot currentUserID location, .snapshot _ =>
    let keys := keysToMark currentUserID (db.conversations location)
    some { next := .markWrites currentUserID location keys }
  -- The flags are written without a completion block, so an error goes unnoticed.
  | .markWrites currentUserID location (_ :: keys), .write _ =>
    some { next := .markWrites currentUserID location keys }
  | _, _ => none

/-! ## The machine -/

/-- The state of the repository: the database, and what the devices hold. -/
structure Repository where
  db : Database
  /-- `Auth.auth().currentUser?.uid`, on each device. -/
  currentUser : Device → Option UserID
  /-- The calls started so far. -/
  calls : List Call
  /-- The auto ids drawn so far. -/
  issued : List Key
  /-- The completions called so far. -/
  completions : List Completion

namespace Repository

/-- The actions of the devices and of the remote services. -/
inductive Action
  | loginUser (device : Device) (user : UserID)
  | logOutUser (device : Device)
  | send (device : Device) (message : Message) (toID : UserID)
  | uploadMessage (device : Device) (values : Fields) (toID : UserID)
  | markMessagesRead (device : Device) (forUserID : UserID)
  /-- A service answers a call, whose callback fires. -/
  | resume (call : ℕ) (response : Response)
  /-- The client drops a call. -/
  | stop (call : ℕ)
  deriving DecidableEq

/-- The repository with one more call. -/
def start (s : Repository) (call : Call) : Repository := { s with calls := s.calls ++ [call] }

/-- The database after a response to a call. -/
def written (db : Database) (call : Call) : Response → Database
  | .write true => call.write?.elim db db.after
  | _ => db

/-- The repository after a response to its call `i`, given what the callback does. -/
def fire (s : Repository) (i : ℕ) (call : Call) (response : Response) (o : Outcome) :
    Repository where
  db := written s.db call response
  currentUser := s.currentUser
  calls := s.calls.set i o.next
  issued := o.issued ++ s.issued
  completions := s.completions ++ o.completion.toList

/-- One step of the repository. -/
def step (s : Repository) : Action → Option Repository
  | .loginUser device user =>
    some { s with currentUser := Function.update s.currentUser device (some user) }
  | .logOutUser device =>
    some { s with currentUser := Function.update s.currentUser device none }
  | .send device message toID =>
    some (s.start (MagicChat.send device (s.currentUser device) message toID))
  | .uploadMessage device values toID =>
    some (s.start (MagicChat.uploadMessage (s.currentUser device) values toID))
  | .markMessagesRead device forUserID =>
    some (s.start (MagicChat.markMessagesRead (s.currentUser device) forUserID))
  | .resume i response => do
    let call ← s.calls[i]?
    let o ← call.resume s.db s.currentUser response
    -- Auto ids are fresh, and valid.
    if o.issued.Nodup ∧ ∀ key ∈ o.issued, key ∉ s.issued ∧ isValidPathString key then
      some (s.fire i call response o)
    else none
  | .stop i => if i < s.calls.length then some { s with calls := s.calls.set i .finished } else none

/-- The repository machine: it starts from an empty database, with nobody signed in. -/
def machine : Machine Repository Action where
  init :=
    { db := .empty, currentUser := fun _ => none, calls := [], issued := [], completions := [] }
  step := step

/-- A run: `u` sends `v` a first message, under the key `"k"` of the location `"L"`. -/
def firstMessage : List Action :=
  [.loginUser 0 "u", .loginUser 1 "v",
    .send 0 (composeMessage .text (.field (.string "hi")) 1) "v",
    .resume 0 (.snapshot ⟨"L", "k"⟩), .resume 0 (.write true), .resume 0 (.write true),
    .resume 0 (.write true)]

/-- The run goes on: `v` answers. -/
def firstAnswer : List Action :=
  firstMessage ++ [.send 1 (composeMessage .text (.field (.string "hello")) 2) "u",
    .resume 1 (.snapshot ⟨"", "l"⟩), .resume 1 (.write true)]

end Repository

end MagicChat
