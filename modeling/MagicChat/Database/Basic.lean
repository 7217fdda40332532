import MagicChat.Database.Value

/-!
# The shared database

The part of the realtime database that the program shares between its users:

* `users/x/conversations`, whose child `y` points to the location of the
  conversation of `x` with `y`;
* `conversations/L`, whose children are the message records of the
  conversation at the location `L`. A location without records does not exist.

The children of a node are kept in the order of their creation: auto ids grow
with time, so it is also the order of the keys, in which snapshots list them.

All the writes of the program are of three kinds (`Write`): a message record,
an update of a pointer, and the read flag of a message. Each is applied
atomically (`Database.after`).
-/

namespace MagicChat

/-- A reference to `conversations/location/key`. -/
structure Reference where
  location : Key
  key : Key
  deriving DecidableEq

/-- The shared database. -/
structure Database where
  /-- `users/x/conversations`: the pointers of `x`, by peer. -/
  users : UserID → Keyed UserID Value
  /-- `conversations/L`: the message records at `L`, by key. -/
  conversations : Key → Keyed Key Value
  nodup_users : ∀ x, Keyed.NodupKeys (users x)
  nodup_conversations : ∀ L, Keyed.NodupKeys (conversations L)

/-- A write to the database. -/
inductive Write
  /-- `conversations/location/key` := values. -/
  | setMessage (ref : Reference) (values : Fields)
  /-- `users/owner/conversations/peer/location` := location. -/
  | updatePointer (owner peer : UserID) (location : Key)
  /-- `conversations/location/key/isRead` := true. -/
  | setRead (ref : Reference)
  deriving DecidableEq

namespace Database

/-- The empty database. -/
def empty : Database where
  users _ := []
  conversations _ := []
  nodup_users _ := Keyed.nodupKeys_nil
  nodup_conversations _ := Keyed.nodupKeys_nil

variable (db : Database)

/-- The node `users/x/conversations/y`. -/
def pointer (x y : UserID) : Option Value := (db.users x).lookup y

/-- The location at `users/x/conversations/y`. -/
def location (x y : UserID) : Option Key := (db.pointer x y).bind Value.location

/-- The node `conversations/location/key`. -/
def message (ref : Reference) : Option Value := (db.conversations ref.location).lookup ref.key

/-- Write the node `users/owner/conversations/peer`. -/
def setPointer (owner peer : UserID) (v : Value) : Database where
  users := Function.update db.users owner (Keyed.set (db.users owner) peer v)
  conversations := db.conversations
  nodup_users x := by
    by_cases h : x = owner
    · rw [h, Function.update_self]
      exact (db.nodup_users owner).set peer v
    · rw [Function.update_of_ne h]
      exact db.nodup_users x
  nodup_conversations := db.nodup_conversations

/-- Write the node `conversations/location/key`. -/
def setRecord (ref : Reference) (v : Value) : Database where
  users := db.users
  conversations := Function.update db.conversations ref.location
    (Keyed.set (db.conversations ref.location) ref.key v)
  nodup_users := db.nodup_users
  nodup_conversations L := by
    by_cases h : L = ref.location
    · rw [h, Function.update_self]
      exact (db.nodup_conversations ref.location).set ref.key v
    · rw [Function.update_of_ne h]
      exact db.nodup_conversations L

/-- The database after a write. -/
def after : Write → Database
  | .setMessage ref values => db.setRecord ref (.dictionary values)
  | .updatePointer owner peer location =>
    db.setPointer owner peer
      (Value.updateChildValues (db.pointer owner peer) [("location", .string location)])
  | .setRead ref =>
    db.setRecord ref (((db.message ref).getD (.dictionary [])).setField "isRead" (.bool true))

/-! ## What a write changes -/

variable {db}

theorem message_setRecord (ref ref' : Reference) (v : Value) :
    (db.setRecord ref v).message ref' = if ref' = ref then some v else db.message ref' := by
  obtain ⟨L, k⟩ := ref
  obtain ⟨L', k'⟩ := ref'
  by_cases hL : L' = L
  · subst hL
    simp [setRecord, message, Keyed.lookup_set]
  · simp [setRecord, message, hL]

theorem pointer_setPointer (x y x' y' : UserID) (v : Value) :
    (db.setPointer x y v).pointer x' y' = if x' = x ∧ y' = y then some v else db.pointer x' y' := by
  by_cases hx : x' = x
  · subst hx
    simp [setPointer, pointer, Keyed.lookup_set]
  · simp [setPointer, pointer, hx]

theorem message_setMessage (ref ref' : Reference) (values : Fields) :
    (db.after (.setMessage ref values)).message ref' =
      if ref' = ref then some (.dictionary values) else db.message ref' :=
  message_setRecord ..

theorem message_setRead (ref ref' : Reference) :
    (db.after (.setRead ref)).message ref' =
      if ref' = ref then
        some (((db.message ref).getD (.dictionary [])).setField "isRead" (.bool true))
      else db.message ref' :=
  message_setRecord ..

theorem pointer_updatePointer (x y x' y' : UserID) (L : Key) :
    (db.after (.updatePointer x y L)).pointer x' y' =
      if x' = x ∧ y' = y then
        some (Value.updateChildValues (db.pointer x y) [("location", .string L)])
      else db.pointer x' y' :=
  pointer_setPointer ..

/-! ## Pointers that hold a location and nothing else -/

/-- Every pointer node is of the form `{location: L}`. -/
def PointersWellFormed (db : Database) : Prop :=
  ∀ x y v, db.pointer x y = some v → ∃ L, v = Value.pointer L

theorem pointersWellFormed_empty : PointersWellFormed empty := fun _ _ _ h => by
  simp [pointer, empty] at h

namespace PointersWellFormed

theorem update_eq (h : db.PointersWellFormed) (x y : UserID) (L : Key) :
    Value.updateChildValues (db.pointer x y) [("location", .string L)] = Value.pointer L := by
  cases hv : db.pointer x y with
  | none => rfl
  | some v =>
    obtain ⟨L', rfl⟩ := h x y v hv
    rfl

theorem after (h : db.PointersWellFormed) (w : Write) : (db.after w).PointersWellFormed := by
  cases w with
  | setMessage ref values => exact h
  | setRead ref => exact h
  | updatePointer x y L =>
    intro x' y' v hv
    rw [pointer_updatePointer, h.update_eq] at hv
    split_ifs at hv
    · exact ⟨L, (Option.some.inj hv).symm⟩
    · exact h x' y' v hv

/-- Among well-formed pointers, a node without a location is missing. -/
theorem location_eq_none_iff (h : db.PointersWellFormed) {x y : UserID} :
    db.location x y = none ↔ db.pointer x y = none := by
  rw [location]
  cases hv : db.pointer x y with
  | none => simp
  | some v =>
    obtain ⟨L, rfl⟩ := h x y v hv
    simp

theorem location_updatePointer (h : db.PointersWellFormed) (x y x' y' : UserID) (L : Key) :
    (db.after (.updatePointer x y L)).location x' y' =
      if x' = x ∧ y' = y then some L else db.location x' y' := by
  rw [location, pointer_updatePointer, h.update_eq]
  split_ifs with hxy
  · rfl
  · rfl

end PointersWellFormed

end Database

end MagicChat
