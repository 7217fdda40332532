import MagicChat.Library.Keyed
import Mathlib.Data.Set.Finite.Lemmas
import Mathlib.Data.Set.Finite.Range

/-!
# The values of the database

What a node of the realtime database can hold, as the program reads it off a
snapshot: a dictionary of fields, or a single field. A field is a boolean, an
integer, a string, or something else (a fractional number, a list, a nested
dictionary) that none of the casts of the program accepts.

The casts are those of Swift, on values that come out of the database as
Objective-C objects: a boolean and an integer are the same kind of number, so
that `as? Int` accepts a boolean and `as? Bool` accepts `0` and `1`.
-/

namespace MagicChat

/-- A device running the program. -/
abbrev Device := ℕ

/-- The identifier of a user, the `uid` of the authentication service. -/
abbrev UserID := String

/-- The key of a child: an auto id, or the identifier of a user. -/
abbrev Key := String

/-- The characters that no path contains. -/
def kInvalidPathCharacters : List Char := ['[', ']', '.', '#', '$']

/-- `child` throws where its argument is not of this form. -/
def isValidPathString (pathString : String) : Bool :=
  !pathString.toList.isEmpty && pathString.toList.all fun c => !kInvalidPathCharacters.contains c

/-- There is always a key left. -/
theorem exists_key (keys : List Key) : ∃ key, isValidPathString key ∧ key ∉ keys := by
  have hinjective : Function.Injective fun n => String.ofList (List.replicate (n + 1) 'k') := by
    intro m n h
    have hlength := congrArg List.length (String.ofList_injective h)
    simpa using hlength
  obtain ⟨_, ⟨n, rfl⟩, hn⟩ :=
    (Set.infinite_range_of_injective hinjective).exists_notMem_finset keys.toFinset
  refine ⟨_, ?_, fun h => hn (List.mem_toFinset.2 h)⟩
  simp [isValidPathString, kInvalidPathCharacters]

/-- A field of a dictionary. -/
inductive Field
  | bool (b : Bool)
  | int (n : Int)
  | string (s : String)
  /-- Anything that no cast of the program accepts. -/
  | other
  deriving DecidableEq

/-- `as? String`. -/
def Field.asString : Field → Option String
  | .string s => some s
  | _ => none

/-- `as? Int`. -/
def Field.asInt : Field → Option Int
  | .int n => some n
  | .bool b => some (if b then 1 else 0)
  | _ => none

/-- `as? Bool`. -/
def Field.asBool : Field → Option Bool
  | .bool b => some b
  | .int n => if n = 1 then some true else if n = 0 then some false else none
  | _ => none

/-- The fields of a dictionary, `[String: Any]`. -/
abbrev Fields := Keyed String Field

/-- The value of a node. -/
inductive Value
  | leaf (f : Field)
  | dictionary (fields : Fields)
  deriving DecidableEq

namespace Value

/-- `as? [String: Any]`. -/
def asFields : Value → Option Fields
  | .leaf _ => none
  | .dictionary fields => some fields

/-- `as? [String: String]`: every field must be a string. -/
def asStrings (v : Value) : Option (Keyed String String) := do
  let fields ← v.asFields
  fields.mapM fun e => e.2.asString.map fun s => (e.1, s)

/-- The field `name` of the value, if it is a dictionary that has one. -/
def field (v : Value) (name : String) : Option Field := do
  let fields ← v.asFields
  fields.lookup name

/-- `setValue` at the child `name` of the value: a node that is not a
    dictionary becomes one. -/
def setField (v : Value) (name : String) (f : Field) : Value :=
  .dictionary (Keyed.set (v.asFields.getD []) name f)

/-- `updateChildValues`: the fields in `data` are written, the others stay. -/
def updateChildValues (v : Option Value) (data : Fields) : Value :=
  .dictionary (Keyed.setAll ((v.bind asFields).getD []) data)

/-- The location a pointer node holds: `as? [String: String]`, then its
    `"location"`. -/
def location (v : Value) : Option Key := do
  let data ← v.asStrings
  data.lookup "location"

/-- The pointer node `{location: L}`. -/
def pointer (location : Key) : Value := .dictionary [("location", .string location)]

/-! ## Reading and writing -/

@[simp] theorem field_dictionary (fields : Fields) (name : String) :
    (dictionary fields).field name = fields.lookup name := rfl

theorem field_setField (v : Value) (name name' : String) (f : Field) :
    (v.setField name f).field name' = if name' = name then some f else v.field name' := by
  rw [setField, field_dictionary, Keyed.lookup_set]
  cases v <;> rfl

/-- Setting a field again changes nothing. -/
@[simp] theorem setField_setField (v : Value) (name : String) (f : Field) :
    (v.setField name f).setField name f = v.setField name f :=
  congrArg dictionary (Keyed.set_set ..)

@[simp] theorem location_pointer (L : Key) : (pointer L).location = some L := rfl

/-- A missing node is created by an update. -/
@[simp] theorem updateChildValues_none (L : Key) :
    updateChildValues none [("location", .string L)] = pointer L := rfl

end Value

end MagicChat
