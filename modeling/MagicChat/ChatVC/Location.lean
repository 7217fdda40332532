import Mathlib.Data.Nat.Notation
import MagicChat.ChatVC.Basic
import MagicChat.Library.Text

/-!
# Locations

A location is sent as a text: its latitude and its longitude, with a colon
between them. A selected location message has its content taken apart at the
colons, and the first two pieces read as coordinates; the text can be any string
of the database.

That there are two pieces is not checked. A text that is a coordinate has only
one, and reading the second is out of range; of a text with more pieces, the
first two are opened and the others ignored. All other texts are read as they
should be (`exact_decodeLocation_iff`), and what is sent is read back
(`decodeLocation_coordinate`).

How coordinates are printed and parsed is a parameter.
-/

namespace MagicChat

namespace ChatVC

variable {D : Type*} {parse : String → Option D} {print : D → String} {text : String}

/-- What the selection of a row of a chat does. -/
inductive Selection (D : Type*)
  | nothing
  /-- The segue `showPreview`, with the picture. -/
  | showPreview (photo : UIImage)
  /-- The segue `showLocation`, with the coordinates. -/
  | showLocation (latitude longitude : D)
  /-- An array is read out of its range. -/
  | outOfRange
  deriving DecidableEq

/-- The selection of a location message with this content. -/
def decodeLocation (parse : String → Option D) (text : String) : Selection D :=
  let coordinates := Text.components ':' text
  match coordinates[0]? with
  | none => .outOfRange
  | some first =>
    match parse first with
    | none => .nothing
    | some latitude =>
      match coordinates[1]? with
      -- The second piece is read only where the first one is a number.
      | none => .outOfRange
      | some second =>
        match parse second with
        | none => .nothing
        | some longitude => .showLocation latitude longitude

/-- `tableView(_:didSelectRowAt:)`. -/
def didSelectRow (s : ChatVC) (parse : String → Option D) (row : ℕ) : Selection D :=
  match s.items[row]? with
  | none => .outOfRange
  | some item =>
    match item.message.type with
    | .photo =>
      match s.image item.id with
      | some photo => .showPreview photo
      | none => .nothing
    | .location =>
      match item.message.content.asString with
      | some text => decodeLocation parse text
      | none => .nothing
    | .text => .nothing

/-- The content of the message of `sendMessage(location:)`. -/
def coordinate (print : D → String) (latitude longitude : D) : String :=
  print latitude ++ ":" ++ print longitude

/-- The message of `sendMessage(location:)`. -/
def locationMessage (print : D → String) (latitude longitude : D) (timestamp : Int) : Message :=
  composeMessage .location (.field (.string (coordinate print latitude longitude))) timestamp

/-- The row holds a location message with this content. -/
def ShowsLocation (s : ChatVC) (row : ℕ) (text : String) : Prop :=
  ∃ item, s.items[row]? = some item ∧ item.message.type = .location ∧
    item.message.content = .field (.string text)

/-- The text is two coordinates with the only colon between them. -/
def IsLocation (parse : String → Option D) (text : String) (latitude longitude : D) : Prop :=
  ∃ a b, text = a ++ ":" ++ b ∧ ':' ∉ a.toList ∧ ':' ∉ b.toList ∧
    parse a = some latitude ∧ parse b = some longitude

/-- A selection that shows the location that the text is, and only this one. -/
structure Exact (parse : String → Option D) (text : String) (selection : Selection D) : Prop where
  inRange : selection ≠ .outOfRange
  shows (latitude longitude : D) :
    selection = .showLocation latitude longitude ↔ IsLocation parse text latitude longitude

/-- The text is no coordinate, and does not start with two of them, each with a
    colon after it. -/
structure Unambiguous (parse : String → Option D) (text : String) : Prop where
  single : ':' ∉ text.toList → parse text = none
  several (a b rest : String) : text = a ++ ":" ++ b ++ ":" ++ rest →
    ':' ∉ a.toList → ':' ∉ b.toList → parse a = none ∨ parse b = none

/-! ## The pieces of a text -/

theorem singleton_colon : String.singleton ':' = ":" := by decide

section pieces

variable {a b : String} (ha : ':' ∉ a.toList) (hb : ':' ∉ b.toList) (rest : String)

include ha in
theorem components_colon : Text.components ':' (a ++ ":" ++ rest) = a :: Text.components ':' rest :=
  singleton_colon ▸ Text.components_append ha rest

include ha hb in
theorem components_pair : Text.components ':' (a ++ ":" ++ b) = [a, b] := by
  rw [components_colon ha, Text.components_of_not_mem hb]

include ha hb in
theorem components_several :
    Text.components ':' (a ++ ":" ++ b ++ ":" ++ rest) = a :: b :: Text.components ':' rest := by
  have hassoc : a ++ ":" ++ b ++ ":" ++ rest = a ++ ":" ++ (b ++ ":" ++ rest) := by
    simp only [String.append_assoc]
  rw [hassoc, components_colon ha, components_colon hb]

end pieces

theorem components_ne_nil (text : String) : Text.components ':' text ≠ [] := by
  simp [Text.components]

/-- A text has no colon, one, or more. -/
theorem colon_cases (text : String) :
    ':' ∉ text.toList ∨ (∃ a b, text = a ++ ":" ++ b ∧ ':' ∉ a.toList ∧ ':' ∉ b.toList) ∨
      ∃ a b rest, text = a ++ ":" ++ b ++ ":" ++ rest ∧ ':' ∉ a.toList ∧ ':' ∉ b.toList := by
  rcases Text.components_cases ':' text with h | ⟨a, rest, rfl, ha⟩
  · exact .inl h
  · rw [singleton_colon]
    rcases Text.components_cases ':' rest with hrest | ⟨b, rest, rfl, hb⟩
    · exact .inr (.inl ⟨a, rest, rfl, ha, hrest⟩)
    · refine .inr (.inr ⟨a, b, rest, ?_, ha, hb⟩)
      rw [singleton_colon]
      simp only [String.append_assoc]

/-- A location has two pieces. -/
theorem IsLocation.components {latitude longitude : D}
    (h : IsLocation parse text latitude longitude) :
    ∃ a b, Text.components ':' text = [a, b] ∧ parse a = some latitude ∧
      parse b = some longitude := by
  obtain ⟨a, b, rfl, ha, hb, hlatitude, hlongitude⟩ := h
  exact ⟨a, b, components_pair ha hb, hlatitude, hlongitude⟩

/-! ## Reading a text -/

/-- Of several pieces, the first two are read. -/
theorem decodeLocation_eq_of_components {a b : String} {rest : List String}
    (h : Text.components ':' text = a :: b :: rest) :
    decodeLocation parse text =
      match parse a, parse b with
      | some latitude, some longitude => .showLocation latitude longitude
      | _, _ => .nothing := by
  simp only [decodeLocation, h, List.getElem?_cons_zero, List.getElem?_cons_succ]
  cases parse a <;> cases parse b <;> rfl

theorem decodeLocation_eq_showLocation_iff {a b : String} {rest : List String}
    (h : Text.components ':' text = a :: b :: rest) {latitude longitude : D} :
    decodeLocation parse text = .showLocation latitude longitude ↔
      parse a = some latitude ∧ parse b = some longitude := by
  rw [decodeLocation_eq_of_components h]
  cases parse a <;> cases parse b <;> simp

theorem decodeLocation_ne_outOfRange {a b : String} {rest : List String}
    (h : Text.components ':' text = a :: b :: rest) :
    decodeLocation parse text ≠ .outOfRange := by
  rw [decodeLocation_eq_of_components h]
  cases parse a <;> cases parse b <;> simp

/-- Of a text without a colon, the second piece is read if it is a coordinate. -/
theorem exact_single_iff (h : ':' ∉ text.toList) :
    Exact parse text (decodeLocation parse text) ↔ parse text = none := by
  have hpieces : Text.components ':' text = [text] := Text.components_of_not_mem h
  have hno (latitude longitude : D) : ¬IsLocation parse text latitude longitude := by
    intro hlocation
    obtain ⟨a, b, htext, _⟩ := hlocation.components
    rw [hpieces] at htext
    simp at htext
  cases hp : parse text with
  | none =>
    have hdecode : decodeLocation parse text = .nothing := by
      simp [decodeLocation, hpieces, hp]
    refine iff_of_true ⟨by simp [hdecode], fun latitude longitude => ?_⟩ rfl
    simp [hdecode, hno latitude longitude]
  | some latitude =>
    have hdecode : decodeLocation parse text = .outOfRange := by
      simp [decodeLocation, hpieces, hp]
    exact iff_of_false (fun hexact => hexact.inRange hdecode) nofun

theorem exact_pair {a b : String} (ha : ':' ∉ a.toList) (hb : ':' ∉ b.toList) :
    Exact parse (a ++ ":" ++ b) (decodeLocation parse (a ++ ":" ++ b)) := by
  have hpieces := components_pair ha hb
  refine ⟨decodeLocation_ne_outOfRange hpieces, fun latitude longitude => ?_⟩
  rw [decodeLocation_eq_showLocation_iff hpieces]
  constructor
  · rintro ⟨hlatitude, hlongitude⟩
    exact ⟨a, b, rfl, ha, hb, hlatitude, hlongitude⟩
  · intro hlocation
    obtain ⟨a', b', htext, hlatitude, hlongitude⟩ := hlocation.components
    rw [hpieces] at htext
    obtain ⟨rfl, rfl⟩ : a = a' ∧ b = b' := by simpa using htext
    exact ⟨hlatitude, hlongitude⟩

/-- Of a text with more than one colon, the first two pieces may be read as a location. -/
theorem exact_several_iff {a b : String} (ha : ':' ∉ a.toList) (hb : ':' ∉ b.toList)
    (rest : String) :
    Exact parse (a ++ ":" ++ b ++ ":" ++ rest)
        (decodeLocation parse (a ++ ":" ++ b ++ ":" ++ rest)) ↔
      parse a = none ∨ parse b = none := by
  have hpieces := components_several ha hb rest
  -- There is a piece too many for a location.
  have hno (latitude longitude : D) :
      ¬IsLocation parse (a ++ ":" ++ b ++ ":" ++ rest) latitude longitude := by
    intro hlocation
    obtain ⟨a', b', htext, _⟩ := hlocation.components
    rw [hpieces] at htext
    simp only [List.cons.injEq] at htext
    exact components_ne_nil rest htext.2.2
  constructor
  · intro hexact
    by_contra hcontra
    obtain ⟨hfirst, hsecond⟩ := not_or.1 hcontra
    obtain ⟨latitude, hlatitude⟩ := Option.ne_none_iff_exists'.1 hfirst
    obtain ⟨longitude, hlongitude⟩ := Option.ne_none_iff_exists'.1 hsecond
    have hshown := (decodeLocation_eq_showLocation_iff hpieces).2 ⟨hlatitude, hlongitude⟩
    exact hno latitude longitude ((hexact.shows latitude longitude).1 hshown)
  · intro hnone
    refine ⟨decodeLocation_ne_outOfRange hpieces, fun latitude longitude => ?_⟩
    rw [decodeLocation_eq_showLocation_iff hpieces]
    refine iff_of_false ?_ (hno latitude longitude)
    rintro ⟨hlatitude, hlongitude⟩
    rcases hnone with hnone | hnone
    · simp [hnone] at hlatitude
    · simp [hnone] at hlongitude

/-! ## The texts read as they should be -/

theorem unambiguous_single_iff (h : ':' ∉ text.toList) :
    Unambiguous parse text ↔ parse text = none := by
  refine ⟨fun hu => hu.single h, fun hp => ⟨fun _ => hp, fun a b rest htext _ _ => ?_⟩⟩
  rw [htext] at h
  simp at h

theorem unambiguous_pair {a b : String} (ha : ':' ∉ a.toList) (hb : ':' ∉ b.toList) :
    Unambiguous parse (a ++ ":" ++ b) := by
  refine ⟨fun h => absurd h (by simp), fun a' b' rest htext ha' hb' => ?_⟩
  have hpieces := components_pair ha hb
  rw [htext, components_several ha' hb' rest] at hpieces
  simp only [List.cons.injEq] at hpieces
  exact absurd hpieces.2.2 (components_ne_nil rest)

theorem unambiguous_several_iff {a b : String} (ha : ':' ∉ a.toList) (hb : ':' ∉ b.toList)
    (rest : String) :
    Unambiguous parse (a ++ ":" ++ b ++ ":" ++ rest) ↔ parse a = none ∨ parse b = none := by
  refine ⟨fun hu => hu.several a b rest rfl ha hb, fun hnone => ⟨fun h => absurd h (by simp), ?_⟩⟩
  intro a' b' rest' htext ha' hb'
  have hpieces := components_several ha hb rest
  rw [htext, components_several ha' hb' rest'] at hpieces
  simp only [List.cons.injEq] at hpieces
  obtain ⟨rfl, rfl, _⟩ := hpieces
  exact hnone

/-- The texts read as they should be. -/
theorem exact_decodeLocation_iff (parse : String → Option D) (text : String) :
    Exact parse text (decodeLocation parse text) ↔ Unambiguous parse text := by
  rcases colon_cases text with h | ⟨a, b, rfl, ha, hb⟩ | ⟨a, b, rest, rfl, ha, hb⟩
  · rw [exact_single_iff h, unambiguous_single_iff h]
  · exact iff_of_true (exact_pair ha hb) (unambiguous_pair ha hb)
  · rw [exact_several_iff ha hb, unambiguous_several_iff ha hb]

/-- What `sendMessage(location:)` sends is read back. -/
theorem decodeLocation_coordinate (hparse : ∀ x, parse (print x) = some x)
    (hprint : ∀ x, ':' ∉ (print x).toList) (latitude longitude : D) :
    decodeLocation parse (coordinate print latitude longitude) =
      .showLocation latitude longitude :=
  (decodeLocation_eq_showLocation_iff (components_pair (hprint latitude) (hprint longitude))).2
    ⟨hparse latitude, hparse longitude⟩

/-! ## The rows of a chat -/

variable {s : ChatVC} {row : ℕ}

theorem ShowsLocation.didSelectRow_eq (h : s.ShowsLocation row text) (parse : String → Option D) :
    s.didSelectRow parse row = decodeLocation parse text := by
  obtain ⟨item, hitem, htype, hcontent⟩ := h
  simp [didSelectRow, hitem, htype, hcontent, Content.asString, Field.asString]

/-- A message delivered is in some row. -/
theorem exists_getElem?_deliver (s : ChatVC) (S : Sorter Item Item.Before) (message : Message) :
    ∃ row : ℕ, (s.deliver S message).items[row]? = some ⟨s.delivered.length, message⟩ := by
  refine List.getElem?_of_mem (S.mem_sort.2 ?_)
  exact List.mem_append_right s.items (List.mem_singleton_self _)

/-- Any string in the database can be the content of a location message in a row. -/
theorem exists_showsLocation_deliver (s : ChatVC) (S : Sorter Item Item.Before) {reader : UserID}
    {record : Value} {message : Message} (hmessage : downloadedMessage reader record = some message)
    (htype : (record.field "type").bind Field.asString = some "location")
    (hcontent : (record.field "content").bind Field.asString = some text) :
    ∃ row, (s.deliver S message).ShowsLocation row text := by
  obtain ⟨tag, content, fromID, timestamp, htag, hcontent', _, _, rfl⟩ :=
    downloadedMessage_eq_some_iff.1 hmessage
  obtain rfl := Option.some.inj (htype.symm.trans htag)
  obtain rfl := Option.some.inj (hcontent.symm.trans hcontent')
  obtain ⟨row, hrow⟩ := exists_getElem?_deliver s S
    { type := .ofTag "location", content := .field (.string text), owner := .of fromID reader,
      timestamp, isRead := true }
  exact ⟨row, _, hrow, rfl, rfl⟩

/-- The record of a message of `sendMessage(location:)` comes to show its coordinates. -/
theorem exists_showsLocation_locationMessage (s : ChatVC) (S : Sorter Item Item.Before)
    (reader fromID toID : UserID) {latitude longitude : D} {timestamp : Int} {content : Field}
    (h : (locationMessage print latitude longitude timestamp).content = .field content) :
    ∃ message row, downloadedMessage reader
        (.dictionary (messageValues .location content fromID toID timestamp)) = some message ∧
      (s.deliver S message).ShowsLocation row (coordinate print latitude longitude) := by
  obtain rfl : .string (coordinate print latitude longitude) = content := Content.field.inj h
  have hmessage := downloadedMessage_messageValues reader .location
    (coordinate print latitude longitude) fromID toID timestamp
  obtain ⟨row, hrow⟩ := exists_showsLocation_deliver s S hmessage rfl rfl
  exact ⟨_, row, hmessage, hrow⟩

/-- A location message in a row is read as it should be, if its content is
    unambiguous; and a message of `sendMessage(location:)` is. -/
theorem exact_didSelectRow_iff (hparse : ∀ x, parse (print x) = some x)
    (hprint : ∀ x, ':' ∉ (print x).toList) (s : ChatVC) (row : ℕ) :
    (∀ text, s.ShowsLocation row text →
      (Exact parse text (s.didSelectRow parse row) ↔ Unambiguous parse text)) ∧
    ∀ latitude longitude, s.ShowsLocation row (coordinate print latitude longitude) →
      s.didSelectRow parse row = .showLocation latitude longitude := by
  constructor
  · intro text h
    rw [h.didSelectRow_eq]
    exact exact_decodeLocation_iff parse text
  · intro latitude longitude h
    rw [h.didSelectRow_eq]
    exact decodeLocation_coordinate hparse hprint latitude longitude

/-- Coordinates in whole degrees, as they are printed. -/
def printDegrees (degrees : ℕ) : String := degrees.repr ++ "." ++ "0"

/-- A number in decimal digits. -/
def parseDigits (text : String) : Option ℕ :=
  if text.toList.isEmpty then none
  else if text.toList.all Char.isDigit then some (Nat.ofDigitChars 10 text.toList 0)
  else none

/-- The texts of whole degrees, with or without the digit after the point. -/
def parseDegrees (text : String) : Option ℕ :=
  match Text.components '.' text with
  | [degrees] => parseDigits degrees
  | [degrees, fraction] => if fraction = "0" then parseDigits degrees else none
  | _ => none

theorem isDigit_of_mem_repr {c : Char} {n : ℕ} (h : c ∈ n.repr.toList) : c.isDigit := by
  rw [Nat.toList_repr] at h
  exact Nat.isDigit_of_mem_toDigits (by decide) (by decide) h

theorem not_mem_repr {c : Char} (hc : c.isDigit = false) (n : ℕ) : c ∉ n.repr.toList := by
  intro h
  have hdigit := isDigit_of_mem_repr h
  rw [hc] at hdigit
  cases hdigit

theorem parseDigits_repr (n : ℕ) : parseDigits n.repr = some n := by
  have hdigits : n.repr.toList.all Char.isDigit = true :=
    List.all_eq_true.2 fun _ hc => isDigit_of_mem_repr hc
  rw [parseDigits, if_neg (by simp), if_pos hdigits, Nat.toList_repr,
    Nat.ofDigitChars_ten_toDigits]

theorem parseDegrees_printDegrees (degrees : ℕ) :
    parseDegrees (printDegrees degrees) = some degrees := by
  have hpieces : Text.components '.' (printDegrees degrees) = [degrees.repr, "0"] := by
    have hpoint : String.singleton '.' = "." := by decide
    rw [printDegrees, ← hpoint, Text.components_append (not_mem_repr (by decide) degrees),
      Text.components_of_not_mem (by decide)]
  simp [parseDegrees, hpieces, parseDigits_repr]

theorem not_mem_printDegrees (degrees : ℕ) : ':' ∉ (printDegrees degrees).toList := by
  have hdigits := not_mem_repr (c := ':') (by decide) degrees
  rw [Nat.toList_repr] at hdigits
  simp [printDegrees, hdigits]

/-- A chat in which a location message with this content has been delivered. -/
def oneLocation (text : String) : ChatVC :=
  ChatVC.deliver {} (.insertion Item.Before)
    ⟨.location, .field (.string text), .sender, 5, true⟩

theorem showsLocation_oneLocation (text : String) : (oneLocation text).ShowsLocation 0 text :=
  ⟨_, rfl, rfl, rfl⟩

/-- A location that has been sent is shown. -/
theorem didSelectRow_oneLocation :
    (oneLocation (coordinate printDegrees 45 19)).didSelectRow parseDegrees 0 =
      .showLocation 45 19 :=
  (exact_didSelectRow_iff parseDegrees_printDegrees not_mem_printDegrees
    (oneLocation (coordinate printDegrees 45 19)) 0).2 45 19 (showsLocation_oneLocation _)

theorem parseDegrees_repr (degrees : ℕ) : parseDegrees degrees.repr = some degrees := by
  have hpieces : Text.components '.' degrees.repr = [degrees.repr] :=
    Text.components_of_not_mem (not_mem_repr (by decide) degrees)
  simp [parseDegrees, hpieces, parseDigits_repr]

/-- A single coordinate is read out of range, and a location followed by another
    piece is shown. -/
theorem not_exact_oneLocation :
    ¬Exact parseDegrees "45" ((oneLocation "45").didSelectRow parseDegrees 0) ∧
      ¬Exact parseDegrees "45:19:7" ((oneLocation "45:19:7").didSelectRow parseDegrees 0) := by
  have hlatitude : parseDegrees "45" = some 45 := parseDegrees_repr 45
  have hlongitude : parseDegrees "19" = some 19 := parseDegrees_repr 19
  constructor
  · rw [(showsLocation_oneLocation "45").didSelectRow_eq, exact_decodeLocation_iff]
    intro hu
    have hnone := hu.single (by decide)
    rw [hlatitude] at hnone
    cases hnone
  · rw [(showsLocation_oneLocation "45:19:7").didSelectRow_eq, exact_decodeLocation_iff]
    intro hu
    rcases hu.several "45" "19" "7" rfl (by decide) (by decide) with hnone | hnone
    · rw [hlatitude] at hnone
      cases hnone
    · rw [hlongitude] at hnone
      cases hnone

end ChatVC

end MagicChat
