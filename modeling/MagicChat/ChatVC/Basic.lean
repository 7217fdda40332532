import MagicChat.Library.Machine
import MagicChat.Library.Sorter
import MagicChat.Message

/-!
# The chat screen

`ChatVC` as a machine: the messages it holds, the rows its table has read, and
the blocks that other callbacks have left behind for later.

A delivered message goes into the items at once, and the items are sorted; the
table learns of it in a block on the main queue. A rendered photo starts a
download, which has captured the row of the cell and the message in it; when it
completes, the message is stored at that row. Blocks, downloads and animations
end in any order, at any later time.

The calls to the table view are recorded with the number of rows it has and the
number of items there are (`Performed`), and its rules are predicates on these
(`Performed.Consistent`): the table view raises an exception where they fail.

What Foundation decides is a parameter: which sort it is that sorts the items,
and which links are URLs (`URL.init(string:)`).
-/

namespace MagicChat

/-- A message object. The objects are numbered in the order of their delivery. -/
structure Item where
  id : ℕ
  message : Message
  deriving DecidableEq

/-- The order of the items on the screen. -/
def Item.Before (a b : Item) : Prop := a.message.timestamp ≤ b.message.timestamp

instance : DecidableRel Item.Before := fun _ _ => inferInstanceAs (Decidable (_ ≤ _))

instance : Std.Total Item.Before := ⟨fun _ _ => le_total _ _⟩

instance : IsTrans Item Item.Before := ⟨fun _ _ _ => le_trans⟩

/-- A block on the main queue. -/
inductive Block
  /-- Left by a delivery. -/
  | reload
  /-- Left by a download, for the row it has captured. -/
  | reloadRow (row : ℕ)
  deriving DecidableEq

/-- A download under way: the row and the message it has captured. -/
structure Download where
  row : ℕ
  item : Item
  deriving DecidableEq

/-- How a download ends: in an error, without data, or with data that may be a picture. -/
inductive DataTaskResult
  | error
  | noData
  | data (image : Option UIImage)
  deriving DecidableEq

/-- A call to the table view. -/
inductive TableCall
  | reloadData
  | scrollToRow (row : ℤ)
  | reloadRows (row : ℕ)
  deriving DecidableEq

/-- A call to the table view, with the rows it has and the items there are. -/
structure Performed where
  call : TableCall
  rows : ℕ
  count : ℕ
  deriving DecidableEq

/-- The rules of the table view: it scrolls to a row it has, and reloads one
    only if it has as many rows as there are items. -/
def Performed.Consistent (e : Performed) : Prop :=
  match e.call with
  | .reloadData => True
  | .scrollToRow row => 0 ≤ row ∧ row < e.rows
  | .reloadRows row => e.count = e.rows ∧ row < e.rows

instance : DecidablePred Performed.Consistent
  | ⟨.reloadData, _, _⟩ => inferInstanceAs (Decidable True)
  | ⟨.scrollToRow row, rows, _⟩ => inferInstanceAs (Decidable (0 ≤ row ∧ row < rows))
  | ⟨.reloadRows row, rows, count⟩ => inferInstanceAs (Decidable (count = rows ∧ row < rows))

/-- `downloadImage(message:indexpathRow:)`: the download it starts, if any. -/
def downloadImage (validURL : String → Bool) (item : Item) (row : ℕ) : Option Download :=
  if item.message.type = .photo then
    match item.message.content.asString with
    | some imageLink => if validURL imageLink then some { row, item } else none
    | none => none
  else none

/-- The state of a chat screen. -/
structure ChatVC where
  items : List Item := []
  /-- The picture of each message. -/
  image : ℕ → Option UIImage := fun _ => none
  /-- The number of rows the table read when it last reloaded. -/
  rows : ℕ := 0
  /-- The blocks on the main queue. -/
  mainQueue : List Block := []
  /-- The downloads under way. -/
  downloads : List Download := []
  /-- The number of keyboard animations under way. -/
  animations : ℕ := 0
  /-- The number of locations being sent. -/
  sending : ℕ := 0
  /-- All that has been delivered, in order. -/
  delivered : List Item := []
  /-- How many messages have been delivered since the table last reloaded. -/
  unseen : ℕ := 0
  /-- The calls to the table view so far. -/
  performed : List Performed := []

namespace ChatVC

/-- What happens to a chat screen. -/
inductive Action
  /-- A message is delivered to the completion of `fetchData`. -/
  | deliver (message : Message)
  /-- The table asks for a cell. -/
  | cellForRow (row : ℕ)
  /-- A download ends. -/
  | downloaded (i : ℕ) (result : DataTaskResult)
  /-- A block of the main queue runs. -/
  | runBlock (i : ℕ)
  | showKeyboard
  | hideKeyboard
  /-- The animation of the keyboard ends. -/
  | animated
  /-- `sendMessage(location:)`. -/
  | sendLocation
  /-- The completion of `sendMessage(location:)`. -/
  | locationSent
  deriving DecidableEq

/-- The action is a delivery. -/
def Action.isDelivery : Action → Bool
  | .deliver _ => true
  | _ => false

variable (s : ChatVC)

/-- Call the table view. -/
def perform (call : TableCall) : ChatVC :=
  { s with
    rows := if call = .reloadData then s.items.length else s.rows
    unseen := if call = .reloadData then 0 else s.unseen
    performed := s.performed ++ [{ call, rows := s.rows, count := s.items.length }] }

/-- `scrollToRow(at: IndexPath.init(row: self.items.count - 1, section: 0))`. -/
def scrollToLast : ChatVC := s.perform (.scrollToRow (s.items.length - 1))

/-- `if !self.items.isEmpty`, scroll to the last row. -/
def scrollIfAny : ChatVC := if s.items.isEmpty then s else s.scrollToLast

/-- The completion of `downloadAllMessages`, in `fetchData`. -/
def deliver (S : Sorter Item Item.Before) (message : Message) : ChatVC :=
  let item : Item := { id := s.delivered.length, message }
  { s with
    items := S.sort (s.items ++ [item])
    mainQueue := s.mainQueue ++ [.reload]
    delivered := s.delivered ++ [item]
    unseen := s.unseen + 1 }

/-- `tableView(_:cellForRowAt:)`. -/
def cellForRow (validURL : String → Bool) (row : ℕ) : Option ChatVC := do
  let item ← s.items[row]?
  if item.message.type = .photo ∧ s.image item.id = none then
    some { s with downloads := s.downloads ++ (downloadImage validURL item row).toList }
  else some s

/-- The completion of `downloadImage`: the message goes to the row captured. -/
def store (download : Download) (image : Option UIImage) : ChatVC :=
  { s with
    items := s.items.set download.row download.item
    image := Function.update s.image download.item.id image
    mainQueue := s.mainQueue ++ [.reloadRow download.row] }

/-- The completion handler of the data task `i`. -/
def downloaded (i : ℕ) (result : DataTaskResult) : Option ChatVC := do
  let download ← s.downloads[i]?
  let s' := match result with
    -- The completion is called with `true` whether or not the data is a picture.
    | .data image => s.store download image
    | _ => s
  some { s' with downloads := s.downloads.eraseIdx i }

/-- The effect of a block. -/
def block : Block → ChatVC
  | .reload => if s.items.isEmpty then s else (s.perform .reloadData).scrollToLast
  | .reloadRow row => s.perform (.reloadRows row)

/-- Run the block `i` of the main queue. -/
def runBlock (i : ℕ) : Option ChatVC := do
  let b ← s.mainQueue[i]?
  some { s.block b with mainQueue := s.mainQueue.eraseIdx i }

/-- `showKeyboard(notification:)`. -/
def showKeyboard : ChatVC := { s.scrollIfAny with animations := s.animations + 1 }

/-- `hideKeyboard(notification:)`. -/
def hideKeyboard : ChatVC := { s with animations := s.animations + 1 }

/-- The completion of the animation of the keyboard. -/
def animated : Option ChatVC :=
  if s.animations = 0 then none else some { s.scrollIfAny with animations := s.animations - 1 }

/-- The completion of `sendMessage(location:)`: it scrolls, whatever there is. -/
def locationSent : Option ChatVC :=
  if s.sending = 0 then none else some { s.scrollToLast with sending := s.sending - 1 }

/-- One step of a chat screen. -/
def step (S : Sorter Item Item.Before) (validURL : String → Bool) : Action → Option ChatVC
  | .deliver message => some (s.deliver S message)
  | .cellForRow row => s.cellForRow validURL row
  | .downloaded i result => s.downloaded i result
  | .runBlock i => s.runBlock i
  | .showKeyboard => some s.showKeyboard
  | .hideKeyboard => some s.hideKeyboard
  | .animated => s.animated
  | .sendLocation => some { s with sending := s.sending + 1 }
  | .locationSent => s.locationSent

/-- The machine of a chat screen. -/
def machine (S : Sorter Item Item.Before) (validURL : String → Bool) : Machine ChatVC Action where
  init := {}
  step s := s.step S validURL

/-! ## What a step can do -/

/-- What a step from `s` can lead to. -/
inductive Step (S : Sorter Item Item.Before) : Action → ChatVC → Prop
  | deliver {message : Message} : Step S (.deliver message) (s.deliver S message)
  | render {row : ℕ} {started : List Download} :
    (∀ d ∈ started, s.items[d.row]? = some d.item) →
    Step S (.cellForRow row) { s with downloads := s.downloads ++ started }
  | store {i : ℕ} {image : Option UIImage} {d : Download} : s.downloads[i]? = some d →
    Step S (.downloaded i (.data image))
      { s.store d image with downloads := s.downloads.eraseIdx i }
  | fail {i : ℕ} {result : DataTaskResult} : (∀ image, result ≠ .data image) →
    Step S (.downloaded i result) { s with downloads := s.downloads.eraseIdx i }
  | block {i : ℕ} {b : Block} : s.mainQueue[i]? = some b →
    Step S (.runBlock i) { s.block b with mainQueue := s.mainQueue.eraseIdx i }
  | showKeyboard : Step S .showKeyboard s.showKeyboard
  | hideKeyboard : Step S .hideKeyboard s.hideKeyboard
  | animated : Step S .animated { s.scrollIfAny with animations := s.animations - 1 }
  | sendLocation : Step S .sendLocation { s with sending := s.sending + 1 }
  | locationSent : Step S .locationSent { s.scrollToLast with sending := s.sending - 1 }

variable {s} {t : ChatVC} {S : Sorter Item Item.Before} {validURL : String → Bool}

/-- A download is started for the message of the row. -/
theorem mem_downloadImage {item : Item} {row : ℕ} {d : Download}
    (h : d ∈ (downloadImage validURL item row).toList) : d = { row, item } := by
  rw [Option.mem_toList, downloadImage] at h
  split_ifs at h
  split at h
  · split_ifs at h
    exact (Option.some.inj h).symm
  · cases h

theorem step_cellForRow {row : ℕ} (h : s.cellForRow validURL row = some t) :
    s.Step S (.cellForRow row) t := by
  obtain ⟨item, hitem, h⟩ := Option.bind_eq_some_iff.1 h
  split_ifs at h
  · obtain rfl := Option.some.inj h
    refine .render fun d hd => ?_
    obtain rfl := mem_downloadImage hd
    exact hitem
  · obtain rfl := Option.some.inj h
    have hrender : s.Step S (.cellForRow row) { s with downloads := s.downloads ++ [] } :=
      .render fun d hd => absurd hd List.not_mem_nil
    rwa [List.append_nil] at hrender

theorem Step.of_step {a : Action} (h : (machine S validURL).step s a = some t) : s.Step S a t := by
  change s.step S validURL a = some t at h
  cases a with
  | deliver message => exact Option.some.inj h ▸ .deliver
  | cellForRow row => exact step_cellForRow h
  | downloaded i result =>
    obtain ⟨d, hd, h⟩ := Option.bind_eq_some_iff.1 h
    cases result with
    | data image => exact Option.some.inj h ▸ .store hd
    | error => exact Option.some.inj h ▸ .fail nofun
    | noData => exact Option.some.inj h ▸ .fail nofun
  | runBlock i =>
    obtain ⟨b, hb, h⟩ := Option.bind_eq_some_iff.1 h
    exact Option.some.inj h ▸ .block hb
  | showKeyboard => exact Option.some.inj h ▸ .showKeyboard
  | hideKeyboard => exact Option.some.inj h ▸ .hideKeyboard
  | animated =>
    rw [step, ChatVC.animated] at h
    split_ifs at h
    exact Option.some.inj h ▸ .animated
  | sendLocation => exact Option.some.inj h ▸ .sendLocation
  | locationSent =>
    rw [step, ChatVC.locationSent] at h
    split_ifs at h
    exact Option.some.inj h ▸ .locationSent

/-! ## The calls to the table view -/

section table

variable (c : TableCall) (b : Block)

theorem scrollIfAny_of_eq_nil (h : s.items = []) : s.scrollIfAny = s := by
  rw [scrollIfAny, if_pos (List.isEmpty_iff.2 h)]

theorem scrollIfAny_of_ne_nil (h : s.items ≠ []) : s.scrollIfAny = s.scrollToLast := by
  rw [scrollIfAny, if_neg (List.isEmpty_iff.not.2 h)]

theorem block_reload_of_eq_nil (h : s.items = []) : s.block .reload = s := by
  rw [block, if_pos (List.isEmpty_iff.2 h)]

theorem block_reload_of_ne_nil (h : s.items ≠ []) :
    s.block .reload = (s.perform .reloadData).scrollToLast := by
  rw [block, if_neg (List.isEmpty_iff.not.2 h)]

@[simp] theorem perform_items : (s.perform c).items = s.items := rfl

@[simp] theorem perform_delivered : (s.perform c).delivered = s.delivered := rfl

@[simp] theorem perform_downloads : (s.perform c).downloads = s.downloads := rfl

@[simp] theorem scrollIfAny_items : s.scrollIfAny.items = s.items := by
  rw [scrollIfAny]
  split_ifs <;> rfl

@[simp] theorem scrollIfAny_delivered : s.scrollIfAny.delivered = s.delivered := by
  rw [scrollIfAny]
  split_ifs <;> rfl

@[simp] theorem scrollIfAny_downloads : s.scrollIfAny.downloads = s.downloads := by
  rw [scrollIfAny]
  split_ifs <;> rfl

@[simp] theorem scrollIfAny_image : s.scrollIfAny.image = s.image := by
  rw [scrollIfAny]
  split_ifs <;> rfl

@[simp] theorem block_items : (s.block b).items = s.items := by
  cases b with
  | reload =>
    rw [block]
    split_ifs <;> rfl
  | reloadRow row => rfl

@[simp] theorem block_delivered : (s.block b).delivered = s.delivered := by
  cases b with
  | reload =>
    rw [block]
    split_ifs <;> rfl
  | reloadRow row => rfl

@[simp] theorem block_downloads : (s.block b).downloads = s.downloads := by
  cases b with
  | reload =>
    rw [block]
    split_ifs <;> rfl
  | reloadRow row => rfl

@[simp] theorem block_image : (s.block b).image = s.image := by
  cases b with
  | reload =>
    rw [block]
    split_ifs <;> rfl
  | reloadRow row => rfl

@[simp] theorem block_mainQueue : (s.block b).mainQueue = s.mainQueue := by
  cases b with
  | reload =>
    rw [block]
    split_ifs <;> rfl
  | reloadRow row => rfl

end table

end ChatVC

end MagicChat
