import MagicChat.App.Step
import MagicChat.Repository.Changes

/-!
# What a chat is told

An account of the deliveries of a chat, message by message with its record
(`Chat.log`), in every run: what has been delivered, and what the events still
bring, is together what is stored at the locations that the chat observes
(`Chat.Told`).
-/

namespace MagicChat

/-- The message that a record brings to a reader, with its reference. -/
def delivery? (user : UserID) (ref : Reference) (snap : Value) : Option (Reference × Message) :=
  (downloadedMessage user snap).map fun message => (ref, message)

/-- The messages that the records of a conversation bring to a reader. -/
def deliveries (user : UserID) (location : Key) (records : Keyed Key Value) :
    List (Reference × Message) :=
  records.filterMap fun e => delivery? user ⟨location, e.1⟩ e.2

namespace ChatEvent

/-- The location that an event brings. -/
def location? : ChatEvent → Option Key
  | .value snapshot => snapshot.bind Value.location
  | .childAdded _ _ => none

/-- The message that an event brings. -/
def delivery? (user : UserID) : ChatEvent → Option (Reference × Message)
  | .value _ => none
  | .childAdded ref snap => MagicChat.delivery? user ref snap

end ChatEvent

@[simp] theorem filterMap_location?_childEvents (L : Key) (children : Keyed Key Value) :
    (childEvents L children).filterMap ChatEvent.location? = [] := by
  simp [childEvents, ChatEvent.location?, List.filterMap_eq_nil_iff]

@[simp] theorem filterMap_delivery?_childEvents (user : UserID) (L : Key)
    (children : Keyed Key Value) :
    (childEvents L children).filterMap (ChatEvent.delivery? user) = deliveries user L children := by
  rw [childEvents, List.filterMap_map, deliveries]
  rfl

namespace Chat

/-! ## Locations -/

/-- The locations that a chat observes, or is about to. -/
def locations (c : Chat) : List Key := c.observed ++ c.events.filterMap ChatEvent.location?

/-- A change of the pointer brings the new value. -/
theorem filterMap_location?_changes (c : Chat) (db db' : Database) :
    (c.changes db db').filterMap ChatEvent.location? =
      if db'.pointer c.user c.peer = db.pointer c.user c.peer then []
      else (db'.location c.user c.peer).toList := by
  have hchildren : (c.observed.flatMap fun L => childEvents L
      (Keyed.added (db.conversations L) (db'.conversations L))).filterMap ChatEvent.location? =
        [] := by
    rw [List.filterMap_flatMap]
    simp
  rw [changes, List.filterMap_append, hchildren, List.append_nil, Database.location]
  split_ifs
  · rfl
  · cases h : (db'.pointer c.user c.peer).bind Value.location <;> simp [ChatEvent.location?, h]

theorem locations_notify (c : Chat) (db db' : Database) :
    (c.notify db db').locations = c.locations ++
      if db'.pointer c.user c.peer = db.pointer c.user c.peer then []
      else (db'.location c.user c.peer).toList := by
  change c.observed ++ (c.events ++ c.changes db db').filterMap ChatEvent.location? = _
  rw [List.filterMap_append, filterMap_location?_changes, locations, List.append_assoc]

/-- A location that has come is no longer pending, but observed. -/
theorem locations_receive {S : Sorter Item Item.Before} {db : Database} {c : Chat} {i : ℕ}
    {e : ChatEvent} (he : c.events[i]? = some e) :
    (Chat.receive S db { c with events := c.events.eraseIdx i } e).locations.Perm c.locations := by
  refine .trans ?_ ((Lists.filterMap_perm_eraseIdx ChatEvent.location? he).symm.append_left
    c.observed)
  cases e with
  | value snapshot =>
    rw [Chat.receive, ChatEvent.location?]
    cases hL : snapshot.bind Value.location with
    | none => exact .refl _
    | some L =>
      simp only [locations, List.filterMap_append, filterMap_location?_childEvents,
        List.append_nil, List.append_assoc]
      exact .refl _
  | childAdded ref snap =>
    rw [Chat.receive]
    cases downloadedMessage c.user snap <;> exact .refl _

/-! ## Messages -/

/-- The deliveries of a chat: the messages, with their records. -/
def log (c : Chat) : List (Reference × Message) :=
  c.sources.zip (c.screen.delivered.map Item.message)

/-- What has been delivered, and what the events bring, is what is stored at the
    locations observed. -/
structure Told (db : Database) (c : Chat) : Prop where
  length : c.sources.length = c.screen.delivered.length
  deliveries : (c.log ++ c.events.filterMap (ChatEvent.delivery? c.user)).Perm
    (c.observed.flatMap fun L => deliveries c.user L (db.conversations L))

theorem told_opened (db : Database) (d : Device) (user peer : UserID) :
    Told db (opened db d user peer) where
  length := rfl
  deliveries := .refl _

/-- A change of the database brings the records added at the locations observed. -/
theorem filterMap_delivery?_changes (c : Chat) (db db' : Database) :
    (c.changes db db').filterMap (ChatEvent.delivery? c.user) = c.observed.flatMap fun L =>
      MagicChat.deliveries c.user L (Keyed.added (db.conversations L) (db'.conversations L)) := by
  have hpointer : (if db'.pointer c.user c.peer = db.pointer c.user c.peer then []
      else [ChatEvent.value (db'.pointer c.user c.peer)]).filterMap (ChatEvent.delivery? c.user) =
        [] := by
    split_ifs <;> rfl
  rw [changes, List.filterMap_append, hpointer, List.nil_append, List.filterMap_flatMap]
  simp

/-- A chat is told of every record that a step adds. -/
theorem Told.notify {s t : Repository} {a : Repository.Action} {c : Chat} (h : c.Told s.db)
    (hs : s.Fresh) (ht : Repository.machine.step s a = some t) :
    (c.notify s.db t.db).Told t.db where
  length := h.length
  deliveries := by
    change (c.log ++ (c.events ++ c.changes s.db t.db).filterMap (ChatEvent.delivery? c.user)).Perm
      (c.observed.flatMap fun L => MagicChat.deliveries c.user L (t.db.conversations L))
    rw [List.filterMap_append, ← List.append_assoc, filterMap_delivery?_changes]
    refine (h.deliveries.append_right _).trans ((List.flatMap_append_perm ..).trans ?_)
    refine .of_eq (List.flatMap_congr fun L _ => ?_)
    refine (Repository.filterMap_conversations_step (fun k v => ?_) hs ht L).symm
    rw [delivery?, delivery?, downloadedMessage_setRead]

section receive

variable {S : Sorter Item Item.Before} {db : Database} {c : Chat}

/-- A delivery is added to the log. -/
theorem log_deliver (h : c.sources.length = c.screen.delivered.length) (ref : Reference)
    (message : Message) :
    (c.sources ++ [ref]).zip ((c.screen.deliver S message).delivered.map Item.message) =
      c.log ++ [(ref, message)] := by
  simp only [ChatVC.deliver, List.map_append, List.map_singleton]
  rw [List.zip_append (by rw [h, List.length_map])]
  rfl

/-- What an event brings is told, and is no longer pending. -/
theorem Told.receive (h : c.Told db) {i : ℕ} {e : ChatEvent} (he : c.events[i]? = some e) :
    (Chat.receive S db { c with events := c.events.eraseIdx i } e).Told db := by
  have hdeliveries :=
    ((Lists.filterMap_perm_eraseIdx (ChatEvent.delivery? c.user) he).symm.append_left c.log).trans
      h.deliveries
  cases e with
  | value snapshot =>
    rw [ChatEvent.delivery?, Option.toList_none, List.nil_append] at hdeliveries
    rw [Chat.receive]
    cases hL : snapshot.bind Value.location with
    | none => exact ⟨h.length, hdeliveries⟩
    | some L =>
      refine ⟨h.length, ?_⟩
      -- The records stored there are pending from now on.
      simp only [List.filterMap_append, filterMap_delivery?_childEvents, List.flatMap_append,
        List.flatMap_singleton]
      rw [← List.append_assoc]
      exact hdeliveries.append_right _
  | childAdded ref snap =>
    rw [ChatEvent.delivery?, MagicChat.delivery?] at hdeliveries
    rw [Chat.receive]
    cases hm : downloadedMessage c.user snap with
    | none =>
      rw [hm, Option.map_none, Option.toList_none, List.nil_append] at hdeliveries
      exact ⟨h.length, hdeliveries⟩
    | some message =>
      rw [hm, Option.map_some, Option.toList_some] at hdeliveries
      refine ⟨by simp [ChatVC.deliver, h.length], ?_⟩
      change ((c.sources ++ [ref]).zip ((c.screen.deliver S message).delivered.map Item.message) ++
        _).Perm _
      rw [log_deliver h.length, List.append_assoc]
      exact hdeliveries

end receive

end Chat

namespace ChatVC

/-- Only a delivery delivers. -/
theorem Step.delivered {S : Sorter Item Item.Before} {s t : ChatVC} {a : Action}
    (h : s.Step S a t) (ha : a.isDelivery = false) : t.delivered = s.delivered := by
  cases h with
  | deliver => cases ha
  | block => simp
  | showKeyboard => simp [ChatVC.showKeyboard]
  | animated => simp
  | _ => rfl

end ChatVC

namespace App

variable {F : Foundation} {s t : App}

theorem told_of_move {j : ℕ} {c c' : Chat} {a : Action} (hr : (machine F).Reachable s)
    (htold : c.Told s.repo.db) (h : ChatMove F s t j c a c') : c'.Told t.repo.db := by
  cases h with
  | notify hstep => exact htold.notify (Repository.fresh_of_reachable (reachable_repo hr)) hstep
  | receive he hrepo =>
    rw [hrepo]
    exact htold.receive he
  | screen hb hstep hrepo =>
    have hdelivered := (ChatVC.Step.of_step hstep).delivered hb
    rw [hrepo]
    refine ⟨hdelivered ▸ htold.length, ?_⟩
    rw [Chat.log, hdelivered]
    exact htold.deliveries
  | stay hdb =>
    rw [hdb]
    exact htold

theorem told_of_reachable (h : (machine F).Reachable s) {j : ℕ} {c : Chat}
    (hc : s.chats[j]? = some c) : c.Told s.repo.db :=
  chat_invariant_of_reachable (P := fun db c => c.Told db) Chat.told_opened
    (fun _ _ _ _ _ _ hr hi hmove => told_of_move hr hi hmove) h hc

end App

end MagicChat
