import MagicChat.App.Delivered

/-!
# The live chat

What an open chat has delivered is what a chat opened now would deliver
(`Chat.reopened`), once no event is pending, as long as the location that its
pointer holds is not replaced while it is open (`Keeps`).

What a chat is told is what is stored at the locations that it observes
(`Chat.Told`). The locations observed, with those in pending events, are the
one location of the pointer (`Chat.Located`). Each location is observed for
good, so with a second one the chat would deliver the messages of both.
-/

namespace MagicChat

/-- The messages that a reader is delivered for the records of a conversation. -/
def recordedMessages (user : UserID) (records : Keyed Key Value) : List Message :=
  records.filterMap fun e => downloadedMessage user e.2

theorem map_snd_deliveries (user : UserID) (L : Key) (records : Keyed Key Value) :
    (deliveries user L records).map Prod.snd = recordedMessages user records := by
  rw [deliveries, List.map_filterMap, recordedMessages]
  congr 1
  funext e
  rw [delivery?, Option.map_map]
  exact congrFun Option.map_id _

namespace Chat

/-- The messages delivered to the completion of `downloadAllMessages`. -/
def delivered (c : Chat) : List Message := c.screen.delivered.map Item.message

/-- What a chat that is opened now delivers. -/
def reopened (db : Database) (c : Chat) : List Message :=
  (db.location c.user c.peer).elim [] fun L => recordedMessages c.user (db.conversations L)

/-- Once nothing is pending, a chat has delivered what is stored at the locations
    that it observes. -/
theorem Told.delivered {db : Database} {c : Chat} (h : c.Told db) (he : c.events = []) :
    c.delivered.Perm
      (c.observed.flatMap fun L => recordedMessages c.user (db.conversations L)) := by
  have hdeliveries := h.deliveries.map Prod.snd
  rw [he, List.filterMap_nil, List.append_nil, List.map_flatMap] at hdeliveries
  rw [log, List.map_snd_zip (by rw [h.length, List.length_map])] at hdeliveries
  simp only [map_snd_deliveries] at hdeliveries
  exact hdeliveries

/-- The locations that a chat observes, or is about to, are the one of its pointer. -/
def Located (db : Database) (c : Chat) : Prop :=
  c.locations.Perm (db.location c.user c.peer).toList

theorem located_opened (db : Database) (d : Device) (user peer : UserID) :
    (opened db d user peer).Located db := by
  simp only [Located, locations, opened, List.nil_append, ChatEvent.location?,
    List.filterMap_cons, List.filterMap_nil, Database.location]
  cases (db.pointer user peer).bind Value.location <;> exact .refl _

/-- A step of the repository that does not replace the location of the pointer
    keeps it the only one. -/
theorem Located.notify {s t : Repository} {a : Repository.Action} {c : Chat}
    (h : c.Located s.db) (hs : s.Fresh) (ht : Repository.machine.step s a = some t)
    (hn : ¬s.Replaces a c.user c.peer) : (c.notify s.db t.db).Located t.db := by
  change (c.notify s.db t.db).locations.Perm (t.db.location c.user c.peer).toList
  rw [locations_notify]
  rcases Repository.pointer_step hs ht hn with he | ⟨hnone, L, he⟩
  · rw [if_pos he, List.append_nil, Database.location, he]
    exact h
  · -- The first location: nothing has been observed before.
    rw [Located, Database.location, hnone, Option.bind_none, Option.toList_none,
      List.perm_nil] at h
    rw [h, if_neg (by simp [he, hnone]), List.nil_append]

theorem Located.receive {S : Sorter Item Item.Before} {db : Database} {c : Chat}
    (h : c.Located db) {i : ℕ} {e : ChatEvent} (he : c.events[i]? = some e) :
    (Chat.receive S db { c with events := c.events.eraseIdx i } e).Located db := by
  rw [Located, receive_user, receive_peer]
  exact (locations_receive he).trans h

/-- What the only location holds is what a chat opened now delivers. -/
theorem Located.reopened {db : Database} {c : Chat} (h : c.Located db) (he : c.events = []) :
    (c.observed.flatMap fun L => recordedMessages c.user (db.conversations L)) = c.reopened db := by
  rw [Located, locations, he, List.filterMap_nil, List.append_nil] at h
  rw [Chat.reopened]
  cases hL : db.location c.user c.peer with
  | none =>
    rw [hL] at h
    rw [List.perm_nil.1 h]
    rfl
  | some L =>
    rw [hL] at h
    rw [List.perm_singleton.1 h, List.flatMap_singleton]
    rfl

end Chat

namespace App

variable {F : Foundation} {s t : App}

/-- While a chat of `u` with `v` is open, the location that the pointer of `u` to
    `v` holds is not replaced. -/
def Keeps (u v : UserID) (s : App) (a : Action) : Prop :=
  ∀ b c, a = .repository b → c ∈ s.chats → c.user = u → c.peer = v → ¬s.repo.Replaces b u v

theorem located_of_move {u v : UserID} {j : ℕ} {c c' : Chat} {a : Action}
    (hr : (machine F).Reachable s) (ha : Keeps u v s a) (hj : s.chats[j]? = some c)
    (h : c.user = u → c.peer = v → c.Located s.repo.db) (hmove : ChatMove F s t j c a c') :
    c'.user = u → c'.peer = v → c'.Located t.repo.db := by
  intro hu hv
  cases hmove with
  | notify hstep =>
    have hn := ha _ c rfl (List.mem_of_getElem? hj) hu hv
    rw [← hu, ← hv] at hn
    exact (h hu hv).notify (Repository.fresh_of_reachable (reachable_repo hr)) hstep hn
  | receive he hrepo =>
    rw [hrepo]
    rw [Chat.receive_user] at hu
    rw [Chat.receive_peer] at hv
    exact (h hu hv).receive he
  | screen _ _ hrepo =>
    rw [hrepo]
    exact h hu hv
  | stay hdb =>
    rw [hdb]
    exact h hu hv

/-- Along a run in which the location of `u`'s pointer to `v` is not replaced
    while a chat of `u` with `v` is open, such a chat with no event pending has
    delivered exactly what a chat opened now would deliver. -/
theorem delivered_perm_reopened {as : List Action} {j : ℕ} {c : Chat}
    (hkeep : (machine F).Along (Keeps c.user c.peer) as) (h : (machine F).exec as = some s)
    (hc : s.chats[j]? = some c) (he : c.events = []) : c.delivered.Perm (c.reopened s.repo.db) := by
  have hlocated := chat_invariant
    (P := fun _ db c' => c'.user = c.user → c'.peer = c.peer → c'.Located db)
    (fun _ db d user peer _ _ => Chat.located_opened db d user peer)
    (fun s t j c₁ a c₂ hr _ ha hj hi hmove => located_of_move hr ha hj hi hmove) hkeep h
  rw [← (hlocated j c hc rfl rfl).reopened he]
  exact (told_of_reachable ⟨as, h⟩ hc).delivered he

/-- In the open chat, `u` sends `v` a first message. -/
def firstMessageSeen : List Action :=
  openedChat ++
  [.repository (.send 0 (composeMessage .text (.field (.string "hi")) 1) "v"),
    .repository (.resume 1 (.snapshot ⟨"L", "k"⟩)), .repository (.resume 1 (.write true)),
    .repository (.resume 1 (.write true)), .chatEvent 0 0, .chatEvent 0 0,
    .repository (.resume 1 (.write true))]

/-- The only write to the pointer of `u` is the first. -/
theorem delivered_firstMessageSeen : ∃ s c, (machine .insertion).exec firstMessageSeen = some s ∧
    s.chats[0]? = some c ∧ c.delivered.length = 1 ∧ c.delivered.Perm (c.reopened s.repo.db) := by
  have inner : ∀ {s : App} {a : Action}, a.repository? = none → Keeps "u" "v" s a := by
    rintro s _ h b c rfl
    cases h
  have outer : ∀ {s : App} {b : Repository.Action}, ¬s.repo.Replaces b "u" "v" →
      Keeps "u" "v" s (.repository b) := fun h _ _ ha _ _ _ => Action.repository.inj ha ▸ h
  have first : ∀ {s : App} {b : Repository.Action}, s.repo.db.location "u" "v" = none →
      Keeps "u" "v" s (.repository b) := fun h => outer (Repository.not_replaces_of_location h)
  have hkeep : (machine .insertion).Along (Keeps "u" "v") firstMessageSeen := by
    refine Machine.along_iff_alongFrom.2 ?_
    refine .cons (first rfl) rfl (.cons (first rfl) rfl ?_)
    refine .cons (inner rfl) rfl (.cons (inner rfl) rfl ?_)
    refine .cons (first rfl) rfl (.cons (first rfl) rfl ?_)
    refine .cons (first rfl) rfl (.cons (first rfl) rfl ?_)
    refine .cons (inner rfl) rfl (.cons (inner rfl) rfl ?_)
    -- The last write is to the pointer of `v`.
    exact .cons (outer (Repository.not_replaces_of_write? rfl (by decide))) rfl trivial
  exact ⟨_, _, rfl, rfl, rfl, delivered_perm_reopened (j := 0) hkeep rfl rfl rfl⟩

/-- `u` and `v` send each other a first message at the same time. -/
def raceSeen : List Action :=
  openedChat ++
  [.repository (.send 0 (composeMessage .text (.field (.string "hi")) 1) "v"),
    .repository (.send 1 (composeMessage .text (.field (.string "hello")) 1) "u"),
    .repository (.resume 1 (.snapshot ⟨"L0", "k0"⟩)),
    .repository (.resume 2 (.snapshot ⟨"L1", "k1"⟩)),
    .repository (.resume 1 (.write true)), .repository (.resume 2 (.write true)),
    .repository (.resume 1 (.write true)), .repository (.resume 1 (.write true)),
    .repository (.resume 2 (.write true)), .repository (.resume 2 (.write true)),
    .chatEvent 0 0, .chatEvent 0 0, .chatEvent 0 0, .chatEvent 0 0]

/-- The chat of `u` has delivered both messages, and a chat opened now delivers
    that of `v` only. -/
theorem not_delivered_perm_reopened : ∃ s c, (machine .insertion).exec raceSeen = some s ∧
    s.chats[0]? = some c ∧ c.events = [] ∧ ¬c.delivered.Perm (c.reopened s.repo.db) :=
  ⟨_, _, rfl, rfl, rfl, by decide⟩

end App

end MagicChat
