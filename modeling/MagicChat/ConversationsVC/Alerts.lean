import MagicChat.ConversationsVC.Listing

/-!
# Alerts

What the list of conversations does about a new snapshot of one of them. Each
of its messages sorts the list and leaves a block on the main queue. The blocks
run only after the whole loop, and each of them plays the sound if the last
message of any listed conversation is unread, whosever it is
(`exists_runBlocks`).

A snapshot of several messages is thus alerted several times, and the reader's
own message too. There is at most one alert, and it is for a conversation drawn
bold, if and only if nothing is left unread, or the snapshot has a single
message and leaves a conversation bold (`alertsOnce_iff`).
-/

namespace MagicChat

/-- What a cell of the list shows. -/
inductive Cell
  /-- The cell of a list without items. -/
  | empty
  /-- The cell in place of a text whose content is not a string. -/
  | default
  | conversation (user : UserID) (message : String) (timestamp : Int) (bold : Bool)
  deriving DecidableEq

namespace Conversation

variable (c : Conversation)

/-- The last message is unread, and from the other user. -/
def bold : Bool := c.lastMessage.owner = .sender && !c.lastMessage.isRead

/-- The text of the message label, if there is one. -/
def messageLabel : Option String :=
  match c.lastMessage.type with
  | .text => c.lastMessage.content.asString
  | .location => some "Location"
  | .photo => some "Media"

/-- The cell of a conversation. -/
def cell : Cell :=
  match c.messageLabel with
  | some message => .conversation c.user message c.lastMessage.timestamp c.bold
  | none => .default

end Conversation

namespace ConversationsVC

variable (s : ConversationsVC)

/-- `tableView(_:cellForRowAt:)`, if there is such a row. -/
def cellForRow (row : ℕ) : Option Cell :=
  match s.items with
  | [] => some .empty
  | _ => (s.items[row]?.bind fun k => s.conversations[k]?).map Conversation.cell

/-- Run several blocks of the main queue. -/
def runBlocks (s : ConversationsVC) : ℕ → Option ConversationsVC
  | 0 => some s
  | n + 1 => s.runBlock.bind fun t => t.runBlocks n

/-- A new snapshot of the conversation `k` gives at most one alert, and only if
    afterwards a listed conversation is drawn bold. The blocks that were on the
    main queue before run first, and are not counted. -/
def AlertsOnce (T : Sorter (Int × ℕ) Later) (k : ℕ) (u : UserID) (snapshot : Keyed Key Value) :
    Prop :=
  ∃ t r, (s.receiveAll T k (listedMessages u snapshot)).runBlocks s.mainQueue = some t ∧
    t.runBlocks t.mainQueue = some r ∧ r.sounds ≤ t.sounds + 1 ∧
    (t.sounds < r.sounds → ∃ c ∈ r.listed, c.bold = true)

/-- With `last` for the last record of the conversation `k`, no conversation has
    an unread last message. -/
def LeavesNothingUnread (k : ℕ) (last : Value) : Prop :=
  last.isRead = some true ∧
    ∀ j c, j ≠ k → s.conversations[j]? = some c → c.lastMessage.isRead = true

/-- With `last` for the last record of the conversation `k`, some conversation
    has an unread last message from the other user. -/
def LeavesBold (k : ℕ) (u : UserID) (last : Value) : Prop :=
  (last.isRead = some false ∧ last.fromID ≠ some u) ∨
    ∃ j c, j ≠ k ∧ s.conversations[j]? = some c ∧ c.bold = true

variable {s} {t : ConversationsVC} {T : Sorter (Int × ℕ) Later}

/-! ## The cells -/

theorem mem_listed {c : Conversation} :
    c ∈ s.listed ↔ ∃ row : ℕ, (s.items[row]?.bind fun k => s.conversations[k]?) = some c := by
  rw [listed, List.mem_filterMap]
  constructor
  · rintro ⟨k, hk, hc⟩
    obtain ⟨row, hrow⟩ := List.getElem?_of_mem hk
    exact ⟨row, by rw [hrow, Option.bind_some, hc]⟩
  · rintro ⟨row, h⟩
    obtain ⟨k, hk, hc⟩ := Option.bind_eq_some_iff.1 h
    exact ⟨k, List.mem_of_getElem? hk, hc⟩

/-- The rows drawn bold are the listed conversations whose last message is
    unread, from the other user, and can be shown. -/
theorem exists_cellForRow_iff :
    (∃ row user message timestamp,
        s.cellForRow row = some (.conversation user message timestamp true)) ↔
      ∃ c ∈ s.listed, c.bold = true ∧ c.messageLabel.isSome := by
  constructor
  · rintro ⟨row, user, message, timestamp, h⟩
    rw [cellForRow] at h
    split at h
    · cases Option.some.inj h
    · obtain ⟨c, hc, hcell⟩ := Option.map_eq_some_iff.1 h
      refine ⟨c, mem_listed.2 ⟨row, hc⟩, ?_⟩
      rw [Conversation.cell] at hcell
      cases hm : c.messageLabel with
      | none =>
        rw [hm] at hcell
        cases hcell
      | some label =>
        rw [hm] at hcell
        exact ⟨(Cell.conversation.inj hcell).2.2.2, rfl⟩
  · rintro ⟨c, hc, hbold, hm⟩
    obtain ⟨row, hrow⟩ := mem_listed.1 hc
    obtain ⟨message, hmessage⟩ := Option.isSome_iff_exists.1 hm
    refine ⟨row, c.user, message, c.lastMessage.timestamp, ?_⟩
    rw [cellForRow]
    split
    · next hnil => simp [hnil] at hrow
    · rw [hrow, Option.map_some, Conversation.cell, hmessage, hbold]

/-! ## The blocks -/

/-- A listed conversation has an unread last message. -/
def AnyUnread (s : ConversationsVC) : Prop := ∃ c ∈ s.listed, c.lastMessage.isRead = false

theorem any_unread_iff : s.items.any s.unread = true ↔ s.AnyUnread := by
  simp only [List.any_eq_true, unread, Option.any_eq_true, AnyUnread, listed, List.mem_filterMap,
    Bool.not_eq_true']
  constructor
  · rintro ⟨k, hk, c, hc, hread⟩
    exact ⟨c, ⟨k, hk, hc⟩, hread⟩
  · rintro ⟨c, ⟨k, hk, hc⟩, hread⟩
    exact ⟨k, hk, c, hc, hread⟩

/-- `t` is `s` after `n` blocks, each of which plays the sound if `s` lists an
    unread conversation. -/
structure AfterBlocks (s t : ConversationsVC) (n : ℕ) : Prop where
  listed : t.listed = s.listed
  mainQueue : t.mainQueue + n = s.mainQueue
  read : ¬s.AnyUnread → t.sounds = s.sounds
  unread : s.AnyUnread → t.sounds = s.sounds + n

theorem exists_runBlock (h : 0 < s.mainQueue) : ∃ t, s.runBlock = some t ∧ s.AfterBlocks t 1 := by
  refine ⟨_, if_neg h.ne', rfl, Nat.sub_add_cancel h, fun hread => ?_, fun hunread => ?_⟩
  · exact if_neg fun hany => hread (any_unread_iff.1 hany)
  · exact if_pos (any_unread_iff.2 hunread)

/-- The blocks on the main queue run, and change only what is displayed and the
    number of sounds. -/
theorem exists_runBlocks {n : ℕ} (h : n ≤ s.mainQueue) :
    ∃ t, s.runBlocks n = some t ∧ s.AfterBlocks t n := by
  induction n generalizing s with
  | zero => exact ⟨s, rfl, rfl, rfl, fun _ => rfl, fun _ => rfl⟩
  | succ n ih =>
    obtain ⟨r, hr, after⟩ := exists_runBlock (s := s) (by omega)
    have hqueue := after.mainQueue
    obtain ⟨t, ht, after'⟩ := ih (s := r) (by omega)
    have hlisted : r.AnyUnread ↔ s.AnyUnread := by rw [AnyUnread, after.listed, AnyUnread]
    refine ⟨t, by rw [runBlocks, hr, Option.bind_some, ht], after'.listed.trans after.listed, ?_,
      fun hread => ?_, fun hunread => ?_⟩
    · have hqueue' := after'.mainQueue
      omega
    · rw [after'.read (hlisted.not.2 hread), after.read hread]
    · rw [after'.unread (hlisted.2 hunread), after.unread hunread]
      omega

/-! ## A snapshot -/

theorem mainQueue_receiveAll {k : ℕ} (messages : List Message) :
    (s.receiveAll T k messages).mainQueue = s.mainQueue + messages.length := by
  induction messages generalizing s with
  | nil => rfl
  | cons message messages ih =>
    have hone : (s.receive T k message).mainQueue = s.mainQueue + 1 := rfl
    refine (ih (s := s.receive T k message)).trans ?_
    rw [hone, List.length_cons]
    omega

/-- After some messages every conversation is listed, the one they belong to with
    the last of them. -/
theorem exists_mem_listed_receiveAll_iff {k : ℕ} {messages : List Message} {message : Message}
    (hk : k < s.conversations.length) (hlast : messages.getLast? = some message)
    {P : Conversation → Prop} :
    (∃ c ∈ (s.receiveAll T k messages).listed, P c) ↔
      P { s.conversations[k] with lastMessage := message } ∨
        ∃ j c, j ≠ k ∧ s.conversations[j]? = some c ∧ P c := by
  obtain ⟨messages, rfl⟩ := List.getLast?_eq_some_iff.1 hlast
  rw [← Lists.exists_mem_modify_iff (f := fun c => { c with lastMessage := message })
    (List.getElem?_eq_getElem hk), ← conversations_receiveAll_concat (T := T) messages message]
  have hsorted : s.receiveAll T k (messages ++ [message]) =
      ((s.receiveAll T k messages).setLastMessage k message).fetchData T := List.foldl_concat ..
  rw [hsorted, fetchData_conversations]
  simp only [listed_fetchData_perm.mem_iff]

/-- An unread message leaves a block that displays its conversation, and plays the sound. -/
theorem exists_runBlock_receive (T : Sorter (Int × ℕ) Later) {k : ℕ} {message : Message}
    (hk : k < s.conversations.length) (hread : message.isRead = false) :
    ∃ t, (s.receive T k message).runBlock = some t ∧ k ∈ t.displayed ∧
      t.sounds = s.sounds + 1 := by
  obtain ⟨t, ht, after⟩ := exists_runBlock (s := s.receive T k message) (Nat.succ_pos _)
  have hdisplayed : k ∈ t.displayed := by
    rw [(runBlock_items ht).2]
    exact mem_items_receive.2 hk
  have hunread : ∃ c ∈ (s.receiveAll T k [message]).listed, c.lastMessage.isRead = false :=
    (exists_mem_listed_receiveAll_iff hk rfl).2 (.inl hread)
  exact ⟨t, ht, hdisplayed, after.unread hunread⟩

/-- How the alerts come out for the messages of a snapshot, of which there is at
    least one: every one of them is alerted if anything is left unread. -/
theorem alertsOnce_iff_anyUnread {k : ℕ} {u : UserID} {snapshot : Keyed Key Value}
    (h : listedMessages u snapshot ≠ []) :
    s.AlertsOnce T k u snapshot ↔
      ¬(s.receiveAll T k (listedMessages u snapshot)).AnyUnread ∨
        ((listedMessages u snapshot).length = 1 ∧
          ∃ c ∈ (s.receiveAll T k (listedMessages u snapshot)).listed, c.bold = true) := by
  have hqueue := mainQueue_receiveAll (s := s) (T := T) (k := k) (listedMessages u snapshot)
  have hpos := List.length_pos_iff.2 h
  obtain ⟨t, ht, earlier⟩ := exists_runBlocks
    (s := s.receiveAll T k (listedMessages u snapshot)) (n := s.mainQueue) (by omega)
  obtain ⟨r, hr, after⟩ := exists_runBlocks (s := t) le_rfl
  -- The blocks left are those of the messages, and see what is listed after them all.
  have hleft : t.mainQueue = (listedMessages u snapshot).length := by
    have hearlier := earlier.mainQueue
    omega
  have hunread : t.AnyUnread ↔ (s.receiveAll T k (listedMessages u snapshot)).AnyUnread := by
    rw [AnyUnread, earlier.listed, AnyUnread]
  constructor
  · rintro ⟨t', r', ht', hr', honce, hbold⟩
    obtain rfl := Option.some.inj (ht.symm.trans ht')
    obtain rfl := Option.some.inj (hr.symm.trans hr')
    by_cases hany : t.AnyUnread
    · have hsounds := after.unread hany
      refine .inr ⟨by omega, ?_⟩
      rw [← earlier.listed, ← after.listed]
      exact hbold (by omega)
    · exact .inl (hunread.not.1 hany)
  · rintro (hread | ⟨hone, hbold⟩)
    · have hsounds := after.read (hunread.not.2 hread)
      exact ⟨t, r, ht, hr, by omega, fun hlt => absurd hlt (by omega)⟩
    · refine ⟨t, r, ht, hr, ?_, fun _ => by rwa [after.listed, earlier.listed]⟩
      by_cases hany : t.AnyUnread
      · have hsounds := after.unread hany
        omega
      · have hsounds := after.read hany
        omega

theorem leavesNothingUnread_iff {k : ℕ} {u : UserID} {messages : List Message} {last : Value}
    {message : Message} (hk : k < s.conversations.length)
    (hmessage : listedMessage u last = some message) (hlast : messages.getLast? = some message) :
    s.LeavesNothingUnread k last ↔ ¬(s.receiveAll T k messages).AnyUnread := by
  obtain ⟨_, _, _, _, isRead, _, _, _, _, hread, rfl⟩ := listedMessage_eq_some_iff.1 hmessage
  rw [AnyUnread, exists_mem_listed_receiveAll_iff hk hlast, LeavesNothingUnread, hread]
  simp only [Option.some.injEq, not_or, Bool.not_eq_false, not_exists, not_and]

theorem leavesBold_iff {k : ℕ} {u : UserID} {messages : List Message} {last : Value}
    {message : Message} (hk : k < s.conversations.length)
    (hmessage : listedMessage u last = some message) (hlast : messages.getLast? = some message) :
    s.LeavesBold k u last ↔ ∃ c ∈ (s.receiveAll T k messages).listed, c.bold = true := by
  obtain ⟨_, _, _, fromID, isRead, _, _, _, hfrom, hread, rfl⟩ :=
    listedMessage_eq_some_iff.1 hmessage
  rw [exists_mem_listed_receiveAll_iff hk hlast, LeavesBold, hread, hfrom]
  refine or_congr ?_ Iff.rfl
  by_cases hu : fromID = u
  · simp [Conversation.bold, MessageOwner.of, hu]
  · simp [Conversation.bold, MessageOwner.of, hu]

/-- A snapshot gives at most one alert, and for a conversation drawn bold, if and
    only if it leaves nothing unread, or has a single message and leaves a
    conversation bold. -/
theorem alertsOnce_iff {k : ℕ} {u : UserID} {snapshot : Keyed Key Value} {last : Key × Value}
    (hk : k < s.conversations.length) (hlisted : ∀ e ∈ snapshot, (listedMessage u e.2).isSome)
    (hlast : snapshot.getLast? = some last) :
    s.AlertsOnce T k u snapshot ↔
      s.LeavesNothingUnread k last.2 ∨ (snapshot.length = 1 ∧ s.LeavesBold k u last.2) := by
  obtain ⟨message, hmessage⟩ :=
    Option.isSome_iff_exists.1 (hlisted last (List.mem_of_getLast? hlast))
  have hall := listedMessages_of_forall hlisted
  have hlength : (listedMessages u snapshot).length = snapshot.length := by
    rw [hall, List.filterMap_length_eq_length]
    exact hlisted
  have hlastMessage : (listedMessages u snapshot).getLast? = some message := by
    rw [hall, Lists.getLast?_filterMap_of_isSome hlisted, hlast, Option.bind_some, hmessage]
  have hne : listedMessages u snapshot ≠ [] := by
    rintro hnil
    rw [hnil] at hlastMessage
    cases hlastMessage
  rw [alertsOnce_iff_anyUnread hne, leavesNothingUnread_iff hk hmessage hlastMessage,
    leavesBold_iff hk hmessage hlastMessage, hlength]

end ConversationsVC

namespace Listing

/-- A conversation with `p` is listed, and its only message is read. -/
def readRun : List Action :=
  [.childAdded "p" (.pointer "K"), .info "p",
    .receive 0 ⟨.text, .field (.string "hi"), .sender, 5, true⟩, .runBlock]

/-- A new record in the conversation of `u` and `p`, unread. -/
def unreadRecord (fromID toID : UserID) (timestamp : Int) : Value :=
  .dictionary (messageValues .text (.string "hello") fromID toID timestamp)

/-- One unread message of `p` gives one alert. -/
theorem alertsOnce_readRun : ∃ s, (machine (.insertion Later)).exec readRun = some s ∧
    s.screen.AlertsOnce (.insertion Later) 0 "u" [("k", unreadRecord "p" "u" 7)] :=
  ⟨_, rfl, (ConversationsVC.alertsOnce_iff (by decide) (by decide) rfl).2
    (.inr ⟨rfl, .inl ⟨rfl, by decide⟩⟩)⟩

/-- Two unread messages of `p`. -/
def twoUnread : Keyed Key Value :=
  [("k", unreadRecord "p" "u" 7), ("l", unreadRecord "p" "u" 8)]

/-- A message of the reader, not read by `p`. -/
def ownUnread : Keyed Key Value := [("k", unreadRecord "u" "p" 7)]

/-- Two unread messages of `p` give two alerts, and a message of the reader gives
    one, although no conversation is drawn bold then. -/
theorem not_alertsOnce_readRun : ∃ s, (machine (.insertion Later)).exec readRun = some s ∧
    (∀ e ∈ twoUnread, (listedMessage "u" e.2).isSome) ∧
    ¬s.screen.AlertsOnce (.insertion Later) 0 "u" twoUnread ∧
    (∀ e ∈ ownUnread, (listedMessage "u" e.2).isSome) ∧
    ¬s.screen.AlertsOnce (.insertion Later) 0 "u" ownUnread := by
  refine ⟨_, rfl, by decide, ?_, by decide, ?_⟩
  · rintro ⟨t, r, ht, hr, honce, _⟩
    obtain rfl := Option.some.inj ht
    obtain rfl := Option.some.inj hr
    exact absurd honce (by decide)
  · rintro ⟨t, r, ht, hr, _, hbold⟩
    obtain rfl := Option.some.inj ht
    obtain rfl := Option.some.inj hr
    exact absurd (hbold (by decide)) (by decide)

end Listing

end MagicChat
