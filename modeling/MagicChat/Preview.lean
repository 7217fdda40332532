import MagicChat.ChatVC.Order
import MagicChat.ConversationsVC.Basic

/-!
# The preview of a conversation

The list of conversations shows for each of them the last message that
`downloadLastMessage` makes of a snapshot: it goes through the records in the
order of their keys, and gives up at the first one that is not of the expected
shape. The chat shows last the latest of the records that it accepts.

The two agree on the same records (`Agrees`), however the chat has them
delivered and sorts them, if and only if the last record before the first one
given up at has a string content, and none that the chat accepts is later, or
as late and of another type or content (`agrees_iff`).
-/

namespace MagicChat

variable {u : UserID} {content : Keyed Key Value}

/-- The preview of the conversation `k`, after a snapshot with the records
    `content`, agrees with the last message of a chat that has them delivered in
    any order: on the type, the content and the timestamp. -/
def Agrees (u : UserID) (content : Keyed Key Value) : Prop :=
  ∀ (s : ConversationsVC) (T : Sorter (Int × ℕ) Later) (k : ℕ) (S : Sorter Item Item.Before)
    (order : Keyed Key Value), k < s.conversations.length → order.Perm content →
    ∃ c x, (s.receiveAll T k (listedMessages u content)).conversations[k]? = some c ∧
      (ChatVC.deliverAll S ((decoded u order).map Prod.snd)).items.getLast? = some x ∧
      c.lastMessage.type = x.message.type ∧ c.lastMessage.content = x.message.content ∧
      c.lastMessage.timestamp = x.message.timestamp

/-- The last record before the first one that `downloadLastMessage` gives up at. -/
def lastListed (u : UserID) (content : Keyed Key Value) : Option Value :=
  ((content.map Prod.snd).takeWhile fun v => (listedMessage u v).isSome).getLast?

/-- That record is one that the chat shows last, or might. -/
def PreviewIsLatest (u : UserID) (content : Keyed Key Value) : Prop :=
  ∃ v m, lastListed u content = some v ∧ listedMessage u v = some m ∧
    m.content.asString.isSome ∧ ∀ e ∈ content, ∀ a, downloadedMessage u e.2 = some a →
      a.timestamp < m.timestamp ∨
        (a.timestamp = m.timestamp ∧ a.type = m.type ∧ a.content = m.content)

/-! ## The preview -/

/-- The last message reported is that of the last record before the first one given up at. -/
theorem getLast?_listedMessages :
    (listedMessages u content).getLast? = (lastListed u content).bind (listedMessage u) := by
  rw [listedMessages_eq]
  exact Lists.getLast?_filterMap_of_isSome fun v hv =>
    List.all_eq_true.1 List.all_takeWhile v hv

namespace ConversationsVC

variable {s : ConversationsVC} {T : Sorter (Int × ℕ) Later} {k : ℕ}

/-- The preview after a snapshot is the last message reported. -/
theorem conversations_receiveAll {messages : List Message} {m : Message}
    (hk : k < s.conversations.length) (hm : messages.getLast? = some m) :
    ∃ c, (s.receiveAll T k messages).conversations[k]? = some c ∧ c.lastMessage = m := by
  obtain ⟨messages, rfl⟩ := List.getLast?_eq_some_iff.1 hm
  refine ⟨{ s.conversations[k] with lastMessage := m }, ?_, rfl⟩
  rw [conversations_receiveAll_concat, List.getElem?_modify_eq, List.getElem?_eq_getElem hk]
  rfl

end ConversationsVC

/-! ## The last message of the chat -/

/-- The reader accepts a record, as this message. -/
def Accepts (u : UserID) (content : Keyed Key Value) (message : Message) : Prop :=
  ∃ e ∈ content, downloadedMessage u e.2 = some message

theorem mem_decoded {order : Keyed Key Value} {message : Message} :
    message ∈ (decoded u order).map Prod.snd ↔ Accepts u order message := by
  simp [decoded, Accepts]

/-- The messages on the screen are those of the records. -/
theorem mem_items_deliverAll {S : Sorter Item Item.Before} {messages : List Message}
    {message : Message} :
    (∃ x ∈ (ChatVC.deliverAll S messages).items, x.message = message) ↔ message ∈ messages := by
  have hmem : message ∈ messages ↔
      message ∈ (ChatVC.deliverAll S messages).delivered.map Item.message := by
    rw [ChatVC.messages_deliverAll]
  rw [hmem, List.mem_map]
  simp only [ChatVC.faithful_deliverAll.1.mem_iff]

/-- The last message of the chat is none earlier than any message accepted. -/
theorem exists_getLast? {S : Sorter Item Item.Before} {order : Keyed Key Value}
    (horder : order.Perm content) {message : Message} (hm : Accepts u content message) :
    ∃ x, (ChatVC.deliverAll S ((decoded u order).map Prod.snd)).items.getLast? = some x ∧
      message.timestamp ≤ x.message.timestamp ∧ Accepts u content x.message := by
  have haccepts : ∀ a, Accepts u order a ↔ Accepts u content a := fun a => by
    simp only [Accepts, horder.mem_iff]
  obtain ⟨y, hy, rfl⟩ := mem_items_deliverAll (S := S).2 (mem_decoded.2 ((haccepts message).2 hm))
  obtain ⟨x, hx⟩ := Option.isSome_iff_exists.1 (List.getLast?_isSome.2 (List.ne_nil_of_mem hy))
  refine ⟨x, hx, ?_, ?_⟩
  · rcases Lists.rel_getLast? ChatVC.faithful_deliverAll.2 hx hy with hyx | rfl
    · exact hyx
    · exact le_rfl
  · have hmem := mem_items_deliverAll.1 ⟨x, List.mem_of_getLast? hx, rfl⟩
    exact (haccepts x.message).1 (mem_decoded.1 hmem)

/-! ## Agreement -/

/-- A record that the list makes a message of, with a string content, the chat accepts. -/
theorem downloadedMessage_of_listedMessage {v : Value} {m : Message}
    (h : listedMessage u v = some m) (hs : m.content.asString.isSome) :
    downloadedMessage u v = some { m with isRead := true } := by
  obtain ⟨content, timestamp, tag, fromID, isRead, hcontent, htimestamp, htag, hfrom, _, rfl⟩ :=
    listedMessage_eq_some_iff.1 h
  obtain ⟨str, hstr⟩ := Option.isSome_iff_exists.1 hs
  refine downloadedMessage_eq_some_iff.2
    ⟨tag, str, fromID, timestamp, htag, ?_, hfrom, htimestamp, ?_⟩
  · rw [hcontent]
    exact hstr
  · cases content with
    | string s => rw [Option.some.inj hstr]
    | _ => cases hstr

theorem exists_mem_of_lastListed {v : Value} (h : lastListed u content = some v) :
    ∃ e ∈ content, e.2 = v := by
  have hmem := List.mem_of_getLast? h
  exact List.mem_map.1 ((List.takeWhile_sublist _).subset hmem)

/-- Where the last record reported is latest, the chat shows one like it last. -/
theorem PreviewIsLatest.agrees (h : PreviewIsLatest u content) : Agrees u content := by
  intro s T k S order hk horder
  obtain ⟨v, m, hv, hm, hstring, hlatest⟩ := h
  have hlast : (listedMessages u content).getLast? = some m := by
    rw [getLast?_listedMessages, hv, Option.bind_some, hm]
  obtain ⟨c, hc, rfl⟩ := s.conversations_receiveAll (T := T) hk hlast
  obtain ⟨e, he, rfl⟩ := exists_mem_of_lastListed hv
  obtain ⟨x, hx, hle, e', he', hdecode⟩ := exists_getLast? (S := S) horder
    ⟨e, he, downloadedMessage_of_listedMessage hm hstring⟩
  refine ⟨c, x, hc, hx, ?_⟩
  rcases hlatest e' he' x.message hdecode with hlt | ⟨hts, htype, hcontent⟩
  · exact absurd hlt (not_lt.2 hle)
  · exact ⟨htype.symm, hcontent.symm, hts.symm⟩

/-- A list of one conversation, whose last message has the given timestamp. -/
def listOf (timestamp : Int) : ConversationsVC :=
  { conversations := [{ user := "v", lastMessage := { emptyMessage with timestamp } }] }

/-- If nothing is reported the preview stays what it was, whatever that is. -/
theorem Agrees.lastListed_ne_none (h : Agrees u content) : lastListed u content ≠ none := by
  intro hnone
  have hnil : listedMessages u content = [] := by
    rw [← List.getLast?_eq_none_iff, getLast?_listedMessages, hnone, Option.bind_none]
  have hpreview : ∀ timestamp, ∃ x,
      (ChatVC.deliverAll (.insertion Item.Before)
          ((decoded u content).map Prod.snd)).items.getLast? = some x ∧
        timestamp = x.message.timestamp := by
    intro timestamp
    obtain ⟨c, x, hc, hx, _, _, hts⟩ := h (listOf timestamp) (.insertion Later) 0
      (.insertion Item.Before) content Nat.zero_lt_one (.refl _)
    rw [hnil] at hc
    obtain rfl := Option.some.inj hc
    exact ⟨x, hx, hts⟩
  obtain ⟨x, hx, h0⟩ := hpreview 0
  obtain ⟨x', hx', h1⟩ := hpreview 1
  rw [Option.some.inj (hx.symm.trans hx'), ← h1] at h0
  cases h0

/-- A chat whose sort brings a message last among those of its second shows it
    last, unless a later one is shown. -/
theorem message_of_getLast? {order : Keyed Key Value} {a : Message} {x : Item}
    (ha : Accepts u order a)
    (hx : (ChatVC.deliverAll (.favouring Item.Before fun y => y.message ≠ a)
      ((decoded u order).map Prod.snd)).items.getLast? = some x)
    (hts : x.message.timestamp ≤ a.timestamp) : x.message = a := by
  obtain ⟨y, hy, rfl⟩ := (mem_items_deliverAll
    (S := .favouring Item.Before fun y => y.message ≠ a)).2 (mem_decoded.2 ha)
  by_contra hne
  rcases Lists.rel_getLast? (ChatVC.pairwise_deliverAll (Sorter.pairwise_favouring _ _)) hx hy
    with hyx | rfl
  · exact hyx.2 hts hne rfl
  · exact hne rfl

/-- Where the two agree, the last record reported is latest: some sort brings
    last whatever the chat accepts that is as late. -/
theorem Agrees.previewIsLatest (h : Agrees u content) : PreviewIsLatest u content := by
  obtain ⟨v, hv⟩ := Option.ne_none_iff_exists'.1 h.lastListed_ne_none
  obtain ⟨m, hm⟩ : ∃ m, listedMessage u v = some m :=
    Option.isSome_iff_exists.1 (List.all_eq_true.1 List.all_takeWhile v (List.mem_of_getLast? hv))
  have hlast : (listedMessages u content).getLast? = some m := by
    rw [getLast?_listedMessages, hv, Option.bind_some, hm]
  have agreed : ∀ S, ∃ x,
      (ChatVC.deliverAll S ((decoded u content).map Prod.snd)).items.getLast? = some x ∧
        m.type = x.message.type ∧ m.content = x.message.content ∧
        m.timestamp = x.message.timestamp := by
    intro S
    obtain ⟨c, x, hc, hx, hagree⟩ := h (listOf 0) (.insertion Later) 0 S content
      Nat.zero_lt_one (.refl _)
    obtain ⟨c', hc', rfl⟩ := (listOf 0).conversations_receiveAll (T := .insertion Later)
      Nat.zero_lt_one hlast
    obtain rfl := Option.some.inj (hc.symm.trans hc')
    exact ⟨x, hx, hagree⟩
  refine ⟨v, m, hv, hm, ?_, fun e he a ha => ?_⟩
  · -- The chat decodes strings only, so the content agreed on is one.
    obtain ⟨x, hx, _, hcontent, _⟩ := agreed (.insertion Item.Before)
    obtain ⟨e, _, he⟩ := mem_decoded.1 (mem_items_deliverAll.1 ⟨x, List.mem_of_getLast? hx, rfl⟩)
    obtain ⟨_, _, _, _, _, _, _, _, hmessage⟩ := downloadedMessage_eq_some_iff.1 he
    rw [hcontent, hmessage]
    rfl
  · -- A sort that brings `a` last among the latest forces the preview to be no earlier.
    obtain ⟨x, hx, htype, hcontent, hts⟩ := agreed (.favouring Item.Before fun y => y.message ≠ a)
    obtain ⟨x', hx', hle, _⟩ := exists_getLast?
      (S := .favouring Item.Before fun y => y.message ≠ a) (.refl content) ⟨e, he, ha⟩
    obtain rfl := Option.some.inj (hx.symm.trans hx')
    rcases hle.lt_or_eq with hlt | heq
    · exact .inl (hts ▸ hlt)
    · obtain rfl := message_of_getLast? ⟨e, he, ha⟩ hx heq.ge
      exact .inr ⟨hts.symm, htype.symm, hcontent.symm⟩

/-- The preview agrees with the last message of the chat, however the chat has the
    records delivered and sorts them, if and only if the last record before the
    first one given up at is latest. -/
theorem agrees_iff (u : UserID) (content : Keyed Key Value) :
    Agrees u content ↔ PreviewIsLatest u content :=
  ⟨Agrees.previewIsLatest, PreviewIsLatest.agrees⟩

/-- Two messages of `v`, and between them a record without a type. -/
def interrupted : Keyed Key Value :=
  [("k", .dictionary (messageValues .text (.string "hi") "v" "u" 1)),
    ("l", .dictionary [("content", .string "?")]),
    ("m", .dictionary (messageValues .text (.string "bye") "v" "u" 5))]

/-- The preview stays at the message before that record, and the chat goes on to
    the one after it. -/
theorem not_agrees_interrupted :
    ¬Agrees "u" interrupted ∧ interrupted.NodupKeys ∧
      ∃ e ∈ interrupted, (downloadedMessage "u" e.2).isSome := by
  refine ⟨fun h => ?_, by simp [Keyed.NodupKeys, interrupted], ?_⟩
  · obtain ⟨c, x, hc, hx, _, _, hts⟩ := h (listOf 0) (.insertion Later) 0 (.insertion Item.Before)
      interrupted Nat.zero_lt_one (.refl _)
    have hpreview : ((listOf 0).receiveAll (.insertion Later) 0
        (listedMessages "u" interrupted)).conversations[0]?.map
          (fun c => c.lastMessage.timestamp) = some 1 := by decide
    have hchat : (ChatVC.deliverAll (.insertion Item.Before)
        ((decoded "u" interrupted).map Prod.snd)).items.getLast?.map
          (fun x => x.message.timestamp) = some 5 := by decide
    rw [hc, Option.map_some, hts] at hpreview
    rw [hx, Option.map_some, hpreview] at hchat
    cases hchat
  · exact ⟨interrupted[0], List.getElem_mem _, by decide⟩

end MagicChat
