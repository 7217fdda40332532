import MagicChat.ChatVC.Items
import MagicChat.Database.Basic

/-!
# The order of the messages

Two participants have the records of a conversation delivered to them in
different orders, each its own messages first. The items of both are the same
records, sorted by the timestamps (`shownKeys_perm`, `pairwise_shownKeys`), so two
records with different timestamps come in the same order on both screens.

The timestamps are all that the items are sorted by: records of the same second
stay as the sort leaves them, which depends on the order of the deliveries.
-/

namespace MagicChat

/-- What a chat of the reader makes of records that come in some order: the
    messages, with the keys of their records. -/
def decoded (reader : UserID) (records : Keyed Key Value) : List (Key × Message) :=
  records.filterMap fun e => (downloadedMessage reader e.2).map fun message => (e.1, message)

/-- The timestamp of a record. -/
def timestampAt (records : Keyed Key Value) (key : Key) : Option Int :=
  (records.lookup key).bind fun v => (v.field "timestamp").bind Field.asInt

/-- The timestamp of a message delivered is that of its record. -/
theorem timestamp_of_downloadedMessage {reader : UserID} {v : Value} {message : Message}
    (h : downloadedMessage reader v = some message) :
    (v.field "timestamp").bind Field.asInt = some message.timestamp := by
  obtain ⟨_, _, _, _, _, _, _, htimestamp, rfl⟩ := downloadedMessage_eq_some_iff.1 h
  exact htimestamp

/-- Another reader sees the same message, maybe as another one's. -/
theorem downloadedMessage_reader {u : UserID} (v : UserID) {w : Value} {message : Message}
    (h : downloadedMessage u w = some message) :
    ∃ owner, downloadedMessage v w = some { message with owner } := by
  obtain ⟨tag, content, fromID, timestamp, htag, hcontent, hfrom, htimestamp, rfl⟩ :=
    downloadedMessage_eq_some_iff.1 h
  exact ⟨.of fromID v, downloadedMessage_eq_some_iff.2
    ⟨tag, content, fromID, timestamp, htag, hcontent, hfrom, htimestamp, rfl⟩⟩

/-- All readers accept the same records. -/
theorem keys_decoded (u v : UserID) (records : Keyed Key Value) :
    (decoded u records).map Prod.fst = (decoded v records).map Prod.fst := by
  simp only [decoded, List.map_filterMap, Option.map_map]
  refine List.filterMap_congr fun e _ => ?_
  cases hu : downloadedMessage u e.2 with
  | none =>
    cases hv : downloadedMessage v e.2 with
    | none => rfl
    | some message =>
      obtain ⟨owner, ho⟩ := downloadedMessage_reader u hv
      rw [hu] at ho
      cases ho
  | some message =>
    obtain ⟨owner, ho⟩ := downloadedMessage_reader v hu
    rw [ho]
    rfl

namespace ChatVC

/-- The screen of a chat that has had these messages delivered, and nothing else. -/
def deliverAll (S : Sorter Item Item.Before) (messages : List Message) : ChatVC :=
  messages.foldl (fun s message => s.deliver S message) {}

/-- The keys of the records that the screen of the reader shows, in order, when
    they have been delivered in the given one. -/
def shownKeys (S : Sorter Item Item.Before) (reader : UserID) (records : Keyed Key Value) :
    List Key :=
  let entries := decoded reader records
  (deliverAll S (entries.map Prod.snd)).items.filterMap fun x => (entries.map Prod.fst)[x.id]?

variable {S : Sorter Item Item.Before} {messages : List Message}

/-! ## Deliveries -/

theorem deliverAll_concat (message : Message) :
    deliverAll S (messages ++ [message]) = (deliverAll S messages).deliver S message :=
  List.foldl_concat ..

/-- All that has been delivered is on the screen, in the order of the timestamps. -/
theorem faithful_deliverAll : (deliverAll S messages).Faithful := by
  induction messages using List.reverseRecOn with
  | nil => exact ⟨.refl _, .nil⟩
  | append_singleton messages message ih =>
    rw [deliverAll_concat]
    exact ih.deliver message

/-- And in any order that the sort establishes. -/
theorem pairwise_deliverAll {P : Item → Item → Prop} (h : ∀ l, (S.sort l).Pairwise P) :
    (deliverAll S messages).items.Pairwise P := by
  induction messages using List.reverseRecOn with
  | nil => exact .nil
  | append_singleton messages message _ =>
    rw [deliverAll_concat]
    exact h _

/-- The deliveries are numbered. -/
theorem delivered_deliverAll :
    (deliverAll S messages).delivered =
      messages.zipIdx.map fun e => { id := e.2, message := e.1 } := by
  induction messages using List.reverseRecOn with
  | nil => rfl
  | append_singleton messages message ih =>
    rw [deliverAll_concat, deliver, ih, List.zipIdx_append]
    simp

theorem messages_deliverAll : (deliverAll S messages).delivered.map Item.message = messages := by
  rw [delivered_deliverAll, List.map_map]
  exact List.zipIdx_map_fst 0 messages

/-! ## The records shown -/

variable {reader : UserID} {records : Keyed Key Value}

/-- Every record that the reader accepts is shown, and nothing else. -/
theorem shownKeys_perm :
    (shownKeys S reader records).Perm ((decoded reader records).map Prod.fst) := by
  refine (faithful_deliverAll.1.filterMap _).trans (.of_eq ?_)
  rw [delivered_deliverAll, List.filterMap_map]
  let keys := (decoded reader records).map Prod.fst
  have hrange : ((decoded reader records).map Prod.snd).zipIdx.map Prod.snd =
      List.range keys.length := by
    rw [List.zipIdx_map_snd, List.length_map, List.length_map, List.range_eq_range']
  calc ((decoded reader records).map Prod.snd).zipIdx.filterMap (fun e => keys[e.2]?)
      = (((decoded reader records).map Prod.snd).zipIdx.map Prod.snd).filterMap
          (fun i => keys[i]?) := List.filterMap_map.symm
    _ = keys := by rw [hrange, Lists.filterMap_range_getElem?]

/-- The message shown under a key is that of the record. -/
theorem timestampAt_of_mem_items {order : Keyed Key Value} (hk : Keyed.NodupKeys records)
    (horder : order ⊆ records) {x : Item}
    (hx : x ∈ (deliverAll S ((decoded reader order).map Prod.snd)).items) {key : Key}
    (hkey : ((decoded reader order).map Prod.fst)[x.id]? = some key) :
    timestampAt records key = some x.message.timestamp := by
  have hx' := faithful_deliverAll.1.mem_iff.1 hx
  rw [delivered_deliverAll, List.mem_map] at hx'
  obtain ⟨⟨message, i⟩, hmem, rfl⟩ := hx'
  rw [List.mem_zipIdx_iff_getElem?, List.getElem?_map, Option.map_eq_some_iff] at hmem
  obtain ⟨⟨key', message'⟩, hentry, rfl⟩ := hmem
  rw [List.getElem?_map, hentry] at hkey
  obtain rfl : key' = key := Option.some.inj hkey
  obtain ⟨⟨key₀, v⟩, hrecord, he⟩ := List.mem_filterMap.1 (List.mem_of_getElem? hentry)
  obtain ⟨message₀, hdecode, he⟩ := Option.map_eq_some_iff.1 he
  obtain ⟨rfl, rfl⟩ := Prod.mk.inj he
  rw [timestampAt, hk.lookup_eq_some_iff.2 (horder hrecord), Option.bind_some]
  exact timestamp_of_downloadedMessage hdecode

/-- `j` is not later than `k`. -/
def NotLater (records : Keyed Key Value) (j k : Key) : Prop :=
  ∀ a b, timestampAt records j = some a → timestampAt records k = some b → a ≤ b

/-- The records shown are sorted by their timestamps. -/
theorem pairwise_shownKeys {order : Keyed Key Value} (hk : Keyed.NodupKeys records)
    (horder : order ⊆ records) : (shownKeys S reader order).Pairwise (NotLater records) := by
  refine List.pairwise_filterMap.2 (faithful_deliverAll.2.imp_of_mem ?_)
  intro x y hx hy hxy j hj k hk' a b ha hb
  obtain rfl := Option.some.inj ((timestampAt_of_mem_items hk horder hx hj).symm.trans ha)
  obtain rfl := Option.some.inj ((timestampAt_of_mem_items hk horder hy hk').symm.trans hb)
  exact hxy

theorem exists_timestampAt {order : Keyed Key Value} (hk : Keyed.NodupKeys records)
    (horder : order ⊆ records) {key : Key} (h : key ∈ shownKeys S reader order) :
    ∃ a, timestampAt records key = some a := by
  obtain ⟨x, hx, hkey⟩ := List.mem_filterMap.1 h
  exact ⟨x.message.timestamp, timestampAt_of_mem_items hk horder hx hkey⟩

/-! ## Two participants -/

/-- Whatever the orders in which two participants have the records delivered, and
    however their devices sort, they are shown the same records, and two records
    with different timestamps in the same order; if no two have the same, all. -/
theorem shownKeys_same_order (S S' : Sorter Item Item.Before) (u v : UserID)
    {records order order' : Keyed Key Value} (hk : Keyed.NodupKeys records)
    (h : order.Perm records) (h' : order'.Perm records) :
    (shownKeys S u order).Perm (shownKeys S' v order') ∧
      (∀ j k, timestampAt records j ≠ timestampAt records k →
        ([j, k].Sublist (shownKeys S u order) ↔ [j, k].Sublist (shownKeys S' v order'))) ∧
      ((∀ j ∈ (decoded u records).map Prod.fst, ∀ k ∈ (decoded u records).map Prod.fst,
          timestampAt records j = timestampAt records k → j = k) →
        shownKeys S u order = shownKeys S' v order') := by
  have hperm : ∀ {S : Sorter Item Item.Before} {reader : UserID} {order : Keyed Key Value},
      order.Perm records → (shownKeys S reader order).Perm ((decoded u records).map Prod.fst) := by
    intro S reader order horder
    rw [keys_decoded u reader records]
    exact shownKeys_perm.trans ((horder.filterMap _).map Prod.fst)
  have hsame : (shownKeys S u order).Perm (shownKeys S' v order') := (hperm h).trans (hperm h').symm
  have hsorted : (shownKeys S u order).Pairwise (NotLater records) :=
    pairwise_shownKeys hk h.subset
  have hsorted' : (shownKeys S' v order').Pairwise (NotLater records) :=
    pairwise_shownKeys hk h'.subset
  -- The timestamps tell two records apart.
  have apart : ∀ {l : List Key}, l ⊆ shownKeys S u order → ∀ j k,
      timestampAt records j ≠ timestampAt records k → [j, k].Sublist l →
      ¬NotLater records j k ∨ ¬NotLater records k j := by
    intro l hl j k hne hjk
    have hmem : k ∈ [j, k] := List.mem_cons_of_mem j (List.mem_singleton_self k)
    obtain ⟨a, ha⟩ := exists_timestampAt hk h.subset (hl (hjk.subset List.mem_cons_self))
    obtain ⟨b, hb⟩ := exists_timestampAt hk h.subset (hl (hjk.subset hmem))
    by_contra hboth
    obtain ⟨hjk, hkj⟩ := not_or.1 hboth
    have hab : a ≤ b := not_not.1 hjk a b ha hb
    have hba : b ≤ a := not_not.1 hkj b a hb ha
    exact hne (by rw [ha, hb, le_antisymm hab hba])
  refine ⟨hsame, fun j k hne => ⟨fun hjk => ?_, fun hjk => ?_⟩, fun hdistinct => ?_⟩
  · exact Lists.pair_sublist_of_pairwise hsorted hsorted' hsame.subset
      (apart (List.Subset.refl _) j k hne hjk) hjk
  · exact Lists.pair_sublist_of_pairwise hsorted' hsorted hsame.symm.subset
      (apart hsame.symm.subset j k hne hjk) hjk
  · refine hsame.eq_of_pairwise (fun j k hj hk' hjk hkj => ?_) hsorted hsorted'
    have hk'' : k ∈ shownKeys S u order := hsame.mem_iff.2 hk'
    obtain ⟨a, ha⟩ := exists_timestampAt hk h.subset hj
    obtain ⟨b, hb⟩ := exists_timestampAt hk h.subset hk''
    refine hdistinct j ((hperm h).subset hj) k ((hperm h).subset hk'') ?_
    rw [ha, hb, le_antisymm (hjk a b ha hb) (hkj b a hb ha)]

/-- `u` and `v` write to each other, at the given times. -/
def bothWrite (a b : Int) : Keyed Key Value :=
  [("k", .dictionary (messageValues .text (.string "hi") "u" "v" a)),
    ("l", .dictionary (messageValues .text (.string "hello") "v" "u" b))]

theorem nodupKeys_bothWrite (a b : Int) : (bothWrite a b).NodupKeys := by
  simp [Keyed.NodupKeys, bothWrite]

/-- A second apart, both are shown the messages in the same order. -/
theorem shownKeys_bothWrite :
    shownKeys (.insertion Item.Before) "u" (bothWrite 1 2) =
      shownKeys (.insertion Item.Before) "v" (bothWrite 1 2).reverse :=
  (shownKeys_same_order (.insertion Item.Before) (.insertion Item.Before) "u" "v"
    (nodupKeys_bothWrite 1 2) (.refl _) (List.reverse_perm _)).2.2 (by decide)

/-- In the same second, each is shown its own message first, having had it delivered first. -/
theorem shownKeys_bothWrite_ne :
    (bothWrite 1 1).NodupKeys ∧ (bothWrite 1 1).reverse.Perm (bothWrite 1 1) ∧
      (bothWrite 1 1).map (fun e => e.2.fromID) = [some "u", some "v"] ∧
      shownKeys (.insertion Item.Before) "u" (bothWrite 1 1) = ["k", "l"] ∧
      shownKeys (.insertion Item.Before) "v" (bothWrite 1 1).reverse = ["l", "k"] :=
  ⟨nodupKeys_bothWrite 1 1, List.reverse_perm _, by decide, by decide, by decide⟩

end ChatVC

end MagicChat
