import MagicChat.ConversationsVC.Basic
import MagicChat.Library.Lists
import MagicChat.Library.Machine

/-!
# The listing

`showConversations` and the list of conversations it keeps up to date, as a
machine on its own: the children of `users/x/conversations` are added, the
profiles of the peers come, or never do, and the observers of the conversations
deliver their messages, one after the other, all in any order. Each message
changes a conversation object that the list may already hold, and only then is
the list sorted anew.

In every state (`Ordered`, `Tracked`) the items are sorted, refer to different
conversations, and these are with different peers; and right after a message
they are all the conversations there are.
-/

namespace MagicChat

/-- The state of `showConversations` and of the list it reports to. -/
structure Listing where
  /-- The keys of the children added so far. -/
  peers : List UserID := []
  /-- The profiles asked for that have not come. -/
  profiles : List UserID := []
  screen : ConversationsVC := {}

namespace ConversationsVC

variable (s : ConversationsVC)

/-- The timestamp by which the conversation object `k` is sorted. -/
def timestamp (k : ℕ) : Int := s.conversations[k]?.elim 0 fun c => c.lastMessage.timestamp

/-- The items, as conversations. -/
def listed : List Conversation := s.items.filterMap fun k => s.conversations[k]?

/-- The peers of the items, in order. -/
def listedUsers : List UserID := s.listed.map Conversation.user

end ConversationsVC

namespace Listing

/-- What happens to a listing. -/
inductive Action
  /-- The callback of `.childAdded`, with a new key. -/
  | childAdded (peer : UserID) (snap : Value)
  /-- The completion of `info(forUserID:)`. -/
  | info (peer : UserID)
  /-- The completion of `downloadLastMessage`, for the conversation object `k`. -/
  | receive (k : ℕ) (message : Message)
  /-- A block of the main queue runs. -/
  | runBlock
  /-- A row of the table is selected. -/
  | didSelectRow (row : ℕ)
  deriving DecidableEq

/-- The peer whose profile comes, if the action is that. -/
def Action.completed : Action → Option UserID
  | .info peer => some peer
  | _ => none

variable (s : Listing)

/-- The callback of `.childAdded`, in `showConversations`. -/
def childAdded (peer : UserID) (snap : Value) : Listing :=
  { s with
    peers := s.peers ++ [peer]
    profiles := if snap.location.isSome then s.profiles ++ [peer] else s.profiles }

/-- The completion of `info(forUserID:)`, in `showConversations`. -/
def info (peer : UserID) : Listing :=
  { s with
    profiles := s.profiles.erase peer
    screen := s.screen.append { user := peer, lastMessage := emptyMessage } }

/-- One step of a listing. -/
def step (T : Sorter (Int × ℕ) Later) : Action → Option Listing
  | .childAdded peer snap => if peer ∈ s.peers then none else some (s.childAdded peer snap)
  | .info peer => if peer ∈ s.profiles then some (s.info peer) else none
  | .receive k message =>
    if k < s.screen.conversations.length then
      some { s with screen := s.screen.receive T k message }
    else none
  | .runBlock => s.screen.runBlock.map fun screen => { s with screen }
  | .didSelectRow row => if row < s.screen.displayed.length then some s else none

/-- The machine of a listing. -/
def machine (T : Sorter (Int × ℕ) Later) : Machine Listing Action where
  init := {}
  step s := s.step T

/-- What a step from `s` can lead to. -/
inductive Step (T : Sorter (Int × ℕ) Later) : Action → Listing → Prop
  | childAdded {peer : UserID} {snap : Value} : peer ∉ s.peers →
    Step T (.childAdded peer snap) (s.childAdded peer snap)
  | info {peer : UserID} : peer ∈ s.profiles → Step T (.info peer) (s.info peer)
  | receive {k : ℕ} {message : Message} : k < s.screen.conversations.length →
    Step T (.receive k message) { s with screen := s.screen.receive T k message }
  | runBlock {screen : ConversationsVC} : s.screen.runBlock = some screen →
    Step T .runBlock { s with screen }
  | didSelectRow {row : ℕ} : row < s.screen.displayed.length → Step T (.didSelectRow row) s

variable {s} {t : Listing} {T : Sorter (Int × ℕ) Later}

theorem Step.of_step {a : Action} (h : (machine T).step s a = some t) : s.Step T a t := by
  change s.step T a = some t at h
  cases a with
  | childAdded peer snap =>
    rw [step] at h
    split_ifs at h with hp
    exact Option.some.inj h ▸ .childAdded hp
  | info peer =>
    rw [step] at h
    split_ifs at h with hp
    exact Option.some.inj h ▸ .info hp
  | receive k message =>
    rw [step] at h
    split_ifs at h with hk
    exact Option.some.inj h ▸ .receive hk
  | runBlock =>
    obtain ⟨screen, hs, rfl⟩ := Option.map_eq_some_iff.1 h
    exact .runBlock hs
  | didSelectRow row =>
    rw [step] at h
    split_ifs at h with hr
    exact Option.some.inj h ▸ .didSelectRow hr

end Listing

namespace ConversationsVC

variable {s t : ConversationsVC} {T : Sorter (Int × ℕ) Later}

/-! ## The items -/

/-- The items refer to conversations, each once, and are sorted; the rows of the
    table are items. -/
structure Ordered (s : ConversationsVC) : Prop where
  range : ∀ k ∈ s.items, k < s.conversations.length
  nodup : s.items.Nodup
  sorted : s.items.Pairwise fun j k => s.timestamp k ≤ s.timestamp j
  displayed : s.displayed ⊆ s.items
  nodup_displayed : s.displayed.Nodup

/-- The list shows all the conversations there are. -/
theorem items_fetchData_perm :
    (s.fetchData T).items.Perm (List.range s.conversations.length) := by
  refine ((T.perm _).map Prod.snd).trans (.of_eq ?_)
  rw [List.map_map]
  exact (List.zipIdx_map_snd 0 s.conversations).trans List.range_eq_range'.symm

/-- The items are in any order that the sort establishes. -/
theorem pairwise_items_fetchData {P : Int × ℕ → Int × ℕ → Prop}
    (h : ∀ l, (T.sort l).Pairwise P) :
    (s.fetchData T).items.Pairwise fun j k => P (s.timestamp j, j) (s.timestamp k, k) := by
  refine List.pairwise_map.2 ((h _).imp_of_mem fun {a b} ha hb hab => ?_)
  have hstamp : ∀ e ∈ T.sort (s.conversations.zipIdx.map fun e => (e.1.lastMessage.timestamp, e.2)),
      e = (s.timestamp e.2, e.2) := by
    intro e he
    obtain ⟨⟨c, k⟩, hc, rfl⟩ := List.mem_map.1 (T.mem_sort.1 he)
    simp [timestamp, List.mem_zipIdx_iff_getElem?.1 hc]
  rwa [← hstamp a ha, ← hstamp b hb]

theorem items_fetchData_sorted :
    (s.fetchData T).items.Pairwise fun j k => s.timestamp k ≤ s.timestamp j :=
  pairwise_items_fetchData T.pairwise

theorem mem_items_receive {j k : ℕ} {message : Message} :
    j ∈ (s.receive T k message).items ↔ j < s.conversations.length := by
  rw [receive, items_fetchData_perm.mem_iff, List.mem_range, setLastMessage, List.length_modify]

theorem Ordered.receive (h : s.Ordered) {k : ℕ} {message : Message} :
    (s.receive T k message).Ordered where
  range j hj := by
    rw [length_conversations_receive]
    exact mem_items_receive.1 hj
  nodup := items_fetchData_perm.nodup_iff.2 List.nodup_range
  sorted := items_fetchData_sorted
  displayed j hj := mem_items_receive.2 (h.range j (h.displayed hj))
  nodup_displayed := h.nodup_displayed

theorem timestamp_append {c : Conversation} {k : ℕ} (hk : k < s.conversations.length) :
    (s.append c).timestamp k = s.timestamp k := by
  rw [timestamp, append, List.getElem?_append_left hk, timestamp]

theorem Ordered.append (h : s.Ordered) {c : Conversation} : (s.append c).Ordered where
  range k hk := by
    rw [length_conversations_append]
    exact Nat.lt_succ_of_lt (h.range k hk)
  nodup := h.nodup
  sorted := h.sorted.imp_of_mem fun {j k} hj hk hjk => by
    rwa [timestamp_append (h.range j hj), timestamp_append (h.range k hk)]
  displayed := h.displayed
  nodup_displayed := h.nodup_displayed

theorem runBlock_items (h : s.runBlock = some t) :
    t.items = s.items ∧ t.displayed = s.items := by
  rw [runBlock] at h
  by_cases hq : s.mainQueue = 0
  · simp [hq] at h
  · rw [if_neg hq] at h
    exact Option.some.inj h ▸ ⟨rfl, rfl⟩

theorem Ordered.runBlock (h : s.Ordered) (ht : s.runBlock = some t) : t.Ordered where
  range := by
    rw [runBlock_conversations ht, (runBlock_items ht).1]
    exact h.range
  nodup := (runBlock_items ht).1 ▸ h.nodup
  sorted := by
    simp only [timestamp, runBlock_conversations ht, (runBlock_items ht).1]
    exact h.sorted
  displayed := by
    rw [(runBlock_items ht).1, (runBlock_items ht).2]
    exact List.Subset.refl _
  nodup_displayed := (runBlock_items ht).2 ▸ h.nodup

/-! ## The listed peers -/

theorem listedUsers_eq :
    s.listedUsers = s.items.filterMap fun k => (s.conversations.map Conversation.user)[k]? := by
  simp only [listedUsers, listed, List.map_filterMap, List.getElem?_map]

theorem mem_listedUsers {user : UserID} :
    user ∈ s.listedUsers ↔
      ∃ k ∈ s.items, (s.conversations.map Conversation.user)[k]? = some user := by
  rw [listedUsers_eq, List.mem_filterMap]

theorem Ordered.pairwise_listed (h : s.Ordered) :
    s.listed.Pairwise fun c d => d.lastMessage.timestamp ≤ c.lastMessage.timestamp := by
  refine List.pairwise_filterMap.2 (h.sorted.imp fun {j k} hjk c hc d hd => ?_)
  simpa [timestamp, hc, hd] using hjk

/-- No item is missing among the conversations listed. -/
theorem Ordered.length_listed (h : s.Ordered) : s.listed.length = s.items.length := by
  rw [listed, List.filterMap_length_eq_length]
  intro k hk
  simpa using h.range k hk

theorem Ordered.nodup_listedUsers (h : s.Ordered)
    (hu : (s.conversations.map Conversation.user).Nodup) : s.listedUsers.Nodup := by
  rw [listedUsers_eq]
  refine h.nodup.filterMap fun j k user hj hk => ?_
  obtain ⟨hlt, _⟩ := List.getElem?_eq_some_iff.1 hj
  exact (List.getElem?_inj hlt hu).1 (hj.trans hk.symm)

/-- Sorting the list brings every conversation into it. -/
theorem listed_fetchData_perm : (s.fetchData T).listed.Perm s.conversations :=
  (items_fetchData_perm.filterMap _).trans (.of_eq (Lists.filterMap_range_getElem? _))

theorem listedUsers_fetchData_perm :
    (s.fetchData T).listedUsers.Perm (s.conversations.map Conversation.user) :=
  listed_fetchData_perm.map Conversation.user

/-- Right after a message the list shows every peer there is. -/
theorem listedUsers_receive_perm {k : ℕ} {message : Message} :
    (s.receive T k message).listedUsers.Perm (s.conversations.map Conversation.user) :=
  listedUsers_fetchData_perm.trans (.of_eq (receive_users T k message))

/-- A message loses no peer from the list. -/
theorem listedUsers_subset_receive {k : ℕ} {message : Message} :
    s.listedUsers ⊆ (s.receive T k message).listedUsers := fun user hu => by
  obtain ⟨j, _, hj⟩ := mem_listedUsers.1 hu
  exact listedUsers_receive_perm.mem_iff.2 (List.mem_of_getElem? hj)

theorem Ordered.listedUsers_append (h : s.Ordered) {c : Conversation} :
    (s.append c).listedUsers = s.listedUsers := by
  rw [listedUsers_eq, listedUsers_eq]
  refine List.filterMap_congr fun k hk => ?_
  have hlt : k < (s.conversations.map Conversation.user).length := by simpa using h.range k hk
  rw [append_users, List.getElem?_append_left hlt]

theorem listedUsers_runBlock (h : s.runBlock = some t) : t.listedUsers = s.listedUsers := by
  rw [listedUsers, listed, runBlock_conversations h, (runBlock_items h).1, ← listed, ← listedUsers]

end ConversationsVC

namespace Listing

variable {s t : Listing} {T : Sorter (Int × ℕ) Later}

/-! ## The peers -/

/-- The peers whose profiles have been asked for: those that have come are the
    peers of the conversations. -/
def asked (s : Listing) : List UserID :=
  s.profiles ++ s.screen.conversations.map Conversation.user

/-- No peer is asked for twice, and the screen is in order. -/
structure Tracked (s : Listing) : Prop where
  subset : s.asked ⊆ s.peers
  nodup : s.asked.Nodup
  ordered : s.screen.Ordered

theorem asked_childAdded (s : Listing) (peer : UserID) (snap : Value) :
    (s.childAdded peer snap).asked.Perm
      (if snap.location.isSome then peer :: s.asked else s.asked) := by
  by_cases hl : snap.location.isSome = true
  · simp only [asked, childAdded, if_pos hl, List.append_assoc, List.singleton_append]
    exact List.perm_middle
  · simp only [asked, childAdded, if_neg hl]
    exact .refl _

theorem asked_info {peer : UserID} (hp : peer ∈ s.profiles) : (s.info peer).asked.Perm s.asked := by
  simp only [asked, info, ConversationsVC.append_users]
  rw [← List.append_assoc]
  refine List.perm_append_comm.trans ?_
  rw [← List.append_assoc]
  exact (List.perm_cons_erase hp).symm.append_right _

theorem tracked_init : (machine T).init.Tracked where
  subset := List.nil_subset _
  nodup := List.nodup_nil
  ordered := ⟨fun _ h => absurd h List.not_mem_nil, .nil, .nil, List.nil_subset _, .nil⟩

theorem Tracked.childAdded (h : s.Tracked) {peer : UserID} {snap : Value} (hp : peer ∉ s.peers) :
    (s.childAdded peer snap).Tracked where
  subset := by
    intro user hu
    have hu' := (asked_childAdded s peer snap).mem_iff.1 hu
    rw [Listing.childAdded, List.mem_append, List.mem_singleton]
    split_ifs at hu' with hl
    · exact (List.mem_cons.1 hu').symm.imp_left fun hu => h.subset hu
    · exact .inl (h.subset hu')
  nodup := by
    rw [(asked_childAdded s peer snap).nodup_iff]
    split_ifs with hl
    · exact List.nodup_cons.2 ⟨fun hu => hp (h.subset hu), h.nodup⟩
    · exact h.nodup
  ordered := h.ordered

theorem Tracked.step {a : Action} (h : s.Tracked) (ht : s.Step T a t) : t.Tracked := by
  cases ht with
  | childAdded hp => exact h.childAdded hp
  | info hp =>
    exact ⟨fun user hu => h.subset ((asked_info hp).mem_iff.1 hu),
      (asked_info hp).nodup_iff.2 h.nodup, h.ordered.append⟩
  | receive hk =>
    refine ⟨?_, ?_, h.ordered.receive⟩
    · rw [asked, ConversationsVC.receive_users]
      exact h.subset
    · rw [asked, ConversationsVC.receive_users]
      exact h.nodup
  | runBlock hs =>
    refine ⟨?_, ?_, h.ordered.runBlock hs⟩
    · rw [asked, ConversationsVC.runBlock_conversations hs]
      exact h.subset
    · rw [asked, ConversationsVC.runBlock_conversations hs]
      exact h.nodup
  | didSelectRow => exact h

theorem tracked_of_reachable (h : (machine T).Reachable s) : s.Tracked :=
  h.invariant (I := Tracked) tracked_init fun _ _ _ _ hi ht => hi.step (.of_step ht)

/-- The peers of different conversations are different. -/
theorem Tracked.nodup_users (h : s.Tracked) :
    (s.screen.conversations.map Conversation.user).Nodup := h.nodup.of_append_right

/-- The conversations are with the peers whose profiles have come in the run. -/
theorem users_eq_completed {as : List Action} (h : (machine T).exec as = some s) :
    s.screen.conversations.map Conversation.user = as.filterMap Action.completed := by
  refine Machine.exec_induction (motive := fun as (s : Listing) =>
    s.screen.conversations.map Conversation.user = as.filterMap Action.completed) rfl ?_ h
  intro as s a t _ ih ht
  rw [List.filterMap_append, ← ih]
  cases Step.of_step ht with
  | childAdded => exact (List.append_nil _).symm
  | info => exact List.map_append
  | receive => exact (ConversationsVC.receive_users ..).trans (List.append_nil _).symm
  | runBlock hs =>
    rw [ConversationsVC.runBlock_conversations hs]
    exact (List.append_nil _).symm
  | didSelectRow => exact (List.append_nil _).symm

/-- No step loses a peer from the list. -/
theorem Tracked.listedUsers_subset {a : Action} (h : s.Tracked) (ht : s.Step T a t) :
    s.screen.listedUsers ⊆ t.screen.listedUsers := by
  cases ht with
  | childAdded => exact List.Subset.refl _
  | info => exact h.ordered.listedUsers_append.symm ▸ List.Subset.refl _
  | receive => exact ConversationsVC.listedUsers_subset_receive
  | runBlock hs => exact ConversationsVC.listedUsers_runBlock hs ▸ List.Subset.refl _
  | didSelectRow => exact List.Subset.refl _

/-- In every state of every run, the items are sorted by the timestamps of their
    last messages, the latest first, and are conversations with different peers;
    right after a message they are with exactly the peers whose profiles have
    come; and a peer who has been listed stays. -/
theorem items_sorted_complete {as : List Action} (h : (machine T).exec as = some s) :
    (s.screen.listed.Pairwise fun c d => d.lastMessage.timestamp ≤ c.lastMessage.timestamp) ∧
      s.screen.listed.length = s.screen.items.length ∧
      (s.screen.listed.map Conversation.user).Nodup ∧
      (∀ p k message, as = p ++ [.receive k message] →
        (s.screen.listed.map Conversation.user).Perm (as.filterMap Action.completed)) ∧
      ∀ p r, p <+: as → (machine T).exec p = some r →
        r.screen.listed.map Conversation.user ⊆ s.screen.listed.map Conversation.user := by
  have htr : s.Tracked := tracked_of_reachable ⟨as, h⟩
  refine ⟨htr.ordered.pairwise_listed, htr.ordered.length_listed,
    htr.ordered.nodup_listedUsers htr.nodup_users, ?_, ?_⟩
  · -- A message sorts all the objects there are, one for each profile that has come.
    rintro p k message rfl
    rw [← users_eq_completed h]
    obtain ⟨r, _, ht⟩ := Machine.exec_concat_eq_some.1 h
    cases Step.of_step ht with
    | receive =>
      rw [ConversationsVC.receive_users]
      exact ConversationsVC.listedUsers_receive_perm
  · exact fun p r hp hr => Machine.rel_of_isPrefix
      (R := fun r s => r.screen.listedUsers ⊆ s.screen.listedUsers)
      (fun _ => List.Subset.refl _) (fun _ _ _ => List.Subset.trans)
      (fun _ _ _ hs ht => (tracked_of_reachable hs).listedUsers_subset (.of_step ht)) hp hr h

/-- The profiles of two peers come in the other order, and a message of each. -/
def twoPeers : List Action :=
  [.childAdded "p" (.pointer "K"), .childAdded "q" (.pointer "L"), .info "q", .info "p",
    .receive 0 ⟨.text, .field (.string "hi"), .sender, 5, true⟩,
    .receive 1 ⟨.text, .field (.string "hello"), .sender, 7, true⟩]

/-- The one who wrote last is listed first. -/
theorem items_twoPeers : ∃ s, (machine (.insertion Later)).exec twoPeers = some s ∧
    s.screen.listed.map Conversation.user = ["p", "q"] ∧
    (s.screen.listed.map Conversation.user).Perm (twoPeers.filterMap Action.completed) := by
  obtain ⟨s, hs, hlisted⟩ : ∃ s, (machine (.insertion Later)).exec twoPeers = some s ∧
    s.screen.listed.map Conversation.user = ["p", "q"] := ⟨_, rfl, by decide⟩
  exact ⟨s, hs, hlisted, (items_sorted_complete hs).2.2.2.1 (twoPeers.take 5) 1 _ rfl⟩

end Listing

end MagicChat
