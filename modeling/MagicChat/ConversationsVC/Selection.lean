import MagicChat.ConversationsVC.Listing

/-!
# Selecting a conversation

A message reorders the items at once, and the table only when the block that it
has left on the main queue runs. In between the rows on the screen are those of
the last reload, and a selected row is looked up in the new items.

So a selection opens the conversation that its row shows as long as no message
moves a displayed row (`KeepsRows`): a displayed conversation may be sorted
after none but those displayed above it. Where it may, some sort of the items
brings another conversation to its row.
-/

namespace MagicChat

/-- What the selection of a row does. -/
inductive Selection
  | nothing
  /-- The segue `showSelected`, with its sender. -/
  | showSelected (user : UserID)
  /-- The row is no item. -/
  | outOfRange
  deriving DecidableEq

namespace ConversationsVC

variable (s : ConversationsVC)

/-- `tableView(_:didSelectRowAt:)`. -/
def didSelectRow (row : ℕ) : Selection :=
  if s.items.isEmpty then .nothing
  else
    match s.items[row]?.bind fun k => s.conversations[k]? with
    | some conversation => .showSelected conversation.user
    | none => .outOfRange

/-- The user whose conversation the table shows in a row. -/
def shown (row : ℕ) : Option UserID :=
  (s.displayed[row]?.bind fun k => s.conversations[k]?).map Conversation.user

/-- Every row of the table opens the conversation that it shows. -/
def OpensShown : Prop :=
  ∀ row < s.displayed.length, ∃ user, s.shown row = some user ∧
    s.didSelectRow row = .showSelected user

/-- A message for the object `k` keeps the displayed rows: with its timestamp in
    place of the old one, the conversation in a row is later than any other but
    those in the rows above. -/
def KeepsRows (k : ℕ) (message : Message) : Prop :=
  ∀ row, ∀ hrow : row < s.displayed.length, ∀ j < s.conversations.length,
    j ∉ s.displayed.take (row + 1) →
    (s.setLastMessage k message).timestamp j <
      (s.setLastMessage k message).timestamp s.displayed[row]

instance (k : ℕ) (message : Message) : Decidable (s.KeepsRows k message) :=
  inferInstanceAs (Decidable (∀ row, ∀ _ : row < s.displayed.length, ∀ j < _, _ → _ < _))

variable {s t : ConversationsVC}

theorem shown_eq_some_iff {row : ℕ} {user : UserID} :
    s.shown row = some user ↔
      ∃ k, s.displayed[row]? = some k ∧
        (s.conversations.map Conversation.user)[k]? = some user := by
  simp only [shown, Option.map_eq_some_iff, Option.bind_eq_some_iff, List.getElem?_map]
  constructor
  · rintro ⟨c, ⟨k, hk, hc⟩, hu⟩
    exact ⟨k, hk, c, hc, hu⟩
  · rintro ⟨k, hk, c, hc, hu⟩
    exact ⟨c, ⟨k, hk, hc⟩, hu⟩

theorem didSelectRow_eq_iff {row : ℕ} {user : UserID} :
    s.didSelectRow row = .showSelected user ↔
      ∃ k, s.items[row]? = some k ∧ (s.conversations.map Conversation.user)[k]? = some user := by
  rw [didSelectRow]
  by_cases hs : s.items = []
  · simp [hs]
  · rw [if_neg (List.isEmpty_iff.not.2 hs)]
    cases hc : s.items[row]?.bind fun k => s.conversations[k]? with
    | none =>
      refine iff_of_false nofun ?_
      rintro ⟨k, hk, hu⟩
      rw [hk, Option.bind_some] at hc
      simp [hc] at hu
    | some c =>
      obtain ⟨k, hk, hck⟩ := Option.bind_eq_some_iff.1 hc
      simp [hk, hck]

/-- The rows open what they show where the table shows the first items. -/
theorem Ordered.opensShown_iff (h : s.Ordered)
    (hu : (s.conversations.map Conversation.user).Nodup) :
    s.OpensShown ↔ s.displayed <+: s.items := by
  rw [List.prefix_iff_getElem?]
  refine forall₂_congr fun row hrow => ?_
  have hdisplayed : s.displayed[row]? = some s.displayed[row] := List.getElem?_eq_getElem hrow
  constructor
  · rintro ⟨user, hshown, hselect⟩
    obtain ⟨i, hi, hui⟩ := shown_eq_some_iff.1 hshown
    obtain ⟨j, hj, huj⟩ := didSelectRow_eq_iff.1 hselect
    obtain ⟨hlt, _⟩ := List.getElem?_eq_some_iff.1 hui
    rw [hj, ← (List.getElem?_inj hlt hu).1 (hui.trans huj.symm), ← hi, hdisplayed]
  · intro hitem
    have hlt := h.range _ (h.displayed (List.getElem_mem hrow))
    have huser : (s.conversations.map Conversation.user)[s.displayed[row]]? =
        some s.conversations[s.displayed[row]].user := by simp [hlt]
    exact ⟨_, shown_eq_some_iff.2 ⟨_, hdisplayed, huser⟩, didSelectRow_eq_iff.2 ⟨_, hitem, huser⟩⟩

/-- A message that keeps the displayed rows leaves them at the top of the items. -/
theorem Ordered.isPrefix_receive (h : s.Ordered) {T : Sorter (Int × ℕ) Later} {k : ℕ}
    {message : Message} (hk : s.KeepsRows k message) :
    s.displayed <+: (s.receive T k message).items := by
  have hr : (s.receive T k message).Ordered := h.receive
  refine Lists.isPrefix_of_pairwise hr.sorted hr.nodup h.nodup_displayed hr.displayed ?_
  intro row i hi j hj hjd
  obtain ⟨hrow, rfl⟩ := List.getElem?_eq_some_iff.1 hi
  exact not_le.2 (hk row hrow j (mem_items_receive.1 hj) hjd)

/-- A message that does not keep them: some sort brings up another conversation. -/
theorem exists_sorter_of_not_keepsRows {k : ℕ} {message : Message}
    (hk : ¬s.KeepsRows k message) :
    ∃ T, ¬s.displayed <+: (s.receive T k message).items := by
  simp only [KeepsRows, not_forall, not_lt] at hk
  obtain ⟨row, hrow, j, hj, hjd, hle⟩ := hk
  refine ⟨.favouring Later fun e => e.2 = j, fun hd => hjd ?_⟩
  have hmem : s.displayed[row] ∈ s.displayed.take (row + 1) :=
    List.mem_take_iff_getElem.2 ⟨row, by omega, rfl⟩
  have hne : s.displayed[row] ≠ j := fun he => hjd (he ▸ hmem)
  have hfav := pairwise_items_fetchData (s := s.setLastMessage k message)
    (Sorter.pairwise_favouring Later fun e => e.2 = j)
  refine Lists.mem_take_of_isPrefix hfav hd (List.getElem?_eq_getElem hrow)
    (mem_items_receive.2 hj) ?_ hne.symm
  exact fun hbefore => hne (hbefore.2 hle rfl)

/-- The sorts keep what the rows open, whichever they are, if and only if the
    message keeps the displayed rows. -/
theorem Ordered.opensShown_receive_iff (h : s.Ordered)
    (hu : (s.conversations.map Conversation.user).Nodup) {k : ℕ} {message : Message} :
    (∀ T, (s.receive T k message).OpensShown) ↔ s.KeepsRows k message := by
  have hiff : ∀ T, (s.receive T k message).OpensShown ↔
      s.displayed <+: (s.receive T k message).items := fun T =>
    h.receive.opensShown_iff ((receive_users T k message).symm ▸ hu)
  simp only [hiff]
  constructor
  · intro hall
    by_contra hk
    obtain ⟨T, hT⟩ := exists_sorter_of_not_keepsRows hk
    exact hT (hall T)
  · exact fun hk T => h.isPrefix_receive hk

end ConversationsVC

namespace Listing

/-- The step keeps the rows of the table. -/
def KeepsRows (s : Listing) : Action → Prop
  | .receive k message => s.screen.KeepsRows k message
  | _ => True

variable {s t : Listing} {T : Sorter (Int × ℕ) Later}

/-- What the rows open is kept by a step that keeps the rows. -/
theorem isPrefix_step {a : Action} (hr : (machine T).Reachable s)
    (h : s.screen.displayed <+: s.screen.items) (ha : s.KeepsRows a) (ht : s.Step T a t) :
    t.screen.displayed <+: t.screen.items := by
  cases ht with
  | childAdded => exact h
  | info => exact h
  | receive => exact (tracked_of_reachable hr).ordered.isPrefix_receive ha
  | runBlock hs =>
    obtain ⟨hitems, hdisplayed⟩ := ConversationsVC.runBlock_items hs
    exact (hdisplayed.trans hitems.symm) ▸ List.prefix_rfl
  | didSelectRow => exact h

/-- In a run whose messages keep the displayed rows, every row of the table opens
    the conversation that it shows, in every state; and in any state, the next
    message keeps it so under every sort if and only if it keeps the rows. -/
theorem opensShown_of_keepsRows {as : List Action} (h : (machine T).exec as = some s) :
    ((machine T).Along KeepsRows as → s.screen.OpensShown) ∧
      ∀ k message, (∀ T, (s.screen.receive T k message).OpensShown) ↔
        s.KeepsRows (.receive k message) := by
  have htr : s.Tracked := tracked_of_reachable ⟨as, h⟩
  refine ⟨fun hC => ?_, fun k message => htr.ordered.opensShown_receive_iff htr.nodup_users⟩
  refine (htr.ordered.opensShown_iff htr.nodup_users).2 ?_
  exact hC.invariant (I := fun s => s.screen.displayed <+: s.screen.items) List.prefix_rfl
    (fun s a t hr hi ha ht => isPrefix_step hr hi ha (.of_step ht)) h

/-- Two conversations are listed and shown, and then a message comes for the
    second one, with the given timestamp. -/
def thenMessage (timestamp : Int) : List Action :=
  [.childAdded "p" (.pointer "K"), .childAdded "q" (.pointer "L"), .info "p", .info "q",
    .receive 0 ⟨.text, .field (.string "hi"), .sender, 2, true⟩,
    .receive 1 ⟨.text, .field (.string "hello"), .sender, 1, true⟩,
    .runBlock, .receive 1 ⟨.text, .field (.string "you there?"), .sender, timestamp, true⟩]

/-- An early message leaves the rows where they are. -/
theorem opensShown_thenMessage : ∃ s, (machine (.insertion Later)).exec (thenMessage 1) = some s ∧
    s.screen.OpensShown := by
  obtain ⟨s, hs⟩ : ∃ s, (machine (.insertion Later)).exec (thenMessage 1) = some s := ⟨_, rfl⟩
  refine ⟨s, hs, (opensShown_of_keepsRows hs).1 (Machine.along_iff_alongFrom.2 ?_)⟩
  refine .cons trivial rfl (.cons trivial rfl (.cons trivial rfl (.cons trivial rfl ?_)))
  refine .cons ?_ rfl (.cons ?_ rfl (.cons trivial rfl ⟨?_, fun _ _ => trivial⟩))
  all_goals
    change ConversationsVC.KeepsRows _ _ _
    decide

/-- A later one brings the second conversation to the first row: the row still
    shows the first conversation, and opens the second. -/
theorem not_opensShown_thenMessage :
    ∃ s, (machine (.insertion Later)).exec (thenMessage 3) = some s ∧
      s.screen.shown 0 = some "p" ∧ s.screen.didSelectRow 0 = .showSelected "q" ∧
      ¬s.screen.OpensShown := by
  obtain ⟨s, hs, hlen, hshown, hselect⟩ : ∃ s,
    (machine (.insertion Later)).exec (thenMessage 3) = some s ∧ 0 < s.screen.displayed.length ∧
      s.screen.shown 0 = some "p" ∧ s.screen.didSelectRow 0 = .showSelected "q" :=
    ⟨_, rfl, by decide, by decide, by decide⟩
  refine ⟨s, hs, hshown, hselect, fun hopens => ?_⟩
  obtain ⟨user, huser, hopen⟩ := hopens 0 hlen
  obtain rfl : "p" = user := Option.some.inj (hshown.symm.trans huser)
  exact absurd (hselect.symm.trans hopen) (by decide)

end Listing

end MagicChat
