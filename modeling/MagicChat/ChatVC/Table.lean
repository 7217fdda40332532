import MagicChat.ChatVC.Items

/-!
# The table of the chat screen

The rows of the table lag behind the items by the messages delivered since it
last reloaded (`Displayed`), while the callbacks compute rows from the items. So
the rules of the table view are kept by a run if and only if none of the
callbacks but the reload comes in such a gap, nor a sent location in an empty
chat (`consistent_iff_upToDate`).
-/

namespace MagicChat

namespace ChatVC

/-- A callback that calls the table view comes when the table has seen all that
    has been delivered; that of a sent location, when something has been. -/
def UpToDate (s : ChatVC) : Action → Prop
  | .runBlock i => ∀ row, s.mainQueue[i]? = some (.reloadRow row) → s.unseen = 0
  | .showKeyboard => s.unseen = 0
  | .animated => s.unseen = 0
  | .locationSent => s.unseen = 0 ∧ s.delivered ≠ []
  | _ => True

/-- The table lags behind the items by the unseen deliveries, and the blocks
    reload rows of items. -/
structure Displayed (s : ChatVC) : Prop where
  rows : s.rows + s.unseen = s.items.length
  blocks : ∀ row, .reloadRow row ∈ s.mainQueue → row < s.items.length

variable {S : Sorter Item Item.Before} {validURL : String → Bool} {s t : ChatVC}

/-! ## The rows -/

theorem displayed_init : (machine S validURL).init.Displayed where
  rows := rfl
  blocks _ h := absurd h List.not_mem_nil

theorem Displayed.congr (h : s.Displayed) (hr : t.rows = s.rows) (hu : t.unseen = s.unseen)
    (hi : t.items.length = s.items.length)
    (hq : ∀ row, .reloadRow row ∈ t.mainQueue → .reloadRow row ∈ s.mainQueue ∨
      row < s.items.length) : t.Displayed where
  rows := by rw [hr, hu, hi, h.rows]
  blocks row hrow := by
    rw [hi]
    rcases hq row hrow with hrow | hlt
    · exact h.blocks row hrow
    · exact hlt

theorem Displayed.perform (h : s.Displayed) (c : TableCall) : (s.perform c).Displayed where
  rows := by
    by_cases hc : c = .reloadData
    · simp [ChatVC.perform, hc]
    · simp [ChatVC.perform, hc, h.rows]
  blocks := h.blocks

theorem Displayed.scrollIfAny (h : s.Displayed) : s.scrollIfAny.Displayed := by
  rw [ChatVC.scrollIfAny]
  split_ifs
  · exact h
  · exact h.perform _

theorem Displayed.block (h : s.Displayed) (b : Block) : (s.block b).Displayed := by
  cases b with
  | reload =>
    rw [ChatVC.block]
    split_ifs
    · exact h
    · exact (h.perform _).perform _
  | reloadRow row => exact h.perform _

theorem Displayed.step {a : Action} (h : s.Displayed) (htr : s.Tracked) (ht : s.Step S a t) :
    t.Displayed := by
  cases ht with
  | deliver =>
    have hlen : ∀ m, (s.deliver S m).items.length = s.items.length + 1 := by simp [ChatVC.deliver]
    refine ⟨?_, fun row hrow => ?_⟩
    · rw [hlen, ← h.rows]
      rfl
    · rw [hlen]
      have hrow' : .reloadRow row ∈ s.mainQueue := by simpa [ChatVC.deliver] using hrow
      exact (h.blocks row hrow').trans (Nat.lt_succ_self _)
  | render => exact h.congr rfl rfl rfl fun _ hrow => .inl hrow
  | @store i image d hd =>
    -- The block is for the row captured, which the table has by now.
    refine h.congr rfl rfl (List.length_set ..) fun row hrow => ?_
    rcases List.mem_append.1 hrow with hrow | hrow
    · exact .inl hrow
    · obtain rfl := Block.reloadRow.inj (List.mem_singleton.1 hrow)
      exact .inr (htr.downloads d (List.mem_of_getElem? hd)).1
  | fail => exact h.congr rfl rfl rfl fun _ hrow => .inl hrow
  | @block i b hb =>
    refine (h.block b).congr rfl rfl rfl fun row hrow => .inl ?_
    rw [block_mainQueue]
    exact List.mem_of_mem_eraseIdx hrow
  | showKeyboard => exact h.scrollIfAny.congr rfl rfl rfl fun _ hrow => .inl hrow
  | hideKeyboard => exact h.congr rfl rfl rfl fun _ hrow => .inl hrow
  | animated => exact h.scrollIfAny.congr rfl rfl rfl fun _ hrow => .inl hrow
  | sendLocation => exact h.congr rfl rfl rfl fun _ hrow => .inl hrow
  | locationSent =>
    have hscroll : s.scrollToLast.Displayed := h.perform _
    exact hscroll.congr rfl rfl rfl fun _ hrow => .inl hrow

theorem displayed_of_reachable (h : (machine S validURL).Reachable s) : s.Displayed :=
  h.invariant (I := Displayed) displayed_init fun _ _ _ hr hi ht =>
    hi.step (tracked_of_reachable hr) (.of_step ht)

/-! ## The calls -/

/-- The last item has a row if there is one and the table has seen all. -/
theorem Displayed.consistent_scroll (h : s.Displayed) :
    Performed.Consistent ⟨.scrollToRow (s.items.length - 1), s.rows, s.items.length⟩ ↔
      s.unseen = 0 ∧ s.items ≠ [] := by
  have hrows := h.rows
  rw [← List.length_pos_iff]
  simp only [Performed.Consistent]
  omega

theorem Displayed.consistent_reloadRow (h : s.Displayed) {row : ℕ} (hrow : row < s.items.length) :
    Performed.Consistent ⟨.reloadRows row, s.rows, s.items.length⟩ ↔ s.unseen = 0 := by
  have hrows := h.rows
  simp only [Performed.Consistent]
  omega

/-- The step makes the calls `new`, which keep the rules of the table view if
    and only if `P` holds. -/
def Calls (s t : ChatVC) (P : Prop) : Prop :=
  ∃ new, t.performed = s.performed ++ new ∧ ((∀ e ∈ new, e.Consistent) ↔ P)

theorem calls_none {P : Prop} (h : t.performed = s.performed) (hP : P) : s.Calls t P :=
  ⟨[], by rw [h, List.append_nil], by simpa using hP⟩

theorem calls_one {P : Prop} {e : Performed} (h : t.performed = s.performed ++ [e])
    (he : e.Consistent ↔ P) : s.Calls t P :=
  ⟨[e], h, by simpa using he⟩

theorem Displayed.calls_scrollIfAny (h : s.Displayed) : s.Calls s.scrollIfAny (s.unseen = 0) := by
  have hrows := h.rows
  by_cases hs : s.items = []
  · refine calls_none (by rw [scrollIfAny_of_eq_nil hs]) ?_
    rw [hs, List.length_nil] at hrows
    omega
  · rw [scrollIfAny_of_ne_nil hs]
    exact calls_one rfl (h.consistent_scroll.trans (and_iff_left hs))

theorem Displayed.calls_block (h : s.Displayed) {i : ℕ} {b : Block}
    (hb : s.mainQueue[i]? = some b) : s.Calls (s.block b) (s.UpToDate (.runBlock i)) := by
  cases b with
  | reload =>
    have hup : s.UpToDate (.runBlock i) := fun row hrow => by simp [hb] at hrow
    by_cases hs : s.items = []
    · exact calls_none (by rw [block_reload_of_eq_nil hs]) hup
    · have hlen : 0 < s.items.length := List.length_pos_iff.2 hs
      refine ⟨[⟨.reloadData, s.rows, s.items.length⟩,
        ⟨.scrollToRow (s.items.length - 1), s.items.length, s.items.length⟩], ?_, ?_⟩
      · rw [block_reload_of_ne_nil hs]
        exact List.append_assoc ..
      · -- The table has read the items when it scrolls.
        refine iff_of_true (List.forall_mem_cons.2 ⟨trivial, List.forall_mem_singleton.2 ?_⟩) hup
        simp only [Performed.Consistent]
        omega
  | reloadRow row =>
    have hrow := h.blocks row (List.mem_of_getElem? hb)
    refine calls_one rfl ((h.consistent_reloadRow hrow).trans ?_)
    simp [UpToDate, hb]

/-- A step keeps the rules of the table view if and only if the callback is not
    too early. -/
theorem Displayed.calls_step {a : Action} (h : s.Displayed) (htr : s.Tracked) (ht : s.Step S a t) :
    s.Calls t (s.UpToDate a) := by
  cases ht with
  | block hb => exact h.calls_block hb
  | showKeyboard => exact h.calls_scrollIfAny
  | animated => exact h.calls_scrollIfAny
  | locationSent =>
    refine calls_one rfl (h.consistent_scroll.trans (and_congr_right' (not_congr ?_)))
    rw [← List.length_eq_zero_iff, htr.length_items, List.length_eq_zero_iff]
  | _ => exact calls_none rfl trivial

/-- A run keeps the rules of the table view if and only if none of its callbacks
    comes too early. -/
theorem consistent_iff_upToDate {as : List Action} (h : (machine S validURL).exec as = some s) :
    (∀ e ∈ s.performed, e.Consistent) ↔ (machine S validURL).Along UpToDate as := by
  refine Machine.exec_induction (motive := fun as s =>
    (∀ e ∈ s.performed, e.Consistent) ↔ (machine S validURL).Along UpToDate as) ?_ ?_ h
  · exact ⟨fun _ => Machine.along_nil, fun _ e he => absurd he List.not_mem_nil⟩
  · intro as s a t hs ih ht
    obtain ⟨new, hnew, hcons⟩ := (displayed_of_reachable ⟨as, hs⟩).calls_step
      (tracked_of_reachable ⟨as, hs⟩) (.of_step ht)
    have halong : (machine S validURL).Along UpToDate (as ++ [a]) ↔
        (machine S validURL).Along UpToDate as ∧ s.UpToDate a := by
      simp [Machine.along_concat, hs]
    rw [hnew, List.forall_mem_append, ih, hcons, halong]

/-- A message is delivered and shown, the keyboard comes, a location is sent. -/
def shown : List Action :=
  [.deliver ⟨.text, .field (.string "hi"), .sender, 1, true⟩, .runBlock 0, .showKeyboard,
    .animated, .sendLocation, .locationSent]

/-- The callbacks of `shown` come in time. -/
theorem upToDate_shown :
    (machine (.insertion Item.Before) fun _ => true).Along UpToDate shown := by
  obtain ⟨s, hs⟩ : ∃ s, (machine (.insertion Item.Before) fun _ => true).exec shown = some s ∧
    ∀ e ∈ s.performed, e.Consistent := ⟨_, rfl, by decide⟩
  exact (consistent_iff_upToDate hs.1).1 hs.2

/-- The completion of the first location scrolls to the row before the first;
    the keyboard, before the reload, to a row that the table does not have. -/
theorem not_consistent :
    (∃ s e, (machine (.insertion Item.Before) fun _ => true).exec [.sendLocation, .locationSent] =
      some s ∧ e ∈ s.performed ∧ ¬e.Consistent) ∧
    ∃ s e, (machine (.insertion Item.Before) fun _ => true).exec
      [.deliver ⟨.text, .field (.string "hi"), .sender, 1, true⟩, .showKeyboard] = some s ∧
      e ∈ s.performed ∧ ¬e.Consistent :=
  ⟨⟨_, ⟨.scrollToRow (-1), 0, 0⟩, rfl, by decide, by decide⟩,
    ⟨_, ⟨.scrollToRow 0, 0, 1⟩, rfl, by decide, by decide⟩⟩

end ChatVC

end MagicChat
