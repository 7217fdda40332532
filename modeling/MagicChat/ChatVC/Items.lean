import MagicChat.ChatVC.Basic
import MagicChat.Library.Lists

/-!
# The items of the chat screen

The items are the delivered messages, sorted (`Faithful`), as long as every
download that completes finds its message still at the row it has captured
(`InPlace`), and no longer (`faithful_iff_inPlace`): a message stored at the row of
another one appears twice, and the other one is lost.

The rows captured are those of a moment ago: a delivery since then may have
sorted a message in before them.
-/

namespace MagicChat

namespace ChatVC

/-- The items are the delivered messages, each once, in the order of their timestamps. -/
def Faithful (s : ChatVC) : Prop := s.items.Perm s.delivered ∧ s.items.Pairwise Item.Before

/-- A download that completes finds its message at the row it has captured. -/
def InPlace (s : ChatVC) (a : Action) : Prop :=
  ∀ i image d, a = .downloaded i (.data image) → s.downloads[i]? = some d →
    s.items[d.row]? = some d.item

/-- The deliveries are numbered; the messages on the screen, and in the downloads,
    have been delivered. -/
structure Tracked (s : ChatVC) : Prop where
  ids : s.delivered.map Item.id = List.range s.delivered.length
  length_items : s.items.length = s.delivered.length
  items : s.items ⊆ s.delivered
  downloads : ∀ d ∈ s.downloads, d.row < s.items.length ∧ d.item ∈ s.delivered

variable {S : Sorter Item Item.Before} {validURL : String → Bool} {s t : ChatVC}

/-- No message is delivered twice. -/
theorem Tracked.nodup (h : s.Tracked) : s.delivered.Nodup :=
  List.Nodup.of_map Item.id (h.ids ▸ List.nodup_range)

/-- The number of a message is its place among the deliveries. -/
theorem Tracked.id_eq (h : s.Tracked) {i : ℕ} {x : Item} (hx : s.delivered[i]? = some x) :
    x.id = i := by
  have hid : (s.delivered.map Item.id)[i]? = some x.id := by rw [List.getElem?_map, hx]; rfl
  rw [h.ids, List.getElem?_eq_some_iff] at hid
  obtain ⟨_, he⟩ := hid
  rw [← he, List.getElem_range]

theorem tracked_init : (machine S validURL).init.Tracked where
  ids := rfl
  length_items := rfl
  items _ h := h
  downloads _ h := absurd h List.not_mem_nil

/-- Items and downloads are all that is tracked. -/
theorem Tracked.congr (h : s.Tracked) (hi : t.items = s.items) (hd : t.delivered = s.delivered)
    (hdl : ∀ d ∈ t.downloads, d ∈ s.downloads ∨ s.items[d.row]? = some d.item) : t.Tracked where
  ids := hd ▸ h.ids
  length_items := by rw [hi, hd, h.length_items]
  items := by rw [hi, hd]; exact h.items
  downloads d hdt := by
    rw [hi, hd]
    rcases hdl d hdt with hds | hitem
    · exact h.downloads d hds
    · obtain ⟨hlt, he⟩ := List.getElem?_eq_some_iff.1 hitem
      exact ⟨hlt, h.items (he ▸ List.getElem_mem hlt)⟩

theorem Tracked.deliver (h : s.Tracked) (message : Message) : (s.deliver S message).Tracked where
  ids := by
    simp only [ChatVC.deliver, List.map_append, List.map_singleton, List.length_append,
      List.length_singleton, List.range_succ, h.ids]
  length_items := by simp [ChatVC.deliver, h.length_items]
  items x hx := by
    rcases List.mem_append.1 ((S.mem_sort).1 hx) with hx | hx
    · exact List.mem_append_left _ (h.items hx)
    · exact List.mem_append_right _ hx
  downloads d hd := by
    obtain ⟨hlt, hmem⟩ := h.downloads d hd
    refine ⟨?_, List.mem_append_left _ hmem⟩
    have hlen : (s.deliver S message).items.length = s.items.length + 1 := by simp [ChatVC.deliver]
    omega

theorem Tracked.step {a : Action} (h : s.Tracked) (ht : s.Step S a t) : t.Tracked := by
  cases ht with
  | deliver => exact h.deliver _
  | render hstart =>
    refine h.congr rfl rfl fun d hd => ?_
    rcases List.mem_append.1 hd with hd | hd
    · exact .inl hd
    · exact .inr (hstart d hd)
  | @store i image d hd =>
    -- The item of the download replaces the one in its row.
    obtain ⟨hlt, hmem⟩ := h.downloads d (List.mem_of_getElem? hd)
    refine ⟨h.ids, (List.length_set ..).trans h.length_items, fun x hx => ?_, ?_⟩
    · rcases List.mem_or_eq_of_mem_set hx with hx | rfl
      · exact h.items hx
      · exact hmem
    · intro d' hd'
      obtain ⟨hlt', hmem'⟩ := h.downloads d' (List.mem_of_mem_eraseIdx hd')
      exact ⟨hlt'.trans_eq (List.length_set ..).symm, hmem'⟩
  | fail => exact h.congr rfl rfl fun d hd => .inl (List.mem_of_mem_eraseIdx hd)
  | block => exact h.congr (by simp) (by simp) fun d hd => .inl (by simpa using hd)
  | showKeyboard =>
    exact h.congr (by simp [ChatVC.showKeyboard]) (by simp [ChatVC.showKeyboard])
      fun d hd => .inl (by simpa [ChatVC.showKeyboard] using hd)
  | hideKeyboard => exact h.congr rfl rfl fun d hd => .inl hd
  | animated => exact h.congr (by simp) (by simp) fun d hd => .inl (by simpa using hd)
  | sendLocation => exact h.congr rfl rfl fun d hd => .inl hd
  | locationSent => exact h.congr rfl rfl fun d hd => .inl hd

theorem tracked_of_reachable (h : (machine S validURL).Reachable s) : s.Tracked :=
  h.invariant (I := Tracked) tracked_init fun _ _ _ _ hi ht => hi.step (.of_step ht)

/-! ## Completions in place -/

theorem Faithful.congr (h : s.Faithful) (hi : t.items = s.items) (hd : t.delivered = s.delivered) :
    t.Faithful := by
  rw [Faithful, hi, hd]
  exact h

/-- A delivery is sorted in. -/
theorem Faithful.deliver (h : s.Faithful) (message : Message) : (s.deliver S message).Faithful :=
  ⟨(S.perm _).trans (h.1.append_right _), S.pairwise _⟩

theorem Faithful.step {a : Action} (h : s.Faithful) (ha : s.InPlace a) (ht : s.Step S a t) :
    t.Faithful := by
  cases ht with
  | deliver => exact h.deliver _
  | render => exact h.congr rfl rfl
  | @store i image d hd => exact h.congr (Lists.set_of_getElem? (ha i image d rfl hd)) rfl
  | fail => exact h.congr rfl rfl
  | block => exact h.congr (by simp) (by simp)
  | showKeyboard => exact h.congr (by simp [ChatVC.showKeyboard]) (by simp [ChatVC.showKeyboard])
  | hideKeyboard => exact h.congr rfl rfl
  | animated => exact h.congr (by simp) (by simp)
  | sendLocation => exact h.congr rfl rfl
  | locationSent => exact h.congr rfl rfl

/-! ## Completions out of place -/

/-- A download that completes out of place breaks the items. -/
theorem Faithful.not_of_not_inPlace {a : Action} (h : s.Faithful) (htr : s.Tracked)
    (ha : ¬s.InPlace a) (ht : s.Step S a t) : ¬t.Faithful := by
  simp only [InPlace, not_forall] at ha
  obtain ⟨i, image, d, rfl, hd, hne⟩ := ha
  obtain ⟨hlt, hmem⟩ := htr.downloads d (List.mem_of_getElem? hd)
  cases ht with
  | @store _ _ d' hd' =>
    obtain rfl : d = d' := Option.some.inj (hd.symm.trans hd')
    rintro ⟨hperm, _⟩
    exact Lists.not_nodup_set (h.1.mem_iff.2 hmem) hlt hne (hperm.nodup_iff.2 htr.nodup)
  | fail hresult => exact absurd rfl (hresult image)

/-- In every state of a run the items are the delivered messages, sorted, if and
    only if every download of the run that completes finds its message at the
    row it has captured. -/
theorem faithful_iff_inPlace {as : List Action} (h : (machine S validURL).exec as = some s) :
    (∀ p, p <+: as → ∀ r, (machine S validURL).exec p = some r → r.Faithful) ↔
      (machine S validURL).Along InPlace as := by
  constructor
  · intro hall p a hp r hr
    by_contra hbreak
    have hr' : r.Faithful := hall p ((List.prefix_append _ _).trans hp) r hr
    obtain ⟨r', hr''⟩ := Machine.exec_of_isPrefix h hp
    obtain ⟨r₀, hr₀, hstep⟩ := Machine.exec_concat_eq_some.1 hr''
    obtain rfl : r = r₀ := Option.some.inj (hr.symm.trans hr₀)
    exact hr'.not_of_not_inPlace (tracked_of_reachable ⟨p, hr⟩) hbreak (.of_step hstep)
      (hall _ hp r' hr'')
  · intro hin p hp r hr
    exact (hin.of_isPrefix hp).invariant (I := Faithful) ⟨.refl _, .nil⟩
      (fun _ _ _ _ hi ha ht => hi.step ha (.of_step ht)) hr

/-- A photo is delivered and rendered; its download completes when a text, with
    the given timestamp, has come as well. -/
def photoThenText (timestamp : Int) : List Action :=
  [.deliver ⟨.photo, .field (.string "url"), .sender, 5, true⟩, .cellForRow 0,
    .deliver ⟨.text, .field (.string "hi"), .sender, timestamp, true⟩,
    .downloaded 0 (.data (some ⟨0, true⟩))]

/-- A later text leaves the photo where it was. -/
theorem faithful_photoThenText : ∃ s,
    (machine (.insertion Item.Before) fun _ => true).exec (photoThenText 9) = some s ∧
      s.Faithful := by
  obtain ⟨s, hs⟩ : ∃ s, (machine (.insertion Item.Before) fun _ => true).exec (photoThenText 9) =
    some s := ⟨_, rfl⟩
  refine ⟨s, hs, (faithful_iff_inPlace hs).2 ?_ _ List.prefix_rfl s hs⟩
  refine Machine.along_iff_alongFrom.2 ?_
  refine .cons (fun _ _ _ h => nomatch h) rfl (.cons (fun _ _ _ h => nomatch h) rfl ?_)
  refine .cons (fun _ _ _ h => nomatch h) rfl ⟨?_, fun _ _ => trivial⟩
  intro i image d ha hd
  obtain ⟨rfl, _⟩ := Action.downloaded.inj ha
  obtain rfl := Option.some.inj hd
  rfl

/-- An earlier text is sorted in before the photo, and overwritten by it. -/
theorem not_faithful_photoThenText : ∃ s,
    (machine (.insertion Item.Before) fun _ => true).exec (photoThenText 1) = some s ∧
      ¬s.Faithful := by
  refine ⟨_, rfl, fun h => ?_⟩
  exact absurd h.1 (by decide)

end ChatVC

end MagicChat
