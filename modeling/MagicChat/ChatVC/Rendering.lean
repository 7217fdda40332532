import MagicChat.ChatVC.Basic
import MagicChat.Library.Lists

/-!
# Rendering a photo

The table asks for the cell of a photo without a picture, which starts a
download; when it completes, the row is reloaded, and the table asks for the
cell again (`lap`). Left to themselves, with no other message and no scrolling,
these callbacks go on as long as the photo has no picture.

A picture stops them, and so does an error. But data that is not a picture is
stored and reported like one: the rendering ends if and only if some response
is not such data (`laps_eq_none_iff`).
-/

namespace MagicChat

namespace ChatVC

/-- From one rendering of a row to the next: the cell is asked for, the download
    that this starts ends with a response, and the block that this leaves behind
    reloads the row. It is `none` where one of these does not happen. -/
def lap (validURL : String → Bool) (row : ℕ) (response : DataTaskResult) (s : ChatVC) :
    Option ChatVC := do
  let rendered ← s.cellForRow validURL row
  let downloaded ← rendered.downloaded s.downloads.length response
  downloaded.runBlock s.mainQueue.length

/-- The screen after `n` laps, if there are as many. -/
def laps (validURL : String → Bool) (row : ℕ) (responses : ℕ → DataTaskResult) (s : ChatVC) :
    ℕ → Option ChatVC
  | 0 => some s
  | n + 1 => (laps validURL row responses s n).bind (lap validURL row (responses n))

variable {S : Sorter Item Item.Before} {validURL : String → Bool} {row n : ℕ}
  {response : DataTaskResult} {responses : ℕ → DataTaskResult} {s t : ChatVC} {item : Item}

/-- A lap is a run of the screen. -/
theorem leads_lap (h : lap validURL row response s = some t) : (machine S validURL).Leads s t := by
  obtain ⟨r, hr, h⟩ := Option.bind_eq_some_iff.1 h
  obtain ⟨d, hd, h⟩ := Option.bind_eq_some_iff.1 h
  have hrender : (machine S validURL).step s (.cellForRow row) = some r := hr
  have hdownload : (machine S validURL).step r (.downloaded s.downloads.length response) =
    some d := hd
  have hblock : (machine S validURL).step d (.runBlock s.mainQueue.length) = some t := h
  exact (Machine.Leads.of_step hrender).trans
    ((Machine.Leads.of_step hdownload).trans (.of_step hblock))

/-- The row holds a photo with a link. -/
structure ShowsPhoto (s : ChatVC) (validURL : String → Bool) (row : ℕ) (item : Item) : Prop where
  shown : s.items[row]? = some item
  photo : item.message.type = .photo
  link : ∃ imageLink, item.message.content.asString = some imageLink ∧ validURL imageLink = true

namespace ShowsPhoto

/-- Without a picture, the cell starts a download. -/
theorem cellForRow_eq (h : s.ShowsPhoto validURL row item) (hnone : s.image item.id = none) :
    s.cellForRow validURL row = some { s with downloads := s.downloads ++ [{ row, item }] } := by
  obtain ⟨imageLink, hlink, hvalid⟩ := h.link
  simp [cellForRow, downloadImage, h.shown, h.photo, hnone, hlink, hvalid]

/-- With one, it does not, and nothing follows. -/
theorem lap_of_image (h : s.ShowsPhoto validURL row item) (hsome : s.image item.id ≠ none) :
    lap validURL row response s = none := by
  have hrender : s.cellForRow validURL row = some s := by
    simp [cellForRow, h.shown, hsome]
  simp [lap, hrender, downloaded]

/-- Without data, nothing follows. -/
theorem lap_of_not_data (h : s.ShowsPhoto validURL row item)
    (hdata : ∀ image, response ≠ .data image) : lap validURL row response s = none := by
  by_cases hnone : s.image item.id = none
  · simp only [lap, h.cellForRow_eq hnone, Option.bind_eq_bind, Option.bind_some]
    cases response with
    | data image => exact absurd rfl (hdata image)
    | error => simp [downloaded, runBlock]
    | noData => simp [downloaded, runBlock]
  · exact h.lap_of_image hnone

/-- With data the row is rendered again, with the picture that the data is, if any. -/
theorem exists_lap (h : s.ShowsPhoto validURL row item) (hnone : s.image item.id = none)
    (image : Option UIImage) :
    ∃ t, lap validURL row (.data image) s = some t ∧ t.ShowsPhoto validURL row item ∧
      t.image item.id = image := by
  have hitems : s.items.set row item = s.items := Lists.set_of_getElem? h.shown
  simp only [lap, h.cellForRow_eq hnone, Option.bind_eq_bind, Option.bind_some]
  simp only [downloaded, List.getElem?_concat_length, Option.bind_eq_bind, Option.bind_some,
    runBlock, store]
  refine ⟨_, rfl, ⟨?_, h.photo, h.link⟩, Function.update_self ..⟩
  exact (congrArg (fun items => items[row]?) hitems).trans h.shown

end ShowsPhoto

/-- As long as the data is not a picture, the rendering goes on. -/
theorem exists_laps (h : s.ShowsPhoto validURL row item) (hnone : s.image item.id = none)
    (hdata : ∀ m < n, responses m = .data none) :
    ∃ t, laps validURL row responses s n = some t ∧ t.ShowsPhoto validURL row item ∧
      t.image item.id = none := by
  induction n with
  | zero => exact ⟨s, rfl, h, hnone⟩
  | succ n ih =>
    obtain ⟨r, hr, hshows, himage⟩ := ih fun m hm => hdata m (hm.trans (Nat.lt_succ_self n))
    obtain ⟨t, ht, hshows', himage'⟩ := hshows.exists_lap himage none
    refine ⟨t, ?_, hshows', himage'⟩
    rw [laps, hr, Option.bind_some, hdata n (Nat.lt_succ_self n), ht]

/-- The first response that is not such data ends it, in the next lap at the latest. -/
theorem laps_eq_none_of_ne (h : s.ShowsPhoto validURL row item) (hnone : s.image item.id = none)
    (hdata : ∀ m < n, responses m = .data none) (hn : responses n ≠ .data none) :
    laps validURL row responses s (n + 2) = none := by
  obtain ⟨r, hr, hshows, himage⟩ := exists_laps h hnone hdata
  rw [laps, laps, hr, Option.bind_some]
  by_cases himg : ∃ image, responses n = .data (some image)
  · obtain ⟨image, himg⟩ := himg
    obtain ⟨t, ht, hshows', himage'⟩ := hshows.exists_lap himage (some image)
    rw [himg, ht, Option.bind_some]
    exact hshows'.lap_of_image (by simp [himage'])
  · have hlap : lap validURL row (responses n) r = none := by
      refine hshows.lap_of_not_data fun image he => ?_
      cases image with
      | none => exact hn he
      | some image => exact himg ⟨image, he⟩
    rw [hlap, Option.bind_none]

/-- The rendering of a photo with a link ends if and only if the photo has its
    picture, or some response is not data that is no picture. -/
theorem laps_eq_none_iff (h : s.ShowsPhoto validURL row item) (responses : ℕ → DataTaskResult) :
    (∃ n, laps validURL row responses s n = none) ↔
      s.image item.id ≠ none ∨ ∃ n, responses n ≠ .data none := by
  constructor
  · -- Otherwise every lap leaves the photo without its picture, and starts the next one.
    rintro ⟨n, hn⟩
    by_contra hcontra
    simp only [not_or, not_exists, ne_eq, not_not] at hcontra
    obtain ⟨t, ht, _⟩ := exists_laps (n := n) h hcontra.1 fun m _ => hcontra.2 m
    rw [ht] at hn
    cases hn
  · rintro (hsome | ⟨n, hn⟩)
    · refine ⟨1, ?_⟩
      rw [laps, laps, Option.bind_some]
      exact h.lap_of_image hsome
    · by_cases hnone : s.image item.id = none
      · -- The laps end with the first such response.
        have hex : ∃ n, responses n ≠ .data none := ⟨n, hn⟩
        classical
        refine ⟨Nat.find hex + 2, laps_eq_none_of_ne h hnone (fun m hm => ?_) (Nat.find_spec hex)⟩
        exact by_contra fun hm' => Nat.find_min hex hm hm'
      · refine ⟨1, ?_⟩
        rw [laps, laps, Option.bind_some]
        exact h.lap_of_image hnone

/-- A photo has been delivered and shown. -/
def onePhoto : ChatVC :=
  (ChatVC.deliver {} (.insertion Item.Before)
    ⟨.photo, .field (.string "url"), .sender, 5, true⟩).block .reload

theorem showsPhoto_onePhoto :
    onePhoto.ShowsPhoto (fun _ => true) 0
      ⟨0, .photo, .field (.string "url"), .sender, 5, true⟩ where
  shown := by decide
  photo := rfl
  link := ⟨"url", rfl, rfl⟩

/-- An error ends the rendering of the photo. -/
theorem laps_onePhoto : ∃ n, laps (fun _ => true) 0 (fun _ => .error) onePhoto n = none :=
  (laps_eq_none_iff showsPhoto_onePhoto fun _ => .error).2 (.inr ⟨0, by decide⟩)

/-- The body of an error page, downloaded again and again, does not. -/
theorem laps_onePhoto_ne_none :
    ¬∃ n, laps (fun _ => true) 0 (fun _ => .data none) onePhoto n = none := by
  rintro ⟨n, hn⟩
  obtain ⟨t, ht, _⟩ := exists_laps (n := n) showsPhoto_onePhoto rfl fun _ _ => rfl
  rw [ht] at hn
  cases hn

end ChatVC

end MagicChat
