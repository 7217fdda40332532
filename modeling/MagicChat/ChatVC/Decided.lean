import MagicChat.ChatVC.Input

/-!
# What a chat sends

What the input of a chat has sent, with the location on its way, is what its user
has decided to send, as it was shown then: each decision once, and in their order
(`sent_decided`). No text is sent twice unless it is typed twice (`texts_typed`).
Each tap on the button for a location shows at most one preview, and each preview
sends at most one location (`locations_le_taps`).
-/

namespace MagicChat

namespace ChatInput

variable {D : Type*}

/-- What a user can send. -/
inductive Decision (D : Type*)
  | text (text : String)
  | photo (image : UIImage)
  | location (coordinate : D × D)

/-- The type and the content of the message for a decision. -/
def Decision.message (print : D → String) : Decision D → MessageType × Content
  | .text typed => (.text, .field (.string typed))
  | .photo image => (.photo, .image image)
  | .location coordinate =>
    (.location, .field (.string (ChatVC.coordinate print coordinate.1 coordinate.2)))

section observations

variable (s : ChatInput D)

/-- The text in the text field, if there is any. -/
def composing : Option String := s.text.filter (· ≠ "")

/-- The decision in a step, as far as the user can see: for the text in the text
    field, for the picture picked, for the location of the pin on the map. -/
def decided : Action D → List (Decision D)
  | .sendMessage _ => s.composing.toList.map .text
  | .didFinishPicking edited original _ => (edited.or original).toList.map .photo
  | .sendLocationClicked =>
    match s.presented with
    | some (.map preview) => [.location preview.annotation]
    | _ => []
  | _ => []

/-- The decision on its way. -/
def pending : List (Decision D) :=
  match s.presented with
  | some (.dismissing (some preview)) => [.location preview.annotation]
  | _ => []

/-- The text typed in a step. -/
def typed (_ : ChatInput D) : Action D → List String
  | .edit text => text.toList
  | _ => []

/-- The tap on the button for a location. -/
def tapped (_ : ChatInput D) : Action D → List CLAuthorizationStatus
  | .selectLocation status => [status]
  | _ => []

/-- The preview shown, if there is one. -/
def preview? : Option (MapPreviewViewController D) :=
  match s.presented with
  | some (.map preview) => some preview
  | _ => none

/-- The preview that a step comes to show. -/
def previewed (print : D → String) (a : Action D) : List (MapPreviewViewController D) :=
  if s.preview?.isNone then ((s.step print a).bind fun t => t.1.preview?).toList else []

end observations

/-! ## The steps -/

/-- The action is to present a screen on the chat. -/
inductive Action.Presents : Action D → ChatPresented D → Prop
  | gallery {status : AuthorizationStatus} :
    Presents (.selectGallery status) (.imagePicker .savedPhotosAlbum)
  | camera {status : AuthorizationStatus} : Presents (.selectCamera status) (.imagePicker .camera)
  | cover : Presents .cover .other

/-- A step of the input of a chat. -/
inductive Step (print : D → String) (s : ChatInput D) :
    Action D → ChatInput D → Option Message → Prop
  | edit {text : Option String} : s.presented = none →
    Step print s (.edit text) { s with text } none
  | sendMessage {text : String} {timestamp : Int} : s.presented = none → s.composing = some text →
    Step print s (.sendMessage timestamp) { s with text := some "" }
      (some (composeMessage .text (.field (.string text)) timestamp))
  | noMessage {timestamp : Int} : s.presented = none → s.composing = none →
    Step print s (.sendMessage timestamp) s none
  | presents {a : Action D} {x : ChatPresented D} : s.presented = none → a.Presents x →
    Step print s a { s with presented := some x } none
  | denied {a : Action D} {x : ChatPresented D} : a.Presents x → Step print s a s none
  | picks {sourceType : SourceType} {edited original : Option UIImage} {image : UIImage}
      {timestamp : Int} : s.presented = some (.imagePicker sourceType) →
    edited.or original = some image →
    Step print s (.didFinishPicking edited original timestamp)
      { s with presented := some (.dismissing none) }
      (some (composeMessage .photo (.image image) timestamp))
  | picksNothing {edited original : Option UIImage} {timestamp : Int} :
    edited.or original = none → Step print s (.didFinishPicking edited original timestamp) s none
  | selectLocation {status : CLAuthorizationStatus} {updatingLocation : Bool} :
    s.presented = none → Step print s (.selectLocation status)
      { s with canSendLocation := true, updatingLocation } none
  | locate {locations : List (D × D)} : s.updatingLocation = true →
    Step print s (.locate locations) { s with updates := s.updates ++ [locations] } none
  | ignores {locations : List (D × D)} {updates : List (List (D × D))} :
    s.updates = locations :: updates → Step print s .didUpdateLocations { s with updates } none
  | previews {locations : List (D × D)} {updates : List (List (D × D))} {lastLocation : D × D} :
    s.updates = locations :: updates → s.canSendLocation = true → s.presented = none →
    Step print s .didUpdateLocations
      { s with
        updates
        updatingLocation := false
        presented := some (.map (.viewDidLoad lastLocation))
        canSendLocation := false } none
  | loses {locations : List (D × D)} {updates : List (List (D × D))} :
    s.updates = locations :: updates → s.canSendLocation = true → s.presented ≠ none →
    Step print s .didUpdateLocations
      { s with updates, updatingLocation := false, canSendLocation := false } none
  | longPress {preview : MapPreviewViewController D} {ended : Bool} {coordinate : D × D} :
    s.presented = some (.map preview) → Step print s (.longPress ended coordinate)
      { s with presented := some (.map (preview.handleLongPress ended coordinate)) } none
  | sendLocationClicked {preview : MapPreviewViewController D} :
    s.presented = some (.map preview) → Step print s .sendLocationClicked
      { s with presented := some (.dismissing (some preview)) } none
  | dismiss {x : ChatPresented D} : s.presented = some x → (∀ sends, x ≠ .dismissing sends) →
    Step print s .dismiss { s with presented := some (.dismissing none) } none
  | dismissed {sends : Option (MapPreviewViewController D)} {timestamp : Int} :
    s.presented = some (.dismissing sends) → Step print s (.dismissed timestamp)
      { s with presented := none }
      (sends.map fun preview => ChatVC.locationMessage print preview.coordinate.1
        preview.coordinate.2 timestamp)

variable {print : D → String} {s t : ChatInput D} {a : Action D} {m : Option Message}

theorem takesInput_iff : s.takesInput = true ↔ s.presented = none := Option.isNone_iff_eq_none

theorem present_of_none {x : ChatPresented D} (h : s.presented = none) :
    s.present x = { s with presented := some x } := by
  simp [present, takesInput, h]

/-- A guard on a step. -/
theorem of_guard {x y : ChatInput D × Option Message} {b : Bool}
    (h : (if b then some x else none) = some y) : b = true ∧ x = y := by
  cases b with
  | true => exact ⟨rfl, Option.some.inj h⟩
  | false => cases h

theorem step_selectPicture {sourceType : SourceType} {status : AuthorizationStatus}
    (hs : s.presented = none) (ha : a.Presents (.imagePicker sourceType)) :
    Step print s a (s.selectPicture sourceType status) none := by
  rw [selectPicture]
  split_ifs
  · rw [present_of_none hs]
    exact .presents hs ha
  · exact .denied ha

theorem didUpdateLocations_cases (s : ChatInput D) (locations : List (D × D)) :
    s.didUpdateLocations locations = s ∨ (s.canSendLocation = true ∧
      ((s.presented = none ∧ ∃ lastLocation, s.didUpdateLocations locations =
        { s with
          updatingLocation := false
          presented := some (.map (.viewDidLoad lastLocation))
          canSendLocation := false }) ∨
      (s.presented ≠ none ∧ s.didUpdateLocations locations =
        { s with updatingLocation := false, canSendLocation := false }))) := by
  rw [didUpdateLocations]
  split
  · rename_i lastLocation _
    split_ifs with hsend
    · refine .inr ⟨hsend, ?_⟩
      by_cases hs : s.presented = none
      · exact .inl ⟨hs, lastLocation, by simp [present, takesInput, hs]⟩
      · exact .inr ⟨hs, by simp [present, takesInput, hs]⟩
    · exact .inl rfl
  · exact .inl rfl

theorem Step.of_step (h : s.step print a = some (t, m)) : Step print s a t m := by
  cases a with
  | edit text =>
    obtain ⟨hs, ⟨⟩⟩ := of_guard h
    exact .edit (takesInput_iff.1 hs)
  | sendMessage timestamp =>
    obtain ⟨hs, he⟩ := of_guard h
    rw [ChatInput.sendMessage] at he
    split at he
    · rename_i text htext
      split_ifs at he with hempty
      · cases he
        exact .noMessage (takesInput_iff.1 hs) (by simp [composing, htext, hempty])
      · cases he
        exact .sendMessage (takesInput_iff.1 hs) (by simp [composing, htext, hempty])
    · rename_i htext
      cases he
      exact .noMessage (takesInput_iff.1 hs) (by simp [composing, htext])
  | selectGallery status =>
    obtain ⟨hs, ⟨⟩⟩ := of_guard h
    exact step_selectPicture (takesInput_iff.1 hs) .gallery
  | selectCamera status =>
    obtain ⟨hs, ⟨⟩⟩ := of_guard h
    exact step_selectPicture (takesInput_iff.1 hs) .camera
  | selectLocation status =>
    obtain ⟨hs, ⟨⟩⟩ := of_guard h
    rw [ChatInput.selectLocation]
    split_ifs
    · exact .selectLocation (takesInput_iff.1 hs)
    · exact .selectLocation (takesInput_iff.1 hs)
  | cover =>
    obtain ⟨hs, ⟨⟩⟩ := of_guard h
    rw [present_of_none (takesInput_iff.1 hs)]
    exact .presents (takesInput_iff.1 hs) .cover
  | didFinishPicking edited original timestamp =>
    simp only [step] at h
    split at h
    · rename_i hs
      have he := Option.some.inj h
      rw [didFinishPicking] at he
      split at he
      · cases he
        exact .picks hs ‹_›
      · cases he
        exact .picksNothing ‹_›
    · cases h
  | locate locations =>
    obtain ⟨hs, ⟨⟩⟩ := of_guard h
    exact .locate hs
  | didUpdateLocations =>
    simp only [step] at h
    split at h
    · cases h
    · rename_i locations updates hu
      obtain ⟨rfl, rfl⟩ := Prod.mk.inj (Option.some.inj h)
      rcases didUpdateLocations_cases { s with updates } locations with
        he | ⟨hsend, ⟨hs, lastLocation, he⟩ | ⟨hs, he⟩⟩
      · rw [he]
        exact .ignores hu
      · rw [he]
        exact .previews hu hsend hs
      · rw [he]
        exact .loses hu hsend hs
  | longPress ended coordinate =>
    simp only [step] at h
    split at h
    · cases h
      exact .longPress ‹_›
    · cases h
  | sendLocationClicked =>
    simp only [step] at h
    split at h
    · cases h
      exact .sendLocationClicked ‹_›
    · cases h
  | dismiss =>
    simp only [step] at h
    split at h
    · cases h
    · cases h
    · rename_i x hx hs
      cases h
      exact .dismiss hs hx
  | dismissed timestamp =>
    simp only [step] at h
    split at h
    · cases h
      exact .dismissed ‹_›
    · cases h

theorem sent_eq (h : s.step print a = some (t, m)) : s.sent print a = m.toList := by
  rw [sent, h, Option.bind_some]

theorem machine_step (h : (machine print).step s a = some t) :
    ∃ m, s.step print a = some (t, m) ∧ s.sent print a = m.toList := by
  obtain ⟨⟨t', m⟩, hstep, rfl⟩ := Option.map_eq_some_iff.1 h
  exact ⟨m, hstep, sent_eq hstep⟩

/-! ## What is sent -/

/-- The pin of the preview is at the coordinate to be sent. -/
def Pinned (s : ChatInput D) : Prop := ∀ preview,
  s.presented = some (.map preview) ∨ s.presented = some (.dismissing (some preview)) →
    preview.annotation = preview.coordinate

theorem Pinned.congr (h : s.Pinned) (ht : t.presented = s.presented) : t.Pinned := fun preview hp =>
  h preview (ht ▸ hp)

theorem pinned_of_map {preview : MapPreviewViewController D}
    (ht : t.presented = some (.map preview)) (hp : preview.annotation = preview.coordinate) :
    t.Pinned := by
  rintro preview' (he | he)
  · cases ht.symm.trans he
    exact hp
  · cases ht.symm.trans he

theorem pinned_of_ne (hmap : ∀ preview, t.presented ≠ some (.map preview))
    (hsends : ∀ preview, t.presented ≠ some (.dismissing (some preview))) : t.Pinned := by
  rintro preview (he | he)
  · exact absurd he (hmap preview)
  · exact absurd he (hsends preview)

theorem Step.pinned (h : Step print s a t m) (hs : s.Pinned) : t.Pinned := by
  cases h with
  | presents _ ha =>
    cases ha <;> exact pinned_of_ne (by simp) (by simp)
  | previews => exact pinned_of_map rfl rfl
  | @longPress preview ended coordinate hmap =>
    refine pinned_of_map rfl ?_
    rw [MapPreviewViewController.handleLongPress]
    split_ifs
    · rfl
    · exact hs preview (.inl hmap)
  | @sendLocationClicked preview hmap =>
    rintro preview' (he | he)
    · cases he
    · cases he
      exact hs preview (.inl hmap)
  | picks | dismiss | dismissed => exact pinned_of_ne (by simp) (by simp)
  | _ => exact hs.congr rfl

theorem pinned_of_reachable (h : (machine print).Reachable s) : s.Pinned := by
  refine h.invariant (I := Pinned) (pinned_of_ne (by simp [machine]) (by simp [machine])) ?_
  intro s a t _ hs ht
  obtain ⟨m, hstep, _⟩ := machine_step ht
  exact (Step.of_step hstep).pinned hs

/-- The type and the content of a message. -/
def body (message : Message) : MessageType × Content := (message.type, message.content)

/-- What is decided in a step is sent in the step, or on its way after it. -/
theorem Step.body_sent (h : Step print s a t m) (hs : s.Pinned) :
    s.pending.map (Decision.message print) ++ (s.decided a).map (Decision.message print) =
      m.toList.map body ++ t.pending.map (Decision.message print) := by
  cases h with
  | edit | selectLocation | locate | ignores | loses => simp [pending, decided]
  | sendMessage hp htext =>
    simp [pending, decided, hp, htext, Decision.message, body, composeMessage]
  | noMessage hp htext => simp [decided, htext]
  | presents hp ha => cases ha <;> simp [pending, decided, hp]
  | denied ha => cases ha <;> simp [decided]
  | picks hp himage => simp [pending, decided, hp, himage, Decision.message, body, composeMessage]
  | picksNothing himage => simp [decided, himage]
  | previews _ _ hp => simp [pending, decided, hp]
  | longPress hp => simp [pending, decided, hp]
  | sendLocationClicked hp => simp [pending, decided, hp]
  | @dismiss x hp hx =>
    cases x with
    | dismissing sends => exact absurd rfl (hx sends)
    | _ => simp [pending, decided, hp]
  | @dismissed sends timestamp hp =>
    cases sends with
    | none => simp [pending, decided, hp]
    | some preview =>
      have hpin := hs preview (.inr hp)
      simp [pending, decided, hp, hpin, Decision.message, body, ChatVC.locationMessage,
        composeMessage]

/-- What is on its way after a step has been before, or is decided in the step. -/
theorem Step.pending_cases (h : Step print s a t m) {decision : Decision D}
    (hd : decision ∈ t.pending) : decision ∈ s.pending ∨ decision ∈ s.decided a := by
  cases h with
  | presents hp ha => cases ha <;> simp [pending] at hd
  | sendLocationClicked hp => exact .inr (by simpa [pending, decided, hp] using hd)
  | picks | previews | longPress | dismiss | dismissed => simp [pending] at hd
  | _ => exact .inl hd

/-- What is sent in a step is what is decided in the step, or what has been on its way. -/
theorem Step.sent_cases {message : Message} (h : Step print s a t (some message))
    (hs : s.Pinned) : ∃ decision, (decision ∈ s.pending ∨ decision ∈ s.decided a) ∧
      decision.message print = body message := by
  have hsent := h.body_sent hs
  have hmem : body message ∈ (s.pending ++ s.decided a).map (Decision.message print) := by
    rw [List.map_append, hsent]
    exact List.mem_cons_self
  obtain ⟨decision, hdecision, he⟩ := List.mem_map.1 hmem
  exact ⟨decision, List.mem_append.1 hdecision, he⟩

/-- What has been sent, with what is on its way, is what has been decided, in this order. -/
theorem sent_decided {as : List (Action D)} (h : (machine print).exec as = some s) :
    ((machine print).collect (fun s => s.sent print) as).map body ++
        s.pending.map (Decision.message print) =
      ((machine print).collect decided as).map (Decision.message print) := by
  refine Machine.exec_induction (motive := fun as s =>
    ((machine print).collect (fun s => s.sent print) as).map body ++
        s.pending.map (Decision.message print) =
      ((machine print).collect decided as).map (Decision.message print)) rfl ?_ h
  intro as s a t hs ih ht
  obtain ⟨m, hstep, hsent⟩ := machine_step ht
  have hdecided := (Step.of_step hstep).body_sent (pinned_of_reachable ⟨as, hs⟩)
  rw [Machine.collect_concat hs, Machine.collect_concat hs, List.map_append, List.map_append,
    hsent, ← ih, List.append_assoc, List.append_assoc, hdecided]

theorem mem_decided_location {coordinate : D × D} :
    .location coordinate ∈ s.decided a ↔ a = .sendLocationClicked ∧
      ∃ preview, s.presented = some (.map preview) ∧ preview.annotation = coordinate := by
  cases a with
  | sendLocationClicked =>
    simp only [decided, true_and]
    split
    · rename_i preview hp
      simp [hp, eq_comm]
    · rename_i hp
      simpa using fun preview he => absurd he (hp preview)
  | _ => simp [decided]

/-! ## What is typed -/

/-- The text of a text message. -/
def messageText (message : Message) : Option String :=
  match message.type with
  | .text => message.content.asString
  | _ => none

/-- The text field holds what has been typed, and loses what is sent. -/
theorem Step.texts_le (h : Step print s a t m) :
    (m.toList.filterMap messageText ++ t.composing.toList).Sublist
      (s.composing.toList ++ s.typed a) := by
  -- No text is sent, and the text field stays as it is.
  have keep : m.toList.filterMap messageText = [] → t.composing = s.composing →
      (m.toList.filterMap messageText ++ t.composing.toList).Sublist
        (s.composing.toList ++ s.typed a) := by
    intro hm ht
    rw [hm, ht]
    exact List.sublist_append_left _ _
  cases h with
  | edit =>
    refine .trans ?_ (List.sublist_append_right _ _)
    rw [Option.toList_none, List.filterMap_nil, List.nil_append, composing, Option.toList_filter]
    exact List.filter_sublist
  | sendMessage _ htext =>
    have hempty : ({ s with text := some "" } : ChatInput D).composing = none := rfl
    simp [messageText, composeMessage, Content.asString, Field.asString, htext, hempty]
  | @dismissed sends => exact keep (by cases sends <;> rfl) rfl
  | _ => exact keep rfl rfl

/-- The texts sent have been typed, in this order, each for itself. -/
theorem texts_typed {as : List (Action D)} (h : (machine print).exec as = some s) :
    (((machine print).collect (fun s => s.sent print) as).filterMap messageText).Sublist
      ((machine print).collect typed as) := by
  suffices hinv : (((machine print).collect (fun s => s.sent print) as).filterMap messageText ++
      s.composing.toList).Sublist ((machine print).collect typed as) from
    (List.sublist_append_left _ _).trans hinv
  refine Machine.exec_induction (motive := fun as s =>
    (((machine print).collect (fun s => s.sent print) as).filterMap messageText ++
      s.composing.toList).Sublist ((machine print).collect typed as)) (List.Sublist.refl []) ?_ h
  intro as s a t hs ih ht
  obtain ⟨m, hstep, hsent⟩ := machine_step ht
  rw [Machine.collect_concat hs, Machine.collect_concat hs, hsent, List.filterMap_append,
    List.append_assoc]
  refine ((Step.of_step hstep).texts_le.append_left _).trans ?_
  rw [← List.append_assoc]
  exact ih.append_right _

/-! ## What is tapped -/

/-- The location messages. -/
def locationMessages (l : List Message) : List Message := l.filter (·.type = .location)

/-- The number of locations that the chat shows, or has on their way. -/
def sharing (s : ChatInput D) : ℕ :=
  match s.presented with
  | some (.map _) | some (.dismissing (some _)) => 1
  | _ => 0

theorem previewed_eq (h : s.step print a = some (t, m)) :
    s.previewed print a = if s.preview?.isNone then t.preview?.toList else [] := by
  rw [previewed, h, Option.bind_some]

/-- A location is sent once, and comes from a preview. -/
theorem Step.locations_le (h : Step print s a t m) (hstep : s.step print a = some (t, m)) :
    (locationMessages m.toList).length + t.sharing ≤
      s.sharing + (s.previewed print a).length := by
  have keep : (locationMessages m.toList).length + t.sharing ≤ s.sharing →
      (locationMessages m.toList).length + t.sharing ≤
        s.sharing + (s.previewed print a).length := fun hle => hle.trans (Nat.le_add_right _ _)
  cases h with
  | previews _ _ hp =>
    rw [previewed_eq hstep]
    simp [locationMessages, sharing, preview?, hp]
  | presents _ ha => exact keep (by cases ha <;> exact Nat.zero_le _)
  | sendMessage | picks => exact keep (by simp [locationMessages, sharing, composeMessage])
  | dismiss => exact keep (Nat.zero_le _)
  | longPress hp | sendLocationClicked hp =>
    exact keep (by simp [locationMessages, sharing, hp])
  | @dismissed sends _ hp =>
    refine keep ?_
    cases sends with
    | none => exact Nat.zero_le _
    | some preview => simp [locationMessages, sharing, hp, ChatVC.locationMessage, composeMessage]
  | _ => exact keep (Nat.zero_add _).le

/-- An update may come to show a preview. -/
def awaiting (s : ChatInput D) : Bool :=
  s.canSendLocation && (s.updatingLocation || !s.updates.isEmpty)

theorem Step.awaiting_le (h : Step print s a t m) :
    t.awaiting.toNat ≤ s.awaiting.toNat + (s.tapped a).length := by
  cases h with
  | selectLocation => exact (Bool.toNat_le _).trans (Nat.le_add_left _ _)
  | locate hu => simp [awaiting, hu]
  | ignores hu =>
    cases hsend : s.canSendLocation with
    | false => simp [awaiting, hsend]
    | true =>
      have hs : s.awaiting = true := by simp [awaiting, hu, hsend]
      rw [hs]
      exact (Bool.toNat_le _).trans (Nat.le_add_right _ _)
  | previews | loses => simp [awaiting]
  | _ => exact Nat.le_add_right _ _

/-- A preview comes with an update that has been waited for. -/
theorem Step.preview_eq_none (h : Step print s a t m) (hs : s.preview? = none) :
    t.preview? = none ∨ (s.awaiting = true ∧ t.awaiting = false) := by
  cases h with
  | previews hu hsend => exact .inr ⟨by simp [awaiting, hu, hsend], by simp [awaiting]⟩
  | presents _ ha => cases ha <;> exact .inl rfl
  | picks | dismiss | dismissed => exact .inl rfl
  | longPress hp | sendLocationClicked hp => simp [preview?, hp] at hs
  | _ => exact .inl hs

/-- A tap makes the chat wait for an update, and a preview makes an end of that. -/
theorem Step.previewed_le (h : Step print s a t m) (hstep : s.step print a = some (t, m)) :
    (s.previewed print a).length + t.awaiting.toNat ≤
      s.awaiting.toNat + (s.tapped a).length := by
  have hawaiting := h.awaiting_le
  rw [previewed_eq hstep]
  cases hs : s.preview? with
  | some preview => simpa using hawaiting
  | none =>
    rcases h.preview_eq_none hs with ht | ⟨hsa, hta⟩
    · simpa [ht] using hawaiting
    · have hone : t.preview?.toList.length ≤ 1 := by cases t.preview? <;> simp
      simpa [hsa, hta] using hone.trans (Nat.le_add_right _ _)

/-- No more previews have been shown than the button has been tapped, and no more
    locations sent than previews shown. -/
theorem locations_le_taps {as : List (Action D)} (h : (machine print).exec as = some s) :
    (locationMessages ((machine print).collect (fun s => s.sent print) as)).length ≤
        ((machine print).collect (fun s => s.previewed print) as).length ∧
      ((machine print).collect (fun s => s.previewed print) as).length ≤
        ((machine print).collect tapped as).length := by
  suffices hinv :
      (locationMessages ((machine print).collect (fun s => s.sent print) as)).length + s.sharing ≤
          ((machine print).collect (fun s => s.previewed print) as).length ∧
        ((machine print).collect (fun s => s.previewed print) as).length + s.awaiting.toNat ≤
          ((machine print).collect tapped as).length from
    ⟨(Nat.le_add_right _ _).trans hinv.1, (Nat.le_add_right _ _).trans hinv.2⟩
  refine Machine.exec_induction (motive := fun as s =>
    (locationMessages ((machine print).collect (fun s => s.sent print) as)).length + s.sharing ≤
        ((machine print).collect (fun s => s.previewed print) as).length ∧
      ((machine print).collect (fun s => s.previewed print) as).length + s.awaiting.toNat ≤
        ((machine print).collect tapped as).length) ⟨le_rfl, le_rfl⟩ ?_ h
  rintro as s a t hs ⟨hlocations, hpreviews⟩ ht
  obtain ⟨m, hstep, hsent⟩ := machine_step ht
  have hlocation := (Step.of_step hstep).locations_le hstep
  have hpreview := (Step.of_step hstep).previewed_le hstep
  simp only [Machine.collect_concat hs, hsent, locationMessages, List.filter_append,
    List.length_append] at hlocations hlocation ⊢
  omega

/-! ## An example -/

/-- A text is typed and sent. A location is asked for, its pin moved and confirmed. The
    picker is opened and left. -/
def textThenLocation : List (Action ℕ) :=
  [.edit (some "hi"), .sendMessage 1, .selectLocation .authorizedAlways, .locate [(45, 19)],
    .locate [(45, 20)], .didUpdateLocations, .longPress true (44, 18), .didUpdateLocations,
    .sendLocationClicked, .dismissed 2, .selectGallery .authorized, .dismiss, .dismissed 3]

theorem sent_decided_textThenLocation : ∃ s,
    (machine ChatVC.printDegrees).exec textThenLocation = some s ∧
      ((machine ChatVC.printDegrees).collect (fun s => s.sent ChatVC.printDegrees)
          textThenLocation).map body ++ s.pending.map (Decision.message ChatVC.printDegrees) =
        ((machine ChatVC.printDegrees).collect decided textThenLocation).map
          (Decision.message ChatVC.printDegrees) ∧
      ((machine ChatVC.printDegrees).collect decided textThenLocation).length = 2 := by
  obtain ⟨s, hs, hlength⟩ : ∃ s, (machine ChatVC.printDegrees).exec textThenLocation = some s ∧
      ((machine ChatVC.printDegrees).collect decided textThenLocation).length = 2 :=
    ⟨_, rfl, rfl⟩
  exact ⟨s, hs, sent_decided hs, hlength⟩

theorem texts_typed_textThenLocation : ∃ s,
    (machine ChatVC.printDegrees).exec textThenLocation = some s ∧
      (((machine ChatVC.printDegrees).collect (fun s => s.sent ChatVC.printDegrees)
          textThenLocation).filterMap messageText).Sublist
        ((machine ChatVC.printDegrees).collect typed textThenLocation) ∧
      ((machine ChatVC.printDegrees).collect typed textThenLocation).length = 1 := by
  obtain ⟨s, hs, hlength⟩ : ∃ s, (machine ChatVC.printDegrees).exec textThenLocation = some s ∧
      ((machine ChatVC.printDegrees).collect typed textThenLocation).length = 1 := ⟨_, rfl, rfl⟩
  exact ⟨s, hs, texts_typed hs, hlength⟩

theorem locations_le_taps_textThenLocation : ∃ s,
    (machine ChatVC.printDegrees).exec textThenLocation = some s ∧
      (locationMessages ((machine ChatVC.printDegrees).collect
          (fun s => s.sent ChatVC.printDegrees) textThenLocation)).length ≤
        ((machine ChatVC.printDegrees).collect (fun s => s.previewed ChatVC.printDegrees)
          textThenLocation).length ∧
      ((machine ChatVC.printDegrees).collect (fun s => s.previewed ChatVC.printDegrees)
          textThenLocation).length ≤
        ((machine ChatVC.printDegrees).collect tapped textThenLocation).length := by
  obtain ⟨s, hs⟩ : ∃ s, (machine ChatVC.printDegrees).exec textThenLocation = some s := ⟨_, rfl⟩
  exact ⟨s, hs, locations_le_taps hs⟩

end ChatInput

end MagicChat
