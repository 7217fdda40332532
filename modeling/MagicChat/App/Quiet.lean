import MagicChat.App.Step
import MagicChat.Repository.Idle

/-!
# What the users have started

The answers of the services, the events that the observers are told of, the
downloads, the animations and the blocks of the main queues are not up to the users.
None of them is enabled if and only if nothing is pending (`Quiet`,
`settled_iff_quiet`), and each of them is a step towards this (`drops_of_isAnswer`),
as long as no data is downloaded that is no picture.

The order in which they happen does not matter: whatever starts something else
starts something later in this list.

* The answers to the calls of the repository, each of which may change the
  database, and so bring events of every kind.
* The values of pointers that chats are told of, and the pointers that lists are
  told of: these bring messages, and ask for profiles.
* The messages that chats are told of, and the profiles that lists have asked
  for: these bring items without a picture, leave blocks, and bring conversations.
* The pictures that come to items that had none, and the conversations that lists
  are told of: these leave blocks.
* The pictures that come to items that have one by now: these leave blocks, too.
* The blocks, the animations of the keyboard, and the locations being sent: these
  call the tables.
* The downloads that bring no picture to an item that has none.
-/

namespace MagicChat

/-! ## A chat -/

/-- The action is not up to the user of the screen. A cell is asked for when the user
    scrolls to it, or else when the table is called: that is left to `Rendered`. -/
def ChatVC.Action.isAnswer : ChatVC.Action → Bool
  | .downloaded .. => true
  | .runBlock _ => true
  | .animated => true
  | .locationSent => true
  | _ => false

/-- Data is downloaded that is no picture. -/
def ChatVC.Action.isNoPicture : ChatVC.Action → Bool
  | .downloaded _ (.data none) => true
  | _ => false

/-- The action calls the table. -/
def ChatVC.Action.callsTable : ChatVC.Action → Bool
  | .runBlock _ => true
  | .showKeyboard => true
  | .animated => true
  | .locationSent => true
  | _ => false

namespace ChatVC

/-- Nothing is under way on the screen. -/
structure Quiet (s : ChatVC) : Prop where
  mainQueue : s.mainQueue = []
  downloads : s.downloads = []
  animations : s.animations = 0
  sending : s.sending = 0

/-- The messages without a picture, on the screen or in a download. -/
def unpictured (s : ChatVC) : Finset ℕ :=
  ((s.items.map Item.id ++ s.downloads.map fun d => d.item.id).filter
    fun id => (s.image id).isNone).toFinset

/-- How many downloads are under way for messages that have a picture by now. -/
def stale (s : ChatVC) : ℕ := s.downloads.countP fun d => (s.image d.item.id).isSome

/-- How many downloads are under way for messages without a picture. -/
def live (s : ChatVC) : ℕ := s.downloads.countP fun d => !(s.image d.item.id).isSome

/-- How many blocks, animations and locations are under way. -/
def running (s : ChatVC) : ℕ := s.mainQueue.length + s.animations + s.sending

def ranks : List (ChatVC → ℕ) := [fun s => s.unpictured.card, stale, running]

variable {s t : ChatVC} {a : Action} {S : Sorter Item Item.Before} {validURL : String → Bool}

theorem mem_unpictured {id : ℕ} : id ∈ s.unpictured ↔
    ((∃ x ∈ s.items, x.id = id) ∨ ∃ d ∈ s.downloads, d.item.id = id) ∧ s.image id = none := by
  simp only [unpictured, List.mem_toFinset, List.mem_filter, List.mem_append, List.mem_map,
    Option.isNone_iff_eq_none]

theorem running_block (b : Block) : (s.block b).running = s.running := by
  cases b with
  | reload =>
    rw [block]
    split_ifs <;> rfl
  | reloadRow row => rfl

/-- What leaves the items, the downloads and the pictures alone leaves the first ranks alone. -/
theorem drops_of_running (hi : t.items = s.items) (hd : t.downloads = s.downloads)
    (himage : t.image = s.image) (h : t.running < s.running) : Drops ranks s t := by
  refine .tail ?_ (.tail ?_ (.head h))
  · simp only [unpictured, hi, hd, himage]
  · simp only [stale, hd, himage]

/-- What calls the table, or has nothing to do with downloads, lowers the last rank. -/
theorem drops_of_callsTable (ha : a.isAnswer) (hcalls : a.callsTable)
    (h : (machine S validURL).step s a = some t) : Drops ranks s t := by
  change s.step S validURL a = some t at h
  cases a with
  | runBlock i =>
    obtain ⟨b, hb, h⟩ := Option.bind_eq_some_iff.1 h
    obtain rfl := Option.some.inj h
    have hlength := Lists.length_eraseIdx_of_getElem? hb
    have hrunning := s.running_block b
    refine drops_of_running (block_items b) (block_downloads b) (block_image b) ?_
    simp only [running, block_mainQueue] at hrunning ⊢
    omega
  | animated =>
    rw [step, ChatVC.animated] at h
    split_ifs at h with hs
    obtain rfl := Option.some.inj h
    refine drops_of_running scrollIfAny_items scrollIfAny_downloads scrollIfAny_image ?_
    by_cases hitems : s.items = []
    · rw [scrollIfAny_of_eq_nil hitems]
      simp only [running]
      omega
    · rw [scrollIfAny_of_ne_nil hitems]
      simp only [running, scrollToLast, perform]
      omega
  | locationSent =>
    rw [step, ChatVC.locationSent] at h
    split_ifs at h with hs
    obtain rfl := Option.some.inj h
    refine drops_of_running rfl rfl rfl ?_
    simp only [running, scrollToLast, perform]
    omega
  | showKeyboard => cases ha
  | _ => cases hcalls

/-- A download that ends leaves no new message without a picture. -/
theorem unpictured_erase {i : ℕ} :
    ({ s with downloads := s.downloads.eraseIdx i } : ChatVC).unpictured ⊆ s.unpictured := by
  intro id hid
  obtain ⟨hmem, himage⟩ := mem_unpictured.1 hid
  refine mem_unpictured.2 ⟨hmem.imp_right ?_, himage⟩
  rintro ⟨d, hd, he⟩
  exact ⟨d, List.mem_of_mem_eraseIdx hd, he⟩

theorem unpictured_store {i : ℕ} {d : Download} (hd : s.downloads[i]? = some d) (image : UIImage) :
    ({ s.store d (some image) with downloads := s.downloads.eraseIdx i } : ChatVC).unpictured ⊆
      s.unpictured.erase d.item.id := by
  intro id hid
  obtain ⟨hmem, himage⟩ := mem_unpictured.1 hid
  simp only [store, Function.update_apply] at hmem himage
  split_ifs at himage with hne
  refine Finset.mem_erase.2 ⟨hne, mem_unpictured.2 ⟨?_, himage⟩⟩
  rcases hmem with ⟨x, hx, rfl⟩ | ⟨d', hd', rfl⟩
  · rcases List.mem_or_eq_of_mem_set hx with hx | rfl
    · exact .inl ⟨x, hx, rfl⟩
    · exact .inr ⟨d, List.mem_of_getElem? hd, rfl⟩
  · exact .inr ⟨d', List.mem_of_mem_eraseIdx hd', rfl⟩

/-- A picture lowers one of the first two ranks. -/
theorem drops_store {i : ℕ} {d : Download} (hd : s.downloads[i]? = some d) (image : UIImage) :
    Drops ranks s { s.store d (some image) with downloads := s.downloads.eraseIdx i } := by
  have hsub := unpictured_store hd image
  cases himage : s.image d.item.id with
  | none =>
    refine .head (Finset.card_lt_card (hsub.trans_ssubset (Finset.erase_ssubset ?_)))
    exact mem_unpictured.2 ⟨.inr ⟨d, List.mem_of_getElem? hd, rfl⟩, himage⟩
  | some =>
    refine .of_le (Finset.card_le_card (hsub.trans (Finset.erase_subset _ _))) (.head ?_)
    have hstale := Lists.countP_eraseIdx (fun d => (s.image d.item.id).isSome) hd
    have hcongr : (s.downloads.eraseIdx i).countP
        (fun d' => (Function.update s.image d.item.id (some image) d'.item.id).isSome) =
        (s.downloads.eraseIdx i).countP fun d' => (s.image d'.item.id).isSome := by
      refine List.countP_congr fun d' _ => ?_
      by_cases he : d'.item.id = d.item.id
      · simp [he, himage]
      · simp [he]
    simp only [himage, Option.isSome_some, if_true] at hstale
    simp only [stale, store, hcongr, hstale]
    omega

/-- A download that brings nothing is one less. -/
theorem drops_erase {i : ℕ} {d : Download} (hd : s.downloads[i]? = some d) :
    Drops (ranks ++ [live]) s { s with downloads := s.downloads.eraseIdx i } := by
  refine .of_le (Finset.card_le_card unpictured_erase) ?_
  have hstale := Lists.countP_eraseIdx (fun d => (s.image d.item.id).isSome) hd
  have hlive := Lists.countP_eraseIdx (fun d => !(s.image d.item.id).isSome) hd
  cases himage : s.image d.item.id with
  | none =>
    simp only [himage, Option.isSome_none, Bool.false_eq_true, if_false] at hstale
    simp only [himage, Option.isSome_none, Bool.not_false, if_true] at hlive
    exact .tail hstale.symm (.tail rfl (.head (Nat.lt_of_succ_le hlive.ge)))
  | some =>
    simp only [himage, Option.isSome_some, if_true] at hstale
    exact .head (Nat.lt_of_succ_le hstale.ge)

/-- What is not up to the user lowers one of the ranks, unless it is data that is no picture. -/
theorem drops_of_isAnswer (ha : a.isAnswer) (hpicture : a.isNoPicture = false)
    (h : (machine S validURL).step s a = some t) : Drops (ranks ++ [live]) s t := by
  cases a with
  | downloaded i result =>
    obtain ⟨d, hd, h⟩ := Option.bind_eq_some_iff.1 h
    obtain rfl := Option.some.inj h
    cases result with
    | data image =>
      cases image with
      | none => cases hpicture
      | some image => exact (drops_store hd image).append _
    | _ => exact drops_erase hd
  | runBlock i => exact (drops_of_callsTable rfl rfl h).append _
  | animated => exact (drops_of_callsTable rfl rfl h).append _
  | locationSent => exact (drops_of_callsTable rfl rfl h).append _
  | _ => cases ha

/-- Asking for a cell leaves the ranks alone, and starts at most one download. -/
theorem ranks_cellForRow {row : ℕ} (h : s.cellForRow validURL row = some t) :
    t.unpictured.card = s.unpictured.card ∧ t.stale = s.stale ∧ t.running = s.running := by
  obtain ⟨item, hitem, h⟩ := Option.bind_eq_some_iff.1 h
  split_ifs at h with hphoto
  · obtain rfl := Option.some.inj h
    -- The message of the new download, if there is one, is on the screen.
    have hstarted : ∀ d ∈ (downloadImage validURL item row).toList, d.item = item := by
      intro d hd
      rw [mem_downloadImage hd]
    refine ⟨congrArg Finset.card (Finset.ext fun id => ?_), ?_, rfl⟩
    · simp only [mem_unpictured, List.mem_append]
      refine and_congr_left fun _ => ⟨?_, Or.imp_right fun ⟨d, hd, he⟩ => ⟨d, .inl hd, he⟩⟩
      rintro (hx | ⟨d, hd | hd, rfl⟩)
      · exact .inl hx
      · exact .inr ⟨d, hd, rfl⟩
      · exact .inl ⟨item, List.mem_of_getElem? hitem, by rw [hstarted d hd]⟩
    · have hnone : (downloadImage validURL item row).toList.countP
          (fun d => (s.image d.item.id).isSome) = 0 :=
        List.countP_eq_zero.2 fun d hd => by simp [hstarted d hd, hphoto.2]
      simp only [stale, List.countP_append, hnone, Nat.add_zero]
  · obtain rfl := Option.some.inj h
    exact ⟨rfl, rfl, rfl⟩

/-- What is not up to the user happens if and only if something is under way. -/
theorem settled_iff_quiet (S : Sorter Item Item.Before) (validURL : String → Bool) :
    (machine S validURL).Settled (·.isAnswer) s ↔ s.Quiet := by
  constructor
  · intro h
    have hdownloaded := h (.downloaded 0 .error) rfl
    have hrunBlock := h (.runBlock 0) rfl
    have hanimated := h .animated rfl
    have hsent := h .locationSent rfl
    constructor
    · cases hq : s.mainQueue with
      | nil => rfl
      | cons b mainQueue => simp [machine, step, runBlock, hq] at hrunBlock
    · cases hd : s.downloads with
      | nil => rfl
      | cons d downloads => simp [machine, step, downloaded, hd] at hdownloaded
    · by_contra hn
      simp [machine, step, ChatVC.animated, hn] at hanimated
    · by_contra hn
      simp [machine, step, ChatVC.locationSent, hn] at hsent
  · intro h a ha
    cases a with
    | downloaded i result => simp [machine, step, downloaded, h.downloads]
    | runBlock i => simp [machine, step, runBlock, h.mainQueue]
    | animated => simp [machine, step, ChatVC.animated, h.animations]
    | locationSent => simp [machine, step, ChatVC.locationSent, h.sending]
    | _ => cases ha

end ChatVC

/-- The event is the value of a pointer. -/
def ChatEvent.isValue : ChatEvent → Bool
  | .value _ => true
  | .childAdded .. => false

@[simp] theorem countP_isValue_childEvents (L : Key) (children : Keyed Key Value) :
    (childEvents L children).countP ChatEvent.isValue = 0 := by
  simp [childEvents, List.countP_eq_zero, ChatEvent.isValue]

namespace Chat

/-- Nothing is pending. -/
structure Quiet (c : Chat) : Prop where
  events : c.events = []
  screen : c.screen.Quiet

/-- How many values of the pointer the chat is still to be told. -/
def values (c : Chat) : ℕ := c.events.countP ChatEvent.isValue

/-- How many messages the chat is still to be told of. -/
def children (c : Chat) : ℕ := c.events.countP fun e => !e.isValue

def ranks : List (Chat → ℕ) := [values, children] ++ ChatVC.ranks.map (· ∘ screen)

variable {c : Chat} {S : Sorter Item Item.Before} {db : Database}

/-- What an event brings comes later than the event. -/
theorem drops_receive {i : ℕ} {e : ChatEvent} (he : c.events[i]? = some e) :
    Drops ranks c (receive S db { c with events := c.events.eraseIdx i } e) := by
  have hvalues := Lists.countP_eraseIdx ChatEvent.isValue he
  have hchildren := Lists.countP_eraseIdx (fun e => !e.isValue) he
  cases e with
  | value snapshot =>
    refine .head ?_
    rw [receive]
    split
    · simp only [values, List.countP_append, countP_isValue_childEvents]
      simp only [ChatEvent.isValue, if_true] at hvalues
      omega
    · simp only [values]
      simp only [ChatEvent.isValue, if_true] at hvalues
      omega
  | childAdded ref snap =>
    refine .tail ?_ (.head ?_)
    · rw [receive]
      split <;> exact hvalues.symm
    · rw [receive]
      split <;> exact Nat.lt_of_succ_le hchildren.ge

end Chat

/-! ## A list -/

/-- The event is a pointer of the user. -/
def ListEvent.isPointer : ListEvent → Bool
  | .childAdded .. => true
  | .value .. => false

namespace ConversationList

/-- Nothing is pending. -/
structure Quiet (l : ConversationList) : Prop where
  events : l.events = []
  profiles : l.profiles = []
  mainQueue : l.screen.mainQueue = 0

/-- How many pointers the list is still to be told of. -/
def pointers (l : ConversationList) : ℕ := l.events.countP ListEvent.isPointer

/-- How many values of conversations the list is still to be told. -/
def values (l : ConversationList) : ℕ := l.events.countP fun e => !e.isPointer

def ranks : List (ConversationList → ℕ) :=
  [pointers, fun l => l.profiles.length, values, fun l => l.screen.mainQueue, fun _ => 0]

variable {l : ConversationList} {T : Sorter (Int × ℕ) Later}

/-- What an event brings comes later than the event. -/
theorem drops_receive {i : ℕ} {e : ListEvent} (he : l.events[i]? = some e) :
    Drops ranks l (receive T { l with events := l.events.eraseIdx i } e) := by
  have hpointers := Lists.countP_eraseIdx ListEvent.isPointer he
  have hvalues := Lists.countP_eraseIdx (fun e => !e.isPointer) he
  cases e with
  | childAdded peer snap =>
    refine .head ?_
    rw [receive]
    split <;> exact Nat.lt_of_succ_le hpointers.ge
  | value observer snapshot =>
    exact .tail hpointers.symm (.tail rfl (.head (Nat.lt_of_succ_le hvalues.ge)))

/-- A profile brings an observer, and the conversation that it is told of. -/
theorem drops_downloadLastMessage {db : Database} {currentUser : Option UserID} {i : ℕ}
    {profile : UserID × Key} (hi : l.profiles[i]? = some profile) (screen : ConversationsVC)
    (k : ℕ) (location : Key) :
    Drops ranks l (downloadLastMessage db currentUser
      { l with profiles := l.profiles.eraseIdx i, screen } k location) := by
  have hlength := Lists.length_eraseIdx_of_getElem? hi
  have hlt : (l.profiles.eraseIdx i).length < l.profiles.length := by omega
  cases currentUser with
  | none => exact .tail rfl (.head hlt)
  | some currentUserID =>
    refine .tail ?_ (.head hlt)
    simp [pointers, downloadLastMessage, ListEvent.isPointer]

theorem drops_runBlock {screen : ConversationsVC} (h : l.screen.runBlock = some screen) :
    Drops ranks l { l with screen } := by
  have hq : l.screen.mainQueue ≠ 0 := fun hq => by simp [ConversationsVC.runBlock, hq] at h
  rw [ConversationsVC.runBlock, if_neg hq] at h
  obtain rfl := Option.some.inj h
  exact .tail rfl (.tail rfl (.tail rfl (.head (Nat.pred_lt hq))))

end ConversationList

namespace App

/-- The action is not up to a user: an answer, an event, or what has been left for later. -/
def Action.isAnswer : Action → Bool
  | .repository a => a.isAnswer
  | .chatEvent .. => true
  | .screen _ a => a.isAnswer
  | .listEvent .. => true
  | .profile .. => true
  | .listBlock _ => true
  | _ => false

/-- Data is downloaded that is no picture. -/
def Action.isNoPicture : Action → Bool
  | .screen _ a => a.isNoPicture
  | _ => false

/-- The action calls the table of a chat. -/
def Action.callsTable : Action → Bool
  | .screen _ a => a.callsTable
  | _ => false

/-- Nothing is pending. -/
structure Quiet (s : App) : Prop where
  repo : s.repo.Idle
  chats : ∀ c ∈ s.chats, c.Quiet
  lists : ∀ l ∈ s.lists, l.Quiet

variable {F : Foundation} {s t : App} {a : Action}

/-! ## Every answer is a step towards rest -/

/-- The sum of a rank of the chats and one of the lists. -/
def total (f : Chat → ℕ) (g : ConversationList → ℕ) (s : App) : ℕ :=
  (s.chats.map f).sum + (s.lists.map g).sum

/-- The ranks of the chats and of the lists, side by side. -/
def totals (fs : List (Chat → ℕ)) (gs : List (ConversationList → ℕ)) : List (App → ℕ) :=
  List.zipWith total fs gs

theorem drops_setChat {fs : List (Chat → ℕ)} {gs : List (ConversationList → ℕ)}
    (hlength : fs.length = gs.length) {j : ℕ} {c c' : Chat} (hc : s.chats[j]? = some c)
    (h : Drops fs c c') : Drops (totals fs gs) s (s.setChat j c') := by
  induction fs generalizing gs with
  | nil => exact absurd h id
  | cons f fs ih =>
    cases gs with
    | nil => cases hlength
    | cons g gs =>
      have hsum : ((s.chats.set j c').map f).sum + f c = (s.chats.map f).sum + f c' :=
        Lists.sum_map_set hc
      refine h.imp (fun hlt => ?_) fun ⟨he, h⟩ => ⟨?_, ih (Nat.succ.inj hlength) h⟩
      · simp only [total, setChat]
        omega
      · simp only [total, setChat]
        omega

theorem drops_setList {fs : List (Chat → ℕ)} {gs : List (ConversationList → ℕ)}
    (hlength : fs.length = gs.length) {j : ℕ} {l l' : ConversationList}
    (hl : s.lists[j]? = some l) (h : Drops gs l l') :
    Drops (totals fs gs) s (s.setList j l') := by
  induction gs generalizing fs with
  | nil => exact absurd h id
  | cons g gs ih =>
    cases fs with
    | nil => cases hlength
    | cons f fs =>
      have hsum : ((s.lists.set j l').map g).sum + g l = (s.lists.map g).sum + g l' :=
        Lists.sum_map_set hl
      refine h.imp (fun hlt => ?_) fun ⟨he, h⟩ => ⟨?_, ih (Nat.succ.inj hlength) h⟩
      · simp only [total, setList]
        omega
      · simp only [total, setList]
        omega

/-- The ranks of the program: those of the repository come first. -/
def ranks : List (App → ℕ) :=
  Repository.ranks.map (· ∘ repo) ++ totals Chat.ranks ConversationList.ranks

/-- How many downloads are under way for messages without a picture. -/
def live : App → ℕ := total (fun c => c.screen.live) fun _ => 0

/-- What leaves the repository alone lowers a rank of the chats and the lists. -/
theorem drops_of_totals (hrepo : t.repo = s.repo)
    (h : Drops (totals Chat.ranks ConversationList.ranks) s t) : Drops ranks s t :=
  .tail (by simp only [Function.comp, hrepo]) (.tail (by simp only [Function.comp, hrepo]) h)

theorem drops_append_live (hrepo : t.repo = s.repo)
    (h : Drops (totals Chat.ranks ConversationList.ranks) s t) : Drops (ranks ++ [live]) s t :=
  (drops_of_totals hrepo h).append _

/-- What a chat screen does, the chat does. -/
theorem drops_screen {fs : List (ChatVC → ℕ)} {c : Chat} {screen : ChatVC}
    (h : Drops fs c.screen screen) :
    Drops ([Chat.values, Chat.children] ++ fs.map (· ∘ Chat.screen)) c { c with screen } :=
  .tail rfl (.tail rfl h.map)

/-- What calls a table lowers one of the ranks. -/
theorem drops_of_callsTable (ha : a.isAnswer) (hcalls : a.callsTable)
    (h : (machine F).step s a = some t) : Drops ranks s t := by
  cases a with
  | screen j b =>
    obtain ⟨c, screen, hc, _, hscreen, rfl⟩ := step_screen h
    exact drops_of_totals rfl (drops_setChat rfl hc
      (drops_screen (ChatVC.drops_of_callsTable ha hcalls hscreen)))
  | _ => cases hcalls

/-- Every answer lowers one of the ranks, or has one download less to wait for, unless
    it is data that is no picture. -/
theorem drops_of_isAnswer (ha : a.isAnswer) (hpicture : a.isNoPicture = false)
    (h : (machine F).step s a = some t) : Drops (ranks ++ [live]) s t := by
  cases a with
  | repository b =>
    obtain ⟨hstep, _, _⟩ := step_repository h
    exact ((Repository.drops_of_isAnswer ha hstep).map.append _).append _
  | chatEvent j i =>
    obtain ⟨c, e, hc, he, rfl⟩ := step_chatEvent h
    exact drops_append_live rfl (drops_setChat rfl hc (Chat.drops_receive he))
  | screen j b =>
    obtain ⟨c, screen, hc, _, hscreen, rfl⟩ := step_screen h
    have hdrops := drops_screen (ChatVC.drops_of_isAnswer ha hpicture hscreen)
    have htotals : Drops (totals (Chat.ranks ++ [fun c => c.screen.live])
        (ConversationList.ranks ++ [fun _ => 0])) s (s.setChat j { c with screen }) :=
      drops_setChat rfl hc hdrops
    exact .tail rfl (.tail rfl htotals)
  | listEvent j i =>
    obtain ⟨l, e, hl, he, rfl⟩ := step_listEvent h
    exact drops_append_live rfl (drops_setList rfl hl (ConversationList.drops_receive he))
  | profile j i =>
    obtain ⟨l, peer, location, hl, hi, rfl⟩ := step_profile h
    exact drops_append_live rfl
      (drops_setList rfl hl (ConversationList.drops_downloadLastMessage hi _ _ _))
  | listBlock j =>
    obtain ⟨l, screen, hl, hscreen, rfl⟩ := step_listBlock h
    exact drops_append_live rfl (drops_setList rfl hl (ConversationList.drops_runBlock hscreen))
  | _ => cases ha

/-- The cells of a chat that are asked for leave the ranks alone. -/
theorem ranks_cellForRow {j row : ℕ}
    (h : (machine F).step s (.screen j (.cellForRow row)) = some t) :
    ∀ rank ∈ ranks, rank t = rank s := by
  obtain ⟨c, screen, hc, _, hscreen, rfl⟩ := step_screen h
  obtain ⟨hunpictured, hstale, hrunning⟩ := ChatVC.ranks_cellForRow hscreen
  have hsum : ∀ f : Chat → ℕ, f { c with screen } = f c →
      ((s.chats.set j { c with screen }).map f).sum = (s.chats.map f).sum := by
    intro f hf
    have hset : ((s.chats.set j { c with screen }).map f).sum + f c =
        (s.chats.map f).sum + f { c with screen } := Lists.sum_map_set hc
    omega
  simp only [ranks, Repository.ranks, totals, Chat.ranks, ChatVC.ranks, ConversationList.ranks,
    List.map_cons, List.map_nil, List.cons_append, List.nil_append, List.zipWith_cons_cons,
    List.zipWith_nil_left, List.forall_mem_cons]
  refine ⟨rfl, rfl, ?_, ?_, ?_, ?_, ?_, fun _ h => absurd h List.not_mem_nil⟩
  · exact congrArg (· + _) (hsum Chat.values rfl)
  · exact congrArg (· + _) (hsum Chat.children rfl)
  · exact congrArg (· + _) (hsum _ hunpictured)
  · exact congrArg (· + _) (hsum _ hstale)
  · exact congrArg (· + _) (hsum _ hrunning)

/-! ## At rest -/

/-- Something that is pending can happen. -/
theorem quiet_of_settled (h : (machine F).Settled (·.isAnswer) s) : s.Quiet where
  repo := by
    refine Repository.settled_iff_idle.1 fun b hb => ?_
    refine Option.eq_none_iff_forall_ne_some.2 fun r hr => ?_
    have hnone := h (.repository b) hb
    simp [machine, step, repository, show Repository.step s.repo b = some r from hr] at hnone
  chats c hc := by
    obtain ⟨j, hj⟩ := List.getElem?_of_mem hc
    constructor
    · cases he : c.events with
      | nil => rfl
      | cons e events =>
        have hnone := h (.chatEvent j 0) rfl
        simp [machine, step, hj, Chat.fire, he] at hnone
    · refine (ChatVC.settled_iff_quiet F.sortItems F.validURL).1 fun b hb => ?_
      refine Option.eq_none_iff_forall_ne_some.2 fun screen hscreen => ?_
      have hdelivery : b.isDelivery = false := by cases b <;> first | rfl | cases hb
      have hnone := h (.screen j b) hb
      simp [machine, step, hj, hdelivery,
        show c.screen.step F.sortItems F.validURL b = some screen from hscreen] at hnone
  lists l hl := by
    obtain ⟨j, hj⟩ := List.getElem?_of_mem hl
    constructor
    · cases he : l.events with
      | nil => rfl
      | cons e events =>
        have hnone := h (.listEvent j 0) rfl
        simp [machine, step, hj, ConversationList.fire, he] at hnone
    · cases hp : l.profiles with
      | nil => rfl
      | cons profile profiles =>
        have hnone := h (.profile j 0) rfl
        simp [machine, step, hj, ConversationList.info, hp] at hnone
    · by_contra hq
      have hnone := h (.listBlock j) rfl
      simp [machine, step, hj, ConversationsVC.runBlock, hq] at hnone

/-- Where nothing is pending, nothing can happen that is not up to a user. -/
theorem Quiet.settled (h : s.Quiet) : (machine F).Settled (·.isAnswer) s := by
  intro a ha
  refine Option.eq_none_iff_forall_ne_some.2 fun t ht => ?_
  cases a with
  | repository b =>
    have hstep := (step_repository ht).1
    rw [Repository.settled_iff_idle.2 h.repo b ha] at hstep
    cases hstep
  | chatEvent j i =>
    obtain ⟨c, e, hc, he, _⟩ := step_chatEvent ht
    simp [(h.chats c (List.mem_of_getElem? hc)).events] at he
  | screen j b =>
    obtain ⟨c, screen, hc, _, hstep, _⟩ := step_screen ht
    rw [(ChatVC.settled_iff_quiet ..).2 (h.chats c (List.mem_of_getElem? hc)).screen b ha] at hstep
    cases hstep
  | listEvent j i =>
    obtain ⟨l, e, hl, he, _⟩ := step_listEvent ht
    simp [(h.lists l (List.mem_of_getElem? hl)).events] at he
  | profile j i =>
    obtain ⟨l, peer, location, hl, hi, _⟩ := step_profile ht
    simp [(h.lists l (List.mem_of_getElem? hl)).profiles] at hi
  | listBlock j =>
    obtain ⟨l, screen, hl, hscreen, _⟩ := step_listBlock ht
    simp [ConversationsVC.runBlock, (h.lists l (List.mem_of_getElem? hl)).mainQueue] at hscreen
  | _ => cases ha

/-- Nothing that is not up to a user can happen if and only if nothing is pending. -/
theorem settled_iff_quiet : (machine F).Settled (·.isAnswer) s ↔ s.Quiet :=
  ⟨quiet_of_settled, Quiet.settled⟩

end App

end MagicChat
