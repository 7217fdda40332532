import MagicChat.App.MarkRead
import MagicChat.ChatVC.Location
import MagicChat.Repository.Origin

/-!
# Where the messages of a chat come from

The repository within the program runs by itself: its actions are those of the
program, with the calls to `markMessagesRead` of the chats (`App.calls`). So what
holds of the records in every run of the repository (`Repository.Traced`) holds of
what the chats make of them:

* every message of every chat says what its sender has given to a call, and
  two messages from different records come from different calls
  (`shown_composed`);
* where the screens compose what is sent, as they do in the program, a location
  message opens the location that its sender has sent (`opens_sent`).
-/

namespace MagicChat

namespace Chat

/-- What a chat has been told is stored. -/
theorem Told.stored {db : Database} {c : Chat} (h : c.Told db) {ref : Reference}
    {message : Message} (hmem : (ref, message) ∈ c.log) :
    ref.location ∈ c.observed ∧
      ∃ v, db.message ref = some v ∧ downloadedMessage c.user v = some message := by
  have hstored := h.deliveries.subset (List.mem_append_left _ hmem)
  obtain ⟨L, hobserved, hL⟩ := List.mem_flatMap.1 hstored
  obtain ⟨⟨key, v⟩, hv, hdelivery⟩ := List.mem_filterMap.1 hL
  obtain ⟨message', hmessage, he⟩ := Option.map_eq_some_iff.1 hdelivery
  cases he
  exact ⟨hobserved, v, (db.nodup_conversations L).lookup_eq_some_iff.2 hv, hmessage⟩

/-- What is on the screen has been told. -/
theorem Told.exists_source {db : Database} {c : Chat} (h : c.Told db) (htr : c.screen.Tracked)
    {x : Item} (hx : x ∈ c.screen.items) :
    ∃ ref, c.sources[x.id]? = some ref ∧ (ref, x.message) ∈ c.log := by
  obtain ⟨i, hi⟩ := List.getElem?_of_mem (htr.items hx)
  obtain ⟨hlt, _⟩ := List.getElem?_eq_some_iff.1 hi
  rw [← h.length] at hlt
  have href : c.sources[i]? = some c.sources[i] := List.getElem?_eq_getElem hlt
  refine ⟨c.sources[i], by rw [htr.id_eq hi, href], List.mem_of_getElem? (i := i) ?_⟩
  refine List.getElem?_zip_eq_some.2 ⟨href, ?_⟩
  rw [List.getElem?_map, hi]
  rfl

end Chat

namespace App

variable {F : Foundation} {s t : App} {a : Action} {as : List Action}

/-- The actions of the repository in a step of the program. -/
def calls (s : App) : Action → List Repository.Action
  | .repository a => [a]
  | .openChat device peer => [.markMessagesRead device peer]
  | .closeChat j => s.chats[j]?.toList.map fun c => .markMessagesRead c.device c.peer
  | _ => []

theorem execFrom_calls (h : (machine F).step s a = some t) :
    Repository.machine.execFrom s.repo (s.calls a) = some t.repo := by
  cases a with
  | repository b => exact Machine.execFrom_singleton.trans (step_repository h).1
  | openChat d peer =>
    obtain ⟨user, _, rfl⟩ := step_openChat h
    rfl
  | closeChat j =>
    obtain ⟨c, hc, rfl⟩ := step_closeChat h
    rw [calls, hc]
    rfl
  | chatEvent j i =>
    obtain ⟨_, _, _, _, rfl⟩ := step_chatEvent h
    rfl
  | screen j b =>
    obtain ⟨_, _, _, _, _, rfl⟩ := step_screen h
    rfl
  | openList d =>
    obtain ⟨_, _, rfl⟩ := step_openList h
    rfl
  | listEvent j i =>
    obtain ⟨_, _, _, _, rfl⟩ := step_listEvent h
    rfl
  | profile j i =>
    obtain ⟨_, _, _, _, _, rfl⟩ := step_profile h
    rfl
  | listBlock j =>
    obtain ⟨_, _, _, _, rfl⟩ := step_listBlock h
    rfl

/-- The repository within the program runs by itself. -/
theorem exec_repo (h : (machine F).exec as = some s) :
    Repository.machine.exec ((machine F).collect calls as) = some s.repo :=
  Machine.exec_collect App.repo rfl (fun _ _ _ h => execFrom_calls h) h

/-- An action of the repository that stores something is one of the program, taken in
    the same state of the repository. -/
theorem exists_of_startedAt {r : Repository} {n : ℕ} {b : Repository.Action}
    (h : (machine F).exec as = some s)
    (hstart : Repository.StartedAt ((machine F).collect calls as) n r b) (hb : r.Accepts b) :
    ∃ p w, p ++ [.repository b] <+: as ∧ (machine F).exec p = some w ∧ w.repo = r := by
  obtain ⟨q, hq, hr, _⟩ := hstart
  obtain ⟨p, a, w, l, hp, hw, hl, rfl⟩ := Machine.exists_of_isPrefix_collect h hq
  have hmem : b ∈ w.calls a := hl.subset (List.mem_append_right l (List.mem_singleton_self b))
  have hmark : ∀ d peer, b ≠ .markMessagesRead d peer := by
    rintro d peer rfl
    cases hb
  cases a with
  | repository b' =>
    obtain rfl := List.mem_singleton.1 hmem
    obtain rfl : l = [] := by simpa [calls] using hl.length_le
    rw [List.append_nil, exec_repo hw] at hr
    exact ⟨p, w, hp, hw, Option.some.inj hr⟩
  | openChat d peer => exact absurd (List.mem_singleton.1 hmem) (hmark d peer)
  | closeChat j =>
    obtain ⟨c, _, rfl⟩ := List.mem_map.1 hmem
    exact absurd rfl (hmark c.device c.peer)
  | _ => exact absurd hmem List.not_mem_nil

/-- What is on the screen of a chat has been delivered from a record. -/
theorem exists_source (h : (machine F).Reachable s) {j : ℕ} {c : Chat}
    (hc : s.chats[j]? = some c) {x : Item} (hx : x ∈ c.screen.items) :
    ∃ ref, c.sources[x.id]? = some ref ∧ (ref, x.message) ∈ c.log :=
  (told_of_reachable h hc).exists_source (ChatVC.tracked_of_reachable (reachable_screen h hc)) hx

/-- A message of a chat is the one that the action assigned to its record has composed. -/
theorem composed_of_mem_items {origin : Reference → ℕ} (h : (machine F).exec as = some s)
    (htraced : Repository.Traced ((machine F).collect calls as) s.repo origin) {j : ℕ} {c : Chat}
    (hc : s.chats[j]? = some c) {x : Item} (hx : x ∈ c.screen.items) :
    ∃ ref, (ref, x.message) ∈ c.log ∧ s.repo.db.message ref ≠ none ∧
      ∃ r a u, Repository.StartedAt ((machine F).collect calls as) (origin ref) r a ∧
        r.Composes ((machine F).collect calls as) (origin ref) a u ∧
        downloadedMessage c.user (.dictionary u.values) = some x.message := by
  obtain ⟨ref, _, href⟩ := exists_source ⟨as, h⟩ hc hx
  obtain ⟨_, v, hv, hmessage⟩ := (told_of_reachable ⟨as, h⟩ hc).stored href
  obtain ⟨r, a, u, hstart, hcomposes, hsame⟩ := htraced.composes hv
  refine ⟨ref, href, by simp [hv], r, a, u, hstart, hcomposes, ?_⟩
  rw [← downloadedMessage_of_sameRecord hsame, hmessage]

/-- In every run, each message of each chat is the one that an action has composed, a
    photo with the link that has come to its call. The actions can be assigned to the
    records, different ones to different records. -/
theorem shown_composed (h : (machine F).exec as = some s) {j : ℕ} {c : Chat}
    (hc : s.chats[j]? = some c) :
    ∃ origin : Reference → ℕ, Set.InjOn origin {ref | s.repo.db.message ref ≠ none} ∧
      ∀ x ∈ c.screen.items, ∃ ref, (ref, x.message) ∈ c.log ∧ s.repo.db.message ref ≠ none ∧
        ∃ r a u, Repository.StartedAt ((machine F).collect calls as) (origin ref) r a ∧
          r.Composes ((machine F).collect calls as) (origin ref) a u ∧
          downloadedMessage c.user (.dictionary u.values) = some x.message := by
  obtain ⟨origin, htraced⟩ := Repository.exists_traced (exec_repo h)
  exact ⟨origin, htraced.injOn, fun x hx => composed_of_mem_items h htraced hc hx⟩

/-- Where only `send` uploads messages, what a chat shows has been sent, but for the
    picture of a photo. -/
theorem sent_of_mem_items (h : (machine F).exec as = some s)
    (hupload : ∀ d values toID, .repository (.uploadMessage d values toID) ∉ as) {j : ℕ} {c : Chat}
    (hc : s.chats[j]? = some c) {x : Item} (hx : x ∈ c.screen.items) :
    ∃ d message toID, .repository (.send d message toID) ∈ as ∧
      message.type = x.message.type ∧ message.timestamp = x.message.timestamp ∧
      (x.message.type ≠ .photo → message.content = x.message.content) := by
  obtain ⟨origin, htraced⟩ := Repository.exists_traced (exec_repo h)
  obtain ⟨ref, _, _, r, b, u, hstart, hu, hmessage⟩ := composed_of_mem_items h htraced hc hx
  obtain ⟨p, _, hp, _, _⟩ := exists_of_startedAt h hstart hu.accepts
  have hb := hp.subset (List.mem_append_right p (List.mem_singleton_self _))
  cases hu with
  | @send d fromID toID message content hd hphoto hcontent =>
    refine ⟨d, message, toID, hb, ?_⟩
    cases content with
    | string content =>
      rw [downloadedMessage_messageValues] at hmessage
      rw [← Option.some.inj hmessage]
      exact ⟨rfl, rfl, fun _ => hcontent⟩
    | _ => cases hmessage
  | @photo d fromID toID _ message path hphoto _ =>
    rw [downloadedMessage_messageValues] at hmessage
    rw [← Option.some.inj hmessage]
    exact ⟨d, message, toID, hb, hphoto.type, rfl, fun hne => absurd rfl hne⟩
  | @uploadMessage d fromID toID values => exact absurd hb (hupload d values toID)

/-! ## Locations -/

section locations

variable {D : Type*} {parse : String → Option D} {print : D → String}

variable (print) in
/-- What is sent has been composed by a chat screen: a text, a photo or a location.
    `uploadMessage` is called by `send` alone. -/
inductive Composed : Action → Prop
  | text {d : Device} {text : String} {timestamp : Int} {toID : UserID} :
    Composed (.repository (.send d (composeMessage .text (.field (.string text)) timestamp) toID))
  | photo {d : Device} {image : UIImage} {timestamp : Int} {toID : UserID} :
    Composed (.repository (.send d (composeMessage .photo (.image image) timestamp) toID))
  | location {d : Device} {latitude longitude : D} {timestamp : Int} {toID : UserID} :
    Composed (.repository
      (.send d (ChatVC.locationMessage print latitude longitude timestamp) toID))
  | other {a : Action} : (∀ d message toID, a ≠ .repository (.send d message toID)) →
    (∀ d values toID, a ≠ .repository (.uploadMessage d values toID)) → Composed a

/-- Where a chat screen composes what is sent, a location message is one that has been sent. -/
theorem sent_of_location (h : (machine F).exec as = some s) (hcomposed : ∀ a ∈ as, Composed print a)
    {j : ℕ} {c : Chat} (hc : s.chats[j]? = some c) {x : Item} (hx : x ∈ c.screen.items)
    (htype : x.message.type = .location) :
    ∃ d latitude longitude toID,
      .repository (.send d
        (ChatVC.locationMessage print latitude longitude x.message.timestamp) toID) ∈ as ∧
      x.message.content = .field (.string (ChatVC.coordinate print latitude longitude)) := by
  have hupload : ∀ d values toID, .repository (.uploadMessage d values toID) ∉ as := by
    intro d values toID hmem
    generalize ha : Action.repository (.uploadMessage d values toID) = a at hmem
    cases hcomposed a hmem with
    | other _ hupload => exact absurd ha.symm (hupload d values toID)
    | _ => cases ha
  obtain ⟨d, message, toID, hsend, hmessage, htimestamp, hcontent⟩ :=
    sent_of_mem_items h hupload hc hx
  have hcontent := hcontent (by simp [htype])
  rw [htype] at hmessage
  generalize ha : Action.repository (.send d message toID) = a at hsend
  cases hcomposed a hsend with
  | @location _ latitude longitude timestamp toID' =>
    cases ha
    exact ⟨d, latitude, longitude, toID, htimestamp ▸ hsend, hcontent.symm⟩
  | text =>
    cases ha
    cases hmessage
  | photo =>
    cases ha
    cases hmessage
  | other hsend => exact absurd ha.symm (hsend d message toID)

/-- Where chat screens compose what is sent, and coordinates are printed so that they
    can be read back, a location message opens the location that has been sent with it. -/
theorem opens_sent (hparse : ∀ x, parse (print x) = some x)
    (hprint : ∀ x, ':' ∉ (print x).toList) (h : (machine F).exec as = some s)
    (hcomposed : ∀ a ∈ as, Composed print a) {j row : ℕ} {c : Chat} (hc : s.chats[j]? = some c)
    {x : Item} (hrow : c.screen.items[row]? = some x) (htype : x.message.type = .location) :
    ∃ d latitude longitude toID,
      .repository (.send d
        (ChatVC.locationMessage print latitude longitude x.message.timestamp) toID) ∈ as ∧
      c.screen.didSelectRow parse row = .showLocation latitude longitude := by
  obtain ⟨d, latitude, longitude, toID, hsend, hcontent⟩ :=
    sent_of_location h hcomposed hc (List.mem_of_getElem? hrow) htype
  have hshows : c.screen.ShowsLocation row (ChatVC.coordinate print latitude longitude) :=
    ⟨x, hrow, htype, hcontent⟩
  refine ⟨d, latitude, longitude, toID, hsend, ?_⟩
  rw [hshows.didSelectRow_eq, ChatVC.decodeLocation_coordinate hparse hprint]

end locations

/-- In the open chat, `u` sends `v` a location. -/
def locationSeen : List Action :=
  openedChat ++
  [.repository (.send 0 (ChatVC.locationMessage ChatVC.printDegrees 45 19 1) "v"),
    .repository (.resume 1 (.snapshot ⟨"L", "k"⟩)), .repository (.resume 1 (.write true)),
    .repository (.resume 1 (.write true)), .chatEvent 0 0, .chatEvent 0 0]

theorem composed_locationSeen : ∀ a ∈ locationSeen, Composed ChatVC.printDegrees a := by
  simp only [locationSeen, openedChat, List.cons_append, List.nil_append, List.forall_mem_cons]
  refine ⟨?_, ?_, ?_, ?_, .location, ?_, ?_, ?_, ?_, ?_, fun a ha => absurd ha List.not_mem_nil⟩
  all_goals exact .other (by simp) (by simp)

theorem shown_composed_locationSeen : ∃ s c, (machine .insertion).exec locationSeen = some s ∧
    s.chats[0]? = some c ∧ c.screen.items.length = 1 ∧
    ∃ origin : Reference → ℕ, Set.InjOn origin {ref | s.repo.db.message ref ≠ none} ∧
      ∀ x ∈ c.screen.items, ∃ ref, (ref, x.message) ∈ c.log ∧ s.repo.db.message ref ≠ none ∧
        ∃ r a u, Repository.StartedAt ((machine .insertion).collect calls locationSeen)
          (origin ref) r a ∧
          r.Composes ((machine .insertion).collect calls locationSeen) (origin ref) a u ∧
          downloadedMessage c.user (.dictionary u.values) = some x.message := by
  obtain ⟨s, hs, c, hc, hlength⟩ : ∃ s, (machine .insertion).exec locationSeen = some s ∧
      ∃ c, s.chats[0]? = some c ∧ c.screen.items.length = 1 := ⟨_, rfl, _, rfl, rfl⟩
  exact ⟨s, c, hs, hc, hlength, shown_composed hs hc⟩

theorem opens_sent_locationSeen : ∃ s c x, (machine .insertion).exec locationSeen = some s ∧
    s.chats[0]? = some c ∧ c.screen.items[0]? = some x ∧
    ∃ d latitude longitude toID,
      .repository (.send d
        (ChatVC.locationMessage ChatVC.printDegrees latitude longitude x.message.timestamp) toID) ∈
          locationSeen ∧
      c.screen.didSelectRow ChatVC.parseDegrees 0 = .showLocation latitude longitude := by
  obtain ⟨s, hs, c, hc, x, hx, htype⟩ : ∃ s, (machine .insertion).exec locationSeen = some s ∧
      ∃ c, s.chats[0]? = some c ∧ ∃ x, c.screen.items[0]? = some x ∧ x.message.type = .location :=
    ⟨_, rfl, _, rfl, _, rfl, rfl⟩
  exact ⟨s, c, x, hs, hc, hx, opens_sent ChatVC.parseDegrees_printDegrees
    ChatVC.not_mem_printDegrees hs composed_locationSeen hc hx htype⟩

end App

end MagicChat
