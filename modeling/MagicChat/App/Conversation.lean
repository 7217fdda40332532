import MagicChat.App.LiveChat
import MagicChat.App.Origin
import MagicChat.ChatVC.Order
import MagicChat.Repository.Sent

/-!
# The conversation on the screens

A chat at rest shows what its conversation holds, each record in one row
(`Chat.AtRest.bijOn_recordAt`). This is so once no event is pending, if the
conversation has had one creation at a time and the pictures have come in place
(`atRest_of_orderly`). It follows, in every run of the program:

* two chats of one pair of users, at both ends or on two devices of one user, show
  the same messages, and two of different seconds in the same order
  (`same_conversation`);
* where nothing goes wrong between the two users, once all calls have ended, the rows
  are the messages that they have sent each other, each of them once (`shown_once`).
-/

namespace MagicChat

/-- All readers accept the same records. -/
theorem downloadedMessage_ne_none_iff (u v : UserID) (w : Value) :
    downloadedMessage u w ≠ none ↔ downloadedMessage v w ≠ none := by
  have key : ∀ u v, downloadedMessage u w ≠ none → downloadedMessage v w ≠ none := by
    intro u v h
    obtain ⟨message, hmessage⟩ := Option.ne_none_iff_exists'.1 h
    obtain ⟨owner, howner⟩ := downloadedMessage_reader v hmessage
    simp [howner]
  exact ⟨key u v, key v u⟩

namespace ChatVC

/-- The items are told apart by the numbers of their deliveries. -/
theorem Tracked.eq_of_id_eq {s : ChatVC} (h : s.Tracked) {x x' : Item} (hx : x ∈ s.items)
    (hx' : x' ∈ s.items) (he : x.id = x'.id) : x = x' :=
  List.inj_on_of_nodup_map (h.ids ▸ List.nodup_range) (h.items hx) (h.items hx') he

end ChatVC

namespace Chat

/-- The record of the message in a row. -/
def recordAt (c : Chat) (row : ℕ) : Reference :=
  (c.screen.items[row]?.bind fun x => c.sources[x.id]?).getD ⟨"", ""⟩

/-- Nothing is pending, and nothing has gone wrong: the chat has observed the location
    of its pointer, and the items are the messages delivered. -/
structure AtRest (db : Database) (c : Chat) : Prop where
  told : c.Told db
  located : c.Located db
  tracked : c.screen.Tracked
  faithful : c.screen.Faithful
  events : c.events = []

variable {db : Database} {c : Chat} {ref : Reference} {message : Message} {row : ℕ} {x : Item}

theorem recordAt_eq (hx : c.screen.items[row]? = some x) (href : c.sources[x.id]? = some ref) :
    c.recordAt row = ref := by
  rw [recordAt, hx, Option.bind_some, href, Option.getD_some]

/-- A conversation brings each of its records once. -/
theorem nodup_deliveries {user : UserID} {L : Key} {records : Keyed Key Value}
    (h : Keyed.NodupKeys records) : ((deliveries user L records).map Prod.fst).Nodup := by
  rw [Keyed.NodupKeys, List.Nodup, List.pairwise_map] at h
  rw [deliveries, List.Nodup, List.pairwise_map, List.pairwise_filterMap]
  refine h.imp fun {e e'} hne x hx y hy he => hne ?_
  obtain ⟨_, _, rfl⟩ := Option.map_eq_some_iff.1 hx
  obtain ⟨_, _, rfl⟩ := Option.map_eq_some_iff.1 hy
  exact congrArg Reference.key he

namespace AtRest

/-- The location observed is the one of the pointer. -/
theorem observed_perm (h : c.AtRest db) :
    c.observed.Perm (db.location c.user c.peer).toList := by
  have hlocated := h.located
  rwa [Located, locations, h.events, List.filterMap_nil, List.append_nil] at hlocated

/-- What has been delivered is in the conversation. -/
theorem holds (h : c.AtRest db) (hmem : (ref, message) ∈ c.log) : c.Holds db ref := by
  obtain ⟨hobserved, v, hv, hmessage⟩ := h.told.stored hmem
  exact ⟨Option.mem_toList.1 (h.observed_perm.subset hobserved), v, hv, by simp [hmessage]⟩

/-- What is in the conversation is shown. -/
theorem shows (h : c.AtRest db) (hholds : c.Holds db ref) : c.Shows ref := by
  have hfollows : c.Follows db := fun L hL =>
    h.located.mem_iff.2 (Option.mem_toList.2 hL)
  rcases shows_or_awaits h.told hfollows h.tracked h.faithful hholds with hshows | ⟨e, he, _⟩
  · exact hshows
  · exact absurd (h.events ▸ he) List.not_mem_nil

/-- No record is delivered twice. -/
theorem nodup_sources (h : c.AtRest db) : c.sources.Nodup := by
  have hdeliveries := h.told.deliveries.map Prod.fst
  rw [h.events, List.filterMap_nil, List.append_nil, log,
    List.map_fst_zip (by rw [h.told.length, List.length_map])] at hdeliveries
  refine hdeliveries.nodup_iff.2 (((h.observed_perm.flatMap_right _).map _).nodup_iff.2 ?_)
  cases db.location c.user c.peer with
  | none => exact .nil
  | some L =>
    rw [Option.toList_some, List.flatMap_singleton]
    exact nodup_deliveries (db.nodup_conversations L)

/-- The message in a row is the one that its record brings. -/
theorem exists_message (h : c.AtRest db) (hx : c.screen.items[row]? = some x) :
    c.Holds db (c.recordAt row) ∧ ∃ v, db.message (c.recordAt row) = some v ∧
      downloadedMessage c.user v = some x.message := by
  obtain ⟨ref, href, hlog⟩ := h.told.exists_source h.tracked (List.mem_of_getElem? hx)
  rw [recordAt_eq hx href]
  exact ⟨h.holds hlog, (h.told.stored hlog).2⟩

/-- The rows are the records of the conversation, each in one row. -/
theorem bijOn_recordAt (h : c.AtRest db) :
    Set.BijOn c.recordAt {row | row < c.screen.items.length} {ref | c.Holds db ref} := by
  refine ⟨fun row hrow => ?_, fun row hrow row' hrow' he => ?_, fun ref href => ?_⟩
  · exact (h.exists_message (List.getElem?_eq_getElem hrow)).1
  · -- Two rows of one record would hold one message, which is delivered once.
    have hx := List.getElem?_eq_getElem hrow
    have hx' := List.getElem?_eq_getElem hrow'
    obtain ⟨ref, href, _⟩ := h.told.exists_source h.tracked (List.mem_of_getElem? hx)
    obtain ⟨ref', href', _⟩ := h.told.exists_source h.tracked (List.mem_of_getElem? hx')
    rw [recordAt_eq hx href, recordAt_eq hx' href'] at he
    have hid : c.screen.items[row].id = c.screen.items[row'].id :=
      (List.getElem?_inj (List.getElem?_eq_some_iff.1 href).1 h.nodup_sources).1
        (href.trans (he ▸ href'.symm))
    have hitem := h.tracked.eq_of_id_eq (List.getElem_mem hrow) (List.getElem_mem hrow') hid
    have hnodup : c.screen.items.Nodup := h.faithful.1.nodup_iff.2 h.tracked.nodup
    exact (List.getElem?_inj hrow hnodup).1 (hx.trans (hitem ▸ hx'.symm))
  · obtain ⟨x, hx, hsource⟩ := h.shows href
    obtain ⟨row, hrow⟩ := List.getElem?_of_mem hx
    exact ⟨row, (List.getElem?_eq_some_iff.1 hrow).1, recordAt_eq hrow hsource⟩

end AtRest

end Chat

namespace App

variable {F : Foundation} {s : App} {as : List Action} {c c' : Chat} {j k : ℕ}

/-- While the conversation has one creation at a time, the pointers are not replaced. -/
theorem keeps_of_orderly {u v : UserID}
    (horderly : Repository.machine.Along (Repository.Orderly s(u, v))
      ((machine F).collect calls as))
    (h : (machine F).exec as = some s) : (machine F).Along (Keeps u v) as := by
  rintro q _ hq w hw b _ rfl _ _ _
  have hcollect : (machine F).collect calls q <+: (machine F).collect calls as :=
    Machine.collect_isPrefix ((List.prefix_append q _).trans hq) hw h
  have hsettled := Repository.settled_of_orderly (horderly.of_isPrefix hcollect) (exec_repo hw)
  exact hsettled.not_replaces b

/-- Where the conversation has had one creation at a time, and the pictures have come
    in place, a chat with no event pending is at rest. -/
theorem atRest_of_orderly
    (horderly : Repository.machine.Along (Repository.Orderly s(c.user, c.peer))
      ((machine F).collect calls as))
    (hin : (machine F).Along (InPlaceAt j) as) (h : (machine F).exec as = some s)
    (hc : s.chats[j]? = some c) (he : c.events = []) : c.AtRest s.repo.db where
  told := told_of_reachable ⟨as, h⟩ hc
  located := chat_invariant
    (P := fun _ db c' => c'.user = c.user → c'.peer = c.peer → c'.Located db)
    (fun _ db d user peer _ _ => Chat.located_opened db d user peer)
    (fun _ _ _ _ _ _ hr _ ha hj hi hmove => located_of_move hr ha hj hi hmove)
    (keeps_of_orderly horderly h) h j c hc rfl rfl
  tracked := ChatVC.tracked_of_reachable (reachable_screen ⟨as, h⟩ hc)
  faithful := faithful_of_inPlaceAt hin h hc
  events := he

/-- Where nothing goes wrong between two users, the conversation is what names them. -/
theorem holds_iff_between
    (hreg : Repository.machine.Along (Repository.Regular s(c.user, c.peer))
      ((machine F).collect calls as))
    (h : (machine F).exec as = some s) (hq : s.repo.Uncreated s(c.user, c.peer)) (ref : Reference) :
    c.Holds s.repo.db ref ↔ ref ∈ Repository.Between s(c.user, c.peer) s.repo := by
  constructor
  · rintro ⟨hlocation, v, hv, hread⟩
    exact ⟨v, hv, (Repository.names_iff_location hreg (exec_repo h) hq hv).2 hlocation,
      fun reader => (downloadedMessage_ne_none_iff c.user reader v).1 hread⟩
  · rintro ⟨v, hv, hnames, hread⟩
    exact ⟨(Repository.names_iff_location hreg (exec_repo h) hq hv).1 hnames, v, hv, hread c.user⟩

/-- Where nothing goes wrong between two users, once all calls have ended, the rows of a
    chat in which nothing is pending are the messages that the two have sent each other,
    each of them once. -/
theorem shown_once
    (hreg : Repository.machine.Along (Repository.Regular s(c.user, c.peer))
      ((machine F).collect calls as))
    (hin : (machine F).Along (InPlaceAt j) as) (h : (machine F).exec as = some s)
    (hidle : s.repo.Idle) (hc : s.chats[j]? = some c) (he : c.events = []) :
    ∃ call : ℕ → ℕ,
      Set.BijOn call {row | row < c.screen.items.length}
        {n | ∃ r a, Repository.StartedAt ((machine F).collect calls as) n r a ∧
          r.Sends s(c.user, c.peer) a} ∧
      ∀ row x, c.screen.items[row]? = some x → ∃ r a u,
        Repository.StartedAt ((machine F).collect calls as) (call row) r a ∧
          r.Composes ((machine F).collect calls as) (call row) a u ∧
          downloadedMessage c.user (.dictionary u.values) = some x.message := by
  have hrest : c.AtRest s.repo.db :=
    atRest_of_orderly (hreg.mono fun _ _ hr => hr.orderly) hin h hc he
  obtain ⟨origin, hbij, hcomposes⟩ := Repository.exists_bijOn_sends hreg (exec_repo h) hidle
  have hholds : {ref | c.Holds s.repo.db ref} = Repository.Between s(c.user, c.peer) s.repo :=
    Set.ext fun ref => holds_iff_between hreg h hidle.uncreated ref
  refine ⟨origin ∘ c.recordAt, hbij.comp (hholds ▸ hrest.bijOn_recordAt), fun row x hx => ?_⟩
  obtain ⟨_, v, hv, hread⟩ := hrest.exists_message hx
  obtain ⟨r, a, u, hstart, hcomp, hsame⟩ := hcomposes _ v hv
  exact ⟨r, a, u, hstart, hcomp, (downloadedMessage_of_sameRecord hsame c.user).symm.trans hread⟩

/-- `u` has a chat with `v` open and sends a first message, and `v` opens the chat with
    `u`, where it is marked as read. -/
def firstMessageShown : List Action :=
  openedChat ++
  [.repository (.resume 0 (.snapshot ⟨"", ""⟩)),
    .repository (.send 0 (composeMessage .text (.field (.string "hi")) 1) "v"),
    .repository (.resume 1 (.snapshot ⟨"L", "k"⟩)), .repository (.resume 1 (.write true)),
    .repository (.resume 1 (.write true)), .repository (.resume 1 (.write true)),
    .chatEvent 0 0, .chatEvent 0 0, .openChat 1 "u", .chatEvent 1 0, .chatEvent 1 0] ++
  readConversation 2 ++ [.repository (.resume 2 (.write true))]

/-- Nothing goes wrong. -/
theorem regular_firstMessageShown :
    Repository.machine.Along (Repository.Regular s("u", "v"))
      ((machine .insertion).collect calls firstMessageShown) := by
  refine Machine.along_iff_alongFrom.2 ?_
  -- `u` and `v` log in, and `u` opens the chat.
  refine .cons (.of_calls trivial rfl nofun (.inl nofun)) rfl ?_
  refine .cons (.of_calls trivial rfl nofun (.inl nofun)) rfl ?_
  refine .cons (.of_calls trivial rfl nofun (.inl nofun)) rfl ?_
  refine .cons (.of_calls trivial rfl nofun (.inr (by decide))) rfl ?_
  -- `u` sends the message.
  refine .cons (.of_calls trivial rfl nofun (.inl nofun)) rfl ?_
  refine .cons (.of_calls trivial rfl nofun (.inr (by decide))) rfl ?_
  refine .cons (.of_calls rfl rfl nofun (.inl nofun)) rfl ?_
  refine .cons (.of_calls rfl rfl nofun (.inl nofun)) rfl ?_
  refine .cons (.of_calls rfl rfl nofun (.inl nofun)) rfl ?_
  -- `v` opens the chat, and marks the message.
  refine .cons (.of_calls trivial rfl nofun (.inl nofun)) rfl ?_
  refine .cons (.of_calls trivial rfl nofun (.inr (by decide))) rfl ?_
  refine .cons (.of_calls trivial rfl nofun (.inr (by decide))) rfl ?_
  exact .cons (.of_calls rfl rfl nofun (.inl nofun)) rfl trivial

theorem inPlaceAt_firstMessageShown (j : ℕ) :
    (machine .insertion).Along (InPlaceAt j) firstMessageShown := by
  have hnone : ∀ a ∈ firstMessageShown, ∀ b, a ≠ .screen j b := by
    simp [firstMessageShown, openedChat, readConversation]
  exact (Machine.along_of_forall hnone).mono fun _ a ha b _ hb => absurd hb (ha b)

theorem shown_once_firstMessageShown : ∃ s c,
    (machine .insertion).exec firstMessageShown = some s ∧ s.chats[0]? = some c ∧
    c.screen.items.length = 1 ∧ ∃ call : ℕ → ℕ,
      Set.BijOn call {row | row < c.screen.items.length}
        {n | ∃ r a, Repository.StartedAt ((machine .insertion).collect calls firstMessageShown)
          n r a ∧ r.Sends s(c.user, c.peer) a} ∧
      ∀ row x, c.screen.items[row]? = some x → ∃ r a u,
        Repository.StartedAt ((machine .insertion).collect calls firstMessageShown)
          (call row) r a ∧
          r.Composes ((machine .insertion).collect calls firstMessageShown) (call row) a u ∧
          downloadedMessage c.user (.dictionary u.values) = some x.message := by
  obtain ⟨s, hs, c, hc, hlength, hpair, hcalls, he⟩ : ∃ s,
      (machine .insertion).exec firstMessageShown = some s ∧ ∃ c, s.chats[0]? = some c ∧
      c.screen.items.length = 1 ∧ s(c.user, c.peer) = s("u", "v") ∧
      s.repo.calls = [.finished, .finished, .markWrites "v" "L" []] ∧ c.events = [] :=
    ⟨_, rfl, _, rfl, rfl, rfl, rfl, rfl⟩
  have hreg := regular_firstMessageShown
  rw [← hpair] at hreg
  exact ⟨s, c, hs, hc, hlength, shown_once hreg (inPlaceAt_firstMessageShown 0) hs
    (Repository.idle_of_calls hcalls (by decide)) hc he⟩

end App

end MagicChat
