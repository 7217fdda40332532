import MagicChat.App.Step
import MagicChat.ConversationsVC.Listing
import MagicChat.Repository.Changes

/-!
# The lists of the program

Every list of conversations that the program opens goes through the states of a
listing (`Simulates`): its observers are told of each pointer once, since a
pointer that is there is never new again, and a profile that comes or a snapshot
of a conversation is one step of the listing, or several.

So what holds of every listing holds of every list of the program
(`listed_of_reachable`).
-/

namespace MagicChat

/-- The peer whose pointer an event is about. -/
def ListEvent.peer? : ListEvent → Option UserID
  | .childAdded peer _ => some peer
  | .value .. => none

namespace ConversationList

/-- The list is in the state `g` of a listing, on what the database holds. -/
structure Simulates (db : Database) (l : ConversationList) (g : Listing) : Prop where
  screen : g.screen = l.screen
  profiles : g.profiles.Perm (l.profiles.map Prod.fst)
  nodup : (g.peers ++ l.events.filterMap ListEvent.peer?).Nodup
  keys : g.peers ++ l.events.filterMap ListEvent.peer? ⊆ (db.users l.user).map Prod.fst
  observers : ∀ o ∈ l.observers, o.conversation < l.screen.conversations.length
  values : ∀ o snapshot, .value o snapshot ∈ l.events →
    o.conversation < l.screen.conversations.length

variable {db db' : Database} {l : ConversationList} {g : Listing} {T : Sorter (Int × ℕ) Later}

theorem peers_pointerEvents (pointers : Keyed UserID Value) :
    (pointerEvents pointers).filterMap ListEvent.peer? = pointers.map Prod.fst := by
  rw [pointerEvents, List.filterMap_map, ← List.filterMap_eq_map]
  rfl

/-- The observers are told of the peers whose pointers are new. -/
theorem peers_changes :
    (l.changes db db').filterMap ListEvent.peer? =
      (Keyed.added (db.users l.user) (db'.users l.user)).map Prod.fst := by
  have hvalues : ((l.observers.filter fun o =>
      db'.conversations o.location ≠ db.conversations o.location).map fun o =>
        ListEvent.value o (db'.conversations o.location)).filterMap ListEvent.peer? = [] := by
    rw [List.filterMap_map]
    exact List.filterMap_eq_nil_iff.2 fun _ _ => rfl
  rw [changes, List.filterMap_append, peers_pointerEvents, hvalues, List.append_nil]

/-- The values that the observers are told of are for the observers there are. -/
theorem mem_observers_of_mem_changes {o : LocationObserver} {snapshot : Keyed Key Value}
    (h : .value o snapshot ∈ l.changes db db') : o ∈ l.observers := by
  rcases List.mem_append.1 h with h | h
  · simp [pointerEvents] at h
  · obtain ⟨o', ho', he⟩ := List.mem_map.1 h
    obtain ⟨rfl, _⟩ := ListEvent.value.inj he
    exact (List.mem_filter.1 ho').1

/-! ## The moves of a list -/

theorem simulates_opened (db : Database) (d : Device) (user : UserID) :
    Simulates db (opened db d user) {} where
  screen := rfl
  profiles := .nil
  nodup := by
    rw [opened, peers_pointerEvents]
    exact db.nodup_users user
  keys := by
    rw [opened, peers_pointerEvents]
    exact List.Subset.refl _
  observers _ h := absurd h List.not_mem_nil
  values o snapshot h := by simp [opened, pointerEvents] at h

/-- A change of the database tells of pointers that have not been told of. -/
theorem Simulates.notify (h : l.Simulates db g)
    (hkeys : (db.users l.user).map Prod.fst ⊆ (db'.users l.user).map Prod.fst) :
    (l.notify db db').Simulates db' g where
  screen := h.screen
  profiles := h.profiles
  nodup := by
    rw [ConversationList.notify, List.filterMap_append, peers_changes, ← List.append_assoc]
    refine h.nodup.append ((db'.nodup_users l.user).added _) fun peer hold hnew => ?_
    exact Keyed.not_mem_keys_of_mem_added hnew (h.keys hold)
  keys := by
    rw [ConversationList.notify, List.filterMap_append, peers_changes, ← List.append_assoc]
    refine List.append_subset.2 ⟨List.Subset.trans h.keys hkeys, ?_⟩
    exact List.map_subset _ (List.filter_subset_self _)
  observers := h.observers
  values o snapshot hmem := by
    rcases List.mem_append.1 hmem with hmem | hmem
    · exact h.values o snapshot hmem
    · exact h.observers o (mem_observers_of_mem_changes hmem)

/-- A snapshot of a conversation is processed message by message. -/
theorem leads_receiveAll {k : ℕ} (hk : k < g.screen.conversations.length)
    (messages : List Message) :
    (Listing.machine T).Leads g { g with screen := g.screen.receiveAll T k messages } := by
  induction messages generalizing g with
  | nil => exact .refl g
  | cons message messages ih =>
    have hstep : (Listing.machine T).step g (.receive k message) =
        some { g with screen := g.screen.receive T k message } := by
      simp [Listing.machine, Listing.step, hk]
    refine (Machine.Leads.of_step hstep).trans (ih ?_)
    rwa [ConversationsVC.length_conversations_receive]

/-- An event is one step of the listing, or several. -/
theorem Simulates.receive (h : l.Simulates db g) {i : ℕ} {e : ListEvent}
    (he : l.events[i]? = some e) :
    ∃ g', (Listing.machine T).Leads g g' ∧
      (ConversationList.receive T { l with events := l.events.eraseIdx i } e).Simulates db g' := by
  have hpeers : (g.peers ++ e.peer?.toList ++
      (l.events.eraseIdx i).filterMap ListEvent.peer?).Perm
        (g.peers ++ l.events.filterMap ListEvent.peer?) := by
    rw [List.append_assoc]
    exact (Lists.filterMap_perm_eraseIdx ListEvent.peer? he).symm.append_left g.peers
  have hnodup := hpeers.nodup_iff.2 h.nodup
  have hkeys := List.Subset.trans hpeers.subset h.keys
  have hvalues : ∀ o snapshot, .value o snapshot ∈ l.events.eraseIdx i →
      o.conversation < l.screen.conversations.length := fun o snapshot hmem =>
    h.values o snapshot (List.mem_of_mem_eraseIdx hmem)
  cases e with
  | childAdded peer snap =>
    -- The pointer is pending, so the listing has not had it.
    have hnew : peer ∉ g.peers := fun hmem =>
      List.disjoint_of_nodup_append hnodup.of_append_left hmem (List.mem_singleton_self peer)
    have hstep : (Listing.machine T).step g (.childAdded peer snap) =
        some (g.childAdded peer snap) := if_neg hnew
    refine ⟨g.childAdded peer snap, .of_step hstep, ?_⟩
    rw [ConversationList.receive]
    cases hL : snap.location with
    | none =>
      refine ⟨h.screen, ?_, hnodup, hkeys, h.observers, hvalues⟩
      simpa [Listing.childAdded, hL] using h.profiles
    | some L =>
      refine ⟨h.screen, ?_, hnodup, hkeys, h.observers, hvalues⟩
      simpa [Listing.childAdded, hL] using h.profiles.append_right [peer]
  | value o snapshot =>
    -- One step of the listing for each message of the snapshot.
    have hk : o.conversation < g.screen.conversations.length :=
      h.screen ▸ h.values o snapshot (List.mem_of_getElem? he)
    rw [ListEvent.peer?, Option.toList_none, List.append_nil] at hnodup hkeys
    refine ⟨_, leads_receiveAll hk (listedMessages o.currentUserID snapshot), ?_⟩
    refine ⟨?_, h.profiles, hnodup, hkeys, fun o' ho' => ?_, fun o' snapshot' hmem => ?_⟩
    · rw [h.screen]
      rfl
    · rw [ConversationList.receive, ConversationsVC.length_conversations_receiveAll]
      exact h.observers o' ho'
    · rw [ConversationList.receive, ConversationsVC.length_conversations_receiveAll]
      exact hvalues o' snapshot' hmem

/-- Observing the conversation of an object of the list tells of no pointer. -/
theorem Simulates.downloadLastMessage (h : l.Simulates db g) (currentUser : Option UserID) {k : ℕ}
    (hk : k < l.screen.conversations.length) (L : Key) :
    (downloadLastMessage db currentUser l k L).Simulates db g := by
  cases currentUser with
  | none => exact h
  | some currentUserID =>
    have hevents :
        (ConversationList.downloadLastMessage db (some currentUserID) l k L).events.filterMap
          ListEvent.peer? = l.events.filterMap ListEvent.peer? := by
      rw [ConversationList.downloadLastMessage, List.filterMap_append]
      exact List.append_nil _
    refine ⟨h.screen, h.profiles, ?_, ?_, fun o ho => ?_, fun o snapshot hmem => ?_⟩
    · rw [hevents]
      exact h.nodup
    · rw [hevents]
      exact h.keys
    · rcases List.mem_append.1 ho with ho | ho
      · exact h.observers o ho
      · obtain rfl := List.mem_singleton.1 ho
        exact hk
    · rcases List.mem_append.1 hmem with hmem | hmem
      · exact h.values o snapshot hmem
      · obtain ⟨rfl, _⟩ := ListEvent.value.inj (List.mem_singleton.1 hmem)
        exact hk

/-- A profile that comes is a step of the listing. -/
theorem Simulates.info {currentUser : Option UserID} (h : l.Simulates db g) {i : ℕ} {peer : UserID}
    {L : Key} (he : l.profiles[i]? = some (peer, L)) :
    ∃ g', (Listing.machine T).Leads g g' ∧
      (ConversationList.downloadLastMessage db currentUser
        { l with
          profiles := l.profiles.eraseIdx i
          screen := l.screen.append { user := peer, lastMessage := emptyMessage } }
        l.screen.conversations.length L).Simulates db g' := by
  have hprofiles : g.profiles.Perm (peer :: (l.profiles.eraseIdx i).map Prod.fst) :=
    h.profiles.trans ((Lists.perm_cons_eraseIdx he).map Prod.fst)
  have hstep : (Listing.machine T).step g (.info peer) = some (g.info peer) :=
    if_pos (hprofiles.mem_iff.2 List.mem_cons_self)
  -- The objects that were there are still in their places, and there is one more.
  have hinfo : Simulates db
      { l with
        profiles := l.profiles.eraseIdx i
        screen := l.screen.append { user := peer, lastMessage := emptyMessage } }
      (g.info peer) := by
    refine ⟨?_, ?_, h.nodup, h.keys, fun o ho => ?_, fun o snapshot hmem => ?_⟩
    · rw [← h.screen]
      rfl
    · have herase := hprofiles.erase peer
      rwa [List.erase_cons_head] at herase
    · rw [ConversationsVC.length_conversations_append]
      exact Nat.lt_succ_of_lt (h.observers o ho)
    · rw [ConversationsVC.length_conversations_append]
      exact Nat.lt_succ_of_lt (h.values o snapshot hmem)
  refine ⟨g.info peer, .of_step hstep, hinfo.downloadLastMessage currentUser ?_ L⟩
  rw [ConversationsVC.length_conversations_append]
  exact Nat.lt_succ_self _

theorem Simulates.block (h : l.Simulates db g) {screen : ConversationsVC}
    (hs : l.screen.runBlock = some screen) :
    ∃ g', (Listing.machine T).Leads g g' ∧
      Simulates db { l with screen } g' := by
  have hstep : (Listing.machine T).step g .runBlock = some { g with screen } := by
    change g.screen.runBlock.map _ = _
    rw [h.screen, hs]
    rfl
  have hconversations := ConversationsVC.runBlock_conversations hs
  refine ⟨{ g with screen }, .of_step hstep, rfl, h.profiles, h.nodup, h.keys, ?_, ?_⟩
  · rw [hconversations]
    exact h.observers
  · rw [hconversations]
    exact h.values

end ConversationList

namespace App

variable {F : Foundation} {s t : App}

/-- The pointers of a user stay. -/
theorem users_subset {r r' : Repository} {b : Repository.Action} (hs : r.Fresh)
    (h : Repository.machine.step r b = some r') (x : UserID) :
    (r.db.users x).map Prod.fst ⊆ (r'.db.users x).map Prod.fst := by
  rcases Repository.users_step hs h x with he | ⟨y, L, _, he⟩
  · rw [he]
    exact List.Subset.refl _
  · intro k hk
    rw [he]
    exact Keyed.mem_keys_set.2 (.inr hk)

/-- A list of the program goes from a state of a listing to the next one, or stays there. -/
theorem simulates_of_move {j : ℕ} {l l' : ConversationList} {a : Action} {g : Listing}
    (hr : (machine F).Reachable s) (hg : l.Simulates s.repo.db g) (h : ListMove F s t j l a l') :
    ∃ g', (Listing.machine F.sortConversations).Leads g g' ∧ l'.Simulates t.repo.db g' := by
  cases h with
  | notify hstep =>
    have hfresh := Repository.fresh_of_reachable (reachable_repo hr)
    exact ⟨g, .refl g, hg.notify (users_subset hfresh hstep l.user)⟩
  | receive he hrepo =>
    rw [hrepo]
    exact hg.receive he
  | info he hrepo =>
    rw [hrepo]
    exact hg.info he
  | block hs hrepo =>
    rw [hrepo]
    exact hg.block hs
  | stay hdb =>
    rw [hdb]
    exact ⟨g, .refl g, hg⟩

/-- Every list of the program is in a state of a listing. -/
theorem exists_simulates (h : (machine F).Reachable s) {j : ℕ} {l : ConversationList}
    (hl : s.lists[j]? = some l) :
    ∃ g, (Listing.machine F.sortConversations).Reachable g ∧ l.Simulates s.repo.db g := by
  refine list_invariant_of_reachable
    (P := fun db l => ∃ g, (Listing.machine F.sortConversations).Reachable g ∧ l.Simulates db g)
    (fun db d user => ⟨{}, .init, ConversationList.simulates_opened db d user⟩) ?_ h hl
  rintro s t j l a l' hr ⟨g, hreach, hg⟩ hmove
  obtain ⟨g', hleads, hg'⟩ := simulates_of_move hr hg hmove
  exact ⟨g', hreach.leads hleads, hg'⟩

/-- Every list of the program is sorted, the latest conversation first, and shows
    no peer twice. -/
theorem listed_of_reachable (h : (machine F).Reachable s) {j : ℕ} {l : ConversationList}
    (hl : s.lists[j]? = some l) :
    (l.screen.listed.Pairwise fun c d => d.lastMessage.timestamp ≤ c.lastMessage.timestamp) ∧
      l.screen.listedUsers.Nodup := by
  obtain ⟨g, hreach, hg⟩ := exists_simulates h hl
  have htracked := Listing.tracked_of_reachable hreach
  rw [← hg.screen]
  exact ⟨htracked.ordered.pairwise_listed,
    htracked.ordered.nodup_listedUsers htracked.nodup_users⟩

end App

end MagicChat
