import MagicChat.App.Basic
import MagicChat.Library.Lists
import MagicChat.Repository.Step

/-!
# Lists that are told of the writes of their device

A device does not wait for the answers to its own writes: its sync tree keeps the
ones that are pending, what its observers are told is the database with these
applied over it (`Synced.view`), and a write that fails is taken back. `Synced`
is the repository with the lists of conversations, each of which observes what
its device sees.

What is pending is what the calls wait for (`accounted_of_reachable`). What a step
does to a list is said once and for all by `list_of_step`, and an invariant of each
list is proved by `list_induction`.
-/

namespace MagicChat

/-- The writes that a callback of a call issues, given what the call waits for next. -/
def Call.issues : Call → Call → List Write
  | .readPointer _, .append upload ref => [.setMessage ref upload.values]
  | .readPointer _, .create upload ref => [.setMessage ref upload.values]
  -- The second pointer is written without waiting for the first.
  | .create _ _, .pointOwn upload ref =>
    [.updatePointer upload.currentUserID upload.toID ref.location,
      .updatePointer upload.toID upload.currentUserID ref.location]
  | .markSnapshot _ _, .markWrites _ location keys => keys.map fun key => .setRead ⟨location, key⟩
  | _, _ => []

/-- The writes that a call waits for, in turn. -/
def Call.awaited : Call → List Write
  | .append upload ref => [.setMessage ref upload.values]
  | .create upload ref => [.setMessage ref upload.values]
  | .pointOwn upload ref =>
    [.updatePointer upload.currentUserID upload.toID ref.location,
      .updatePointer upload.toID upload.currentUserID ref.location]
  | .pointPeer upload ref => [.updatePointer upload.toID upload.currentUserID ref.location]
  | .markWrites _ location keys => keys.map fun key => .setRead ⟨location, key⟩
  | _ => []

/-- What a call goes on to wait for, after an answer. -/
def Call.left (c : Call) : Response → List Write
  | .write _ => c.awaited.tail
  | _ => c.awaited

theorem Call.head?_awaited (c : Call) : c.awaited.head? = c.write? := by
  cases c with
  | markWrites u location keys => cases keys <;> rfl
  | _ => rfl

theorem Starts.awaited {currentUser : Device → Option UserID} {a : Repository.Action} {c : Call}
    (h : Starts currentUser a c) : c.awaited = [] := by
  cases h <;> rfl

/-- A callback waits for what was left, and for what it issues. -/
theorem Resumes.awaited {db : Database} {currentUser : Device → Option UserID} {c : Call}
    {r : Response} {o : Outcome} (h : Resumes db currentUser c r o) (hne : o.next ≠ .finished) :
    o.next.awaited = c.left r ++ c.issues o.next := by
  cases h with
  | notStored | notLinked | malformed | appended | peerPointed | unmarked => exact absurd rfl hne
  | marked => simp [Call.left, Call.awaited, Call.issues]
  | _ => rfl

/-- A write that a device has issued for one of the calls. -/
structure WriteRecord where
  device : Device
  call : ℕ
  write : Write
  deriving DecidableEq

/-- The repository, and the lists as their devices see it. -/
structure Synced where
  repo : Repository
  /-- The devices that have started the calls. -/
  callers : List Device
  /-- The pending writes, in the order in which they were issued. -/
  allWrites : List WriteRecord
  /-- The lists of conversations opened so far. -/
  lists : List ConversationList

namespace Synced

inductive Action
  /-- A step of the repository. -/
  | repository (a : Repository.Action)
  /-- `ConversationsVC.viewDidLoad`. -/
  | openList (device : Device)
  /-- An observer of a list is told of an event. -/
  | listEvent (list i : ℕ)
  /-- A profile comes that a list has asked for. -/
  | profile (list i : ℕ)
  /-- A block of a list runs. -/
  | listBlock (list : ℕ)

/-- The pending writes of a device. -/
def writes (s : Synced) (d : Device) : List Write :=
  (s.allWrites.filter fun r => r.device = d).map WriteRecord.write

/-- The database as a device sees it. -/
def view (s : Synced) (d : Device) : Database := (s.writes d).foldl Database.after s.repo.db

/-- The device that starts a call with an action. -/
def caller? : Repository.Action → Option Device
  | .send device _ _ => some device
  | .uploadMessage device _ _ => some device
  | .markMessagesRead device _ => some device
  | _ => none

/-- The pending writes after an action of the repository that leads to `repo`. -/
def writesAfter (s : Synced) (repo : Repository) : Repository.Action → List WriteRecord
  | .resume i response =>
    match s.callers[i]?, s.repo.calls[i]?, repo.calls[i]? with
    | some device, some call, some next =>
      let issued := (call.issues next).map fun write => { device, call := i, write }
      match response, call.write? with
      -- The write has been answered, whatever the answer.
      | .write _, some write => s.allWrites.erase { device, call := i, write } ++ issued
      | _, _ => s.allWrites ++ issued
    | _, _, _ => s.allWrites
  | _ => s.allWrites

variable (F : Foundation) (s : Synced)

/-- A step of the repository, which every list observes. -/
def repository (a : Repository.Action) : Option Synced := do
  let repo ← Repository.step s.repo a
  let t : Synced :=
    { s with repo, callers := s.callers ++ (caller? a).toList, allWrites := s.writesAfter repo a }
  some { t with lists := s.lists.map fun l => l.notify (s.view l.device) (t.view l.device) }

/-- Replace the list `j`. -/
def setList (j : ℕ) (l : ConversationList) : Synced := { s with lists := s.lists.set j l }

/-- One step. A list is opened by a user who is signed in. -/
def step : Action → Option Synced
  | .repository a => s.repository a
  | .openList device => do
    let user ← s.repo.currentUser device
    some { s with lists := s.lists ++ [ConversationList.opened (s.view device) device user] }
  | .listEvent j i => do
    let list ← s.lists[j]?
    let list ← list.fire F.sortConversations i
    some (s.setList j list)
  | .profile j i => do
    let list ← s.lists[j]?
    let list ← list.info (s.view list.device) (s.repo.currentUser list.device) i
    some (s.setList j list)
  | .listBlock j => do
    let list ← s.lists[j]?
    let screen ← list.screen.runBlock
    some (s.setList j { list with screen })

/-- The machine of the lists. -/
def machine : Machine Synced Action where
  init := { repo := Repository.machine.init, callers := [], allWrites := [], lists := [] }
  step s := s.step F

variable {F s} {t : Synced} {a : Action}

/-! ## What is pending -/

/-- The device that starts a call. -/
theorem exists_caller? {currentUser : Device → Option UserID} {b : Repository.Action} {c : Call}
    (h : Starts currentUser b c) : ∃ d, caller? b = some d := by
  cases h <;> exact ⟨_, rfl⟩

/-- The pending writes of a call that has not ended are those that it waits for, in
    turn, and they are of the device that has started it. -/
structure Accounted (calls : List Call) (callers : List Device) (allWrites : List WriteRecord) :
    Prop where
  length : callers.length = calls.length
  started : ∀ r ∈ allWrites, r.call < calls.length
  awaited : ∀ i c d, calls[i]? = some c → callers[i]? = some d → c ≠ .finished →
    (allWrites.filter fun r => r.call = i) = c.awaited.map fun write => ⟨d, i, write⟩

variable {calls : List Call} {callers : List Device} {allWrites : List WriteRecord}

theorem Accounted.start (h : Accounted calls callers allWrites) {c : Call} (hc : c.awaited = [])
    (d : Device) : Accounted (calls ++ [c]) (callers ++ [d]) allWrites where
  length := by simp [h.length]
  started r hr := by
    rw [List.length_append]
    exact (h.started r hr).trans (Nat.lt_succ_self _)
  awaited i c' d' hi hd hne := by
    by_cases hlt : i < calls.length
    · rw [List.getElem?_append_left hlt] at hi
      rw [List.getElem?_append_left (h.length.symm ▸ hlt)] at hd
      exact h.awaited i c' d' hi hd hne
    · -- The call is new: nothing of it is pending.
      obtain rfl : c = c' := by
        rcases Lists.getElem?_concat hi with hi | rfl
        · exact absurd (List.getElem?_eq_some_iff.1 hi).1 hlt
        · rfl
      rw [hc, List.map_nil, List.filter_eq_nil_iff]
      intro r hr he
      exact hlt (of_decide_eq_true he ▸ h.started r hr)

theorem Accounted.stop (h : Accounted calls callers allWrites) (i : ℕ) :
    Accounted (calls.set i .finished) callers allWrites where
  length := by rw [List.length_set, h.length]
  started r hr := by
    rw [List.length_set]
    exact h.started r hr
  awaited j c d hj hd hne := by
    rcases Lists.getElem?_set_cases hj with ⟨_, rfl⟩ | ⟨_, hj⟩
    · exact absurd rfl hne
    · exact h.awaited j c d hj hd hne

/-- The call `i` goes on, with the writes `left` of those that were pending. -/
theorem Accounted.set (h : Accounted calls callers allWrites) {i : ℕ} {c next : Call} {d : Device}
    (hc : calls[i]? = some c) (hd : callers[i]? = some d) (left : List Write)
    {issued : List Write} {allWrites' : List WriteRecord} (hsub : allWrites' ⊆ allWrites)
    (hother : ∀ j, j ≠ i → (allWrites'.filter fun r => r.call = j) =
      allWrites.filter fun r => r.call = j)
    (hleft : (allWrites'.filter fun r => r.call = i) = left.map fun write => ⟨d, i, write⟩)
    (hnext : next ≠ .finished → next.awaited = left ++ issued) :
    Accounted (calls.set i next) callers
      (allWrites' ++ issued.map fun write => ⟨d, i, write⟩) where
  length := by rw [List.length_set, h.length]
  started r hr := by
    rw [List.length_set]
    rcases List.mem_append.1 hr with hr | hr
    · exact h.started r (hsub hr)
    · obtain ⟨write, _, rfl⟩ := List.mem_map.1 hr
      exact (List.getElem?_eq_some_iff.1 hc).1
  awaited j c' d' hj hd' hne := by
    rcases Lists.getElem?_set_cases hj with ⟨rfl, rfl⟩ | ⟨hji, hj⟩
    · obtain rfl : d = d' := Option.some.inj (hd.symm.trans hd')
      rw [List.filter_append, hleft, hnext hne, List.map_append]
      simp [List.filter_map, Function.comp_def]
    · rw [List.filter_append, hother j hji, h.awaited j c' d' hj hd' hne]
      simp [List.filter_map, Function.comp_def, Ne.symm hji]

theorem Accounted.fire (h : Accounted s.repo.calls s.callers s.allWrites) {i : ℕ} {c : Call}
    {r : Response} {o : Outcome} (hc : s.repo.At i c)
    (ho : Resumes s.repo.db s.repo.currentUser c r o) :
    Accounted (s.repo.fire i c r o).calls s.callers
      (s.writesAfter (s.repo.fire i c r o) (.resume i r)) := by
  have hlt : i < s.callers.length := h.length.symm ▸ (List.getElem?_eq_some_iff.1 hc).1
  obtain ⟨d, hd⟩ : ∃ d, s.callers[i]? = some d := ⟨_, List.getElem?_eq_getElem hlt⟩
  have hnext : (s.repo.fire i c r o).calls[i]? = some o.next := Repository.at_set_self hc
  have hne : c ≠ .finished := by
    rintro rfl
    cases ho
  have hpending := h.awaited i c d hc hd hne
  simp only [writesAfter, hd, hnext, show s.repo.calls[i]? = some c from hc]
  cases r with
  | write ok =>
    -- The write that is answered is the first.
    obtain ⟨write, rest, hrest⟩ : ∃ write rest, c.awaited = write :: rest := by
      cases ho <;> exact ⟨_, _, rfl⟩
    have hwrite : c.write? = some write := by
      rw [← c.head?_awaited, hrest, List.head?_cons]
    rw [hwrite]
    refine h.set hc hd rest (fun _ hmem => List.mem_of_mem_erase hmem) (fun j hj => ?_) ?_
      fun hfinished => ?_
    · rw [← List.erase_filter, List.erase_of_not_mem]
      simp [Ne.symm hj]
    · rw [← List.erase_filter, hpending, hrest, List.map_cons, List.erase_cons_head]
    · rw [ho.awaited hfinished, Call.left, hrest, List.tail_cons]
  | putData | downloadURL | snapshot =>
    exact h.set hc hd c.awaited (fun _ hmem => hmem) (fun _ _ => rfl) hpending ho.awaited

theorem Accounted.step (h : Accounted s.repo.calls s.callers s.allWrites)
    (ht : (machine F).step s a = some t) : Accounted t.repo.calls t.callers t.allWrites := by
  cases a with
  | repository b =>
    obtain ⟨repo, hrepo, ht⟩ := Option.bind_eq_some_iff.1 ht
    obtain rfl := Option.some.inj ht
    cases Repository.Step.of_step hrepo with
    | login | logOut =>
      simp only [caller?, Option.toList_none, List.append_nil]
      exact h
    | @start b c hc =>
      obtain ⟨d, hd⟩ := exists_caller? hc
      have hwrites : s.writesAfter (s.repo.start c) b = s.allWrites := by cases hc <;> rfl
      simp only [hd, hwrites, Option.toList_some]
      exact h.start hc.awaited d
    | fire hc ho =>
      simp only [caller?, Option.toList_none, List.append_nil]
      exact h.fire hc ho
    | stop =>
      simp only [caller?, Option.toList_none, List.append_nil]
      exact h.stop _
  | openList d =>
    obtain ⟨_, _, ht⟩ := Option.bind_eq_some_iff.1 ht
    exact Option.some.inj ht ▸ h
  | listEvent j i | profile j i | listBlock j =>
    obtain ⟨_, _, ht⟩ := Option.bind_eq_some_iff.1 ht
    obtain ⟨_, _, ht⟩ := Option.bind_eq_some_iff.1 ht
    exact Option.some.inj ht ▸ h

/-- The model holds pending what the calls wait for. -/
theorem accounted_of_reachable (h : (machine F).Reachable s) :
    Accounted s.repo.calls s.callers s.allWrites :=
  h.invariant (I := fun s => Accounted s.repo.calls s.callers s.allWrites)
    ⟨rfl, fun _ hr => absurd hr List.not_mem_nil,
      fun i c d hi => by simp [machine, Repository.machine] at hi⟩
    fun _ _ _ _ hi ht => hi.step ht

/-! ## What a device sees of a pointer -/

/-- Writes to other nodes leave a pointer alone. -/
theorem location_foldl_after {ws : List Write} {x y : UserID}
    (h : ∀ L, .updatePointer x y L ∉ ws) (db : Database) :
    (ws.foldl Database.after db).location x y = db.location x y := by
  induction ws generalizing db with
  | nil => rfl
  | cons w ws ih =>
    rw [List.foldl_cons, ih (fun L hL => h L (List.mem_cons_of_mem w hL))]
    cases w with
    | setMessage => rfl
    | setRead => rfl
    | updatePointer x' y' L =>
      have hne : ¬(x = x' ∧ y = y') := by
        rintro ⟨rfl, rfl⟩
        exact h L List.mem_cons_self
      rw [Database.location, Database.pointer_updatePointer, if_neg hne, Database.location]

/-- A device sees a pointer as it is, unless it is writing it. -/
theorem location_view {d : Device} {x y : UserID} (h : ∀ L, .updatePointer x y L ∉ s.writes d) :
    (s.view d).location x y = s.repo.db.location x y :=
  location_foldl_after h s.repo.db

/-! ## One list -/

/-- What a step from `s` to `t` can do to a list. -/
inductive ListMove (F : Foundation) (s t : Synced) (l : ConversationList) : ConversationList → Prop
  | notify : ListMove F s t l (l.notify (s.view l.device) (t.view l.device))
  | receive {i : ℕ} {e : ListEvent} : l.events[i]? = some e → t.view = s.view →
    ListMove F s t l
      (ConversationList.receive F.sortConversations { l with events := l.events.eraseIdx i } e)
  | info {i : ℕ} {peer : UserID} {location : Key} {currentUser : Option UserID} :
    l.profiles[i]? = some (peer, location) → t.view = s.view →
    ListMove F s t l
      (ConversationList.downloadLastMessage (s.view l.device) currentUser
        { l with
          profiles := l.profiles.eraseIdx i
          screen := l.screen.append { user := peer, lastMessage := emptyMessage } }
        l.screen.conversations.length location)
  | block {screen : ConversationsVC} : l.screen.runBlock = some screen → t.view = s.view →
    ListMove F s t l { l with screen }
  | stay : t.view = s.view → ListMove F s t l l

/-- After a step, a list is one that was there, or it has just been opened. -/
theorem list_of_step (h : (machine F).step s a = some t) {l' : ConversationList}
    (hl' : l' ∈ t.lists) : (∃ l ∈ s.lists, ListMove F s t l l') ∨
      ∃ d user, l' = ConversationList.opened (t.view d) d user := by
  cases a with
  | repository b =>
    obtain ⟨repo, _, h⟩ := Option.bind_eq_some_iff.1 h
    obtain rfl := Option.some.inj h
    obtain ⟨l, hl, rfl⟩ := List.mem_map.1 hl'
    exact .inl ⟨l, hl, .notify⟩
  | openList d =>
    obtain ⟨user, _, h⟩ := Option.bind_eq_some_iff.1 h
    obtain rfl := Option.some.inj h
    rcases List.mem_append.1 hl' with hl | hl
    · exact .inl ⟨l', hl, .stay rfl⟩
    · exact .inr ⟨d, user, List.mem_singleton.1 hl⟩
  | listEvent j i =>
    obtain ⟨l, hl, h⟩ := Option.bind_eq_some_iff.1 h
    obtain ⟨l₁, hl₁, h⟩ := Option.bind_eq_some_iff.1 h
    obtain ⟨e, he, hl₁⟩ := Option.bind_eq_some_iff.1 hl₁
    obtain rfl := Option.some.inj hl₁
    obtain rfl := Option.some.inj h
    rcases List.mem_or_eq_of_mem_set hl' with hmem | rfl
    · exact .inl ⟨l', hmem, .stay rfl⟩
    · exact .inl ⟨l, List.mem_of_getElem? hl, .receive he rfl⟩
  | profile j i =>
    obtain ⟨l, hl, h⟩ := Option.bind_eq_some_iff.1 h
    obtain ⟨l₁, hl₁, h⟩ := Option.bind_eq_some_iff.1 h
    obtain ⟨⟨peer, location⟩, he, hl₁⟩ := Option.bind_eq_some_iff.1 hl₁
    obtain rfl := Option.some.inj hl₁
    obtain rfl := Option.some.inj h
    rcases List.mem_or_eq_of_mem_set hl' with hmem | rfl
    · exact .inl ⟨l', hmem, .stay rfl⟩
    · exact .inl ⟨l, List.mem_of_getElem? hl, .info he rfl⟩
  | listBlock j =>
    obtain ⟨l, hl, h⟩ := Option.bind_eq_some_iff.1 h
    obtain ⟨screen, hscreen, h⟩ := Option.bind_eq_some_iff.1 h
    obtain rfl := Option.some.inj h
    rcases List.mem_or_eq_of_mem_set hl' with hmem | rfl
    · exact .inl ⟨l', hmem, .stay rfl⟩
    · exact .inl ⟨l, List.mem_of_getElem? hl, .block hscreen rfl⟩

/-- What holds of a list that is opened, and is kept by what the steps do to a
    list, holds of every list along a run. -/
theorem list_induction {C : Synced → Action → Prop}
    {P : List Action → Synced → ConversationList → Prop}
    (opened : ∀ as s d user, (machine F).exec as = some s →
      P as s (ConversationList.opened (s.view d) d user))
    (move : ∀ as s a t l l', (machine F).exec as = some s → C s a →
      (machine F).exec (as ++ [a]) = some t → (machine F).step s a = some t → l ∈ s.lists →
      P as s l → ListMove F s t l l' → P (as ++ [a]) t l')
    {as : List Action} (hC : (machine F).Along C as) (h : (machine F).exec as = some s)
    {l : ConversationList} (hl : l ∈ s.lists) : P as s l := by
  refine hC.induction (motive := fun as s => ∀ l ∈ s.lists, P as s l)
    (fun l hl => absurd hl List.not_mem_nil) (fun as s a t hs ih ha ht l' hl' => ?_) h l hl
  have hst : (machine F).exec (as ++ [a]) = some t := Machine.exec_concat_eq_some.2 ⟨s, hs, ht⟩
  rcases list_of_step ht hl' with ⟨l, hl, hmove⟩ | ⟨d, user, rfl⟩
  · exact move as s a t l l' hs ha hst ht hl (ih l hl) hmove
  · exact opened (as ++ [a]) t d user hst

end Synced

end MagicChat
