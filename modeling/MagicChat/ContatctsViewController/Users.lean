import MagicChat.ContatctsViewController.Basic
import MagicChat.Library.Lists

/-!
# The users shown

What happens in the contacts is told by their steps (`Contacts.Moves`): every
step that brings a user on the way to the view, or takes one from it, is
accounted for (`Moves.accounted`).

* Every node of the database is observed once, and every user for the contacts
  is in one place: shown, on the way, or with a download that has failed
  (`users_accounted`).
* What is shown is only extended, so that a row does not change its meaning; a
  selection opens the chat with the user that the row shows (`opens_tapped`).
-/

namespace MagicChat

namespace ContactsBlock

/-- The user that a block appends. -/
def appended : ContactsBlock → Option User
  | .append user => some user
  | .selected _ => none

/-- The user with whom a block opens a chat. -/
def chat : ContactsBlock → Option User
  | .append _ => none
  | .selected user => some user

end ContactsBlock

namespace ContatctsViewController

/-- The entry of a user, as it is shown. -/
def entry (user : User) : UserID × String × String := (user.id, user.name, user.email)

/-- The entry of a node, if its user is one for the contacts: somebody else, whose
    credentials have a name, an address and a link that is a URL. -/
def wanted (validURL : String → Bool) (exceptID : UserID) (e : UserID × Option Value) :
    Option (UserID × String × String) :=
  if e.1 = exceptID then none
  else
    (Phone.profile e.2).bind fun p => if validURL p.2.2 then some (e.1, p.1, p.2.1) else none

theorem wanted_fst {validURL : String → Bool} {exceptID : UserID} {e : UserID × Option Value}
    {x : UserID × String × String} (h : wanted validURL exceptID e = some x) : x.1 = e.1 := by
  obtain ⟨_, h⟩ := Option.ite_none_left_eq_some.1 h
  obtain ⟨p, _, h⟩ := Option.bind_eq_some_iff.1 h
  obtain ⟨_, h⟩ := Option.ite_none_right_eq_some.1 h
  cases h
  rfl

/-- The picture of a user is asked for if he is one for the contacts. -/
theorem childAdded_eq (c : ContatctsViewController) (validURL : String → Bool) (id : UserID)
    (credentials : Option Value) :
    c.childAdded validURL id credentials =
      { c with tasks := c.tasks ++ (wanted validURL c.exceptID (id, credentials)).toList } := by
  simp only [childAdded, wanted]
  split
  · simp
  · cases Phone.profile credentials with
    | none => simp
    | some p => cases hlink : validURL p.2.2 <;> simp [hlink]

/-- The entries on their way to the view: to be appended, downloaded, or observed,
    `f` being the entry of a node. -/
def underWay (c : ContatctsViewController)
    (f : UserID × Option Value → Option (UserID × String × String)) :
    List (UserID × String × String) :=
  (c.mainQueue.filterMap ContactsBlock.appended).map entry ++ c.tasks ++ c.events.filterMap f

end ContatctsViewController

namespace Contacts

open ContatctsViewController

variable {s t : Contacts} {validURL : String → Bool} {a : Action} {as : List Action}
  {c : ContatctsViewController}

/-! ## Steps -/

/-- What a step does to the contacts that have been opened. -/
inductive Moves (validURL : String → Bool) (users : Users) (c : ContatctsViewController) :
    Action → Users → ContatctsViewController → Prop
  | write {a : Action} {id : UserID} {v : Option Value} :
    (∀ row, a ≠ .didSelectItem row) → (∀ i, a ≠ .downloaded i none) →
    Moves validURL users c a (Keyed.set users id v)
      { c with events := c.events ++ Keyed.added users (Keyed.set users id v) }
  | childAdded {i : ℕ} {e : UserID × Option Value} : c.events[i]? = some e →
    Moves validURL users c (.childAdded i) users
      { c with
        events := c.events.eraseIdx i
        tasks := c.tasks ++ (wanted validURL c.exceptID e).toList }
  | downloaded {i : ℕ} {id : UserID} {name email : String} {profilePic : UIImage} :
    c.tasks[i]? = some (id, name, email) →
    Moves validURL users c (.downloaded i (some profilePic)) users
      { c with
        tasks := c.tasks.eraseIdx i
        mainQueue := c.mainQueue ++ [.append { name, email, id, profilePic }] }
  | notDownloaded {i : ℕ} {task : UserID × String × String} : c.tasks[i]? = some task →
    Moves validURL users c (.downloaded i none) users { c with tasks := c.tasks.eraseIdx i }
  | selected {row : ℕ} {user : User} : row < c.displayed.length → c.items[row]? = some user →
    Moves validURL users c (.didSelectItem row) users
      { c with mainQueue := c.mainQueue ++ [.selected user] }
  /-- There is nobody to select. -/
  | alone {row : ℕ} : row < c.displayed.length → c.items = [] →
    Moves validURL users c (.didSelectItem row) users c
  | run {b : ContactsBlock} {mainQueue : List ContactsBlock} : c.mainQueue = b :: mainQueue →
    Moves validURL users c .runBlock users
      ({ c with mainQueue : ContatctsViewController }.run b)

/-- What a step does: the database is written, with nothing there yet, the contacts
    are opened, or they move. -/
theorem step_cases (h : (machine validURL).step s a = some t) :
    (s.screen = none ∧ t.screen = none ∧ ∃ id v, t.users = Keyed.set s.users id v) ∨
      (s.screen = none ∧ t.users = s.users ∧
        ∃ exceptID, t.screen = some { exceptID, events := s.users }) ∨
      ∃ c c', s.screen = some c ∧ t.screen = some c' ∧ Moves validURL s.users c a t.users c' := by
  cases a with
  | setCredentials id credentials =>
    cases h
    cases hc : s.screen with
    | none => exact .inl ⟨rfl, by simp [write, hc], id, _, rfl⟩
    | some c => exact .inr (.inr ⟨c, _, rfl, by simp [write, hc], .write (by simp) (by simp)⟩)
  | setConversation id =>
    cases h
    cases hc : s.screen with
    | none => exact .inl ⟨rfl, by simp [write, hc], id, _, rfl⟩
    | some c => exact .inr (.inr ⟨c, _, rfl, by simp [write, hc], .write (by simp) (by simp)⟩)
  | viewDidLoad currentUser =>
    simp only [machine, step] at h
    split at h
    · rename_i exceptID hs
      cases h
      exact .inr (.inl ⟨hs, rfl, exceptID, rfl⟩)
    · cases h
  | childAdded i =>
    obtain ⟨c, hc, h⟩ := Option.bind_eq_some_iff.1 h
    obtain ⟨⟨id, credentials⟩, he, h⟩ := Option.bind_eq_some_iff.1 h
    cases h
    rw [ContatctsViewController.childAdded_eq]
    exact .inr (.inr ⟨c, _, hc, rfl, .childAdded he⟩)
  | downloaded i profilePic =>
    obtain ⟨c, hc, h⟩ := Option.bind_eq_some_iff.1 h
    obtain ⟨⟨id, name, email⟩, ht, h⟩ := Option.bind_eq_some_iff.1 h
    cases h
    cases profilePic with
    | some profilePic => exact .inr (.inr ⟨c, _, hc, rfl, .downloaded ht⟩)
    | none => exact .inr (.inr ⟨c, _, hc, rfl, .notDownloaded ht⟩)
  | didSelectItem row =>
    obtain ⟨c, hc, h⟩ := Option.bind_eq_some_iff.1 h
    obtain ⟨hrow, h⟩ := Option.ite_none_right_eq_some.1 h
    obtain ⟨c', hc', h⟩ := Option.bind_eq_some_iff.1 h
    cases h
    refine .inr (.inr ⟨c, c', hc, rfl, ?_⟩)
    unfold ContatctsViewController.didSelectItem at hc'
    split at hc'
    · rename_i hempty
      cases hc'
      exact .alone hrow (List.isEmpty_iff.1 hempty)
    · obtain ⟨user, huser, rfl⟩ := Option.map_eq_some_iff.1 hc'
      exact .selected hrow huser
  | runBlock =>
    obtain ⟨c, hc, h⟩ := Option.bind_eq_some_iff.1 h
    split at h
    · cases h
    · rename_i b mainQueue hb
      cases h
      exact .inr (.inr ⟨c, _, hc, rfl, .run hb⟩)

/-! ## The users shown -/

/-- The nodes that the observer is to be told of because of a step: all those there
    when the contacts are opened, and what is added later. -/
def observed (validURL : String → Bool) (s : Contacts) (a : Action) : Users :=
  match s.step validURL a with
  | none => []
  | some t =>
    match s.screen, t.screen with
    | none, none => []
    | none, some _ => s.users
    | some _, _ => Keyed.added s.users t.users

/-- The download that fails in a step. -/
def failed (s : Contacts) : Action → List (UserID × String × String)
  | .downloaded i none => (s.screen.bind fun c => c.tasks[i]?).toList
  | _ => []

/-- The user that a row shows when it is selected. -/
def tapped (s : Contacts) : Action → List User
  | .didSelectItem row => (s.screen.bind fun c => c.displayed[row]?).toList
  | _ => []

theorem observed_of_moves {c' : ContatctsViewController}
    (h : (machine validURL).step s a = some t) (hc : s.screen = some c)
    (hc' : t.screen = some c') : observed validURL s a = Keyed.added s.users t.users := by
  have hstep : s.step validURL a = some t := h
  simp only [observed, hstep, hc, hc']

theorem Moves.displayed {users users' : Users} {c' : ContatctsViewController}
    (h : Moves validURL users c a users' c') (hd : c.displayed = c.items) :
    c'.displayed = c'.items := by
  cases h with
  | @run b mainQueue hb =>
    cases b with
    | append user => rfl
    | selected user => exact hd
  | _ => exact hd

/-- Users are appended to those displayed. -/
theorem Moves.displayed_isPrefix {users users' : Users} {c' : ContatctsViewController}
    (h : Moves validURL users c a users' c') (hd : c.displayed = c.items) :
    c.displayed <+: c'.displayed := by
  cases h with
  | @run b mainQueue hb =>
    cases b with
    | append user =>
      rw [hd]
      exact List.prefix_append _ _
    | selected user => exact List.prefix_rfl
  | _ => exact List.prefix_rfl

/-- The view has been reloaded after each user appended. -/
theorem displayed_eq (h : (machine validURL).Reachable s) :
    ∀ c, s.screen = some c → c.displayed = c.items := by
  refine h.invariant (I := fun s => ∀ c, s.screen = some c → c.displayed = c.items)
    (by simp [machine]) ?_
  intro s a t _ ih h c' hc'
  rcases step_cases h with ⟨_, hn, _⟩ | ⟨_, _, exceptID, ho⟩ | ⟨c, c'', hc, ht, hm⟩
  · cases hn.symm.trans hc'
  · cases ho.symm.trans hc'
    rfl
  · cases ht.symm.trans hc'
    exact hm.displayed (ih c hc)

theorem failed_eq_nil (h : ∀ i, a ≠ .downloaded i none) : failed s a = [] := by
  cases a with
  | downloaded i profilePic =>
    cases profilePic with
    | none => exact absurd rfl (h i)
    | some profilePic => rfl
  | _ => rfl

theorem tapped_eq_nil (h : ∀ row, a ≠ .didSelectItem row) : tapped s a = [] := by
  cases a with
  | didSelectItem row => exact absurd rfl (h row)
  | _ => rfl

/-- What a step brings to the contacts, or takes from them, is accounted for. -/
theorem Moves.accounted {users users' : Users} {c' : ContatctsViewController}
    {f : UserID × Option Value → Option (UserID × String × String)}
    (h : Moves validURL users c a users' c') (hs : s.screen = some c)
    (hf : f = wanted validURL c.exceptID) :
    (c'.items.map entry ++ c'.underWay f ++ failed s a).Perm
      (c.items.map entry ++ c.underWay f ++ (Keyed.added users users').filterMap f) := by
  refine List.perm_iff_count.2 fun x => ?_
  cases h with
  | @write _ id v hrow hi =>
    simp only [failed_eq_nil hi, underWay, List.filterMap_append, List.append_assoc,
      List.append_nil]
  | @childAdded i e he =>
    have hevents := (Lists.filterMap_perm_eraseIdx f he).count_eq x
    simp only [failed, underWay, Keyed.added_self, List.filterMap_nil, List.count_append,
      List.count_nil, ← hf] at hevents ⊢
    omega
  | @downloaded i id name email profilePic ht =>
    have htasks := (Lists.perm_cons_eraseIdx ht).count_eq x
    simp only [failed, underWay, Keyed.added_self, ContactsBlock.appended, entry,
      List.filterMap_append, List.filterMap_cons, List.filterMap_nil, List.map_append,
      List.map_cons, List.map_nil, List.count_append, List.count_cons, List.count_nil]
      at htasks ⊢
    omega
  | @notDownloaded i task ht =>
    have htasks := (Lists.perm_cons_eraseIdx ht).count_eq x
    simp only [failed, hs, ht, underWay, Keyed.added_self, Option.bind_some, Option.toList_some,
      List.filterMap_nil, List.count_append, List.count_cons, List.count_nil] at htasks ⊢
    omega
  | @selected row user =>
    simp [failed, underWay, Keyed.added_self, ContactsBlock.appended, List.filterMap_cons]
  | alone => simp [failed, Keyed.added_self]
  | @run b mainQueue hb =>
    cases b with
    | append user =>
      simp only [failed, underWay, Keyed.added_self, hb, ContactsBlock.appended,
        ContatctsViewController.run, List.filterMap_cons, List.filterMap_nil, List.map_append,
        List.map_cons, List.map_nil, List.count_append, List.count_cons, List.count_nil]
      omega
    | selected user =>
      simp [failed, underWay, Keyed.added_self, hb, ContactsBlock.appended,
        ContatctsViewController.run, List.filterMap_cons]

/-- The chats opened, and those on the main queue, are with the users tapped. -/
theorem Moves.chats {users users' : Users} {c' : ContatctsViewController}
    (h : Moves validURL users c a users' c') (hs : s.screen = some c)
    (hd : c.displayed = c.items) :
    c'.chats ++ c'.mainQueue.filterMap ContactsBlock.chat =
      c.chats ++ c.mainQueue.filterMap ContactsBlock.chat ++ tapped s a := by
  cases h with
  | @write _ id v hrow hi => simp [tapped_eq_nil hrow]
  | @selected row user hrow huser =>
    simp [tapped, hs, hd, huser, ContactsBlock.chat]
  | alone hrow hitems =>
    rw [hd, hitems] at hrow
    exact absurd hrow (Nat.not_lt_zero _)
  | @run b mainQueue hb =>
    cases b with
    | append user =>
      simp [tapped, hb, ContactsBlock.chat, ContatctsViewController.run, List.filterMap_cons]
    | selected user => simp [tapped, hb, ContactsBlock.chat, ContatctsViewController.run]
  | downloaded => simp [tapped, ContactsBlock.chat, List.filterMap_cons]
  | _ => simp [tapped]

theorem Moves.exceptID_eq {users users' : Users} {c' : ContatctsViewController}
    (h : Moves validURL users c a users' c') : c'.exceptID = c.exceptID := by
  cases h with
  | @run b mainQueue hb => cases b <;> rfl
  | _ => rfl

/-- The keys of the database after a step are those before, and those added. -/
theorem Moves.keys {users users' : Users} {c' : ContatctsViewController}
    (h : Moves validURL users c a users' c') :
    users'.map Prod.fst = users.map Prod.fst ++ (Keyed.added users users').map Prod.fst := by
  cases h with
  | write => exact Keyed.map_fst_set _ _ _
  | _ => simp [Keyed.added_self]

theorem Moves.users {users users' : Users} {c' : ContatctsViewController}
    (h : Moves validURL users c a users' c') :
    users' = users ∨ ∃ id v, users' = Keyed.set users id v := by
  cases h with
  | write => exact .inr ⟨_, _, rfl⟩
  | _ => exact .inl rfl

theorem nodupKeys_users (h : (machine validURL).Reachable s) : Keyed.NodupKeys s.users := by
  refine h.invariant (I := fun s => Keyed.NodupKeys s.users) Keyed.nodupKeys_nil ?_
  intro s a t _ hs h
  have husers : t.users = s.users ∨ ∃ id v, t.users = Keyed.set s.users id v := by
    rcases step_cases h with ⟨_, _, hu⟩ | ⟨_, hu, _⟩ | ⟨_, _, _, _, hm⟩
    · exact .inr hu
    · exact .inl hu
    · exact hm.users
  rcases husers with hu | ⟨id, v, hu⟩
  · rwa [hu]
  · rw [hu]
    exact hs.set id v

theorem failed_of_closed (h : s.screen = none) : failed s a = [] := by
  simp only [failed, h]
  split <;> rfl

theorem tapped_of_closed (h : s.screen = none) : tapped s a = [] := by
  simp only [tapped, h]
  split <;> rfl

/-- Before the contacts are opened, nothing is brought forth. -/
theorem collect_eq_nil {β : Type*} {f : Contacts → Action → List β}
    (hf : ∀ s a t, (machine validURL).step s a = some t → s.screen = none → t.screen = none →
      f s a = []) (h : (machine validURL).exec as = some s) (hs : s.screen = none) :
    (machine validURL).collect f as = [] := by
  refine Machine.exec_induction (motive := fun as s => s.screen = none →
    (machine validURL).collect f as = []) (fun _ => rfl) ?_ h hs
  intro as s a t hs ih ht hn
  rw [Machine.collect_concat hs]
  rcases step_cases ht with ⟨hs', _⟩ | ⟨_, _, _, ho⟩ | ⟨_, _, _, hc, _⟩
  · rw [ih hs', hf s a t ht hs' hn, List.append_nil]
  · cases ho.symm.trans hn
  · cases hc.symm.trans hn

variable (validURL) in
/-- What has been observed, has failed and was tapped, and what has become of it. -/
structure Accounted (as : List Action) (s : Contacts) (c : ContatctsViewController) : Prop where
  /-- Every node of the database has been observed once. -/
  keys : ((machine validURL).collect (observed validURL) as).map Prod.fst = s.users.map Prod.fst
  /-- Every user for the contacts is shown, on the way, or the download has failed. -/
  entries : (c.items.map entry ++ c.underWay (wanted validURL c.exceptID) ++
    (machine validURL).collect failed as).Perm
      (((machine validURL).collect (observed validURL) as).filterMap (wanted validURL c.exceptID))
  /-- The chats are with the users tapped, in turn. -/
  chats : c.chats ++ c.mainQueue.filterMap ContactsBlock.chat =
    (machine validURL).collect tapped as

/-- The contacts have just been opened. -/
theorem accounted_viewDidLoad {exceptID : UserID} (hs : (machine validURL).exec as = some s)
    (h : (machine validURL).step s a = some t) (hn : s.screen = none)
    (husers : t.users = s.users) (ht : t.screen = some { exceptID, events := s.users }) :
    Accounted validURL (as ++ [a]) t { exceptID, events := s.users } := by
  have hstep : s.step validURL a = some t := h
  have hobserved : (machine validURL).collect (observed validURL) (as ++ [a]) = s.users := by
    rw [Machine.collect_concat hs, collect_eq_nil ?_ hs hn]
    · simp only [observed, hstep, hn, ht, List.nil_append]
    · intro s a t h hs ht
      have hstep : s.step validURL a = some t := h
      simp only [observed, hstep, hs, ht]
  constructor
  · rw [hobserved, husers]
  · rw [hobserved, Machine.collect_concat hs, failed_of_closed hn,
      collect_eq_nil (fun _ _ _ _ hs _ => failed_of_closed hs) hs hn]
    simp [underWay]
  · rw [Machine.collect_concat hs, tapped_of_closed hn,
      collect_eq_nil (fun _ _ _ _ hs _ => tapped_of_closed hs) hs hn]
    rfl

/-- The contacts move. -/
theorem Accounted.concat {c' : ContatctsViewController} (hinv : Accounted validURL as s c)
    (hs : (machine validURL).exec as = some s) (h : (machine validURL).step s a = some t)
    (hc : s.screen = some c) (hc' : t.screen = some c')
    (hm : Moves validURL s.users c a t.users c') : Accounted validURL (as ++ [a]) t c' := by
  have hobserved := observed_of_moves h hc hc'
  constructor
  · rw [Machine.collect_concat hs, hobserved, List.map_append, hinv.keys, hm.keys]
  · rw [Machine.collect_concat hs, Machine.collect_concat hs, hobserved, hm.exceptID_eq,
      List.filterMap_append]
    refine List.perm_iff_count.2 fun x => ?_
    have hstep := (hm.accounted hc rfl).count_eq x
    have hbefore := hinv.entries.count_eq x
    simp only [List.count_append] at hstep hbefore ⊢
    omega
  · rw [Machine.collect_concat hs, ← hinv.chats]
    exact hm.chats hc (displayed_eq ⟨as, hs⟩ c hc)

theorem accounted (h : (machine validURL).exec as = some s) :
    ∀ c, s.screen = some c → Accounted validURL as s c := by
  refine Machine.exec_induction (motive := fun as s => ∀ c, s.screen = some c →
    Accounted validURL as s c) (by simp [machine]) ?_ h
  intro as s a t hs ih ht c' hc'
  rcases step_cases ht with ⟨_, hn, _⟩ | ⟨hn, husers, exceptID, ho⟩ | ⟨c, c'', hc, hc'', hm⟩
  · cases hn.symm.trans hc'
  · cases ho.symm.trans hc'
    exact accounted_viewDidLoad hs ht hn husers ho
  · cases hc''.symm.trans hc'
    exact (ih c hc).concat hs ht hc hc' hm

/-! ## What is shown -/

/-- In every order of events, every node of the database has been observed exactly once,
    and every user for the contacts is in exactly one place: shown, on the way to
    the view, or with a download that has failed. Nobody is shown twice. -/
theorem users_accounted (h : (machine validURL).exec as = some s) (hc : s.screen = some c) :
    ((machine validURL).collect (observed validURL) as).map Prod.fst = s.users.map Prod.fst ∧
      (c.displayed.map entry ++ c.underWay (wanted validURL c.exceptID) ++
        (machine validURL).collect failed as).Perm
          (((machine validURL).collect (observed validURL) as).filterMap
            (wanted validURL c.exceptID)) ∧
      (c.displayed.map User.id).Nodup := by
  obtain ⟨hkeys, hentries, _⟩ := accounted h c hc
  rw [← displayed_eq ⟨as, h⟩ c hc] at hentries
  refine ⟨hkeys, hentries, ?_⟩
  have hnodup : Keyed.NodupKeys ((machine validURL).collect (observed validURL) as) := by
    rw [Keyed.NodupKeys, hkeys]
    exact nodupKeys_users ⟨as, h⟩
  have hwanted := (hentries.map Prod.fst).nodup_iff.2 (hnodup.filterMap fun _ _ => wanted_fst)
  rw [List.append_assoc, List.map_append, List.map_map] at hwanted
  exact (List.nodup_append.1 hwanted).1

/-- What is shown is only extended, and the chats opened, with those about to be, are
    with the users that the selected rows showed, in turn. -/
theorem opens_tapped {bs : List Action} {c' : ContatctsViewController} (hp : as <+: bs)
    (hs : (machine validURL).exec as = some s) (ht : (machine validURL).exec bs = some t)
    (hc : s.screen = some c) (hc' : t.screen = some c') :
    c.displayed <+: c'.displayed ∧
      c'.chats ++ c'.mainQueue.filterMap ContactsBlock.chat =
        (machine validURL).collect tapped bs := by
  suffices hinv : ∀ c, s.screen = some c → ∃ c', t.screen = some c' ∧
      c.displayed <+: c'.displayed by
    obtain ⟨c'', hc'', hextends⟩ := hinv c hc
    cases hc''.symm.trans hc'
    exact ⟨hextends, (accounted ht c' hc').chats⟩
  refine Machine.rel_of_isPrefix (R := fun s t => ∀ c, s.screen = some c →
    ∃ c', t.screen = some c' ∧ c.displayed <+: c'.displayed)
    (fun s c hc => ⟨c, hc, List.prefix_rfl⟩) ?_ ?_ hp hs ht
  · intro r s t hrs hst c hc
    obtain ⟨c', hc', h⟩ := hrs c hc
    obtain ⟨c'', hc'', h'⟩ := hst c' hc'
    exact ⟨c'', hc'', h.trans h'⟩
  · intro s a t hs h c hc
    rcases step_cases h with ⟨hn, _⟩ | ⟨hn, _⟩ | ⟨c₀, c', hc₀, hc', hm⟩
    · cases hn.symm.trans hc
    · cases hn.symm.trans hc
    · cases hc₀.symm.trans hc
      exact ⟨c', hc', hm.displayed_isPrefix (displayed_eq hs c hc)⟩

/-- There are two others when the contacts are opened, and one comes later. Of the
    downloads, one fails; the other user is shown and selected. -/
def contacts : List Action :=
  let credentials (name : String) : Value := .dictionary
    [("name", .string name), ("email", .string "mail"), ("profilePicLink", .string "link")]
  [.setCredentials "u" (credentials "U"), .setCredentials "v" (credentials "V"),
    .setCredentials "w" (credentials "W"), .viewDidLoad (some "u"), .childAdded 2, .childAdded 0,
    .downloaded 0 (some ⟨0, true⟩), .setCredentials "x" (credentials "X"), .runBlock,
    .childAdded 0, .didSelectItem 0, .downloaded 0 none]

theorem users_accounted_contacts : ∃ s c,
    (machine fun _ => true).exec contacts = some s ∧ s.screen = some c ∧
      c.displayed.map entry = [("w", "W", "mail")] ∧ (c.displayed.map User.id).Nodup := by
  obtain ⟨s, hs, c, hc, hd⟩ : ∃ s, (machine fun _ => true).exec contacts = some s ∧
      ∃ c, s.screen = some c ∧ c.displayed.map entry = [("w", "W", "mail")] :=
    ⟨_, rfl, _, rfl, by decide⟩
  exact ⟨s, c, hs, hc, hd, (users_accounted hs hc).2.2⟩

theorem opens_tapped_contacts : ∃ s c,
    (machine fun _ => true).exec contacts = some s ∧ s.screen = some c ∧
      c.mainQueue.length = 1 ∧ c.chats ++ c.mainQueue.filterMap ContactsBlock.chat =
        (machine fun _ => true).collect tapped contacts := by
  obtain ⟨s, hs, c, hc, hd⟩ : ∃ s, (machine fun _ => true).exec contacts = some s ∧
      ∃ c, s.screen = some c ∧ c.mainQueue.length = 1 := ⟨_, rfl, _, rfl, by decide⟩
  exact ⟨s, c, hs, hc, hd, (opens_tapped List.prefix_rfl hs hs hc hc).2⟩

end Contacts

end MagicChat
