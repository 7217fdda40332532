import MagicChat.ChatVC.Decided
import MagicChat.World

/-!
# From screen to screen

The world, with the input of its chats: whatever the input of a chat sends, is sent
by its device to its peer, and nothing else is. All else happens as it does in the
world by itself.

So every message on the screen of a chat is what a user has decided to send in some
chat: the text shows what was in the text field when it was sent (`shown_decided`),
and the location that a location message opens is where the pin was when it was
confirmed (`opens_pin`), whatever happens in between and afterwards.
-/

namespace MagicChat

/-- The world, and the input of the chats, in the order of the chats. -/
structure Whole (D : Type) where
  world : World
  inputs : List (ChatInput D)

/-- Messages are sent by the input of a chat alone. -/
def World.Action.isOwn : World.Action → Bool
  | .app (.repository (.send ..)) | .app (.repository (.uploadMessage ..)) => false
  | _ => true

/-- The action opens a chat. -/
def World.Action.opensChat : World.Action → Bool
  | .app (.openChat ..) => true
  | _ => false

namespace Whole

variable {D : Type}

inductive Action (D : Type)
  | world (a : World.Action)
  | input (chat : ℕ) (a : ChatInput.Action D)

/-- What is sent in a chat, as an action of the world. -/
def send (c : Chat) (message : Message) : World.Action :=
  .app (.repository (.send c.device message c.peer))

variable (F : Foundation) (print : D → String) (s : Whole D)

/-- One step: of the world, or of the input of a chat, with what it sends. -/
def step : Action D → Option (Whole D)
  | .world a => do
    if a.isOwn then
      let world ← s.world.step F a
      some { world, inputs := if a.opensChat then s.inputs ++ [{}] else s.inputs }
    else none
  | .input j a => do
    let chat ← s.world.app.chats[j]?
    let input ← s.inputs[j]?
    let (input, message) ← input.step print a
    let inputs := s.inputs.set j input
    match message with
    | some message =>
      let world ← s.world.step F (send chat message)
      some { world, inputs }
    | none => some { s with inputs }

/-- The machine of the whole. -/
def machine : Machine (Whole D) (Action D) where
  init := { world := (World.machine F).init, inputs := [] }
  step s := s.step F print

/-- The actions of the world in a step. -/
def worlds : Action D → List World.Action
  | .world a => if a.isOwn then [a] else []
  | .input j a =>
    match s.world.app.chats[j]?, s.inputs[j]? with
    | some chat, some input => (input.sent print a).map (send chat)
    | _, _ => []

variable {F print s} {t : Whole D} {as : List (Action D)}

/-! ## The steps -/

theorem step_world {a : World.Action} (h : (machine F print).step s (.world a) = some t) :
    a.isOwn = true ∧ (World.machine F).step s.world a = some t.world ∧
      t.inputs = if a.opensChat then s.inputs ++ [({} : ChatInput D)] else s.inputs := by
  obtain ⟨hown, h⟩ := Option.ite_none_right_eq_some.1 h
  obtain ⟨world, hworld, h⟩ := Option.bind_eq_some_iff.1 h
  cases h
  exact ⟨hown, hworld, rfl⟩

theorem step_input {j : ℕ} {a : ChatInput.Action D}
    (h : (machine F print).step s (.input j a) = some t) :
    ∃ c i i' m, s.world.app.chats[j]? = some c ∧ s.inputs[j]? = some i ∧
      i.step print a = some (i', m) ∧ t.inputs = s.inputs.set j i' ∧
      (World.machine F).execFrom s.world (m.toList.map (send c)) = some t.world := by
  obtain ⟨c, hc, h⟩ := Option.bind_eq_some_iff.1 h
  obtain ⟨i, hi, h⟩ := Option.bind_eq_some_iff.1 h
  obtain ⟨⟨i', m⟩, hstep, h⟩ := Option.bind_eq_some_iff.1 h
  refine ⟨c, i, i', m, hc, hi, hstep, ?_⟩
  cases m with
  | none =>
    cases h
    exact ⟨rfl, rfl⟩
  | some message =>
    obtain ⟨world, hworld, h⟩ := Option.bind_eq_some_iff.1 h
    cases h
    exact ⟨rfl, Machine.execFrom_singleton.trans hworld⟩

/-- The world runs by itself. -/
theorem exec_world (h : (machine F print).exec as = some s) :
    (World.machine F).exec ((machine F print).collect (fun s => s.worlds print) as) =
      some s.world := by
  refine Machine.exec_collect Whole.world rfl (fun s a t h => ?_) h
  cases a with
  | world a =>
    obtain ⟨hown, hworld, _⟩ := step_world h
    rw [worlds, if_pos hown]
    exact Machine.execFrom_singleton.trans hworld
  | input j a =>
    obtain ⟨c, i, i', m, hc, hi, hstep, _, hworld⟩ := step_input h
    simpa only [worlds, hc, hi, ChatInput.sent_eq hstep] using hworld

/-- The input of a chat runs by itself. -/
theorem reachable_input (h : (machine F print).Reachable s) :
    ∀ i ∈ s.inputs, (ChatInput.machine print).Reachable i := by
  refine h.invariant (I := fun s => ∀ i ∈ s.inputs, (ChatInput.machine print).Reachable i)
    (fun i hi => absurd hi List.not_mem_nil) ?_
  intro s a t _ hs ht i hi
  cases a with
  | world a =>
    obtain ⟨_, _, hinputs⟩ := step_world ht
    rw [hinputs] at hi
    split_ifs at hi
    · rcases List.mem_append.1 hi with hi | hi
      · exact hs i hi
      · exact List.mem_singleton.1 hi ▸ .init
    · exact hs i hi
  | input j a =>
    obtain ⟨_, i₀, i', m, _, hi₀, hstep, hinputs, _⟩ := step_input ht
    rcases List.mem_or_eq_of_mem_set (hinputs ▸ hi) with hi | rfl
    · exact hs i hi
    · refine (hs i₀ (List.mem_of_getElem? hi₀)).step (a := a) ?_
      simp [ChatInput.machine, hstep]

/-! ## What is shown -/

/-- In the run `as`, the user of a chat has decided to send `decision`, as shown there. -/
def DecidedIn (F : Foundation) (print : D → String) (as : List (Action D))
    (decision : ChatInput.Decision D) : Prop :=
  ∃ p w k i a, p ++ [.input k a] <+: as ∧ (machine F print).exec p = some w ∧
    w.inputs[k]? = some i ∧ decision ∈ i.decided a

theorem DecidedIn.mono {decision : ChatInput.Decision D} {bs : List (Action D)}
    (h : DecidedIn F print as decision) (hp : as <+: bs) : DecidedIn F print bs decision := by
  obtain ⟨p, w, k, i, a, hpre, hrest⟩ := h
  exact ⟨p, w, k, i, a, hpre.trans hp, hrest⟩

/-- What is on its way in the input of a chat has been decided there. -/
theorem decidedIn_of_pending (h : (machine F print).exec as = some s) :
    ∀ i ∈ s.inputs, ∀ decision ∈ i.pending, DecidedIn F print as decision := by
  refine Machine.exec_induction (motive := fun as s => ∀ i ∈ s.inputs, ∀ decision ∈ i.pending,
    DecidedIn F print as decision) (fun i hi => absurd hi List.not_mem_nil) ?_ h
  intro as s a t hs ih ht i hi decision hdecision
  cases a with
  | world a =>
    obtain ⟨_, _, hinputs⟩ := step_world ht
    rw [hinputs] at hi
    have hold : ∀ i ∈ s.inputs, decision ∈ i.pending →
        DecidedIn F print (as ++ [.world a]) decision :=
      fun i hi hd => (ih i hi decision hd).mono (List.prefix_append _ _)
    split_ifs at hi
    · rcases List.mem_append.1 hi with hi | hi
      · exact hold i hi hdecision
      · rw [List.mem_singleton.1 hi] at hdecision
        exact absurd hdecision List.not_mem_nil
    · exact hold i hi hdecision
  | input j a =>
    obtain ⟨_, i₀, i', m, _, hi₀, hstep, hinputs, _⟩ := step_input ht
    rcases List.mem_or_eq_of_mem_set (hinputs ▸ hi) with hi | rfl
    · exact (ih i hi decision hdecision).mono (List.prefix_append _ _)
    · -- What comes to be on its way in a step is decided in the step.
      rcases (ChatInput.Step.of_step hstep).pending_cases hdecision with hd | hd
      · exact (ih i₀ (List.mem_of_getElem? hi₀) decision hd).mono (List.prefix_append _ _)
      · exact ⟨as, s, j, i₀, a, List.prefix_rfl, hs, hi₀, hd⟩

/-- Apart from those that sign in and out, the actions of the program are in the whole. -/
theorem mem_worlds_of_mem_apps {b : Repository.Action} (h : (machine F print).exec as = some s)
    (hb : ∀ d user, b ≠ Repository.signs d user)
    (hmem : .repository b ∈ (World.machine F).collect (World.apps F)
      ((machine F print).collect (fun s => s.worlds print) as)) :
    ∃ p a w, p ++ [a] <+: as ∧ (machine F print).exec p = some w ∧
      .app (.repository b) ∈ w.worlds print a := by
  obtain ⟨q, a, w, hq, _, ha⟩ := Machine.exists_of_mem_collect (exec_world h) hmem
  have hcollect := hq.subset (List.mem_append_right q (List.mem_singleton_self a))
  cases a with
  | session a =>
    obtain ⟨session, _, he⟩ := List.mem_map.1 ha
    exact absurd (App.Action.repository.inj he).symm (hb _ _)
  | app a =>
    obtain rfl := List.mem_singleton.1 ha
    exact Machine.exists_of_mem_collect h hcollect

/-- An action of the world is one of its own, or what the input of a chat sends. -/
theorem mem_worlds_cases {b : World.Action} {a : Action D} (h : b ∈ s.worlds print a) :
    b.isOwn = true ∨ ∃ k i a' c message, a = .input k a' ∧ s.inputs[k]? = some i ∧
      message ∈ i.sent print a' ∧ b = send c message := by
  cases a with
  | world a =>
    simp only [worlds] at h
    split_ifs at h with hown
    · exact .inl (List.mem_singleton.1 h ▸ hown)
    · exact absurd h List.not_mem_nil
  | input k a =>
    simp only [worlds] at h
    split at h
    · rename_i c i _ hi
      obtain ⟨message, hsent, rfl⟩ := List.mem_map.1 h
      exact .inr ⟨k, i, a, c, message, rfl, hi, hsent, rfl⟩
    · exact absurd h List.not_mem_nil

/-- What is sent has been decided. -/
theorem decidedIn_of_mem_worlds {d : Device} {message : Message} {toID : UserID} {a : Action D}
    {p : List (Action D)} (hp : p ++ [a] <+: as) (h : (machine F print).exec p = some s)
    (hmem : .app (.repository (.send d message toID)) ∈ s.worlds print a) :
    ∃ decision, DecidedIn F print as decision ∧
      decision.message print = ChatInput.body message := by
  rcases mem_worlds_cases hmem with hown | ⟨k, i, a, c, message', rfl, hi, hsent, he⟩
  · cases hown
  · cases he
    obtain ⟨⟨i', m⟩, hstep, rfl⟩ := Option.bind_eq_some_iff.1 (Option.mem_toList.1 hsent)
    have hinput := List.mem_of_getElem? hi
    obtain ⟨decision, hdecision, he⟩ := (ChatInput.Step.of_step hstep).sent_cases
      (ChatInput.pinned_of_reachable (reachable_input ⟨p, h⟩ i hinput))
    refine ⟨decision, ?_, he⟩
    rcases hdecision with hpending | hdecided
    · exact (decidedIn_of_pending h i hinput decision hpending).mono
        ((List.prefix_append _ _).trans hp)
    · exact ⟨p, s, k, i, a, hp, h, hi, hdecided⟩

/-- What a chat shows has been decided, but for the picture of a photo. -/
theorem exists_decidedIn (h : (machine F print).exec as = some s) {j : ℕ} {c : Chat}
    (hc : s.world.app.chats[j]? = some c) {x : Item} (hx : x ∈ c.screen.items) :
    ∃ decision, DecidedIn F print as decision ∧
      (decision.message print).1 = x.message.type ∧
      (x.message.type ≠ .photo → (decision.message print).2 = x.message.content) := by
  have hsigns : ∀ d user b, b = Repository.signs d user →
      (∀ d message toID, b ≠ .send d message toID) ∧
        ∀ d values toID, b ≠ .uploadMessage d values toID := by
    rintro d user b rfl
    cases user <;> simp [Repository.signs]
  have hupload : ∀ d values toID, .repository (.uploadMessage d values toID) ∉
      (World.machine F).collect (World.apps F)
        ((machine F print).collect (fun s => s.worlds print) as) := by
    intro d values toID hmem
    obtain ⟨p, a, w, _, _, ha⟩ := mem_worlds_of_mem_apps h
      (fun d' user he => (hsigns d' user _ he).2 d values toID rfl) hmem
    rcases mem_worlds_cases ha with hown | ⟨_, _, _, _, _, _, _, _, he⟩
    · cases hown
    · cases he
  obtain ⟨d, message, toID, hsend, htype, _, hcontent⟩ :=
    App.sent_of_mem_items (World.exec_app (exec_world h)) hupload hc hx
  obtain ⟨p, a, w, hp, hw, ha⟩ := mem_worlds_of_mem_apps h
    (fun d' user he => (hsigns d' user _ he).1 d message toID rfl) hsend
  obtain ⟨decision, hdecision, he⟩ := decidedIn_of_mem_worlds hp hw ha
  rw [ChatInput.body] at he
  exact ⟨decision, hdecision, by rw [he, htype], by simpa only [he] using hcontent⟩

/-- Every message of every chat, but for the picture of a photo, is what a user has
    decided to send in a chat, as it was shown there. -/
theorem shown_decided (h : (machine F print).exec as = some s) {j : ℕ} {c : Chat}
    (hc : s.world.app.chats[j]? = some c) {x : Item} (hx : x ∈ c.screen.items) :
    ∃ p w k i a, p ++ [.input k a] <+: as ∧ (machine F print).exec p = some w ∧
      w.inputs[k]? = some i ∧ ∃ decision ∈ i.decided a,
        (decision.message print).1 = x.message.type ∧
        (x.message.type ≠ .photo → (decision.message print).2 = x.message.content) := by
  obtain ⟨decision, ⟨p, w, k, i, a, hp, hw, hi, hdecision⟩, hrest⟩ := exists_decidedIn h hc hx
  exact ⟨p, w, k, i, a, hp, hw, hi, decision, hdecision, hrest⟩

/-- Where coordinates are printed so that they can be read back, a location message
    opens the place where the pin was on the map of a chat when it was confirmed. -/
theorem opens_pin {parse : String → Option D} (hparse : ∀ x, parse (print x) = some x)
    (hprint : ∀ x, ':' ∉ (print x).toList) (h : (machine F print).exec as = some s) {j row : ℕ}
    {c : Chat} (hc : s.world.app.chats[j]? = some c) {x : Item}
    (hrow : c.screen.items[row]? = some x) (htype : x.message.type = .location) :
    ∃ p w k i preview, p ++ [.input k .sendLocationClicked] <+: as ∧
      (machine F print).exec p = some w ∧ w.inputs[k]? = some i ∧
      i.presented = some (.map preview) ∧
      c.screen.didSelectRow parse row =
        .showLocation preview.annotation.1 preview.annotation.2 := by
  obtain ⟨decision, ⟨p, w, k, i, a, hp, hw, hi, hdecision⟩, hmessage, hcontent⟩ :=
    exists_decidedIn h hc (List.mem_of_getElem? hrow)
  rw [htype] at hmessage
  have hcontent := hcontent (by simp [htype])
  cases decision with
  | text | photo => cases hmessage
  | location coordinate =>
    obtain ⟨rfl, preview, hmap, rfl⟩ := ChatInput.mem_decided_location.1 hdecision
    refine ⟨p, w, k, i, preview, hp, hw, hi, hmap, ?_⟩
    have hshows : c.screen.ShowsLocation row
        (ChatVC.coordinate print preview.annotation.1 preview.annotation.2) :=
      ⟨x, hrow, htype, hcontent.symm⟩
    rw [hshows.didSelectRow_eq, ChatVC.decodeLocation_coordinate hparse hprint]

/-- On device 0, a user registers, opens a chat and shares a location, with the pin
    moved. The chat comes to show it. -/
def pinSeen : List (Action ℕ) :=
  Session.registration.map (fun a => .world (.session a)) ++
  [.world (.app (.openChat 0 "v")), .world (.app (.chatEvent 0 0)),
    .input 0 (.selectLocation .authorizedAlways), .input 0 (.locate [(45, 19)]),
    .input 0 .didUpdateLocations, .input 0 (.longPress true (44, 18)),
    .input 0 .sendLocationClicked, .input 0 (.dismissed 2),
    .world (.app (.repository (.resume 1 (.snapshot ⟨"L", "k"⟩)))),
    .world (.app (.repository (.resume 1 (.write true)))),
    .world (.app (.repository (.resume 1 (.write true)))),
    .world (.app (.chatEvent 0 0)), .world (.app (.chatEvent 0 0))]

theorem shown_decided_pinSeen : ∃ s c x,
    (machine .insertion ChatVC.printDegrees).exec pinSeen = some s ∧
    s.world.app.chats[0]? = some c ∧ x ∈ c.screen.items ∧
    ∃ p w k i a, p ++ [.input k a] <+: pinSeen ∧
      (machine .insertion ChatVC.printDegrees).exec p = some w ∧ w.inputs[k]? = some i ∧
        ∃ decision ∈ i.decided a,
          (decision.message ChatVC.printDegrees).1 = x.message.type ∧
          (x.message.type ≠ .photo →
            (decision.message ChatVC.printDegrees).2 = x.message.content) := by
  obtain ⟨s, hs, c, hc, x, hx⟩ : ∃ s,
      (machine .insertion ChatVC.printDegrees).exec pinSeen = some s ∧
        ∃ c, s.world.app.chats[0]? = some c ∧ ∃ x, c.screen.items[0]? = some x :=
    ⟨_, rfl, _, rfl, _, rfl⟩
  have hmem := List.mem_of_getElem? hx
  exact ⟨s, c, x, hs, hc, hmem, shown_decided hs hc hmem⟩

theorem opens_pin_pinSeen : ∃ s c,
    (machine .insertion ChatVC.printDegrees).exec pinSeen = some s ∧
    s.world.app.chats[0]? = some c ∧
    ∃ p w k i preview, p ++ [.input k .sendLocationClicked] <+: pinSeen ∧
      (machine .insertion ChatVC.printDegrees).exec p = some w ∧ w.inputs[k]? = some i ∧
      i.presented = some (.map preview) ∧
      c.screen.didSelectRow ChatVC.parseDegrees 0 =
        .showLocation preview.annotation.1 preview.annotation.2 := by
  obtain ⟨s, hs, c, hc, x, hx, htype⟩ : ∃ s,
      (machine .insertion ChatVC.printDegrees).exec pinSeen = some s ∧
        ∃ c, s.world.app.chats[0]? = some c ∧ ∃ x, c.screen.items[0]? = some x ∧
          x.message.type = .location := ⟨_, rfl, _, rfl, _, rfl, rfl⟩
  exact ⟨s, c, hs, hc, opens_pin ChatVC.parseDegrees_printDegrees ChatVC.not_mem_printDegrees hs hc
    hx htype⟩

end Whole

end MagicChat
