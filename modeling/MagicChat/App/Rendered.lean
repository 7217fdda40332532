import MagicChat.App.Quiet

/-!
# The program comes to rest

When the table of a chat is called, it asks for cells: that of the row it has to
reload, or those that come into view. Which ones it asks for, and when, is up to
the table view; here they are any rows, asked for at any later time
(`Rendered.due`). A cell may start a download, which ends with another call.

What the users have started ends by itself all the same (`comes_to_rest`), unless
data comes again and again that is no picture: this leaves its photo without a
picture, and has its row reloaded, so that it is downloaded once more.
-/

namespace MagicChat

/-- The program, with the cells that its tables are about to ask for. -/
structure Rendered where
  app : App
  /-- The cells, by chat and row. -/
  due : List (ℕ × ℕ)

namespace Rendered

inductive Action
  /-- A step of the program. If it calls the table of a chat, this is going to ask
      for the cells of the rows. -/
  | app (a : App.Action) (rows : List ℕ)
  /-- A table asks for a cell that is due. -/
  | render (i : ℕ)

/-- The cells that are asked for when an action has called a table. -/
def called : App.Action → List ℕ → List (ℕ × ℕ)
  | .screen j a, rows => if a.callsTable then rows.map fun row => (j, row) else []
  | _, _ => []

variable (F : Foundation) (s : Rendered)

/-- One step: of the program, or of a table. -/
def step : Action → Option Rendered
  | .app a rows => do
    let app ← s.app.step F a
    some { app, due := s.due ++ called a rows }
  | .render i => do
    let (j, row) ← s.due[i]?
    -- The row may be gone by now: then its cell is not asked for.
    let app := (s.app.step F (.screen j (.cellForRow row))).getD s.app
    some { app, due := s.due.eraseIdx i }

/-- The machine of the program and its tables. -/
def machine : Machine Rendered Action where
  init := { app := (App.machine F).init, due := [] }
  step s := s.step F

/-- The action is not up to a user. -/
def Action.isAnswer : Action → Bool
  | .app a _ => a.isAnswer
  | .render _ => true

/-- Data is downloaded that is no picture. -/
def Action.isNoPicture : Action → Bool
  | .app a _ => a.isNoPicture
  | .render _ => false

/-- Nothing is pending. -/
structure Quiet : Prop where
  app : s.app.Quiet
  due : s.due = []

variable {F s} {t : Rendered} {a : Action}

theorem step_app {a : App.Action} {rows : List ℕ}
    (h : (machine F).step s (.app a rows) = some t) :
    (App.machine F).step s.app a = some t.app ∧ t.due = s.due ++ called a rows := by
  obtain ⟨app, happ, h⟩ := Option.bind_eq_some_iff.1 h
  obtain rfl := Option.some.inj h
  exact ⟨happ, rfl⟩

theorem step_render {i : ℕ} (h : (machine F).step s (.render i) = some t) :
    ∃ j row, s.due[i]? = some (j, row) ∧ t.due = s.due.eraseIdx i ∧
      (t.app = s.app ∨ (App.machine F).step s.app (.screen j (.cellForRow row)) = some t.app) := by
  obtain ⟨⟨j, row⟩, hi, h⟩ := Option.bind_eq_some_iff.1 h
  obtain rfl := Option.some.inj h
  refine ⟨j, row, hi, rfl, ?_⟩
  cases hstep : s.app.step F (.screen j (.cellForRow row)) with
  | none => exact .inl rfl
  | some app => exact .inr hstep

theorem called_of_not_callsTable {a : App.Action} (ha : a.callsTable = false) (rows : List ℕ) :
    called a rows = [] := by
  cases a with
  | screen j b => exact if_neg (Bool.eq_false_iff.1 ha)
  | _ => rfl

/-! ## Every answer is a step towards rest -/

/-- The cells come between the calls to the tables and the downloads that they start. -/
def ranks : List (Rendered → ℕ) :=
  App.ranks.map (· ∘ app) ++ [fun s => s.due.length, App.live ∘ app]

theorem drops_of_isAnswer (ha : a.isAnswer) (hpicture : a.isNoPicture = false)
    (h : (machine F).step s a = some t) : Drops ranks s t := by
  cases a with
  | app a rows =>
    obtain ⟨hstep, hdue⟩ := step_app h
    cases hcalls : a.callsTable with
    | true => exact (App.drops_of_callsTable ha hcalls hstep).map.append _
    | false =>
      -- Without a call, no cell becomes due.
      rw [called_of_not_callsTable hcalls, List.append_nil] at hdue
      have hdrops := (App.drops_of_isAnswer ha hpicture hstep).map (f := app)
      rw [List.map_append] at hdrops
      exact hdrops.insert (by rw [hdue])
  | render i =>
    obtain ⟨j, row, hi, hdue, happ⟩ := step_render h
    have hlength := Lists.length_eraseIdx_of_getElem? hi
    have heq : ∀ rank ∈ App.ranks, rank t.app = rank s.app := by
      rcases happ with happ | happ
      · exact fun rank _ => by rw [happ]
      · exact App.ranks_cellForRow happ
    refine .of_forall_eq (List.forall_mem_map.2 heq) (.head ?_)
    rw [hdue]
    omega

/-- The program cannot go on for ever without its users, and without data that is no picture. -/
theorem settles (F : Foundation) :
    (machine F).Settles fun a => a.isAnswer = true ∧ a.isNoPicture = false :=
  Machine.settles_of_drops ranks fun _ _ _ ha h => drops_of_isAnswer ha.1 ha.2 h

/-! ## At rest -/

/-- Where data can come that is no picture, an error can come instead. -/
theorem settled_of_isNoPicture
    (h : (machine F).Settled (fun a => a.isAnswer = true ∧ a.isNoPicture = false) s) :
    (machine F).Settled (·.isAnswer) s := by
  intro a ha
  by_cases hpicture : a.isNoPicture = true
  · cases a with
    | render i => cases hpicture
    | app a rows =>
      cases a with
      | screen j b =>
        cases b with
        | downloaded i result =>
          have herror := h (.app (.screen j (.downloaded i .error)) rows) ⟨rfl, rfl⟩
          simp only [machine, step, App.step, ChatVC.step, ChatVC.downloaded] at herror ⊢
          cases hc : s.app.chats[j]? with
          | none => rfl
          | some c =>
            cases hd : c.screen.downloads[i]? with
            | none => simp [hd]
            | some d => simp [hc, hd, ChatVC.Action.isDelivery] at herror
        | _ => cases hpicture
      | _ => cases hpicture
  · exact h a ⟨ha, Bool.eq_false_iff.2 hpicture⟩

/-- Nothing that is not up to a user can happen if and only if nothing is pending. -/
theorem settled_iff : (machine F).Settled (·.isAnswer) s ↔ s.Quiet := by
  constructor
  · intro h
    constructor
    · refine (App.settled_iff_quiet (F := F)).1 fun a ha => ?_
      refine Option.eq_none_iff_forall_ne_some.2 fun app happ => ?_
      have hnone := h (.app a []) ha
      simp [machine, step, show s.app.step F a = some app from happ] at hnone
    · cases hdue : s.due with
      | nil => rfl
      | cons cell due =>
        have hnone := h (.render 0) rfl
        simp [machine, step, hdue] at hnone
  · intro h a ha
    refine Option.eq_none_iff_forall_ne_some.2 fun t ht => ?_
    cases a with
    | app a rows =>
      obtain ⟨hstep, _⟩ := step_app ht
      rw [App.settled_iff_quiet.2 h.app a ha] at hstep
      cases hstep
    | render i =>
      obtain ⟨j, row, hi, _⟩ := step_render ht
      simp [h.due] at hi

/-- What has been started ends. If the program goes on for ever without its users, data
    comes again and again that is no picture; without such data, it can always come
    to rest; and it cannot go on without them if and only if nothing is pending. -/
theorem comes_to_rest (F : Foundation) :
    (∀ f : ℕ → Rendered, (∀ n, ∃ a, a.isAnswer ∧ (machine F).step (f n) a = some (f (n + 1))) →
      ∀ n, ∃ m, n ≤ m ∧ ∃ a, a.isNoPicture ∧ (machine F).step (f m) a = some (f (m + 1))) ∧
    (∀ s, ∃ as t, (∀ a ∈ as, a.isAnswer = true ∧ a.isNoPicture = false) ∧
      (machine F).execFrom s as = some t ∧ t.Quiet) ∧
    ∀ s, (machine F).Settled (·.isAnswer) s ↔ s.Quiet := by
  refine ⟨fun f hf n => ?_, fun s => ?_, fun _ => settled_iff⟩
  · obtain ⟨m, hm⟩ := (settles F).exists_not_step fun m => f (n + m)
    obtain ⟨a, ha, hstep⟩ := hf (n + m)
    refine ⟨n + m, Nat.le_add_right n m, a, ?_, hstep⟩
    by_contra hpicture
    exact hm a ⟨ha, Bool.eq_false_iff.2 hpicture⟩ hstep
  · obtain ⟨as, t, has, ht, hsettled⟩ := (settles F).exists_settled s
    exact ⟨as, t, has, ht, settled_iff.1 (settled_of_isNoPicture hsettled)⟩

end Rendered

end MagicChat
