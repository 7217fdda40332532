import MagicChat.App.Origin
import MagicChat.Session.Password

/-!
# The program and its users

The sessions of the devices and the program together: whoever a device signs in
or out, in `UserRemoteRepository`, is `Auth.auth().currentUser` for the chats, the
lists and the calls of the same device. Apart from this, the program runs as it
does by itself (`App`), whatever the screens of a session show.

No message is written without an account, or in another one's name: every record is
that of a message sent, and what it says of its sender is the identifier of an account
that was signed in, on the device that has sent the message, when it was sent, and
whose password had been typed there (`sent_by_account`).
-/

namespace MagicChat

/-- The sessions, and the program. -/
structure World where
  session : Session
  app : App

/-- `Auth.auth().currentUser` of a device becomes `user`. -/
def Repository.signs (d : Device) : Option UserID → Repository.Action
  | some user => .loginUser d user
  | none => .logOutUser d

/-- The sessions sign in and out, and `uploadMessage` is called by `send` alone. -/
def App.Action.isOwn : App.Action → Bool
  | .repository (.loginUser ..) | .repository (.logOutUser _)
  | .repository (.uploadMessage ..) => false
  | _ => true

namespace World

inductive Action
  | session (a : Session.Action)
  | app (a : App.Action)

variable (F : Foundation) (s : World)

/-- One step: of a session, which the program follows, or of the program. -/
def step : Action → Option World
  | .session a => do
    let session ← s.session.step F.validURL a
    let app ← s.app.repository (Repository.signs a.device (session.phones a.device).currentUser)
    some { session, app }
  | .app a => if a.isOwn then (s.app.step F a).map fun app => { s with app } else none

/-- The machine of the program and its users. -/
def machine : Machine World Action where
  init := { session := (Session.machine F.validURL).init, app := (App.machine F).init }
  step s := s.step F

/-! ## The two parts -/

/-- The actions of the sessions in a step. -/
def sessions (_ : World) : Action → List Session.Action
  | .session a => [a]
  | .app _ => []

/-- The actions of the program in a step. -/
def apps : Action → List App.Action
  | .session a => (s.session.step F.validURL a).toList.map fun session =>
      .repository (Repository.signs a.device (session.phones a.device).currentUser)
  | .app a => [a]

/-- The actions of the repository along a run. -/
def calls (F : Foundation) (as : List Action) : List Repository.Action :=
  (App.machine F).collect App.calls ((machine F).collect (apps F) as)

variable {F s} {t : World} {a : Action} {as : List Action}

theorem step_session {a : Session.Action} (h : (machine F).step s (.session a) = some t) :
    (Session.machine F.validURL).step s.session a = some t.session ∧
      (App.machine F).step s.app (.repository
        (Repository.signs a.device (t.session.phones a.device).currentUser)) = some t.app := by
  obtain ⟨session, hsession, h⟩ := Option.bind_eq_some_iff.1 h
  obtain ⟨app, happ, h⟩ := Option.bind_eq_some_iff.1 h
  cases h
  exact ⟨hsession, happ⟩

theorem step_app {a : App.Action} (h : (machine F).step s (.app a) = some t) :
    a.isOwn = true ∧ (App.machine F).step s.app a = some t.app ∧ t.session = s.session := by
  obtain ⟨hown, h⟩ := Option.ite_none_right_eq_some.1 h
  obtain ⟨app, happ, rfl⟩ := Option.map_eq_some_iff.1 h
  exact ⟨hown, happ, rfl⟩

/-- The sessions run by themselves. -/
theorem exec_session (h : (machine F).exec as = some s) :
    (Session.machine F.validURL).exec ((machine F).collect sessions as) = some s.session := by
  refine Machine.exec_collect World.session rfl (fun s a t h => ?_) h
  cases a with
  | session a => exact Machine.execFrom_singleton.trans (step_session h).1
  | app a => exact congrArg some (step_app h).2.2.symm

/-- The program runs by itself. -/
theorem exec_app (h : (machine F).exec as = some s) :
    (App.machine F).exec ((machine F).collect (apps F) as) = some s.app := by
  refine Machine.exec_collect World.app rfl (fun s a t h => ?_) h
  cases a with
  | session a =>
    obtain ⟨hsession, happ⟩ := step_session h
    have hstep : s.session.step F.validURL a = some t.session := hsession
    rw [apps, hstep]
    exact Machine.execFrom_singleton.trans happ
  | app a => exact Machine.execFrom_singleton.trans (step_app h).2.1

end World

/-- The program by itself signs nobody in or out. -/
theorem App.currentUser_of_isOwn {F : Foundation} {s t : App} {a : Action} (ha : a.isOwn = true)
    (h : (machine F).step s a = some t) : t.repo.currentUser = s.repo.currentUser := by
  have hcalls : ∀ b ∈ s.calls a, (∀ d user, b ≠ .loginUser d user) ∧ ∀ d, b ≠ .logOutUser d := by
    cases a with
    | repository b =>
      intro b' hb
      obtain rfl := List.mem_singleton.1 hb
      constructor
      · rintro d user rfl
        cases ha
      · rintro d rfl
        cases ha
    | openChat d peer =>
      intro b hb
      obtain rfl := List.mem_singleton.1 hb
      simp
    | closeChat j =>
      intro b hb
      obtain ⟨c, _, rfl⟩ := List.mem_map.1 hb
      simp
    | _ => exact fun b hb => absurd hb List.not_mem_nil
  refine Machine.execFrom_invariant (I := fun r => r.currentUser = s.repo.currentUser)
    (fun r b r' hb hr hstep => ?_) hcalls (execFrom_calls h) rfl
  rw [← hr]
  cases Repository.Step.of_step hstep with
  | login => exact absurd rfl (hb.1 _ _)
  | logOut => exact absurd rfl (hb.2 _)
  | _ => rfl

namespace World

variable {F : Foundation} {s t : World} {as : List Action}

/-- The program knows who is signed in on a device. -/
theorem currentUser_eq (h : (machine F).Reachable s) (d : Device) :
    s.app.repo.currentUser d = (s.session.phones d).currentUser := by
  refine h.invariant (I := fun s => ∀ d, s.app.repo.currentUser d =
    (s.session.phones d).currentUser) (fun _ => rfl) (fun s a t _ hs ht d => ?_) d
  cases a with
  | session a =>
    obtain ⟨hsession, happ⟩ := step_session ht
    obtain ⟨_, hothers⟩ := Session.step_cases hsession
    obtain ⟨hrepo, _⟩ := App.step_repository happ
    have hsigns : t.app.repo.currentUser = Function.update s.app.repo.currentUser a.device
        (t.session.phones a.device).currentUser := by
      generalize (t.session.phones a.device).currentUser = user at hrepo
      cases user with
      | none => rw [← Option.some.inj hrepo]
      | some user => rw [← Option.some.inj hrepo]
    rw [hsigns]
    by_cases hd : d = a.device
    · rw [hd, Function.update_self]
    · rw [Function.update_of_ne hd, hs d, hothers d hd]
  | app a =>
    obtain ⟨hown, happ, hsession⟩ := step_app ht
    rw [App.currentUser_of_isOwn hown happ, hsession, hs d]

/-- No account is lost or changed in a run that goes on. -/
theorem extends_of_isPrefix {bs : List Action} (hp : as <+: bs)
    (hs : (machine F).exec as = some s) (ht : (machine F).exec bs = some t) :
    s.session.directory.Extends t.session.directory := by
  refine Machine.rel_of_isPrefix (R := fun s t : World => s.session.directory.Extends
    t.session.directory) (fun s => .refl _) (fun _ _ _ h h' email account ha =>
    h' _ _ (h email account ha)) (fun s a t _ h => ?_) hp hs ht
  cases a with
  | session a => exact (Session.step_cases (step_session h).1).1.extends
  | app a =>
    rw [(step_app h).2.2]
    exact .refl _

/-- An action of the program that stores something is one of the whole, taken in the
    same state of the program. -/
theorem exists_of_isPrefix_apps {p : List App.Action} {b : Repository.Action}
    {r : Repository} (h : (machine F).exec as = some s)
    (hp : p ++ [.repository b] <+: (machine F).collect (apps F) as) (haccepts : r.Accepts b) :
    ∃ q w, q ++ [.app (.repository b)] <+: as ∧ (machine F).exec q = some w ∧
      (App.machine F).exec p = some w.app := by
  obtain ⟨q, a, w, l, hq, hw, hl, rfl⟩ := Machine.exists_of_isPrefix_collect h hp
  have hb := hl.subset (List.mem_append_right l (List.mem_singleton_self _))
  cases a with
  | session a =>
    obtain ⟨session, _, he⟩ := List.mem_map.1 hb
    cases hsigns : (session.phones a.device).currentUser with
    | none =>
      rw [hsigns] at he
      cases he
      cases haccepts
    | some user =>
      rw [hsigns] at he
      cases he
      cases haccepts
  | app a =>
    obtain rfl := List.mem_singleton.1 hb
    obtain rfl : l = [] := by simpa [apps] using hl.length_le
    rw [List.append_nil]
    exact ⟨q, w, hq, hw, exec_app hw⟩

theorem exists_of_mem_typed {d : Device} {data : String × String} (h : (machine F).exec as = some s)
    (hdata : data ∈ Session.typed ((machine F).collect sessions as) d) :
    ∃ a, .session ⟨d, a⟩ ∈ as ∧ a.typed? = some data := by
  obtain ⟨a, ha, rfl, hdata⟩ := hdata
  obtain ⟨p, b, _, hp, _, hmem⟩ := Machine.exists_of_mem_collect h ha
  cases b with
  | session b =>
    obtain rfl := List.mem_singleton.1 hmem
    exact ⟨a.action, hp.subset (List.mem_append_right p (List.mem_singleton_self _)), hdata⟩
  | app b => exact absurd hmem List.not_mem_nil

/-- Every record is that of a message sent. It says of its sender the identifier of an
    account, which was signed in on the device when the message was sent there, and whose
    password had been typed on this device. -/
theorem sent_by_account {ref : Reference} {v : Value} (h : (machine F).exec as = some s)
    (hv : s.app.repo.db.message ref = some v) :
    ∃ p w d message toID email account u,
      p ++ [.app (.repository (.send d message toID))] <+: as ∧ (machine F).exec p = some w ∧
      w.app.repo.Composes (calls F as) w.app.repo.calls.length (.send d message toID) u ∧
      SameRecord (.dictionary u.values) v ∧
      (w.session.phones d).currentUser = some account.uid ∧
      (∃ a, .session ⟨d, a⟩ ∈ p ∧ a.typed? = some (email, account.password)) ∧
      s.session.directory.accounts email = some account ∧ v.fromID = some account.uid := by
  obtain ⟨origin, htraced⟩ := Repository.exists_traced (App.exec_repo (exec_app h))
  obtain ⟨r, b, u, hstart, hu, hsame⟩ := htraced.composes hv
  obtain ⟨p₀, w₀, hp₀, hw₀, rfl⟩ := App.exists_of_startedAt (exec_app h) hstart hu.accepts
  obtain ⟨p, w, hp, hw, he⟩ := exists_of_isPrefix_apps h hp₀ hu.accepts
  obtain rfl := Option.some.inj (hw₀.symm.trans he)
  obtain ⟨_, _, _, hlength⟩ := hstart
  rw [← hlength] at hu
  obtain ⟨d, message, toID, fromID, rfl, hd, hfrom⟩ : ∃ d message toID fromID,
      b = .send d message toID ∧ w.app.repo.currentUser d = some fromID ∧
        (Value.dictionary u.values).fromID = some fromID := by
    cases hu with
    | @send d fromID toID message content hd => exact ⟨d, message, toID, fromID, rfl, hd, rfl⟩
    | @photo d fromID toID _ message _ hphoto =>
      exact ⟨d, message, toID, fromID, rfl, hphoto.signedIn, rfl⟩
    | @uploadMessage d _ toID values =>
      -- Only `send` calls `uploadMessage`.
      obtain ⟨r, hr⟩ := Machine.exec_of_isPrefix h hp
      obtain ⟨w', hw', hstep⟩ := Machine.exec_concat_eq_some.1 hr
      cases (step_app hstep).1
  rw [currentUser_eq ⟨p, hw⟩] at hd
  obtain ⟨email, account, ha, rfl, htyped⟩ :=
    (Session.knows_of_exec (exec_session hw) d).signedIn fromID hd
  exact ⟨p, w, d, message, toID, email, account, u, hp, hw, hu, hsame, hd,
    exists_of_mem_typed hw htyped,
    extends_of_isPrefix ((List.prefix_append p _).trans hp) hw h email account ha,
    hsame.fromID.trans hfrom⟩

/-- On device 0, a user registers, and sends a first message. -/
def registeredMessage : List Action :=
  Session.registration.map .session ++
  [.app (.repository (.send 0 (composeMessage .text (.field (.string "hi")) 1) "v")),
    .app (.repository (.resume 0 (.snapshot ⟨"L", "k"⟩))),
    .app (.repository (.resume 0 (.write true)))]

theorem sent_by_account_registeredMessage : ∃ s v,
    (machine .insertion).exec registeredMessage = some s ∧
      s.app.repo.db.message ⟨"L", "k"⟩ = some v ∧
      ∃ p w d message toID email account u,
        p ++ [.app (.repository (.send d message toID))] <+: registeredMessage ∧
        (machine .insertion).exec p = some w ∧
        w.app.repo.Composes (calls .insertion registeredMessage) w.app.repo.calls.length
          (.send d message toID) u ∧ SameRecord (.dictionary u.values) v ∧
        (w.session.phones d).currentUser = some account.uid ∧
        (∃ a, .session ⟨d, a⟩ ∈ p ∧ a.typed? = some (email, account.password)) ∧
        s.session.directory.accounts email = some account ∧ v.fromID = some account.uid := by
  obtain ⟨s, hs, v, hv⟩ : ∃ s, (machine .insertion).exec registeredMessage = some s ∧
      ∃ v, s.app.repo.db.message ⟨"L", "k"⟩ = some v := ⟨_, rfl, _, rfl⟩
  exact ⟨s, v, hs, hv, sent_by_account hs hv⟩

end World

end MagicChat
