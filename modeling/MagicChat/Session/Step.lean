import MagicChat.Session.Basic

/-!
# The steps of a device

What a step of a device can do, said once: to the directory (`Directory.Answers`),
when an answer comes back (`Phone.Resumes`), and in all (`Phone.Step`). What only
shows something leaves the session of the device alone (`Phone.Shows`).
-/

namespace MagicChat

/-- The user whose registration goes on, with an account already: its identifier,
    address and password. -/
def Request.registers? : Request → Option (UserID × String × String)
  | .putData userUid _ email password | .downloadURL userUid _ email password
  | .updateChildValues userUid _ email password _ => some (userUid, email, password)
  | _ => none

namespace Directory

variable {D D' : Directory}

/-- The directory with a new account. -/
def withAccount (D : Directory) (email password : String) (uid : UserID) : Directory :=
  { D with
    accounts := Function.update D.accounts email (some { uid, password })
    issued := uid :: D.issued }

/-- The directory with the credentials of a user. -/
def withCredentials (D : Directory) (userId : UserID) (withName email path : String) :
    Directory :=
  { D with
    credentials := Function.update D.credentials userId
      (some (Value.updateChildValues (D.credentials userId)
        [("name", .string withName), ("email", .string email),
          ("profilePicLink", .string path)])) }

theorem withAccount_accounts (D : Directory) (email password : String) (uid : UserID)
    (email' : String) : (D.withAccount email password uid).accounts email' =
      if email' = email then some { uid, password } else D.accounts email' :=
  Function.update_apply ..

theorem withCredentials_credentials (D : Directory) (userId : UserID)
    (withName email path : String) (u : UserID) :
    (D.withCredentials userId withName email path).credentials u =
      if u = userId then some (Value.updateChildValues (D.credentials userId)
        [("name", .string withName), ("email", .string email), ("profilePicLink", .string path)])
      else D.credentials u :=
  Function.update_apply ..

/-- What an answered request does to the directory. -/
inductive Answers (D : Directory) : Request → Answer → Directory → Prop
  | created {withName email password : String} {profilePic : UIImage} {uid : UserID} :
    uid ∉ D.issued → D.accounts email = none →
    Answers D (.createUser withName email password profilePic) (.uid (some uid))
      (D.withAccount email password uid)
  | registered {userId : UserID} {withName email password path : String} :
    Answers D (.updateChildValues userId withName email password path) (.ok true)
      (D.withCredentials userId withName email path)
  | same {r : Request} {a : Answer} : Answers D r a D

theorem createUser_eq_none_iff {email password : String} {uid : Option UserID} :
    (D.view none).createUser email password uid = none ↔ uid = none ∨ D.accounts email ≠ none := by
  cases uid with
  | none => simp [Accounts.createUser]
  | some uid => cases h : D.accounts email <;> simp [Accounts.createUser, view, h]

theorem createUser_of_accepted {email password : String} {uid : UserID}
    (h : D.accounts email = none) :
    (D.view none).createUser email password (some uid) =
      some ((D.view none).withAccount email password uid, uid) :=
  Accounts.createUser_of_accepted (o := ⟨some uid, false, none, false⟩) rfl h

theorem answers_of_answer {r : Request} {a : Answer} (h : D.answer r a = some D') :
    D.Answers r a D' := by
  unfold answer at h
  split at h <;> try exact Option.some.inj h ▸ .same
  · -- `createUser`
    rename_i email password _ uid
    split at h
    · cases h
    · rename_i hfresh
      split at h
      · rename_i s userUid hs
        cases uid with
        | none => simp [Accounts.createUser] at hs
        | some uid =>
          have hnone : D.accounts email = none := by
            by_contra hne
            rw [createUser_eq_none_iff.2 (.inr hne)] at hs
            cases hs
          rw [createUser_of_accepted hnone] at hs
          cases hs
          exact Option.some.inj h ▸ .created (by simpa using hfresh) hnone
      · exact Option.some.inj h ▸ .same
  · -- `updateChildValues`
    rename_i ok
    cases ok with
    | true => exact Option.some.inj h ▸ .registered
    | false => exact Option.some.inj h ▸ .same
  · cases h

/-- A sign-in is accepted with the password of the account. -/
theorem signIn_iff {email password : String} :
    (D.view none).signIn email password = true ↔
      ∃ account, D.accounts email = some account ∧ account.password = password := by
  rw [Accounts.signIn, Option.any_eq_true]
  simp [view]

end Directory

namespace Phone

variable {p q r : Phone} {validURL : String → Bool} {D D' : Directory}

/-! ## What is only shown -/

/-- From `p` to `q`, only what is shown changes, and profiles may be asked for. -/
structure Shows (p q : Phone) : Prop where
  userInformation : q.userInformation = p.userInformation
  currentUser : q.currentUser = p.currentUser
  mainQueue : q.mainQueue = p.mainQueue
  requests : ∃ l, q.requests = p.requests ++ l ∧
    ∀ x ∈ l, ∃ id, p.currentUser = some id ∧ x = ⟨some q.window, .info id⟩

theorem Shows.refl (p : Phone) : Shows p p :=
  ⟨rfl, rfl, rfl, [], (List.append_nil _).symm, by simp⟩

theorem shows_homeDidLoad : Shows p p.homeDidLoad := by
  unfold homeDidLoad
  split
  · rename_i id hid
    exact ⟨rfl, rfl, rfl, _, rfl, fun x hx => ⟨id, hid, List.mem_singleton.1 hx⟩⟩
  · exact .refl p

@[simp] theorem homeDidLoad_window : p.homeDidLoad.window = p.window := by
  unfold homeDidLoad
  split <;> rfl

@[simp] theorem homeDidLoad_root : p.homeDidLoad.root = p.root := by
  unfold homeDidLoad
  split <;> rfl

theorem shows_pushTo (t : ViewControllerType) : Shows p (p.pushTo t) := by
  cases t with
  | conversations =>
    have h := shows_homeDidLoad (p := { p with
      window := p.window + 1
      root := some (.home { currentUserID := p.currentUser }) })
    exact ⟨h.userInformation, h.currentUser, h.mainQueue, h.requests⟩
  | welcome => exact ⟨rfl, rfl, rfl, [], (List.append_nil _).symm, by simp⟩

theorem shows_showHome (w : ℕ) : Shows p (p.showHome w) := by
  unfold showHome
  split
  · rename_i isUserInteractionEnabled _
    split
    · have h := shows_homeDidLoad (p := { p with
        root := some (.welcome
          { isUserInteractionEnabled
            presented := some (.home { currentUserID := p.currentUser }) }) })
      exact ⟨h.userInformation, h.currentUser, h.mainQueue, h.requests⟩
    · exact .refl p
  · exact .refl p

/-- From `p` to `q`, only what the window shows changes. -/
def Redraws (p q : Phone) : Prop := ∃ root, q = { p with root }

theorem Redraws.refl (p : Phone) : Redraws p p := ⟨p.root, rfl⟩

theorem Redraws.window (h : Redraws p q) : q.window = p.window :=
  let ⟨_, hq⟩ := h
  hq ▸ rfl

theorem Redraws.requests (h : Redraws p q) : q.requests = p.requests :=
  let ⟨_, hq⟩ := h
  hq ▸ rfl

theorem Redraws.shows (h : Redraws p q) : Shows p q := by
  obtain ⟨root, rfl⟩ := h
  exact ⟨rfl, rfl, rfl, [], (List.append_nil _).symm, by simp⟩

theorem redraws_present (w : ℕ) (x : Presented) : Redraws p (p.present w x) := by
  unfold present
  split
  · split
    · exact ⟨_, rfl⟩
    · exact .refl p
  · exact .refl p

theorem redraws_enable (w : ℕ) : Redraws p (p.enable w) := by
  unfold enable
  split
  · split
    · exact ⟨_, rfl⟩
    · exact .refl p
  · exact .refl p

theorem redraws_setUser (w : ℕ) (user : User) : Redraws p (p.setUser w user) := by
  unfold setUser
  split
  · split
    · exact ⟨_, rfl⟩
    · exact ⟨_, rfl⟩
    · exact .refl p
  · exact .refl p

/-! ## The screen shown -/

theorem home?_congr (h : q.root = p.root) : q.home? = p.home? := by
  rw [home?, home?, h]

@[simp] theorem home?_ask (w : ℕ) (r : Request) : (p.ask w r).home? = p.home? := rfl

@[simp] theorem home?_async (b : SessionBlock) : (p.async b).home? = p.home? := rfl

theorem home?_eq_none_of_welcome? {v : Welcome} (h : p.welcome? = some v)
    (hv : ∀ home, v.presented ≠ some (.home home)) : p.home? = none := by
  unfold welcome? at h
  split at h
  · rename_i v' hroot
    cases h
    rw [home?, hroot]
    obtain ⟨enabled, _ | _ | _ | home⟩ := v
    · rfl
    · rfl
    · rfl
    · exact absurd rfl (hv home)
  · cases h

theorem Welcome.TakesInput.ne_home {v : Welcome} (h : v.TakesInput) (home : Home) :
    v.presented ≠ some (.home home) := by
  rw [h.2]
  simp

@[simp] theorem home?_pushTo_conversations :
    (p.pushTo .conversations).home? = some { currentUserID := p.currentUser } := by
  rw [pushTo, home?, homeDidLoad_root]

@[simp] theorem home?_pushTo_welcome : (p.pushTo .welcome).home? = none := rfl

@[simp] theorem home?_enable (w : ℕ) : (p.enable w).home? = p.home? := by
  unfold enable
  split
  · rename_i presented hroot
    split
    · rw [home?, home?, hroot]
      rcases presented with _ | _ | _ | home <;> rfl
    · rfl
  · rfl

@[simp] theorem home?_present_alert (w : ℕ) : (p.present w .alert).home? = p.home? := by
  unfold present
  split
  · rename_i hroot
    split
    · rw [home?, home?, hroot]
    · rfl
  · rfl

/-- The list of conversations comes to be shown where nothing is, or nothing changes. -/
theorem showHome_cases (w : ℕ) : p.showHome w = p ∨ (p.home? = none ∧ w = p.window ∧
    (p.showHome w).window = p.window ∧
    (p.showHome w).home? = some { currentUserID := p.currentUser }) := by
  unfold showHome
  split
  · rename_i hroot
    split
    · rename_i hw
      refine .inr ⟨?_, hw, homeDidLoad_window, ?_⟩
      · rw [home?, hroot]
      · rw [home?, homeDidLoad_root]
    · exact .inl rfl
  · exact .inl rfl

theorem home?_setUser {w : ℕ} {user : User} {h : Home} (hh : (p.setUser w user).home? = some h) :
    p.home? = some h ∨
      (w = p.window ∧ p.home?.map Home.currentUserID = some h.currentUserID ∧
        h.user = some user) := by
  unfold setUser at hh
  split at hh
  · rename_i hw
    split at hh
    · rename_i hroot
      cases hh
      exact .inr ⟨hw, by rw [home?, hroot]; rfl, rfl⟩
    · rename_i hroot
      cases hh
      exact .inr ⟨hw, by rw [home?, hroot]; rfl, rfl⟩
    · exact .inl hh
  · exact .inl hh

theorem home?_map_setUser (w : ℕ) (user : User) :
    (p.setUser w user).home?.map Home.currentUserID = p.home?.map Home.currentUserID := by
  unfold setUser
  split
  · split
    · rename_i hroot
      rw [home?, home?, hroot]
      rfl
    · rename_i hroot
      rw [home?, home?, hroot]
      rfl
    · rfl
  · rfl

/-! ## Answers -/

/-- What an answer does to a device, for a screen of the window `w`. -/
inductive Resumes (validURL : String → Bool) (D : Directory) (p : Phone) (w : ℕ) :
    Request → Answer → Directory → Phone → Prop
  | signedIn {asker : Asker} {email : String} {account : Account} :
    D.accounts email = some account →
    Resumes validURL D p w (.signIn asker email account.password) (.ok true) D
      ({ p with
        userInformation := some (userInfo email account.password)
        currentUser := some account.uid : Phone }.async (.loggedIn asker w true))
  | refused {asker : Asker} {email password : String} {ok : Bool} :
    ¬(ok = true ∧ (D.view none).signIn email password = true) →
    Resumes validURL D p w (.signIn asker email password) (.ok ok) D
      (p.async (.loggedIn asker w false))
  | created {withName email password : String} {profilePic : UIImage} {uid : UserID} :
    uid ∉ D.issued → D.accounts email = none → profilePic.hasJPEG = true →
    Resumes validURL D p w (.createUser withName email password profilePic) (.uid (some uid))
      (D.withAccount email password uid)
      ({ p with currentUser := some uid : Phone }.ask w (.putData uid withName email password))
  | withoutPicture {withName email password : String} {profilePic : UIImage} {uid : UserID} :
    uid ∉ D.issued → D.accounts email = none → profilePic.hasJPEG = false →
    Resumes validURL D p w (.createUser withName email password profilePic) (.uid (some uid))
      (D.withAccount email password uid) { p with currentUser := some uid }
  | notCreated {withName email password : String} {profilePic : UIImage}
      {uid : Option UserID} :
    Resumes validURL D p w (.createUser withName email password profilePic) (.uid uid) D
      (p.async (.registered w false))
  | stored {userUid : UserID} {withName email password : String} :
    Resumes validURL D p w (.putData userUid withName email password) (.ok true) D
      (p.ask w (.downloadURL userUid withName email password))
  | linked {userUid : UserID} {withName email password path : String} :
    Resumes validURL D p w (.downloadURL userUid withName email password) (.url (some path)) D
      (p.ask w (.updateChildValues userUid withName email password path))
  | registered {userId : UserID} {withName email password path : String} :
    Resumes validURL D p w (.updateChildValues userId withName email password path) (.ok true)
      (D.withCredentials userId withName email path)
      ({ p with userInformation := some (userInfo email password) : Phone }.async
        (.registered w true))
  | abandoned {r : Request} {a : Answer} :
    r.registers?.isSome → a = .ok false ∨ a = .url none → Resumes validURL D p w r a D p
  | found {forUserID : UserID} {name email link : String} :
    profile (D.credentials forUserID) = some (name, email, link) → validURL link = true →
    Resumes validURL D p w (.info forUserID) .snapshot D (p.ask w (.dataTask forUserID name email))
  | notFound {forUserID : UserID} :
    (∀ name email link, profile (D.credentials forUserID) = some (name, email, link) →
      validURL link = false) →
    Resumes validURL D p w (.info forUserID) .snapshot D p
  | shown {forUserID : UserID} {name email : String} {profilePic : UIImage} :
    Resumes validURL D p w (.dataTask forUserID name email) (.image (some profilePic)) D
      (p.setUser w { name, email, id := forUserID, profilePic })
  | notShown {forUserID : UserID} {name email : String} :
    Resumes validURL D p w (.dataTask forUserID name email) (.image none) D p

theorem resumes {w : ℕ} {r : Request} {a : Answer} (h : D.answer r a = some D') :
    Resumes validURL D p w r a D' (p.resume validURL D w r a) := by
  cases r with
  | signIn asker email password =>
    cases a with
    | ok ok =>
      obtain rfl : D = D' := Option.some.inj h
      by_cases hok : ok = true ∧ (D.view none).signIn email password = true
      · obtain ⟨rfl, hs⟩ := hok
        obtain ⟨account, ha, rfl⟩ := Directory.signIn_iff.1 hs
        rw [resume, if_pos ⟨rfl, hs⟩, ha]
        exact .signedIn ha
      · rw [resume, if_neg hok]
        exact .refused hok
    | _ => cases h
  | createUser withName email password profilePic =>
    cases a with
    | uid uid =>
      rw [resume]
      rcases hc : (D.view none).createUser email password uid with _ | ⟨s, userUid⟩
      · simp only [Directory.answer, hc] at h
        split at h
        · cases h
        · exact Option.some.inj h ▸ .notCreated
      · cases uid with
        | none => simp [Accounts.createUser] at hc
        | some uid =>
          have hnone : D.accounts email = none := by
            by_contra hne
            rw [Directory.createUser_eq_none_iff.2 (.inr hne)] at hc
            cases hc
          rw [Directory.createUser_of_accepted hnone] at hc
          cases hc
          simp only [Directory.answer, Option.any_some,
            Directory.createUser_of_accepted hnone] at h
          split at h
          · cases h
          · rename_i hfresh
            rw [decide_eq_true_eq] at hfresh
            obtain rfl : D.withAccount email password userUid = D' := Option.some.inj h
            by_cases hj : profilePic.hasJPEG = true
            · simp only [if_pos hj]
              exact .created hfresh hnone hj
            · simp only [if_neg hj]
              exact .withoutPicture hfresh hnone (by simpa using hj)
    | _ => cases h
  | putData userUid withName email password =>
    cases a with
    | ok ok =>
      obtain rfl : D = D' := Option.some.inj h
      cases ok with
      | true => exact .stored
      | false => exact .abandoned rfl (.inl rfl)
    | _ => cases h
  | downloadURL userUid withName email password =>
    cases a with
    | url path =>
      obtain rfl : D = D' := Option.some.inj h
      cases path with
      | some path => exact .linked
      | none => exact .abandoned rfl (.inr rfl)
    | _ => cases h
  | updateChildValues userId withName email password path =>
    cases a with
    | ok ok =>
      obtain rfl := Option.some.inj h
      cases ok with
      | true => exact .registered
      | false => exact .abandoned rfl (.inl rfl)
    | _ => cases h
  | info forUserID =>
    cases a with
    | snapshot =>
      obtain rfl : D = D' := Option.some.inj h
      rw [resume]
      cases hprofile : profile (D.credentials forUserID) with
      | none => exact .notFound fun name email link hn => by rw [hprofile] at hn; cases hn
      | some x =>
        obtain ⟨name, email, link⟩ := x
        by_cases hlink : validURL link = true
        · simp only [if_pos hlink]
          exact .found hprofile hlink
        · simp only [if_neg hlink]
          refine .notFound fun name' email' link' hn => ?_
          rw [hprofile] at hn
          cases hn
          simpa using hlink
    | _ => cases h
  | dataTask forUserID name email =>
    cases a with
    | image profilePic =>
      obtain rfl : D = D' := Option.some.inj h
      cases profilePic with
      | some profilePic => exact .shown
      | none => exact .notShown
    | _ => cases h

/-! ## Steps -/

/-- What a step does to a device and to the directory. -/
inductive Step (validURL : String → Bool) (D : Directory) (p : Phone) :
    Action → Directory → Phone → Prop
  | launch : Step validURL D p .launch D p.launch
  | login {v : Welcome} {email password : String} : p.welcome? = some v → v.TakesInput →
    Step validURL D p (.login email password) D (p.login email password)
  | register {v : Welcome} {withName email password : String} {profilePic : UIImage} :
    p.welcome? = some v → v.TakesInput →
    Step validURL D p (.register withName email password profilePic) D
      (p.register withName email password profilePic)
  | selectPic {v : Welcome} : p.welcome? = some v → v.TakesInput →
    Step validURL D p .selectPic D
      { p with root := some (.welcome { v with presented := some .picker }) }
  | dismiss {v : Welcome} : p.welcome? = some v →
    v.presented = some .alert ∨ v.presented = some .picker →
    Step validURL D p .dismiss D { p with root := some (.welcome { v with presented := none }) }
  | proceedLogOut {h : Home} : p.home? = some h → h.user.isSome →
    Step validURL D p .proceedLogOut D (p.async .logOut)
  /-- The program has been launched again since the request was made. -/
  | orphan {i : ℕ} {r : Request} {a : Answer} {D' : Directory} :
    p.requests[i]? = some ⟨none, r⟩ → D.Answers r a D' →
    Step validURL D p (.answer i a) D' { p with requests := p.requests.eraseIdx i }
  | answer {i w : ℕ} {r : Request} {a : Answer} {D' : Directory} {q : Phone} :
    p.requests[i]? = some ⟨some w, r⟩ → D.Answers r a D' →
    Resumes validURL D { p with requests := p.requests.eraseIdx i } w r a D' q →
    Step validURL D p (.answer i a) D' q
  | runBlock {signOut : Bool} {b : SessionBlock} {mainQueue : List SessionBlock} :
    p.mainQueue = b :: mainQueue →
    Step validURL D p (.runBlock signOut) D ({ p with mainQueue : Phone }.run signOut b)

theorem step_cases {a : Action} (h : p.step validURL D a = some (D', q)) :
    Step validURL D p a D' q := by
  cases a with
  | launch =>
    cases h
    exact .launch
  | login email password =>
    obtain ⟨v, hv, h⟩ := Option.bind_eq_some_iff.1 h
    obtain ⟨hin, h⟩ := Option.ite_none_right_eq_some.1 h
    cases h
    exact .login hv hin
  | register withName email password profilePic =>
    obtain ⟨v, hv, h⟩ := Option.bind_eq_some_iff.1 h
    obtain ⟨hin, h⟩ := Option.ite_none_right_eq_some.1 h
    cases h
    exact .register hv hin
  | selectPic =>
    obtain ⟨v, hv, h⟩ := Option.bind_eq_some_iff.1 h
    obtain ⟨hin, h⟩ := Option.ite_none_right_eq_some.1 h
    cases h
    exact .selectPic hv hin
  | dismiss =>
    obtain ⟨v, hv, h⟩ := Option.bind_eq_some_iff.1 h
    obtain ⟨hin, h⟩ := Option.ite_none_right_eq_some.1 h
    cases h
    exact .dismiss hv hin
  | proceedLogOut =>
    obtain ⟨v, hv, h⟩ := Option.bind_eq_some_iff.1 h
    obtain ⟨hin, h⟩ := Option.ite_none_right_eq_some.1 h
    cases h
    exact .proceedLogOut hv hin
  | answer i a =>
    obtain ⟨⟨w, r⟩, hr, h⟩ := Option.bind_eq_some_iff.1 h
    obtain ⟨D'', hD, h⟩ := Option.bind_eq_some_iff.1 h
    cases w with
    | none =>
      cases h
      exact .orphan hr (Directory.answers_of_answer hD)
    | some w =>
      cases h
      exact .answer hr (Directory.answers_of_answer hD) (resumes hD)
  | runBlock signOut =>
    simp only [step] at h
    split at h
    · cases h
    · rename_i b mainQueue hb
      cases h
      exact .runBlock hb

end Phone

end MagicChat
