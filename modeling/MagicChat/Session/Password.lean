import Mathlib.Data.Set.Basic
import MagicChat.Session.Directory

/-!
# Who knows the password

Whoever is signed in on a device has an account, and the password of the account
has been typed there, to log in or to register (`signedIn_typed`): what is asked
of the authentication service, and what is saved for the next launch, has been
typed on the same device before.
-/

namespace MagicChat

/-- The login data of a request for a login or a registration. -/
def Request.login? : Request → Option (String × String)
  | .signIn _ email password | .createUser _ email password _ | .putData _ _ email password
  | .downloadURL _ _ email password | .updateChildValues _ _ email password _ =>
    some (email, password)
  | .info _ | .dataTask .. => none

namespace Phone

/-- The login data that is typed in an action. -/
def Action.typed? : Action → Option (String × String)
  | .login email password | .register _ email password _ => some (email, password)
  | _ => none

/-- Whoever is signed in, what is saved and what is asked for goes back to the login
    data `K`. -/
structure Knows (K : Set (String × String)) (D : Directory) (p : Phone) : Prop where
  signedIn : ∀ u, p.currentUser = some u → ∃ email account, D.accounts email = some account ∧
    account.uid = u ∧ (email, account.password) ∈ K
  saved : ∀ info, p.userInformation = some info → ∃ email password,
    info = userInfo email password ∧ (email, password) ∈ K
  requests : ∀ x ∈ p.requests, ∀ data, x.request.login? = some data → data ∈ K

variable {p q : Phone} {validURL : String → Bool} {D D' : Directory} {K K' : Set (String × String)}

theorem Knows.mono (h : p.Knows K D) (hD : D.Extends D') (hK : K ⊆ K') : p.Knows K' D' where
  signedIn u hu :=
    let ⟨email, account, ha, he, hk⟩ := h.signedIn u hu
    ⟨email, account, hD email account ha, he, hK hk⟩
  saved info hi :=
    let ⟨email, password, he, hk⟩ := h.saved info hi
    ⟨email, password, he, hK hk⟩
  requests x hx data hd := hK (h.requests x hx data hd)

/-- The session of a device stays the same, and requests without login data are new. -/
theorem Knows.of_requests (h : p.Knows K D) (hi : q.userInformation = p.userInformation)
    (hu : q.currentUser = p.currentUser)
    (hr : ∀ x ∈ q.requests, x.request.login? = none ∨ ∃ y ∈ p.requests, y.request = x.request) :
    q.Knows K D where
  signedIn u hq := h.signedIn u (hu ▸ hq)
  saved info hq := h.saved info (hi ▸ hq)
  requests x hx data hd := by
    rcases hr x hx with hnone | ⟨y, hy, he⟩
    · rw [hnone] at hd
      cases hd
    · exact h.requests y hy data (he ▸ hd)

theorem Knows.congr (h : p.Knows K D) (hi : q.userInformation = p.userInformation)
    (hu : q.currentUser = p.currentUser) (hr : q.requests = p.requests) : q.Knows K D :=
  h.of_requests hi hu fun x hx => .inr ⟨x, hr ▸ hx, rfl⟩

theorem Shows.knows (h : Shows p q) (hp : p.Knows K D) : q.Knows K D := by
  obtain ⟨l, hl, hinfo⟩ := h.requests
  refine hp.of_requests h.userInformation h.currentUser fun x hx => ?_
  rcases List.mem_append.1 (hl ▸ hx) with hx | hx
  · exact .inr ⟨x, hx, rfl⟩
  · obtain ⟨id, _, rfl⟩ := hinfo x hx
    exact .inl rfl

/-- What is asked for has been typed. -/
theorem Knows.ask (h : p.Knows K D) (w : ℕ) {r : Request}
    (hr : ∀ data, r.login? = some data → data ∈ K) : (p.ask w r).Knows K D where
  signedIn := h.signedIn
  saved := h.saved
  requests x hx := by
    rcases List.mem_append.1 hx with hx | hx
    · exact h.requests x hx
    · rw [List.mem_singleton.1 hx]
      exact hr

theorem Knows.save (h : p.Knows K D) {email password : String} (hk : (email, password) ∈ K)
    (hi : q.userInformation = some (userInfo email password))
    (hu : q.currentUser = p.currentUser) (hr : q.requests = p.requests) : q.Knows K D where
  signedIn u hq := h.signedIn u (hu ▸ hq)
  saved _ hq := ⟨email, password, Option.some.inj (hq.symm.trans hi), hk⟩
  requests := hr ▸ h.requests

theorem Knows.signIn (h : p.Knows K D) {email : String} {account : Account}
    (ha : D.accounts email = some account) (hk : (email, account.password) ∈ K) :
    { p with currentUser := some account.uid : Phone }.Knows K D where
  signedIn := by
    rintro u ⟨⟩
    exact ⟨email, account, ha, rfl, hk⟩
  saved := h.saved
  requests := h.requests

theorem Resumes.knows {w : ℕ} {r : Request} {a : Answer} (h : Resumes validURL D p w r a D' q)
    (hD : D.Extends D') (hp : p.Knows K D) (hr : ∀ data, r.login? = some data → data ∈ K) :
    q.Knows K D' := by
  -- The account that has been created.
  have created : ∀ email password uid, (email, password) ∈ K →
      D' = D.withAccount email password uid →
      { p with currentUser := some uid : Phone }.Knows K D' := by
    rintro email password uid hk rfl
    have ha : (D.withAccount email password uid).accounts email = some ⟨uid, password⟩ := by
      rw [Directory.withAccount_accounts, if_pos rfl]
    exact (hp.mono hD subset_rfl).signIn ha hk
  cases h with
  | signedIn ha =>
    exact ((hp.signIn ha (hr _ rfl)).save (hr _ rfl) rfl rfl rfl)
  | refused | notCreated | abandoned | notFound | notShown => exact hp.congr rfl rfl rfl
  | created => exact (created _ _ _ (hr _ rfl) rfl).ask w (by rintro _ ⟨⟩; exact hr _ rfl)
  | withoutPicture => exact created _ _ _ (hr _ rfl) rfl
  | stored => exact hp.ask w (by rintro _ ⟨⟩; exact hr _ rfl)
  | linked => exact hp.ask w (by rintro _ ⟨⟩; exact hr _ rfl)
  | registered => exact (hp.mono hD subset_rfl).save (hr _ rfl) rfl rfl rfl
  | found => exact hp.ask w (by rintro _ ⟨⟩)
  | shown => exact (redraws_setUser ..).shows.knows hp

theorem knows_run {signOut : Bool} {b : SessionBlock} (hp : p.Knows K D) :
    (p.run signOut b).Knows K D := by
  cases b with
  | loggedIn asker w status =>
    cases asker with
    | initial => exact (shows_pushTo _).knows hp
    | welcome =>
      cases status with
      | true => exact (shows_showHome w).knows hp
      | false => exact hp.congr rfl rfl rfl
  | registered w status =>
    have henabled := (redraws_enable w).shows.knows hp
    cases status with
    | true => exact (shows_showHome w).knows henabled
    | false => exact henabled.congr rfl rfl rfl
  | alert w => exact (redraws_present w .alert).shows.knows hp
  | logOut =>
    cases signOut with
    | true =>
      refine (shows_pushTo .welcome).knows ⟨?_, ?_, hp.requests⟩
      · rintro _ ⟨⟩
      · rintro _ ⟨⟩
    | false => exact hp

theorem knows_launch (hp : p.Knows K D) : p.launch.Knows K D := by
  have hlaunched : { p with
      window := p.window + 1
      root := some .initial
      requests := p.requests.map fun r => { r with window := none }
      mainQueue := [] : Phone }.Knows K D := by
    refine hp.of_requests rfl rfl fun x hx => .inr ?_
    obtain ⟨y, hy, rfl⟩ := List.mem_map.1 hx
    exact ⟨y, hy, rfl⟩
  cases hi : p.userInformation with
  | none =>
    rw [launch, initialDidLoad]
    simp only [hi]
    exact (shows_pushTo .welcome).knows (hi ▸ hlaunched)
  | some info =>
    -- The login data saved is asked for.
    obtain ⟨email, password, rfl, hk⟩ := hp.saved info hi
    rw [launch, initialDidLoad]
    simp only [hi]
    exact (hi ▸ hlaunched).ask _ (by rintro _ ⟨⟩; exact hk)

theorem Step.knows {a : Action} (h : Step validURL D p a D' q) (hp : p.Knows K D)
    (ha : ∀ data, a.typed? = some data → data ∈ K) : q.Knows K D' := by
  have herased : ∀ i, { p with requests := p.requests.eraseIdx i : Phone }.Knows K D := fun i =>
    hp.of_requests rfl rfl fun x hx => .inr ⟨x, List.mem_of_mem_eraseIdx hx, rfl⟩
  cases h with
  | launch => exact knows_launch hp
  | login => exact hp.ask _ (by rintro _ ⟨⟩; exact ha _ rfl)
  | register =>
    refine Knows.ask (p := { p with
      root := some (.welcome { isUserInteractionEnabled := false }) }) (hp.congr rfl rfl rfl) _ ?_
    rintro _ ⟨⟩
    exact ha _ rfl
  | selectPic | dismiss | proceedLogOut => exact hp.congr rfl rfl rfl
  | orphan _ hans => exact (herased _).mono hans.extends subset_rfl
  | answer hr hans hres =>
    exact hres.knows hans.extends (herased _) (hp.requests _ (List.mem_of_getElem? hr))
  | runBlock => exact knows_run (hp.congr rfl rfl rfl)

end Phone

namespace Session

variable {validURL : String → Bool} {s : Session} {as : List Action} {d : Device}

/-- The login data that has been typed on a device. -/
def typed (as : List Action) (d : Device) : Set (String × String) :=
  {data | ∃ a ∈ as, a.device = d ∧ a.action.typed? = some data}

theorem typed_mono (as : List Action) (a : Action) (d : Device) :
    typed as d ⊆ typed (as ++ [a]) d := fun _ ⟨b, hb, hrest⟩ =>
  ⟨b, List.mem_append_left _ hb, hrest⟩

theorem knows_of_exec (h : (machine validURL).exec as = some s) (d : Device) :
    (s.phones d).Knows (typed as d) s.directory := by
  refine Machine.exec_induction (motive := fun as s => ∀ d, (s.phones d).Knows (typed as d)
    s.directory) ?_ ?_ h d
  · exact fun d => ⟨by rintro _ ⟨⟩, by rintro _ ⟨⟩, by rintro _ ⟨⟩⟩
  · intro as s a t _ hs ht d
    obtain ⟨hstep, hothers⟩ := step_cases ht
    by_cases hd : d = a.device
    · subst hd
      exact hstep.knows ((hs a.device).mono (.refl _) (typed_mono as a a.device))
        fun data hdata => ⟨a, by simp, rfl, hdata⟩
    · rw [hothers d hd]
      exact (hs d).mono hstep.extends (typed_mono as a d)

/-- Whoever is signed in on a device has an account, with a password that has been typed
    there before. -/
theorem signedIn_typed {u : UserID} (h : (machine validURL).exec as = some s)
    (hu : (s.phones d).currentUser = some u) :
    ∃ email account, s.directory.accounts email = some account ∧ account.uid = u ∧
      ∃ a ∈ as, a.device = d ∧ a.action.typed? = some (email, account.password) :=
  (knows_of_exec h d).signedIn u hu

theorem signedIn_typed_registration : ∃ s,
    (machine fun _ => true).exec registration = some s ∧
      ∃ email account, s.directory.accounts email = some account ∧ account.uid = "u" ∧
        ∃ a ∈ registration, a.device = 0 ∧ a.action.typed? = some (email, account.password) := by
  obtain ⟨s, hs, hu⟩ : ∃ s, (machine fun _ => true).exec registration = some s ∧
      (s.phones 0).currentUser = some "u" := ⟨_, rfl, by decide⟩
  exact ⟨s, hs, signedIn_typed hs hu⟩

end Session

end MagicChat
