import MagicChat.Session.Owner

/-!
# What lasts

Whether a device stays logged in or logged out, across any number of launches.

* Once its user has logged out, a device stays logged out until somebody logs in
  or registers on it (`stays_loggedOut`).
* A device with saved login data stays logged in, unless a service fails or its
  user logs out (`stays_loggedIn`).
* But a user whose registration was abandoned, after the account was created and
  before the credentials were written, cannot log out: the profile never comes
  (`never_loggedOut`).
-/

namespace MagicChat

namespace Phone

variable {p q : Phone} {validURL : String → Bool} {D D' : Directory}

/-- Somebody logs in or registers. -/
def Action.isLogin : Action → Bool
  | .login .. | .register .. => true
  | _ => false

/-! ## Logged out -/

/-- Nobody is signed in, and nothing is under way: the welcome screen takes
    input, once what it may present is dismissed. -/
structure LoggedOut (p : Phone) : Prop where
  userInformation : p.userInformation = none
  currentUser : p.currentUser = none
  underWay : p.underWay = 0
  home : p.home? = none
  welcome : ∃ presented, p.root = some (.welcome { presented })

theorem LoggedOut.of_quiet (h : p.LoggedOut) (hi : q.userInformation = p.userInformation)
    (hu : q.currentUser = p.currentUser) (hcount : q.underWay = p.underWay)
    (hr : q.root = p.root) : q.LoggedOut where
  userInformation := hi.trans h.userInformation
  currentUser := hu.trans h.currentUser
  underWay := hcount.trans h.underWay
  home := (home?_congr hr).trans h.home
  welcome := hr ▸ h.welcome

theorem loggedOut_pushTo (hi : p.userInformation = none) (hu : p.currentUser = none)
    (hcount : p.underWay = 0) : (p.pushTo .welcome).LoggedOut where
  userInformation := hi
  currentUser := hu
  underWay := (shows_pushTo .welcome).underWay.trans hcount
  home := rfl
  welcome := ⟨none, rfl⟩

theorem LoggedOut.launch (h : p.LoggedOut) : p.launch.LoggedOut := by
  rw [Phone.launch, initialDidLoad]
  simp only [h.userInformation]
  refine loggedOut_pushTo rfl h.currentUser ?_
  rw [Phone.underWay, List.countP_map, List.countP_nil, Nat.add_zero, List.countP_eq_zero]
  exact fun _ _ => Bool.false_ne_true

theorem LoggedOut.present (h : p.LoggedOut) (w : ℕ) : (p.present w .alert).LoggedOut := by
  have hshows := (redraws_present (p := p) w .alert).shows
  obtain ⟨presented, hroot⟩ := h.welcome
  refine ⟨hshows.userInformation.trans h.userInformation, hshows.currentUser.trans h.currentUser,
    hshows.underWay.trans h.underWay, (home?_present_alert w).trans h.home, ?_⟩
  cases presented with
  | none =>
    simp only [Phone.present, hroot]
    split
    · exact ⟨_, rfl⟩
    · exact ⟨_, hroot⟩
  | some x =>
    simp only [Phone.present, hroot]
    exact ⟨_, rfl⟩

theorem LoggedOut.setUser (h : p.LoggedOut) (w : ℕ) (user : User) :
    p.setUser w user = p := by
  obtain ⟨presented, hroot⟩ := h.welcome
  have hhome := h.home
  rw [home?, hroot] at hhome
  unfold Phone.setUser
  split
  · rcases presented with _ | _ | _ | home
    · rw [hroot]
    · rw [hroot]
    · rw [hroot]
    · cases hhome
  · rfl

theorem Step.loggedOut {a : Action} (h : Step validURL D p a D' q) (hp : p.LoggedOut)
    (ha : a.isLogin = false) : q.LoggedOut := by
  cases h with
  | launch => exact hp.launch
  | login | register => cases ha
  | @selectPic v hv hin =>
    refine ⟨hp.userInformation, hp.currentUser, hp.underWay, rfl, some .picker, ?_⟩
    obtain ⟨enabled, presented⟩ := v
    obtain rfl : enabled = true := hin.1
    rfl
  | @dismiss v hv =>
    obtain ⟨presented, hroot⟩ := hp.welcome
    simp only [welcome?, hroot] at hv
    cases hv
    exact ⟨hp.userInformation, hp.currentUser, hp.underWay, rfl, none, rfl⟩
  | proceedLogOut hh =>
    rw [hp.home] at hh
    cases hh
  | orphan hr => exact hp.of_quiet rfl rfl (underWay_eraseIdx hr).symm rfl
  | @answer i w r a D' q hr _ hres =>
    -- No login is under way that could be answered.
    have hauth := not_isAuth_of_underWay_eq_zero hp.underWay (List.mem_of_getElem? hr)
    have hquiet := hp.of_quiet (q := { p with requests := p.requests.eraseIdx i }) rfl rfl
      ((underWay_eraseIdx hr).trans (by rw [if_neg hauth]; rfl)).symm rfl
    cases hres with
    | found => exact hquiet.of_quiet rfl rfl (underWay_ask ..) rfl
    | notFound | notShown => exact hquiet
    | shown => rwa [hquiet.setUser]
    | abandoned hreg =>
      obtain ⟨y, hy⟩ := Option.isSome_iff_exists.1 hreg
      exact absurd (Pending.isAuth_of_registers? rfl hy) hauth
    | _ => exact absurd rfl hauth
  | @runBlock signOut b mainQueue hm =>
    have hcount := underWay_tail hm
    have hidle := hp.underWay
    have htail : ({ p with mainQueue } : Phone).LoggedOut :=
      hp.of_quiet rfl rfl (by omega) rfl
    cases b with
    | loggedIn | registered =>
      simp only [SessionBlock.isAuth, if_true] at hcount
      omega
    | alert w => exact htail.present w
    | logOut =>
      cases signOut with
      | true => exact loggedOut_pushTo rfl rfl htail.underWay
      | false => exact htail

/-- The log-out itself, when nothing else is under way. -/
theorem Step.loggedOut_of_logOut (h : Step validURL D p (.runBlock true) D' q)
    (hlogOut : p.mainQueue.head? = some .logOut) (hidle : p.underWay = 0) : q.LoggedOut := by
  cases h with
  | runBlock hm =>
    rw [hm] at hlogOut
    cases hlogOut
    exact loggedOut_pushTo rfl rfl ((underWay_tail hm).symm.trans hidle)

/-! ## Logged in -/

/-- The login of the initial screen waits for its answer, or has gone well. -/
def LogsIn (email password : String) (p : Phone) : Prop :=
  (∃ w, ⟨some w, .signIn .initial email password⟩ ∈ p.requests) ∨
    ∃ w, .loggedIn .initial w true ∈ p.mainQueue

/-- A device is logged in with the account of an address, or about to be: the
    program has been launched and logs in with the saved login data. -/
structure LoggedIn (email : String) (account : Account) (p : Phone) : Prop where
  userInformation : p.userInformation = some (userInfo email account.password)
  requests : ∀ x ∈ p.requests, x.isAuth = true →
    ∃ w, x = ⟨some w, .signIn .initial email account.password⟩
  blocks : ∀ b ∈ p.mainQueue, b.isAuth = true →
    (∃ w, b = .loggedIn .initial w true) ∧ p.currentUser = some account.uid
  logOut : .logOut ∉ p.mainQueue
  shown : (p.root = some .initial ∧ p.LogsIn email account.password) ∨
    (p.home?.map Home.currentUserID = some (some account.uid) ∧ p.currentUser = some account.uid)

variable {email : String} {account : Account}

theorem loggedIn_launch (hi : p.userInformation = some (userInfo email account.password)) :
    p.launch.LoggedIn email account := by
  have hlaunch : p.launch = { p with
      window := p.window + 1
      root := some .initial
      requests := p.requests.map fun r => { r with window := none }
      mainQueue := [] : Phone }.ask (p.window + 1) (.signIn .initial email account.password) := by
    simp only [launch, initialDidLoad, hi]
    rfl
  rw [hlaunch]
  refine ⟨hi, fun x hx hauth => ?_, by rintro _ ⟨⟩, List.not_mem_nil,
    .inl ⟨rfl, .inl ⟨_, List.mem_append_right _ (List.mem_singleton_self _)⟩⟩⟩
  rcases List.mem_append.1 hx with hx | hx
  · obtain ⟨y, _, rfl⟩ := List.mem_map.1 hx
    cases hauth
  · exact ⟨_, List.mem_singleton.1 hx⟩

theorem Step.loggedIn_of_launch (h : Step validURL D p .launch D' q)
    (hi : p.userInformation = some (userInfo email account.password)) :
    D' = D ∧ q.LoggedIn email account := by
  cases h with
  | launch => exact ⟨rfl, loggedIn_launch hi⟩

/-- Only a user whose profile is shown can log out. -/
theorem Step.user_ne_none (h : Step validURL D p .proceedLogOut D' q) :
    ∃ home, p.home? = some home ∧ home.user ≠ none := by
  cases h with
  | proceedLogOut hh huser => exact ⟨_, hh, Option.isSome_iff_ne_none.1 huser⟩

/-- What neither touches logins nor leaves the conversations. -/
theorem LoggedIn.of_quiet (h : p.LoggedIn email account)
    (hi : q.userInformation = p.userInformation) (hu : q.currentUser = p.currentUser)
    (hr : ∀ x, x.isAuth = true → (x ∈ q.requests ↔ x ∈ p.requests))
    (hm : ∀ b ∈ q.mainQueue, b ∈ p.mainQueue)
    (hmauth : ∀ b ∈ p.mainQueue, b.isAuth = true → b ∈ q.mainQueue)
    (hroot : p.root = some .initial → q.root = some .initial)
    (hh : q.home?.map Home.currentUserID = p.home?.map Home.currentUserID) :
    q.LoggedIn email account where
  userInformation := hi.trans h.userInformation
  requests x hx hauth := h.requests x ((hr x hauth).1 hx) hauth
  blocks b hb hauth := hu ▸ h.blocks b (hm b hb) hauth
  logOut hmem := h.logOut (hm _ hmem)
  shown := by
    rcases h.shown with ⟨hinitial, hlogs⟩ | ⟨hhome, huser⟩
    · refine .inl ⟨hroot hinitial, hlogs.imp ?_ ?_⟩
      · rintro ⟨w, hx⟩
        exact ⟨w, (hr _ rfl).2 hx⟩
      · rintro ⟨w, hb⟩
        exact ⟨w, hmauth _ hb rfl⟩
    · exact .inr ⟨hh.trans hhome, hu.trans huser⟩

/-- A login stays pending when something else is answered. -/
theorem mem_eraseIdx_iff {i : ℕ} {x : Pending} (hr : p.requests[i]? = some x)
    (hx : ¬x.isAuth = true) {y : Pending} (hy : y.isAuth = true) :
    y ∈ p.requests.eraseIdx i ↔ y ∈ p.requests := by
  rw [(Lists.perm_cons_eraseIdx hr).mem_iff, List.mem_cons]
  refine ⟨.inr, fun h => h.resolve_left ?_⟩
  rintro rfl
  exact hx hy

/-- Whoever is logged in does not see the welcome screen take input. -/
theorem LoggedIn.presents (h : p.LoggedIn email account) {v : Welcome} (hv : p.welcome? = some v) :
    ∃ home, v.presented = some (.home home) := by
  rcases h.shown with ⟨hroot, _⟩ | ⟨hhome, _⟩
  · simp only [welcome?, hroot] at hv
    cases hv
  · by_contra hne
    rw [home?_eq_none_of_welcome? hv fun home hp => hne ⟨home, hp⟩] at hhome
    cases hhome

theorem present_of_initial (hroot : p.root = some .initial) (w : ℕ) (x : Presented) :
    p.present w x = p := by
  simp only [present, hroot]

theorem setUser_of_initial (hroot : p.root = some .initial) (w : ℕ) (user : User) :
    p.setUser w user = p := by
  simp only [setUser, hroot]
  exact ite_self _

theorem Step.loggedIn {a : Action} (h : Step validURL D p a D' q)
    (hp : p.LoggedIn email account) (ha : D.accounts email = some account)
    (hlogOut : a ≠ .proceedLogOut) (hok : ∀ i, a ≠ .answer i (.ok false)) :
    q.LoggedIn email account := by
  cases h with
  | launch => exact loggedIn_launch hp.userInformation
  | login hv hin | register hv hin | selectPic hv hin =>
    obtain ⟨home, hhome⟩ := hp.presents hv
    exact absurd hhome (Welcome.TakesInput.ne_home hin home)
  | dismiss hv hdis =>
    obtain ⟨home, hhome⟩ := hp.presents hv
    rcases hdis with h | h <;> rw [h] at hhome <;> cases hhome
  | proceedLogOut => exact absurd rfl hlogOut
  | orphan hr =>
    exact hp.of_quiet rfl rfl (fun x hauth => mem_eraseIdx_iff hr Bool.false_ne_true hauth)
      (fun b hb => hb) (fun b hb _ => hb) id rfl
  | @answer i w r a D' q hr _ hres =>
    by_cases hauth : Pending.isAuth ⟨some w, r⟩ = true
    · -- Only the login with the saved login data is under way.
      obtain ⟨w', hx⟩ := hp.requests _ (List.mem_of_getElem? hr) hauth
      cases hx
      generalize hpassword : account.password = password at hres
      cases hres with
      | signedIn ha' =>
        cases ha.symm.trans ha'
        refine ⟨rfl, fun x hx => hp.requests x (List.mem_of_mem_eraseIdx hx),
          fun b hb hauth => ⟨?_, rfl⟩, ?_, ?_⟩
        · rcases List.mem_append.1 hb with hb | hb
          · exact (hp.blocks b hb hauth).1
          · exact ⟨w, List.mem_singleton.1 hb⟩
        · simpa [async] using hp.logOut
        · refine hp.shown.imp (fun h => ⟨h.1, .inr ⟨w, ?_⟩⟩) fun h => ⟨h.1, rfl⟩
          exact List.mem_append_right _ (List.mem_singleton_self _)
      | @refused _ _ _ ok hno =>
        have htrue : ok = true := by
          by_contra hne
          exact hok i (by rw [Bool.eq_false_iff.2 hne])
        exact absurd ⟨htrue, Directory.signIn_iff.2 ⟨account, ha, hpassword⟩⟩ hno
      | abandoned hreg => cases hreg
    · have herase : ({ p with requests := p.requests.eraseIdx i } : Phone).LoggedIn email account :=
        hp.of_quiet rfl rfl (fun x hx => mem_eraseIdx_iff hr hauth hx) (fun b hb => hb)
          (fun b hb _ => hb) id rfl
      cases hres with
      | found =>
        refine herase.of_quiet rfl rfl (fun x hauth => ?_) (fun b hb => hb) (fun b hb _ => hb)
          id rfl
        refine List.mem_append.trans (or_iff_left fun hx => ?_)
        rw [List.mem_singleton.1 hx] at hauth
        cases hauth
      | notFound | notShown => exact herase
      | shown =>
        have hdraw := redraws_setUser (p := { p with requests := p.requests.eraseIdx i }) w
        refine herase.of_quiet (hdraw _).shows.userInformation (hdraw _).shows.currentUser
          (fun x _ => (hdraw _).requests ▸ Iff.rfl) (fun b hb => (hdraw _).shows.mainQueue ▸ hb)
          (fun b hb _ => (hdraw _).shows.mainQueue.symm ▸ hb) (fun hroot => ?_)
          (home?_map_setUser ..)
        rw [setUser_of_initial hroot]
        exact hroot
      | abandoned hreg =>
        obtain ⟨y, hy⟩ := Option.isSome_iff_exists.1 hreg
        exact absurd (Pending.isAuth_of_registers? rfl hy) hauth
      | _ => exact absurd rfl hauth
  | @runBlock signOut b mainQueue hm =>
    have hb : b ∈ p.mainQueue := hm ▸ List.mem_cons_self
    have htail : ∀ b ∈ mainQueue, b ∈ p.mainQueue := fun b hb => hm ▸ List.mem_cons_of_mem _ hb
    cases b with
    | loggedIn asker w status =>
      obtain ⟨⟨w', hblock⟩, huser⟩ := hp.blocks _ hb rfl
      cases hblock
      have hshows := shows_pushTo (p := { p with mainQueue }) .conversations
      have hqueue : ({ p with mainQueue : Phone }.pushTo .conversations).mainQueue = mainQueue :=
        hshows.mainQueue
      refine ⟨hshows.userInformation.trans hp.userInformation, fun x hx hauth => ?_,
        fun b hb hauth => ?_, fun hmem => hp.logOut (htail _ (hqueue ▸ hmem)), .inr ⟨?_, ?_⟩⟩
      · obtain ⟨l, hl, hinfo⟩ := hshows.requests
        rcases List.mem_append.1 (hl ▸ hx) with hx | hx
        · exact hp.requests x hx hauth
        · obtain ⟨id, _, rfl⟩ := hinfo x hx
          cases hauth
      · exact ⟨(hp.blocks b (htail b (hqueue ▸ hb)) hauth).1, hshows.currentUser.trans huser⟩
      · refine (congrArg _ home?_pushTo_conversations).trans ?_
        exact congrArg some huser
      · exact hshows.currentUser.trans huser
    | registered w status =>
      obtain ⟨⟨w', hblock⟩, _⟩ := hp.blocks _ hb rfl
      cases hblock
    | alert w =>
      have hdraw := redraws_present (p := { p with mainQueue }) w .alert
      have hqueue : ({ p with mainQueue : Phone }.run signOut (.alert w)).mainQueue = mainQueue :=
        hdraw.shows.mainQueue
      refine hp.of_quiet hdraw.shows.userInformation hdraw.shows.currentUser
        (fun x _ => iff_of_eq (congrArg (x ∈ ·) hdraw.requests))
        (fun b hb => htail b (hqueue ▸ hb)) (fun b hb hauth => ?_) (fun hroot => ?_)
        (congrArg _ (home?_present_alert w))
      · rw [hqueue]
        rw [hm] at hb
        rcases List.mem_cons.1 hb with rfl | hb
        · cases hauth
        · exact hb
      · rw [run, present_of_initial (p := { p with mainQueue }) hroot]
        exact hroot
    | logOut => exact absurd hb hp.logOut

/-! ## Abandoned registrations -/

theorem Shows.mem_requests (h : Shows p q) {x : Pending} (hx : x ∈ q.requests) :
    x ∈ p.requests ∨ x.request.registers? = none := by
  obtain ⟨l, hl, hinfo⟩ := h.requests
  refine (List.mem_append.1 (hl ▸ hx)).imp_right fun hx => ?_
  obtain ⟨id, _, rfl⟩ := hinfo x hx
  rfl

theorem mem_requests_ask {w : ℕ} {r : Request} {x : Pending} (hx : x ∈ (p.ask w r).requests) :
    x ∈ p.requests ∨ x.request = r :=
  (List.mem_append.1 hx).imp_right fun hx => congrArg Pending.request (List.mem_singleton.1 hx)

theorem mem_requests_run {signOut : Bool} {b : SessionBlock} {x : Pending}
    (hx : x ∈ (p.run signOut b).requests) : x ∈ p.requests ∨ x.request.registers? = none := by
  have henable : ∀ w, (p.enable w).requests = p.requests := fun w => (redraws_enable w).requests
  cases b with
  | loggedIn asker w status =>
    cases asker with
    | initial => exact (shows_pushTo _).mem_requests hx
    | welcome =>
      cases status with
      | true => exact (shows_showHome w).mem_requests hx
      | false => exact .inl hx
  | registered w status =>
    cases status with
    | true => exact henable w ▸ (shows_showHome w).mem_requests hx
    | false => exact .inl (henable w ▸ hx)
  | alert w => exact .inl ((redraws_present w .alert).requests ▸ hx)
  | logOut =>
    cases signOut with
    | true => exact .inl hx
    | false => exact .inl hx

/-- A registration that goes on does so for the same user, or for one whose
    identifier has just been given out. -/
theorem Resumes.registers {w : ℕ} {r : Request} {a : Answer}
    (h : Resumes validURL D p w r a D' q) {x : Pending} (hx : x ∈ q.requests)
    {y : UserID × String × String} (hy : x.request.registers? = some y) :
    x ∈ p.requests ∨ r.registers? = some y ∨ y.1 ∉ D.issued := by
  cases h with
  | signedIn | refused | withoutPicture | notCreated | registered | abandoned | notFound
  | notShown => exact .inl hx
  | created hfresh =>
    rcases mem_requests_ask hx with hx | hr
    · exact .inl hx
    · rw [hr] at hy
      cases hy
      exact .inr (.inr hfresh)
  | stored | linked =>
    rcases mem_requests_ask hx with hx | hr
    · exact .inl hx
    · rw [hr] at hy
      exact .inr (.inl hy)
  | found =>
    rcases mem_requests_ask hx with hx | hr
    · exact .inl hx
    · rw [hr] at hy
      cases hy
  | shown => exact .inl ((redraws_setUser ..).requests ▸ hx)

theorem Step.registers {a : Action} (h : Step validURL D p a D' q) {x : Pending}
    (hx : x ∈ q.requests) {y : UserID × String × String} (hy : x.request.registers? = some y) :
    (∃ x' ∈ p.requests, x'.request.registers? = some y) ∨ y.1 ∉ D.issued := by
  cases h with
  | launch =>
    refine .inl ?_
    have hmem : ∃ x' ∈ p.requests, x'.request = x.request := by
      rw [Phone.launch, initialDidLoad] at hx
      have hlaunched : ∀ z ∈ p.requests.map fun r : Pending => { r with window := none },
          ∃ x' ∈ p.requests, x'.request = z.request := fun z hz => by
        obtain ⟨x', hx', rfl⟩ := List.mem_map.1 hz
        exact ⟨x', hx', rfl⟩
      split at hx
      · split at hx
        · rcases mem_requests_ask hx with hx | hr
          · exact hlaunched x hx
          · rw [hr] at hy
            cases hy
        · exact hlaunched x hx
      · exact hlaunched x hx
    obtain ⟨x', hx', he⟩ := hmem
    exact ⟨x', hx', he ▸ hy⟩
  | login | register =>
    rcases mem_requests_ask hx with hx | hr
    · exact .inl ⟨x, hx, hy⟩
    · rw [hr] at hy
      cases hy
  | selectPic | dismiss | proceedLogOut => exact .inl ⟨x, hx, hy⟩
  | orphan => exact .inl ⟨x, List.mem_of_mem_eraseIdx hx, hy⟩
  | answer hr _ hres =>
    rcases hres.registers hx hy with hx | hreg | hfresh
    · exact .inl ⟨x, List.mem_of_mem_eraseIdx hx, hy⟩
    · exact .inl ⟨_, List.mem_of_getElem? hr, hreg⟩
    · exact .inr hfresh
  | runBlock =>
    rcases mem_requests_run hx with hx | hnone
    · exact .inl ⟨x, hx, hy⟩
    · rw [hnone] at hy
      cases hy

theorem Step.abandoned {a : Action} (h : Step validURL D p a D' q) {u : UserID}
    (hissued : u ∈ D.issued) (hnone : D.credentials u = none)
    (hr : ∀ x ∈ p.requests, ∀ y, x.request.registers? = some y → y.1 ≠ u) :
    u ∈ D'.issued ∧ D'.credentials u = none := by
  have hans : ∀ {x : Pending} {a : Answer} {D' : Directory}, x ∈ p.requests →
      D.Answers x.request a D' → u ∈ D'.issued ∧ D'.credentials u = none := by
    rintro ⟨w, r⟩ a D' hx h
    cases h with
    | created => exact ⟨List.mem_cons_of_mem _ hissued, hnone⟩
    | registered =>
      refine ⟨hissued, ?_⟩
      rw [Directory.withCredentials_credentials, if_neg fun he => hr _ hx _ rfl he.symm, hnone]
    | same => exact ⟨hissued, hnone⟩
  cases h with
  | orphan hr h => exact hans (List.mem_of_getElem? hr) h
  | answer hr h => exact hans (List.mem_of_getElem? hr) h
  | _ => exact ⟨hissued, hnone⟩

end Phone

namespace Session

variable {validURL : String → Bool} {s t : Session}

/-- The registration of a user is over, without its credentials. -/
structure Abandoned (s : Session) (u : UserID) : Prop where
  issued : u ∈ s.directory.issued
  credentials : s.directory.credentials u = none
  registering : ∀ d, ∀ x ∈ (s.phones d).requests, ∀ y, x.request.registers? = some y → y.1 ≠ u

theorem Abandoned.step {u : UserID} {a : Action} (h : s.Abandoned u)
    (ht : (machine validURL).step s a = some t) : t.Abandoned u := by
  obtain ⟨hstep, hothers⟩ := step_cases ht
  have hD := hstep.abandoned h.issued h.credentials (h.registering a.device)
  refine ⟨hD.1, hD.2, fun d x hx y hy => ?_⟩
  by_cases hd : d = a.device
  · subst hd
    rcases hstep.registers hx hy with ⟨x', hx', hy'⟩ | hfresh
    · exact h.registering _ x' hx' y hy'
    · rintro rfl
      exact hfresh h.issued
  · rw [hothers d hd] at hx
    exact h.registering d x hx y hy

/-- When a user has logged out, the device stays logged out, whatever happens
    but a login or a registration on it: also across launches. -/
theorem stays_loggedOut {d : Device} {as bs : List Action}
    (hC : (machine validURL).Along Alone as) (hs : (machine validURL).exec as = some s)
    (hlogOut : (s.phones d).mainQueue.head? = some .logOut)
    (hbs : ∀ a ∈ bs, a.device = d → a.action.isLogin = false)
    (ht : (machine validURL).execFrom s (⟨d, .runBlock true⟩ :: bs) = some t) :
    (t.phones d).LoggedOut := by
  rw [Machine.execFrom_cons, Option.bind_eq_some_iff] at ht
  obtain ⟨r, hr, ht⟩ := ht
  have howned := owned_of_along hC hs d
  have hidle : (s.phones d).underWay = 0 := by
    by_contra hn
    exact (howned.busy hn).2 (List.mem_of_mem_head? hlogOut)
  have hloggedOut := (step_cases hr).1.loggedOut_of_logOut hlogOut hidle
  -- What comes after it.
  refine Machine.execFrom_invariant (M := machine validURL)
    (I := fun s => (s.phones d).LoggedOut)
    (P := fun a => a.device = d → a.action.isLogin = false) ?_ hbs ht hloggedOut
  intro s a t ha hs ht
  obtain ⟨hstep, hothers⟩ := step_cases ht
  by_cases hd : d = a.device
  · subst hd
    exact hstep.loggedOut hs (ha rfl)
  · rw [hothers d hd]
    exact hs

/-- After a registration and a log-out, the program is launched again. -/
theorem stays_loggedOut_registration : ∃ s t,
    (machine fun _ => true).exec (registration ++ [⟨0, .proceedLogOut⟩]) = some s ∧
      (machine fun _ => true).execFrom s [⟨0, .runBlock true⟩, ⟨0, .launch⟩] = some t ∧
      (t.phones 0).LoggedOut := by
  have hC : (machine fun _ => true).Along Alone (registration ++ [⟨0, .proceedLogOut⟩]) :=
    Machine.along_concat.2 ⟨along_registration, fun _ _ => trivial⟩
  obtain ⟨s, t, hs, hq, ht⟩ : ∃ s t,
      (machine fun _ => true).exec (registration ++ [⟨0, .proceedLogOut⟩]) = some s ∧
      (s.phones 0).mainQueue.head? = some .logOut ∧
      (machine fun _ => true).execFrom s [⟨0, .runBlock true⟩, ⟨0, .launch⟩] = some t :=
    ⟨_, _, rfl, by decide, rfl⟩
  refine ⟨s, t, hs, ht, stays_loggedOut hC hs hq (fun a ha _ => ?_) ht⟩
  rw [List.mem_singleton.1 ha]
  rfl

/-- A device that is launched with saved login data stays logged in, with the
    account of the login data, as long as nothing fails for it, and its user
    does not log out. -/
theorem stays_loggedIn {d : Device} {info : Fields} {bs : List Action}
    (hr : (machine validURL).Reachable s) (hi : (s.phones d).userInformation = some info)
    (hbs : ∀ a ∈ bs, a.device = d →
      a.action ≠ .proceedLogOut ∧ ∀ i, a.action ≠ .answer i (.ok false))
    (ht : (machine validURL).execFrom s (⟨d, .launch⟩ :: bs) = some t) :
    ∃ email account, info = userInfo email account.password ∧
      t.directory.accounts email = some account ∧ (t.phones d).LoggedIn email account := by
  obtain ⟨email, account, ha, rfl⟩ := ((sound_of_reachable hr).phones d).saved info hi
  refine ⟨email, account, rfl, ?_⟩
  rw [Machine.execFrom_cons, Option.bind_eq_some_iff] at ht
  obtain ⟨r, hlaunch, ht⟩ := ht
  obtain ⟨hD, hlaunched⟩ := (step_cases hlaunch).1.loggedIn_of_launch hi
  refine Machine.execFrom_invariant (M := machine validURL)
    (I := fun s => s.directory.accounts email = some account ∧
      (s.phones d).LoggedIn email account)
    (P := fun a => a.device = d →
      a.action ≠ .proceedLogOut ∧ ∀ i, a.action ≠ .answer i (.ok false)) ?_ hbs ht
    ⟨hD ▸ ha, hlaunched⟩
  intro s a t hok hs ht
  obtain ⟨hstep, hothers⟩ := step_cases ht
  refine ⟨hstep.extends email account hs.1, ?_⟩
  by_cases hd : d = a.device
  · subst hd
    exact hstep.loggedIn hs.2 hs.1 (hok rfl).1 (hok rfl).2
  · rw [hothers d hd]
    exact hs.2

/-- After a registration, the program is launched again. -/
theorem stays_loggedIn_registration : ∃ s t,
    (machine fun _ => true).exec registration = some s ∧
      (machine fun _ => true).execFrom s
        [⟨0, .launch⟩, ⟨0, .answer 0 (.ok true)⟩, ⟨0, .runBlock true⟩] = some t ∧
      ∃ email account, userInfo "u@mail" "secret" = userInfo email account.password ∧
        t.directory.accounts email = some account ∧ (t.phones 0).LoggedIn email account := by
  obtain ⟨s, t, hs, hi, ht⟩ : ∃ s t, (machine fun _ => true).exec registration = some s ∧
      (s.phones 0).userInformation = some (userInfo "u@mail" "secret") ∧
      (machine fun _ => true).execFrom s
        [⟨0, .launch⟩, ⟨0, .answer 0 (.ok true)⟩, ⟨0, .runBlock true⟩] = some t :=
    ⟨_, _, rfl, by decide, rfl⟩
  refine ⟨s, t, hs, ht, stays_loggedIn ⟨_, hs⟩ hi (fun a ha _ => ?_) ht⟩
  simp only [List.mem_cons, List.not_mem_nil, or_false] at ha
  rcases ha with rfl | rfl <;> simp

/-- The profile of a user without credentials is never shown. -/
theorem user_eq_none {d : Device} {email : String} {account : Account}
    (hr : (machine validURL).Reachable s) (hab : s.Abandoned account.uid)
    (hlogged : (s.phones d).LoggedIn email account) {home : Home}
    (hh : (s.phones d).home? = some home) : home.user = none := by
  by_contra hne
  obtain ⟨user, huser⟩ := Option.ne_none_iff_exists'.1 hne
  obtain ⟨hid, hprofile, _⟩ := (profiled_of_reachable hr d).user home user hh huser
  rcases hlogged.shown with ⟨hroot, _⟩ | ⟨hcurrent, _⟩
  · rw [Phone.home?, hroot] at hh
    cases hh
  · rw [hh, Option.map_some, hid] at hcurrent
    rw [Option.some.inj (Option.some.inj hcurrent)] at hprofile
    exact hprofile hab.credentials

/-- A user whose registration was abandoned after the account had been created
    cannot log out: launched with the login data of the account, a device stays
    logged in as long as nothing fails for it; the profile never comes, and
    without it there is no way to log out. -/
theorem never_loggedOut {d : Device} {email : String} {account : Account} {bs : List Action}
    (hr : (machine validURL).Reachable s)
    (hi : (s.phones d).userInformation = some (userInfo email account.password))
    (ha : s.directory.accounts email = some account) (hab : s.Abandoned account.uid)
    (hbs : ∀ a ∈ bs, a.device = d → ∀ i, a.action ≠ .answer i (.ok false))
    (ht : (machine validURL).execFrom s (⟨d, .launch⟩ :: bs) = some t) :
    (t.phones d).LoggedIn email account ∧ (machine validURL).step t ⟨d, .proceedLogOut⟩ = none ∧
      ∀ home, (t.phones d).home? = some home → home.user = none := by
  rw [Machine.execFrom_cons, Option.bind_eq_some_iff] at ht
  obtain ⟨r, hlaunch, ht⟩ := ht
  obtain ⟨hD, hlaunched⟩ := (step_cases hlaunch).1.loggedIn_of_launch hi
  suffices hlasts : (machine validURL).Reachable t ∧ t.Abandoned account.uid ∧
      t.directory.accounts email = some account ∧ (t.phones d).LoggedIn email account by
    obtain ⟨ht, hab, _, hlogged⟩ := hlasts
    have hnone : ∀ home, (t.phones d).home? = some home → home.user = none := fun home hh =>
      user_eq_none ht hab hlogged hh
    refine ⟨hlogged, ?_, hnone⟩
    by_contra hne
    obtain ⟨t', ht'⟩ := Option.ne_none_iff_exists'.1 hne
    obtain ⟨home, hh, huser⟩ := (step_cases ht').1.user_ne_none
    exact huser (hnone home hh)
  refine Machine.execFrom_invariant (M := machine validURL)
    (I := fun s => (machine validURL).Reachable s ∧ s.Abandoned account.uid ∧
      s.directory.accounts email = some account ∧ (s.phones d).LoggedIn email account)
    (P := fun a => a.device = d → ∀ i, a.action ≠ .answer i (.ok false)) ?_ hbs ht
    ⟨hr.step hlaunch, hab.step hlaunch, hD ▸ ha, hlaunched⟩
  rintro s a t hok ⟨hs, hab, ha, hlogged⟩ ht
  obtain ⟨hstep, hothers⟩ := step_cases ht
  refine ⟨hs.step ht, hab.step ht, hstep.extends email account ha, ?_⟩
  by_cases hd : d = a.device
  · subst hd
    refine hstep.loggedIn hlogged ha (fun hlogOut => ?_) (hok rfl)
    obtain ⟨home, hh, huser⟩ := (hlogOut ▸ hstep).user_ne_none
    exact huser (user_eq_none hs hab hlogged hh)
  · rw [hothers d hd]
    exact hlogged

/-- A picture without a JPEG representation: the registration is abandoned. The
    program is launched again, and the user logs in. -/
def abandonment : List Action :=
  [⟨0, .launch⟩, ⟨0, .register "U" "u@mail" "secret" ⟨0, false⟩⟩,
    ⟨0, .answer 0 (.uid (some "u"))⟩, ⟨0, .launch⟩, ⟨0, .login "u@mail" "secret"⟩,
    ⟨0, .answer 0 (.ok true)⟩, ⟨0, .runBlock true⟩, ⟨0, .answer 0 .snapshot⟩]

theorem never_loggedOut_abandonment : ∃ s t,
    (machine fun _ => true).exec abandonment = some s ∧
      (machine fun _ => true).execFrom s [⟨0, .launch⟩, ⟨0, .answer 0 (.ok true)⟩,
        ⟨0, .runBlock true⟩, ⟨0, .answer 0 .snapshot⟩] = some t ∧
      (t.phones 0).LoggedIn "u@mail" ⟨"u", "secret"⟩ ∧
      (machine fun _ => true).step t ⟨0, .proceedLogOut⟩ = none ∧
      ∀ home, (t.phones 0).home? = some home → home.user = none := by
  obtain ⟨s, t, hs, hi, ha, hu, hc, hr, ht⟩ : ∃ s t,
      (machine fun _ => true).exec abandonment = some s ∧
      (s.phones 0).userInformation = some (userInfo "u@mail" "secret") ∧
      s.directory.accounts "u@mail" = some ⟨"u", "secret"⟩ ∧ "u" ∈ s.directory.issued ∧
      s.directory.credentials "u" = none ∧ (∀ d, (s.phones d).requests = []) ∧
      (machine fun _ => true).execFrom s [⟨0, .launch⟩, ⟨0, .answer 0 (.ok true)⟩,
        ⟨0, .runBlock true⟩, ⟨0, .answer 0 .snapshot⟩] = some t := by
    refine ⟨_, _, rfl, by decide, by decide, by decide, by decide, fun d => ?_, rfl⟩
    cases d with
    | zero => rfl
    | succ d => rfl
  have hab : s.Abandoned "u" := ⟨hu, hc, fun d x hx => by rw [hr d] at hx; cases hx⟩
  refine ⟨s, t, hs, ht, never_loggedOut ⟨_, hs⟩ (by exact hi) ha hab
    (fun a ha _ => ?_) ht⟩
  simp only [List.mem_cons, List.not_mem_nil, or_false] at ha
  rcases ha with rfl | rfl | rfl <;> simp

end Session

end MagicChat
