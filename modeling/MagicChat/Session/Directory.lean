import MagicChat.Session.Step

/-!
# The accounts of the users

What holds of the accounts, the credentials and the saved login data in every
run, with any number of devices logging in and registering at the same time
(`accounts_consistent`): the login data that a device has saved is always accepted
by the authentication service, and the credentials of a user are those of exactly
one account.
-/

namespace MagicChat

namespace Directory

variable {D D' : Directory}

/-- No account is lost or changed. -/
def Extends (D D' : Directory) : Prop :=
  ∀ email account, D.accounts email = some account → D'.accounts email = some account

theorem Extends.refl (D : Directory) : D.Extends D := fun _ _ h => h

/-- The credentials that a registration writes. -/
def credentialsOf (name email path : String) : Value :=
  .dictionary [("name", .string name), ("email", .string email), ("profilePicLink", .string path)]

/-- Each account has an identifier of its own, and credentials belong to an account. -/
structure Sound (D : Directory) : Prop where
  issued : ∀ email account, D.accounts email = some account → account.uid ∈ D.issued
  distinct : ∀ email email' account account', D.accounts email = some account →
    D.accounts email' = some account' → account.uid = account'.uid → email = email'
  credentials : ∀ u v, D.credentials u = some v → ∃ email account name path,
    D.accounts email = some account ∧ account.uid = u ∧ v = credentialsOf name email path

theorem extends_withAccount {email password : String} {uid : UserID}
    (h : D.accounts email = none) : D.Extends (D.withAccount email password uid) := by
  intro email' account ha
  have hne : email' ≠ email := by
    rintro rfl
    rw [h] at ha
    cases ha
  rw [withAccount_accounts, if_neg hne, ha]

theorem Answers.extends {r : Request} {a : Answer} (h : D.Answers r a D') : D.Extends D' := by
  cases h with
  | created _ hnone => exact extends_withAccount hnone
  | registered => exact .refl D
  | same => exact .refl D

theorem Sound.withAccount (h : D.Sound) {email password : String} {uid : UserID}
    (hfresh : uid ∉ D.issued) (hnone : D.accounts email = none) :
    (D.withAccount email password uid).Sound := by
  -- An account is the new one, or was there before, with another identifier.
  have hcases : ∀ email' account,
      (D.withAccount email password uid).accounts email' = some account →
      (email' = email ∧ account.uid = uid) ∨
        (D.accounts email' = some account ∧ account.uid ≠ uid) := by
    intro email' account ha
    by_cases he : email' = email
    · subst he
      rw [withAccount_accounts, if_pos rfl] at ha
      exact .inl ⟨rfl, Option.some.inj ha ▸ rfl⟩
    · rw [withAccount_accounts, if_neg he] at ha
      exact .inr ⟨ha, fun hu => hfresh (hu ▸ h.issued email' account ha)⟩
  refine ⟨fun email' account ha => ?_, fun e e' account account' ha ha' hu => ?_,
    fun u v hv => ?_⟩
  · rcases hcases email' account ha with ⟨_, hu⟩ | ⟨ha, _⟩
    · exact List.mem_cons.2 (.inl hu)
    · exact List.mem_cons_of_mem _ (h.issued email' account ha)
  · rcases hcases e account ha with ⟨he, hn⟩ | ⟨hold, hn⟩ <;>
      rcases hcases e' account' ha' with ⟨he', hn'⟩ | ⟨hold', hn'⟩
    · exact he.trans he'.symm
    · exact absurd (hu.symm.trans hn) hn'
    · exact absurd (hu.trans hn') hn
    · exact h.distinct e e' account account' hold hold' hu
  · obtain ⟨e, account, name, path, ha, hu, hv⟩ := h.credentials u v hv
    exact ⟨e, account, name, path, extends_withAccount hnone e account ha, hu, hv⟩

theorem updateChildValues_credentialsOf (name name' email email' path path' : String) :
    Value.updateChildValues (some (credentialsOf name email path))
      [("name", .string name'), ("email", .string email'), ("profilePicLink", .string path')] =
      credentialsOf name' email' path' := by
  simp [Value.updateChildValues, credentialsOf, Value.asFields, Keyed.setAll, Keyed.set]

theorem Sound.withCredentials (h : D.Sound) {userId : UserID} {password : String}
    (withName email path : String) (ha : D.accounts email = some ⟨userId, password⟩) :
    (D.withCredentials userId withName email path).Sound := by
  refine ⟨h.issued, h.distinct, fun u v hv => ?_⟩
  by_cases hu : u = userId
  · subst hu
    rw [withCredentials_credentials, if_pos rfl] at hv
    refine ⟨email, _, withName, path, ha, rfl, (Option.some.inj hv).symm.trans ?_⟩
    cases hold : D.credentials u with
    | none => rfl
    | some old =>
      obtain ⟨e, account, name, path', _, _, rfl⟩ := h.credentials u old hold
      exact updateChildValues_credentialsOf ..
  · rw [withCredentials_credentials, if_neg hu] at hv
    exact h.credentials u v hv

/-- A request with an answer keeps the directory sound, if the user it
    registers has the account. -/
theorem Answers.sound {r : Request} {a : Answer} (h : D.Answers r a D') (hD : D.Sound)
    (hr : ∀ u email password, r.registers? = some (u, email, password) →
      D.accounts email = some ⟨u, password⟩) : D'.Sound := by
  cases h with
  | created hfresh hnone => exact hD.withAccount hfresh hnone
  | registered => exact hD.withCredentials _ _ _ (hr _ _ _ rfl)
  | same => exact hD

end Directory

namespace Phone

variable {p q : Phone} {validURL : String → Bool} {D D' : Directory}

/-- The login data saved on a device, and the registrations under way there, are
    those of accounts. -/
structure Sound (D : Directory) (p : Phone) : Prop where
  saved : ∀ info, p.userInformation = some info → ∃ email account,
    D.accounts email = some account ∧ info = userInfo email account.password
  registering : ∀ x ∈ p.requests, ∀ u email password,
    x.request.registers? = some (u, email, password) → D.accounts email = some ⟨u, password⟩

theorem Sound.mono (h : p.Sound D) (hD : D.Extends D') : p.Sound D' where
  saved info hi :=
    let ⟨email, account, ha, he⟩ := h.saved info hi
    ⟨email, account, hD email account ha, he⟩
  registering x hx u email password hr := hD email _ (h.registering x hx u email password hr)

/-- Only requests that register nobody are new, and the saved login data is the same. -/
theorem Sound.of_requests (h : p.Sound D) (hi : q.userInformation = p.userInformation)
    (hr : ∀ x ∈ q.requests, x.request.registers? = none ∨ ∃ y ∈ p.requests, y.request = x.request) :
    q.Sound D where
  saved info hq := h.saved info (hi ▸ hq)
  registering x hx u email password hreg := by
    rcases hr x hx with hnone | ⟨y, hy, he⟩
    · rw [hnone] at hreg
      cases hreg
    · exact h.registering y hy u email password (he ▸ hreg)

theorem Shows.sound (h : Shows p q) (hp : p.Sound D) : q.Sound D := by
  obtain ⟨l, hl, hinfo⟩ := h.requests
  refine hp.of_requests h.userInformation fun x hx => ?_
  rcases List.mem_append.1 (hl ▸ hx) with hx | hx
  · exact .inr ⟨x, hx, rfl⟩
  · obtain ⟨id, _, rfl⟩ := hinfo x hx
    exact .inl rfl

/-- With a request that registers nobody, or a user who has the account. -/
theorem Sound.ask (h : p.Sound D) (w : ℕ) {r : Request}
    (hr : ∀ u email password, r.registers? = some (u, email, password) →
      D.accounts email = some ⟨u, password⟩) : (p.ask w r).Sound D where
  saved := h.saved
  registering x hx := by
    rcases List.mem_append.1 hx with hx | hx
    · exact h.registering x hx
    · rw [List.mem_singleton.1 hx]
      exact hr

/-- The login data of an account is saved. -/
theorem Sound.save (h : p.Sound D) {email : String} {account : Account}
    (ha : D.accounts email = some account)
    (hi : q.userInformation = some (userInfo email account.password))
    (hr : q.requests = p.requests) : q.Sound D where
  saved _ hq := ⟨email, account, ha, Option.some.inj (hq.symm.trans hi)⟩
  registering := hr ▸ h.registering

/-- Who is signed in, and what waits to be shown, does not matter. -/
theorem Sound.congr (h : p.Sound D) (hi : q.userInformation = p.userInformation)
    (hr : q.requests = p.requests) : q.Sound D :=
  h.of_requests hi fun x hx => .inr ⟨x, hr ▸ hx, rfl⟩

theorem Resumes.sound {w : ℕ} {r : Request} {a : Answer} (h : Resumes validURL D p w r a D' q)
    (hD : D.Extends D') (hp : p.Sound D)
    (hr : ∀ u email password, r.registers? = some (u, email, password) →
      D.accounts email = some ⟨u, password⟩) : q.Sound D' := by
  cases h with
  | signedIn ha => exact hp.save ha rfl rfl
  | refused | notCreated | abandoned | notFound | notShown => exact hp.congr rfl rfl
  | @created _ _ _ _ uid =>
    refine Sound.ask (p := { p with currentUser := some uid }) ((hp.mono hD).congr rfl rfl) w ?_
    rintro _ _ _ ⟨⟩
    rw [Directory.withAccount_accounts, if_pos rfl]
  | withoutPicture => exact (hp.mono hD).congr rfl rfl
  | stored => exact hp.ask w (by rintro _ _ _ ⟨⟩; exact hr _ _ _ rfl)
  | linked => exact hp.ask w (by rintro _ _ _ ⟨⟩; exact hr _ _ _ rfl)
  | registered => exact (hp.mono hD).save (hD _ _ (hr _ _ _ rfl)) rfl rfl
  | found => exact hp.ask w (by rintro _ _ _ ⟨⟩)
  | shown => exact (redraws_setUser ..).shows.sound hp

theorem sound_run {signOut : Bool} {b : SessionBlock} (hp : p.Sound D) :
    (p.run signOut b).Sound D := by
  have hasync : ∀ q : Phone, q.Sound D → ∀ b, (q.async b).Sound D := fun q hq b =>
    hq.congr rfl rfl
  cases b with
  | loggedIn asker w status =>
    cases asker with
    | initial => exact (shows_pushTo _).sound hp
    | welcome =>
      cases status with
      | true => exact (shows_showHome w).sound hp
      | false => exact hasync p hp _
  | registered w status =>
    have henabled := (redraws_enable w).shows.sound hp
    cases status with
    | true => exact (shows_showHome w).sound henabled
    | false => exact hasync _ henabled _
  | alert w => exact (redraws_present w .alert).shows.sound hp
  | logOut =>
    cases signOut with
    | true =>
      refine (shows_pushTo .welcome).sound ⟨?_, hp.registering⟩
      rintro _ ⟨⟩
    | false => exact hp

theorem sound_launch (hp : p.Sound D) : p.launch.Sound D := by
  have hlaunched : ∀ root, ({ p with
      window := p.window + 1
      root := root
      requests := p.requests.map fun r => { r with window := none }
      mainQueue := [] } : Phone).Sound D := by
    refine fun root => hp.of_requests rfl fun x hx => .inr ?_
    obtain ⟨y, hy, rfl⟩ := List.mem_map.1 hx
    exact ⟨y, hy, rfl⟩
  unfold launch initialDidLoad
  split
  · split
    · exact (hlaunched _).ask _ (by rintro _ _ _ ⟨⟩)
    · exact hlaunched _
  · exact (shows_pushTo .welcome).sound (hlaunched (some .initial))

theorem Step.extends {a : Action} (h : Step validURL D p a D' q) : D.Extends D' := by
  cases h with
  | orphan _ hD => exact hD.extends
  | answer _ hD => exact hD.extends
  | _ => exact .refl D

theorem Step.sound {a : Action} (h : Step validURL D p a D' q) (hD : D.Sound) (hp : p.Sound D) :
    D'.Sound ∧ q.Sound D' := by
  -- Without the request that is answered, a device is as sound as with it.
  have herase : ∀ i, { p with requests := p.requests.eraseIdx i : Phone }.Sound D := fun i =>
    hp.of_requests rfl fun x hx => .inr ⟨x, List.mem_of_mem_eraseIdx hx, rfl⟩
  cases h with
  | launch => exact ⟨hD, sound_launch hp⟩
  | login => exact ⟨hD, hp.ask _ (by rintro _ _ _ ⟨⟩)⟩
  | register =>
    refine ⟨hD, Sound.ask (p := { p with
      root := some (.welcome { isUserInteractionEnabled := false }) }) (hp.congr rfl rfl) _ ?_⟩
    rintro _ _ _ ⟨⟩
  | selectPic | dismiss | proceedLogOut => exact ⟨hD, hp.congr rfl rfl⟩
  | orphan hr hans =>
    exact ⟨hans.sound hD (hp.registering _ (List.mem_of_getElem? hr)),
      (herase _).mono hans.extends⟩
  | answer hr hans hres =>
    have hreg := hp.registering _ (List.mem_of_getElem? hr)
    exact ⟨hans.sound hD hreg, hres.sound hans.extends (herase _) hreg⟩
  | runBlock => exact ⟨hD, sound_run (hp.congr rfl rfl)⟩

end Phone

namespace Session

variable {validURL : String → Bool} {s t : Session}

/-- What a step of the machine is: one of a device. -/
theorem step_cases {a : Action} (h : (machine validURL).step s a = some t) :
    Phone.Step validURL s.directory (s.phones a.device) a.action t.directory
        (t.phones a.device) ∧
      ∀ d, d ≠ a.device → t.phones d = s.phones d := by
  obtain ⟨⟨D', q⟩, hstep, ht⟩ := Option.bind_eq_some_iff.1 h
  cases ht
  refine ⟨?_, fun d hd => Function.update_of_ne hd ..⟩
  simp only [Function.update_self]
  exact Phone.step_cases hstep

/-- All accounts, credentials and login data fit together. -/
structure Sound (s : Session) : Prop where
  directory : s.directory.Sound
  phones : ∀ d, (s.phones d).Sound s.directory

theorem sound_of_reachable (h : (machine validURL).Reachable s) : s.Sound := by
  refine h.invariant (I := Sound) ?_ fun s a t _ hs ht => ?_
  · exact ⟨⟨by rintro _ _ ⟨⟩, by rintro _ _ _ _ ⟨⟩, by rintro _ _ ⟨⟩⟩,
      fun d => ⟨by rintro _ ⟨⟩, by rintro _ ⟨⟩⟩⟩
  · obtain ⟨hstep, hothers⟩ := step_cases ht
    obtain ⟨hD, hq⟩ := hstep.sound hs.directory (hs.phones a.device)
    refine ⟨hD, fun d => ?_⟩
    by_cases hd : d = a.device
    · exact hd ▸ hq
    · rw [hothers d hd]
      exact (hs.phones d).mono hstep.extends

/-- The credentials of a user are those of exactly one account, with its
    address, and a device only ever saves login data that the service accepts. -/
theorem accounts_consistent (h : (machine validURL).Reachable s) :
    (∀ u v, s.directory.credentials u = some v →
      ∃ name email path, v = Directory.credentialsOf name email path ∧
        ∀ email', (∃ account, s.directory.accounts email' = some account ∧ account.uid = u) ↔
          email' = email) ∧
      ∀ d info, (s.phones d).userInformation = some info →
        ∃ email password, info = userInfo email password ∧
          (s.directory.view none).signIn email password = true := by
  obtain ⟨hD, hphones⟩ := sound_of_reachable h
  refine ⟨fun u v hv => ?_, fun d info hi => ?_⟩
  · obtain ⟨email, account, name, path, ha, hu, rfl⟩ := hD.credentials u v hv
    refine ⟨name, email, path, rfl, fun email' => ⟨?_, ?_⟩⟩
    · rintro ⟨account', ha', hu'⟩
      exact hD.distinct email' email account' account ha' ha (hu'.trans hu.symm)
    · rintro rfl
      exact ⟨account, ha, hu⟩
  · obtain ⟨email, account, ha, rfl⟩ := (hphones d).saved info hi
    exact ⟨email, account.password, rfl, Directory.signIn_iff.2 ⟨account, ha, rfl⟩⟩

/-- On device 0, a user launches the program and registers; the profile comes. -/
def registration : List Action :=
  [⟨0, .launch⟩, ⟨0, .register "U" "u@mail" "secret" ⟨0, true⟩⟩, ⟨0, .answer 0 (.uid (some "u"))⟩,
    ⟨0, .answer 0 (.ok true)⟩, ⟨0, .answer 0 (.url (some "link"))⟩, ⟨0, .answer 0 (.ok true)⟩,
    ⟨0, .runBlock true⟩, ⟨0, .answer 0 .snapshot⟩, ⟨0, .answer 0 (.image (some ⟨0, true⟩))⟩]

theorem accounts_consistent_registration : ∃ s,
    (machine fun _ => true).exec registration = some s ∧
      (∃ name email path, s.directory.credentials "u" =
          some (Directory.credentialsOf name email path) ∧
        ∀ email', (∃ account, s.directory.accounts email' = some account ∧ account.uid = "u") ↔
          email' = email) ∧
      ∃ email password, (s.phones 0).userInformation = some (userInfo email password) ∧
        (s.directory.view none).signIn email password = true := by
  obtain ⟨s, hs, hu, hi⟩ : ∃ s, (machine fun _ => true).exec registration = some s ∧
      s.directory.credentials "u" = some (Directory.credentialsOf "U" "u@mail" "link") ∧
      (s.phones 0).userInformation = some (userInfo "u@mail" "secret") :=
    ⟨_, rfl, by decide, by decide⟩
  obtain ⟨hcredentials, hsaved⟩ := accounts_consistent ⟨registration, hs⟩
  obtain ⟨name, email, path, hv, huser⟩ := hcredentials "u" _ hu
  obtain ⟨email', password, hi', hsign⟩ := hsaved 0 _ hi
  exact ⟨s, hs, ⟨name, email, path, hv ▸ hu, huser⟩, email', password, hi' ▸ hi, hsign⟩

end Session

end MagicChat
