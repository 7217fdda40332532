import MagicChat.Session.Directory

/-!
# The profile shown

A device asks for the profile of its user when it loads the list of
conversations, and the answer comes later, perhaps to a list that is no longer
shown. In every run, the profile that a device shows is that of the user whose
conversations it shows (`Phone.Profiled`).
-/

namespace MagicChat

/-- The user whose profile is being fetched. -/
def Request.asks? : Request → Option UserID
  | .info forUserID | .dataTask forUserID .. => some forUserID
  | _ => none

namespace Directory

variable {D D' : Directory}

/-- The user `id` has credentials, and the account of the address `email`. -/
def Profile (D : Directory) (id : UserID) (email : String) : Prop :=
  D.credentials id ≠ none ∧ ∃ account, D.accounts email = some account ∧ account.uid = id

theorem Answers.profile {r : Request} {a : Answer} (h : D.Answers r a D') {id : UserID}
    {email : String} (hp : D.Profile id email) : D'.Profile id email := by
  refine ⟨?_, ?_⟩
  · cases h with
    | registered =>
      rw [withCredentials_credentials]
      split
      · simp
      · exact hp.1
    | created | same => exact hp.1
  · obtain ⟨account, ha, hu⟩ := hp.2
    exact ⟨account, h.extends email account ha, hu⟩

/-- The credentials that `info` reads are those of the account. -/
theorem Sound.profile (h : D.Sound) {id : UserID} {name email link : String}
    (hp : Phone.profile (D.credentials id) = some (name, email, link)) : D.Profile id email := by
  cases hv : D.credentials id with
  | none =>
    rw [hv] at hp
    cases hp
  | some v =>
    obtain ⟨email', account, name', path, ha, hu, rfl⟩ := h.credentials id v hv
    rw [hv] at hp
    obtain ⟨-, rfl, -⟩ : name' = name ∧ email' = email ∧ path = link := by
      simpa [Phone.profile, credentialsOf, Value.asStrings, Value.asFields, Field.asString,
        List.lookup_cons] using hp
    exact ⟨by rw [hv]; simp, account, ha, hu⟩

end Directory

namespace Phone

variable {p q : Phone} {validURL : String → Bool} {D D' : Directory}

/-- The profiles a device waits for and shows are those of the user whose
    conversations it shows. -/
structure Profiled (D : Directory) (p : Phone) : Prop where
  asked : ∀ x ∈ p.requests, ∀ w, x.window = some w → ∀ id, x.request.asks? = some id →
    w ≤ p.window ∧ (w = p.window → p.home?.map Home.currentUserID = some (some id))
  found : ∀ x ∈ p.requests, ∀ id name email, x.request = .dataTask id name email →
    D.Profile id email
  user : ∀ h u, p.home? = some h → h.user = some u →
    h.currentUserID = some u.id ∧ D.Profile u.id u.email

theorem Profiled.mono (h : p.Profiled D)
    (hD : ∀ id email, D.Profile id email → D'.Profile id email) : p.Profiled D' where
  asked := h.asked
  found x hx id name email hr := hD id email (h.found x hx id name email hr)
  user home u hh hu := (h.user home u hh hu).imp_right (hD u.id u.email)

/-- No profile is asked for, and the same conversations are shown. -/
theorem Profiled.of_home (h : p.Profiled D) (hw : q.window = p.window) (hh : q.home? = p.home?)
    (hr : ∀ x ∈ q.requests, x.request.asks? = none ∨ x ∈ p.requests) : q.Profiled D where
  asked x hx w hxw id hid := by
    rcases hr x hx with hnone | hx
    · rw [hnone] at hid
      cases hid
    · rw [hw, hh]
      exact h.asked x hx w hxw id hid
  found x hx id name email hreq := by
    rcases hr x hx with hnone | hx
    · rw [hreq] at hnone
      cases hnone
    · exact h.found x hx id name email hreq
  user home u := by
    rw [hh]
    exact h.user home u

/-- A device comes to show the conversations of whoever is signed in: no profile
    has been asked for yet for the window. -/
theorem Profiled.of_shows (h : p.Profiled D) (hq : Shows p q) (hwindow : p.window ≤ q.window)
    (hhome : q.home? = some { currentUserID := p.currentUser })
    (hnew : p.window < q.window ∨ p.home? = none) : q.Profiled D := by
  obtain ⟨l, hl, hinfo⟩ := hq.requests
  constructor
  · intro x hx w hw id hid
    rcases List.mem_append.1 (hl ▸ hx) with hx | hx
    · obtain ⟨hle, hmap⟩ := h.asked x hx w hw id hid
      refine ⟨by omega, fun he => ?_⟩
      rcases hnew with hlt | hnone
      · omega
      · have hmap := hmap (by omega)
        rw [hnone] at hmap
        cases hmap
    · obtain ⟨id', hid', rfl⟩ := hinfo x hx
      cases hid
      cases hw
      exact ⟨Nat.le_refl _, fun _ => by rw [hhome, Option.map_some, hid']⟩
  · intro x hx id name email hreq
    rcases List.mem_append.1 (hl ▸ hx) with hx | hx
    · exact h.found x hx id name email hreq
    · obtain ⟨id', _, rfl⟩ := hinfo x hx
      cases hreq
  · intro home u hh hu
    rw [hhome] at hh
    cases hh
    cases hu

/-- In a new window that shows no conversations. -/
theorem Profiled.of_window (h : p.Profiled D) (hwindow : p.window < q.window)
    (hhome : q.home? = none)
    (hr : ∀ x ∈ q.requests, x.request.asks? = none ∨ x.window = none ∨ x ∈ p.requests)
    (hfound : ∀ x ∈ q.requests, x.request.asks? = none ∨ ∃ y ∈ p.requests, y.request = x.request) :
    q.Profiled D where
  asked x hx w hw id hid := by
    rcases hr x hx with hnone | hnone | hx
    · rw [hnone] at hid
      cases hid
    · rw [hnone] at hw
      cases hw
    · have hle := (h.asked x hx w hw id hid).1
      exact ⟨by omega, fun he => by omega⟩
  found x hx id name email hreq := by
    rcases hfound x hx with hnone | ⟨y, hy, he⟩
    · rw [hreq] at hnone
      cases hnone
    · exact h.found y hy id name email (he.trans hreq)
  user home u hh := by
    rw [hhome] at hh
    cases hh

theorem Profiled.pushTo (h : p.Profiled D) (t : ViewControllerType) : (p.pushTo t).Profiled D := by
  cases t with
  | conversations =>
    have hwindow : (p.pushTo .conversations).window = p.window + 1 := homeDidLoad_window
    exact h.of_shows (shows_pushTo _) (by omega) home?_pushTo_conversations (.inl (by omega))
  | welcome =>
    exact h.of_window (Nat.lt_succ_self _) rfl (fun x hx => .inr (.inr hx))
      fun x hx => .inr ⟨x, hx, rfl⟩

theorem Profiled.launch (h : p.Profiled D) : p.launch.Profiled D := by
  have hlaunched : ({ p with
      window := p.window + 1
      root := some .initial
      requests := p.requests.map fun r => { r with window := none }
      mainQueue := [] } : Phone).Profiled D := by
    refine h.of_window (Nat.lt_succ_self _) rfl (fun x hx => .inr (.inl ?_)) fun x hx => .inr ?_
    · obtain ⟨y, _, rfl⟩ := List.mem_map.1 hx
      rfl
    · obtain ⟨y, hy, rfl⟩ := List.mem_map.1 hx
      exact ⟨y, hy, rfl⟩
  unfold Phone.launch initialDidLoad
  split
  · split
    · refine hlaunched.of_home rfl rfl fun x hx => ?_
      rcases List.mem_append.1 hx with hx | hx
      · exact .inr hx
      · exact .inl (List.mem_singleton.1 hx ▸ rfl)
    · exact hlaunched
  · exact hlaunched.pushTo .welcome

theorem Profiled.showHome (h : p.Profiled D) (w : ℕ) : (p.showHome w).Profiled D := by
  rcases showHome_cases (p := p) w with he | ⟨hnone, _, hwindow, hhome⟩
  · rwa [he]
  · exact h.of_shows (shows_showHome w) (by omega) hhome (.inr hnone)

/-- An alert, or nothing but the input of the welcome screen, changes. -/
theorem Profiled.of_requests (h : p.Profiled D) (hw : q.window = p.window)
    (hh : q.home? = p.home?) (hr : q.requests = p.requests) : q.Profiled D :=
  h.of_home hw hh fun _ hx => .inr (hr ▸ hx)

theorem Profiled.run (h : p.Profiled D) (signOut : Bool) (b : SessionBlock) :
    (p.run signOut b).Profiled D := by
  have henabled : ∀ w, (p.enable w).Profiled D := fun w =>
    h.of_requests (redraws_enable w).window (home?_enable w) (redraws_enable w).requests
  cases b with
  | loggedIn asker w status =>
    cases asker with
    | initial => exact h.pushTo _
    | welcome =>
      cases status with
      | true => exact h.showHome w
      | false => exact h.of_requests rfl rfl rfl
  | registered w status =>
    cases status with
    | true => exact (henabled w).showHome w
    | false => exact (henabled w).of_requests rfl rfl rfl
  | alert w =>
    exact h.of_requests (redraws_present w .alert).window (home?_present_alert w)
      (redraws_present w .alert).requests
  | logOut =>
    cases signOut with
    | true =>
      exact (h.of_requests (q := { p with currentUser := none, userInformation := none }) rfl rfl
        rfl).pushTo .welcome
    | false => exact h

/-- The profile that comes is shown with the conversations of its user. -/
theorem Profiled.setUser (h : p.Profiled D) {w : ℕ} {user : User}
    (hasked : w = p.window → p.home?.map Home.currentUserID = some (some user.id))
    (hprofile : D.Profile user.id user.email) : (p.setUser w user).Profiled D := by
  refine ⟨fun x hx w' hw' id hid => ?_, fun x hx => ?_, fun home u hh hu => ?_⟩
  · rw [(redraws_setUser w user).requests] at hx
    rw [(redraws_setUser w user).window, home?_map_setUser]
    exact h.asked x hx w' hw' id hid
  · rw [(redraws_setUser w user).requests] at hx
    exact h.found x hx
  · rcases home?_setUser hh with hh | ⟨hw, hmap, hu'⟩
    · exact h.user home u hh hu
    · rw [hu'] at hu
      cases hu
      rw [hasked hw] at hmap
      exact ⟨(Option.some.inj hmap).symm, hprofile⟩

theorem Resumes.profiled {w : ℕ} {r : Request} {a : Answer} (h : Resumes validURL D p w r a D' q)
    (hD : D.Answers r a D') (hs : D.Sound) (hp : p.Profiled D)
    (hasked : ∀ id, r.asks? = some id →
      w ≤ p.window ∧ (w = p.window → p.home?.map Home.currentUserID = some (some id)))
    (hfound : ∀ id name email, r = .dataTask id name email → D.Profile id email) :
    q.Profiled D' := by
  refine Profiled.mono (D := D) ?_ fun id email => hD.profile
  have hask : ∀ r' : Request, r'.asks? = none → (p.ask w r').Profiled D := fun r' hr' => by
    refine hp.of_home rfl rfl fun x hx => ?_
    rcases List.mem_append.1 hx with hx | hx
    · exact .inr hx
    · rw [List.mem_singleton.1 hx]
      exact .inl hr'
  cases h with
  | signedIn | refused | withoutPicture | notCreated | registered | abandoned | notFound
  | notShown => exact hp.of_requests rfl rfl rfl
  | created => exact (hask _ rfl).of_requests rfl rfl rfl
  | stored | linked => exact hask _ rfl
  | @found forUserID name email link hprofile =>
    have hprofile := hs.profile hprofile
    refine ⟨fun x hx w' hw' id hid => ?_, fun x hx id name' email' hreq => ?_, hp.user⟩
    · rcases List.mem_append.1 hx with hx | hx
      · exact hp.asked x hx w' hw' id hid
      · rw [List.mem_singleton.1 hx] at hw' hid
        cases hw'
        exact hasked id hid
    · rcases List.mem_append.1 hx with hx | hx
      · exact hp.found x hx id name' email' hreq
      · rw [List.mem_singleton.1 hx] at hreq
        cases hreq
        exact hprofile
  | shown => exact hp.setUser (hasked _ rfl).2 (hfound _ _ _ rfl)

theorem Step.profile {a : Action} (h : Step validURL D p a D' q) {id : UserID} {email : String}
    (hp : D.Profile id email) : D'.Profile id email := by
  cases h with
  | orphan _ hans => exact hans.profile hp
  | answer _ hans => exact hans.profile hp
  | _ => exact hp

theorem Step.profiled {a : Action} (h : Step validURL D p a D' q) (hs : D.Sound)
    (hp : p.Profiled D) : q.Profiled D' := by
  have herase : ∀ i, { p with requests := p.requests.eraseIdx i : Phone }.Profiled D := fun i =>
    hp.of_home rfl rfl fun x hx => .inr (List.mem_of_mem_eraseIdx hx)
  have hask : ∀ r : Request, r.asks? = none → (p.ask p.window r).Profiled D := fun r hr => by
    refine hp.of_home rfl rfl fun x hx => ?_
    rcases List.mem_append.1 hx with hx | hx
    · exact .inr hx
    · rw [List.mem_singleton.1 hx]
      exact .inl hr
  cases h with
  | launch => exact hp.launch
  | login => exact hask _ rfl
  | register hv hin =>
    have hnone := home?_eq_none_of_welcome? hv (Welcome.TakesInput.ne_home hin)
    exact (hask _ rfl).of_requests rfl hnone.symm rfl
  | @selectPic v hv hin =>
    have hnone := home?_eq_none_of_welcome? hv (Welcome.TakesInput.ne_home hin)
    exact hp.of_requests rfl hnone.symm rfl
  | @dismiss v hv hdis =>
    have hnone : p.home? = none := home?_eq_none_of_welcome? hv fun home hhome => by
      rcases hdis with h | h <;> rw [h] at hhome <;> cases hhome
    exact hp.of_requests rfl hnone.symm rfl
  | proceedLogOut => exact hp.of_requests rfl rfl rfl
  | orphan _ hans => exact (herase _).mono fun id email => hans.profile
  | answer hr hans hres =>
    have hmem := List.mem_of_getElem? hr
    exact hres.profiled hans hs (herase _) (fun id hid => hp.asked _ hmem _ rfl id hid)
      fun id name email hreq => hp.found _ hmem id name email hreq
  | @runBlock _ _ mainQueue =>
    exact (hp.of_requests (q := { p with mainQueue }) rfl rfl rfl).run _ _

end Phone

end MagicChat
