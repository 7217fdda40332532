import MagicChat.Library.Lists
import MagicChat.Session.Profile

/-!
# The owner of a device

Whose conversations a device shows. Logins that overtake one another can leave a
device with the conversations of one user, and the login data of another. But as
long as nobody logs in or registers while another login is under way
(`Session.Alone`), there is at most one at any time (`Phone.Owned`), and the user
who is signed in, the saved login data, the list of conversations shown and the
profile shown with it are those of one account (`home_of_one`).
-/

namespace MagicChat

/-- A login or a registration that a device waits for. -/
def Pending.isAuth : Pending → Bool
  | ⟨some _, .info _⟩ | ⟨some _, .dataTask ..⟩ | ⟨none, _⟩ => false
  | _ => true

/-- The completion of a login or of a registration. -/
def SessionBlock.isAuth : SessionBlock → Bool
  | .loggedIn .. | .registered .. => true
  | .alert _ | .logOut => false

/-- The completion of a login or of a registration that went well. -/
def SessionBlock.succeeds : SessionBlock → Bool
  | .loggedIn _ _ status | .registered _ status => status
  | .alert _ | .logOut => false

theorem SessionBlock.isAuth_of_succeeds {b : SessionBlock} (h : b.succeeds = true) :
    b.isAuth = true := by
  cases b with
  | loggedIn | registered => rfl
  | alert | logOut => cases h

theorem Pending.isAuth_of_registers? {x : Pending} {w : ℕ} (hw : x.window = some w)
    {y : UserID × String × String} (h : x.request.registers? = some y) : x.isAuth = true := by
  obtain ⟨_, r⟩ := x
  subst hw
  cases r with
  | info | dataTask => cases h
  | _ => rfl

namespace Phone

variable {p q : Phone} {validURL : String → Bool} {D D' : Directory}

/-- How many logins and registrations are under way. -/
def underWay (p : Phone) : ℕ :=
  p.requests.countP Pending.isAuth + p.mainQueue.countP SessionBlock.isAuth

@[simp] theorem underWay_ask (w : ℕ) (r : Request) :
    (p.ask w r).underWay = p.underWay + if Pending.isAuth ⟨some w, r⟩ then 1 else 0 := by
  simp only [underWay, ask, List.countP_append, List.countP_singleton]
  omega

@[simp] theorem underWay_async (b : SessionBlock) :
    (p.async b).underWay = p.underWay + if b.isAuth then 1 else 0 := by
  simp only [underWay, async, List.countP_append, List.countP_singleton]
  omega

theorem Shows.underWay (h : Shows p q) : q.underWay = p.underWay := by
  obtain ⟨l, hl, hinfo⟩ := h.requests
  have hnone : l.countP Pending.isAuth = 0 := by
    refine List.countP_eq_zero.2 fun x hx => ?_
    obtain ⟨id, _, rfl⟩ := hinfo x hx
    exact Bool.false_ne_true
  rw [Phone.underWay, Phone.underWay, hl, h.mainQueue, List.countP_append, hnone]
  rfl

theorem underWay_eraseIdx {i : ℕ} {x : Pending} (h : p.requests[i]? = some x) : p.underWay =
    { p with requests := p.requests.eraseIdx i : Phone }.underWay + if x.isAuth then 1 else 0 := by
  simp only [underWay, Lists.countP_eraseIdx Pending.isAuth h]
  omega

theorem underWay_tail {b : SessionBlock} {mainQueue : List SessionBlock}
    (h : p.mainQueue = b :: mainQueue) :
    p.underWay = { p with mainQueue : Phone }.underWay + if b.isAuth then 1 else 0 := by
  simp only [underWay, h, List.countP_cons]
  omega

theorem not_isAuth_of_underWay_eq_zero (h : p.underWay = 0) {x : Pending} (hx : x ∈ p.requests) :
    ¬x.isAuth = true :=
  List.countP_eq_zero.1 (Nat.add_eq_zero_iff.1 h).1 x hx

theorem not_succeeds_of_underWay_eq_zero (h : p.underWay = 0) {b : SessionBlock}
    (hb : b ∈ p.mainQueue) : ¬b.succeeds = true := fun hs =>
  List.countP_eq_zero.1 (Nat.add_eq_zero_iff.1 h).2 b hb (SessionBlock.isAuth_of_succeeds hs)

/-- Who is signed in on a device is the user of the saved login data. -/
def SignedIn (D : Directory) (p : Phone) : Prop :=
  ∃ email account, D.accounts email = some account ∧
    p.userInformation = some (userInfo email account.password) ∧ p.currentUser = some account.uid

theorem SignedIn.congr (h : p.SignedIn D) (hi : q.userInformation = p.userInformation)
    (hu : q.currentUser = p.currentUser) : q.SignedIn D := by
  rwa [SignedIn, hi, hu]

/-- A device has one owner at a time. -/
structure Owned (D : Directory) (p : Phone) : Prop where
  one : p.underWay ≤ 1
  busy : p.underWay ≠ 0 → p.home? = none ∧ .logOut ∉ p.mainQueue
  home : ∀ h, p.home? = some h → p.SignedIn D ∧ h.currentUserID = p.currentUser
  success : ∀ b ∈ p.mainQueue, b.succeeds = true → p.SignedIn D
  registering : ∀ x ∈ p.requests, ∀ w, x.window = some w → ∀ u email password,
    x.request.registers? = some (u, email, password) → p.currentUser = some u

theorem Owned.mono (h : p.Owned D) (hD : D.Extends D') : p.Owned D' := by
  have hsigned : p.SignedIn D → p.SignedIn D' := fun ⟨email, account, ha, hi, hu⟩ =>
    ⟨email, account, hD email account ha, hi, hu⟩
  exact { h with
    home := fun home hh => (h.home home hh).imp_left hsigned
    success := fun b hb hs => hsigned (h.success b hb hs) }

/-- Nothing is under way on a device, and it shows no conversations. -/
structure Free (p : Phone) : Prop where
  underWay : p.underWay = 0
  home : p.home? = none
  logOut : .logOut ∉ p.mainQueue

theorem Free.congr (h : p.Free) (hh : q.home? = none) (hr : q.requests = p.requests)
    (hm : q.mainQueue = p.mainQueue) : q.Free where
  underWay := by rw [Phone.underWay, hr, hm, ← Phone.underWay, h.underWay]
  home := hh
  logOut := hm ▸ h.logOut

theorem Free.withUser (h : p.Free) (userInformation : Option Fields)
    (currentUser : Option UserID) : { p with userInformation, currentUser : Phone }.Free :=
  ⟨h.underWay, h.home, h.logOut⟩

/-- One login or registration is asked for. -/
theorem Free.owned_ask (h : p.Free) (w : ℕ) {r : Request}
    (hr : ∀ u email password, r.registers? = some (u, email, password) →
      p.currentUser = some u) : (p.ask w r).Owned D where
  one := by
    rw [underWay_ask, h.underWay]
    split <;> simp
  busy _ := ⟨h.home, h.logOut⟩
  home home hh := by
    rw [home?_ask, h.home] at hh
    cases hh
  success b hb hs := absurd hs (not_succeeds_of_underWay_eq_zero h.underWay hb)
  registering x hx w' hw u email password hreg := by
    rcases List.mem_append.1 hx with hx | hx
    · exact absurd (Pending.isAuth_of_registers? hw hreg)
        (not_isAuth_of_underWay_eq_zero h.underWay hx)
    · rw [List.mem_singleton.1 hx] at hreg
      exact hr u email password hreg

/-- One completion is left on the main queue. -/
theorem Free.owned_async (h : p.Free) {b : SessionBlock} (hb : b ≠ .logOut)
    (hs : b.succeeds = true → p.SignedIn D) : (p.async b).Owned D where
  one := by
    rw [underWay_async, h.underWay]
    split <;> simp
  busy _ := ⟨h.home, by simpa [async] using ⟨h.logOut, hb.symm⟩⟩
  home home hh := by
    rw [home?_async, h.home] at hh
    cases hh
  success b' hb' hs' := by
    rcases List.mem_append.1 hb' with hb' | hb'
    · exact absurd hs' (not_succeeds_of_underWay_eq_zero h.underWay hb')
    · exact hs (List.mem_singleton.1 hb' ▸ hs')
  registering x hx w hw u email password hreg :=
    absurd (Pending.isAuth_of_registers? hw hreg) (not_isAuth_of_underWay_eq_zero h.underWay hx)

/-- Nothing is under way, and the conversations shown, if any, are those of the owner. -/
theorem owned_of_underWay_eq_zero (h : p.underWay = 0)
    (hh : ∀ h, p.home? = some h → p.SignedIn D ∧ h.currentUserID = p.currentUser) :
    p.Owned D where
  one := by omega
  busy hn := absurd h hn
  home := hh
  success b hb hs := absurd hs (not_succeeds_of_underWay_eq_zero h hb)
  registering x hx w hw u email password hreg :=
    absurd (Pending.isAuth_of_registers? hw hreg) (not_isAuth_of_underWay_eq_zero h hx)

theorem Free.owned (h : p.Free) : p.Owned D :=
  owned_of_underWay_eq_zero h.underWay fun home hh => by rw [h.home] at hh; cases hh

/-- When the one login under way is answered, nothing is. -/
theorem Owned.free_eraseIdx (h : p.Owned D) {i : ℕ} {x : Pending}
    (hi : p.requests[i]? = some x) (hx : x.isAuth = true) :
    { p with requests := p.requests.eraseIdx i : Phone }.Free := by
  have hcount := underWay_eraseIdx hi
  have hone := h.one
  rw [if_pos hx] at hcount
  obtain ⟨hhome, hlogOut⟩ := h.busy (by omega)
  exact ⟨by omega, hhome, hlogOut⟩

/-- When the completion of the one login under way runs, nothing is. -/
theorem Owned.free_tail (h : p.Owned D) {b : SessionBlock} {mainQueue : List SessionBlock}
    (hm : p.mainQueue = b :: mainQueue) (hb : b.isAuth = true) :
    { p with mainQueue : Phone }.Free := by
  have hcount := underWay_tail hm
  have hone := h.one
  rw [if_pos hb] at hcount
  obtain ⟨hhome, hlogOut⟩ := h.busy (by omega)
  exact ⟨by omega, hhome, fun hmem => hlogOut (hm ▸ List.mem_cons_of_mem b hmem)⟩

/-- What does not touch logins and registrations keeps the owner. -/
theorem Owned.of_quiet (h : p.Owned D) (hi : q.userInformation = p.userInformation)
    (hu : q.currentUser = p.currentUser) (hcount : q.underWay = p.underWay)
    (hm : ∀ b ∈ q.mainQueue, b ∈ p.mainQueue ∨ ∃ w, b = .alert w)
    (hr : ∀ x ∈ q.requests, x.isAuth = true → x ∈ p.requests)
    (hh : ∀ home, q.home? = some home →
      p.home?.map Home.currentUserID = some home.currentUserID) : q.Owned D where
  one := hcount ▸ h.one
  busy hn := by
    obtain ⟨hnone, hlogOut⟩ := h.busy (hcount ▸ hn)
    refine ⟨?_, fun hmem => ?_⟩
    · by_contra hne
      obtain ⟨home, hhome⟩ := Option.ne_none_iff_exists'.1 hne
      have hmap := hh home hhome
      rw [hnone] at hmap
      cases hmap
    · rcases hm _ hmem with hmem | ⟨w, hw⟩
      · exact hlogOut hmem
      · cases hw
  home home hhome := by
    obtain ⟨home', hhome', he⟩ := Option.map_eq_some_iff.1 (hh home hhome)
    obtain ⟨hsigned, hc⟩ := h.home home' hhome'
    exact ⟨hsigned.congr hi hu, by rw [← he, hc, hu]⟩
  success b hb hs := by
    rcases hm b hb with hb | ⟨w, rfl⟩
    · exact (h.success b hb hs).congr hi hu
    · cases hs
  registering x hx w hw u email password hreg := by
    rw [hu]
    exact h.registering x (hr x hx (Pending.isAuth_of_registers? hw hreg)) w hw u email password
      hreg

/-! ## The steps -/

theorem Free.pushTo_welcome (h : p.Free) : (p.pushTo .welcome).Free where
  underWay := (shows_pushTo .welcome).underWay.trans h.underWay
  home := rfl
  logOut := (shows_pushTo (p := p) .welcome).mainQueue ▸ h.logOut

theorem owned_launch : p.launch.Owned D := by
  have hfree : ({ p with
      window := p.window + 1
      root := some .initial
      requests := p.requests.map fun r => { r with window := none }
      mainQueue := [] } : Phone).Free := by
    refine ⟨?_, rfl, List.not_mem_nil⟩
    rw [underWay, List.countP_map, List.countP_nil, Nat.add_zero, List.countP_eq_zero]
    exact fun _ _ => Bool.false_ne_true
  unfold launch initialDidLoad
  split
  · split
    · exact hfree.owned_ask _ (by rintro _ _ _ ⟨⟩)
    · exact hfree.owned
  · exact hfree.pushTo_welcome.owned

/-- No login is asked for while another is under way, or a log-out is to be done. -/
def Alone (p : Phone) : Action → Prop
  | .login .. | .register .. => p.underWay = 0 ∧ .logOut ∉ p.mainQueue
  | _ => True

theorem Resumes.owned {i w : ℕ} {r : Request} {a : Answer} (hp : p.Owned D) (hs : p.Sound D)
    (hr : p.requests[i]? = some ⟨some w, r⟩)
    (h : Resumes validURL D { p with requests := p.requests.eraseIdx i } w r a D' q)
    (hD : D.Extends D') : q.Owned D' := by
  have hmem := List.mem_of_getElem? hr
  have hcount := underWay_eraseIdx hr
  have herase : ∀ x ∈ p.requests.eraseIdx i, x ∈ p.requests := fun x hx =>
    List.mem_of_mem_eraseIdx hx
  cases h with
  | @signedIn asker email account ha =>
    exact ((hp.free_eraseIdx hr rfl).withUser (some (userInfo email account.password))
      (some account.uid)).owned_async (b := .loggedIn asker w true) (by simp)
      fun _ => ⟨email, account, ha, rfl, rfl⟩
  | refused | notCreated =>
    exact (hp.free_eraseIdx hr rfl).owned_async (by simp) (by rintro ⟨⟩)
  | @created _ _ _ _ uid =>
    refine ((hp.free_eraseIdx hr rfl).withUser p.userInformation (some uid)).owned_ask w ?_
    rintro _ _ _ ⟨⟩
    rfl
  | @withoutPicture _ _ _ _ uid =>
    exact ((hp.free_eraseIdx hr rfl).withUser p.userInformation (some uid)).owned
  | stored | linked =>
    refine (hp.free_eraseIdx hr rfl).owned_ask w ?_
    rintro _ _ _ ⟨⟩
    exact hp.registering _ hmem w rfl _ _ _ rfl
  | @registered userId _ email password _ =>
    exact ((hp.free_eraseIdx hr rfl).withUser (some (userInfo email password))
      p.currentUser).owned_async (b := .registered w true) (by simp) fun _ =>
        ⟨email, ⟨userId, password⟩, hD _ _ (hs.registering _ hmem _ _ _ rfl), rfl,
          hp.registering _ hmem w rfl _ _ _ rfl⟩
  | abandoned hreg =>
    obtain ⟨y, hy⟩ := Option.isSome_iff_exists.1 hreg
    exact (hp.free_eraseIdx hr (Pending.isAuth_of_registers? rfl hy)).owned
  | found =>
    refine hp.of_quiet rfl rfl ?_ (fun b hb => .inl hb) (fun x hx hauth => ?_) fun home hh => ?_
    · rw [underWay_ask, hcount]
      rfl
    · rcases List.mem_append.1 hx with hx | hx
      · exact herase x hx
      · rw [List.mem_singleton.1 hx] at hauth
        cases hauth
    · exact Option.map_eq_some_iff.2 ⟨home, hh, rfl⟩
  | notFound | notShown =>
    refine hp.of_quiet rfl rfl hcount.symm (fun b hb => .inl hb) (fun x hx _ => herase x hx)
      fun home hh => Option.map_eq_some_iff.2 ⟨home, hh, rfl⟩
  | @shown forUserID name email profilePic =>
    have hshows := (redraws_setUser (p := { p with requests := p.requests.eraseIdx i }) w
      { name, email, id := forUserID, profilePic }).shows
    refine hp.of_quiet hshows.userInformation hshows.currentUser (hshows.underWay.trans hcount.symm)
      (fun b hb => .inl (hshows.mainQueue ▸ hb)) (fun x hx hauth => ?_) fun home hh => ?_
    · obtain ⟨l, hl, hinfo⟩ := hshows.requests
      rcases List.mem_append.1 (hl ▸ hx) with hx | hx
      · exact herase x hx
      · obtain ⟨id, _, rfl⟩ := hinfo x hx
        cases hauth
    · rcases home?_setUser hh with hh | ⟨_, hh, _⟩
      · exact Option.map_eq_some_iff.2 ⟨home, hh, rfl⟩
      · exact hh

/-- A list of conversations that comes to be shown is that of the user who is signed in. -/
theorem Free.owned_showHome (h : p.Free) (hs : p.SignedIn D) (w : ℕ) :
    (p.showHome w).Owned D := by
  have hshows := shows_showHome (p := p) w
  refine owned_of_underWay_eq_zero (hshows.underWay.trans h.underWay) fun home hh => ?_
  refine ⟨hs.congr hshows.userInformation hshows.currentUser, ?_⟩
  rcases showHome_cases (p := p) w with he | ⟨_, _, _, he⟩
  · rw [he, h.home] at hh
    cases hh
  · rw [he] at hh
    cases hh
    exact hshows.currentUser.symm

theorem owned_run {signOut : Bool} {b : SessionBlock} {mainQueue : List SessionBlock}
    (hp : p.Owned D) (hm : p.mainQueue = b :: mainQueue) :
    ({ p with mainQueue : Phone }.run signOut b).Owned D := by
  have hb : b ∈ p.mainQueue := hm ▸ List.mem_cons_self
  cases b with
  | loggedIn asker w status =>
    have hfree := hp.free_tail hm rfl
    cases status with
    | false =>
      cases asker with
      | initial => exact hfree.pushTo_welcome.owned
      | welcome => exact hfree.owned_async (by simp) (by rintro ⟨⟩)
    | true =>
      have hsigned := hp.success _ hb rfl
      cases asker with
      | initial =>
        have hshows := shows_pushTo (p := { p with mainQueue }) .conversations
        refine owned_of_underWay_eq_zero (hshows.underWay.trans hfree.underWay) fun home hh => ?_
        refine ⟨hsigned.congr hshows.userInformation hshows.currentUser, ?_⟩
        cases (home?_pushTo_conversations (p := { p with mainQueue })).symm.trans hh
        exact hshows.currentUser.symm
      | welcome => exact hfree.owned_showHome (hsigned.congr rfl rfl) w
  | registered w status =>
    have hfree := hp.free_tail hm rfl
    have hshows := (redraws_enable (p := { p with mainQueue }) w).shows
    have henabled : ({ p with mainQueue : Phone }.enable w).Free :=
      ⟨hshows.underWay.trans hfree.underWay, by rw [home?_enable, hfree.home],
        hshows.mainQueue ▸ hfree.logOut⟩
    cases status with
    | false => exact henabled.owned_async (by simp) (by rintro ⟨⟩)
    | true =>
      exact henabled.owned_showHome
        ((hp.success _ hb rfl).congr hshows.userInformation hshows.currentUser) w
  | alert w =>
    have hcount := underWay_tail hm
    have hshows := (redraws_present (p := { p with mainQueue }) w .alert).shows
    refine hp.of_quiet hshows.userInformation hshows.currentUser (hshows.underWay.trans hcount.symm)
      (fun b hb => .inl ?_) (fun x hx hauth => ?_) fun home hh => ?_
    · rw [run, hshows.mainQueue] at hb
      exact hm ▸ List.mem_cons_of_mem _ hb
    · obtain ⟨l, hl, hinfo⟩ := hshows.requests
      rcases List.mem_append.1 (hl ▸ hx) with hx | hx
      · exact hx
      · obtain ⟨id, _, rfl⟩ := hinfo x hx
        cases hauth
    · rw [run, home?_present_alert] at hh
      exact Option.map_eq_some_iff.2 ⟨home, hh, rfl⟩
  | logOut =>
    -- Nothing is under way when somebody logs out.
    have hidle : p.underWay = 0 := by
      by_contra hn
      exact (hp.busy hn).2 hb
    have hcount : { p with mainQueue : Phone }.underWay = 0 := (underWay_tail hm).symm.trans hidle
    cases signOut with
    | true =>
      have hshows := shows_pushTo (p := { p with
        currentUser := none, userInformation := none, mainQueue }) .welcome
      refine owned_of_underWay_eq_zero (hshows.underWay.trans hcount) fun home hh => ?_
      cases hh
    | false =>
      exact owned_of_underWay_eq_zero hcount fun home hh =>
        (hp.home home hh).imp_left fun h => h.congr rfl rfl

theorem Step.owned {a : Action} (h : Step validURL D p a D' q) (hp : p.Owned D)
    (hs : p.Sound D) (ha : p.Alone a) : q.Owned D' := by
  -- Where the welcome screen takes input, no conversations are shown.
  have hfree : ∀ {v : Welcome}, p.welcome? = some v → v.TakesInput →
      p.underWay = 0 ∧ .logOut ∉ p.mainQueue → p.Free := fun hv hin ⟨hcount, hlogOut⟩ =>
    ⟨hcount, home?_eq_none_of_welcome? hv (Welcome.TakesInput.ne_home hin), hlogOut⟩
  cases h with
  | launch => exact owned_launch
  | login hv hin => exact (hfree hv hin ha).owned_ask _ (by rintro _ _ _ ⟨⟩)
  | register hv hin =>
    refine Free.owned_ask (p := { p with
      root := some (.welcome { isUserInteractionEnabled := false }) })
      ((hfree hv hin ha).congr rfl rfl rfl) _ ?_
    rintro _ _ _ ⟨⟩
  | selectPic | dismiss =>
    refine hp.of_quiet rfl rfl rfl (fun b hb => .inl hb) (fun x hx _ => hx) fun home hh => ?_
    cases hh
  | @proceedLogOut home hhome =>
    have hidle : p.underWay = 0 := by
      by_contra hn
      rw [(hp.busy hn).1] at hhome
      cases hhome
    exact owned_of_underWay_eq_zero ((underWay_async _).trans hidle) fun home' hh =>
      (hp.home home' hh).imp_left fun h => h.congr rfl rfl
  | @orphan i _ _ _ hr hans =>
    exact (hp.of_quiet (q := { p with requests := p.requests.eraseIdx i }) rfl rfl
      (underWay_eraseIdx hr).symm (fun b hb => .inl hb)
      (fun x hx _ => List.mem_of_mem_eraseIdx hx)
      fun home hh => Option.map_eq_some_iff.2 ⟨home, hh, rfl⟩).mono hans.extends
  | answer hr hans hres => exact hres.owned hp hs hr hans.extends
  | runBlock hm => exact owned_run hp hm

end Phone

namespace Session

variable {validURL : String → Bool} {s t : Session} {as : List Action}

/-- No device asks for a login or a registration while another one is under way
    there, or a log-out is to be done. -/
def Alone (s : Session) (a : Action) : Prop := (s.phones a.device).Alone a.action

theorem owned_of_along (hC : (machine validURL).Along Alone as)
    (h : (machine validURL).exec as = some s) (d : Device) : (s.phones d).Owned s.directory := by
  refine hC.invariant (I := fun s => ∀ d, (s.phones d).Owned s.directory) ?_ ?_ h d
  · exact fun d => Phone.Free.owned ⟨rfl, rfl, List.not_mem_nil⟩
  · intro s a t hr hs ha ht d
    obtain ⟨hstep, hothers⟩ := step_cases ht
    by_cases hd : d = a.device
    · subst hd
      exact hstep.owned (hs a.device) ((sound_of_reachable hr).phones a.device) ha
    · rw [hothers d hd]
      exact (hs d).mono hstep.extends

theorem profiled_of_reachable (h : (machine validURL).Reachable s) (d : Device) :
    (s.phones d).Profiled s.directory := by
  refine h.invariant (I := fun s => ∀ d, (s.phones d).Profiled s.directory) ?_ ?_ d
  · exact fun d => ⟨by rintro _ ⟨⟩, by rintro _ ⟨⟩, by rintro _ _ ⟨⟩⟩
  · intro s a t hr hs ht d
    obtain ⟨hstep, hothers⟩ := step_cases ht
    by_cases hd : d = a.device
    · subst hd
      exact hstep.profiled (sound_of_reachable hr).directory (hs a.device)
    · rw [hothers d hd]
      exact (hs d).mono fun id email => hstep.profile

/-- In a run in which no device asks for a login while another one is under way
    there, or a log-out is to be done, whenever a device shows conversations, they are
    those of one account: its user is signed in, its login data is saved, and the
    profile shown has its identifier and its address. -/
theorem home_of_one {d : Device} {home : Home} (hC : (machine validURL).Along Alone as)
    (h : (machine validURL).exec as = some s) (hh : (s.phones d).home? = some home) :
    ∃ email account, s.directory.accounts email = some account ∧
      (s.phones d).userInformation = some (userInfo email account.password) ∧
      (s.phones d).currentUser = some account.uid ∧ home.currentUserID = some account.uid ∧
      ∀ user, home.user = some user → user.id = account.uid ∧ user.email = email := by
  obtain ⟨⟨email, account, ha, hi, hu⟩, hc⟩ := (owned_of_along hC h d).home home hh
  refine ⟨email, account, ha, hi, hu, hc.trans hu, fun user huser => ?_⟩
  obtain ⟨hid, _, account', ha', hu'⟩ := (profiled_of_reachable ⟨as, h⟩ d).user home user hh huser
  have he : user.id = account.uid := Option.some.inj (hid.symm.trans (hc.trans hu))
  exact ⟨he, (sound_of_reachable ⟨as, h⟩).directory.distinct _ _ account' account ha' ha
    (hu'.trans he)⟩

theorem along_registration : (machine fun _ => true).Along Alone registration :=
  Machine.along_iff_alongFrom.2 (.cons trivial rfl (.cons ⟨rfl, by decide⟩ rfl (.cons trivial rfl
    (.cons trivial rfl (.cons trivial rfl (.cons trivial rfl (.cons trivial rfl
      (.cons trivial rfl (.cons trivial rfl trivial)))))))))

theorem home_of_one_registration : ∃ s home user,
    (machine fun _ => true).exec registration = some s ∧ (s.phones 0).home? = some home ∧
      home.user = some user ∧ ∃ email account, s.directory.accounts email = some account ∧
        (s.phones 0).userInformation = some (userInfo email account.password) ∧
        (s.phones 0).currentUser = some account.uid ∧ home.currentUserID = some account.uid ∧
        user.id = account.uid ∧ user.email = email := by
  obtain ⟨s, hs, hh⟩ : ∃ s, (machine fun _ => true).exec registration = some s ∧
      (s.phones 0).home? = some ⟨some "u", some ⟨"U", "u@mail", "u", ⟨0, true⟩⟩⟩ :=
    ⟨_, rfl, by decide⟩
  obtain ⟨email, account, ha, hi, hu, hc, huser⟩ := home_of_one along_registration hs hh
  exact ⟨s, _, _, hs, hh, rfl, email, account, ha, hi, hu, hc, huser _ rfl⟩

end Session

end MagicChat
