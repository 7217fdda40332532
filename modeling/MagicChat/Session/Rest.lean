import MagicChat.Library.Settling
import MagicChat.Session.Owner

/-!
# Devices at rest

The answers of the services and the blocks that they leave come to an end
(`settles`). Then a device that has been launched shows its conversations, or
the welcome screen, and this takes input (`never_stuck`), if no registration has
been abandoned: the initial screen does not stay, and no screen stays disabled.
-/

namespace MagicChat

/-- How many answers a login or a registration waits for at most. -/
def Request.stage : Request → ℕ
  | .createUser .. => 4
  | .putData .. => 3
  | .downloadURL .. => 2
  | .signIn .. | .updateChildValues .. => 1
  | .info _ | .dataTask .. => 0

/-- How many answers a profile waits for. -/
def Request.toShow : Request → ℕ
  | .info _ => 2
  | .dataTask .. => 1
  | _ => 0

/-- A step of a registration. -/
def Request.isRegistration : Request → Bool
  | .createUser .. | .putData .. | .downloadURL .. | .updateChildValues .. => true
  | _ => false

namespace Phone

variable {p q : Phone} {validURL : String → Bool} {D D' : Directory}

/-- An answer comes, or a block runs. -/
def Action.isAnswer : Action → Bool
  | .answer .. | .runBlock _ => true
  | _ => false

/-! ## The answers come to an end -/

/-- How many answers logins and registrations wait for at most. -/
def toLogIn (p : Phone) : ℕ := (p.requests.map fun x => x.request.stage).sum

/-- How many answers profiles wait for. -/
def toShow (p : Phone) : ℕ := (p.requests.map fun x => x.request.toShow).sum

/-- The answers that logins and registrations wait for, their completions, the
    blocks, and the answers that profiles wait for. -/
def ranks : List (Phone → ℕ) :=
  [toLogIn, fun p => p.mainQueue.countP SessionBlock.isAuth, fun p => p.mainQueue.length, toShow]

@[simp] theorem toLogIn_ask (w : ℕ) (r : Request) : (p.ask w r).toLogIn = p.toLogIn + r.stage := by
  simp [toLogIn, ask]

@[simp] theorem toShow_ask (w : ℕ) (r : Request) : (p.ask w r).toShow = p.toShow + r.toShow := by
  simp [toShow, ask]

theorem toShow_congr (h : q.requests = p.requests) : q.toShow = p.toShow := by
  rw [toShow, toShow, h]

theorem Shows.toLogIn (h : Shows p q) : q.toLogIn = p.toLogIn := by
  obtain ⟨l, hl, hinfo⟩ := h.requests
  have hzero : (l.map fun x => x.request.stage).sum = 0 := by
    refine List.sum_eq_zero fun n hn => ?_
    obtain ⟨x, hx, rfl⟩ := List.mem_map.1 hn
    obtain ⟨id, _, rfl⟩ := hinfo x hx
    rfl
  rw [Phone.toLogIn, Phone.toLogIn, hl, List.map_append, List.sum_append, hzero, Nat.add_zero]

theorem toLogIn_eraseIdx {i : ℕ} {x : Pending} (h : p.requests[i]? = some x) :
    p.toLogIn = { p with requests := p.requests.eraseIdx i : Phone }.toLogIn + x.request.stage := by
  rw [toLogIn, ((Lists.perm_cons_eraseIdx h).map _).sum_eq, List.map_cons, List.sum_cons,
    Nat.add_comm]
  rfl

theorem toShow_eraseIdx {i : ℕ} {x : Pending} (h : p.requests[i]? = some x) :
    p.toShow = { p with requests := p.requests.eraseIdx i : Phone }.toShow + x.request.toShow := by
  rw [toShow, ((Lists.perm_cons_eraseIdx h).map _).sum_eq, List.map_cons, List.sum_cons,
    Nat.add_comm]
  rfl

/-- A login or a registration waits for less. -/
theorem drops_of_toLogIn (h : q.toLogIn < p.toLogIn) : Drops ranks p q := .head h

/-- A profile waits for less. -/
theorem drops_of_toShow (hlogIn : q.toLogIn = p.toLogIn) (hm : q.mainQueue = p.mainQueue)
    (h : q.toShow < p.toShow) : Drops ranks p q :=
  .tail hlogIn (.tail (congrArg _ hm) (.tail (congrArg _ hm) (.head h)))

theorem Resumes.drops {i w : ℕ} {r : Request} {a : Answer}
    (hr : p.requests[i]? = some ⟨some w, r⟩)
    (h : Resumes validURL D { p with requests := p.requests.eraseIdx i } w r a D' q) :
    Drops ranks p q := by
  have hstage := toLogIn_eraseIdx hr
  have hshow := toShow_eraseIdx hr
  cases h with
  | signedIn | refused | notCreated | withoutPicture | registered =>
    refine drops_of_toLogIn ?_
    rw [hstage]
    exact Nat.lt_add_of_pos_right (Nat.zero_lt_succ _)
  | created | stored | linked =>
    refine drops_of_toLogIn ?_
    rw [hstage, toLogIn_ask]
    exact Nat.lt_succ_self _
  | abandoned hreg =>
    refine drops_of_toLogIn ?_
    rw [hstage]
    cases r with
    | putData | downloadURL | updateChildValues =>
      exact Nat.lt_add_of_pos_right (Nat.zero_lt_succ _)
    | _ => cases hreg
  | found =>
    refine drops_of_toShow ?_ rfl ?_
    · rw [hstage, toLogIn_ask]
      rfl
    · rw [hshow, toShow_ask]
      exact Nat.lt_succ_self _
  | notFound | notShown =>
    refine drops_of_toShow hstage.symm rfl ?_
    rw [hshow]
    exact Nat.lt_add_of_pos_right (Nat.zero_lt_succ _)
  | shown =>
    have hdraw := redraws_setUser (p := { p with requests := p.requests.eraseIdx i }) w
    refine drops_of_toShow ((hdraw _).shows.toLogIn.trans hstage.symm)
      (hdraw _).shows.mainQueue ?_
    rw [toShow_congr (hdraw _).requests, hshow]
    exact Nat.lt_succ_self _

theorem drops_orphan {i : ℕ} {x : Pending} (hr : p.requests[i]? = some x) :
    Drops ranks p { p with requests := p.requests.eraseIdx i } := by
  have hstage := toLogIn_eraseIdx hr
  have hshow := toShow_eraseIdx hr
  obtain ⟨w, r⟩ := x
  cases r with
  | info | dataTask =>
    refine drops_of_toShow hstage.symm rfl ?_
    rw [hshow]
    exact Nat.lt_add_of_pos_right (Nat.zero_lt_succ _)
  | _ =>
    refine drops_of_toLogIn ?_
    rw [hstage]
    exact Nat.lt_add_of_pos_right (Nat.zero_lt_succ _)

theorem drops_run {signOut : Bool} {b : SessionBlock} {mainQueue : List SessionBlock}
    (hm : p.mainQueue = b :: mainQueue) :
    Drops ranks p ({ p with mainQueue : Phone }.run signOut b) := by
  have hlength : p.mainQueue.length = mainQueue.length + 1 := by rw [hm, List.length_cons]
  -- A completion takes itself off the queue; other blocks leave no others.
  have hauth : ∀ {q : Phone}, b.isAuth = true → q.toLogIn = p.toLogIn →
      q.mainQueue.countP SessionBlock.isAuth = mainQueue.countP SessionBlock.isAuth →
        Drops ranks p q := by
    intro q hb hstage hcount
    refine .tail hstage (.head ?_)
    simp only [hcount, hm, List.countP_cons, hb, if_true]
    exact Nat.lt_succ_self _
  have hother : ∀ {q : Phone}, b.isAuth = false → q.toLogIn = p.toLogIn →
      q.mainQueue = mainQueue → Drops ranks p q := by
    intro q hb hstage hq
    refine .tail hstage (.tail ?_ (.head ?_))
    · simp [hq, hm, hb]
    · simp only [hq]
      omega
  have halert : ∀ l w, (l ++ [SessionBlock.alert w]).countP SessionBlock.isAuth =
      l.countP SessionBlock.isAuth :=
    fun l w => by simp [List.countP_append, SessionBlock.isAuth]
  cases b with
  | loggedIn asker w status =>
    cases asker with
    | initial =>
      have h := shows_pushTo (p := { p with mainQueue })
        (if status then .conversations else .welcome)
      exact hauth rfl h.toLogIn (congrArg _ h.mainQueue)
    | welcome =>
      cases status with
      | true =>
        have h := shows_showHome (p := { p with mainQueue }) w
        exact hauth rfl h.toLogIn (congrArg _ h.mainQueue)
      | false => exact hauth rfl rfl (halert mainQueue w)
  | registered w status =>
    have henable := (redraws_enable (p := { p with mainQueue }) w).shows
    cases status with
    | true =>
      have h := shows_showHome (p := { p with mainQueue : Phone }.enable w) w
      exact hauth rfl (h.toLogIn.trans henable.toLogIn)
        (congrArg _ (h.mainQueue.trans henable.mainQueue))
    | false =>
      exact hauth rfl henable.toLogIn
        ((halert _ w).trans (congrArg _ henable.mainQueue))
  | alert w =>
    have h := (redraws_present (p := { p with mainQueue }) w .alert).shows
    exact hother rfl h.toLogIn h.mainQueue
  | logOut =>
    cases signOut with
    | true => exact hother rfl rfl rfl
    | false => exact hother rfl rfl rfl

theorem Step.drops {a : Action} (h : Step validURL D p a D' q) (ha : a.isAnswer = true) :
    Drops ranks p q := by
  cases h with
  | orphan hr => exact drops_orphan hr
  | answer hr _ hres => exact hres.drops hr
  | runBlock hm => exact drops_run hm
  | _ => cases ha

/-- Every request can be answered, and every block can run. -/
theorem exists_step_answer (h : p.requests ≠ [] ∨ p.mainQueue ≠ []) :
    ∃ a, a.isAnswer = true ∧ p.step validURL D a ≠ none := by
  rcases h with h | h
  · obtain ⟨x, requests, hx⟩ := List.exists_cons_of_ne_nil h
    have hanswer : ∃ a, D.answer x.request a ≠ none := by
      obtain ⟨w, r⟩ := x
      cases r with
      | signIn | putData | updateChildValues => exact ⟨.ok false, by simp [Directory.answer]⟩
      | createUser =>
        exact ⟨.uid none, by simp [Directory.answer, Accounts.createUser]⟩
      | downloadURL => exact ⟨.url none, by simp [Directory.answer]⟩
      | info => exact ⟨.snapshot, by simp [Directory.answer]⟩
      | dataTask => exact ⟨.image none, by simp [Directory.answer]⟩
    obtain ⟨a, ha⟩ := hanswer
    obtain ⟨D', hD⟩ := Option.ne_none_iff_exists'.1 ha
    refine ⟨.answer 0 a, rfl, ?_⟩
    simp [step, hx, hD]
  · obtain ⟨b, mainQueue, hb⟩ := List.exists_cons_of_ne_nil h
    refine ⟨.runBlock true, rfl, ?_⟩
    simp [step, hb]

/-! ## Waiting for something -/

/-- The welcome screen takes no input. -/
def Disabled (p : Phone) : Prop :=
  ∃ v, p.root = some (.welcome v) ∧ v.isUserInteractionEnabled = false

/-- A device on its initial screen waits for its login, and one whose welcome
    screen is disabled for its registration. -/
structure Awake (p : Phone) : Prop where
  initial : p.root = some .initial →
    (∃ w email password, ⟨some w, .signIn .initial email password⟩ ∈ p.requests) ∨
      ∃ w status, .loggedIn .initial w status ∈ p.mainQueue
  welcome : p.Disabled →
    (∃ x ∈ p.requests, x.window = some p.window ∧ x.request.isRegistration = true) ∨
      ∃ status, .registered p.window status ∈ p.mainQueue

/-- From `p` to `q`, a screen at most comes to take input. -/
structure Livens (p q : Phone) : Prop where
  initial : q.root = some .initial → p.root = some .initial
  disabled : q.Disabled → p.Disabled
  window : q.window = p.window

theorem Livens.of_root (h : q.root = p.root) (hw : q.window = p.window) : Livens p q :=
  ⟨fun hi => h ▸ hi, fun ⟨v, hv, he⟩ => ⟨v, h ▸ hv, he⟩, hw⟩

theorem livens_present (w : ℕ) (x : Presented) : Livens p (p.present w x) := by
  refine ⟨fun h => ?_, ?_, (redraws_present w x).window⟩
  · unfold present at h
    split at h
    · split at h
      · cases h
      · exact h
    · exact h
  · rintro ⟨v, hv, he⟩
    unfold present at hv
    split at hv
    · rename_i hroot
      split at hv
      · cases hv
        exact ⟨_, hroot, he⟩
      · exact ⟨v, hv, he⟩
    · exact ⟨v, hv, he⟩

theorem livens_showHome (w : ℕ) : Livens p (p.showHome w) := by
  unfold showHome
  split
  · rename_i hroot
    split
    · refine ⟨fun h => ?_, ?_, homeDidLoad_window⟩
      · rw [homeDidLoad_root] at h
        cases h
      · rintro ⟨v, hv, he⟩
        rw [homeDidLoad_root] at hv
        cases hv
        exact ⟨_, hroot, he⟩
    · exact .of_root rfl rfl
  · exact .of_root rfl rfl

theorem livens_setUser (w : ℕ) (user : User) : Livens p (p.setUser w user) := by
  refine ⟨fun h => ?_, ?_, (redraws_setUser w user).window⟩
  · unfold setUser at h
    split at h
    · split at h
      · cases h
      · cases h
      · exact h
    · exact h
  · rintro ⟨v, hv, he⟩
    unfold setUser at hv
    split at hv
    · split at hv
      · cases hv
      · rename_i hroot
        cases hv
        exact ⟨_, hroot, he⟩
      · exact ⟨v, hv, he⟩
    · exact ⟨v, hv, he⟩

/-- In its own window, the completion of a registration enables the screen. -/
theorem not_disabled_enable : ¬(p.enable p.window).Disabled := by
  rintro ⟨v, hv, he⟩
  unfold enable at hv
  split at hv
  · rw [if_pos rfl] at hv
    cases hv
    cases he
  · rename_i hroot
    exact hroot _ _ hv

theorem livens_enable (w : ℕ) : Livens p (p.enable w) := by
  refine ⟨fun h => ?_, fun h => ?_, (redraws_enable w).window⟩
  · unfold enable at h
    split at h
    · split at h
      · cases h
      · exact h
    · exact h
  · by_cases hw : w = p.window
    · exact absurd (hw ▸ h) not_disabled_enable
    · unfold enable at h
      split at h
      · rwa [if_neg hw] at h
      · exact h

/-- What a device waits for stays, or is replaced. -/
theorem Awake.of_livens (h : p.Awake) (hl : Livens p q)
    (hsignIn : ∀ w email password, ⟨some w, .signIn .initial email password⟩ ∈ p.requests →
      ⟨some w, .signIn .initial email password⟩ ∈ q.requests ∨
        ∃ w status, .loggedIn .initial w status ∈ q.mainQueue)
    (hloggedIn : ∀ w status, .loggedIn .initial w status ∈ p.mainQueue →
      .loggedIn .initial w status ∈ q.mainQueue)
    (hregister : ∀ x ∈ p.requests, x.window = some p.window → x.request.isRegistration = true →
      (∃ y ∈ q.requests, y.window = some p.window ∧ y.request.isRegistration = true) ∨
        ∃ status, .registered p.window status ∈ q.mainQueue)
    (hregistered : ∀ status, .registered p.window status ∈ p.mainQueue →
      .registered p.window status ∈ q.mainQueue) : q.Awake := by
  constructor
  · intro hroot
    rcases h.initial (hl.initial hroot) with ⟨w, email, password, hx⟩ | ⟨w, status, hb⟩
    · exact (hsignIn w email password hx).imp_left fun hx => ⟨w, email, password, hx⟩
    · exact .inr ⟨w, status, hloggedIn w status hb⟩
  · intro hdisabled
    rw [hl.window]
    rcases h.welcome (hl.disabled hdisabled) with ⟨x, hx, hw, hreg⟩ | ⟨status, hb⟩
    · exact hregister x hx hw hreg
    · exact .inr ⟨status, hregistered status hb⟩

/-- Nothing that a device waits for is lost. -/
theorem Awake.of_subset (h : p.Awake) (hl : Livens p q) (hr : p.requests ⊆ q.requests)
    (hm : p.mainQueue ⊆ q.mainQueue) : q.Awake :=
  h.of_livens hl (fun _ _ _ hx => .inl (hr hx)) (fun _ _ hb => hm hb)
    (fun x hx hw hreg => .inl ⟨x, hr hx, hw, hreg⟩) fun _ hb => hm hb

/-- A window that shows the welcome screen, or conversations, waits for nothing. -/
theorem awake_pushTo (t : ViewControllerType) : (p.pushTo t).Awake := by
  cases t with
  | conversations =>
    have hroot : (p.pushTo .conversations).root =
        some (.home { currentUserID := p.currentUser }) := homeDidLoad_root
    refine ⟨fun h => ?_, fun ⟨v, hv, _⟩ => ?_⟩
    · rw [hroot] at h
      cases h
    · rw [hroot] at hv
      cases hv
  | welcome =>
    refine ⟨fun h => (by cases h), fun ⟨v, hv, he⟩ => ?_⟩
    cases hv
    cases he

/-- With sound login data, the program never waits for nothing when it is launched. -/
theorem awake_launch (hs : p.Sound D) : p.launch.Awake := by
  unfold launch initialDidLoad
  split
  · rename_i info hi
    obtain ⟨email, account, _, rfl⟩ := hs.saved info hi
    refine ⟨fun _ => .inl ⟨_, _, _, List.mem_append_right _ (List.mem_singleton_self _)⟩, ?_⟩
    rintro ⟨v, hv, _⟩
    cases hv
  · exact awake_pushTo .welcome

/-- An answer that the closures of `registerUser` leave without a completion,
    once there is an account. -/
def Abandons (D : Directory) (p : Phone) : Action → Prop
  | .answer i a => ∃ w r, p.requests[i]? = some ⟨some w, r⟩ ∧
    ((r.registers?.isSome ∧ (a = .ok false ∨ a = .url none)) ∨
      ∃ withName email password profilePic uid,
        r = .createUser withName email password profilePic ∧ a = .uid (some uid) ∧
          D.accounts email = none ∧ profilePic.hasJPEG = false)
  | _ => False

/-- A request is the one that is answered, or stays. -/
theorem eq_or_mem_eraseIdx {i : ℕ} {x y : Pending} (hr : p.requests[i]? = some x)
    (hy : y ∈ p.requests) : y = x ∨ y ∈ p.requests.eraseIdx i :=
  List.mem_cons.1 ((Lists.perm_cons_eraseIdx hr).mem_iff.1 hy)

section Answered

variable {i w : ℕ} {r : Request}

/-- An answer leads to the next request of a registration. -/
theorem Awake.ask (hp : p.Awake) (hr : p.requests[i]? = some ⟨some w, r⟩) {r' : Request}
    (currentUser : Option UserID) (hsign : ∀ asker email password, r ≠ .signIn asker email password)
    (hreg : r.isRegistration = true → r'.isRegistration = true) :
    ({ p with currentUser, requests := p.requests.eraseIdx i : Phone }.ask w r').Awake := by
  refine hp.of_livens (.of_root rfl rfl) (fun w' email password hx => .inl ?_)
    (fun _ _ hb => hb) (fun x hx hw hx' => .inl ?_) fun _ hb => hb
  · rcases eq_or_mem_eraseIdx hr hx with he | hx
    · cases he
      exact absurd rfl (hsign _ _ _)
    · exact List.mem_append_left _ hx
  · rcases eq_or_mem_eraseIdx hr hx with rfl | hx
    · exact ⟨_, List.mem_append_right _ (List.mem_singleton_self _), hw, hreg hx'⟩
    · exact ⟨x, List.mem_append_left _ hx, hw, hx'⟩

/-- An answer leads to the completion of a login or of a registration. -/
theorem Awake.async (hp : p.Awake) (hr : p.requests[i]? = some ⟨some w, r⟩) {b : SessionBlock}
    (userInformation : Option Fields) (currentUser : Option UserID)
    (hsign : ∀ email password, r = .signIn .initial email password →
      ∃ w status, b = .loggedIn .initial w status)
    (hreg : r.isRegistration = true → ∃ status, b = .registered w status) :
    ({ p with userInformation, currentUser, requests := p.requests.eraseIdx i : Phone }.async
      b).Awake := by
  refine hp.of_livens (.of_root rfl rfl) (fun w' email password hx => ?_)
    (fun _ _ hb => List.mem_append_left _ hb) (fun x hx hw hx' => ?_)
    fun _ hb => List.mem_append_left _ hb
  · rcases eq_or_mem_eraseIdx hr hx with he | hx
    · cases he
      obtain ⟨w, status, rfl⟩ := hsign _ _ rfl
      exact .inr ⟨w, status, List.mem_append_right _ (List.mem_singleton_self _)⟩
    · exact .inl hx
  · rcases eq_or_mem_eraseIdx hr hx with rfl | hx
    · obtain ⟨status, rfl⟩ := hreg hx'
      cases hw
      exact .inr ⟨status, List.mem_append_right _ (List.mem_singleton_self _)⟩
    · exact .inl ⟨x, hx, hw, hx'⟩

/-- A request goes that no screen waits for. -/
theorem Awake.of_eraseIdx (hp : p.Awake) {x : Pending} (hr : p.requests[i]? = some x)
    (hx : x.window = none ∨ x.request.asks?.isSome) (hl : Livens p q)
    (hq : q.requests = p.requests.eraseIdx i) (hm : q.mainQueue = p.mainQueue) : q.Awake := by
  refine hp.of_livens hl (fun w' email password hy => .inl ?_) (fun _ _ hb => hm ▸ hb)
    (fun y hy hw hy' => .inl ?_) fun _ hb => hm ▸ hb
  · rcases eq_or_mem_eraseIdx hr hy with rfl | hy
    · rcases hx with hx | hx <;> cases hx
    · exact hq ▸ hy
  · rcases eq_or_mem_eraseIdx hr hy with rfl | hy
    · rcases hx with hx | hx
      · rw [hx] at hw
        cases hw
      · cases hreq : y.request with
        | info | dataTask =>
          rw [hreq] at hy'
          cases hy'
        | _ =>
          rw [hreq] at hx
          cases hx
    · exact ⟨y, hq ▸ hy, hw, hy'⟩

theorem Resumes.awake {a : Answer} (hp : p.Awake) (hr : p.requests[i]? = some ⟨some w, r⟩)
    (h : Resumes validURL D { p with requests := p.requests.eraseIdx i } w r a D' q)
    (ha : ¬p.Abandons D (.answer i a)) : q.Awake := by
  cases h with
  | @signedIn _ email account =>
    exact hp.async hr (some (userInfo email account.password)) (some account.uid)
      (by rintro _ _ ⟨⟩; exact ⟨w, true, rfl⟩) (by rintro ⟨⟩)
  | refused =>
    exact hp.async hr p.userInformation p.currentUser
      (by rintro _ _ ⟨⟩; exact ⟨w, false, rfl⟩) (by rintro ⟨⟩)
  | @created _ _ _ _ uid => exact hp.ask hr (some uid) (by rintro _ _ _ ⟨⟩) fun _ => rfl
  | withoutPicture _ hnone hj =>
    exact absurd ⟨w, _, hr, .inr ⟨_, _, _, _, _, rfl, rfl, hnone, hj⟩⟩ ha
  | notCreated =>
    exact hp.async hr p.userInformation p.currentUser (by rintro _ _ ⟨⟩) fun _ => ⟨false, rfl⟩
  | stored | linked => exact hp.ask hr p.currentUser (by rintro _ _ _ ⟨⟩) fun _ => rfl
  | @registered _ _ email password =>
    exact hp.async hr (some (userInfo email password)) p.currentUser (by rintro _ _ ⟨⟩)
      fun _ => ⟨true, rfl⟩
  | abandoned hreg hfail => exact absurd ⟨w, r, hr, .inl ⟨hreg, hfail⟩⟩ ha
  | found => exact hp.ask hr p.currentUser (by rintro _ _ _ ⟨⟩) (by rintro ⟨⟩)
  | notFound | notShown => exact hp.of_eraseIdx hr (.inr rfl) (.of_root rfl rfl) rfl rfl
  | shown =>
    have hdraw := redraws_setUser (p := { p with requests := p.requests.eraseIdx i }) w
    have hl := livens_setUser (p := { p with requests := p.requests.eraseIdx i }) w
    exact hp.of_eraseIdx hr (.inr rfl) ⟨(hl _).initial, (hl _).disabled, (hl _).window⟩
      (hdraw _).requests (hdraw _).shows.mainQueue

end Answered

theorem Livens.trans {r : Phone} (h : Livens p q) (h' : Livens q r) : Livens p r where
  initial hi := h.initial (h'.initial hi)
  disabled hd := h.disabled (h'.disabled hd)
  window := h'.window.trans h.window

theorem Shows.subset (h : Shows p q) : p.requests ⊆ q.requests := by
  obtain ⟨l, hl, _⟩ := h.requests
  rw [hl]
  exact List.subset_append_left _ _

theorem awake_run {signOut : Bool} {b : SessionBlock} {mainQueue : List SessionBlock} (hp : p.Awake)
    (hm : p.mainQueue = b :: mainQueue) :
    ({ p with mainQueue : Phone }.run signOut b).Awake := by
  -- The block that runs is not one that a screen waits for, or the screen changes.
  have hof : ∀ {q : Phone}, Livens p q → p.requests ⊆ q.requests → mainQueue ⊆ q.mainQueue →
      (∀ w status, b ≠ .loggedIn .initial w status) →
      ((∃ status, b = .registered p.window status) → ¬q.Disabled) → q.Awake := by
    intro q hl hr hq hinitial hregistered
    have htail : ∀ b', b' ∈ p.mainQueue → b' = b ∨ b' ∈ q.mainQueue := fun b' hb' =>
      (List.mem_cons.1 (hm ▸ hb')).imp_right fun h => hq h
    constructor
    · intro hroot
      rcases hp.initial (hl.initial hroot) with ⟨w, email, password, hx⟩ | ⟨w, status, hb⟩
      · exact .inl ⟨w, email, password, hr hx⟩
      · exact .inr ⟨w, status, (htail _ hb).resolve_left fun h => hinitial w status h.symm⟩
    · intro hdisabled
      rw [hl.window]
      rcases hp.welcome (hl.disabled hdisabled) with ⟨x, hx, hw, hreg⟩ | ⟨status, hb⟩
      · exact .inl ⟨x, hr hx, hw, hreg⟩
      · exact .inr ⟨status, (htail _ hb).resolve_left fun h =>
          hregistered ⟨status, h.symm⟩ hdisabled⟩
  have htail : Livens p { p with mainQueue } := .of_root rfl rfl
  cases b with
  | loggedIn asker w status =>
    cases asker with
    | initial => exact awake_pushTo _
    | welcome =>
      cases status with
      | true =>
        have hshows := shows_showHome (p := { p with mainQueue }) w
        exact hof (htail.trans (livens_showHome w)) hshows.subset
          (fun _ hb => hshows.mainQueue ▸ hb) (by rintro _ _ ⟨⟩) (by rintro ⟨_, ⟨⟩⟩)
      | false =>
        exact hof (.of_root rfl rfl) (fun _ hx => hx) (List.subset_append_left _ _)
          (by rintro _ _ ⟨⟩) (by rintro ⟨_, ⟨⟩⟩)
  | registered w status =>
    have henable := redraws_enable (p := { p with mainQueue }) w
    have hlivens := htail.trans (livens_enable (p := { p with mainQueue }) w)
    have hnot : (∃ status', SessionBlock.registered w status = .registered p.window status') →
        ¬({ p with mainQueue : Phone }.enable w).Disabled := by
      rintro ⟨_, ⟨⟩⟩
      exact not_disabled_enable (p := { p with mainQueue })
    cases status with
    | true =>
      have hshows := shows_showHome (p := { p with mainQueue : Phone }.enable w) w
      refine hof (hlivens.trans (livens_showHome w)) ?_ ?_ (by rintro _ _ ⟨⟩)
        fun h hd => hnot h ((livens_showHome w).disabled hd)
      · exact fun x hx => hshows.subset (henable.shows.subset hx)
      · exact fun b hb => hshows.mainQueue ▸ henable.shows.mainQueue ▸ hb
    | false =>
      refine hof ⟨hlivens.initial, hlivens.disabled, hlivens.window⟩ ?_ ?_ (by rintro _ _ ⟨⟩)
        fun h hd => hnot h hd
      · exact henable.shows.subset
      · exact fun b hb => List.mem_append_left _ (henable.shows.mainQueue ▸ hb)
  | alert w =>
    have hdraw := redraws_present (p := { p with mainQueue }) w .alert
    exact hof (htail.trans (livens_present w .alert)) hdraw.shows.subset
      (fun _ hb => hdraw.shows.mainQueue ▸ hb) (by rintro _ _ ⟨⟩) (by rintro ⟨_, ⟨⟩⟩)
  | logOut =>
    cases signOut with
    | true => exact awake_pushTo .welcome
    | false =>
      exact hof htail (fun _ hx => hx) (fun _ hb => hb) (by rintro _ _ ⟨⟩) (by rintro ⟨_, ⟨⟩⟩)

theorem welcome?_eq_some_iff {v : Welcome} : p.welcome? = some v ↔ p.root = some (.welcome v) := by
  unfold welcome?
  split
  · rename_i hroot
    rw [hroot]
    simp
  · rename_i hroot
    exact iff_of_false (by simp) (hroot v)

theorem Step.awake {a : Action} (h : Step validURL D p a D' q) (hp : p.Awake) (hs : p.Sound D)
    (ha : ¬p.Abandons D a) : q.Awake := by
  cases h with
  | launch => exact awake_launch hs
  | login => exact hp.of_subset (.of_root rfl rfl) (List.subset_append_left _ _) fun _ hb => hb
  | register =>
    refine ⟨fun h => (by cases h), fun _ => .inl ⟨_, List.mem_append_right _
      (List.mem_singleton_self _), rfl, rfl⟩⟩
  | selectPic hv | dismiss hv =>
    rw [welcome?_eq_some_iff] at hv
    refine hp.of_subset ⟨fun h => (by cases h), ?_, rfl⟩ (fun _ hx => hx) fun _ hb => hb
    rintro ⟨v, hv', he⟩
    cases hv'
    exact ⟨_, hv, he⟩
  | proceedLogOut =>
    exact hp.of_subset (.of_root rfl rfl) (fun _ hx => hx) (List.subset_append_left _ _)
  | orphan hr => exact hp.of_eraseIdx hr (.inl rfl) (.of_root rfl rfl) rfl rfl
  | answer hr _ hres => exact hres.awake hp hr ha
  | runBlock hm => exact awake_run hp hm

end Phone

namespace Session

variable {validURL : String → Bool} {s t : Session} {as : List Action}

/-- No registration is abandoned. -/
def KeepsOn (s : Session) (a : Action) : Prop :=
  ¬(s.phones a.device).Abandons s.directory a.action

/-- An answer comes to one of the devices, or one of their blocks runs. -/
def Action.IsAnswer (ds : Finset Device) (a : Action) : Prop :=
  a.device ∈ ds ∧ a.action.isAnswer = true

theorem settles (ds : Finset Device) : (machine validURL).Settles (Action.IsAnswer ds) := by
  refine (Machine.settles_of_drops
    ((Phone.ranks.map fun rank phones => ds.sum fun d => rank (phones d)).map
      fun rank => rank ∘ Session.phones) ?_)
  rintro s a t ⟨hd, ha⟩ ht
  obtain ⟨hstep, hothers⟩ := step_cases ht
  exact ((hstep.drops ha).sum_finset (f := s.phones) (g := t.phones) hothers hd).map
    (f := Session.phones)

/-- At rest, devices wait for nothing. -/
theorem settled_iff {ds : Finset Device} : (machine validURL).Settled (Action.IsAnswer ds) s ↔
    ∀ d ∈ ds, (s.phones d).requests = [] ∧ (s.phones d).mainQueue = [] := by
  constructor
  · intro h d hd
    by_contra hne
    have hwaits : (s.phones d).requests ≠ [] ∨ (s.phones d).mainQueue ≠ [] := by tauto
    obtain ⟨a, ha, hstep⟩ : ∃ a, a.isAnswer = true ∧
        (s.phones d).step validURL s.directory a ≠ none := Phone.exists_step_answer hwaits
    obtain ⟨x, hx⟩ := Option.ne_none_iff_exists'.1 hstep
    have hnone := h ⟨d, a⟩ ⟨hd, ha⟩
    simp [machine, step, hx] at hnone
  · rintro h ⟨d, a⟩ ⟨hd, ha⟩
    obtain ⟨hr, hm⟩ := h d hd
    cases a with
    | answer | runBlock => simp [machine, step, Phone.step, hr, hm]
    | _ => cases ha

theorem awake_of_along (hC : (machine validURL).Along KeepsOn as)
    (h : (machine validURL).exec as = some s) (d : Device) : (s.phones d).Awake := by
  refine hC.invariant (I := fun s => ∀ d, (s.phones d).Awake) ?_ ?_ h d
  · exact fun d => ⟨by rintro ⟨⟩, by rintro ⟨_, ⟨⟩, _⟩⟩
  · intro s a t hr hs ha ht d
    obtain ⟨hstep, hothers⟩ := step_cases ht
    by_cases hd : d = a.device
    · subst hd
      exact hstep.awake (hs a.device) ((sound_of_reachable hr).phones a.device) ha
    · rw [hothers d hd]
      exact hs d

/-- The answers to any finite set of devices come to an end, from every state.
    In a run in which no registration is abandoned, a device at rest shows its
    conversations, or the welcome screen, and this takes input, once what it may
    present is dismissed. -/
theorem never_stuck (ds : Finset Device) (hC : (machine validURL).Along KeepsOn as)
    (h : (machine validURL).exec as = some s) :
    (machine validURL).Settles (Action.IsAnswer ds) ∧
      ((machine validURL).Settled (Action.IsAnswer ds) s → ∀ d ∈ ds, (s.phones d).root ≠ none →
        (s.phones d).home? ≠ none ∨
          ∃ presented, (s.phones d).root = some (.welcome { presented })) := by
  refine ⟨settles ds, fun hrest d hd hroot => ?_⟩
  obtain ⟨hr, hm⟩ := settled_iff.1 hrest d hd
  have hawake := awake_of_along hC h d
  obtain ⟨root, hroot⟩ := Option.ne_none_iff_exists'.1 hroot
  cases root with
  | initial =>
    rcases hawake.initial hroot with ⟨_, _, _, hx⟩ | ⟨_, _, hb⟩
    · rw [hr] at hx
      cases hx
    · rw [hm] at hb
      cases hb
  | home home => exact .inl (by simp [Phone.home?, hroot])
  | welcome v =>
    obtain ⟨enabled, presented⟩ := v
    cases enabled with
    | true => exact .inr ⟨presented, hroot⟩
    | false =>
      rcases hawake.welcome ⟨_, hroot, rfl⟩ with ⟨x, hx, _⟩ | ⟨_, hb⟩
      · rw [hr] at hx
        cases hx
      · rw [hm] at hb
        cases hb

/-- After a registration, the device is at rest. -/
theorem never_stuck_registration : ∃ s, (machine fun _ => true).exec registration = some s ∧
    (machine fun _ => true).Settled (Action.IsAnswer {0}) s ∧
    ((s.phones 0).home? ≠ none ∨
      ∃ presented, (s.phones 0).root = some (.welcome { presented })) := by
  have hok : ∀ {D : Directory} {p : Phone} {i w : ℕ} {r : Request} {a : Answer},
      p.requests[i]? = some ⟨some w, r⟩ → a ≠ .ok false → a ≠ .url none →
      (∀ withName email password profilePic,
        r = .createUser withName email password profilePic → profilePic.hasJPEG = true) →
      ¬p.Abandons D (.answer i a) := by
    rintro D p i w r a hr hok hurl hpic ⟨w', r', hr', h⟩
    cases hr.symm.trans hr'
    rcases h with ⟨_, h | h⟩ | ⟨_, _, _, _, _, rfl, _, _, hj⟩
    · exact hok h
    · exact hurl h
    · rw [hpic _ _ _ _ rfl] at hj
      cases hj
  have hC : (machine fun _ => true).Along KeepsOn registration := by
    refine Machine.along_iff_alongFrom.2 ?_
    refine .cons id rfl (.cons id rfl (.cons (hok rfl (by simp) (by simp) ?_) rfl ?_))
    · rintro _ _ _ _ ⟨⟩
      rfl
    · refine .cons (hok rfl (by simp) (by simp) (by rintro _ _ _ _ ⟨⟩)) rfl ?_
      refine .cons (hok rfl (by simp) (by simp) (by rintro _ _ _ _ ⟨⟩)) rfl ?_
      refine .cons (hok rfl (by simp) (by simp) (by rintro _ _ _ _ ⟨⟩)) rfl ?_
      refine .cons id rfl (.cons (hok rfl (by simp) (by simp) (by rintro _ _ _ _ ⟨⟩)) rfl ?_)
      exact .cons (hok rfl (by simp) (by simp) (by rintro _ _ _ _ ⟨⟩)) rfl trivial
  obtain ⟨s, hs, hr, hm, hroot⟩ : ∃ s, (machine fun _ => true).exec registration = some s ∧
      (s.phones 0).requests = [] ∧ (s.phones 0).mainQueue = [] ∧ (s.phones 0).root ≠ none :=
    ⟨_, rfl, by decide, by decide, by decide⟩
  have hrest : (machine fun _ => true).Settled (Action.IsAnswer {0}) s :=
    settled_iff.2 fun d hd => by rw [Finset.mem_singleton.1 hd]; exact ⟨hr, hm⟩
  exact ⟨s, hs, hrest, (never_stuck {0} hC hs).2 hrest 0 (Finset.mem_singleton_self 0) hroot⟩

end Session

end MagicChat
