import MagicChat.Session.Rest

/-!
# A registration, step by step

The machine of the sessions lets a registration wait for each of its answers.
When they come one after the other, to a device that waits for nothing else, the
registration does to the accounts, the saved login data and the welcome screen
what `WelcomeVC.register` says in one go (`exec_register`).
-/

namespace MagicChat

/-- The welcome screen, without what else can be presented there. -/
def Welcome.view (v : Welcome) : WelcomeVC where
  isUserInteractionEnabled := v.isUserInteractionEnabled
  home := match v.presented with
    | some (.home _) => true
    | _ => false
  alert := v.presented = some .alert

/-- The answers, in the order of the steps. -/
def RegisterAnswers.toList (o : RegisterAnswers) : List Answer :=
  [.uid o.createUser, .ok o.putData, .url o.downloadURL, .ok o.updateChildValues]

namespace Phone

variable (validURL : String → Bool)

/-- Take the actions in turn. -/
def exec (x : Directory × Phone) (as : List Action) : Option (Directory × Phone) :=
  as.foldlM (fun x a => x.2.step validURL x.1 a) x

/-- The saved login data. -/
def saved (p : Phone) : Option (String × String) := do
  let info ← p.userInformation
  let email ← (info.lookup "email").bind Field.asString
  let password ← (info.lookup "password").bind Field.asString
  some (email, password)

variable {validURL} {D : Directory} {p : Phone}

@[simp] theorem exec_nil (x : Directory × Phone) : exec validURL x [] = some x := rfl

@[simp] theorem exec_cons (x : Directory × Phone) (a : Action) (as : List Action) :
    exec validURL x (a :: as) = (x.2.step validURL x.1 a).bind fun y => exec validURL y as := rfl

@[simp] theorem saved_userInfo {email password : String}
    (h : p.userInformation = some (userInfo email password)) :
    p.saved = some (email, password) := by
  rw [saved, h]
  rfl

theorem exec_answer {w : ℕ} {r : Request} {a : Answer} {D' : Directory} {q : Phone}
    {as : List Action} (hr : p.requests = [⟨some w, r⟩]) (hD : D.answer r a = some D')
    (hq : { p with requests := [] : Phone }.resume validURL D w r a = q) :
    exec validURL (D, p) (.answer 0 a :: as) = exec validURL (D', q) as := by
  simp [step, hr, hD, hq]

theorem exec_runBlock {b : SessionBlock} {signOut : Bool} {q : Phone} {as : List Action}
    (hm : p.mainQueue = [b]) (hq : { p with mainQueue := [] : Phone }.run signOut b = q) :
    exec validURL (D, p) (.runBlock signOut :: as) = exec validURL (D, q) as := by
  simp [step, hm, hq]

/-- A device that waits for the request `r` of a registration, or for the block `b`. -/
def registering (p : Phone) (r : Option Request) (b : Option SessionBlock) : Phone :=
  { p with
    root := some (.welcome { isUserInteractionEnabled := false })
    requests := r.toList.map fun r => { window := some p.window, request := r }
    mainQueue := b.toList }

theorem exec_register_cons {v : Welcome} {withName email password : String} {profilePic : UIImage}
    {as : List Action} (hv : p.welcome? = some v) (hin : v.TakesInput) (hr : p.requests = [])
    (hm : p.mainQueue = []) :
    exec validURL (D, p) (.register withName email password profilePic :: as) =
      exec validURL (D, p.registering (some (.createUser withName email password profilePic)) none)
        as := by
  simp [step, hv, hin, register, ask, registering, hr, hm]

theorem answer_createUser {withName email password : String} {profilePic : UIImage} {uid : UserID}
    (hfresh : uid ∉ D.issued) (hnone : D.accounts email = none) :
    D.answer (.createUser withName email password profilePic) (.uid (some uid)) =
      some (D.withAccount email password uid) := by
  simp only [Directory.answer, Option.any_some, decide_eq_true_eq, if_neg hfresh,
    Directory.createUser_of_accepted hnone]
  rfl

/-! ## The ways a registration goes -/

section Register

variable {v : Welcome} {withName email password : String} {profilePic : UIImage}
  {o : RegisterAnswers} {uid : UserID}

/-- The account is refused, and an alert shown. -/
theorem exec_refused (hv : p.welcome? = some v) (hin : v.TakesInput) (hr : p.requests = [])
    (hm : p.mainQueue = []) (hfresh : ∀ uid, o.createUser = some uid → uid ∉ D.issued)
    (hrefused : o.createUser = none ∨ D.accounts email ≠ none) :
    exec validURL (D, p) [.register withName email password profilePic,
        .answer 0 (.uid o.createUser), .runBlock true, .runBlock true] =
      some (D, { p with
        root := some (.welcome { presented := some .alert })
        requests := []
        mainQueue := [] }) := by
  have hcreate : (D.view none).createUser email password o.createUser = none :=
    Accounts.createUser_of_refused hrefused
  have hany : ¬o.createUser.any (· ∈ D.issued) = true := by
    simpa [Option.any_eq_true] using hfresh
  have hanswer : D.answer (.createUser withName email password profilePic)
      (.uid o.createUser) = some D := by
    simp only [Directory.answer, if_neg hany, hcreate]
  have hresume : { p.registering (some (.createUser withName email password profilePic)) none
      with requests := [] : Phone }.resume validURL D p.window
        (.createUser withName email password profilePic) (.uid o.createUser) =
      p.registering none (some (.registered p.window false)) := by
    simp [resume, hcreate, registering, async]
  have hrun : { p.registering none (some (.registered p.window false)) with
      mainQueue := [] : Phone }.run true (.registered p.window false) =
      { p with root := some (.welcome {}), requests := [], mainQueue := [.alert p.window] } := by
    simp [run, enable, registering, async]
  rw [exec_register_cons hv hin hr hm, exec_answer rfl hanswer hresume, exec_runBlock rfl hrun,
    exec_runBlock rfl rfl]
  simp [run, present]

/-- The account is created: whoever registers is signed in, and the picture is
    being stored, if it has a JPEG representation. -/
theorem exec_created (hv : p.welcome? = some v) (hin : v.TakesInput) (hr : p.requests = [])
    (hm : p.mainQueue = []) (hfresh : uid ∉ D.issued) (hnone : D.accounts email = none)
    (as : List Action) :
    exec validURL (D, p)
        (.register withName email password profilePic :: .answer 0 (.uid (some uid)) :: as) =
      exec validURL (D.withAccount email password uid,
        { p with currentUser := some uid : Phone }.registering (if profilePic.hasJPEG then
          some (.putData uid withName email password) else none) none) as := by
  have hcreate : (D.view none).createUser email password (some uid) =
      some ((D.view none).withAccount email password uid, uid) :=
    Directory.createUser_of_accepted hnone
  rw [exec_register_cons hv hin hr hm]
  refine exec_answer rfl (answer_createUser hfresh hnone) ?_
  by_cases hj : profilePic.hasJPEG = true <;>
    simp [resume, hcreate, registering, ask, hj]

/-- A registration with an account that does not succeed is abandoned: the screen
    stays disabled. -/
theorem exists_exec_abandoned (hv : p.welcome? = some v) (hin : v.TakesInput)
    (hr : p.requests = []) (hm : p.mainQueue = []) (huid : o.createUser = some uid)
    (hfresh : uid ∉ D.issued) (hnone : D.accounts email = none) (hfail : ¬o.Succeeds profilePic) :
    ∃ n, exec validURL (D, p) (.register withName email password profilePic ::
        (o.toList.take n).map (.answer 0 ·)) = some (D.withAccount email password uid,
          { p with currentUser := some uid : Phone }.registering none none) := by
  by_cases hj : profilePic.hasJPEG = true
  · by_cases hput : o.putData = true
    · cases hpath : o.downloadURL with
      | none =>
        refine ⟨3, ?_⟩
        simp only [RegisterAnswers.toList, huid, hput, hpath, List.take_succ_cons, List.take_zero,
          List.map_cons, List.map_nil]
        rw [exec_created hv hin hr hm hfresh hnone, if_pos hj, exec_answer rfl rfl rfl,
          exec_answer rfl rfl rfl]
        rfl
      | some path =>
        have hwrite : o.updateChildValues = false := by
          by_contra hne
          exact hfail ⟨hj, hput, by rw [hpath]; rfl, by simpa using hne⟩
        refine ⟨4, ?_⟩
        simp only [RegisterAnswers.toList, huid, hput, hpath, hwrite, List.take_succ_cons,
          List.take_zero, List.map_cons, List.map_nil]
        rw [exec_created hv hin hr hm hfresh hnone, if_pos hj, exec_answer rfl rfl rfl,
          exec_answer rfl rfl rfl, exec_answer rfl rfl rfl]
        rfl
    · refine ⟨2, ?_⟩
      simp only [RegisterAnswers.toList, huid, Bool.eq_false_iff.2 hput, List.take_succ_cons,
        List.take_zero, List.map_cons, List.map_nil]
      rw [exec_created hv hin hr hm hfresh hnone, if_pos hj, exec_answer rfl rfl rfl]
      rfl
  · refine ⟨1, ?_⟩
    simp only [RegisterAnswers.toList, huid, List.take_succ_cons, List.take_zero, List.map_cons,
      List.map_nil]
    rw [exec_created hv hin hr hm hfresh hnone, if_neg hj]
    rfl

/-- A registration that succeeds shows the conversations. -/
theorem exec_succeeds {path : String} (hv : p.welcome? = some v) (hin : v.TakesInput)
    (hr : p.requests = []) (hm : p.mainQueue = []) (hfresh : uid ∉ D.issued)
    (hnone : D.accounts email = none) (hj : profilePic.hasJPEG = true) :
    exec validURL (D, p) [.register withName email password profilePic,
        .answer 0 (.uid (some uid)), .answer 0 (.ok true), .answer 0 (.url (some path)),
        .answer 0 (.ok true), .runBlock true] =
      some ((D.withAccount email password uid).withCredentials uid withName email path,
        { p with
          userInformation := some (userInfo email password)
          currentUser := some uid
          root := some (.welcome { presented := some (.home { currentUserID := some uid }) })
          requests := [{ window := some p.window, request := .info uid }]
          mainQueue := [] }) := by
  rw [exec_created hv hin hr hm hfresh hnone, if_pos hj, exec_answer rfl rfl rfl,
    exec_answer rfl rfl rfl, exec_answer rfl rfl rfl, exec_runBlock rfl rfl]
  simp [run, enable, showHome, homeDidLoad, registering, ask, resume, async,
    Directory.withCredentials]

end Register

/-- A registration whose answers `o` come one after the other, until none of it is
    left to be done, to a device that waits for nothing else. -/
theorem exec_register {v : Welcome} (hv : p.welcome? = some v) (hin : v.TakesInput)
    (hr : p.requests = []) (hm : p.mainQueue = []) (withName email password : String)
    (profilePic : UIImage) (o : RegisterAnswers)
    (hfresh : ∀ uid, o.createUser = some uid → uid ∉ D.issued) :
    ∃ n k D' q, exec validURL (D, p) (.register withName email password profilePic ::
        ((o.toList.take n).map (.answer 0 ·) ++ List.replicate k (.runBlock true))) =
          some (D', q) ∧
      q.mainQueue = [] ∧ (∀ x ∈ q.requests, ∃ id, x.request = .info id) ∧
      q.welcome?.map Welcome.view =
        some (v.view.register (D.view p.saved) withName email password profilePic o).1 ∧
      D'.view q.saved =
        (v.view.register (D.view p.saved) withName email password profilePic o).2 := by
  obtain ⟨enabled, presented⟩ := v
  obtain ⟨rfl, rfl⟩ : enabled = true ∧ presented = none := hin
  by_cases hrefused : o.createUser = none ∨ D.accounts email ≠ none
  · refine ⟨1, 2, _, _, exec_refused hv ⟨rfl, rfl⟩ hr hm hfresh hrefused, rfl, by simp, ?_⟩
    rw [WelcomeVC.register, Accounts.registerUser_of_refused hrefused]
    exact ⟨rfl, rfl⟩
  · rw [not_or, not_not] at hrefused
    obtain ⟨hsome, hnone⟩ := hrefused
    obtain ⟨uid, huid⟩ := Option.ne_none_iff_exists'.1 hsome
    by_cases hsucc : o.Succeeds profilePic
    · obtain ⟨hj, hput, hlink, hwrite⟩ := hsucc
      obtain ⟨path, hpath⟩ := Option.isSome_iff_exists.1 hlink
      have hanswers : o.toList = [.uid (some uid), .ok true, .url (some path), .ok true] := by
        rw [RegisterAnswers.toList, huid, hput, hpath, hwrite]
      have hcreate : (D.view p.saved).createUser email password o.createUser =
          some ((D.view p.saved).withAccount email password uid, uid) :=
        Accounts.createUser_of_accepted huid hnone
      refine ⟨4, 1, ?_⟩
      rw [hanswers]
      refine ⟨_, _, exec_succeeds hv ⟨rfl, rfl⟩ hr hm (hfresh uid huid) hnone hj, rfl, ?_, ?_⟩
      · -- Only the profile is asked for.
        simp
      · simp only [WelcomeVC.register, Accounts.registerUser, hcreate, hj, hput, hpath, hwrite,
          and_self, if_true]
        exact ⟨rfl, rfl⟩
    · obtain ⟨n, hexec⟩ := exists_exec_abandoned hv ⟨rfl, rfl⟩ hr hm huid (hfresh uid huid) hnone
        hsucc
      refine ⟨n, 0, ?_⟩
      rw [List.replicate_zero, List.append_nil]
      refine ⟨_, _, hexec, rfl, by simp [registering], ?_⟩
      rw [WelcomeVC.register, Accounts.registerUser_of_abandoned huid hnone hsucc]
      exact ⟨rfl, rfl⟩

/-- On a device that has just been launched, all goes well, and then the profile is
    asked for; or the picture cannot be stored, and nothing is left to be done. -/
theorem exec_register_allAccepted :
    (∃ n k D' q, exec (fun _ => true) (⟨fun _ => none, fun _ => none, []⟩, ({} : Phone).launch)
      (.register "U" "u@mail" "secret" ⟨0, true⟩ ::
        ((Accounts.allAccepted.toList.take n).map (.answer 0 ·) ++
          List.replicate k (.runBlock true))) = some (D', q) ∧
      q.mainQueue = [] ∧ (∀ x ∈ q.requests, ∃ id, x.request = .info id) ∧
      q.welcome?.map Welcome.view = some { home := true } ∧
      D'.view q.saved = (Accounts.nobody.registerUser "U" "u@mail" "secret" ⟨0, true⟩
        Accounts.allAccepted).1) ∧
    ∃ n k D' q, exec (fun _ => true) (⟨fun _ => none, fun _ => none, []⟩, ({} : Phone).launch)
      (.register "U" "u@mail" "secret" ⟨0, true⟩ ::
        (({ Accounts.allAccepted with putData := false }.toList.take n).map (.answer 0 ·) ++
          List.replicate k (.runBlock true))) = some (D', q) ∧
      q.mainQueue = [] ∧ (∀ x ∈ q.requests, ∃ id, x.request = .info id) ∧
      q.welcome?.map Welcome.view = some { isUserInteractionEnabled := false } := by
  have hregister := fun o => @exec_register (fun _ => true) ⟨fun _ => none, fun _ => none, []⟩
    ({} : Phone).launch {} rfl ⟨rfl, rfl⟩ rfl rfl "U" "u@mail" "secret" ⟨0, true⟩ o
    fun _ _ => List.not_mem_nil
  obtain ⟨n, k, D', q, hexec, hqueue, hrequests, hscreen, haccounts⟩ :=
    hregister Accounts.allAccepted
  obtain ⟨n', k', D'', q', hexec', hqueue', hrequests', hscreen', _⟩ :=
    hregister { Accounts.allAccepted with putData := false }
  exact ⟨⟨n, k, D', q, hexec, hqueue, hrequests, hscreen.trans (by decide), haccounts⟩,
    n', k', D'', q', hexec', hqueue', hrequests', hscreen'.trans (by decide)⟩

end Phone

end MagicChat
