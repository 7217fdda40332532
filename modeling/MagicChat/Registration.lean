import MagicChat.Message

/-!
# Registration

`UserRemoteRepository.registerUser` creates an account, stores the picture of
the user, fetches the link to it, and writes the credentials of the user; only
then does it save the login data and report success. A refused account is
reported; all that fails later is not, and the account stays.

So a registration is all or nothing (`AllOrNothing`) if and only if there was no
account for the address, and the account is refused all the same or all that
follows succeeds (`allOrNothing_iff`).
-/

namespace MagicChat

/-- An account of the authentication service. -/
structure Account where
  uid : UserID
  password : String
  deriving DecidableEq

/-- What the program knows of its users, and a device of its user. -/
structure Accounts where
  /-- The accounts of the authentication service, by their addresses. -/
  accounts : String → Option Account
  /-- The nodes `users/x/credentials`. -/
  credentials : UserID → Option Value
  /-- `UserDefaults`, under `userInformation`: an address and a password. -/
  userInformation : Option (String × String)

/-- How the remote steps of a registration end. -/
structure RegisterAnswers where
  /-- The identifier of the new account, or an error. -/
  createUser : Option UserID
  /-- The picture is stored. -/
  putData : Bool
  /-- The link to the picture. -/
  downloadURL : Option String
  /-- The credentials are written. -/
  updateChildValues : Bool
  deriving DecidableEq

/-- All that follows the creation of the account succeeds. -/
def RegisterAnswers.Succeeds (o : RegisterAnswers) (profilePic : UIImage) : Prop :=
  profilePic.hasJPEG = true ∧ o.putData = true ∧ o.downloadURL.isSome ∧ o.updateChildValues = true

instance (o : RegisterAnswers) (profilePic : UIImage) : Decidable (o.Succeeds profilePic) :=
  inferInstanceAs (Decidable (_ ∧ _ ∧ _ ∧ _))

namespace Accounts

variable (s : Accounts)

/-- `createUser(withEmail:password:)`: it fails for an address that has an account. -/
def createUser (email password : String) (answer : Option UserID) : Option (Accounts × UserID) :=
  match answer, s.accounts email with
  | some uid, none =>
    some ({ s with accounts := Function.update s.accounts email (some { uid, password }) }, uid)
  | _, _ => none

/-- `signIn(withEmail:password:)`. -/
def signIn (email password : String) : Bool :=
  (s.accounts email).any fun account => account.password = password

/-- `registerUser(withName:email:password:profilePic:)`, with the completions it calls. -/
def registerUser (withName email password : String) (profilePic : UIImage) (o : RegisterAnswers) :
    Accounts × List Bool :=
  match s.createUser email password o.createUser with
  | none => (s, [false])
  | some (s, userUid) =>
    if profilePic.hasJPEG ∧ o.putData then
      match o.downloadURL with
      | some path =>
        let values := [("name", .string withName), ("email", .string email),
          ("profilePicLink", .string path)]
        if o.updateChildValues then
          ({ s with
            credentials := Function.update s.credentials userUid
              (some (Value.updateChildValues (s.credentials userUid) values))
            userInformation := some (email, password) }, [true])
        -- From here on, a failure leaves the closure without calling the completion.
        else (s, [])
      | none => (s, [])
    else (s, [])

/-- `loginUser(email:password:)`, with the completion it calls. -/
def loginUser (email password : String) : Accounts × Bool :=
  if s.signIn email password then ({ s with userInformation := some (email, password) }, true)
  else (s, false)

end Accounts

/-- The screen of the registration. -/
structure WelcomeVC where
  isUserInteractionEnabled : Bool := true
  /-- `homeNavigation` is shown. -/
  home : Bool := false
  /-- An error is shown. -/
  alert : Bool := false
  deriving DecidableEq

namespace WelcomeVC

/-- The completion of `registerUser`, in `register`. -/
def registered (v : WelcomeVC) (status : Bool) : WelcomeVC :=
  if status then { v with isUserInteractionEnabled := true, home := true }
  else { v with isUserInteractionEnabled := true, alert := true }

/-- `register(_:)`, with what becomes of the accounts. -/
def register (v : WelcomeVC) (s : Accounts) (withName email password : String)
    (profilePic : UIImage) (o : RegisterAnswers) : WelcomeVC × Accounts :=
  let r := s.registerUser withName email password profilePic o
  (r.2.foldl registered { v with isUserInteractionEnabled := false }, r.1)

end WelcomeVC

namespace Accounts

/-- The credentials of the user hold the name, the address and the link, and the
    login data is saved. -/
def Registered (s : Accounts) (uid : UserID) (withName email password path : String) : Prop :=
  (∃ node, s.credentials uid = some node ∧ node.field "name" = some (.string withName) ∧
    node.field "email" = some (.string email) ∧
    node.field "profilePicLink" = some (.string path)) ∧
  s.userInformation = some (email, password)

/-- A registration from `s` is all or nothing: it answers once, so that the
    screen takes input again; it reports success if and only if the user is
    registered; and otherwise no account for the address remains. -/
structure AllOrNothing (s : Accounts) (v : WelcomeVC) (withName email password : String)
    (profilePic : UIImage) (o : RegisterAnswers) : Prop where
  once : ∃ status, (s.registerUser withName email password profilePic o).2 = [status]
  enabled : (v.register s withName email password profilePic o).1.isUserInteractionEnabled = true
  truthful : (s.registerUser withName email password profilePic o).2 = [true] ↔
    ∃ uid path, o.createUser = some uid ∧ o.downloadURL = some path ∧
      (s.registerUser withName email password profilePic o).1.Registered uid withName email
        password path
  nothing : (s.registerUser withName email password profilePic o).2 ≠ [true] →
    (s.registerUser withName email password profilePic o).1.accounts email = none

variable {s : Accounts} {withName email password : String} {profilePic : UIImage}
  {o : RegisterAnswers}

/-! ## The accounts -/

theorem createUser_of_refused (h : o.createUser = none ∨ s.accounts email ≠ none) :
    s.createUser email password o.createUser = none := by
  unfold createUser
  rcases h with h | h
  · rw [h]
  · obtain ⟨account, ha⟩ := Option.ne_none_iff_exists'.1 h
    rw [ha]
    cases o.createUser <;> rfl

/-- The accounts with a new one. -/
def withAccount (s : Accounts) (email password : String) (uid : UserID) : Accounts :=
  { s with accounts := Function.update s.accounts email (some { uid, password }) }

theorem createUser_of_accepted {uid : UserID} (h : o.createUser = some uid)
    (hs : s.accounts email = none) :
    s.createUser email password o.createUser = some (s.withAccount email password uid, uid) := by
  unfold createUser
  rw [h, hs]
  rfl

/-! ## The ways a registration ends -/

theorem registerUser_of_refused (h : o.createUser = none ∨ s.accounts email ≠ none) :
    s.registerUser withName email password profilePic o = (s, [false]) := by
  rw [registerUser, createUser_of_refused h]

/-- A failure after the creation of the account is not reported, and the account stays. -/
theorem registerUser_of_abandoned {uid : UserID} (h : o.createUser = some uid)
    (hs : s.accounts email = none) (hfail : ¬o.Succeeds profilePic) :
    s.registerUser withName email password profilePic o =
      (s.withAccount email password uid, []) := by
  rw [registerUser, createUser_of_accepted h hs]
  by_cases hstored : profilePic.hasJPEG = true ∧ o.putData = true
  · simp only [if_pos hstored]
    cases hpath : o.downloadURL with
    | none => rfl
    | some path =>
      have hwrite : o.updateChildValues ≠ true := fun hwrite =>
        hfail ⟨hstored.1, hstored.2, by rw [hpath]; rfl, hwrite⟩
      simp only [if_neg hwrite]
  · simp only [if_neg hstored]

theorem registerUser_of_succeeds {uid : UserID} (h : o.createUser = some uid)
    (hs : s.accounts email = none) (hsucc : o.Succeeds profilePic) :
    (s.registerUser withName email password profilePic o).2 = [true] ∧
      ∃ path, o.downloadURL = some path ∧
        (s.registerUser withName email password profilePic o).1.Registered uid withName email
          password path := by
  obtain ⟨hjpeg, hput, hlink, hwrite⟩ := hsucc
  obtain ⟨path, hpath⟩ := Option.isSome_iff_exists.1 hlink
  rw [registerUser, createUser_of_accepted h hs]
  simp only [hjpeg, hput, hpath, hwrite, and_self, if_true]
  refine ⟨trivial, path, rfl, ⟨_, Function.update_self .., ?_, ?_, ?_⟩, rfl⟩
  all_goals simp [Value.updateChildValues, Keyed.setAll, Keyed.lookup_set]

/-- After a failure that is not reported, the account is there for a login, and
    the registration cannot be retried. -/
theorem abandoned {uid : UserID} (h : o.createUser = some uid) (hs : s.accounts email = none)
    (hfail : ¬o.Succeeds profilePic) (o' : RegisterAnswers) :
    ((s.registerUser withName email password profilePic o).1.loginUser email password).2 = true ∧
      ((s.registerUser withName email password profilePic o).1.registerUser withName email password
        profilePic o').2 = [false] := by
  rw [registerUser_of_abandoned h hs hfail]
  have haccount : (s.withAccount email password uid).accounts email = some { uid, password } :=
    Function.update_self ..
  constructor
  · rw [loginUser, if_pos (by simp [signIn, haccount])]
  · rw [registerUser_of_refused (.inr (by simp [haccount]))]

/-- A registration is all or nothing if and only if there was no account for the
    address, and its creation fails or all that follows it succeeds. -/
theorem allOrNothing_iff (s : Accounts) (v : WelcomeVC) (withName email password : String)
    (profilePic : UIImage) (o : RegisterAnswers) :
    s.AllOrNothing v withName email password profilePic o ↔
      s.accounts email = none ∧ (o.createUser = none ∨ o.Succeeds profilePic) := by
  by_cases hrefused : o.createUser = none ∨ s.accounts email ≠ none
  · -- The account is refused, and the refusal reported.
    have hr : s.registerUser withName email password profilePic o = (s, [false]) :=
      registerUser_of_refused hrefused
    constructor
    · intro h
      have hs : s.accounts email = none := by
        have hnothing := h.nothing
        rw [hr] at hnothing
        exact hnothing (by simp)
      exact ⟨hs, .inl (hrefused.resolve_right fun hne => hne hs)⟩
    · rintro ⟨hs, _⟩
      have hnone : o.createUser = none := hrefused.resolve_right fun hne => hne hs
      refine ⟨⟨false, by rw [hr]⟩, by simp [WelcomeVC.register, hr, WelcomeVC.registered], ?_, ?_⟩
      · rw [hr, hnone]
        simp
      · rw [hr]
        exact fun _ => hs
  · obtain ⟨hsome, hs⟩ := not_or.1 hrefused
    rw [not_not] at hs
    obtain ⟨uid, huid⟩ := Option.ne_none_iff_exists'.1 hsome
    rw [and_iff_right hs, or_iff_right hsome]
    constructor
    · intro h
      by_contra hfail
      obtain ⟨status, hstatus⟩ := h.once
      rw [registerUser_of_abandoned huid hs hfail] at hstatus
      simp at hstatus
    · intro hsucc
      obtain ⟨htrue, path, hpath, hregistered⟩ :=
        registerUser_of_succeeds (s := s) huid hs hsucc
      exact ⟨⟨true, htrue⟩, by simp [WelcomeVC.register, htrue, WelcomeVC.registered],
        iff_of_true htrue ⟨uid, path, huid, hpath, hregistered⟩, fun hne => absurd htrue hne⟩

/-- Nobody has registered yet. -/
def nobody : Accounts where
  accounts _ := none
  credentials _ := none
  userInformation := none

/-- All goes well. -/
def allAccepted : RegisterAnswers :=
  { createUser := some "u", putData := true, downloadURL := some "link", updateChildValues := true }

/-- A picture without a JPEG representation: the registration does not answer, the
    screen takes no input, and the account without credentials stays, for a login
    but not for another try. -/
theorem not_allOrNothing_nobody :
    ¬nobody.AllOrNothing {} "U" "u@mail" "secret" ⟨0, false⟩ allAccepted ∧
      (nobody.registerUser "U" "u@mail" "secret" ⟨0, false⟩ allAccepted).2 = [] ∧
      (nobody.registerUser "U" "u@mail" "secret" ⟨0, false⟩ allAccepted).1.accounts "u@mail" =
        some ⟨"u", "secret"⟩ ∧
      (nobody.registerUser "U" "u@mail" "secret" ⟨0, false⟩ allAccepted).1.credentials "u" =
        none := by
  have hnone : (nobody.registerUser "U" "u@mail" "secret" ⟨0, false⟩ allAccepted).2 = [] := by
    decide
  refine ⟨fun h => ?_, hnone, by decide, by decide⟩
  obtain ⟨status, hstatus⟩ := h.once
  rw [hnone] at hstatus
  cases hstatus

end Accounts

end MagicChat
