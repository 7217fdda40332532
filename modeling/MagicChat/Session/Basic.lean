import MagicChat.Library.Machine
import MagicChat.Registration

/-!
# Sessions

Which user a device belongs to, and what it shows before there is one: the
calls of `UserRemoteRepository` as a machine, with the screens that make them.
Any number of devices share the accounts and the credentials (`Directory`).

* `InitialViewController` comes first whenever the program is launched. It logs
  in with the saved login data, or goes to the welcome screen if there is none.
* `WelcomeVC` logs in and registers. It takes input while a login is under way,
  but not while a registration is; whatever it has to show waits for nothing
  else, and is lost if something is presented already.
* `ConversationsVC` shows who is signed in, asks for the profile, and logs out
  when the user taps so in the profile that has come.

A completion leaves a block on the main queue, and other things can happen
before it runs. A screen is known by the number of its window: what is left to
be done for a screen whose window has been replaced shows nowhere. When the
program is launched again, nothing of the calls before remains but what they
have asked the services for.
-/

namespace MagicChat

/-- A user, with the picture. -/
structure User where
  name : String
  email : String
  id : UserID
  profilePic : UIImage
  deriving DecidableEq

/-- `ConversationsVC`, as far as its user goes. -/
structure Home where
  /-- Who was signed in when it was loaded. -/
  currentUserID : Option UserID
  user : Option User := none
  deriving DecidableEq

/-- What can be presented on the welcome screen. -/
inductive Presented
  | alert
  /-- The choice of a picture, or of a source for it. -/
  | picker
  | home (h : Home)
  deriving DecidableEq

/-- `WelcomeVC`, with what it presents. -/
structure Welcome where
  isUserInteractionEnabled : Bool := true
  presented : Option Presented := none
  deriving DecidableEq

/-- The welcome screen can be tapped. -/
def Welcome.TakesInput (v : Welcome) : Prop :=
  v.isUserInteractionEnabled = true ∧ v.presented = none

instance (v : Welcome) : Decidable v.TakesInput := inferInstanceAs (Decidable (_ ∧ _))

inductive ViewControllerType
  | conversations
  | welcome

/-- The first screen of a window. -/
inductive Root
  | initial
  | welcome (v : Welcome)
  | home (h : Home)
  deriving DecidableEq

/-- Who logs in. -/
inductive Asker
  | initial
  | welcome
  deriving DecidableEq

/-- A call of `UserRepositoryProtocol`, by the remote service it waits for. -/
inductive Request
  /-- `loginUser`. -/
  | signIn (asker : Asker) (email password : String)
  /-- `registerUser`, in the order of its steps. -/
  | createUser (withName email password : String) (profilePic : UIImage)
  | putData (userUid : UserID) (withName email password : String)
  | downloadURL (userUid : UserID) (withName email password : String)
  | updateChildValues (userId : UserID) (withName email password path : String)
  /-- `info`: the credentials are being read, then the picture. -/
  | info (forUserID : UserID)
  | dataTask (forUserID : UserID) (name email : String)
  deriving DecidableEq

/-- A request, with the window of the screen that made it; `none` after another launch. -/
structure Pending where
  window : Option ℕ
  request : Request
  deriving DecidableEq

/-- An answer of a remote service. -/
inductive Answer
  | ok (ok : Bool)
  /-- The identifier of a new account, or an error. -/
  | uid (uid : Option UserID)
  | url (path : Option String)
  | snapshot
  /-- A picture, if one could be downloaded. -/
  | image (profilePic : Option UIImage)
  deriving DecidableEq

/-- A block on the main queue. -/
inductive SessionBlock
  /-- The completion of `loginUser`. -/
  | loggedIn (asker : Asker) (window : ℕ) (status : Bool)
  /-- The completion of `registerUser`. -/
  | registered (window : ℕ) (status : Bool)
  /-- `AlertUtility.showCustomDialog`. -/
  | alert (window : ℕ)
  /-- `ConversationsVC.logOut`. -/
  | logOut
  deriving DecidableEq

/-- What the devices share. -/
structure Directory where
  /-- The accounts of the authentication service, by their addresses. -/
  accounts : String → Option Account
  /-- The nodes `users/x/credentials`. -/
  credentials : UserID → Option Value
  /-- The identifiers given out so far. -/
  issued : List UserID

namespace Directory

variable (D : Directory)

/-- The directory, with the login data of a device. -/
def view (userInformation : Option (String × String)) : Accounts where
  accounts := D.accounts
  credentials := D.credentials
  userInformation := userInformation

/-- The directory after a request has been answered. A new identifier has not
    been given out before. -/
def answer : Request → Answer → Option Directory
  | .signIn .., .ok _ | .putData .., .ok _ | .downloadURL .., .url _ | .info _, .snapshot
  | .dataTask .., .image _ => some D
  | .createUser _ email password _, .uid uid =>
    if uid.any (· ∈ D.issued) then none
    else
      match (D.view none).createUser email password uid with
      | some (s, userUid) => some { D with accounts := s.accounts, issued := userUid :: D.issued }
      | none => some D
  | .updateChildValues userId withName email _ path, .ok ok =>
    let values := [("name", .string withName), ("email", .string email),
      ("profilePicLink", .string path)]
    some (if ok then { D with
      credentials := Function.update D.credentials userId
        (some (Value.updateChildValues (D.credentials userId) values)) } else D)
  | _, _ => none

end Directory

/-- `["email": email, "password": password]`. -/
def userInfo (email password : String) : Fields :=
  [("email", .string email), ("password", .string password)]

/-- A device. -/
structure Phone where
  /-- `UserDefaults`, under `userInformation`. -/
  userInformation : Option Fields := none
  /-- `Auth.auth().currentUser`. -/
  currentUser : Option UserID := none
  /-- The number of the window shown. -/
  window : ℕ := 0
  /-- What it shows; `none` before the program has been launched. -/
  root : Option Root := none
  requests : List Pending := []
  mainQueue : List SessionBlock := []

namespace Phone

variable (p : Phone)

/-- The welcome screen shown, if it is. -/
def welcome? : Option Welcome :=
  match p.root with
  | some (.welcome v) => some v
  | _ => none

/-- The list of conversations shown, if it is. -/
def home? : Option Home :=
  match p.root with
  | some (.home h) => some h
  | some (.welcome { presented := some (.home h), .. }) => some h
  | _ => none

/-- Ask a remote service, for a screen of the window `w`. -/
def ask (w : ℕ) (r : Request) : Phone :=
  { p with requests := p.requests ++ [{ window := some w, request := r }] }

/-- `DispatchQueue.main.async`. -/
def async (b : SessionBlock) : Phone := { p with mainQueue := p.mainQueue ++ [b] }

/-! ## The screens -/

/-- `ConversationsVC.viewDidLoad`: whoever is signed in is asked for. -/
def homeDidLoad : Phone :=
  match p.currentUser with
  | some id => p.ask p.window (.info id)
  | none => p

/-- `pushTo(viewController:)`, in a new window. -/
def pushTo : ViewControllerType → Phone
  | .conversations =>
    { p with
      window := p.window + 1
      root := some (.home { currentUserID := p.currentUser }) : Phone }.homeDidLoad
  | .welcome => { p with window := p.window + 1, root := some (.welcome {}) }

/-- `present`, on the welcome screen of the window `w`. -/
def present (w : ℕ) (x : Presented) : Phone :=
  match p.root with
  | some (.welcome { isUserInteractionEnabled, presented := none }) =>
    if w = p.window then
      { p with root := some (.welcome { isUserInteractionEnabled, presented := some x }) }
    else p
  | _ => p

/-- `show` of `homeNavigation`, on the welcome screen of the window `w`. -/
def showHome (w : ℕ) : Phone :=
  match p.root with
  | some (.welcome { isUserInteractionEnabled, presented := none }) =>
    if w = p.window then
      { p with
        root := some (.welcome
          { isUserInteractionEnabled
            presented := some (.home { currentUserID := p.currentUser }) }) : Phone }.homeDidLoad
    else p
  | _ => p

/-- `isUserInteractionEnabled = true`, on the welcome screen of the window `w`. -/
def enable (w : ℕ) : Phone :=
  match p.root with
  | some (.welcome { presented, .. }) =>
    if w = p.window then { p with root := some (.welcome { presented }) } else p
  | _ => p

/-- The completion of `info`, in `customization`. -/
def setUser (w : ℕ) (user : User) : Phone :=
  if w = p.window then
    match p.root with
    | some (.home { currentUserID, .. }) =>
      { p with root := some (.home { currentUserID, user := some user }) }
    | some (.welcome
        { isUserInteractionEnabled, presented := some (.home { currentUserID, .. }) }) =>
      { p with
        root := some (.welcome
          { isUserInteractionEnabled
            presented := some (.home { currentUserID, user := some user }) }) }
    | _ => p
  else p

/-! ## What the user does -/

/-- `InitialViewController.viewDidLoad`. -/
def initialDidLoad : Phone :=
  match p.userInformation with
  | some userInformation =>
    match (userInformation.lookup "email").bind Field.asString,
      (userInformation.lookup "password").bind Field.asString with
    | some email, some password => p.ask p.window (.signIn .initial email password)
    | _, _ => p
  | none => p.pushTo .welcome

/-- The program is launched, for the first time or again. -/
def launch : Phone :=
  { p with
    window := p.window + 1
    root := some .initial
    requests := p.requests.map fun r => { r with window := none }
    mainQueue := [] : Phone }.initialDidLoad

/-- `WelcomeVC.login(_:)`. -/
def login (email password : String) : Phone := p.ask p.window (.signIn .welcome email password)

/-- `WelcomeVC.register(_:)`. -/
def register (withName email password : String) (profilePic : UIImage) : Phone :=
  { p with
    root := some (.welcome { isUserInteractionEnabled := false }) : Phone }.ask p.window
      (.createUser withName email password profilePic)

/-! ## What comes back -/

/-- The credentials that `info` reads: name, address and link. -/
def profile (credentials : Option Value) : Option (String × String × String) := do
  let data ← (← credentials).asStrings
  let name ← data.lookup "name"
  let email ← data.lookup "email"
  let pictureLink ← data.lookup "profilePicLink"
  some (name, email, pictureLink)

/-- A closure of `UserRemoteRepository` is called with an answer, for a screen of
    the window `w`. The directory is that before the answer. -/
def resume (validURL : String → Bool) (D : Directory) (w : ℕ) : Request → Answer → Phone
  | .signIn asker email password, .ok ok =>
    if ok ∧ (D.view none).signIn email password then
      { p with
        userInformation := some (userInfo email password)
        currentUser := (D.accounts email).map Account.uid : Phone }.async (.loggedIn asker w true)
    else p.async (.loggedIn asker w false)
  | .createUser withName email password profilePic, .uid uid =>
    match (D.view none).createUser email password uid with
    | some (_, userUid) =>
      let p := { p with currentUser := some userUid : Phone }
      if profilePic.hasJPEG then p.ask w (.putData userUid withName email password) else p
    | none => p.async (.registered w false)
  | .putData userUid withName email password, .ok true =>
    p.ask w (.downloadURL userUid withName email password)
  | .downloadURL userUid withName email password, .url (some path) =>
    p.ask w (.updateChildValues userUid withName email password path)
  | .updateChildValues _ _ email password _, .ok true =>
    { p with userInformation := some (userInfo email password) : Phone }.async (.registered w true)
  | .info forUserID, .snapshot =>
    match profile (D.credentials forUserID) with
    | some (name, email, pictureLink) =>
      if validURL pictureLink then p.ask w (.dataTask forUserID name email) else p
    | none => p
  | .dataTask forUserID name email, .image (some profilePic) =>
    p.setUser w { name, email, id := forUserID, profilePic }
  -- All other failures leave their closures without a word.
  | _, _ => p

/-- Run a block; `signOut` tells whether the user can be signed out. -/
def run (signOut : Bool) : SessionBlock → Phone
  | .loggedIn .initial _ status => p.pushTo (if status then .conversations else .welcome)
  | .loggedIn .welcome w status => if status then p.showHome w else p.async (.alert w)
  | .registered w status =>
    if status then (p.enable w).showHome w else (p.enable w).async (.alert w)
  | .alert w => p.present w .alert
  | .logOut =>
    if signOut then
      { p with currentUser := none, userInformation := none : Phone }.pushTo .welcome
    else p

inductive Action
  | launch
  | login (email password : String)
  | register (withName email password : String) (profilePic : UIImage)
  /-- `selectPic(_:)`. -/
  | selectPic
  /-- An alert or the choice of a picture is dismissed. -/
  | dismiss
  /-- `AccountViewController.proceedLogOut(_:)`. -/
  | proceedLogOut
  | answer (i : ℕ) (a : Answer)
  | runBlock (signOut : Bool)
  deriving DecidableEq

/-- One step of a device, with what becomes of the directory. -/
def step (validURL : String → Bool) (D : Directory) : Action → Option (Directory × Phone)
  | .launch => some (D, p.launch)
  | .login email password => do
    let v ← p.welcome?
    if v.TakesInput then some (D, p.login email password) else none
  | .register withName email password profilePic => do
    let v ← p.welcome?
    if v.TakesInput then some (D, p.register withName email password profilePic) else none
  | .selectPic => do
    let v ← p.welcome?
    if v.TakesInput then
      some (D, { p with root := some (.welcome { v with presented := some .picker }) })
    else none
  | .dismiss => do
    let v ← p.welcome?
    if v.presented = some .alert ∨ v.presented = some .picker then
      some (D, { p with root := some (.welcome { v with presented := none }) })
    else none
  | .proceedLogOut => do
    let h ← p.home?
    -- The profile is only shown once it has come.
    if h.user.isSome then some (D, p.async .logOut) else none
  | .answer i a => do
    let r ← p.requests[i]?
    let D' ← D.answer r.request a
    let p := { p with requests := p.requests.eraseIdx i }
    some (D', match r.window with
      | some w => p.resume validURL D w r.request a
      | none => p)
  | .runBlock signOut =>
    match p.mainQueue with
    | [] => none
    | b :: mainQueue => some (D, { p with mainQueue : Phone }.run signOut b)

end Phone

/-- The devices, with what they share. -/
structure Session where
  directory : Directory
  phones : Device → Phone

namespace Session

/-- A step is taken by one device. -/
structure Action where
  device : Device
  action : Phone.Action

variable (validURL : String → Bool)

def step (s : Session) (a : Action) : Option Session := do
  let (directory, p) ← (s.phones a.device).step validURL s.directory a.action
  some { directory, phones := Function.update s.phones a.device p }

/-- The machine of the sessions. Nobody has registered yet. -/
def machine : Machine Session Action where
  init := {
    directory := { accounts := fun _ => none, credentials := fun _ => none, issued := [] }
    phones := fun _ => {} }
  step := step validURL

end Session

end MagicChat
