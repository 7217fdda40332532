import MagicChat.ChatVC.Location

/-!
# The input of a chat

The part of `ChatVC` that composes messages, with the screens it presents to do
so. A text is taken from the text field, a picture from the image picker. A
location is first shown with a pin on the map of `MapPreviewViewController`, where
the user may move the pin, and sent if the user confirms it.

* A chat takes no input while it presents a screen, nor while that is being
  dismissed. A location is sent when the preview has been dismissed.
* What is to be presented on top of another screen is lost.
* Updates of the location manager come later, also when it has been stopped.
  `canSendLocation` is cleared by the first one, also where the preview is lost.
-/

namespace MagicChat

/-- `PHAuthorizationStatus`, and `AVAuthorizationStatus`. -/
inductive AuthorizationStatus
  | notDetermined
  | restricted
  | denied
  | authorized
  deriving DecidableEq

inductive CLAuthorizationStatus
  | notDetermined
  | restricted
  | denied
  | authorizedAlways
  | authorizedWhenInUse
  deriving DecidableEq

/-- `UIImagePickerControllerSourceType`, as far as it is used. -/
inductive SourceType
  | savedPhotosAlbum
  | camera
  deriving DecidableEq

/-- `MapPreviewViewController`: the coordinate to be sent, and that of the pin. -/
structure MapPreviewViewController (D : Type*) where
  coordinate : D × D
  annotation : D × D

namespace MapPreviewViewController

variable {D : Type*}

/-- `viewDidLoad`, with the coordinate set by `prepare(for:sender:)`. -/
def viewDidLoad (coordinate : D × D) : MapPreviewViewController D :=
  { coordinate, annotation := coordinate }

/-- `handleLongPress(gesture:)`. -/
def handleLongPress (p : MapPreviewViewController D) (ended : Bool) (coordinate : D × D) :
    MapPreviewViewController D :=
  if ended then { p with annotation := coordinate, coordinate } else p

end MapPreviewViewController

/-- What a chat presents. -/
inductive ChatPresented (D : Type*)
  | imagePicker (sourceType : SourceType)
  | map (preview : MapPreviewViewController D)
  /-- Any other screen that covers the chat. -/
  | other
  /-- A screen that is being dismissed, with the preview that sends its location then. -/
  | dismissing (sends : Option (MapPreviewViewController D))

/-- `ChatVC`, as far as its input goes. -/
structure ChatInput (D : Type*) where
  /-- The text of `inputTextField`. -/
  text : Option String := some ""
  presented : Option (ChatPresented D) := none
  canSendLocation : Bool := true
  /-- The location manager has been started, and not stopped since. -/
  updatingLocation : Bool := false
  /-- The updates that are yet to come. -/
  updates : List (List (D × D)) := []

/-- `checkLocationPermission()`. -/
def checkLocationPermission : CLAuthorizationStatus → Bool
  | .authorizedWhenInUse | .authorizedAlways => true
  | _ => false

namespace ChatInput

/-- What happens to the input of a chat. -/
inductive Action (D : Type*)
  /-- The user edits the text. -/
  | edit (text : Option String)
  /-- `sendMessage(_:)`. -/
  | sendMessage (timestamp : Int)
  | selectGallery (status : AuthorizationStatus)
  | selectCamera (status : AuthorizationStatus)
  /-- `imagePickerController(_:didFinishPickingMediaWithInfo:)`. -/
  | didFinishPicking (edited original : Option UIImage) (timestamp : Int)
  | selectLocation (status : CLAuthorizationStatus)
  /-- The location manager, while it is updating, has new locations. -/
  | locate (locations : List (D × D))
  /-- `locationManager(_:didUpdateLocations:)`. -/
  | didUpdateLocations
  /-- A long press on the map of the preview. -/
  | longPress (ended : Bool) (coordinate : D × D)
  | sendLocationClicked
  /-- Another screen comes to cover the chat. -/
  | cover
  /-- The preview, the image picker or another screen is left. -/
  | dismiss
  /-- What was being dismissed is gone. -/
  | dismissed (timestamp : Int)

variable {D : Type*} (s : ChatInput D)

/-- The chat presents nothing. -/
def takesInput : Bool := s.presented.isNone

/-- `present`, on the chat. -/
def present (x : ChatPresented D) : ChatInput D :=
  if s.takesInput then { s with presented := some x } else s

/-- `sendMessage(_:)`, with the message that is sent. -/
def sendMessage (timestamp : Int) : ChatInput D × Option Message :=
  match s.text with
  | some text =>
    if text = "" then (s, none)
    else ({ s with text := some "" },
      some (composeMessage .text (.field (.string text)) timestamp))
  | none => (s, none)

/-- `selectGallery(_:)` and `selectCamera(_:)`, by the source of the pictures. -/
def selectPicture (sourceType : SourceType) (status : AuthorizationStatus) : ChatInput D :=
  if status = .authorized ∨ status = .notDetermined then s.present (.imagePicker sourceType) else s

/-- `selectGallery(_:)`. -/
def selectGallery (status : AuthorizationStatus) : ChatInput D :=
  s.selectPicture .savedPhotosAlbum status

/-- `selectCamera(_:)`. -/
def selectCamera (status : AuthorizationStatus) : ChatInput D := s.selectPicture .camera status

/-- `imagePickerController(_:didFinishPickingMediaWithInfo:)`, with the message that is sent. -/
def didFinishPicking (edited original : Option UIImage) (timestamp : Int) :
    ChatInput D × Option Message :=
  match edited.or original with
  | some pickedImage =>
    ({ s with presented := some (.dismissing none) },
      some (composeMessage .photo (.image pickedImage) timestamp))
  -- Without a picture, the picker stays.
  | none => (s, none)

/-- `selectLocation(_:)`. -/
def selectLocation (status : CLAuthorizationStatus) : ChatInput D :=
  let s := { s with canSendLocation := true }
  if checkLocationPermission status then { s with updatingLocation := true } else s

/-- `locationManager(_:didUpdateLocations:)`. -/
def didUpdateLocations (locations : List (D × D)) : ChatInput D :=
  match locations.getLast? with
  | some lastLocation =>
    if s.canSendLocation then
      let s := { s with updatingLocation := false }
      { s.present (.map (.viewDidLoad lastLocation)) with canSendLocation := false }
    else s
  | none => s

/-- One step, with the message that is sent. -/
def step (print : D → String) : Action D → Option (ChatInput D × Option Message)
  | .edit text => if s.takesInput then some ({ s with text }, none) else none
  | .sendMessage timestamp => if s.takesInput then some (s.sendMessage timestamp) else none
  | .selectGallery status => if s.takesInput then some (s.selectGallery status, none) else none
  | .selectCamera status => if s.takesInput then some (s.selectCamera status, none) else none
  | .selectLocation status => if s.takesInput then some (s.selectLocation status, none) else none
  | .cover => if s.takesInput then some (s.present .other, none) else none
  | .didFinishPicking edited original timestamp =>
    match s.presented with
    | some (.imagePicker _) => some (s.didFinishPicking edited original timestamp)
    | _ => none
  | .locate locations =>
    if s.updatingLocation then some ({ s with updates := s.updates ++ [locations] }, none) else none
  | .didUpdateLocations =>
    match s.updates with
    | [] => none
    | locations :: updates =>
      some (({ s with updates } : ChatInput D).didUpdateLocations locations, none)
  | .longPress ended coordinate =>
    match s.presented with
    | some (.map preview) =>
      some ({ s with presented := some (.map (preview.handleLongPress ended coordinate)) }, none)
    | _ => none
  | .sendLocationClicked =>
    match s.presented with
    | some (.map preview) => some ({ s with presented := some (.dismissing (some preview)) }, none)
    | _ => none
  | .dismiss =>
    match s.presented with
    | some (.dismissing _) | none => none
    | some _ => some ({ s with presented := some (.dismissing none) }, none)
  | .dismissed timestamp =>
    match s.presented with
    | some (.dismissing sends) =>
      some ({ s with presented := none }, sends.map fun preview =>
        ChatVC.locationMessage print preview.coordinate.1 preview.coordinate.2 timestamp)
    | _ => none

/-- The machine of the input of a chat. -/
def machine (print : D → String) : Machine (ChatInput D) (Action D) where
  init := {}
  step s a := (s.step print a).map Prod.fst

/-- The message sent in a step. -/
def sent (print : D → String) (a : Action D) : List Message :=
  ((s.step print a).bind Prod.snd).toList

end ChatInput

end MagicChat
