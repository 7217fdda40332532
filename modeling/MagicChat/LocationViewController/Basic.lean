import MagicChat.ChatVC.Location
import MagicChat.Library.Machine
import MagicChat.Library.Sphere

/-!
# The location screen

`LocationViewController`, which the selection of a location message opens. It
shows a marker in the picture of the camera, and on every update of the location
of the device (`didUpdateLocations`)

* takes over the last of the new locations, and its distance from the pin;
* loads the marker from its scene, if it has not yet: where this fails, the
  update ends here;
* puts the marker in its place (`translateNode`) and gives it its size
  (`scaleNode`).

The numbers are the elements of any ordered field, so the arithmetic is exact,
and there is nothing to convert between single and double precision. What the
platform computes on them, the functions on angles among others, is a parameter
(`Platform`).
-/

/-- Exact numbers. (In the namespace of the program a `Field` is one of a record.) -/
abbrev ExactNumbers (K : Type*) := Field K

namespace MagicChat

open Matrix

/-- A location, by its coordinate in degrees. -/
structure CLLocation (K : Type*) where
  latitude : K
  longitude : K
  deriving DecidableEq

/-- A vector of the scene. With the alignment the screen asks for, `x` points
    east, `y` up and `z` south. -/
@[ext] structure SCNVector3 (K : Type*) where
  x : K
  y : K
  z : K
  deriving DecidableEq

/-- A node of a scene, as far as the screen changes it again and again. -/
structure SCNNode (K : Type*) where
  position : SCNVector3 K
  scale : SCNVector3 K
  deriving DecidableEq

/-- The mathematics of the platform. -/
structure Numerics (K : Type*) extends Trig K where
  pi : K
  atan2 : K → K → K
  /-- `matrix.inverse`. -/
  inverse : Matrix (Fin 4) (Fin 4) K → Matrix (Fin 4) (Fin 4) K

/-- What else the screen is given by the platform. -/
structure Platform (K : Type*) extends Numerics K where
  /-- `a.distance(from: b)`. -/
  distance : CLLocation K → CLLocation K → K
  /-- `String(format: "%.2f m", distance)`. -/
  format : K → String

section functions

variable {K : Type*} [ExactNumbers K]

/-! ## The functions on angles and matrices -/

namespace Numerics

variable (N : Numerics K)

/-- `degrees.toRadians()`. -/
def toRadians (degrees : K) : K := degrees * N.pi / 180

/-- `radians.toDegrees()`. -/
def toDegrees (radians : K) : K := radians * 180 / N.pi

/-- The arguments `y` and `x` of the `atan2` of `bearingBetweenLocations`. -/
def bearingArguments (currentLocation pinLocation : CLLocation K) : K × K :=
  let lat1 := N.toRadians currentLocation.latitude
  let lon1 := N.toRadians currentLocation.longitude
  let lat2 := N.toRadians pinLocation.latitude
  let lon2 := N.toRadians pinLocation.longitude
  let longitudeDiff := lon2 - lon1
  let y := N.sin longitudeDiff * N.cos lat2
  let x := N.cos lat1 * N.sin lat2 - N.sin lat1 * N.cos lat2 * N.cos longitudeDiff
  (y, x)

def bearingBetweenLocations (currentLocation pinLocation : CLLocation K) : K :=
  let (y, x) := N.bearingArguments currentLocation pinLocation
  N.atan2 y x

end Numerics

/-- `matrix.columns.j.i = value`, the rows being called `x`, `y`, `z` and `w`. -/
def setColumnEntry (matrix : Matrix (Fin 4) (Fin 4) K) (j i : Fin 4) (value : K) :
    Matrix (Fin 4) (Fin 4) K :=
  matrix.updateCol j (Function.update (matrix.col j) i value)

def rotateAroundY (N : Numerics K) (matrix : Matrix (Fin 4) (Fin 4) K) (degrees : K) :
    Matrix (Fin 4) (Fin 4) K :=
  let matrix := setColumnEntry matrix 0 0 (N.cos degrees)
  let matrix := setColumnEntry matrix 0 2 (-N.sin degrees)
  let matrix := setColumnEntry matrix 2 0 (N.sin degrees)
  let matrix := setColumnEntry matrix 2 2 (N.cos degrees)
  N.inverse matrix

def getTranslationMatrix (matrix : Matrix (Fin 4) (Fin 4) K) (translation : Fin 4 → K) :
    Matrix (Fin 4) (Fin 4) K :=
  matrix.updateCol 3 translation

def positionFromTransform (transform : Matrix (Fin 4) (Fin 4) K) : SCNVector3 K :=
  { x := transform 0 3, y := transform 1 3, z := transform 2 3 }

end functions

/-! ## The screen -/

/-- The state of a location screen. -/
structure LocationViewController (K : Type*) where
  currentLocation : CLLocation K
  pinLocation : CLLocation K
  distance : K
  /-- The text of the label, at first that of the storyboard. -/
  statusText : String := "Label"
  modelNode : Option (SCNNode K) := none

namespace LocationViewController

variable {K : Type*} [ExactNumbers K]

/-- A new screen, for a location. -/
def new (pinLocation : CLLocation K) : LocationViewController K :=
  { currentLocation := { latitude := 0, longitude := 0 }, pinLocation, distance := 0 }

variable (s : LocationViewController K)

/-- The text that `setStatusText` shows. -/
def status (P : Platform K) (distance : K) : String := "Distance: " ++ P.format distance

/-- `self.distance = distance`, with the observer of the property. -/
def setDistance (P : Platform K) (distance : K) : LocationViewController K :=
  { s with distance, statusText := status P distance }

/-- The origin is not the one given: it is the current location. -/
def transformMatrix (N : Numerics K) (matrix : Matrix (Fin 4) (Fin 4) K)
    (_originLocation pinLocation : CLLocation K) : Matrix (Fin 4) (Fin 4) K :=
  let bearing := N.bearingBetweenLocations s.currentLocation pinLocation
  let rotationMatrix := rotateAroundY N 1 bearing
  let position := ![0, 0, -s.distance, 0]
  let translationMatrix := getTranslationMatrix 1 position
  let transformMatrix := rotationMatrix * translationMatrix
  matrix * transformMatrix

def translateNode (N : Numerics K) (pinLocation : CLLocation K) : SCNVector3 K :=
  let locationTransform := s.transformMatrix N 1 s.currentLocation pinLocation
  positionFromTransform locationTransform

variable [LinearOrder K]

/-- The distance is that of the screen, not of the location given. -/
def scaleNode (_location : CLLocation K) : SCNVector3 K :=
  let scale := max (min (1000 / s.distance) 1.5) 3
  { x := scale, y := scale, z := scale }

def positionModel (N : Numerics K) (location : CLLocation K) : LocationViewController K :=
  { s with
    modelNode := s.modelNode.map fun node =>
      { node with position := s.translateNode N location, scale := s.scaleNode location } }

/-- `updateLocation`, where the scene of the marker gives the node `children`, if
    it is asked for one. -/
def updateLocation (P : Platform K) (children : Option (SCNNode K)) (pinLocation : CLLocation K) :
    LocationViewController K :=
  let s := s.setDistance P (P.distance pinLocation s.currentLocation)
  match s.modelNode with
  | none =>
    match children with
    | none => s
    | some children =>
      { s with modelNode := some children }.positionModel P.toNumerics pinLocation
  | some _ => s.positionModel P.toNumerics pinLocation

/-- An update of the location of the device, with the node that the scene of the
    marker gives, if it is asked for one. -/
structure Update (K : Type*) where
  locations : List (CLLocation K)
  children : Option (SCNNode K)
  deriving DecidableEq

/-- `locationManager(_:didUpdateLocations:)`. -/
def didUpdateLocations (P : Platform K) (update : Update K) : LocationViewController K :=
  match update.locations.getLast? with
  | some location =>
    { s with currentLocation := location }.updateLocation P update.children s.pinLocation
  | none => s

/-- The machine of the screen for a location. -/
def machine (P : Platform K) (pinLocation : CLLocation K) :
    Machine (LocationViewController K) (Update K) where
  init := new pinLocation
  step s update := some (s.didUpdateLocations P update)

end LocationViewController

/-- `prepare(for:sender:)` of a chat, for a selection that shows a location. -/
def ChatVC.Selection.prepare {K : Type*} [ExactNumbers K] :
    ChatVC.Selection K → Option (LocationViewController K)
  | .showLocation latitude longitude => some (.new { latitude, longitude })
  | _ => none

namespace LocationViewController

variable {K : Type*} [ExactNumbers K] [LinearOrder K] {P : Platform K} {pin location : CLLocation K}
  {s t : LocationViewController K} {update : Update K}

/-! ## An update -/

/-- The screen at a new location, before the marker is moved. -/
def located (s : LocationViewController K) (P : Platform K) (location : CLLocation K) :
    LocationViewController K :=
  { s with currentLocation := location }.setDistance P (P.distance s.pinLocation location)

/-- The marker as it is placed at a new location. -/
def marker (s : LocationViewController K) (P : Platform K) (location : CLLocation K) : SCNNode K :=
  { position := (s.located P location).translateNode P.toNumerics s.pinLocation
    scale := (s.located P location).scaleNode s.pinLocation }

/-- An update moves the marker if there is one, or one can be loaded. -/
theorem didUpdateLocations_eq (h : update.locations.getLast? = some location) :
    s.didUpdateLocations P update =
      { s.located P location with
        modelNode := (s.modelNode.or update.children).map fun _ => s.marker P location } := by
  rw [didUpdateLocations, h]
  simp only [updateLocation, setDistance]
  cases hnode : s.modelNode with
  | some node => rfl
  | none =>
    cases update.children with
    | none => rfl
    | some children => rfl

/-- An update without a location changes nothing. -/
theorem didUpdateLocations_of_none (h : update.locations.getLast? = none) :
    s.didUpdateLocations P update = s := by
  rw [didUpdateLocations, h]

/-! ## The runs -/

/-- The pin stays where it is, and where the device is, how far it is from the
    pin, what the label says and where the marker is belong together. -/
structure Placed (P : Platform K) (pin : CLLocation K) (s : LocationViewController K) :
    Prop where
  pinLocation : s.pinLocation = pin
  distance : s.modelNode.isSome → s.distance = P.distance pin s.currentLocation
  statusText : s.modelNode.isSome → s.statusText = status P s.distance
  node : ∀ node, s.modelNode = some node →
    node = { position := s.translateNode P.toNumerics pin, scale := s.scaleNode pin }

/-- A new screen has no marker yet. -/
theorem placed_new : (new pin).Placed P pin where
  pinLocation := rfl
  distance h := by cases h
  statusText h := by cases h
  node node h := by cases h

theorem Placed.didUpdateLocations (h : s.Placed P pin) :
    (s.didUpdateLocations P update).Placed P pin := by
  obtain rfl := h.pinLocation
  cases hlast : update.locations.getLast? with
  | none => rwa [didUpdateLocations_of_none hlast]
  | some location =>
    rw [didUpdateLocations_eq hlast]
    refine ⟨rfl, fun _ => rfl, fun _ => rfl, fun node hnode => ?_⟩
    obtain ⟨_, _, rfl⟩ := Option.map_eq_some_iff.1 hnode
    rfl

/-- On every screen the marker is placed for the current location. -/
theorem placed_of_exec {updates : List (Update K)}
    (h : (machine P pin).exec updates = some s) : s.Placed P pin := by
  refine Machine.exec_induction (motive := fun _ s => s.Placed P pin) placed_new ?_ h
  intro _ s update t _ hs ht
  obtain rfl := Option.some.inj ht
  exact hs.didUpdateLocations

end LocationViewController

end MagicChat
