import Mathlib.Analysis.SpecialFunctions.Complex.Arg
import MagicChat.LocationViewController.Basic

/-!
# The direction of the marker

The location screen finds the direction of the pin from a spherical bearing, by
which it turns a vector of the length of the distance about the vertical axis:
the matrix of the turn is filled entry by entry and then inverted, and its
product with the matrix of the translation has the position in its last column.

With functions on angles and matrices that are what they are called
(`Numerics.Lawful`), the signs work out (`translateNode_eq`): the marker is at
the height of the device, as far away as the pin, and in the direction in which
the pin is seen on the sphere (`pointsAt_translateNode`), also on every screen
that the updates lead to (`pointsAt_of_exec`).
-/

namespace MagicChat

open Matrix

namespace Numerics

variable {K : Type*} [ExactNumbers K] (N : Numerics K)

/-- The unit vector of a location on the sphere, which is the direction up there. -/
def up (location : CLLocation K) : Fin 3 → K :=
  N.point (N.toRadians location.latitude) (N.toRadians location.longitude)

/-- The direction east at a location. -/
def eastAt (location : CLLocation K) : Fin 3 → K := N.east (N.toRadians location.longitude)

/-- The direction north at a location. -/
def northAt (location : CLLocation K) : Fin 3 → K :=
  N.north (N.toRadians location.latitude) (N.toRadians location.longitude)

/-- The vector on the sphere of a vector of the scene at a location. -/
def onSphere (location : CLLocation K) (v : SCNVector3 K) : Fin 3 → K :=
  v.x • N.eastAt location + v.y • N.up location - v.z • N.northAt location

/-- The laws of the mathematics of the platform. -/
structure Lawful [LinearOrder K] : Prop extends N.toTrig.Lawful where
  /-- `atan2 y x` is the angle of the vector `(x, y)`, whose length is `r`. -/
  atan2 (y x r : K) : 0 ≤ r → r ^ 2 = x ^ 2 + y ^ 2 →
    r * N.sin (N.atan2 y x) = y ∧ r * N.cos (N.atan2 y x) = x
  inverse (M : Matrix (Fin 4) (Fin 4) K) : IsUnit M → M * N.inverse M = 1

/-- A position that points from a location at a pin: level, `d` away, and with its
    components to the east and to the north in the ratio `d` to `r` to those of
    the unit vector of the pin. -/
structure PointsAt (currentLocation pin : CLLocation K) (d r : K) (position : SCNVector3 K) :
    Prop where
  level : position.y = 0
  east : r * position.x = d * (N.up pin ⬝ᵥ N.eastAt currentLocation)
  north : r * -position.z = d * (N.up pin ⬝ᵥ N.northAt currentLocation)
  distance : position.x ^ 2 + position.z ^ 2 = d ^ 2

theorem toRadians_toDegrees (hpi : N.pi ≠ 0) [CharZero K] (radians : K) :
    N.toRadians (N.toDegrees radians) = radians := by
  rw [toRadians, toDegrees]
  field_simp

/-- The functions on the real numbers. -/
noncomputable def real : Numerics ℝ where
  sin := Real.sin
  cos := Real.cos
  pi := Real.pi
  atan2 y x := Complex.arg ⟨x, y⟩
  inverse M := M⁻¹

@[simp] theorem real_sin : real.sin = Real.sin := rfl

@[simp] theorem real_cos : real.cos = Real.cos := rfl

theorem lawful_real : real.Lawful where
  sin_sq_add_cos_sq := Real.sin_sq_add_cos_sq
  sin_sub := Real.sin_sub
  cos_sub := Real.cos_sub
  atan2 y x r hr hlength := by
    have hnorm : ‖(⟨x, y⟩ : ℂ)‖ = r := by
      rw [Complex.norm_eq_sqrt_sq_add_sq, ← hlength, Real.sqrt_sq hr]
    exact hnorm ▸ ⟨Complex.norm_mul_sin_arg ⟨x, y⟩, Complex.norm_mul_cos_arg ⟨x, y⟩⟩
  inverse M hM := M.mul_nonsing_inv (M.isUnit_iff_isUnit_det.1 hM)

variable {N} [LinearOrder K] (h : N.Lawful) {currentLocation pin : CLLocation K}

include h

/-! ## The bearing -/

theorem Lawful.bearingArguments_eq :
    N.bearingArguments currentLocation pin =
      (N.up pin ⬝ᵥ N.eastAt currentLocation, N.up pin ⬝ᵥ N.northAt currentLocation) := by
  rw [up, eastAt, northAt, h.point_east, h.point_north]
  rfl

/-- The length of the vector of the bearing: it is zero only at the pin, and
    opposite to it on the sphere. -/
theorem Lawful.sq_bearingArguments :
    (N.bearingArguments currentLocation pin).2 ^ 2 +
        (N.bearingArguments currentLocation pin).1 ^ 2 =
      1 - (N.up pin ⬝ᵥ N.up currentLocation) ^ 2 := by
  have hunit : N.up pin ⬝ᵥ N.up pin = 1 := h.point_point _ _
  have hsq : (N.up pin ⬝ᵥ N.eastAt currentLocation) ^ 2 +
      (N.up pin ⬝ᵥ N.northAt currentLocation) ^ 2 + (N.up pin ⬝ᵥ N.up currentLocation) ^ 2 =
      N.up pin ⬝ᵥ N.up pin := h.sq_components _ _ _
  rw [h.bearingArguments_eq]
  linear_combination hsq + hunit

/-- The vector that is turned by the bearing points at the pin. -/
theorem Lawful.pointsAt (d : K) {r : K} (hr : 0 ≤ r)
    (hlength : r ^ 2 = (N.bearingArguments currentLocation pin).2 ^ 2 +
      (N.bearingArguments currentLocation pin).1 ^ 2) :
    N.PointsAt currentLocation pin d r
      { x := d * N.sin (N.bearingBetweenLocations currentLocation pin)
        y := 0
        z := -(d * N.cos (N.bearingBetweenLocations currentLocation pin)) } := by
  have hone := h.sin_sq_add_cos_sq (N.bearingBetweenLocations currentLocation pin)
  obtain ⟨hsin, hcos⟩ := h.atan2 _ _ r hr hlength
  change r * N.sin (N.bearingBetweenLocations currentLocation pin) = _ at hsin
  change r * N.cos (N.bearingBetweenLocations currentLocation pin) = _ at hcos
  rw [h.bearingArguments_eq] at hsin hcos
  exact
    { level := rfl
      east := by linear_combination d * hsin
      north := by linear_combination d * hcos
      distance := by linear_combination d ^ 2 * hone }

/-- On the sphere, a vector that points at the pin is the horizontal part of that
    of the pin, brought to its length. -/
theorem Lawful.onSphere {d r : K} {position : SCNVector3 K}
    (hpoints : N.PointsAt currentLocation pin d r position) :
    r • N.onSphere currentLocation position =
      d • (N.up pin - (N.up pin ⬝ᵥ N.up currentLocation) • N.up currentLocation) := by
  have hframe : N.up pin =
      (N.up pin ⬝ᵥ N.eastAt currentLocation) • N.eastAt currentLocation +
        (N.up pin ⬝ᵥ N.northAt currentLocation) • N.northAt currentLocation +
        (N.up pin ⬝ᵥ N.up currentLocation) • N.up currentLocation := h.frame _ _ _
  -- Without its vertical component the unit vector is that to the east and to the north.
  rw [sub_eq_of_eq_add hframe, smul_add, smul_smul, smul_smul, ← hpoints.east, ← hpoints.north,
    Numerics.onSphere, hpoints.level, zero_smul, add_zero, smul_sub, smul_smul, smul_smul, mul_neg,
    neg_smul, sub_eq_add_neg]

/-! ## The matrices -/

theorem Lawful.inverse_aboutY (a : K) : N.inverse (N.aboutY a) = (N.aboutY a)ᵀ := by
  have hright := h.aboutY_mul_transpose a
  have hleft : (N.aboutY a)ᵀ * N.aboutY a = 1 := mul_eq_one_comm.1 hright
  have hunit : IsUnit (N.aboutY a) := isUnit_iff_exists.2 ⟨_, hright, hleft⟩
  exact (left_inv_eq_right_inv hleft (h.inverse _ hunit)).symm

end Numerics

variable {K : Type*} [ExactNumbers K] {N : Numerics K}

/-- The matrix that is inverted is a rotation. -/
theorem rotateAroundY_one (a : K) : rotateAroundY N 1 a = N.inverse (N.aboutY a) := by
  refine congrArg N.inverse ?_
  ext i j
  fin_cases i <;> fin_cases j <;> simp [setColumnEntry, Trig.aboutY, one_apply]

/-- The last column of a product with a translation. -/
theorem mul_getTranslationMatrix (matrix : Matrix (Fin 4) (Fin 4) K) (translation : Fin 4 → K)
    (i : Fin 4) :
    (matrix * getTranslationMatrix 1 translation) i 3 = (matrix *ᵥ translation) i := by
  simp only [mul_apply, getTranslationMatrix, updateCol_self, mulVec, dotProduct]

/-- A vector to the south, turned back by an angle. -/
theorem transpose_aboutY_mulVec (a d : K) :
    (N.aboutY a)ᵀ *ᵥ ![0, 0, -d, 0] = ![d * N.sin a, 0, -(d * N.cos a), 0] := by
  ext i
  fin_cases i <;> simp [Trig.aboutY, mulVec, dotProduct, Fin.sum_univ_four, mul_comm]

namespace LocationViewController

/-! ## The position -/

variable [LinearOrder K]

/-- The bearing is the angle from the north, clockwise as seen from above. -/
theorem translateNode_eq (h : N.Lawful) (s : LocationViewController K) (pin : CLLocation K) :
    s.translateNode N pin =
      { x := s.distance * N.sin (N.bearingBetweenLocations s.currentLocation pin)
        y := 0
        z := -(s.distance * N.cos (N.bearingBetweenLocations s.currentLocation pin)) } := by
  -- The position is the last column: the translation, turned by the inverted matrix.
  have hcolumn (i : Fin 4) : s.transformMatrix N 1 s.currentLocation pin i 3 =
      ![s.distance * N.sin (N.bearingBetweenLocations s.currentLocation pin), 0,
        -(s.distance * N.cos (N.bearingBetweenLocations s.currentLocation pin)), 0] i := by
    rw [transformMatrix, one_mul, mul_getTranslationMatrix, rotateAroundY_one, h.inverse_aboutY,
      transpose_aboutY_mulVec]
  rw [translateNode, positionFromTransform, hcolumn, hcolumn, hcolumn]
  rfl

/-- The marker is placed in the direction of the pin. -/
theorem pointsAt_translateNode (h : N.Lawful) (s : LocationViewController K)
    (pin : CLLocation K) {r : K} (hr : 0 < r)
    (hlength : r ^ 2 = (N.bearingArguments s.currentLocation pin).2 ^ 2 +
      (N.bearingArguments s.currentLocation pin).1 ^ 2) :
    N.PointsAt s.currentLocation pin s.distance r (s.translateNode N pin) := by
  rw [translateNode_eq h]
  exact h.pointsAt s.distance hr.le hlength

/-- On the equator, a quarter of it to the west of the pin. -/
noncomputable def onEquator : LocationViewController ℝ :=
  { currentLocation := ⟨0, 0⟩, pinLocation := ⟨0, 90⟩, distance := 10007543 }

/-- From there the pin is due east. -/
theorem pointsAt_onEquator :
    Numerics.real.PointsAt ⟨0, 0⟩ ⟨0, 90⟩ 10007543 1
      (onEquator.translateNode Numerics.real ⟨0, 90⟩) := by
  refine pointsAt_translateNode Numerics.lawful_real onEquator ⟨0, 90⟩ one_pos ?_
  have hquarter : (90 : ℝ) * Real.pi / 180 = Real.pi / 2 := by ring
  simp [Numerics.bearingArguments, Numerics.toRadians, Numerics.real, onEquator, hquarter]

/-- On the real numbers the components of the unit vector are brought to the length
    of the distance from that of its horizontal part. -/
theorem pointsAt_real (s : LocationViewController ℝ) (pin : CLLocation ℝ) :
    Numerics.real.PointsAt s.currentLocation pin s.distance
      (Real.sqrt (1 - (Numerics.real.up pin ⬝ᵥ Numerics.real.up s.currentLocation) ^ 2))
      (s.translateNode Numerics.real pin) := by
  have hlength : (Numerics.real.bearingArguments s.currentLocation pin).2 ^ 2 +
      (Numerics.real.bearingArguments s.currentLocation pin).1 ^ 2 =
      1 - (Numerics.real.up pin ⬝ᵥ Numerics.real.up s.currentLocation) ^ 2 :=
    Numerics.lawful_real.sq_bearingArguments
  rw [translateNode_eq Numerics.lawful_real, ← hlength]
  refine Numerics.lawful_real.pointsAt s.distance (Real.sqrt_nonneg _) (Real.sq_sqrt ?_)
  positivity

/-- On every screen the marker is in the direction of the pin, and at its distance. -/
theorem pointsAt_of_exec {P : Platform K} (h : P.toNumerics.Lawful) {pin : CLLocation K}
    {updates : List (Update K)} {s : LocationViewController K}
    (hs : (machine P pin).exec updates = some s) {node : SCNNode K}
    (hnode : s.modelNode = some node) {r : K} (hr : 0 ≤ r)
    (hlength : r ^ 2 = (P.bearingArguments s.currentLocation pin).2 ^ 2 +
      (P.bearingArguments s.currentLocation pin).1 ^ 2) :
    P.PointsAt s.currentLocation pin (P.distance pin s.currentLocation) r node.position := by
  have hplaced := placed_of_exec hs
  rw [hplaced.node node hnode, ← hplaced.distance (Option.isSome_iff_exists.2 ⟨node, hnode⟩),
    translateNode_eq h]
  exact h.pointsAt s.distance hr hlength

/-- A message of `sendMessage(location:)` opens a screen for the location it was
    sent with, and on this screen the marker is always in its direction. -/
theorem pointsAt_of_sent {P : Platform K} (h : P.toNumerics.Lawful) {parse : String → Option K}
    {print : K → String} (hparse : ∀ x, parse (print x) = some x)
    (hprint : ∀ x, ':' ∉ (print x).toList) (location : CLLocation K) :
    (ChatVC.decodeLocation parse
        (ChatVC.coordinate print location.latitude location.longitude)).prepare =
      some (machine P location).init ∧
    ∀ updates s node r, (machine P location).exec updates = some s → s.modelNode = some node →
      0 ≤ r → r ^ 2 = (P.bearingArguments s.currentLocation location).2 ^ 2 +
        (P.bearingArguments s.currentLocation location).1 ^ 2 →
      P.PointsAt s.currentLocation location (P.distance location s.currentLocation) r
        node.position := by
  refine ⟨?_, fun updates s node r hs hnode hr hlength => pointsAt_of_exec h hs hnode hr hlength⟩
  rw [ChatVC.decodeLocation_coordinate hparse hprint]
  rfl

end LocationViewController

end MagicChat
