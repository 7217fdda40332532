import Mathlib.Analysis.SpecialFunctions.Trigonometric.Inverse
import MagicChat.Library.Limited
import MagicChat.LocationViewController.Direction

/-!
# The size of the marker

The marker is meant to be the larger the nearer the pin is: of the size 1000 / d
at the distance d, limited to the interval from 1.5 to 3 (`FollowsDistance`).

`scaleNode` has the limits in each other's place, and the size is always 3
(`scaleNode_eq`). So it follows the distance in a run of updates if and only if
every update that moves the marker is at most 1000 / 3 away from the pin
(`sizeFollows_iff`).
-/

namespace MagicChat

/-- The same scale in all directions. -/
def SCNVector3.uniform {K : Type*} (scale : K) : SCNVector3 K :=
  { x := scale, y := scale, z := scale }

namespace LocationViewController

variable {K : Type*} [ExactNumbers K] [LinearOrder K]

/-- A scale is the one meant for a distance. -/
structure FollowsDistance (distance : K) (scale : SCNVector3 K) : Prop where
  near : 3 ≤ 1000 / distance → scale = .uniform 3
  far : 1000 / distance ≤ 1.5 → scale = .uniform 1.5
  between : 1.5 < 1000 / distance → 1000 / distance < 3 → scale = .uniform (1000 / distance)

/-- An update of a run, at this distance from the pin, has given the marker this scale. -/
def ScaledTo (P : Platform K) (pin : CLLocation K) (updates : List (Update K)) (distance : K)
    (scale : SCNVector3 K) : Prop :=
  ∃ earlier update location t node, earlier ++ [update] <+: updates ∧
    update.locations.getLast? = some location ∧ distance = P.distance pin location ∧
    (machine P pin).exec (earlier ++ [update]) = some t ∧ t.modelNode = some node ∧
    node.scale = scale

/-- In a run, the size of the marker follows the distance. -/
structure SizeFollows (P : Platform K) (pin : CLLocation K) (updates : List (Update K)) :
    Prop where
  follows (d : K) (scale : SCNVector3 K) : ScaledTo P pin updates d scale → FollowsDistance d scale
  nearer (d d' : K) (scale scale' : SCNVector3 K) : ScaledTo P pin updates d scale →
    ScaledTo P pin updates d' scale' → d ≤ d' → scale'.x ≤ scale.x
  distinct (d d' : K) (scale scale' : SCNVector3 K) : ScaledTo P pin updates d scale →
    ScaledTo P pin updates d' scale' → 1000 / 3 < d → d < 1000 / 1.5 → 1000 / 3 < d' →
    d' < 1000 / 1.5 → d ≠ d' → scale ≠ scale'

/-- An update that moves the marker is at most 1000 / 3 away from the pin. -/
structure Near (P : Platform K) (s : LocationViewController K) (update : Update K) : Prop where
  le (location : CLLocation K) : update.locations.getLast? = some location →
    (s.modelNode.or update.children).isSome → P.distance s.pinLocation location ≤ 1000 / 3

variable [IsStrictOrderedRing K] {P : Platform K} {pin : CLLocation K} {updates : List (Update K)}
  {s : LocationViewController K} {d d' : K} {scale : SCNVector3 K}

/-! ## The size meant -/

theorem limits_lt : (1.5 : K) < 3 := by norm_num

theorem followsDistance_iff :
    FollowsDistance d scale ↔ scale = .uniform (limited 1.5 3 (1000 / d)) := by
  rcases le_or_gt 3 (1000 / d) with hnear | hnear
  · rw [(limited_eq_upper_iff limits_lt).2 hnear]
    refine ⟨fun h => h.near hnear, fun h => ⟨fun _ => h, fun hfar => ?_, fun _ hlt => ?_⟩⟩
    · exact absurd (hnear.trans hfar) limits_lt.not_ge
    · exact absurd hnear hlt.not_ge
  · rcases le_or_gt (1000 / d) 1.5 with hfar | hfar
    · rw [limited_of_le hfar]
      refine ⟨fun h => h.far hfar, fun h => ⟨fun hle => ?_, fun _ => h, fun hlt => ?_⟩⟩
      · exact absurd hle hnear.not_ge
      · exact absurd hfar hlt.not_ge
    · rw [limited_of_mem hfar.le hnear.le]
      refine ⟨fun h => h.between hfar hnear, fun h => ⟨fun hle => ?_, fun hle => ?_, fun _ _ => h⟩⟩
      · exact absurd hle hnear.not_ge
      · exact absurd hle hfar.not_ge

/-- The farther, the smaller. -/
theorem limited_div_le (hd : 0 < d) (h : d ≤ d') :
    limited 1.5 3 (1000 / d') ≤ limited 1.5 3 (1000 / d) :=
  limited_mono (div_le_div_of_nonneg_left (by norm_num) hd h)

/-- Between the limits the size is the quotient. -/
theorem limited_div_eq (hnear : 1000 / 3 < d) (hfar : d < 1000 / 1.5) :
    limited 1.5 3 (1000 / d) = 1000 / d := by
  have hd : 0 < d := lt_trans (by norm_num) hnear
  have hupper : 1000 / d < 3 := (div_lt_comm₀ (by norm_num) hd).1 hnear
  have hlower : 1.5 < 1000 / d := (lt_div_comm₀ hd (by norm_num)).1 hfar
  exact limited_of_mem hlower.le hupper.le

/-- Between the limits different distances have different sizes. -/
theorem eq_of_limited_eq (hnear : 1000 / 3 < d) (hfar : d < 1000 / 1.5) (hnear' : 1000 / 3 < d')
    (hfar' : d' < 1000 / 1.5) (h : limited 1.5 3 (1000 / d) = limited 1.5 3 (1000 / d')) :
    d = d' := by
  have hd : 0 < d := lt_trans (by norm_num) hnear
  have hd' : 0 < d' := lt_trans (by norm_num) hnear'
  rw [limited_div_eq hnear hfar, limited_div_eq hnear' hfar', div_eq_div_iff hd.ne' hd'.ne'] at h
  exact (mul_left_cancel₀ (by norm_num) h).symm

/-- Near enough, the size is the largest. -/
theorem limited_div_eq_three_iff (hd : 0 < d) :
    limited 1.5 3 (1000 / d) = 3 ↔ d ≤ 1000 / 3 := by
  rw [limited_eq_upper_iff limits_lt, le_div_comm₀ (by norm_num) hd]

/-! ## The size given -/

/-- The limits have changed places: nothing is left between them. -/
theorem scaleNode_eq (s : LocationViewController K) (location : CLLocation K) :
    s.scaleNode location = .uniform 3 := by
  have hlimited : max (min (1000 / s.distance) 1.5) 3 = 3 :=
    max_eq_right ((min_le_right _ _).trans limits_lt.le)
  simp only [scaleNode, hlimited, SCNVector3.uniform]

/-- The updates that give the marker a scale are those that move it. -/
theorem scaledTo_iff :
    ScaledTo P pin updates d scale ↔ scale = .uniform 3 ∧
      ∃ earlier update location s, earlier ++ [update] <+: updates ∧
        (machine P pin).exec earlier = some s ∧ update.locations.getLast? = some location ∧
        (s.modelNode.or update.children).isSome ∧ d = P.distance pin location := by
  constructor
  · rintro ⟨earlier, update, location, t, node, hrun, hlast, rfl, ht, hnode, rfl⟩
    obtain ⟨s, hs, hstep⟩ := Machine.exec_concat_eq_some.1 ht
    obtain rfl := Option.some.inj hstep
    -- After the update there is a marker only if the update has moved it.
    rw [didUpdateLocations_eq hlast] at hnode
    obtain ⟨_, hsome, rfl⟩ := Option.map_eq_some_iff.1 hnode
    exact ⟨scaleNode_eq (s.located P location) s.pinLocation, earlier, update, location, s, hrun,
      hs, hlast, Option.isSome_iff_exists.2 ⟨_, hsome⟩, rfl⟩
  · rintro ⟨rfl, earlier, update, location, s, hrun, hs, hlast, hsome, rfl⟩
    obtain ⟨node, hnode⟩ := Option.isSome_iff_exists.1 hsome
    refine ⟨earlier, update, location, s.didUpdateLocations P update, s.marker P location, hrun,
      hlast, rfl, Machine.exec_concat_eq_some.2 ⟨s, hs, rfl⟩, ?_,
      scaleNode_eq (s.located P location) s.pinLocation⟩
    rw [didUpdateLocations_eq hlast, hnode]
    rfl

/-- What is given at positive distances follows the distance if it is of the size meant. -/
theorem sizeFollows_of_limited (hpos : ∀ d scale, ScaledTo P pin updates d scale → 0 < d)
    (h : ∀ d scale, ScaledTo P pin updates d scale → scale = .uniform (limited 1.5 3 (1000 / d))) :
    SizeFollows P pin updates where
  follows d scale hscaled := followsDistance_iff.2 (h d scale hscaled)
  nearer d d' scale scale' hscaled hscaled' hle := by
    rw [h d scale hscaled, h d' scale' hscaled']
    exact limited_div_le (hpos d scale hscaled) hle
  distinct d d' scale scale' hscaled hscaled' hnear hfar hnear' hfar' hne heq := by
    rw [h d scale hscaled, h d' scale' hscaled'] at heq
    exact hne (eq_of_limited_eq hnear hfar hnear' hfar' (congrArg SCNVector3.x heq))

/-- The size of the marker follows the distance in a run of updates if and only if
    those that move the marker are near enough for it to be as large as it gets. -/
theorem sizeFollows_iff (hpos : ∀ update ∈ updates, ∀ location,
      update.locations.getLast? = some location → 0 < P.distance pin location) :
    SizeFollows P pin updates ↔ (machine P pin).Along (Near P) updates := by
  have hscaled_pos : ∀ d scale, ScaledTo P pin updates d scale → 0 < d := by
    intro d scale hscaled
    obtain ⟨_, earlier, update, location, s, hrun, _, hlast, _, rfl⟩ := scaledTo_iff.1 hscaled
    exact hpos update (hrun.subset (by simp)) location hlast
  constructor
  · refine fun h earlier update hrun s hs => ⟨fun location hlast hsome => ?_⟩
    rw [(placed_of_exec hs).pinLocation]
    -- The scale given is 3, so 3 is what is meant at this distance.
    have hscaled : ScaledTo P pin updates (P.distance pin location) (.uniform 3) :=
      scaledTo_iff.2 ⟨rfl, earlier, update, location, s, hrun, hs, hlast, hsome, rfl⟩
    have hmeant := followsDistance_iff.1 (h.follows _ _ hscaled)
    exact (limited_div_eq_three_iff (hscaled_pos _ _ hscaled)).1 (congrArg SCNVector3.x hmeant).symm
  · intro h
    refine sizeFollows_of_limited hscaled_pos fun d scale hscaled => ?_
    obtain ⟨rfl, earlier, update, location, s, hrun, hs, hlast, hsome, rfl⟩ :=
      scaledTo_iff.1 hscaled
    have hnear := (h earlier update hrun s hs).le location hlast hsome
    rw [(placed_of_exec hs).pinLocation] at hnear
    rw [(limited_div_eq_three_iff (hscaled_pos _ _ hscaled)).2 hnear]

end LocationViewController

/-! ## On the equator -/

/-- The platform with the real numbers, where distances are those along the great
    circles of a sphere. -/
noncomputable def Platform.real : Platform ℝ where
  toNumerics := Numerics.real
  distance a b := 6371000 * Real.arccos (Numerics.real.up a ⬝ᵥ Numerics.real.up b)
  format distance :=
    let hundredths := (round (100 * distance)).toNat
    toString (hundredths / 100) ++ "." ++ toString (hundredths / 10 % 10) ++
      toString (hundredths % 10) ++ " m"

namespace LocationViewController

/-- The location where the equator starts. -/
noncomputable def start : CLLocation ℝ := { latitude := 0, longitude := 0 }

/-- The location on the equator that is `distance` east of its start. -/
noncomputable def eastOfStart (distance : ℝ) : CLLocation ℝ :=
  { latitude := 0, longitude := Numerics.real.toDegrees (distance / 6371000) }

/-- The device is at the start of the equator, and the marker can be loaded. -/
noncomputable def atStart : Update ℝ :=
  { locations := [start], children := some { position := .uniform 0, scale := .uniform 1 } }

theorem distance_eastOfStart {d : ℝ} (hd : 0 ≤ d) (hle : d ≤ 1000) :
    Platform.real.distance (eastOfStart d) start = d := by
  have hangle : Numerics.real.toRadians (Numerics.real.toDegrees (d / 6371000)) = d / 6371000 :=
    Numerics.real.toRadians_toDegrees Real.pi_ne_zero _
  have hzero : Numerics.real.toRadians 0 = 0 := by simp [Numerics.toRadians]
  have hdot : Numerics.real.up (eastOfStart d) ⬝ᵥ Numerics.real.up start =
      Real.cos (d / 6371000) := by
    simp [Numerics.up, Trig.point, eastOfStart, start, hangle, hzero]
  have hpi : d / 6371000 ≤ Real.pi := by
    have htwo := Real.two_le_pi
    linarith
  simp only [Platform.real]
  rw [hdot, Real.arccos_cos (by positivity) hpi]
  ring

theorem eq_start_of_atStart {location : CLLocation ℝ}
    (h : atStart.locations.getLast? = some location) : location = start :=
  (Option.some.inj h).symm

/-- The update at the start is at the distance of the pin. -/
theorem distance_pos_atStart {d : ℝ} (hd : 0 < d) (hle : d ≤ 1000) :
    ∀ update ∈ [atStart], ∀ location, update.locations.getLast? = some location →
      0 < Platform.real.distance (eastOfStart d) location := by
  intro update hupdate location hlast
  obtain rfl := List.mem_singleton.1 hupdate
  rwa [eq_start_of_atStart hlast, distance_eastOfStart hd.le hle]

/-- 300 m away the marker is as large as it gets. -/
theorem sizeFollows_atStart : SizeFollows Platform.real (eastOfStart 300) [atStart] := by
  refine (sizeFollows_iff (distance_pos_atStart (by norm_num) (by norm_num))).2 ?_
  change (machine Platform.real (eastOfStart 300)).Along (Near Platform.real) ([] ++ [atStart])
  refine Machine.along_concat.2 ⟨Machine.along_nil, fun s hs => ⟨fun location hlast _ => ?_⟩⟩
  obtain rfl := Option.some.inj hs
  obtain rfl := eq_start_of_atStart hlast
  have hdistance := distance_eastOfStart (d := 300) (by norm_num) (by norm_num)
  exact hdistance.le.trans (by norm_num)

/-- 500 m away it should be of the size 2, and is of the size 3. -/
theorem not_sizeFollows_atStart :
    Platform.real.distance (eastOfStart 500) start = 500 ∧
      ¬SizeFollows Platform.real (eastOfStart 500) [atStart] := by
  have hdistance := distance_eastOfStart (d := 500) (by norm_num) (by norm_num)
  refine ⟨hdistance, fun h => ?_⟩
  have hscaled : ScaledTo Platform.real (eastOfStart 500) [atStart] 500 (.uniform 3) :=
    scaledTo_iff.2 ⟨rfl, [], atStart, start, _, List.prefix_rfl, rfl, rfl, rfl, hdistance.symm⟩
  have hscale := (h.follows 500 _ hscaled).between (by norm_num) (by norm_num)
  exact absurd (congrArg SCNVector3.x hscale) (by norm_num [SCNVector3.uniform])

end LocationViewController

end MagicChat
