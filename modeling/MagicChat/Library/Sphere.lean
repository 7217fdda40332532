import Mathlib.Data.Fin.VecNotation
import Mathlib.LinearAlgebra.Matrix.NonsingularInverse
import Mathlib.LinearAlgebra.Matrix.Notation
import Mathlib.Tactic.LinearCombination

/-!
# Directions on a sphere

A sine and a cosine on a commutative ring (`Trig`), of which the Pythagorean
identity and the subtraction of angles are known, and what follows from these:

* the unit vectors of the places of a sphere, given by latitude and longitude,
  and at each place the frame of the directions east, north and up
  (`Trig.east`, `Trig.north`, `Trig.point`), which is orthonormal, and in which
  every vector can be written (`Lawful.frame`);
* a place as it is seen from another one: its components to the east and to
  the north are the arguments of the spherical bearing (`Lawful.point_east`,
  `Lawful.point_north`);
* the rotation about the second axis, in homogeneous coordinates, whose inverse
  is its transpose (`Lawful.aboutY_mul_transpose`).
-/

open Matrix

/-- A sine and a cosine. -/
structure Trig (K : Type*) where
  sin : K → K
  cos : K → K

namespace Trig

variable {K : Type*} [CommRing K] (F : Trig K)

/-- The laws of a sine and a cosine. -/
structure Lawful : Prop where
  sin_sq_add_cos_sq (a : K) : F.sin a ^ 2 + F.cos a ^ 2 = 1
  sin_sub (a b : K) : F.sin (a - b) = F.sin a * F.cos b - F.cos a * F.sin b
  cos_sub (a b : K) : F.cos (a - b) = F.cos a * F.cos b + F.sin a * F.sin b

/-- The unit vector of a place of the sphere, which is the direction up there. -/
def point (lat lon : K) : Fin 3 → K :=
  ![F.cos lat * F.cos lon, F.cos lat * F.sin lon, F.sin lat]

/-- The direction east at a place of the given longitude. -/
def east (lon : K) : Fin 3 → K := ![-F.sin lon, F.cos lon, 0]

/-- The direction north at a place. -/
def north (lat lon : K) : Fin 3 → K :=
  ![-(F.sin lat * F.cos lon), -(F.sin lat * F.sin lon), F.cos lat]

/-- The rotation about the second axis, in homogeneous coordinates. -/
def aboutY (a : K) : Matrix (Fin 4) (Fin 4) K :=
  !![F.cos a, 0, F.sin a, 0;
     0, 1, 0, 0;
     -F.sin a, 0, F.cos a, 0;
     0, 0, 0, 1]

namespace Lawful

variable {F} (h : F.Lawful)

include h

/-! ## The frame at a place -/

theorem point_point (lat lon : K) : F.point lat lon ⬝ᵥ F.point lat lon = 1 := by
  have hlat := h.sin_sq_add_cos_sq lat
  have hlon := h.sin_sq_add_cos_sq lon
  simp only [point, dotProduct, Fin.sum_univ_three, cons_val]
  linear_combination hlat + F.cos lat ^ 2 * hlon

/-- A vector is made of its components to the east, to the north and up. -/
theorem frame (lat lon : K) (v : Fin 3 → K) :
    v = (v ⬝ᵥ F.east lon) • F.east lon + (v ⬝ᵥ F.north lat lon) • F.north lat lon +
      (v ⬝ᵥ F.point lat lon) • F.point lat lon := by
  have hlat := h.sin_sq_add_cos_sq lat
  have hlon := h.sin_sq_add_cos_sq lon
  have hplane : v 0 * F.cos lon + v 1 * F.sin lon =
      (F.sin lat ^ 2 + F.cos lat ^ 2) * (v 0 * F.cos lon + v 1 * F.sin lon) := by
    rw [hlat, one_mul]
  ext i
  fin_cases i <;>
    simp only [point, east, north, dotProduct, Fin.sum_univ_three, Pi.add_apply, Pi.smul_apply,
      smul_eq_mul, Fin.zero_eta, Fin.mk_one, Fin.reduceFinMk, cons_val]
  · linear_combination F.cos lon * hplane - v 0 * hlon
  · linear_combination F.sin lon * hplane - v 1 * hlon
  · linear_combination -v 2 * hlat

/-- The squares of the components add up. -/
theorem sq_components (lat lon : K) (v : Fin 3 → K) :
    (v ⬝ᵥ F.east lon) ^ 2 + (v ⬝ᵥ F.north lat lon) ^ 2 + (v ⬝ᵥ F.point lat lon) ^ 2 = v ⬝ᵥ v := by
  have hv := congrArg (v ⬝ᵥ ·) (h.frame lat lon v)
  simp only [dotProduct_add, dotProduct_smul, smul_eq_mul] at hv
  linear_combination -hv

/-! ## A place seen from another one -/

theorem point_east (lat₂ lon₁ lon₂ : K) :
    F.point lat₂ lon₂ ⬝ᵥ F.east lon₁ = F.sin (lon₂ - lon₁) * F.cos lat₂ := by
  simp only [point, east, dotProduct, Fin.sum_univ_three, cons_val]
  rw [h.sin_sub]
  ring

theorem point_north (lat₁ lon₁ lat₂ lon₂ : K) :
    F.point lat₂ lon₂ ⬝ᵥ F.north lat₁ lon₁ =
      F.cos lat₁ * F.sin lat₂ - F.sin lat₁ * F.cos lat₂ * F.cos (lon₂ - lon₁) := by
  simp only [point, north, dotProduct, Fin.sum_univ_three, cons_val]
  rw [h.cos_sub]
  ring

/-! ## The rotation -/

/-- The inverse of the rotation is its transpose. -/
theorem aboutY_mul_transpose (a : K) : F.aboutY a * (F.aboutY a)ᵀ = 1 := by
  have ha := h.sin_sq_add_cos_sq a
  ext i j
  fin_cases i <;> fin_cases j <;>
    simp [aboutY, mul_apply, Fin.sum_univ_four, one_apply]
  · linear_combination ha
  · ring
  · ring
  · linear_combination ha

end Lawful

end Trig
