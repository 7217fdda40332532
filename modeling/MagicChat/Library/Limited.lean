import Mathlib.Order.MinMax

/-!
# Limited values

A value limited to an interval: the lower limit where it is below, the upper
limit where it is above, and itself in between.
-/

/-- A value limited to an interval. -/
def limited {α : Type*} [LinearOrder α] (lower upper value : α) : α :=
  max lower (min value upper)

section limited

variable {α : Type*} [LinearOrder α] {lower upper value : α}

theorem limited_mono {value' : α} (h : value ≤ value') :
    limited lower upper value ≤ limited lower upper value' :=
  max_le_max le_rfl (min_le_min h le_rfl)

theorem limited_of_le (h : value ≤ lower) : limited lower upper value = lower :=
  max_eq_left ((min_le_left _ _).trans h)

theorem limited_of_mem (hlower : lower ≤ value) (hupper : value ≤ upper) :
    limited lower upper value = value := by
  rw [limited, min_eq_left hupper, max_eq_right hlower]

/-- The upper limit is reached from there on. -/
theorem limited_eq_upper_iff (h : lower < upper) :
    limited lower upper value = upper ↔ upper ≤ value := by
  constructor
  · intro heq
    by_contra hlt
    exact (max_lt h ((min_le_left _ _).trans_lt (not_le.1 hlt))).ne heq
  · intro hle
    rw [limited, min_eq_right hle, max_eq_right h.le]

end limited
