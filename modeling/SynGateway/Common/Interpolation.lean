import Mathlib.Data.Int.ConditionallyCompleteOrder
import Mathlib.Algebra.Order.Floor.Ring
import Mathlib.Order.Interval.Set.Defs
import Mathlib.Tactic.Linarith
import Mathlib.Tactic.Ring

/-!
# Linear interpolation

A sequence over the integers, read at the points between them: on the line from one entry to the
next. A monotone sequence is monotone there too.
-/

namespace SynGateway.Interpolation

variable {K : Type*} [Field K] [LinearOrder K] [FloorRing K]

/-- The sequence at `k`, on the line from its entry below to its entry above. -/
def lerp (s : ℤ → K) (k : K) : K := s ⌊k⌋ + Int.fract k * (s ⌈k⌉ - s ⌊k⌋)

variable {s : ℤ → K} {k l : K}

/-- At an integer it is the entry. -/
theorem lerp_of_floor_eq_ceil (h : ⌊k⌋ = ⌈k⌉) : lerp s k = s ⌊k⌋ := by
  unfold lerp
  rw [← h, sub_self, mul_zero, add_zero]

variable [IsStrictOrderedRing K]

/-- Elsewhere the two entries are weighted by the distance to the other one. -/
theorem lerp_of_floor_ne_ceil (h : ⌊k⌋ ≠ ⌈k⌉) :
    lerp s k = s ⌊k⌋ * (⌈k⌉ - k) + s ⌈k⌉ * (k - ⌊k⌋) := by
  have hceil : ⌈k⌉ = ⌊k⌋ + 1 :=
    le_antisymm (Int.ceil_le_floor_add_one k)
      (Int.add_one_le_of_lt (lt_of_le_of_ne (Int.floor_le_ceil k) h))
  unfold lerp Int.fract
  rw [hceil]
  push_cast
  ring

/-- The interpolation is not below its left neighbour. -/
theorem left_le_lerp (h : s ⌊k⌋ ≤ s ⌈k⌉) : s ⌊k⌋ ≤ lerp s k :=
  le_add_of_nonneg_right (mul_nonneg (Int.fract_nonneg k) (sub_nonneg.mpr h))

/-- The interpolation is not above its right neighbour. -/
theorem lerp_le_right (h : s ⌊k⌋ ≤ s ⌈k⌉) : lerp s k ≤ s ⌈k⌉ := by
  have hpart : Int.fract k * (s ⌈k⌉ - s ⌊k⌋) ≤ 1 * (s ⌈k⌉ - s ⌊k⌋) :=
    mul_le_mul_of_nonneg_right (Int.fract_lt_one k).le (sub_nonneg.mpr h)
  unfold lerp
  linarith

/-- Between two neighbouring entries. -/
theorem lerp_le_lerp_of_floor_eq (hfloor : ⌊k⌋ = ⌊l⌋) (hkl : k ≤ l) (hl : s ⌊l⌋ ≤ s ⌈l⌉) :
    lerp s k ≤ lerp s l := by
  by_cases hk : ⌊k⌋ = ⌈k⌉
  · rw [lerp_of_floor_eq_ceil hk, hfloor]
    exact left_le_lerp hl
  · -- neither point is an integer, so both have the same entry above
    have hceil : ⌈k⌉ = ⌈l⌉ := by
      have hbelow := Int.floor_le_ceil k
      have hupper := Int.ceil_le_floor_add_one l
      have hmono := Int.ceil_mono hkl
      omega
    have hfract : Int.fract k ≤ Int.fract l := by
      unfold Int.fract
      rw [hfloor]
      linarith
    unfold lerp
    rw [hfloor, hceil]
    exact add_le_add_right (mul_le_mul_of_nonneg_right hfract (sub_nonneg.mpr hl)) _

variable {a b : ℤ}

/-- The left neighbour is in the range. -/
theorem floor_mem (hk : k ∈ Set.Icc (a : K) b) : ⌊k⌋ ∈ Set.Icc a b :=
  ⟨Int.le_floor.mpr hk.1, Int.cast_le.mp ((Int.floor_le k).trans hk.2)⟩

/-- The right neighbour is in the range. -/
theorem ceil_mem (hk : k ∈ Set.Icc (a : K) b) : ⌈k⌉ ∈ Set.Icc a b :=
  ⟨Int.cast_le.mp (hk.1.trans (Int.le_ceil k)), Int.ceil_le.mpr hk.2⟩

/-- In a sorted range the left neighbour is not above the right one. -/
theorem floor_le_ceil_of_monotoneOn (hs : MonotoneOn s (Set.Icc a b)) (hk : k ∈ Set.Icc (a : K) b) :
    s ⌊k⌋ ≤ s ⌈k⌉ :=
  hs (floor_mem hk) (ceil_mem hk) (Int.floor_le_ceil k)

/-- **Monotone between the entries.** -/
theorem lerp_mono (hs : MonotoneOn s (Set.Icc a b)) : MonotoneOn (lerp s) (Set.Icc (a : K) b) := by
  intro k hk l hl hkl
  rcases (Int.floor_mono hkl).eq_or_lt with hfloor | hfloor
  · exact lerp_le_lerp_of_floor_eq hfloor hkl (floor_le_ceil_of_monotoneOn hs hl)
  · have hbetween : ⌈k⌉ ≤ ⌊l⌋ := (Int.ceil_le_floor_add_one k).trans (Int.add_one_le_of_lt hfloor)
    calc lerp s k ≤ s ⌈k⌉ := lerp_le_right (floor_le_ceil_of_monotoneOn hs hk)
      _ ≤ s ⌊l⌋ := hs (ceil_mem hk) (floor_mem hl) hbetween
      _ ≤ lerp s l := left_le_lerp (floor_le_ceil_of_monotoneOn hs hl)

end SynGateway.Interpolation
