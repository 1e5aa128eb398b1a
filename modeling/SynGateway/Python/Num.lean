import Mathlib.Data.Int.ConditionallyCompleteOrder
import Mathlib.Data.Rat.Floor
import Mathlib.Algebra.Order.Floor.Ring
import Mathlib.Tactic.Linarith
import Mathlib.Tactic.Ring

/-!
# Numbers

The arithmetic of Python's numbers that the gateway computes with, on exact rationals: the floored
remainder `a % b`, the truncation `int(x)` and `round(x)`.
-/

namespace SynGateway.Python

/-- `a % b`: the remainder of the floored quotient, with the sign of `b`. -/
def mod (a b : ℚ) : ℚ := a - b * ⌊a / b⌋

/-- `int(x)`: the integer part of `x`, rounded towards zero. -/
def int (x : ℚ) : ℤ := if 0 ≤ x then ⌊x⌋ else ⌈x⌉

/-- `round(x)`: the nearest integer, the even one of two. -/
def round (x : ℚ) : ℤ :=
  if x - ⌊x⌋ < 1 / 2 then ⌊x⌋
  else if 1 / 2 < x - ⌊x⌋ then ⌊x⌋ + 1
  else if 2 ∣ ⌊x⌋ then ⌊x⌋
  else ⌊x⌋ + 1

/-- What is left of `a` without its remainder is the multiple of `b` below it. -/
theorem sub_mod (a b : ℚ) : a - mod a b = b * ⌊a / b⌋ := by
  unfold mod
  ring

theorem int_of_nonneg {x : ℚ} (h : 0 ≤ x) : int x = ⌊x⌋ := if_pos h

theorem floor_le_round (x : ℚ) : ⌊x⌋ ≤ round x := by
  unfold round
  split_ifs <;> omega

theorem round_le_floor_add_one (x : ℚ) : round x ≤ ⌊x⌋ + 1 := by
  unfold round
  split_ifs <;> omega

@[simp] protected theorem round_intCast (n : ℤ) : round n = n := by
  have hlow : (n : ℚ) - ⌊(n : ℚ)⌋ < 1 / 2 := by
    rw [Int.floor_intCast, sub_self]
    norm_num
  unfold round
  rw [if_pos hlow, Int.floor_intCast]

/-- Rounding keeps the order, at the halves as well. -/
theorem round_mono : Monotone round := by
  intro x y hxy
  rcases (Int.floor_mono hxy).eq_or_lt with hfloor | hfloor
  · unfold round
    rw [hfloor]
    split_ifs <;> first | omega | linarith
  · calc round x ≤ ⌊x⌋ + 1 := round_le_floor_add_one x
      _ ≤ ⌊y⌋ := hfloor
      _ ≤ round y := floor_le_round y

/-- Rounding commutes with the sign: the even one of two neighbours is even on either side of zero.
-/
theorem round_neg (x : ℚ) : round (-x) = -round x := by
  by_cases hint : (⌊x⌋ : ℚ) = x
  · rw [← hint, ← Int.cast_neg, Python.round_intCast, Python.round_intCast]
  · -- between two integers, the distances to them change places
    have hlow : (⌊x⌋ : ℚ) < x := lt_of_le_of_ne (Int.floor_le x) hint
    have hfloor : ⌊-x⌋ = -⌊x⌋ - 1 := by
      rw [Int.floor_eq_iff]
      push_cast
      constructor <;> linarith [Int.lt_floor_add_one x]
    unfold round
    rw [hfloor]
    push_cast
    split_ifs <;> first | omega | (exfalso; linarith)

end SynGateway.Python
