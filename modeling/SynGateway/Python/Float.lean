import Mathlib.Data.Int.Log
import SynGateway.Python.Num
import SynGateway.Python.Text

/-!
# Floats

The float nearest to a rational, and its text. A float is the rational that it stands for: 53 bits,
and a last place of at least `2^-1074`. Rounding to the nearest one keeps the order
(`toDouble_mono`), and an integer of up to 53 bits is a float itself (`toDouble_intCast`).

`repr(x)` is made of the shortest digits that read back as the same float, with an exponent only for
large and for small ones. Infinities are left out; a quotient that is too large for a float raises
an error (`trueDiv`).
-/

namespace SynGateway.Python

/-- The exponent of the last place of the float nearest to `x`. -/
def lastPlace (x : ℚ) : ℤ := max (Int.log 2 |x| - 52) (-1074)

/-- The float nearest to `x`, the one with the even mantissa of two. -/
def toDouble (x : ℚ) : ℚ := round (x / 2 ^ lastPlace x) * 2 ^ lastPlace x

/-- `a / b` of two integers: the float nearest to the quotient. `none` is an `OverflowError`; zero
divisors are left out. -/
def trueDiv (a b : ℤ) : Option ℚ :=
  if |toDouble (a / b)| < 2 ^ 1024 then some (toDouble (a / b)) else none

/-! ## Rounding to a float -/

section

variable {x y : ℚ} {k : ℤ}

/-- The last place of a float is positive. -/
theorem lastPlace_pos (x : ℚ) : (0 : ℚ) < 2 ^ lastPlace x := zpow_pos (by norm_num) _

/-- The last place does not depend on the sign. -/
@[simp] theorem lastPlace_neg (x : ℚ) : lastPlace (-x) = lastPlace x := by
  unfold lastPlace
  rw [abs_neg]

/-- Rounding commutes with the sign. -/
@[simp] theorem toDouble_neg (x : ℚ) : toDouble (-x) = -toDouble x := by
  unfold toDouble
  rw [lastPlace_neg, neg_div, round_neg, Int.cast_neg, neg_mul]

/-- What is not negative rounds to what is not negative. -/
theorem toDouble_nonneg (h : 0 ≤ x) : 0 ≤ toDouble x := by
  refine mul_nonneg (Int.cast_nonneg ?_) (lastPlace_pos x).le
  rw [← Python.round_intCast 0]
  exact round_mono (by simpa using div_nonneg h (lastPlace_pos x).le)

/-- A power of two that is not below the last place is a whole number of last places. -/
theorem zpow_eq_mul (h : lastPlace x ≤ k) :
    (2 : ℚ) ^ k = ((2 ^ (k - lastPlace x).toNat : ℤ) : ℚ) * 2 ^ lastPlace x := by
  rw [Int.cast_pow, Int.cast_ofNat, ← zpow_natCast, ← zpow_add₀ two_ne_zero,
    Int.toNat_of_nonneg (sub_nonneg.mpr h), sub_add_cancel]

/-- Rounding stays below a whole number of last places. -/
theorem toDouble_le_of_le {n : ℤ} (h : x ≤ n * 2 ^ lastPlace x) :
    toDouble x ≤ n * 2 ^ lastPlace x := by
  refine mul_le_mul_of_nonneg_right ?_ (lastPlace_pos x).le
  have hround := round_mono ((div_le_iff₀ (lastPlace_pos x)).mpr h)
  rw [Python.round_intCast] at hround
  exact_mod_cast hround

/-- Rounding stays above a whole number of last places. -/
theorem le_toDouble_of_le {n : ℤ} (h : n * 2 ^ lastPlace x ≤ x) :
    n * 2 ^ lastPlace x ≤ toDouble x := by
  refine mul_le_mul_of_nonneg_right ?_ (lastPlace_pos x).le
  have hround := round_mono ((le_div_iff₀ (lastPlace_pos x)).mpr h)
  rw [Python.round_intCast] at hround
  exact_mod_cast hround

/-- A whole number of last places is a float. -/
theorem toDouble_eq_self {n : ℤ} (h : x = n * 2 ^ lastPlace x) : toDouble x = x := by
  have hlow := le_toDouble_of_le h.ge
  have hhigh := toDouble_le_of_le h.le
  rw [← h] at hlow hhigh
  exact le_antisymm hhigh hlow

/-- The last place grows with the number. -/
theorem lastPlace_mono (hx : 0 < x) (hxy : x ≤ y) : lastPlace x ≤ lastPlace y := by
  unfold lastPlace
  rw [abs_of_pos hx, abs_of_pos (hx.trans_le hxy)]
  exact max_le_max (sub_le_sub_right (Int.log_mono_right hx hxy) 52) le_rfl

/-- Positive numbers keep their order. Where the last places differ, a power of two is in between.
-/
theorem toDouble_le_of_pos (hx : 0 < x) (hxy : x ≤ y) : toDouble x ≤ toDouble y := by
  have hy := hx.trans_le hxy
  rcases (lastPlace_mono hx hxy).eq_or_lt with hsame | hless
  · -- the two numbers have the same last place, and rounding is monotone there
    unfold toDouble
    rw [hsame]
    refine mul_le_mul_of_nonneg_right ?_ (lastPlace_pos y).le
    exact_mod_cast round_mono (div_le_div_of_nonneg_right hxy (lastPlace_pos y).le)
  · have hplaces : lastPlace y = Int.log 2 y - 52 ∧ Int.log 2 x < Int.log 2 y := by
      unfold lastPlace at hless ⊢
      rw [abs_of_pos hx, abs_of_pos hy] at *
      omega
    obtain ⟨hplace, hlog⟩ := hplaces
    -- a power of two lies between them, and is a double itself
    have hbelow : x ≤ 2 ^ Int.log 2 y := by
      have hsucc := (Int.lt_zpow_succ_log_self (R := ℚ) one_lt_two x).le
      have hpow : ((2 : ℕ) : ℚ) ^ (Int.log 2 x + 1) ≤ ((2 : ℕ) : ℚ) ^ Int.log 2 y :=
        zpow_le_zpow_right₀ (by norm_num) (Int.add_one_le_of_lt hlog)
      exact_mod_cast hsucc.trans hpow
    have habove : (2 : ℚ) ^ Int.log 2 y ≤ y := by
      exact_mod_cast Int.zpow_log_le_self one_lt_two hy
    have hxplace := zpow_eq_mul (x := x) (k := Int.log 2 y) (by omega)
    have hyplace := zpow_eq_mul (x := y) (k := Int.log 2 y) (by omega)
    calc toDouble x ≤ 2 ^ Int.log 2 y := by
          rw [hxplace] at hbelow ⊢
          exact toDouble_le_of_le hbelow
      _ ≤ toDouble y := by
          rw [hyplace] at habove ⊢
          exact le_toDouble_of_le habove

/-- **Rounding to a float keeps the order.** -/
theorem toDouble_mono : Monotone toDouble := by
  intro x y hxy
  rcases lt_trichotomy 0 x with hx | rfl | hx
  · exact toDouble_le_of_pos hx hxy
  · have hzero : toDouble 0 = 0 := toDouble_eq_self (n := 0) (by simp)
    rw [hzero]
    exact toDouble_nonneg hxy
  · rcases le_or_gt 0 y with hy | hy
    · have hneg := toDouble_nonneg (neg_nonneg.mpr hx.le)
      rw [toDouble_neg] at hneg
      exact (neg_nonneg.mp hneg).trans (toDouble_nonneg hy)
    · have hneg := toDouble_le_of_pos (neg_pos.mpr hy) (neg_le_neg hxy)
      rw [toDouble_neg, toDouble_neg] at hneg
      exact neg_le_neg_iff.mp hneg

/-- A power of two is a float. -/
theorem toDouble_two_pow (k : ℕ) : toDouble (2 ^ k) = 2 ^ k := by
  have hlog : Int.log 2 |(2 : ℚ) ^ k| = k := by
    have hlog := Int.log_zpow (R := ℚ) one_lt_two (k : ℤ)
    rw [zpow_natCast] at hlog
    rw [abs_of_pos (by positivity)]
    exact_mod_cast hlog
  have hplace : lastPlace ((2 : ℚ) ^ k) ≤ k := by
    unfold lastPlace
    omega
  have hwhole := zpow_eq_mul hplace
  rw [zpow_natCast] at hwhole
  exact toDouble_eq_self hwhole

/-- **An integer of up to 53 bits is a float.** -/
theorem toDouble_intCast {n : ℤ} (h : |n| ≤ 2 ^ 53) : toDouble n = n := by
  rcases h.eq_or_lt with heq | hlt
  · -- `2 ** 53` itself needs one digit more, and is a power of two
    rcases abs_choice n with hn | hn
    · rw [hn] at heq
      rw [heq]
      exact_mod_cast toDouble_two_pow 53
    · rw [hn] at heq
      rw [← neg_neg n, heq, Int.cast_neg, toDouble_neg]
      exact_mod_cast congrArg Neg.neg (toDouble_two_pow 53)
  · by_cases hzero : n = 0
    · rw [hzero]
      exact toDouble_eq_self (n := 0) (by simp)
    · -- below it the last place is at most the units, so `n` is a multiple of it
      have hlog : Int.log 2 |(n : ℚ)| < 53 := by
        refine (Int.lt_zpow_iff_log_lt one_lt_two (abs_pos.mpr (Int.cast_ne_zero.mpr hzero))).mp ?_
        exact_mod_cast hlt
      have hplace : lastPlace (n : ℚ) ≤ 0 := by
        unfold lastPlace
        omega
      refine toDouble_eq_self (n := n * 2 ^ (0 - lastPlace (n : ℚ)).toNat) ?_
      rw [Int.cast_mul, mul_assoc, ← zpow_eq_mul hplace, zpow_zero, mul_one]

/-- A bound by a power of two carries over to the float. -/
theorem abs_toDouble_le {k : ℕ} (h : |x| ≤ 2 ^ k) : |toDouble x| ≤ 2 ^ k := by
  obtain ⟨hlow, hhigh⟩ := abs_le.mp h
  have hmin := toDouble_mono hlow
  have hmax := toDouble_mono hhigh
  rw [toDouble_neg, toDouble_two_pow] at hmin
  rw [toDouble_two_pow] at hmax
  exact abs_le.mpr ⟨hmin, hmax⟩

end

/-! ## The text of a float -/

/-- `x` to `p` decimal digits, as the digits and the power of ten of the last. -/
def toDigits (p : ℕ) (x : ℚ) : ℕ × ℤ :=
  let e := Int.log 10 x - p + 1
  ((round (x / 10 ^ e)).toNat, e)

/-- The fewest decimal digits, but at most 17, that read back as the float `x`. -/
def shortestDigits (x : ℚ) : ℕ × ℤ :=
  let readsBack (p : ℕ) : Bool := toDouble ((toDigits p x).1 * 10 ^ (toDigits p x).2) = x
  toDigits (((List.range' 1 17).find? readsBack).getD 17) x

/-- The digits with the decimal point behind the first of them, and an exponent of at least two
digits. -/
def scientific (digits : Text) (exponent : ℤ) : Text :=
  let fraction := if digits.length ≤ 1 then [] else '.' :: digits.tail
  let digitsOfExponent := Nat.toDigits 10 exponent.natAbs
  digits.headD '0' :: (fraction ++ 'e' :: (if exponent < 0 then '-' else '+') ::
    (List.replicate (2 - digitsOfExponent.length) '0' ++ digitsOfExponent))

/-- The digits with the decimal point behind the first `point` of them. -/
def placePoint (digits : Text) (point : ℤ) : Text :=
  if point ≤ -4 ∨ 16 < point then scientific digits (point - 1)
  else if point ≤ 0 then '0' :: '.' :: (List.replicate (-point).toNat '0' ++ digits)
  else if digits.length ≤ point then
    digits ++ List.replicate (point.toNat - digits.length) '0' ++ ".0".toList
  else digits.take point.toNat ++ '.' :: digits.drop point.toNat

/-- `repr(x)` of the float nearest to `x`. -/
def reprFloat (x : ℚ) : Text :=
  if x = 0 then "0.0".toList
  else
    let (digits, e) := shortestDigits (toDouble |x|)
    let all := Nat.toDigits 10 digits
    (if x < 0 then ['-'] else []) ++ placePoint (rstrip '0' all) (all.length + e)

end SynGateway.Python
