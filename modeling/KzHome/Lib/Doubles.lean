import Mathlib.Algebra.Order.Floor.Ring
import Mathlib.Data.Int.Log
import Mathlib.Data.Rat.Floor
import Mathlib.Tactic.LinearCombination
import Mathlib.Tactic.Positivity

/-!
# KzHome.Lib.Doubles

Double precision: the numbers that a `float` stands for.

A number is rounded on the grid of its magnitude: 53 digits, down to the spacing of the subnormal
numbers (`spacing`). On one grid rounding keeps the order; that it does so across grids (`fl_mono`)
rests on the powers of two, which lie on all of them. The error is half of the spacing at most
(`abs_fl_sub_le`).
-/

namespace Doubles

/-! ### Whole numbers -/

/-- Rounding to the nearest integer, ties to even. -/
def roundHalfEven (q : ℚ) : Int :=
  if q - ⌊q⌋ < 1 / 2 then ⌊q⌋
  else if 1 / 2 < q - ⌊q⌋ then ⌊q⌋ + 1
  else if ⌊q⌋ % 2 = 0 then ⌊q⌋
  else ⌊q⌋ + 1

theorem floor_le_roundHalfEven (q : ℚ) : ⌊q⌋ ≤ roundHalfEven q := by
  unfold roundHalfEven
  split_ifs <;> omega

theorem roundHalfEven_le_floor_add_one (q : ℚ) : roundHalfEven q ≤ ⌊q⌋ + 1 := by
  unfold roundHalfEven
  split_ifs <;> omega

@[simp] theorem roundHalfEven_intCast (n : Int) : roundHalfEven n = n := by
  simp [roundHalfEven]

/-- Rounding keeps the order. -/
theorem roundHalfEven_mono {q r : ℚ} (h : q ≤ r) : roundHalfEven q ≤ roundHalfEven r := by
  rcases (Int.floor_le_floor h).lt_or_eq with hlt | heq
  · calc roundHalfEven q ≤ ⌊q⌋ + 1 := roundHalfEven_le_floor_add_one q
      _ ≤ ⌊r⌋ := hlt
      _ ≤ roundHalfEven r := floor_le_roundHalfEven r
  · unfold roundHalfEven
    rw [← heq]
    have hfrac : q - ⌊q⌋ ≤ r - ⌊q⌋ := sub_le_sub_right h _
    split_ifs <;> first | omega | exfalso; linarith

/-- Rounding moves a number by half a unit at most. -/
theorem abs_roundHalfEven_sub_le (q : ℚ) : |(roundHalfEven q : ℚ) - q| ≤ 1 / 2 := by
  have hlow : (⌊q⌋ : ℚ) ≤ q := Int.floor_le q
  have hhigh : q < ⌊q⌋ + 1 := Int.lt_floor_add_one q
  unfold roundHalfEven
  split_ifs <;> push_cast <;> rw [abs_le] <;> constructor <;> linarith

/-! ### One grid -/

/-- The multiple of `2 ^ e` that is nearest to a number. -/
def roundTo (e : Int) (q : ℚ) : ℚ := roundHalfEven (q / 2 ^ e) * 2 ^ e

variable {e : Int} {q r : ℚ}

theorem roundTo_mono (e : Int) (h : q ≤ r) : roundTo e q ≤ roundTo e r := by
  have hpos : (0 : ℚ) < 2 ^ e := zpow_pos two_pos e
  refine mul_le_mul_of_nonneg_right ?_ hpos.le
  exact_mod_cast roundHalfEven_mono (div_le_div_of_nonneg_right h hpos.le)

theorem abs_roundTo_sub_le (e : Int) (q : ℚ) : |roundTo e q - q| ≤ 2 ^ e / 2 := by
  have hpos : (0 : ℚ) < 2 ^ e := zpow_pos two_pos e
  have hq : roundTo e q - q = (roundHalfEven (q / 2 ^ e) - q / 2 ^ e) * 2 ^ e := by
    rw [roundTo, sub_mul, div_mul_cancel₀ q hpos.ne']
  calc |roundTo e q - q| = |(roundHalfEven (q / 2 ^ e) : ℚ) - q / 2 ^ e| * 2 ^ e := by
        rw [hq, abs_mul, abs_of_pos hpos]
    _ ≤ 1 / 2 * 2 ^ e := mul_le_mul_of_nonneg_right (abs_roundHalfEven_sub_le _) hpos.le
    _ = 2 ^ e / 2 := by ring

/-- What lies on the grid is left as it is. -/
theorem roundTo_of_eq {n : Int} (h : q = n * 2 ^ e) : roundTo e q = q := by
  have hpos : (0 : ℚ) < 2 ^ e := zpow_pos two_pos e
  rw [roundTo, h, mul_div_cancel_right₀ _ hpos.ne', roundHalfEven_intCast]

theorem roundTo_zero (e : Int) : roundTo e 0 = 0 := roundTo_of_eq (n := 0) (by simp)

theorem roundTo_intCast (n : Int) (h : e ≤ 0) : roundTo e n = n := by
  obtain ⟨k, rfl⟩ : ∃ k : Nat, e = -k := ⟨e.natAbs, by omega⟩
  refine roundTo_of_eq (n := n * 2 ^ k) ?_
  push_cast
  rw [zpow_neg, zpow_natCast, mul_assoc, mul_inv_cancel₀ (by positivity), mul_one]

theorem roundTo_zpow {m : Int} (h : e ≤ m) : roundTo e (2 ^ m) = 2 ^ m := by
  obtain ⟨k, rfl⟩ : ∃ k : Nat, m = k + e := ⟨(m - e).toNat, by omega⟩
  refine roundTo_of_eq (n := 2 ^ k) ?_
  push_cast
  rw [zpow_add₀ two_ne_zero, zpow_natCast]

/-! ### Doubles -/

/-- A double, by its value. -/
inductive Double
  | nan
  | inf (negative : Bool)
  | finite (q : ℚ)
  deriving DecidableEq

/-- The exponent of the grid of a number: 53 digits, down to the subnormal ones. -/
def spacing (q : ℚ) : Int := max (Int.log 2 |q| - 52) (-1074)

/-- Rounding to 53 digits. -/
def fl (q : ℚ) : ℚ := roundTo (spacing q) q

/-- The double nearest to a number. -/
def nearest (q : ℚ) : Double :=
  if 2 ^ (1024 : Nat) ≤ |fl q| then .inf (q < 0) else .finite (fl q)

@[simp] theorem fl_zero : fl 0 = 0 := roundTo_zero _

theorem fl_nonneg (h : 0 ≤ q) : 0 ≤ fl q := by
  rw [← roundTo_zero (spacing q)]
  exact roundTo_mono _ h

theorem fl_zpow {m : Int} (h : -1074 ≤ m) : fl (2 ^ m) = 2 ^ m := by
  have hlog : Int.log 2 |(2 : ℚ) ^ m| = m := by
    rw [abs_of_pos (zpow_pos two_pos m)]
    simpa using Int.log_zpow (R := ℚ) one_lt_two m
  refine roundTo_zpow ?_
  rw [spacing, hlog]
  exact max_le (by omega) h

theorem log_lt {m : Int} (h : |q| < 2 ^ m) (hq : q ≠ 0) : Int.log 2 |q| < m :=
  (Int.lt_zpow_iff_log_lt one_lt_two (abs_pos.mpr hq)).mp (by exact_mod_cast h)

/-- A whole number below `2 ^ 53` bounds what is rounded below it. -/
theorem fl_le_intCast {n : Int} (h : q ≤ n) (hq : |q| < 2 ^ (53 : Int)) : fl q ≤ n := by
  have he : spacing q ≤ 0 := by
    by_cases h0 : q = 0
    · simp [spacing, h0]
    · have hlog := log_lt hq h0
      exact max_le (by omega) (by omega)
  calc fl q ≤ roundTo (spacing q) n := roundTo_mono _ h
    _ = n := roundTo_intCast n he

/-- **The error of rounding** is half of the spacing. -/
theorem abs_fl_sub_le {m : Int} (h : |q| < 2 ^ m) (hm : -1021 ≤ m) : |fl q - q| ≤ 2 ^ (m - 54) := by
  by_cases h0 : q = 0
  · rw [h0, fl_zero, sub_zero, abs_zero]
    exact (zpow_pos two_pos _).le
  · have hlog := log_lt h h0
    have he : spacing q ≤ m - 53 := max_le (by omega) (by omega)
    calc |fl q - q| ≤ 2 ^ spacing q / 2 := abs_roundTo_sub_le _ q
      _ ≤ 2 ^ (m - 53) / 2 :=
          div_le_div_of_nonneg_right (zpow_le_zpow_right₀ one_le_two he) two_pos.le
      _ = 2 ^ (m - 54) := by
          rw [show m - 53 = m - 54 + 1 by ring, zpow_add_one₀ two_ne_zero,
            mul_div_cancel_right₀ _ two_ne_zero]

/-- **Rounding keeps the order.** Numbers of different magnitudes have a power of two between them,
which both grids contain. -/
theorem fl_mono (hq : 0 ≤ q) (h : q ≤ r) : fl q ≤ fl r := by
  rcases hq.eq_or_lt with rfl | hpos
  · rw [fl_zero]
    exact fl_nonneg h
  have hr : 0 < r := hpos.trans_le h
  have hlog : Int.log 2 q ≤ Int.log 2 r := Int.log_mono_right hpos h
  unfold fl spacing
  rw [abs_of_pos hpos, abs_of_pos hr]
  by_cases heq : max (Int.log 2 q - 52) (-1074) = max (Int.log 2 r - 52) (-1074)
  · rw [heq]
    exact roundTo_mono _ h
  · have hlt : Int.log 2 q < Int.log 2 r := by
      refine hlog.lt_of_ne fun hsame => heq (by rw [hsame])
    have hbelow : q ≤ 2 ^ Int.log 2 r :=
      ((Int.lt_zpow_iff_log_lt one_lt_two hpos).mpr hlt).le
    have habove : 2 ^ Int.log 2 r ≤ r := Int.zpow_log_le_self one_lt_two hr
    calc roundTo (max (Int.log 2 q - 52) (-1074)) q
        ≤ roundTo (max (Int.log 2 q - 52) (-1074)) (2 ^ Int.log 2 r) := roundTo_mono _ hbelow
      _ = 2 ^ Int.log 2 r := roundTo_zpow (by omega)
      _ = roundTo (max (Int.log 2 r - 52) (-1074)) (2 ^ Int.log 2 r) :=
          (roundTo_zpow (by omega)).symm
      _ ≤ roundTo (max (Int.log 2 r - 52) (-1074)) r := roundTo_mono _ habove

/-- The finite values of `nearest`. -/
theorem nearest_finite {x : ℚ} (h : nearest q = .finite x) : x = fl q := by
  unfold nearest at h
  split at h
  · cases h
  · exact (Double.finite.inj h).symm

end Doubles
