import Mathlib.Algebra.Order.Field.Rat
import Mathlib.Data.Int.Log
import Mathlib.Data.Rat.Floor
import Mathlib.Tactic.Linarith
import Mathlib.Tactic.NormNum
import Mathlib.Tactic.Positivity

/-!
# Doubles

The numbers of IEEE 754 binary64 as rationals.  `round` takes a rational to the double nearest to
it, a tie to the even one, as each operation of the arithmetic does with its exact result.
Magnitudes that overflow are not treated.

An error is at most half of the last bit (`abs_round_sub_le`), which for numbers that are not tiny
is at most one part in `2 ^ 53` of the number itself (`abs_round_sub_le_mul`).
-/

namespace Binary64

def roundEven (q : ℚ) : ℤ :=
  let n := ⌊q⌋
  if q - n < 1 / 2 then n
  else if 1 / 2 < q - n then n + 1
  else if n % 2 = 0 then n else n + 1

theorem abs_roundEven_sub_le (q : ℚ) : |(roundEven q : ℚ) - q| ≤ 1 / 2 := by
  have hle := Int.floor_le q
  have hlt := Int.lt_floor_add_one q
  unfold roundEven
  rw [abs_le]
  by_cases hlow : q - ⌊q⌋ < 1 / 2
  · rw [if_pos hlow]
    constructor <;> linarith
  · rw [if_neg hlow]
    by_cases hhigh : 1 / 2 < q - ⌊q⌋
    · rw [if_pos hhigh]
      push_cast
      constructor <;> linarith
    · rw [if_neg hhigh]
      split_ifs
      · constructor <;> linarith
      · push_cast
        constructor <;> linarith

/-- The exponent of the last bit that a double of this magnitude has. -/
def lastBit (q : ℚ) : ℤ := max (Int.log 2 |q| - 52) (-1074)

def round (q : ℚ) : ℚ := roundEven (q / 2 ^ lastBit q) * 2 ^ lastBit q

theorem round_zero : round 0 = 0 := by
  have hzero : roundEven 0 = 0 := by simp [roundEven]
  simp [round, hzero]

theorem abs_round_sub_le (q : ℚ) : |round q - q| ≤ 2 ^ lastBit q / 2 := by
  have hpos : (0 : ℚ) < 2 ^ lastBit q := zpow_pos (by norm_num) _
  have hscale : round q - q = (roundEven (q / 2 ^ lastBit q) - q / 2 ^ lastBit q) *
      2 ^ lastBit q := by
    rw [round, sub_mul, div_mul_cancel₀ _ hpos.ne']
  rw [hscale, abs_mul, abs_of_pos hpos]
  calc |(roundEven (q / 2 ^ lastBit q) : ℚ) - q / 2 ^ lastBit q| * 2 ^ lastBit q
      ≤ 1 / 2 * 2 ^ lastBit q :=
        mul_le_mul_of_nonneg_right (abs_roundEven_sub_le _) hpos.le
    _ = 2 ^ lastBit q / 2 := by ring

/-- A number that is not tiny is rounded by at most one part in `2 ^ 53`. -/
theorem abs_round_sub_le_mul {q : ℚ} (h : 2 ^ (-1022 : ℤ) ≤ |q|) :
    |round q - q| ≤ |q| / 2 ^ 53 := by
  have hpos : 0 < |q| := lt_of_lt_of_le (zpow_pos (by norm_num) _) h
  have hlog : (2 : ℚ) ^ Int.log 2 |q| ≤ |q| := Int.zpow_log_le_self (by decide) hpos
  have hbig : -1022 ≤ Int.log 2 |q| := by
    have hone := (Int.zpow_le_iff_le_log (b := 2) (by decide) hpos (x := -1022)).mp h
    exact hone
  have hlast : lastBit q = Int.log 2 |q| - 52 := max_eq_left (by omega)
  calc |round q - q| ≤ 2 ^ lastBit q / 2 := abs_round_sub_le q
    _ = 2 ^ Int.log 2 |q| / 2 ^ 53 := by
      rw [hlast, zpow_sub₀ (by norm_num)]
      norm_num
      ring
    _ ≤ |q| / 2 ^ 53 := div_le_div_of_nonneg_right hlog (by positivity)

/-- `Math.round`: the nearest integer, a half up. -/
def mathRound (q : ℚ) : ℤ := ⌊q + 1 / 2⌋

theorem mathRound_eq {q : ℚ} {n : ℤ} (h : |q - n| < 1 / 2) : mathRound q = n := by
  obtain ⟨hlow, hhigh⟩ := abs_lt.mp h
  refine Int.floor_eq_iff.mpr ⟨?_, ?_⟩
  · linarith
  · linarith

/-! ## Hundredths -/

/-- The double nearest to a number of hundredths is off by less than anybody sees. -/
theorem abs_round_hundredths (n : ℤ) : |round (n / 100) - n / 100| ≤ |(n : ℚ)| / 100 / 2 ^ 53 := by
  by_cases hn : n = 0
  · subst hn
    simp [round_zero]
  · have hone : (1 : ℚ) ≤ |(n : ℚ)| := by exact_mod_cast Int.one_le_abs hn
    have habs : |(n : ℚ) / 100| = |(n : ℚ)| / 100 := by rw [abs_div]; norm_num
    have hbig : (2 : ℚ) ^ (-1022 : ℤ) ≤ |(n : ℚ) / 100| := by
      rw [habs]
      calc (2 : ℚ) ^ (-1022 : ℤ) ≤ 2 ^ (-7 : ℤ) := zpow_le_zpow_right₀ (by norm_num) (by norm_num)
        _ ≤ 1 / 100 := by norm_num
        _ ≤ |(n : ℚ)| / 100 := by linarith
    have hround := abs_round_sub_le_mul hbig
    rwa [habs] at hround

/-- Divided by a hundred and multiplied by it again, an integer is close to itself. -/
theorem abs_round_mul_hundred {n : ℤ} (hn : |n| ≤ 2 ^ 50) :
    |round (round (n / 100) * 100) - n| < 1 / 2 := by
  by_cases hzero : n = 0
  · subst hzero
    norm_num [round_zero]
  · let x := round ((n : ℚ) / 100)
    have hone : (1 : ℚ) ≤ |(n : ℚ)| := by exact_mod_cast Int.one_le_abs hzero
    have hle : |(n : ℚ)| ≤ 2 ^ 50 := by exact_mod_cast hn
    have hx : |x - n / 100| ≤ |(n : ℚ)| / 100 / 2 ^ 53 := abs_round_hundredths n
    have hdiff : |x * 100 - n| ≤ |(n : ℚ)| / 2 ^ 53 := by
      have hscale : x * 100 - n = (x - n / 100) * 100 := by ring
      rw [hscale, abs_mul]
      norm_num at hx ⊢
      linarith
    have hupper : |x * 100| ≤ |(n : ℚ)| + |(n : ℚ)| / 2 ^ 53 := by
      have htri := abs_add_le (x * 100 - n) n
      rw [sub_add_cancel] at htri
      linarith
    have hlower : |(n : ℚ)| - |(n : ℚ)| / 2 ^ 53 ≤ |x * 100| := by
      have htri := abs_sub_abs_le_abs_sub (n : ℚ) (x * 100)
      rw [abs_sub_comm] at htri
      linarith
    have hbig : (2 : ℚ) ^ (-1022 : ℤ) ≤ |x * 100| := by
      calc (2 : ℚ) ^ (-1022 : ℤ) ≤ 2 ^ (-1 : ℤ) := zpow_le_zpow_right₀ (by norm_num) (by norm_num)
        _ ≤ |(n : ℚ)| - |(n : ℚ)| / 2 ^ 53 := by norm_num; linarith
        _ ≤ |x * 100| := hlower
    have hround : |round (x * 100) - x * 100| ≤ |x * 100| / 2 ^ 53 := abs_round_sub_le_mul hbig
    have hsum : |round (x * 100) - n| ≤ |round (x * 100) - x * 100| + |x * 100 - n| :=
      abs_sub_le _ _ _
    calc |round (x * 100) - n|
        ≤ (|(n : ℚ)| + |(n : ℚ)| / 2 ^ 53) / 2 ^ 53 + |(n : ℚ)| / 2 ^ 53 := by
          have hdiv := div_le_div_of_nonneg_right hupper (by positivity : (0 : ℚ) ≤ 2 ^ 53)
          linarith
      _ < 1 / 2 := by norm_num at hle ⊢; linarith

end Binary64
