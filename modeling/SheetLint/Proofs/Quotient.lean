import SheetLint.Number.Binary64
import Mathlib.Algebra.Order.Field.Power
import Mathlib.Tactic.FieldSimp
import Mathlib.Tactic.Linarith
import Mathlib.Tactic.NormNum
import Mathlib.Tactic.Positivity
import Mathlib.Tactic.Ring

/-! The exponent of a quotient, and where quotients overflow. -/
namespace SheetLint.Number

/-- Short of an even number, a quotient is rounded up to it from halfway to it on. -/
theorem roundQuotient_eq_iff {num den bound : Nat} (positive : 0 < den) (even : bound % 2 = 0)
    (short : num < bound * den) :
    roundQuotient num den = bound ↔ 2 * (bound * den) ≤ 2 * num + den := by
  have whole := Nat.div_add_mod num den
  have small := Nat.mod_lt num positive
  have below : num / den < bound := (Nat.div_lt_iff_lt_mul positive).mpr short
  rcases Nat.lt_or_eq_of_le (Nat.succ_le_of_lt below) with further | last
  · have gap : (num / den + 2) * den ≤ bound * den := Nat.mul_le_mul_right den further
    rw [Nat.add_mul, Nat.mul_comm (num / den)] at gap
    unfold roundQuotient
    dsimp only
    split <;> omega
  · have gap : bound * den = den * (num / den) + den := by
      rw [← last, Nat.succ_mul, Nat.mul_comm]
    have up : roundQuotient num den = bound ↔ den ≤ 2 * (num % den) := by
      unfold roundQuotient
      simp only [Bool.or_eq_true, decide_eq_true_eq, Bool.and_eq_true, beq_iff_eq]
      split <;> omega
    rw [up]
    omega

namespace Binary64

variable {num den : Nat} {exponent : Int}

/-- Scaling divides a quotient by a power of two. -/
theorem scaled_spec (positive : 0 < den) :
    0 < (scaled num den exponent).2 ∧
      ((scaled num den exponent).1 : ℚ) / (scaled num den exponent).2 = num / den / 2 ^ exponent := by
  have some : (den : ℚ) ≠ 0 := by positivity
  unfold scaled
  split
  · rename_i natural
    lift exponent to Nat using natural
    refine ⟨Nat.mul_pos positive (Nat.two_pow_pos _), ?_⟩
    simp [div_div]
  · rename_i negative
    obtain ⟨size, rfl⟩ : ∃ size : Nat, exponent = -size := ⟨exponent.natAbs, by omega⟩
    refine ⟨positive, ?_⟩
    simp
    field_simp

/-- The magnitude of a positive quotient, from the bits of its terms. -/
theorem magnitude_guess (some : 0 < num) (positive : 0 < den) :
    2 ^ 52 ≤ (num : ℚ) / den / 2 ^ ((Nat.log2 num : Int) - Nat.log2 den - 53) ∧
      (num : ℚ) / den / 2 ^ ((Nat.log2 num : Int) - Nat.log2 den - 53) < 2 ^ 54 := by
  have low : ((2 ^ Nat.log2 num : Nat) : ℚ) ≤ num := by
    exact_mod_cast Nat.log2_self_le some.ne'
  have high : (num : ℚ) < (2 ^ (Nat.log2 num + 1) : Nat) := by
    exact_mod_cast Nat.lt_log2_self
  have low' : ((2 ^ Nat.log2 den : Nat) : ℚ) ≤ den := by
    exact_mod_cast Nat.log2_self_le positive.ne'
  have high' : (den : ℚ) < (2 ^ (Nat.log2 den + 1) : Nat) := by
    exact_mod_cast Nat.lt_log2_self
  generalize Nat.log2 num = a at *
  generalize Nat.log2 den = b at *
  push_cast at low high low' high'
  have split : (2 : ℚ) ^ ((a : Int) - b - 53) = 2 ^ a / 2 ^ b / 2 ^ 53 := by
    rw [zpow_sub₀ (by norm_num), zpow_sub₀ (by norm_num)]
    norm_cast
  rw [split]
  have same : (num : ℚ) / den / (2 ^ a / 2 ^ b / 2 ^ 53) = num * 2 ^ b * 2 ^ 53 / (den * 2 ^ a) := by
    field_simp
  rw [same, le_div_iff₀ (by positivity), div_lt_iff₀ (by positivity)]
  rw [pow_succ] at high high'
  have under : (den : ℚ) * 2 ^ a ≤ 2 ^ b * 2 * num := by gcongr
  have above : (num : ℚ) * 2 ^ b < 2 ^ a * 2 * den :=
    mul_lt_mul high low' (by positivity) (by positivity)
  constructor <;> linarith

/-- Divided by its power of two, a positive quotient is below the bound for mantissas, and unless the power
is the least one, at least half of that. -/
theorem exponentOf_spec (some : 0 < num) (positive : 0 < den) :
    (num : ℚ) / den / 2 ^ exponentOf num den < 2 ^ 53 ∧
      (-1074 < exponentOf num den → 2 ^ 52 ≤ (num : ℚ) / den / 2 ^ exponentOf num den) := by
  obtain ⟨above, below⟩ := magnitude_guess some positive
  generalize guessed : (Nat.log2 num : Int) - Nat.log2 den - 53 = guess at above below
  obtain ⟨wide, ratio⟩ := @scaled_spec num den guess positive
  have exact : ∃ exponent, exponentOf num den = max (-1074) exponent ∧
      2 ^ 52 ≤ (num : ℚ) / den / 2 ^ exponent ∧ (num : ℚ) / den / 2 ^ exponent < 2 ^ 53 := by
    have fits : (scaled num den guess).1 / (scaled num den guess).2 < 2 ^ 53 ↔
        (num : ℚ) / den / 2 ^ guess < 2 ^ 53 := by
      rw [Nat.div_lt_iff_lt_mul wide, ← ratio, div_lt_iff₀ (by exact_mod_cast wide)]
      exact_mod_cast Iff.rfl
    unfold exponentOf
    simp only [guessed, Nat.pow_eq]
    by_cases small : (scaled num den guess).1 / (scaled num den guess).2 < 2 ^ 53
    · refine ⟨guess, ?_, above, fits.mp small⟩
      rw [if_pos small]
    · refine ⟨guess + 1, ?_, ?_, ?_⟩
      · rw [if_neg small]
      · rw [fits, not_lt] at small
        rw [zpow_add_one₀ (by norm_num), ← div_div]
        linarith
      · rw [zpow_add_one₀ (by norm_num), ← div_div]
        linarith
  obtain ⟨exponent, same, least, most⟩ := exact
  rw [same]
  rcases le_total (-1074) exponent with high | low
  · rw [max_eq_right high]
    exact ⟨most, fun _ => least⟩
  · rw [max_eq_left low]
    refine ⟨lt_of_le_of_lt ?_ most, fun absurd => (lt_irrefl _ absurd).elim⟩
    gcongr
    norm_num

/-- Halfway between the greatest number, `2 ^ 1024 - 2 ^ 971`, and the next power of two. -/
def overflow : Nat := (2 ^ 54 - 1) * 2 ^ 970

theorem overflow_pos : 0 < overflow := by
  unfold overflow
  positivity

theorem cast_overflow : (overflow : ℚ) = (2 ^ 54 - 1) * 2 ^ (970 : Int) := by
  rw [overflow, Nat.cast_mul, Nat.cast_pow]
  norm_num

theorem overflow_mul_le_iff (positive : 0 < den) :
    overflow * den ≤ num ↔ (2 ^ 54 - 1) * 2 ^ (970 : Int) ≤ (num : ℚ) / den := by
  rw [le_div_iff₀ (by exact_mod_cast positive), ← cast_overflow]
  exact_mod_cast Iff.rfl

/-- A quotient is infinite where its exponent is too great, or will be after rounding. -/
theorem ofQuotient_eq_infinite_iff_exponent {negative : Bool} (some : 0 < num) :
    ofQuotient negative num den = .infinite negative ↔
      971 < exponentOf num den ∨ exponentOf num den = 971 ∧
        roundQuotient (scaled num den (exponentOf num den)).1
          (scaled num den (exponentOf num den)).2 = 2 ^ 53 := by
  rw [ofQuotient, if_neg some.ne']
  simp only [Nat.pow_eq]
  generalize roundQuotient _ _ = mantissa
  generalize exponentOf num den = exponent
  by_cases full : mantissa = 2 ^ 53
  · rw [if_pos full]
    dsimp only
    split <;> simp [full] <;> omega
  · rw [if_neg full]
    simp only [full, and_false, or_false]
    split <;> simp [*]

theorem sign_of_ofQuotient {negative sign : Bool}
    (found : ofQuotient negative num den = .infinite sign) : sign = negative := by
  unfold ofQuotient at found
  split at found
  · cases found
  · dsimp only at found
    split at found <;> split at found <;> cases found <;> rfl

/-- A mantissa is rounded up to the bound from half a unit below it on. -/
theorem roundQuotient_scaled_eq_iff (some : 0 < num) (positive : 0 < den) :
    roundQuotient (scaled num den (exponentOf num den)).1 (scaled num den (exponentOf num den)).2 =
        2 ^ 53 ↔
      2 ^ 54 - 1 ≤ 2 * ((num : ℚ) / den / 2 ^ exponentOf num den) := by
  obtain ⟨most, _⟩ := exponentOf_spec some positive
  obtain ⟨wide, ratio⟩ := @scaled_spec num den (exponentOf num den) positive
  have wide' : (0 : ℚ) < (scaled num den (exponentOf num den)).2 := by exact_mod_cast wide
  have short : (scaled num den (exponentOf num den)).1 <
      2 ^ 53 * (scaled num den (exponentOf num den)).2 := by
    rw [← ratio, div_lt_iff₀ wide'] at most
    exact_mod_cast most
  rw [roundQuotient_eq_iff wide (by norm_num) short, ← ratio, ← mul_div_assoc, le_div_iff₀ wide',
    ← Nat.cast_le (α := ℚ)]
  push_cast
  constructor <;> intro bound <;> linarith

/-- How powers of two compare with the greatest exponent. -/
theorem zpow_compare (exponent : Int) :
    (exponent < 971 → (2 : ℚ) ^ exponent ≤ 2 ^ (970 : Int)) ∧
      (exponent = 971 → (2 : ℚ) ^ exponent = 2 * 2 ^ (970 : Int)) ∧
      (971 < exponent → 4 * (2 : ℚ) ^ (970 : Int) ≤ 2 ^ exponent) := by
  refine ⟨?_, ?_, ?_⟩
  · intro small
    exact zpow_le_zpow_right₀ (by norm_num) (by omega)
  · intro equal
    rw [equal, ← zpow_one_add₀ (by norm_num)]
    rfl
  · intro great
    have four : (4 : ℚ) * 2 ^ (970 : Int) = 2 ^ (972 : Int) := by
      have sum : (972 : Int) = 2 + 970 := by rfl
      rw [sum, zpow_add₀ (by norm_num)]
      norm_num
    rw [four]
    exact zpow_le_zpow_right₀ (by norm_num) (by omega)

/-- A quotient is infinite from the overflow bound on. -/
theorem ofQuotient_eq_infinite_iff {negative : Bool} (positive : 0 < den) :
    ofQuotient negative num den = .infinite negative ↔ overflow * den ≤ num := by
  rcases Nat.eq_zero_or_pos num with rfl | some
  · have bound : 0 < overflow * den := Nat.mul_pos overflow_pos positive
    simp only [ofQuotient, ↓reduceIte, reduceCtorEq, false_iff]
    omega
  · obtain ⟨most, least⟩ := exponentOf_spec some positive
    rw [overflow_mul_le_iff positive, ofQuotient_eq_infinite_iff_exponent some,
      roundQuotient_scaled_eq_iff some positive]
    -- The powers stay closed from here on: only how they compare with the bound matters.
    obtain ⟨low, same, high⟩ := zpow_compare (exponentOf num den)
    have unit : (0 : ℚ) < 2 ^ (970 : Int) := by positivity
    have power : (0 : ℚ) < 2 ^ exponentOf num den := by positivity
    generalize (2 : ℚ) ^ (970 : Int) = unit at *
    generalize (2 : ℚ) ^ exponentOf num den = power at *
    generalize (num : ℚ) / den = quotient at *
    rw [div_lt_iff₀ power] at most
    rcases lt_trichotomy (exponentOf num den) 971 with small | equal | great
    · have bound := low small
      constructor
      · rintro (above | ⟨same, _⟩) <;> omega
      · intro above
        linarith
    · rw [same equal, ← mul_div_assoc, le_div_iff₀ (by positivity)]
      constructor
      · rintro (above | ⟨_, bound⟩)
        · omega
        · linarith
      · intro bound
        exact .inr ⟨equal, by linarith⟩
    · have bound := high great
      have least := least (by omega)
      rw [le_div_iff₀ power] at least
      constructor
      · intro _
        linarith
      · intro _
        exact .inl great

end Binary64
end SheetLint.Number
