import Mathlib.Algebra.Order.Field.Basic
import SheetLint.Proofs.Quotient

/-! Floating-point numbers as the rational numbers that they are: how far a rounded quotient is from the
exact one, where it reaches a bound, and differences as quotients. -/
namespace SheetLint.Number

variable {num den bound : Nat}

theorem div_le_roundQuotient (num den : Nat) : num / den ≤ roundQuotient num den := by
  unfold roundQuotient
  dsimp only
  split <;> omega

theorem roundQuotient_le (positive : 0 < den) (short : num ≤ bound * den) :
    roundQuotient num den ≤ bound := by
  obtain ⟨_, near⟩ := roundQuotient_within num den positive
  by_contra above
  have far : den * (bound + 1) ≤ den * roundQuotient num den := Nat.mul_le_mul_left den (by omega)
  rw [Nat.mul_succ, Nat.mul_comm den bound] at far
  omega

/-- A quotient is rounded to an even number or beyond it from halfway to it on. -/
theorem le_roundQuotient_iff (positive : 0 < den) (even : bound % 2 = 0) :
    bound ≤ roundQuotient num den ↔ 2 * (bound * den) ≤ 2 * num + den := by
  rcases Nat.lt_or_ge num (bound * den) with short | reached
  · have most := roundQuotient_le positive short.le
    rw [← roundQuotient_eq_iff positive even short]
    omega
  · have whole : bound ≤ num / den := (Nat.le_div_iff_mul_le positive).mpr reached
    have more := div_le_roundQuotient num den
    omega

namespace Binary64

/-- The rational number that a finite number is. -/
def value : Binary64 → ℚ
  | .finite negative mantissa exponent =>
    (if negative then -(mantissa : ℚ) else mantissa) * 2 ^ exponent
  | _ => 0

/-- The mantissa of a quotient before it is brought below its bound. -/
def mantissaOf (num den : Nat) : Nat :=
  roundQuotient (scaled num den (exponentOf num den)).1 (scaled num den (exponentOf num den)).2

/-- A quotient rounded to the nearest number, of whatever size. -/
def rounded (num den : Nat) : ℚ := mantissaOf num den * 2 ^ exponentOf num den

theorem rounded_zero (den : Nat) : rounded 0 den = 0 := by
  have none : mantissaOf 0 den = 0 := by
    unfold mantissaOf scaled roundQuotient
    split <;> simp
  simp [rounded, none]

theorem mantissaOf_bounds (some : 0 < num) (positive : 0 < den) :
    mantissaOf num den ≤ 2 ^ 53 ∧ (-1074 < exponentOf num den → 2 ^ 52 ≤ mantissaOf num den) := by
  obtain ⟨most, least⟩ := exponentOf_spec some positive
  obtain ⟨wide, ratio⟩ := @scaled_spec num den (exponentOf num den) positive
  have wide' : (0 : ℚ) < (scaled num den (exponentOf num den)).2 := by exact_mod_cast wide
  rw [← ratio] at most least
  constructor
  · apply roundQuotient_le wide
    rw [div_lt_iff₀ wide'] at most
    exact_mod_cast most.le
  · intro normal
    have reached := least normal
    rw [le_div_iff₀ wide'] at reached
    have whole := (Nat.le_div_iff_mul_le wide).mpr (by exact_mod_cast reached)
    exact whole.trans (div_le_roundQuotient _ _)

theorem exponentOf_le {exponent : Int} (some : 0 < num) (positive : 0 < den) (least : -1074 ≤ exponent)
    (small : (num : ℚ) / den < 2 ^ 52 * 2 ^ (exponent + 1)) : exponentOf num den ≤ exponent := by
  by_contra above
  have power : (0 : ℚ) < 2 ^ exponentOf num den := by positivity
  have reached := (exponentOf_spec some positive).2 (by omega)
  have more : (2 : ℚ) ^ (exponent + 1) ≤ 2 ^ exponentOf num den :=
    zpow_le_zpow_right₀ (by norm_num) (by omega)
  rw [le_div_iff₀ power] at reached
  linarith

/-- A quotient is rounded by at most half a unit in its last place. -/
theorem rounded_within (positive : 0 < den) :
    |rounded num den - num / den| ≤ 2 ^ exponentOf num den / 2 := by
  obtain ⟨wide, ratio⟩ := @scaled_spec num den (exponentOf num den) positive
  obtain ⟨above, below⟩ := roundQuotient_within (scaled num den (exponentOf num den)).1
    (scaled num den (exponentOf num den)).2 wide
  change _ ≤ 2 * (_ * mantissaOf num den) + _ at above
  change 2 * (_ * mantissaOf num den) ≤ _ at below
  unfold rounded
  generalize mantissaOf num den = mantissa at *
  generalize (scaled num den (exponentOf num den)).1 = n at *
  generalize (scaled num den (exponentOf num den)).2 = d at *
  have some : (0 : ℚ) < 2 ^ exponentOf num den := by positivity
  generalize (2 : ℚ) ^ exponentOf num den = power at *
  have wide' : (0 : ℚ) < d := by exact_mod_cast wide
  have close : |(mantissa : ℚ) - n / d| ≤ 1 / 2 := by
    have above' : (2 : ℚ) * n ≤ 2 * (d * mantissa) + d := by exact_mod_cast above
    have below' : (2 : ℚ) * (d * mantissa) ≤ 2 * n + d := by exact_mod_cast below
    rw [abs_le, neg_le_sub_iff_le_add, sub_le_iff_le_add, div_le_iff₀ wide']
    constructor
    · linarith
    · rw [← sub_le_iff_le_add', le_div_iff₀ wide']
      linarith
  have exact : (num : ℚ) / den = n / d * power := by
    rw [ratio]
    field_simp
  calc |(mantissa : ℚ) * power - num / den|
      = |(mantissa : ℚ) - n / d| * power := by rw [exact, ← sub_mul, abs_mul, abs_of_pos some]
    _ ≤ 1 / 2 * power := by gcongr
    _ = power / 2 := by ring

theorem ofQuotient_eq {negative : Bool} (some : 0 < num) :
    ofQuotient negative num den =
      if mantissaOf num den = 2 ^ 53 then
        if 971 < exponentOf num den + 1 then .infinite negative
        else .finite negative (2 ^ 52) (exponentOf num den + 1)
      else if 971 < exponentOf num den then .infinite negative
      else .finite negative (mantissaOf num den) (exponentOf num den) := by
  rw [ofQuotient, if_neg some.ne']
  unfold mantissaOf
  simp only [Nat.pow_eq]
  split <;> rfl

/-- Below a magnitude, a quotient is rounded by less than half a thousandth. -/
theorem rounded_near (positive : 0 < den) (small : num < 2 ^ 43 * den) :
    |rounded num den - num / den| ≤ 1 / 2 ^ 11 := by
  rcases Nat.eq_zero_or_pos num with rfl | some
  · rw [rounded_zero]
    norm_num
  · have below : (num : ℚ) / den < 2 ^ 52 * 2 ^ ((-10 : Int) + 1) := by
      rw [div_lt_iff₀ (by exact_mod_cast positive)]
      norm_num
      exact_mod_cast small
    have last := exponentOf_le some positive (by norm_num) below
    calc |rounded num den - num / den|
        ≤ 2 ^ exponentOf num den / 2 := rounded_within positive
      _ ≤ 2 ^ (-10 : Int) / 2 := by gcongr; norm_num
      _ = 1 / 2 ^ 11 := by norm_num

theorem value_ofQuotient {negative : Bool} (finite : ofQuotient negative num den ≠ .infinite negative) :
    (ofQuotient negative num den).value = if negative then -rounded num den else rounded num den := by
  rcases Nat.eq_zero_or_pos num with rfl | some
  · simp [ofQuotient, value, rounded_zero]
  · rw [ofQuotient_eq some] at finite ⊢
    by_cases full : mantissaOf num den = 2 ^ 53
    · rw [if_pos full] at finite ⊢
      rw [if_neg fun beyond => finite (if_pos beyond)]
      simp only [value, rounded, full]
      rw [zpow_add_one₀ (by norm_num)]
      split <;> push_cast <;> ring
    · rw [if_neg full] at finite ⊢
      rw [if_neg fun beyond => finite (if_pos beyond)]
      simp only [value, rounded]
      split <;> ring

/-- A rounded quotient reaches a number with an even mantissa just where the exact one comes within half
a unit of it. -/
theorem le_rounded_iff {mantissa : Nat} {exponent : Int} (positive : 0 < den) (even : mantissa % 2 = 0)
    (low : 2 ^ 52 < mantissa) (high : mantissa ≤ 2 ^ 53) (least : -1074 ≤ exponent) :
    (mantissa : ℚ) * 2 ^ exponent ≤ rounded num den ↔
      ((mantissa : ℚ) - 1 / 2) * 2 ^ exponent ≤ num / den := by
  have low' : (2 : ℚ) ^ 52 + 1 ≤ mantissa := by exact_mod_cast low
  have high' : (mantissa : ℚ) ≤ 2 ^ 53 := by exact_mod_cast high
  have unit : (0 : ℚ) < 2 ^ exponent := by positivity
  rcases Nat.eq_zero_or_pos num with rfl | some
  · have above : (0 : ℚ) < mantissa - 1 / 2 := by linarith
    have product : (0 : ℚ) < (mantissa - 1 / 2) * 2 ^ exponent := by positivity
    have product' : (0 : ℚ) < mantissa * 2 ^ exponent := by positivity
    simp only [rounded_zero, Nat.cast_zero, zero_div]
    constructor <;> intro reached <;> linarith
  · obtain ⟨most, least⟩ := exponentOf_spec some positive
    obtain ⟨most', least'⟩ := mantissaOf_bounds some positive
    have power : (0 : ℚ) < 2 ^ exponentOf num den := by positivity
    rw [div_lt_iff₀ power] at most
    -- With a lesser exponent the quotient is too small, with a greater one it is beyond the bound: what is
    -- compared with the bound is a mantissa only where the exponents are the same.
    rcases lt_trichotomy (exponentOf num den) exponent with less | same | more
    · have half : 2 * (2 : ℚ) ^ exponentOf num den ≤ 2 ^ exponent := by
        rw [← zpow_one_add₀ (by norm_num)]
        exact zpow_le_zpow_right₀ (by norm_num) (by omega)
      have whole : (mantissaOf num den : ℚ) ≤ 2 ^ 53 := by exact_mod_cast most'
      have below : rounded num den ≤ 2 ^ 52 * 2 ^ exponent := by
        calc rounded num den ≤ 2 ^ 53 * 2 ^ exponentOf num den := by unfold rounded; gcongr
          _ = 2 ^ 52 * (2 * 2 ^ exponentOf num den) := by ring
          _ ≤ 2 ^ 52 * 2 ^ exponent := by gcongr
      have above : ((2 : ℚ) ^ 52 + 1 / 2) * 2 ^ exponent ≤ (mantissa - 1 / 2) * 2 ^ exponent := by
        gcongr
        linarith
      have more : (mantissa - 1 / 2 : ℚ) * 2 ^ exponent ≤ mantissa * 2 ^ exponent := by
        gcongr
        linarith
      constructor <;> intro reached <;> linarith
    · obtain ⟨wide, ratio⟩ := @scaled_spec num den (exponentOf num den) positive
      have wide' : (0 : ℚ) < (scaled num den (exponentOf num den)).2 := by exact_mod_cast wide
      have scaled_reached : (mantissa : ℚ) * 2 ^ exponentOf num den ≤ rounded num den ↔
          mantissa ≤ mantissaOf num den := by
        rw [rounded, mul_le_mul_iff_left₀ power, Nat.cast_le]
      rw [← same, scaled_reached, ← le_div_iff₀ power, ← ratio, le_div_iff₀ wide', mantissaOf,
        le_roundQuotient_iff wide even, ← Nat.cast_le (α := ℚ)]
      push_cast
      constructor <;> intro reached <;> linarith
    · have twice : 2 * (2 : ℚ) ^ exponent ≤ 2 ^ exponentOf num den := by
        rw [← zpow_one_add₀ (by norm_num)]
        exact zpow_le_zpow_right₀ (by norm_num) (by omega)
      have normal : -1074 < exponentOf num den := by omega
      have whole : (2 : ℚ) ^ 52 ≤ mantissaOf num den := by exact_mod_cast least' normal
      have exact := least normal
      rw [le_div_iff₀ power] at exact
      have reached : (mantissa : ℚ) * 2 ^ exponent ≤ 2 ^ 52 * 2 ^ exponentOf num den := by
        calc (mantissa : ℚ) * 2 ^ exponent ≤ 2 ^ 53 * 2 ^ exponent := by gcongr
          _ = 2 ^ 52 * (2 * 2 ^ exponent) := by ring
          _ ≤ 2 ^ 52 * 2 ^ exponentOf num den := by gcongr
      have rounded_reached : (2 : ℚ) ^ 52 * 2 ^ exponentOf num den ≤ rounded num den := by
        unfold rounded
        gcongr
      constructor <;> intro _ <;> linarith

theorem rounded_nonneg (num den : Nat) : 0 ≤ rounded num den := by
  unfold rounded
  positivity

theorem finite_of_ofQuotient {negative : Bool}
    (finite : ofQuotient negative num den ≠ .infinite negative) :
    ∃ mantissa exponent, ofQuotient negative num den = .finite negative mantissa exponent := by
  rcases Nat.eq_zero_or_pos num with rfl | some
  · exact ⟨0, -1074, rfl⟩
  · rw [ofQuotient_eq some] at finite ⊢
    split_ifs at finite ⊢
    · exact absurd rfl finite
    · exact ⟨_, _, rfl⟩
    · exact absurd rfl finite
    · exact ⟨_, _, rfl⟩

theorem abs_value (negative : Bool) (mantissa : Nat) (exponent : Int) :
    |(finite negative mantissa exponent).value| = mantissa * 2 ^ exponent := by
  have power : (0 : ℚ) < 2 ^ exponent := by positivity
  cases negative <;> simp [value, abs_mul, abs_of_pos power]

theorem atLeast_abs_iff {negative : Bool} {mantissa : Nat} {exponent : Int} :
    (finite negative mantissa exponent).abs.atLeast bound ↔
      (bound : ℚ) ≤ |(finite negative mantissa exponent).value| := by
  obtain ⟨wide, ratio⟩ := @scaled_spec bound 1 exponent Nat.one_pos
  have wide' : (0 : ℚ) < (scaled bound 1 exponent).2 := by exact_mod_cast wide
  have power : (0 : ℚ) < 2 ^ exponent := by positivity
  rw [Nat.cast_one, div_one] at ratio
  rw [abs_value, ← div_le_iff₀ power, ← ratio, div_le_iff₀ wide']
  simp only [abs, atLeast, Bool.not_false, Bool.true_and, decide_eq_true_eq]
  exact_mod_cast Iff.rfl

/-- A rounded quotient of either sign is at least a number with an even mantissa just where the exact one
comes within half a unit of it. -/
theorem atLeast_abs_ofQuotient_iff {negative : Bool} {mantissa : Nat} {exponent : Int}
    (positive : 0 < den) (even : mantissa % 2 = 0) (low : 2 ^ 52 < mantissa) (high : mantissa ≤ 2 ^ 53)
    (least : -1074 ≤ exponent) (same : (bound : ℚ) = mantissa * 2 ^ exponent) (fits : bound ≤ overflow) :
    (ofQuotient negative num den).abs.atLeast bound ↔
      ((mantissa : ℚ) - 1 / 2) * 2 ^ exponent ≤ num / den := by
  by_cases beyond : ofQuotient negative num den = .infinite negative
  · have reached := (ofQuotient_eq_infinite_iff positive).mp beyond
    have above : (bound : ℚ) ≤ num / den := by
      rw [le_div_iff₀ (by exact_mod_cast positive)]
      exact_mod_cast (Nat.mul_le_mul_right den fits).trans reached
    have half : ((mantissa : ℚ) - 1 / 2) * 2 ^ exponent ≤ mantissa * 2 ^ exponent := by
      gcongr
      linarith
    rw [beyond]
    exact iff_of_true rfl (by linarith)
  · obtain ⟨_, _, found⟩ := finite_of_ofQuotient beyond
    have exact := value_ofQuotient beyond
    have size : |(ofQuotient negative num den).value| = rounded num den := by
      rw [exact]
      split
      · rw [abs_neg, abs_of_nonneg (rounded_nonneg num den)]
      · rw [abs_of_nonneg (rounded_nonneg num den)]
    rw [← le_rounded_iff positive even low high least, ← same, ← size, found, atLeast_abs_iff]

section Difference

variable {s t : Bool} {m n : Nat} {e f : Int}

theorem units_value {unit : Int} (least : unit ≤ e) :
    (units s m e unit : ℚ) * 2 ^ unit = (finite s m e).value := by
  obtain ⟨further, rfl⟩ : ∃ further : Nat, e = unit + further := ⟨(e - unit).toNat, by omega⟩
  have power : (2 : ℚ) ^ (unit + further : Int) = 2 ^ further * 2 ^ unit := by
    rw [zpow_add₀ (by norm_num), zpow_natCast, mul_comm]
  simp only [units, value, power, add_sub_cancel_left, Int.toNat_natCast, Nat.pow_eq]
  split <;> push_cast <;> ring

/-- The difference of two numbers is their exact difference, rounded. -/
theorem sub_eq_ofQuotient : ∃ negative num den, 0 < den ∧
    (finite s m e).sub (finite t n f) = ofQuotient negative num den ∧
      (num : ℚ) / den = |(finite s m e).value - (finite t n f).value| := by
  have first := units_value (s := s) (m := m) (min_le_left e f)
  have second := units_value (s := t) (m := n) (min_le_right e f)
  have exact : |(finite s m e).value - (finite t n f).value| =
      ((units s m e (min e f) - units t n f (min e f)).natAbs : ℚ) * 2 ^ min e f := by
    have power : (0 : ℚ) < 2 ^ min e f := by positivity
    rw [← first, ← second, ← sub_mul, abs_mul, abs_of_pos power, Nat.cast_natAbs]
    push_cast
    rfl
  rw [exact]
  unfold sub
  dsimp only
  generalize units s m e (min e f) - units t n f (min e f) = difference
  split
  next natural =>
    refine ⟨_, _, 1, Nat.one_pos, rfl, ?_⟩
    obtain ⟨size, same⟩ := Int.eq_ofNat_of_zero_le natural
    rw [same]
    simp
  next negative =>
    obtain ⟨size, same⟩ : ∃ size : Nat, min e f = -size := ⟨(-min e f).toNat, by omega⟩
    refine ⟨_, _, _, ?_, rfl, ?_⟩
    · exact Nat.two_pow_pos _
    · rw [same]
      simp [div_eq_mul_inv]

end Difference

end Binary64
end SheetLint.Number
