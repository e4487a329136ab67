import SheetLint.Proofs.Pairing
import SheetLint.Proofs.Rounded

/-! What the comparison of two colours answers, against the same comparison in exact numbers. -/
namespace SheetLint

open Number

namespace Rgb

/-- The brightness as the rational number that it is, zero where it is no number. -/
def level (color : Rgb) : ℚ :=
  match color.brightness with
  | .ok number => number.value
  | .error _ => 0

/-- A thousand times the difference in brightness, from the differences of the channels. -/
def lumaDifference (front behind : Rgb) : Int :=
  299 * (behind.red - front.red) + 587 * (behind.green - front.green)
    + 114 * (behind.blue - front.blue)

/-- Two colours are far enough apart in brightness and in hue, by their exact channels. -/
def Contrasting (front behind : Rgb) : Prop :=
  126000 ≤ (front.lumaDifference behind).natAbs ∧
    501 ≤ (behind.red - front.red).natAbs + (behind.green - front.green).natAbs
      + (behind.blue - front.blue).natAbs

variable {color front behind : Rgb}

theorem lumaDifference_eq : front.lumaDifference behind = behind.luma - front.luma := by
  unfold lumaDifference luma
  ring

theorem brightness_of_measurable (measurable : color.Measurable) :
    ∃ negative mantissa exponent, color.brightness = .ok (.finite negative mantissa exponent) ∧
      color.level = if color.luma < 0 then -Binary64.rounded color.luma.natAbs 1000
        else Binary64.rounded color.luma.natAbs 1000 := by
  have within : Binary64.ofQuotient (decide (color.luma < 0)) color.luma.natAbs 1000 ≠
      .infinite (decide (color.luma < 0)) := by
    rw [Ne, Binary64.ofQuotient_eq_infinite_iff (by norm_num), Nat.not_le]
    exact measurable
  obtain ⟨mantissa, exponent, found⟩ := Binary64.finite_of_ofQuotient within
  have level := Binary64.value_ofQuotient within
  have bright : color.brightness = .ok (.finite (decide (color.luma < 0)) mantissa exponent) := by
    rw [brightness, found]
  refine ⟨_, mantissa, exponent, bright, ?_⟩
  rw [Rgb.level, bright]
  dsimp only
  rw [← found, level]
  simp

theorem level_within (measurable : color.Measurable) (small : color.luma.natAbs < 2 ^ 43 * 1000) :
    |color.level - color.luma / 1000| ≤ 1 / 2 ^ 11 := by
  have close : |Binary64.rounded color.luma.natAbs 1000 - (color.luma.natAbs : Nat) / (1000 : Nat)| ≤
      1 / 2 ^ 11 := Binary64.rounded_near (by norm_num) small
  obtain ⟨_, _, _, _, level⟩ := brightness_of_measurable measurable
  rw [level]
  split
  next negative =>
    have size : ((color.luma.natAbs : Nat) : ℚ) = -color.luma := by
      rw [Nat.cast_natAbs, abs_of_neg negative, Int.cast_neg]
    rw [size] at close
    rw [← abs_neg]
    convert close using 2
    push_cast
    ring
  next positive =>
    have size : ((color.luma.natAbs : Nat) : ℚ) = color.luma := by
      rw [Nat.cast_natAbs, abs_of_nonneg (not_lt.mp positive)]
    rw [size] at close
    exact_mod_cast close

/-- The least difference in brightness is met from halfway between it and the number before it on. -/
theorem atLeast_sub_iff {s t : Bool} {m n : Nat} {e f : Int} :
    ((Binary64.finite s m e).sub (.finite t n f)).abs.atLeast Color.minBrightnessDifference ↔
      126 - 1 / 2 ^ 47 ≤ |(Binary64.finite s m e).value - (Binary64.finite t n f).value| := by
  obtain ⟨negative, num, den, positive, same, exact⟩ :=
    Binary64.sub_eq_ofQuotient (s := s) (m := m) (e := e) (t := t) (n := n) (f := f)
  have reached : (Binary64.ofQuotient negative num den).abs.atLeast Color.minBrightnessDifference ↔
      (((126 * 2 ^ 46 : Nat) : ℚ) - 1 / 2) * 2 ^ (-46 : Int) ≤ num / den := by
    apply Binary64.atLeast_abs_ofQuotient_iff positive
    · norm_num
    · norm_num
    · norm_num
    · norm_num
    · norm_num [Color.minBrightnessDifference]
    · have small : Color.minBrightnessDifference ≤ 2 ^ 54 - 1 := by norm_num [Color.minBrightnessDifference]
      exact small.trans (Nat.le_mul_of_pos_right _ (by positivity))
  have halfway : (((126 * 2 ^ 46 : Nat) : ℚ) - 1 / 2) * 2 ^ (-46 : Int) = 126 - 1 / 2 ^ 47 := by
    norm_num
  rw [same, reached, halfway, exact]

theorem brightnessDifference_eq (measurable : front.Measurable) (measurable' : behind.Measurable) :
    ∃ difference, Color.brightnessDifference (.ofRgb front) (.ofRgb behind) = .ok difference ∧
      (difference.atLeast Color.minBrightnessDifference ↔
        126 - 1 / 2 ^ 47 ≤ |behind.level - front.level|) := by
  obtain ⟨s, m, e, one, _⟩ := brightness_of_measurable measurable
  obtain ⟨t, n, f, two, _⟩ := brightness_of_measurable measurable'
  have front' : (Color.ofRgb front).brightness = front.brightness := rfl
  have behind' : (Color.ofRgb behind).brightness = behind.brightness := rfl
  refine ⟨((Binary64.finite t n f).sub (.finite s m e)).abs, ?_, ?_⟩
  · rw [Color.brightnessDifference, front', behind', one, two]
    rfl
  · rw [Rgb.level, Rgb.level, one, two]
    exact atLeast_sub_iff

/-- Two colours are compared by the brightness that they are given and by their hue. -/
theorem hasContrast_eq (measurable : front.Measurable) (measurable' : behind.Measurable) :
    ∃ answer, Color.hasContrast (.ofRgb front) (.ofRgb behind) = .ok answer ∧
      (answer ↔ 126 - 1 / 2 ^ 47 ≤ |behind.level - front.level| ∧ 501 ≤ front.hueDifference behind) := by
  obtain ⟨difference, found, reached⟩ := brightnessDifference_eq measurable measurable'
  have hue : Color.hueDifference (.ofRgb front) (.ofRgb behind) = .ok (front.hueDifference behind) := rfl
  rw [Color.hasContrast, found, hue, ← reached]
  by_cases bright : difference.atLeast Color.minBrightnessDifference
  · refine ⟨Color.minHueDifference ≤ front.hueDifference behind, Outcome.bind_eq_ok.mpr ⟨_, rfl, ?_⟩, ?_⟩
    · rw [if_pos bright]
      rfl
    · rw [decide_eq_true_eq]
      exact (and_iff_right bright).symm
  · refine ⟨false, Outcome.bind_eq_ok.mpr ⟨_, rfl, ?_⟩, ?_⟩
    · rw [if_neg bright]
      rfl
    · exact iff_of_false Bool.false_ne_true fun both => bright both.1

theorem hueDifference_eq : front.hueDifference behind =
    ((behind.red - front.red).natAbs + (behind.green - front.green).natAbs
      + (behind.blue - front.blue).natAbs : Nat) := by
  rw [hueDifference, ← Int.natAbs_neg (front.red - behind.red), ← Int.natAbs_neg (front.green - behind.green),
    ← Int.natAbs_neg (front.blue - behind.blue)]
  simp only [neg_sub]
  push_cast
  rfl

/-- Below a magnitude, the difference of two levels is off by less than a thousandth. -/
theorem level_difference_within (measurable : front.Measurable) (measurable' : behind.Measurable)
    (small : front.luma.natAbs < 2 ^ 43 * 1000) (small' : behind.luma.natAbs < 2 ^ 43 * 1000) :
    |(|behind.level - front.level|) - (front.lumaDifference behind).natAbs / 1000| ≤ 1 / 2 ^ 10 := by
  have near := level_within measurable small
  have near' := level_within measurable' small'
  have size : ((front.lumaDifference behind).natAbs : ℚ) / 1000 =
      |(behind.luma : ℚ) / 1000 - front.luma / 1000| := by
    rw [Nat.cast_natAbs, lumaDifference_eq, ← sub_div, abs_div]
    push_cast
    norm_num
  rw [size]
  calc |(|behind.level - front.level|) - (|(behind.luma : ℚ) / 1000 - front.luma / 1000|)|
      ≤ |(behind.level - front.level) - ((behind.luma : ℚ) / 1000 - front.luma / 1000)| :=
        abs_abs_sub_abs_le_abs_sub _ _
    _ = |(behind.level - behind.luma / 1000) - (front.level - front.luma / 1000)| := by
        congr 1
        ring
    _ ≤ |behind.level - behind.luma / 1000| + |front.level - front.luma / 1000| := abs_sub _ _
    _ ≤ 1 / 2 ^ 10 := by linarith

/-- Two colours are compared as their rounded brightness tells. Below a magnitude this is the comparison of
their exact channels, except for two colours that differ in brightness by just the bound: these can be refused
where one of the two is rounded. -/
theorem hasContrast_near_exact (measurable : front.Measurable) (measurable' : behind.Measurable) :
    ∃ answer, Color.hasContrast (.ofRgb front) (.ofRgb behind) = .ok answer ∧
      (answer ↔ 126 - 1 / 2 ^ 47 ≤ |behind.level - front.level| ∧ 501 ≤ front.hueDifference behind) ∧
      (front.luma.natAbs < 2 ^ 43 * 1000 → behind.luma.natAbs < 2 ^ 43 * 1000 →
        (answer → front.Contrasting behind) ∧
          ((front.lumaDifference behind).natAbs ≠ 126000 → front.Contrasting behind → answer)) := by
  obtain ⟨answer, compared, meaning⟩ := hasContrast_eq measurable measurable'
  refine ⟨answer, compared, meaning, fun small small' => ?_⟩
  have near := level_difference_within measurable measurable' small small'
  rw [abs_le] at near
  obtain ⟨below, above⟩ := near
  rw [meaning, hueDifference_eq]
  unfold Contrasting
  -- The difference is a whole number of thousandths: off by less than one, it stays on its side of the bound.
  generalize (front.lumaDifference behind).natAbs = size at *
  generalize |behind.level - front.level| = gap at *
  constructor
  · rintro ⟨bright, hue⟩
    have more : (125999 : ℚ) < size := by linarith
    have whole : 125999 < size := by exact_mod_cast more
    exact ⟨whole, by exact_mod_cast hue⟩
  · rintro apart ⟨bright, hue⟩
    have whole : 126001 ≤ size := by omega
    have more : (126001 : ℚ) ≤ size := by exact_mod_cast whole
    exact ⟨by linarith, by exact_mod_cast hue⟩

theorem hasContrast_near_exact_of_red :
    Measurable ⟨166, 0, 0⟩ ∧ Measurable ⟨1, 255, 226⟩ ∧
      Color.hasContrast (.ofRgb ⟨166, 0, 0⟩) (.ofRgb ⟨1, 255, 226⟩) = .ok true := by
  have dark : Measurable ⟨166, 0, 0⟩ := by
    unfold Measurable
    decide +kernel
  have light : Measurable ⟨1, 255, 226⟩ := by
    unfold Measurable
    decide +kernel
  obtain ⟨answer, compared, _, exact⟩ := hasContrast_near_exact dark light
  obtain ⟨_, holds⟩ := exact (by decide) (by decide)
  have contrasting : Contrasting ⟨166, 0, 0⟩ ⟨1, 255, 226⟩ := by
    unfold Contrasting
    decide
  rw [holds (by decide) contrasting] at compared
  exact ⟨dark, light, compared⟩

/-- A pair of colours that differ in brightness by just the bound, and are refused for it. -/
theorem hasContrast_fails_on_bound :
    Contrasting ⟨166, 0, 0⟩ ⟨1, 255, 225⟩ ∧
      Color.hasContrast (.ofRgb ⟨166, 0, 0⟩) (.ofRgb ⟨1, 255, 225⟩) = .ok false := by
  refine ⟨?_, ?_⟩
  · unfold Contrasting
    decide
  · decide +kernel

end Rgb
end SheetLint
