import SheetLint.Color.Basic
import SheetLint.Proofs.Letters
import Mathlib.Data.Bool.AllAny
import Mathlib.Data.Nat.Digits.Defs

/-! Colour literals: which texts are read as colours, and as which ones. What counts are the digits, three or
six of them, and a line break after them makes no difference. -/
namespace SheetLint.Color

/-- The digits in base 16, in lower case. -/
def hexDigits : List Char := "0123456789abcdef".toList

/-- A digit in base 16, in either case. -/
def IsHexDigit (c : Char) : Prop := c.toLower ∈ hexDigits

instance : DecidablePred IsHexDigit := fun c => inferInstanceAs (Decidable (c.toLower ∈ hexDigits))

def digitAt (c : Char) : Nat := hexDigits.idxOf c.toLower

/-- The number that digits in base 16 write. -/
def hexNumber (digits : List Char) : Nat := Nat.ofDigits 16 (digits.reverse.map digitAt)

def doubled (digits : List Char) : List Char := digits.flatMap fun c => [c, c]

/-- The six digits that a text of three or six digits stands for. -/
inductive StandsFor (digits : List Char) : List Char → Prop
  | six (count : digits.length = 6) (all : ∀ c ∈ digits, IsHexDigit c) : StandsFor digits digits
  | three (count : digits.length = 3) (all : ∀ c ∈ digits, IsHexDigit c) :
      StandsFor digits (doubled digits)

/-- The colour of six digits, two for each channel. -/
def ofSix (six : List Char) : Color :=
  ofRgb ⟨hexNumber (six.take 2), hexNumber ((six.drop 2).take 2), hexNumber (six.drop 4)⟩

/-- Digits, with at most a line break after them, give the six digits that they stand for. -/
def Gives (text six : List Char) : Prop :=
  ∃ digits, (text = digits ∨ text = digits ++ ['\n']) ∧ StandsFor digits six

section Digit

variable {c : Char}

theorem toNat_of_isHexDigit (digit : IsHexDigit c) : c.toNat < 128 := by
  have small : ∀ d ∈ hexDigits, d.toNat < 128 := List.all_iff_forall_prop.mp rfl
  have lower := small _ digit
  cases upper : c.isUpper with
  | false => rwa [Text.toLower_of_isUpper_eq_false upper] at lower
  | true =>
    have bounds := Text.isUpper_iff.mp upper
    omega

theorem digitAt_lt (digit : IsHexDigit c) : digitAt c < 16 := List.idxOf_lt_length_of_mem digit

theorem hexValue?_eq (c : Char) : hexValue? c = if IsHexDigit c then some (digitAt c) else none := by
  by_cases ascii : c.toNat < 128
  · have each : ∀ code < 128, hexValue? (Char.ofNat code) =
        if IsHexDigit (Char.ofNat code) then some (digitAt (Char.ofNat code)) else none := by
      decide +kernel
    rw [← Char.ofNat_toNat c]
    exact each _ ascii
  · have beyond {d : Char} (small : d.toNat < 128) : ¬c ≤ d := by
      intro below
      have notAfter : c.toNat ≤ d.toNat := below
      omega
    have digit : ¬c ≤ '9' := beyond (by decide)
    have small : ¬c ≤ 'f' := beyond (by decide)
    have large : ¬c ≤ 'F' := beyond (by decide)
    rw [if_neg fun digit => ascii (toNat_of_isHexDigit digit), hexValue?]
    simp only [digit, small, large, decide_false, Bool.and_false, Bool.false_eq_true, ↓reduceIte]

theorem hexNumber_pair (c d : Char) : hexNumber [c, d] = 16 * digitAt c + digitAt d := by
  simp [hexNumber, Nat.ofDigits, add_comm]

theorem hexNumber_pair_le {d : Char} (first : IsHexDigit c) (second : IsHexDigit d) :
    hexNumber [c, d] ≤ 255 := by
  have high := digitAt_lt first
  have low := digitAt_lt second
  rw [hexNumber_pair]
  omega

end Digit

section Each

variable {digits : List Char}

theorem mapM_hexValue?_of_digits (all : ∀ c ∈ digits, IsHexDigit c) :
    digits.mapM hexValue? = some (digits.map digitAt) := by
  induction digits with
  | nil => rfl
  | cons c rest ih =>
    obtain ⟨here, others⟩ := List.forall_mem_cons.mp all
    rw [List.mapM_cons, hexValue?_eq, if_pos here, ih others]
    rfl

theorem mapM_hexValue?_eq_none (other : ¬∀ c ∈ digits, IsHexDigit c) : digits.mapM hexValue? = none := by
  induction digits with
  | nil => exact absurd (List.forall_mem_nil _) other
  | cons c rest ih =>
    rw [List.mapM_cons, hexValue?_eq]
    by_cases here : IsHexDigit c
    · rw [if_pos here, ih fun others => other (List.forall_mem_cons.mpr ⟨here, others⟩)]
      rfl
    · rw [if_neg here]
      rfl

end Each

theorem length_doubled (digits : List Char) : (doubled digits).length = 2 * digits.length := by
  induction digits with
  | nil => rfl
  | cons c rest ih =>
    change (c :: c :: doubled rest).length = _
    rw [List.length_cons, List.length_cons, ih, List.length_cons]
    omega

theorem isHexDigit_doubled {digits : List Char} (all : ∀ c ∈ digits, IsHexDigit c) :
    ∀ c ∈ doubled digits, IsHexDigit c := by
  intro c member
  obtain ⟨d, present, same⟩ := List.mem_flatMap.mp member
  obtain rfl : c = d := by simpa using same
  exact all c present

section Break

theorem withoutBreak_concat (digits : List Char) : withoutBreak (digits ++ ['\n']) = digits := by
  simp [withoutBreak]

theorem withoutBreak_of_digits {digits : List Char} (all : ∀ c ∈ digits, IsHexDigit c) :
    withoutBreak digits = digits := by
  rw [withoutBreak, if_neg]
  intro broken
  have member := List.mem_of_getLast? (by simpa using broken)
  exact absurd (all _ member) (by decide)

theorem withoutBreak_cases (text : List Char) :
    text = withoutBreak text ∨ text = withoutBreak text ++ ['\n'] := by
  by_cases broken : text.getLast? = some '\n'
  · obtain ⟨before, rfl⟩ := List.getLast?_eq_some_iff.mp broken
    exact .inr (by rw [withoutBreak_concat])
  · exact .inl (by rw [withoutBreak, if_neg (by simpa using broken)])

theorem StandsFor.all {digits six : List Char} (stands : StandsFor digits six) :
    ∀ c ∈ digits, IsHexDigit c := by
  cases stands with
  | six _ all => exact all
  | three _ all => exact all

theorem StandsFor.six_digits {digits six : List Char} (stands : StandsFor digits six) :
    six.length = 6 ∧ ∀ c ∈ six, IsHexDigit c := by
  cases stands with
  | six count all => exact ⟨count, all⟩
  | three count all => exact ⟨by rw [length_doubled, count], isHexDigit_doubled all⟩

/-- What a text gives is what it stands for without its line break. -/
theorem gives_iff {text six : List Char} : Gives text six ↔ StandsFor (withoutBreak text) six := by
  constructor
  · rintro ⟨digits, same | same, stands⟩
    · rwa [same, withoutBreak_of_digits stands.all]
    · rwa [same, withoutBreak_concat]
  · exact fun stands => ⟨_, withoutBreak_cases text, stands⟩

end Break

variable {text six : List Char}

theorem ofHex_of_gives (gives : Gives text six) : ofHex text = ofSix six := by
  have stands := gives_iff.mp gives
  unfold ofHex
  rw [mapM_hexValue?_of_digits stands.all]
  generalize withoutBreak text = digits at stands ⊢
  cases stands with
  | six count _ =>
    match six, count with
    | [_, _, _, _, _, _], _ => simp [ofSix, hexNumber_pair]
  | three count _ =>
    match digits, count with
    | [r, g, b], _ =>
      have twice (c : Char) : hexNumber [c, c] = 17 * digitAt c := by
        rw [hexNumber_pair]
        omega
      simp [ofSix, doubled, twice]

theorem ofHex_of_not_gives (other : ¬∃ six, Gives text six) : ofHex text = unknown := by
  simp only [gives_iff] at other
  unfold ofHex
  generalize withoutBreak text = digits at other ⊢
  by_cases all : ∀ c ∈ digits, IsHexDigit c
  · rw [mapM_hexValue?_of_digits all]
    split
    · rename_i read
      have count : digits.length = 6 := by simpa using congrArg (Option.map List.length) read
      exact absurd ⟨_, .six count all⟩ other
    · rename_i read
      have count : digits.length = 3 := by simpa using congrArg (Option.map List.length) read
      exact absurd ⟨_, .three count all⟩ other
    · rfl
  · rw [mapM_hexValue?_eq_none all]

/-- A text is a colour where it is three or six digits in base 16 and nothing else, a line break at the end
aside. Each channel is then the number of two of the six digits, and of three each one counts twice. Of any
other text no channel is known. -/
theorem color_of_three_or_six_digits (text : List Char) :
    ((ofHex text).isValid ↔ ∃ six, Gives text six) ∧
    (∀ six, Gives text six → ofHex text = ofSix six) ∧
    ((¬∃ six, Gives text six) → ofHex text = unknown) := by
  refine ⟨⟨fun valid => ?_, fun ⟨six, gives⟩ => ?_⟩, fun _ => ofHex_of_gives, ofHex_of_not_gives⟩
  · by_contra other
    rw [ofHex_of_not_gives other] at valid
    cases valid
  · rw [ofHex_of_gives gives]
    rfl

theorem color_of_three_or_six_digits_of_mixed :
    Gives "aB0".toList "aaBB00".toList ∧ ofHex "aB0".toList = ofRgb ⟨170, 187, 0⟩ ∧
      (¬∃ six, Gives "aB0f".toList six) ∧ ofHex "aB0f".toList = unknown := by
  have gives : Gives "aB0".toList "aaBB00".toList := ⟨_, .inl rfl, .three rfl (List.all_iff_forall_prop.mp rfl)⟩
  have other : ¬∃ six, Gives "aB0f".toList six := by
    rintro ⟨six, gives⟩
    have stands := gives_iff.mp gives
    have four : (withoutBreak "aB0f".toList).length = 4 := rfl
    cases stands with
    | six count _ => omega
    | three count _ => omega
  have color := (color_of_three_or_six_digits "aB0".toList).2.1 _ gives
  exact ⟨gives, color, other, (color_of_three_or_six_digits "aB0f".toList).2.2 other⟩

/-- A line break after the digits is no digit, and still there is a colour. -/
theorem break_after_digits_is_passed :
    (ofHex "fff\n".toList).isValid ∧ ¬∃ six, StandsFor "fff\n".toList six := by
  refine ⟨rfl, ?_⟩
  rintro ⟨six, stands⟩
  exact absurd (stands.all '\n' (by decide)) (by decide)

end SheetLint.Color
