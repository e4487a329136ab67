import SheetLint.Check.Ruleset
import SheetLint.Proofs.Outcome
import SheetLint.Proofs.Quotient

/-! The colours of a block: which values can be read as colours, which of them pair up, and which pairs
can be compared. -/
namespace SheetLint

namespace Color

/-- A text without its sign. -/
def unsigned : List Char → List Char
  | '-' :: rest | '+' :: rest => rest
  | text => text

/-- The digits that a text starts with, after blanks and a sign. -/
def leadingDigits (text : List Char) : List Char :=
  (unsigned (Text.trimStart text)).takeWhile Text.isDigit

def isNegative (text : List Char) : Bool := (Text.trimStart text).head? == some '-'

theorem unsigned_of_ne {c : Char} {rest : List Char} (minus : c ≠ '-') (plus : c ≠ '+') :
    unsigned (c :: rest) = c :: rest := by
  unfold unsigned
  split <;> simp_all

theorem leadingInt_eq (text : List Char) :
    leadingInt text =
      if leadingDigits text = [] then .ok none
      else if digitLimit < (leadingDigits text).length then .error .longNumeral
      else .ok (some (if isNegative text then -(digitsValue 0 (leadingDigits text) : Int)
        else digitsValue 0 (leadingDigits text))) := by
  unfold leadingInt leadingDigits isNegative
  simp only [List.isEmpty_iff]
  generalize Text.trimStart text = body
  match body with
  | [] => rfl
  | c :: rest =>
    by_cases minus : c = '-'
    · subst minus
      rfl
    · by_cases plus : c = '+'
      · subst plus
        rfl
      · have positive : ((c :: rest).head? == some '-') = false := by simpa using minus
        rw [unsigned_of_ne minus plus, positive]
        split <;> simp_all

theorem leadingInt_isOk_iff {text : List Char} :
    (∃ channel, leadingInt text = .ok channel) ↔ (leadingDigits text).length ≤ digitLimit := by
  rw [leadingInt_eq]
  by_cases none : leadingDigits text = []
  · simp [none]
  · by_cases long : digitLimit < (leadingDigits text).length
    · rw [if_neg none, if_pos long]
      simp [long]
    · rw [if_neg none, if_neg long]
      simp [Nat.le_of_not_lt long]

variable {α : Type} {arguments : List (Node α)}

/-- No channel of a function has more digits than are read. -/
def ReadableArguments (arguments : List (Node α)) : Prop :=
  ∀ text ∈ (arguments.filterMap number?).take 3, (leadingDigits text.toList).length ≤ digitLimit

/-- A value whose colour is given by a literal or by numbers that are short enough to be read. -/
def Readable (value : Node α) : Prop :=
  value.children.findSome? hex? = none →
    ∀ arguments, value.children.findSome? arguments? = some arguments → ReadableArguments arguments

theorem ofArguments_isOk_iff :
    (∃ color, ofArguments arguments = .ok color) ↔ ReadableArguments arguments := by
  unfold ReadableArguments
  simp only [← leadingInt_isOk_iff, ← Outcome.mapM_isOk_iff, ofArguments, Outcome.bind_eq_ok]
  constructor
  · intro holds
    obtain ⟨_, channels, read, _⟩ := holds
    exact ⟨channels, read⟩
  · intro holds
    obtain ⟨channels, read⟩ := holds
    exact ⟨_, channels, read, rfl⟩

theorem ofValue_isOk_iff {value : Node α} :
    (∃ color, ofValue value = .ok color) ↔ Readable value := by
  unfold ofValue Readable
  cases value.children.findSome? hex? with
  | some hex => simp
  | none =>
    cases value.children.findSome? arguments? with
    | some arguments => simp [ofArguments_isOk_iff]
    | none => simp

end Color

namespace Rgb

/-- The brightness of a colour is a number. -/
def Measurable (color : Rgb) : Prop := color.luma.natAbs < Number.Binary64.overflow * 1000

theorem brightness_isOk_iff {color : Rgb} :
    (∃ level, color.brightness = .ok level) ↔ color.Measurable := by
  have bound : Number.Binary64.ofQuotient (decide (color.luma < 0)) color.luma.natAbs 1000 =
      .infinite (decide (color.luma < 0)) ↔ ¬ color.Measurable := by
    rw [Number.Binary64.ofQuotient_eq_infinite_iff (by norm_num), Measurable, Nat.not_lt]
  unfold brightness
  split
  · rename_i sign found
    obtain rfl := Number.Binary64.sign_of_ofQuotient found
    have beyond := bound.mp found
    simp [beyond]
  · rename_i finite
    have within : color.Measurable := by
      by_contra beyond
      exact finite _ (bound.mpr beyond)
    simp [within]

end Rgb

/-- Two colours can be compared where the brightness of both is a number. -/
theorem Color.hasContrast_isOk_iff {front behind : Rgb} :
    (∃ answer, hasContrast (.ofRgb front) (.ofRgb behind) = .ok answer) ↔
      front.Measurable ∧ behind.Measurable := by
  rw [← Rgb.brightness_isOk_iff, ← Rgb.brightness_isOk_iff]
  have front' : (ofRgb front).brightness = front.brightness := rfl
  have behind' : (ofRgb behind).brightness = behind.brightness := rfl
  unfold hasContrast brightnessDifference
  rw [front', behind']
  constructor
  · intro holds
    obtain ⟨_, compared⟩ := holds
    obtain ⟨_, measured, _⟩ := Outcome.bind_eq_ok.mp compared
    obtain ⟨second, two, further⟩ := Outcome.bind_eq_ok.mp measured
    obtain ⟨first, one, _⟩ := Outcome.bind_eq_ok.mp further
    exact ⟨⟨first, one⟩, second, two⟩
  · intro holds
    obtain ⟨⟨first, one⟩, second, two⟩ := holds
    rw [one, two]
    by_cases bright : (second.sub first).abs.atLeast minBrightnessDifference
    · refine ⟨minHueDifference ≤ front.hueDifference behind, Outcome.bind_eq_ok.mpr ⟨_, rfl, ?_⟩⟩
      rw [if_pos bright]
      rfl
    · refine ⟨false, Outcome.bind_eq_ok.mpr ⟨_, rfl, ?_⟩⟩
      rw [if_neg bright]
      rfl

namespace Check

def setsForeground (property : String) : Bool := property == "color"

def setsBackground (property : String) : Bool :=
  property == "background-color" || property == "background"

/-- The colour that a declaration sets, if it is one of those that set some colour. -/
def ownColor? (sets : String → Bool) (declaration : Declaration Position) : Option Color :=
  if sets declaration.property then (Color.ofValue declaration.value).toOption else none

/-- The colour that the last of some declarations sets. -/
def lastColor? (sets : String → Bool) (declarations : List (Declaration Position)) : Option Color :=
  declarations.reverse.findSome? (ownColor? sets)

/-- The value of a declaration can be read as the colour that it sets, if it sets one. -/
def Legible (declaration : Declaration Position) : Prop :=
  (setsForeground declaration.property || setsBackground declaration.property) →
    Color.Readable declaration.value

theorem lastColor?_cons (sets : String → Bool) (declaration : Declaration Position)
    (rest : List (Declaration Position)) :
    lastColor? sets (declaration :: rest) =
      (lastColor? sets rest).or (ownColor? sets declaration) := by
  rw [lastColor?, List.reverse_cons, List.findSome?_append, List.findSome?_singleton]
  rfl

theorem Pairing.update_eq_ok {declaration : Declaration Position} {before after : Pairing} :
    before.update declaration = .ok after ↔ Legible declaration ∧
      after = ⟨(ownColor? setsForeground declaration).or before.foreground,
        (ownColor? setsBackground declaration).or before.background⟩ := by
  unfold Pairing.update Legible ownColor?
  rw [← Color.ofValue_isOk_iff]
  by_cases front : declaration.property = "color"
  · have apart : setsBackground declaration.property = false := by
      rw [front]
      rfl
    have sets : setsForeground declaration.property = true := by
      rw [front]
      rfl
    rw [if_pos front, apart, sets]
    cases Color.ofValue declaration.value with
    | error fault => simp [bind, Except.bind]
    | ok color => simp [bind, Except.bind, pure, Except.pure, Except.toOption, eq_comm]
  · have front' : setsForeground declaration.property = false := by simpa [setsForeground] using front
    rw [if_neg front, front']
    by_cases behind : declaration.property = "background-color" || declaration.property = "background"
    · have sets : setsBackground declaration.property = true := behind
      rw [if_pos behind, sets]
      cases Color.ofValue declaration.value with
      | error fault => simp [bind, Except.bind]
      | ok color => simp [bind, Except.bind, pure, Except.pure, Except.toOption, eq_comm]
    · have idle : setsBackground declaration.property = false := by
        rw [Bool.not_eq_true] at behind
        exact behind
      rw [if_neg behind, idle]
      simp only [pure, Except.pure, Except.ok.injEq, Bool.or_self, Bool.false_eq_true, false_implies,
        true_and, ↓reduceIte, Option.none_or]
      exact eq_comm

/-- Of several colours for one side the last one counts. -/
theorem foldlM_update_eq_ok {declarations : List (Declaration Position)} {first last : Pairing} :
    declarations.foldlM Pairing.update first = .ok last ↔ (∀ given ∈ declarations, Legible given) ∧
      last = ⟨(lastColor? setsForeground declarations).or first.foreground,
        (lastColor? setsBackground declarations).or first.background⟩ := by
  induction declarations generalizing first with
  | nil => simp [lastColor?, pure, Except.pure, eq_comm]
  | cons declaration rest ih =>
    rw [List.foldlM_cons, Outcome.bind_eq_ok, lastColor?_cons, lastColor?_cons, List.forall_mem_cons,
      Option.or_assoc, Option.or_assoc]
    constructor
    · intro holds
      obtain ⟨next, updated, further⟩ := holds
      obtain ⟨legible, rfl⟩ := Pairing.update_eq_ok.mp updated
      obtain ⟨others, same⟩ := ih.mp further
      exact ⟨⟨legible, others⟩, same⟩
    · intro holds
      obtain ⟨⟨legible, others⟩, same⟩ := holds
      exact ⟨_, Pairing.update_eq_ok.mpr ⟨legible, rfl⟩, ih.mpr ⟨others, same⟩⟩

theorem pairing_eq_ok {declarations : List (Declaration Position)} {last : Pairing} :
    declarations.foldlM Pairing.update {} = .ok last ↔ (∀ given ∈ declarations, Legible given) ∧
      last = ⟨lastColor? setsForeground declarations, lastColor? setsBackground declarations⟩ := by
  simpa only [Option.or_none] using @foldlM_update_eq_ok declarations {} last

/-- A pair of colours can be complained about unless both are known and one cannot be measured. -/
theorem pairingIssues_isOk_iff {block : Node Position} {pairing : Pairing} {context : Context} :
    (∃ issues, pairingIssues block pairing context = .ok issues) ↔
      ∀ behind front, pairing.background.bind Color.rgb? = some behind →
        pairing.foreground.bind Color.rgb? = some front → front.Measurable ∧ behind.Measurable := by
  have complained : (∃ issues, pairingIssues block pairing context = .ok issues) ↔
      ∃ complaint, pairing.complaint? = .ok complaint := by
    unfold pairingIssues
    constructor
    · intro holds
      obtain ⟨_, succeeds⟩ := holds
      obtain ⟨complaint, found, _⟩ := Outcome.bind_eq_ok.mp succeeds
      exact ⟨complaint, found⟩
    · intro holds
      obtain ⟨complaint, found⟩ := holds
      exact ⟨_, Outcome.bind_eq_ok.mpr ⟨complaint, found, rfl⟩⟩
  rw [complained]
  unfold Pairing.complaint?
  cases pairing.background.bind Color.rgb? with
  | none => simp
  | some behind =>
    cases pairing.foreground.bind Color.rgb? with
    | none => simp
    | some front =>
      have compared := @Color.hasContrast_isOk_iff front behind
      constructor
      · rintro ⟨_, succeeds⟩ _ _ ⟨⟩ ⟨⟩
        obtain ⟨answer, found, _⟩ := Outcome.bind_eq_ok.mp succeeds
        exact compared.mp ⟨answer, found⟩
      · intro measurable
        obtain ⟨answer, found⟩ := compared.mpr (measurable behind front rfl rfl)
        exact ⟨_, Outcome.bind_eq_ok.mpr ⟨answer, found, rfl⟩⟩

end Check
end SheetLint
