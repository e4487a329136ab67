import SheetLint.Proofs.HexLiteral
import SheetLint.Proofs.Numeral
import SheetLint.Proofs.Pairing
import SheetLint.Proofs.Parentheses
import Mathlib.Data.List.Forall2
import Mathlib.Data.List.TakeWhile

/-! The channels of the colour that a value describes. Those of a literal lie on the scale from 0 to 255. Those
of a function are the whole numbers that its first numerals start with, whether these lie on the scale or not. -/
namespace SheetLint

namespace Color

/-- The number that decimal digits write. -/
def decimal (digits : List Char) : Nat :=
  Nat.ofDigits 10 (digits.reverse.map fun c => (Text.digitValue? c).getD 0)

/-- Digits at the start of a text, all that there are. -/
structure DigitRun (digits rest : List Char) : Prop where
  some : digits ≠ []
  all : ∀ c ∈ digits, Text.isDigit c
  ends : ∀ c ∈ rest.head?, Text.isDigit c = false

/-- A text starts with a whole number, with a sign or without one. -/
inductive StartsWhole : List Char → Int → Prop
  | bare {digits rest : List Char} (run : DigitRun digits rest) :
      StartsWhole (digits ++ rest) (decimal digits)
  | plus {digits rest : List Char} (run : DigitRun digits rest) :
      StartsWhole ('+' :: (digits ++ rest)) (decimal digits)
  | minus {digits rest : List Char} (run : DigitRun digits rest) :
      StartsWhole ('-' :: (digits ++ rest)) (-decimal digits)

/-- The channel in a slot: red, green and blue in turn. -/
def channel? (color : Color) (slot : Nat) : Option Int := [color.red, color.green, color.blue][slot]?.join

/-- Channels that are known lie on the scale. -/
def OnScale (color : Color) : Prop := ∀ slot value, color.channel? slot = some value → 0 ≤ value ∧ value ≤ 255

section Whole

variable {text digits rest : List Char}

theorem digitsValue_concat (before : Nat) (digits : List Char) (c : Char) :
    digitsValue before (digits ++ [c]) = 10 * digitsValue before digits + (Text.digitValue? c).getD 0 := by
  induction digits generalizing before with
  | nil => rfl
  | cons d rest ih => exact ih _

theorem digitsValue_eq_decimal (digits : List Char) : digitsValue 0 digits = decimal digits := by
  induction digits using List.reverseRecOn with
  | nil => rfl
  | append_singleton digits c ih =>
    rw [digitsValue_concat, ih, decimal, decimal, List.reverse_concat, List.map_cons, Nat.ofDigits_cons]
    simp [add_comm]

theorem DigitRun.takeWhile (run : DigitRun digits rest) : (digits ++ rest).takeWhile Text.isDigit = digits := by
  rw [List.takeWhile_append_of_pos run.all]
  cases rest with
  | nil => simp
  | cons c rest => simp [run.ends c rfl]

theorem digitRun_takeWhile (some : text.takeWhile Text.isDigit ≠ []) :
    DigitRun (text.takeWhile Text.isDigit) (text.dropWhile Text.isDigit) where
  some := some
  all _ member := List.mem_takeWhile_imp member
  ends c first := by
    have stop := List.head?_dropWhile_not Text.isDigit text
    rw [Option.mem_def.mp first] at stop
    simpa using stop

/-- What a text starts with is told by its sign and the digits after that. -/
theorem startsWhole_iff (tight : Text.trimStart text = text) {value : Int} :
    StartsWhole text value ↔ leadingDigits text ≠ [] ∧
      value = if isNegative text then -(digitsValue 0 (leadingDigits text) : Int)
        else digitsValue 0 (leadingDigits text) := by
  rw [leadingDigits, isNegative, tight, digitsValue_eq_decimal]
  constructor
  · intro starts
    cases starts with
    | @bare digits rest run =>
      obtain ⟨c, others, rfl⟩ := List.exists_cons_of_ne_nil run.some
      have digit := run.all c List.mem_cons_self
      have minus : c ≠ '-' := Text.ne_of_class digit (by decide)
      have plus : c ≠ '+' := Text.ne_of_class digit (by decide)
      have whole := run.takeWhile
      rw [List.cons_append] at whole ⊢
      rw [unsigned_of_ne minus plus, whole]
      simp [minus]
    | plus run => simp [unsigned, run.takeWhile, run.some]
    | minus run => simp [unsigned, run.takeWhile, run.some]
  · rintro ⟨some, rfl⟩
    have run := digitRun_takeWhile some
    have joined := List.takeWhile_append_dropWhile (p := Text.isDigit) (l := unsigned text)
    match text with
    | [] => exact absurd rfl some
    | c :: rest =>
      by_cases minus : c = '-'
      · subst minus
        have starts := StartsWhole.minus run
        rw [joined] at starts
        exact starts
      · by_cases plus : c = '+'
        · subst plus
          have starts := StartsWhole.plus run
          rw [joined] at starts
          exact starts
        · have starts := StartsWhole.bare run
          rw [joined, unsigned_of_ne minus plus] at starts
          simpa [unsigned_of_ne minus plus, minus] using starts

/-- A channel that is read is the whole number that its numeral starts with. -/
theorem eq_some_of_leadingInt {channel : Option Int} (tight : Text.trimStart text = text)
    (read : leadingInt text = .ok channel) {value : Int} : channel = some value ↔ StartsWhole text value := by
  rw [startsWhole_iff tight]
  rw [leadingInt_eq] at read
  by_cases none : leadingDigits text = []
  · rw [if_pos none] at read
    cases read
    simp [none]
  · by_cases long : digitLimit < (leadingDigits text).length
    · rw [if_neg none, if_pos long] at read
      cases read
    · rw [if_neg none, if_neg long] at read
      cases read
      rw [Option.some.injEq, and_iff_right none]
      exact eq_comm

end Whole

section Values

variable {α : Type} {node : Node α}

/-- The digits of the first literal among the parts of a value. -/
def literal? (value : Node α) : Option String := value.children.findSome? hex?

/-- The numerals that give the channels of a value: the first three of its first function, unless there is a
literal. -/
def numerals (value : Node α) : List String :=
  match literal? value, value.children.findSome? arguments? with
  | none, some arguments => (arguments.filterMap number?).take 3
  | _, _ => []

theorem numerals_of_literal {hex : String} (literal : literal? node = some hex) : numerals node = [] := by
  rw [numerals, literal]

theorem readable_iff :
    Readable node ↔ ∀ numeral ∈ numerals node, (leadingDigits numeral.toList).length ≤ digitLimit := by
  unfold Readable ReadableArguments numerals literal?
  cases node.children.findSome? hex? with
  | some hex => simp
  | none =>
    cases node.children.findSome? arguments? with
    | some arguments => simp
    | none => simp

theorem onScale_unknown : unknown.OnScale := by
  intro slot value known
  match slot with
  | 0 | 1 | 2 => cases known
  | _ + 3 => cases known

theorem onScale_ofSix {digits six : List Char} (stands : StandsFor digits six) : (ofSix six).OnScale := by
  obtain ⟨count, all⟩ := stands.six_digits
  match six, count with
  | [r, r', g, g', b, b'], _ =>
    simp only [List.forall_mem_cons] at all
    obtain ⟨r₁, r₀, g₁, g₀, b₁, b₀, _⟩ := all
    intro slot value known
    match slot with
    | 0 =>
      cases known
      exact ⟨Int.natCast_nonneg _, Int.ofNat_le.mpr (hexNumber_pair_le r₁ r₀)⟩
    | 1 =>
      cases known
      exact ⟨Int.natCast_nonneg _, Int.ofNat_le.mpr (hexNumber_pair_le g₁ g₀)⟩
    | 2 =>
      cases known
      exact ⟨Int.natCast_nonneg _, Int.ofNat_le.mpr (hexNumber_pair_le b₁ b₀)⟩
    | _ + 3 => cases known

/-- A literal describes channels on the scale, whatever is written in it. -/
theorem onScale_ofHex (text : List Char) : (ofHex text).OnScale := by
  by_cases gives : ∃ six, Gives text six
  · obtain ⟨six, gives⟩ := gives
    rw [ofHex_of_gives gives]
    exact onScale_ofSix (gives_iff.mp gives)
  · rw [ofHex_of_not_gives gives]
    exact onScale_unknown

theorem onScale_of_literal {hex : String} {color : Color} (literal : literal? node = some hex)
    (described : ofValue node = .ok color) : color.OnScale := by
  unfold literal? at literal
  unfold ofValue at described
  rw [literal] at described
  cases described
  exact onScale_ofHex hex.toList

theorem rel_getElem? {β γ : Type} {related : β → γ → Prop} {first : List β} {second : List γ}
    (each : List.Forall₂ related first second) (slot : Nat) :
    Option.Rel related first[slot]? second[slot]? := by
  induction each generalizing slot with
  | nil => exact .none
  | cons here _ ih =>
    cases slot with
    | zero => exact .some here
    | succ slot => exact ih slot

/-- Without a literal the channels are read from the numerals, slot by slot. -/
theorem channels_of_numerals {color : Color} (free : literal? node = none)
    (described : ofValue node = .ok color) : ∃ channels : List (Option Int),
      List.Forall₂ (fun numeral channel => leadingInt numeral.toList = .ok channel) (numerals node) channels ∧
      ∀ slot, color.channel? slot = channels[slot]?.join := by
  rw [numerals, free]
  unfold literal? at free
  unfold ofValue at described
  rw [free] at described
  cases function : node.children.findSome? arguments? with
  | none =>
    rw [function] at described
    cases described
    refine ⟨[], .nil, fun slot => ?_⟩
    match slot with
    | 0 | 1 | 2 | _ + 3 => rfl
  | some arguments =>
    rw [function] at described
    obtain ⟨channels, read, same⟩ := Outcome.bind_eq_ok.mp described
    cases same
    have each := Outcome.mapM_eq_ok.mp read
    have few : channels.length ≤ 3 := by
      rw [← each.length_eq, List.length_take]
      exact Nat.min_le_left ..
    refine ⟨channels, each, fun slot => ?_⟩
    match slot with
    | 0 | 1 | 2 => rfl
    | slot + 3 =>
      rw [List.getElem?_eq_none (by omega : channels.length ≤ slot + 3)]
      rfl

theorem number_of_mem_numerals {numeral : String} (member : numeral ∈ numerals node) :
    ∃ start, .leaf (.number numeral) start ∈ node.walk := by
  unfold numerals at member
  split at member
  next arguments _ found =>
    obtain ⟨part, child, function⟩ := List.exists_of_findSome?_eq_some found
    obtain ⟨argument, among, number⟩ := List.mem_filterMap.mp (List.mem_of_mem_take member)
    cases part with
    | call name arguments start =>
      cases function
      cases argument with
      | leaf content start =>
        cases content with
        | number text =>
          cases number
          exact ⟨start, Node.mem_walkFrom_trans (Node.mem_walk_of_child child) (Node.mem_walk_of_child among)⟩
        | _ => cases number
      | _ => cases number
    | _ => cases function
  next => cases member

end Values

end Color

namespace Value

/-- A number in a value is a numeral of its text. -/
theorem takes_of_number {text : List Char} {parts : List (Node Nat)} {written : String} {start : Nat}
    (assembled : assemble (lex (κ := Terminal) text).stuck none [] [] (lex text).tokens = .ok parts)
    (member : .leaf (.number written) start ∈ Node.walkFrom parts) :
    ∃ rest, numeral.Takes written.toList rest := by
  have present : bare (.leaf (.number written) start) ∈ (lex text).tokens.filterMap piece := by
    rw [← map_bare_of_assemble assembled]
    exact List.mem_map_of_mem member
  obtain ⟨⟨kind, lexeme, offset⟩, among, found⟩ := List.mem_filterMap.mp present
  obtain ⟨rest, taken⟩ := (standsIn_of_mem_lex proper_extent among).takes
  cases kind with
  | atom kind =>
    cases kind with
    | number =>
      cases found
      exact ⟨rest, by rw [String.toList_ofList]; exact taken⟩
    | _ => cases found
  | _ => cases found

theorem trimStart_of_takes {piece rest : List Char} (taken : numeral.Takes piece rest) :
    Text.trimStart piece = piece := by
  cases piece with
  | nil => rfl
  | cons c others =>
    have starts := startsNumeral_of_takes taken c List.mem_cons_self
    have visible : Text.isBlank c = false := by
      by_contra blank
      rw [Bool.not_eq_false] at blank
      have digit := Text.isDigit_of_isBlank blank
      have plus : c ≠ '+' := Text.ne_of_class blank (by decide)
      have minus : c ≠ '-' := Text.ne_of_class blank (by decide)
      have point : c ≠ '.' := Text.ne_of_class blank (by decide)
      simp [startsNumeral, digit, plus, minus, point] at starts
    rw [Text.trimStart, List.dropWhile_cons_of_neg (by simp [visible])]

end Value

section Placed

variable {locate : Nat → Position} {text : List Char} {offset : Nat} {node : Node Position}

/-- The numerals of a value that is read start with a sign, a point or a digit. -/
theorem trimStart_of_mem_numerals {numeral : String} (read : placedValue locate text offset = .ok node)
    (member : numeral ∈ Color.numerals node) : Text.trimStart numeral.toList = numeral.toList := by
  obtain ⟨value, found, rfl⟩ := placedValue_eq_ok.mp read
  obtain ⟨parts, rfl, assembled⟩ := Value.read_eq_ok.mp found
  obtain ⟨place, inside⟩ := Color.number_of_mem_numerals member
  rw [Node.walk_map, List.mem_map] at inside
  obtain ⟨part, among, same⟩ := inside
  rw [Node.walk_eq_cons, List.mem_cons] at among
  rcases among with rfl | within
  · cases same
  · obtain ⟨start, rfl⟩ : ∃ start, part = .leaf (.number numeral) start := by
      cases part with
      | leaf content start =>
        cases same
        exact ⟨start, rfl⟩
      | _ => cases same
    obtain ⟨rest, taken⟩ := Value.takes_of_number assembled within
    exact Value.trimStart_of_takes taken

/-- The channels of a value without a literal are the whole numbers that its numerals start with. -/
theorem channel?_eq_some_iff {color : Color} (read : placedValue locate text offset = .ok node)
    (free : Color.literal? node = none) (described : Color.ofValue node = .ok color) {slot : Nat}
    {value : Int} : color.channel? slot = some value ↔
      ∃ numeral, (Color.numerals node)[slot]? = some numeral ∧ Color.StartsWhole numeral.toList value := by
  obtain ⟨channels, each, slots⟩ := Color.channels_of_numerals free described
  have told : List.Forall₂ (fun numeral channel => channel = some value ↔
      Color.StartsWhole numeral.toList value) (Color.numerals node) channels :=
    ((List.forall₂_and_left _ _).mpr ⟨fun _ member => trimStart_of_mem_numerals read member, each⟩).imp
      fun _ _ taken => Color.eq_some_of_leadingInt taken.1 taken.2
  rw [slots slot]
  have here := Color.rel_getElem? told slot
  generalize (Color.numerals node)[slot]? = numeral, channels[slot]? = channel at here ⊢
  cases here with
  | none => simp
  | some same => simpa using same

/-- The colour of a value is worked out where its numerals are short enough to be read. The channels of a
literal lie on the scale; those of a function are the whole numbers that its first three numerals start with,
one by one, and they lie on the scale just where these numbers do. -/
theorem channels_of_read_value (read : placedValue locate text offset = .ok node) :
    ((∃ color, Color.ofValue node = .ok color) ↔
      ∀ numeral ∈ Color.numerals node, (Color.leadingDigits numeral.toList).length ≤ Color.digitLimit) ∧
    ∀ color, Color.ofValue node = .ok color →
      (∀ hex, Color.literal? node = some hex → color.OnScale) ∧
      (Color.literal? node = none → ∀ slot value, color.channel? slot = some value ↔
        ∃ numeral, (Color.numerals node)[slot]? = some numeral ∧ Color.StartsWhole numeral.toList value) ∧
      (color.OnScale ↔ ∀ numeral ∈ Color.numerals node, ∀ value,
        Color.StartsWhole numeral.toList value → 0 ≤ value ∧ value ≤ 255) := by
  refine ⟨Color.ofValue_isOk_iff.trans Color.readable_iff, fun color described => ⟨?_, ?_, ?_⟩⟩
  · intro hex literal
    exact Color.onScale_of_literal literal described
  · intro free slot value
    exact channel?_eq_some_iff read free described
  · cases literal : Color.literal? node with
    | some hex =>
      rw [Color.numerals_of_literal literal]
      simp [Color.onScale_of_literal literal described]
    | none =>
      constructor
      · intro within numeral member value whole
        obtain ⟨slot, found⟩ := List.mem_iff_getElem?.mp member
        exact within slot value ((channel?_eq_some_iff read literal described).mpr ⟨numeral, found, whole⟩)
      · intro bounded slot value known
        obtain ⟨numeral, found, whole⟩ := (channel?_eq_some_iff read literal described).mp known
        exact bounded numeral (List.mem_of_getElem? found) value whole

theorem channels_of_read_value_of_signed :
    ∃ node color, placedValue (fun start => ⟨1, start⟩) "rgb(+10, 20.5)".toList 0 = .ok node ∧
      Color.ofValue node = .ok color ∧ color.channel? 0 = some 10 ∧ color.channel? 1 = some 20 ∧
      color.channel? 2 = none := by
  have read : placedValue (fun start => ⟨1, start⟩) "rgb(+10, 20.5)".toList 0 =
      .ok (.value [.call "rgb" [.leaf (.number "+10") ⟨1, 4⟩, .leaf (.operator ",") ⟨1, 7⟩,
        .leaf (.number "20.5") ⟨1, 9⟩] ⟨1, 0⟩] ⟨1, 0⟩) := by rfl
  obtain ⟨readable, told⟩ := channels_of_read_value read
  obtain ⟨color, described⟩ := readable.mpr (by decide)
  obtain ⟨_, slots, _⟩ := told color described
  have ten : Color.DigitRun ['1', '0'] [] := ⟨nofun, List.all_iff_forall_prop.mp rfl, nofun⟩
  have twenty : Color.DigitRun ['2', '0'] ['.', '5'] :=
    ⟨nofun, List.all_iff_forall_prop.mp rfl, by rintro _ ⟨⟩; rfl⟩
  refine ⟨_, color, read, described, (slots rfl 0 10).mpr ⟨_, rfl, .plus ten⟩,
    (slots rfl 1 20).mpr ⟨_, rfl, .bare twenty⟩, ?_⟩
  by_contra known
  obtain ⟨value, some⟩ := Option.ne_none_iff_exists'.mp known
  obtain ⟨_, missing, _⟩ := (slots rfl 2 value).mp some
  cases missing

/-- A number beyond the scale is a channel as it is, and so is one below. -/
theorem channels_leave_scale :
    ∃ node color, placedValue (fun start => ⟨1, start⟩) "rgb(300, -20, 0)".toList 0 = .ok node ∧
      Color.ofValue node = .ok color ∧ ¬color.OnScale := by
  refine ⟨_, ⟨some 300, some (-20), some 0⟩, rfl, rfl, fun within => ?_⟩
  exact absurd (within 0 300 rfl).2 (by decide)

end Placed

end SheetLint
