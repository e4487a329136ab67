import SheetLint.Node.Walk
import SheetLint.Text.Blank
import SheetLint.Text.Digit

/-! Colours that values describe, as far as their text tells. -/
namespace SheetLint

/-- The three channels of a colour; one that the text leaves open is none. -/
structure Color where
  red : Option Int
  green : Option Int
  blue : Option Int
  deriving DecidableEq, Repr

/-- A colour with all its channels. -/
structure Rgb where
  red : Int
  green : Int
  blue : Int
  deriving DecidableEq, Repr

/-- Why no colour, or no result about colours, can be worked out. -/
inductive ColorFault
  /-- A channel has more digits than are read. -/
  | longNumeral
  /-- A channel is left open. -/
  | openChannel
  /-- The brightness lies beyond the greatest number. -/
  | tooBright
  deriving DecidableEq, Repr

namespace Color

/-- Nothing is known of the colour. -/
def unknown : Color := ⟨none, none, none⟩

def rgb? (color : Color) : Option Rgb :=
  match color.red, color.green, color.blue with
  | some red, some green, some blue => some ⟨red, green, blue⟩
  | _, _, _ => none

def isValid (color : Color) : Bool := color.rgb?.isSome

def ofRgb (rgb : Rgb) : Color := ⟨some rgb.red, some rgb.green, some rgb.blue⟩

/-- The value of a digit in base 16, in either case. -/
def hexValue? (c : Char) : Option Nat :=
  if '0' ≤ c && c ≤ '9' then some (c.toNat - 48)
  else if 'a' ≤ c && c ≤ 'f' then some (c.toNat - 87)
  else if 'A' ≤ c && c ≤ 'F' then some (c.toNat - 55)
  else none

/-- A text without the line break that it may end in. -/
def withoutBreak (text : List Char) : List Char :=
  if text.getLast? == some '\n' then text.dropLast else text

/-- Six digits in base 16 are three channels of two digits; of three digits each one counts twice. -/
def ofHex (digits : List Char) : Color :=
  match (withoutBreak digits).mapM hexValue? with
  | some [r₁, r₀, g₁, g₀, b₁, b₀] =>
    ofRgb ⟨(16 * r₁ + r₀ : Nat), (16 * g₁ + g₀ : Nat), (16 * b₁ + b₀ : Nat)⟩
  | some [r, g, b] => ofRgb ⟨(17 * r : Nat), (17 * g : Nat), (17 * b : Nat)⟩
  | _ => unknown

/-- The greatest number of digits that are read as an integer. -/
def digitLimit : Nat := 4300

/-- The number that decimal digits write, from the value of those before. -/
def digitsValue (before : Nat) : List Char → Nat
  | [] => before
  | c :: rest => digitsValue (10 * before + (Text.digitValue? c).getD 0) rest

/-- The integer that a text starts with, after blanks. -/
def leadingInt (text : List Char) : Except ColorFault (Option Int) :=
  let body := Text.trimStart text
  let (negative, unsigned) :=
    match body with
    | '-' :: rest => (true, rest)
    | '+' :: rest => (false, rest)
    | _ => (false, body)
  let digits := unsigned.takeWhile Text.isDigit
  if digits.isEmpty then .ok none
  else if digitLimit < digits.length then .error .longNumeral
  else
    let value : Int := digitsValue 0 digits
    .ok (some (if negative then -value else value))

/-- The text of a bare number. -/
def number? {α : Type} : Node α → Option String
  | .leaf (.number text) _ => some text
  | _ => none

def hex? {α : Type} : Node α → Option String
  | .leaf (.color hex) _ => some hex
  | _ => none

def arguments? {α : Type} : Node α → Option (List (Node α))
  | .call _ arguments _ => some arguments
  | _ => none

/-- The first three bare numbers among the arguments of a function are the channels. -/
def ofArguments {α : Type} (arguments : List (Node α)) : Except ColorFault Color := do
  let channels ← ((arguments.filterMap number?).take 3).mapM fun text => leadingInt text.toList
  return ⟨channels[0]?.join, channels[1]?.join, channels[2]?.join⟩

/-- The colour that a value describes: by its first colour literal, well-formed or not, or else by its
first function. -/
def ofValue {α : Type} (value : Node α) : Except ColorFault Color :=
  match value.children.findSome? hex?, value.children.findSome? arguments? with
  | some hex, _ => .ok (ofHex hex.toList)
  | none, some arguments => ofArguments arguments
  | none, none => .ok unknown

theorem isValid_ofRgb (rgb : Rgb) : (ofRgb rgb).isValid := rfl

end Color
end SheetLint
