import SheetLint.Text.Digit
import SheetLint.Text.Word
import SheetLint.Token.Extent

/-! Lexemes that values and selectors share. -/
namespace SheetLint.Extent

open Text (isName isWord)

/-- One character. -/
def sign (c : Char) : Extent := char (· == c)

/-- At least one name character. -/
def name : Extent := many1 isName

/-- A character that may start an identifier: an ASCII letter, the underscore, or any character of the
basic plane beyond ASCII. -/
def startsIdent (c : Char) : Bool :=
  c.isAlpha || c == '_' || (128 ≤ c.toNat && c.toNat ≤ 65535)

/-- A placeholder for text that is worked out elsewhere, up to its first closing brace. -/
def interpolation : Extent := sign '#' >> sign '\x7b' >> through '\x7d'

/-- A text in brackets, up to the first closing one. -/
def bracketed : Extent := sign '[' >> through ']'

end SheetLint.Extent
