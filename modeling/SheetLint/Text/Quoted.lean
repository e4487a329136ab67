import SheetLint.Text.Printable

/-! Quoted texts: on one line, between quotation marks, with escapes for what cannot be shown. -/
namespace SheetLint.Text

/-- Single marks, unless the text holds single marks and no double ones. -/
def quotationMark (text : List Char) : Char :=
  if text.contains '\x27' && !text.contains '\x22' then '\x22' else '\x27'

/-- A code point in lower-case base 16, in so many places. -/
def hexadecimal (places code : Nat) : List Char := (Nat.toDigits 16 code).leftpad places '0'

/-- One character within quotation marks of the given kind. -/
def escape (mark c : Char) : List Char :=
  if c == '\\' || c == mark then ['\\', c]
  else if c == '\n' then ['\\', 'n']
  else if c == '\r' then ['\\', 'r']
  else if c == '\t' then ['\\', 't']
  else if isPrintable c then [c]
  else if c.toNat < 256 then '\\' :: 'x' :: hexadecimal 2 c.toNat
  else if c.toNat < 65536 then '\\' :: 'u' :: hexadecimal 4 c.toNat
  else '\\' :: 'U' :: hexadecimal 8 c.toNat

/-- A text between quotation marks. -/
def quoted (text : List Char) : String :=
  let mark := quotationMark text
  String.ofList (mark :: text.flatMap (escape mark) ++ [mark])

end SheetLint.Text
