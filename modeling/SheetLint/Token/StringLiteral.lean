import SheetLint.Token.Extent

/-! Quoted strings within a stylesheet: how far they reach. -/
namespace SheetLint.StringLiteral

def isMark (c : Char) : Bool := c == '\x22' || c == '\x27'

/-- The length of a string from just after its opening mark to its closing mark, that included. A
backslash covers the character after it, whatever that is. Where a line break or the end of the text
comes first, the string is open, and the error is how far it could be followed; a backslash that ends
the text covers one character beyond the end. -/
def close (mark : Char) : List Char → Except Nat Nat
  | [] => .error 0
  | '\\' :: [] => .error 2
  | '\\' :: _ :: rest =>
    match close mark rest with
    | .ok length => .ok (length + 2)
    | .error followed => .error (followed + 2)
  | c :: rest =>
    if c = mark then .ok 1
    else if c = '\n' then .error 0
    else match close mark rest with
      | .ok length => .ok (length + 1)
      | .error followed => .error (followed + 1)

/-- A string that closes on its line, line breaks covered by a backslash aside. -/
def extent : Extent
  | [] => none
  | c :: rest => if isMark c then (close c rest).toOption.map (· + 1) else none

/-- The rest of a string of which a backslash covers any character but a line break, and in which line
breaks stand for themselves. -/
def closeLoose (mark : Char) : Extent
  | [] => none
  | '\\' :: [] => none
  | '\\' :: c :: rest => if c = '\n' then none else (closeLoose mark rest).map (· + 2)
  | c :: rest => if c = mark then some 1 else (closeLoose mark rest).map (· + 1)

/-- A string as a part of a value. -/
def looseExtent : Extent
  | [] => none
  | c :: rest => if isMark c then (closeLoose c rest).map (· + 1) else none

end SheetLint.StringLiteral
