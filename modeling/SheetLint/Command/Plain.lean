import SheetLint.Token.Name

/-! Plain text, for a screen or a file that knows nothing of control sequences. -/
namespace SheetLint.Command

open Extent

/-- A character from one to another, both included. -/
def within (low high c : Char) : Bool := low ≤ c && c ≤ high

/-- A control sequence, which sets the style of what follows or moves the cursor: an escape and a
bracket, parameters, intermediate characters, and the character that ends it. -/
def controlSequence : Extent :=
  sign '\x1b' >> sign '[' >> many (within '0' '?') >> many (within ' ' '/') >> char (within '@' '~')

/-- `pending` characters belong to a control sequence. -/
def unstyledFrom (pending : Nat) : List Char → List Char
  | [] => []
  | c :: rest =>
    match pending with
    | pending + 1 => unstyledFrom pending rest
    | 0 =>
      match controlSequence (c :: rest) with
      | some length => unstyledFrom (length - 1) rest
      | none => c :: unstyledFrom 0 rest

/-- A text without its control sequences. -/
def unstyled (text : String) : String := String.ofList (unstyledFrom 0 text.toList)

/-- A text in which a carriage return before a line feed is left out. -/
def plainBreaks : List Char → List Char
  | '\r' :: '\n' :: rest => '\n' :: plainBreaks rest
  | c :: rest => c :: plainBreaks rest
  | [] => []

/-- The text of printed lines. -/
def printed (lines : List String) : String :=
  String.ofList (plainBreaks (String.join (lines.map (· ++ "\n"))).toList)

end SheetLint.Command
