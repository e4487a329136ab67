import SheetLint.Sheet.Comment
import SheetLint.Sheet.Statement

/-! Stylesheets parsed from their source, every node at its line and column. -/
namespace SheetLint

/-- A source without the byte-order mark that it may start with. -/
def dropMark : List Char → List Char
  | c :: rest => if c.toNat = 0xFEFF then rest else c :: rest
  | [] => []

/-- The tree of a source, with the heads of the property groups left out. -/
def parseTraced (source : String) : Traced String ParseError (Node Position) :=
  let text := Comment.blank (dropMark source.toList)
  let index := LineIndex.ofText text
  Node.map index.locate <$> (readSheet text).mapError (Failure.locate index)

/-- The tree of a source. -/
def parse (source : String) : Except ParseError (Node Position) := (parseTraced source).result

/-- The text of a file. The place of a refusal counts lines and columns in bytes. -/
def decodeFile (path : String) (bytes : List UInt8) : Except ParseError String :=
  match Text.Utf8.decode bytes with
  | .ok text => .ok (String.ofList text)
  | .error refusal =>
    .error (.at (.undecodable path refusal.reason) ((LineIndex.ofBytes bytes).locate refusal.start))

/-- The tree of a file. -/
def parseFileTraced (path : String) (bytes : List UInt8) :
    Traced String ParseError (Node Position) := do
  let source ← .ofExcept (decodeFile path bytes)
  parseTraced source

def parseFile (path : String) (bytes : List UInt8) : Except ParseError (Node Position) :=
  (parseFileTraced path bytes).result

end SheetLint
