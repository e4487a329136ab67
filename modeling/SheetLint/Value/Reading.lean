import SheetLint.Node.Basic
import SheetLint.Text.Blank
import SheetLint.Token.Mismatch
import SheetLint.Value.Token

/-! Values read from their text, every node placed by its offset. -/
namespace SheetLint.Value

/-- The unit of a dimension starts at its first letter, and is kept in lower case. -/
def dimensionLeaf (text : List Char) : Leaf :=
  .dimension (String.ofList (text.takeWhile (!·.isAlpha)))
    (String.ofList ((text.dropWhile (!·.isAlpha)).map Char.toLower))

/-- The part that a token stands for. The flag for importance is kept without the blanks in it. -/
def Atom.leaf (text : List Char) : Atom → Leaf
  | .url => .url (String.ofList text)
  | .interpolation | .bracketed | .ident => .ident (String.ofList text)
  | .dimension => dimensionLeaf text
  | .percentage => .percentage (String.ofList text.dropLast)
  | .color => .color (String.ofList (text.drop 1))
  | .quoted => .quoted (String.ofList text)
  | .number => .number (String.ofList text)
  | .important => .ident (String.ofList (text.filter (!Text.isBlank ·)))
  | .reference => .reference (String.ofList (text.drop 1))
  | .operator => .operator (String.ofList text)

/-- An opening parenthesis whose partner is still to come: the function that it belongs to, if it does,
its place, and the parts before it, the latest first. -/
structure Opening where
  function? : Option String
  start : Nat
  before : List (Node Nat)

/-- The part that ends when its parenthesis closes. -/
def Opening.node (opening : Opening) (parts : List (Node Nat)) : Node Nat :=
  match opening.function? with
  | some name => .call name parts opening.start
  | none => .parens parts opening.start

/-- Puts tokens together under the openings around them, innermost first. `parts` are those before
at the same depth, the latest first. A token out of place is reported before anything that follows it
in the text. -/
def assemble (stuck : Option (Char × Nat)) (last : Option (Token Terminal))
    (openings : List Opening) (parts : List (Node Nat)) :
    List (Token Terminal) → Except (Mismatch Terminal) (List (Node Nat))
  | [] =>
    match stuck, openings with
    | some (c, offset), _ => .error (.character c offset last)
    | none, _ :: _ => .error (.ending last Vocabulary.listing)
    | none, [] => .ok parts.reverse
  | token :: rest =>
    match token.kind with
    | .atom kind =>
      assemble stuck (some token) openings (.leaf (kind.leaf token.text) token.offset :: parts) rest
    | .function =>
      let name := String.ofList token.text.dropLast
      assemble stuck (some token) (⟨some name, token.offset, parts⟩ :: openings) [] rest
    | .leftParen => assemble stuck (some token) (⟨none, token.offset, parts⟩ :: openings) [] rest
    | .rightParen =>
      match openings with
      | [] => .error (.unexpected token (Vocabulary.listing.filter (· != .rightParen)) true)
      | opening :: outer =>
        assemble stuck (some token) outer (opening.node parts.reverse :: opening.before) rest

/-- The value that a text writes. It starts at the first character that is not blank. -/
def read (text : List Char) : Except (Mismatch Terminal) (Node Nat) := do
  let lexing := lex text
  let parts ← assemble lexing.stuck none [] [] lexing.tokens
  return .value parts (Text.leadingBlanks text)

end SheetLint.Value
