import SheetLint.Selector.Token
import SheetLint.Text.Lower
import SheetLint.Token.Mismatch

/-! Selector lists read from their text, every node placed by its offset. -/
namespace SheetLint.Selector

/-- The pseudo-class or pseudo-element that a lexeme writes. Its argument lies within the outermost
parentheses, its name before them, in lower case. -/
def pseudoLeaf (text : List Char) : Leaf :=
  let body := text.dropWhile (· == ':')
  let name := body.takeWhile (· != '(')
  let argument := body.drop name.length
  .pseudo (String.ofList (Text.lower name))
    (if argument.isEmpty then none else some (String.ofList (argument.drop 1).dropLast))
    (text.take 2 == [':', ':'])

/-- The component that a token stands for, unless it is a comma. -/
def component? (token : Token Terminal) : Option (Node Nat) :=
  match token.kind with
  | .pseudo => some (.leaf (pseudoLeaf token.text) token.offset)
  | .simple kind => some (.leaf (.simple kind (String.ofList token.text)) token.offset)
  | .comma => none

/-- The selector that reaches from its first component to its last, that is, from `start` to `stop`. -/
def node (text : List Char) (components : List (Node Nat)) (start stop : Nat) : Node Nat :=
  .selector components (String.ofList ((text.drop start).take (stop - start))) start

/-- The components of a selector read so far, at least one, the latest first. -/
structure Group where
  start : Nat
  stop : Nat
  components : List (Node Nat)

def Group.node (text : List Char) (group : Group) : Node Nat :=
  Selector.node text group.components.reverse group.start group.stop

/-- A group with one component more. -/
def Group.push (component : Node Nat) (token : Token Terminal) : Option Group → Group
  | none => ⟨token.offset, token.stop, [component]⟩
  | some group => ⟨group.start, token.stop, component :: group.components⟩

/-- The kinds that can start a selector. -/
def starters : List Terminal := Vocabulary.listing.filter (· != .comma)

/-- Puts tokens together into selectors. Commas stand between selectors, and none of these is empty. -/
def assemble (text : List Char) (stuck : Option (Char × Nat)) (last : Option (Token Terminal))
    (group : Option Group) : List (Token Terminal) → Except (Mismatch Terminal) (List (Node Nat))
  | [] =>
    match stuck, group with
    | some (c, offset), _ => .error (.character c offset last)
    | none, none => .error (.ending last starters)
    | none, some group => .ok [group.node text]
  | token :: rest =>
    match component? token, group with
    | some component, _ =>
      assemble text stuck (some token) (some (Group.push component token group)) rest
    | none, none => .error (.unexpected token starters false)
    | none, some group => do
      let selectors ← assemble text stuck (some token) none rest
      return group.node text :: selectors

/-- The selectors that a text lists. -/
def read (text : List Char) : Except (Mismatch Terminal) (List (Node Nat)) :=
  let lexing := lex text
  assemble text lexing.stuck none none lexing.tokens

end SheetLint.Selector
