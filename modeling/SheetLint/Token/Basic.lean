import SheetLint.Token.Extent

/-! Tokens, and the division of a text into tokens. -/
namespace SheetLint

/-- A lexeme of a text with its kind and the offset at which it starts. -/
structure Token (κ : Type) where
  kind : κ
  text : List Char
  offset : Nat
  deriving DecidableEq, Repr

/-- The offset just past a token. -/
def Token.stop {κ : Type} (token : Token κ) : Nat := token.offset + token.text.length

/-- The kinds of tokens that a grammar knows. -/
class Vocabulary (κ : Type) where
  /-- The word for a kind in messages. -/
  name : κ → String
  /-- The lexemes of a kind. -/
  extent : κ → Extent
  /-- All kinds, those preferred at the same place first. -/
  preference : List κ
  /-- All kinds in the order of their names. -/
  listing : List κ

/-- The blanks that separate tokens and are dropped. -/
def isSeparator (c : Char) : Bool :=
  c == ' ' || c == '\t' || c == '\x0c' || c == '\r' || c == '\n'

/-- The tokens of a text up to the first character that starts none. -/
structure Lexing (κ : Type) where
  tokens : List (Token κ)
  stuck : Option (Char × Nat)

variable {κ : Type} [Vocabulary κ]

/-- The preferred kind of token that a text starts with, and its length. -/
def recognise (text : List Char) : Option (κ × Nat) :=
  Vocabulary.preference.findSome? fun kind =>
    (Vocabulary.extent kind text).map fun length => (kind, length)

/-- Divides a text that starts at an offset. `pending` characters belong to the token before. -/
def lexFrom (offset pending : Nat) : List Char → Lexing κ
  | [] => ⟨[], none⟩
  | c :: rest =>
    match pending with
    | pending + 1 => lexFrom (offset + 1) pending rest
    | 0 =>
      if isSeparator c then lexFrom (offset + 1) 0 rest
      else match recognise (c :: rest) with
        | none => ⟨[], some (c, offset)⟩
        | some (kind, length) =>
          let after := lexFrom (offset + 1) (length - 1) rest
          ⟨⟨kind, (c :: rest).take length, offset⟩ :: after.tokens, after.stuck⟩

/-- Divides a text into tokens. -/
def lex (text : List Char) : Lexing κ := lexFrom 0 0 text

end SheetLint
