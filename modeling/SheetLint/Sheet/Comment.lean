import SheetLint.Token.Name
import SheetLint.Token.StringLiteral

/-! Comments, and texts in which blanks stand in their place. -/
namespace SheetLint.Comment

open Extent

/-- What starts at a place of a text: a stretch in which no comment starts, or a comment. -/
inductive Stretch
  | kept (length : Nat)
  | comment (length : Nat)
  deriving DecidableEq, Repr

/-- A string, or an address up to the first closing parenthesis. -/
def shelter : Extent := StringLiteral.extent <|> (word "url(".toList >> through ')')

/-- The length up to the end of a comment, or of the text. -/
def blockLength : List Char → Nat
  | '*' :: '/' :: _ => 2
  | _ :: rest => blockLength rest + 1
  | [] => 0

def stretch? (text : List Char) : Option Stretch :=
  match shelter text, text with
  | some length, _ => some (.kept length)
  | none, '/' :: '*' :: rest => some (.comment (blockLength rest + 2))
  | none, '/' :: '/' :: rest => some (.comment ((rest.takeWhile (· != '\n')).length + 2))
  | none, _ => none

/-- A character of a comment: line breaks stay. -/
def blanked (c : Char) : Char := if c = '\n' then c else ' '

/-- `pending` characters belong to the stretch at hand, a comment or not. -/
def blankFrom (within : Bool) (pending : Nat) : List Char → List Char
  | [] => []
  | c :: rest =>
    match pending with
    | pending + 1 => (if within then blanked c else c) :: blankFrom within pending rest
    | 0 =>
      match stretch? (c :: rest) with
      | some (.kept length) => c :: blankFrom false (length - 1) rest
      | some (.comment length) => blanked c :: blankFrom true (length - 1) rest
      | none => c :: blankFrom false 0 rest

/-- The text with every comment blanked. Offsets and lines stay as they were. -/
def blank (text : List Char) : List Char := blankFrom false 0 text

theorem length_blankFrom (within : Bool) (pending : Nat) (text : List Char) :
    (blankFrom within pending text).length = text.length := by
  induction text generalizing within pending with
  | nil => rfl
  | cons c rest ih =>
    cases pending with
    | succ pending => simp [blankFrom, ih]
    | zero =>
      simp only [blankFrom]
      split <;> simp [ih]

theorem length_blank (text : List Char) : (blank text).length = text.length :=
  length_blankFrom false 0 text

end SheetLint.Comment
