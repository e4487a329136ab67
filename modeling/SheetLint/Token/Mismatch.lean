import SheetLint.Position
import SheetLint.Text.Quoted
import SheetLint.Token.Basic

/-! Why a text does not follow a grammar, and the report of it. -/
namespace SheetLint

/-- The first place at which a text departs from a grammar. -/
inductive Mismatch (κ : Type)
  /-- A character that starts no token, and the token before it. -/
  | character (found : Char) (offset : Nat) (previous : Option (Token κ))
  /-- A token out of place, the kinds that could have stood there, and whether the text could have
  ended there. -/
  | unexpected (found : Token κ) (expected : List κ) (orEnd : Bool)
  /-- An end too early, after the last token. -/
  | ending (last : Option (Token κ)) (expected : List κ)

namespace Mismatch

variable {κ : Type}

/-- The offset that is reported. An end too early is reported at the last token. -/
def offset : Mismatch κ → Nat
  | character _ offset _ => offset
  | unexpected found _ _ => found.offset
  | ending last _ => (last.map Token.offset).getD 0

variable [Vocabulary κ]

/-- The width of a line's start. A tab reaches to the next multiple of eight, counted anew after a
carriage return. -/
def width (text : List Char) : Nat :=
  (text.foldl (fun (total, column) c =>
    if c == '\t' then (total + (8 - column % 8), column + (8 - column % 8))
    else (total + 1, if c == '\r' || c == '\n' then 0 else column + 1)) (0, 0)).1

/-- The line around an offset, at most forty characters on either side, above a caret. -/
def context (text : List Char) (offset : Nat) : String :=
  let before := ((text.take offset).drop (offset - 40)).reverse.takeWhile (· != '\n') |>.reverse
  let after := ((text.drop offset).take 40).takeWhile (· != '\n')
  String.ofList (before ++ after ++ '\n' :: List.replicate (width before) ' ' ++ ['^', '\n'])

def listing (names : List String) : String :=
  "Expected one of: \n" ++ String.join (names.map fun name => "\t* " ++ name ++ "\n")

def tokenText (name : String) (text : List Char) : String :=
  "Token(" ++ Text.quoted name.toList ++ ", " ++ Text.quoted text ++ ")"

/-- The report on a text. Lines and columns count within it. -/
def message (text : List Char) (mismatch : Mismatch κ) : String :=
  let place := (LineIndex.ofText text).locate mismatch.offset
  match mismatch with
  | character found offset previous =>
    "No terminal matches '" ++ String.ofList [found] ++ "' in the current parser context, at line "
      ++ toString place.line ++ " col " ++ toString place.column ++ "\n\n"
      ++ context text offset ++ listing ((Vocabulary.listing (κ := κ)).map Vocabulary.name)
      ++ match previous with
        | some before =>
          "\nPrevious tokens: " ++ tokenText (Vocabulary.name before.kind) before.text ++ "\n"
        | none => ""
  | unexpected found expected orEnd =>
    "Unexpected token " ++ tokenText (Vocabulary.name found.kind) found.text
      ++ " at line " ++ toString place.line ++ ", column " ++ toString place.column ++ ".\n"
      ++ listing ((if orEnd then ["$END"] else []) ++ expected.map Vocabulary.name)
  | ending _ expected =>
    "Unexpected token " ++ tokenText "$END" []
      ++ " at line " ++ toString place.line ++ ", column " ++ toString place.column ++ ".\n"
      ++ listing (expected.map Vocabulary.name)

end Mismatch
end SheetLint
