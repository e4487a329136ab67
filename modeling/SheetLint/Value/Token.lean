import SheetLint.Token.Basic
import SheetLint.Token.Name
import SheetLint.Token.StringLiteral

/-! The tokens of declaration values. -/
namespace SheetLint.Value

open Extent

/-- The kinds of tokens that are parts by themselves. -/
inductive Atom
  | url
  | interpolation
  | dimension
  | percentage
  | color
  | quoted
  | number
  | important
  | bracketed
  | reference
  | ident
  | operator
  deriving DecidableEq, Repr

/-- The kinds of tokens of a value. A function token ends in an opening parenthesis. -/
inductive Terminal
  | atom (kind : Atom)
  | function
  | leftParen
  | rightParen
  deriving DecidableEq, Repr

/-- Digits with or without a point among them, after an optional sign. -/
def numeral : Extent :=
  optional (char fun c => c == '+' || c == '-') >>
    ((many1 Text.isDigit >> optional (sign '.') >> many Text.isDigit)
      <|> (sign '.' >> many1 Text.isDigit))

def isOperator (c : Char) : Bool := ",/+-*=:<>~^|&.%!?#@".toList.contains c

def Atom.extent : Atom → Extent
  | .url => word "url(".toList >> through ')'
  | .interpolation => Extent.interpolation
  | .dimension => numeral >> many1 Char.isAlpha
  | .percentage => numeral >> sign '%'
  | .color => sign '#' >> name
  | .quoted => StringLiteral.looseExtent
  | .number => numeral
  | .important => sign '!' >> many (fun c => c == ' ' || c == '\t') >> many1 Char.isAlpha
  | .bracketed => Extent.bracketed
  | .reference => sign '$' >> name
  | .ident => atMost 2 (· == '-') >> char (fun c => startsIdent c || c == '\\') >>
      many (fun c => Text.isName c || c == '\\')
  | .operator => char isOperator

def Atom.name : Atom → String
  | .url => "URL"
  | .interpolation => "INTERPOLATION"
  | .dimension => "DIMENSION"
  | .percentage => "PERCENTAGE"
  | .color => "COLOR"
  | .quoted => "STRING"
  | .number => "NUMBER"
  | .important => "IMPORTANT"
  | .bracketed => "BRACKETED"
  | .reference => "VARIABLE"
  | .ident => "IDENT"
  | .operator => "OPERATOR"

def Terminal.extent : Terminal → Extent
  | .atom kind => kind.extent
  | .function => atMost 2 (· == '-') >> char startsIdent >>
      many (fun c => Text.isName c || c == '.') >> sign '('
  | .leftParen => sign '('
  | .rightParen => sign ')'

def Terminal.name : Terminal → String
  | .atom kind => kind.name
  | .function => "FUNCTION"
  | .leftParen => "LPAR"
  | .rightParen => "RPAR"

instance : Vocabulary Terminal where
  name := Terminal.name
  extent := Terminal.extent
  preference := [.atom .url, .atom .interpolation, .function, .atom .dimension, .atom .percentage,
    .atom .color, .atom .quoted, .atom .number, .atom .important, .atom .bracketed,
    .atom .reference, .atom .ident, .atom .operator, .leftParen, .rightParen]
  listing := [.atom .bracketed, .atom .color, .atom .dimension, .function, .atom .ident,
    .atom .important, .atom .interpolation, .leftParen, .atom .number, .atom .operator,
    .atom .percentage, .rightParen, .atom .quoted, .atom .url, .atom .reference]

end SheetLint.Value
