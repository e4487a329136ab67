import SheetLint.Node.Basic
import SheetLint.Token.Basic
import SheetLint.Token.Name

/-! The tokens of selector lists. -/
namespace SheetLint.Selector

open Extent

/-- The kinds of tokens of a selector list. -/
inductive Terminal
  | pseudo
  | simple (kind : SimpleKind)
  | comma
  deriving DecidableEq, Repr

/-- The rest of an argument in parentheses, to the parenthesis that closes it. It may hold parentheses
itself, but those hold none. -/
def argumentRest (nested : Bool) : Extent
  | [] => none
  | c :: rest =>
    if c = '(' then
      if nested then none else (argumentRest true rest).map (· + 1)
    else if c = ')' then
      if nested then (argumentRest false rest).map (· + 1) else some 1
    else (argumentRest nested rest).map (· + 1)

/-- One or two colons, a name, and an argument if there is a complete one. -/
def pseudo : Extent :=
  sign ':' >> optional (sign ':') >> optional (sign '-') >>
    char (fun c => c.isAlpha || c == '_') >> many Text.isName >>
    optional (sign '(' >> argumentRest false)

def simple : SimpleKind → Extent
  | .interpolation => Extent.interpolation
  | .keyframe => many1 Text.isDigit >> optional (sign '.' >> many1 Text.isDigit) >> sign '%'
  | .attribute => Extent.bracketed
  | .className => sign '.' >> name
  | .id => sign '#' >> name
  | .placeholder => sign '%' >> name
  | .type => optional (sign '-') >> char startsIdent >> many Text.isName >>
      optional (sign '|' >> name)
  | .parent => sign '&' >> many Text.isName
  | .combinator =>
    (sign '>' >> sign '>' >> sign '>') <|> char (fun c => c == '>' || c == '+' || c == '~')
  | .universal => sign '*'
  | .other _ => never

def simpleName : SimpleKind → String
  | .interpolation => "INTERPOLATION"
  | .keyframe => "KEYFRAME"
  | .attribute => "ATTRIBUTE"
  | .className => "CLASS"
  | .id => "ID"
  | .placeholder => "PLACEHOLDER"
  | .type => "TYPE"
  | .parent => "PARENT"
  | .combinator => "COMBINATOR"
  | .universal => "UNIVERSAL"
  | .other name => name

instance : Vocabulary Terminal where
  name
    | .pseudo => "PSEUDO"
    | .simple kind => simpleName kind
    | .comma => "COMMA"
  extent
    | .pseudo => pseudo
    | .simple kind => simple kind
    | .comma => sign ','
  preference := [.pseudo, .simple .interpolation, .simple .keyframe, .simple .attribute,
    .simple .className, .simple .id, .simple .placeholder, .simple .type, .simple .parent,
    .simple .combinator, .simple .universal, .comma]
  listing := [.simple .attribute, .simple .className, .simple .combinator, .comma, .simple .id,
    .simple .interpolation, .simple .keyframe, .simple .parent, .simple .placeholder, .pseudo,
    .simple .type, .simple .universal]

end SheetLint.Selector
