import SheetLint.Check.Interaction
import SheetLint.Node.Render
import SheetLint.Rule.Context

/-! The checks that look at one declaration each. -/
namespace SheetLint.Check

/-- A check of a declaration in a block whose selectors have given flags. -/
abbrev DeclarationCheck :=
  Declaration Position → InteractionFlags → Context → Except Foreign (List Issue)

/-- The value with which a property hides content. -/
def hidingValue? (property : String) : Option String :=
  [("display", "none"), ("height", "0"), ("overflow", "hidden"), ("visibility", "hidden"),
    ("width", "0")].lookup property

/-- The units that a property may be measured in. -/
def relativeUnits? (property : String) : Option (List String) :=
  [("font-size", ["em", "rem"]), ("margin", ["em", "rem"]), ("padding", ["em", "rem"])].lookup
    property

/-- The unit and the place of a dimension. -/
def dimension? : Node Position → Option (String × Position)
  | .leaf (.dimension _ unit) start => some (unit, start)
  | _ => none

/-- The value is written out whatever the property is. -/
def hiddenContent : DeclarationCheck := fun declaration _ context => do
  let value ← declaration.value.render
  if hidingValue? declaration.property = some value then
    return [context.issue declaration.start
      ("Content hidden by setting '" ++ declaration.property ++ "' to '" ++ value
        ++ "' is not available to assistive technology")]
  else return []

/-- Each dimension of a property that has relative units must use one of them. -/
def relativeUnits : DeclarationCheck := fun declaration _ context =>
  match relativeUnits? declaration.property with
  | none => .ok []
  | some units =>
    let absolute := (declaration.value.children.filterMap dimension?).filter fun (unit, _) =>
      !units.contains unit
    .ok <| absolute.map fun (_, start) => context.issue start
      ("Values for property '" ++ declaration.property ++ "' may only be specified as "
        ++ ", ".intercalate units)

/-- Content may be generated before and after elements only. -/
def generatedContent : DeclarationCheck := fun declaration flags context => do
  if declaration.property ≠ "content" || flags.isPseudoElement then return []
  let value ← declaration.value.render
  if (Text.trim value.toList).isEmpty then return []
  return [context.issue declaration.start
    "Content specified in a stylesheet is not available to assistive technology"]

def absolutePosition : DeclarationCheck := fun declaration _ context => do
  if declaration.property ≠ "position" then return []
  let value ← declaration.value.render
  if value ≠ "absolute" then return []
  return [context.issue declaration.start
    "Absolutely positioned content poses discoverability issues"]

def hiddenOutline : DeclarationCheck := fun declaration _ context => do
  if declaration.property ≠ "outline" then return []
  let value ← declaration.value.render
  if value ≠ "none" && value ≠ "0" then return []
  return [context.issue declaration.start "Outline should not be hidden"]

/-- All checks in the order in which they report. -/
def declarationChecks : List DeclarationCheck :=
  [generatedContent, absolutePosition, hiddenOutline, hiddenContent, relativeUnits]

end SheetLint.Check
