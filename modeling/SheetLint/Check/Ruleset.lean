import SheetLint.Check.Declaration
import SheetLint.Color.Contrast

/-! The checks of a ruleset: its selectors, its declarations one by one, and its two colours. -/
namespace SheetLint.Check

/-- Why rulesets cannot be judged. -/
inductive Fault
  | foreign (item : Foreign)
  | color (fault : ColorFault)

def deviceDependence : String :=
  "Use of :hover, :active, or :focus without all three creates device dependence"

def missingForeground : String :=
  "Color should always be specified any time background-color is defined"

def lowContrast : String :=
  "There is not enough contrast between background and foreground colors"

/-- The two colours of a block, as far as its declarations have set them. -/
structure Pairing where
  foreground : Option Color := none
  background : Option Color := none

/-- The pairing after one more declaration. A later colour takes the place of an earlier one, also
where nothing is known of it. -/
def Pairing.update (pairing : Pairing) (declaration : Declaration Position) :
    Except ColorFault Pairing :=
  if declaration.property = "color" then do
    let color ← Color.ofValue declaration.value
    return { pairing with foreground := some color }
  else if declaration.property = "background-color" || declaration.property = "background" then do
    let color ← Color.ofValue declaration.value
    return { pairing with background := some color }
  else return pairing

/-- A background asks for a foreground that stands out from it; a foreground alone asks for nothing. -/
def Pairing.complaint? (pairing : Pairing) : Except ColorFault (Option String) :=
  match pairing.background.bind Color.rgb?, pairing.foreground.bind Color.rgb? with
  | none, _ => .ok none
  | some _, none => .ok (some missingForeground)
  | some background, some foreground => do
    let sufficient ← Color.hasContrast (.ofRgb foreground) (.ofRgb background)
    return if sufficient then none else some lowContrast

/-- Runs checks on one declaration. -/
def runChecks (declaration : Declaration Position) (flags : InteractionFlags) (context : Context)
    (collector : Collector) : List DeclarationCheck → Except Foreign Collector
  | [] => .ok collector
  | check :: rest => do
    let issues ← check declaration flags context
    runChecks declaration flags context (collector.extend issues) rest

/-- Runs all checks on declarations in turn, and keeps track of the colours. -/
def runDeclarations (flags : InteractionFlags) (context : Context) (collector : Collector)
    (pairing : Pairing) : List (Declaration Position) → Except Fault (Collector × Pairing)
  | [] => .ok (collector, pairing)
  | declaration :: rest => do
    let pairing ← (pairing.update declaration).mapError Fault.color
    let collector ←
      (runChecks declaration flags context collector declarationChecks).mapError Fault.foreign
    runDeclarations flags context collector pairing rest

/-- The issue about the colours of a block, at the block. -/
def pairingIssues (block : Node Position) (pairing : Pairing) (context : Context) :
    Except ColorFault (List Issue) := do
  let complaint ← pairing.complaint?
  return (complaint.bind fun message => block.start?.map fun start =>
    context.issue start message).toList

/-- The issues of one ruleset, without regard to any other. -/
def ruleset (ruleset : Ruleset Position) (context : Context) : Except Fault Collector := do
  let flags := InteractionFlags.ofSelectors ruleset.selectors
  let dependence :=
    if flags.isDeviceDependent then [context.issue ruleset.start deviceDependence] else []
  let (found, pairing) ←
    runDeclarations flags context .empty {} ruleset.block.declarations
  let colors ← (pairingIssues ruleset.block pairing context).mapError Fault.color
  return ((Collector.ofList dependence).merge found).extend colors

/-- Judges rulesets in turn. -/
def rulesets (context : Context) (collector : Collector) :
    List (Ruleset Position) → Except Fault Collector
  | [] => .ok collector
  | first :: rest => do
    let found ← ruleset first context
    rulesets context (collector.merge found) rest

/-- The issues of all rulesets of a tree, nested ones included. -/
def sheet (tree : Node Position) (context : Context) : Except Fault Collector :=
  rulesets context .empty tree.rulesets

end SheetLint.Check
