import SheetLint.Node.Walk

/-! The interaction states and pseudo-elements that the selectors of a block name. -/
namespace SheetLint

/-- What the selectors that guard one block have in common. -/
structure InteractionFlags where
  active : Bool := false
  hover : Bool := false
  focus : Bool := false
  before : Bool := false
  after : Bool := false
  deriving DecidableEq, Repr

namespace InteractionFlags

/-- Some of the three interaction states are styled, but not all. -/
def isDeviceDependent (flags : InteractionFlags) : Bool :=
  (flags.active || flags.focus || flags.hover) && !(flags.active && flags.focus && flags.hover)

def isPseudoElement (flags : InteractionFlags) : Bool := flags.before || flags.after

/-- The name of a pseudo-class or pseudo-element. -/
def pseudoName? {α : Type} : Node α → Option String
  | .leaf (.pseudo name _ _) _ => some name
  | _ => none

/-- The names of the pseudo-classes and pseudo-elements that selectors have among their components. -/
def pseudoNames {α : Type} (selectors : List (Node α)) : List String :=
  selectors.flatMap fun selector => selector.children.filterMap pseudoName?

/-- A name counts with one colon or two. -/
def ofSelectors {α : Type} (selectors : List (Node α)) : InteractionFlags :=
  let names := pseudoNames selectors
  { active := names.contains "active"
    hover := names.contains "hover"
    focus := names.contains "focus"
    before := names.contains "before"
    after := names.contains "after" }

end InteractionFlags
end SheetLint
