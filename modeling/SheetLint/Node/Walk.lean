import SheetLint.Node.Basic

/-! Walks over a tree: a node comes before its parts, and parts come in document order. -/
namespace SheetLint.Node

variable {α : Type}

/-- Visits the pending nodes; the parts of a node are put in front of what was pending. -/
def walkFrom : List (Node α) → List (Node α)
  | [] => []
  | node :: pending => node :: walkFrom (node.children ++ pending)
termination_by pending => sizeAll pending
decreasing_by
  rw [sizeAll_append, sizeAll, size_eq]
  omega

/-- All nodes of a tree. -/
def walk (node : Node α) : List (Node α) := walkFrom [node]

/-- The sorts of nodes that can be searched for. -/
inductive Kind
  | number | dimension | percentage | color | ident | quoted | reference | url | operator
  | simple | pseudo | call | parens | value | selector | declaration | block | ruleset
  | atRule | stylesheet | position
  deriving DecidableEq, Repr

def leafKind : Leaf → Kind
  | .number _ => .number
  | .dimension _ _ => .dimension
  | .percentage _ => .percentage
  | .color _ => .color
  | .ident _ => .ident
  | .quoted _ => .quoted
  | .reference _ => .reference
  | .url _ => .url
  | .operator _ => .operator
  | .simple _ _ => .simple
  | .pseudo _ _ _ => .pseudo

/-- The sort of a node. Directives count as at-rules. Of the foreign things positions alone are of a
sort that can be searched for. -/
def kind? : Node α → Option Kind
  | leaf content _ => some (leafKind content)
  | call _ _ _ => some .call
  | parens _ _ => some .parens
  | value _ _ => some .value
  | selector _ _ _ => some .selector
  | declaration _ _ _ => some .declaration
  | block _ _ => some .block
  | ruleset _ _ _ => some .ruleset
  | directive _ _ _ | atRule _ _ _ _ => some .atRule
  | stylesheet _ _ => some .stylesheet
  | foreign (.position _) => some .position
  | foreign (.datum _) => none

def isKind (kind : Kind) (node : Node α) : Bool := node.kind? == some kind

/-- The nodes of one sort anywhere in a tree, its root included. -/
def findAll (kind : Kind) (node : Node α) : List (Node α) := node.walk.filter (isKind kind)

/-- The direct parts of one sort. -/
def childrenOf (kind : Kind) (node : Node α) : List (Node α) := node.children.filter (isKind kind)

/-- The first direct part of one sort. -/
def firstOf (kind : Kind) (node : Node α) : Option (Node α) := node.children.find? (isKind kind)

/-- All rulesets of a tree, at any depth. -/
def rulesets (node : Node α) : List (Ruleset α) := node.walk.filterMap ruleset?

/-- The declarations among the direct parts. -/
def declarations (node : Node α) : List (Declaration α) := node.children.filterMap declaration?

theorem firstOf_eq_head? (kind : Kind) (node : Node α) :
    node.firstOf kind = (node.childrenOf kind).head? := by
  simp [firstOf, childrenOf]

end SheetLint.Node
