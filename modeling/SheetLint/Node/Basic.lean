import SheetLint.Datum.Basic
import SheetLint.Position

/-!
Nodes of a stylesheet. A node carries its place in a form of the caller's choice: a reader places nodes
by offset, and `Node.map` turns offsets into lines and columns.
-/
namespace SheetLint

/-- What one component of a selector selects by. -/
inductive SimpleKind
  | type
  | universal
  | className
  | id
  | attribute
  | parent
  | placeholder
  | combinator
  | interpolation
  | keyframe
  | other (name : String)
  deriving DecidableEq, Repr

/-- A node without parts. -/
inductive Leaf
  | number (text : String)
  | dimension (amount unit : String)
  | percentage (amount : String)
  | color (hex : String)
  | ident (name : String)
  | quoted (raw : String)
  | reference (name : String)
  | url (raw : String)
  | operator (symbol : String)
  | simple (kind : SimpleKind) (text : String)
  | pseudo (name : String) (argument : Option String) (isElement : Bool)
  deriving DecidableEq, Repr

/-- A thing in a tree that is no node. -/
inductive Foreign
  | datum (value : Datum)
  | position (value : Position)

/-- The word for a thing of this sort. -/
def Foreign.sort : Foreign → String
  | .datum value => value.sort
  | .position _ => "Position"

def Foreign.message (item : Foreign) : String := "Not a stylesheet node: " ++ item.sort

/-- A stylesheet or a part of one. An at-rule without a block is a directive. -/
inductive Node (α : Type)
  | leaf (content : Leaf) (start : α)
  | call (name : String) (arguments : List (Node α)) (start : α)
  | parens (parts : List (Node α)) (start : α)
  | value (parts : List (Node α)) (start : α)
  | selector (components : List (Node α)) (text : String) (start : α)
  | declaration (property : String) (given : Node α) (start : α)
  | block (children : List (Node α)) (start : α)
  | ruleset (selectors : List (Node α)) (body : Node α) (start : α)
  | directive (name prelude : String) (start : α)
  | atRule (name prelude : String) (body : Node α) (start : α)
  | stylesheet (children : List (Node α)) (start : α)
  | foreign (item : Foreign)

namespace Node

variable {α β γ : Type}

/-- The place of a node; a foreign thing has none. -/
def start? : Node α → Option α
  | leaf _ start | call _ _ start | parens _ start | value _ start | selector _ _ start
  | declaration _ _ start | block _ start | ruleset _ _ start | directive _ _ start
  | atRule _ _ _ start | stylesheet _ start => some start
  | foreign _ => none

/-- The direct parts of a node in document order. -/
def children : Node α → List (Node α)
  | leaf _ _ | directive _ _ _ | foreign _ => []
  | call _ parts _ | parens parts _ | value parts _ | selector parts _ _ | block parts _
  | stylesheet parts _ => parts
  | declaration _ given _ => [given]
  | ruleset selectors body _ => selectors ++ [body]
  | atRule _ _ body _ => [body]

mutual

/-- The same tree with every place changed. -/
def map (f : α → β) : Node α → Node β
  | leaf content start => .leaf content (f start)
  | call name arguments start => .call name (mapAll f arguments) (f start)
  | parens parts start => .parens (mapAll f parts) (f start)
  | value parts start => .value (mapAll f parts) (f start)
  | selector components text start => .selector (mapAll f components) text (f start)
  | declaration property given start => .declaration property (map f given) (f start)
  | block parts start => .block (mapAll f parts) (f start)
  | ruleset selectors body start => .ruleset (mapAll f selectors) (map f body) (f start)
  | directive name prelude start => .directive name prelude (f start)
  | atRule name prelude body start => .atRule name prelude (map f body) (f start)
  | stylesheet parts start => .stylesheet (mapAll f parts) (f start)
  | foreign item => .foreign item

def mapAll (f : α → β) : List (Node α) → List (Node β)
  | [] => []
  | node :: rest => map f node :: mapAll f rest

end

mutual

/-- The number of nodes in a tree. -/
def size : Node α → Nat
  | leaf _ _ | directive _ _ _ | foreign _ => 1
  | call _ parts _ | parens parts _ | value parts _ | selector parts _ _ | block parts _
  | stylesheet parts _ => sizeAll parts + 1
  | declaration _ part _ | atRule _ _ part _ => size part + 1
  | ruleset selectors body _ => sizeAll selectors + size body + 1

def sizeAll : List (Node α) → Nat
  | [] => 0
  | node :: rest => size node + sizeAll rest

end

@[simp] theorem mapAll_eq_map (f : α → β) (nodes : List (Node α)) :
    mapAll f nodes = nodes.map (map f) := by
  induction nodes with
  | nil => rfl
  | cons node rest ih => simp [mapAll, ih]

mutual

/-- Two changes of places are one. -/
theorem map_map (g : β → γ) (f : α → β) (node : Node α) :
    (node.map f).map g = node.map fun place => g (f place) := by
  cases node with
  | leaf | directive | foreign => rfl
  | call _ parts | parens parts | value parts | selector parts | block parts | stylesheet parts =>
    simp only [map, mapAll_mapAll g f parts]
  | declaration _ part | atRule _ _ part => simp only [map, map_map g f part]
  | ruleset selectors body => simp only [map, mapAll_mapAll g f selectors, map_map g f body]

theorem mapAll_mapAll (g : β → γ) (f : α → β) (nodes : List (Node α)) :
    mapAll g (mapAll f nodes) = mapAll (fun place => g (f place)) nodes := by
  cases nodes with
  | nil => rfl
  | cons node rest => simp only [mapAll, map_map g f node, mapAll_mapAll g f rest]

end

theorem sizeAll_append (first second : List (Node α)) :
    sizeAll (first ++ second) = sizeAll first + sizeAll second := by
  induction first with
  | nil => simp [sizeAll]
  | cons node rest ih => simp [sizeAll, ih, Nat.add_assoc]

/-- A tree holds its root and what its parts hold. -/
theorem size_eq (node : Node α) : node.size = sizeAll node.children + 1 := by
  cases node <;> simp [size, children, sizeAll, sizeAll_append]

/-- Changing places keeps the shape. -/
theorem children_map (f : α → β) (node : Node α) :
    (node.map f).children = node.children.map (map f) := by
  cases node <;> simp [map, children]

theorem start?_map (f : α → β) (node : Node α) : (node.map f).start? = node.start?.map f := by
  cases node <;> simp [map, start?]

end Node

/-- A selector group and the block that it guards. -/
structure Ruleset (α : Type) where
  selectors : List (Node α)
  block : Node α
  start : α

/-- A property and the value that it is given. -/
structure Declaration (α : Type) where
  property : String
  value : Node α
  start : α

/-- The ruleset that a node is, if it is one. -/
def Node.ruleset? {α : Type} : Node α → Option (Ruleset α)
  | .ruleset selectors body start => some ⟨selectors, body, start⟩
  | _ => none

/-- The declaration that a node is, if it is one. -/
def Node.declaration? {α : Type} : Node α → Option (Declaration α)
  | .declaration property given start => some ⟨property, given, start⟩
  | _ => none

end SheetLint
