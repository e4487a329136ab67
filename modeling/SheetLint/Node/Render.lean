import SheetLint.Node.Basic
import SheetLint.Text.Blank

/-! Nodes written out as text: single spaces between the parts of a value, and none before a comma. -/
namespace SheetLint

/-- The text of a node without parts. -/
def Leaf.render : Leaf → String
  | number text => text
  | dimension amount unit => amount ++ unit
  | percentage amount => amount ++ "%"
  | color hex => "#" ++ hex
  | ident name => name
  | quoted raw => raw
  | reference name => "$" ++ name
  | url raw => raw
  | operator symbol => symbol
  | simple _ text => text
  | pseudo name argument isElement =>
    (if isElement then "::" else ":") ++ name ++
      match argument with
      | some argument => "(" ++ argument ++ ")"
      | none => ""

namespace Node

variable {α : Type}

def isComma : Node α → Bool
  | leaf (.operator symbol) _ => symbol == ","
  | _ => false

/-- The texts of parts, each with the part itself, put together. A comma takes no space before it, nor
does a part that nothing has been written before. -/
def join : List (Node α × String) → String :=
  List.foldl (fun written (part, text) =>
    if part.isComma then written ++ ","
    else if written.isEmpty then text
    else written ++ " " ++ text) ""

/-- The words that open an at-rule. -/
def atHead (name prelude : String) : String :=
  String.ofList (Text.trimEnd ("@" ++ name ++ " " ++ prelude).toList)

mutual

/-- The text of a node. A foreign thing has none, and the first one in document order is reported. -/
def render : Node α → Except Foreign String
  | leaf content _ => .ok content.render
  | call name arguments _ => do
    let texts ← renderAll arguments
    return name ++ "(" ++ join (arguments.zip texts) ++ ")"
  | parens parts _ => do
    let texts ← renderAll parts
    return "(" ++ join (parts.zip texts) ++ ")"
  | value parts _ => do
    let texts ← renderAll parts
    return join (parts.zip texts)
  | selector components text _ =>
    if text.isEmpty then do
      let texts ← renderAll components
      return String.join texts
    else .ok text
  | declaration property given _ => do
    let text ← render given
    return property ++ ": " ++ text ++ ";"
  | block parts _ => do
    let texts ← renderAll parts
    return "\x7b " ++ " ".intercalate texts ++ " \x7d"
  | ruleset selectors body _ => do
    let texts ← renderAll selectors
    let text ← render body
    return ", ".intercalate texts ++ " " ++ text
  | directive name prelude _ => .ok (atHead name prelude ++ ";")
  | atRule name prelude body _ => do
    let text ← render body
    return atHead name prelude ++ " " ++ text
  | stylesheet parts _ => do
    let texts ← renderAll parts
    return "\n".intercalate texts
  | foreign item => .error item

def renderAll : List (Node α) → Except Foreign (List String)
  | [] => .ok []
  | node :: rest => do
    let text ← render node
    let texts ← renderAll rest
    return text :: texts

end

theorem renderAll_eq_mapM (nodes : List (Node α)) : renderAll nodes = nodes.mapM render := by
  induction nodes with
  | nil => rfl
  | cons node rest ih => simp only [renderAll, List.mapM_cons, ih]

end Node
end SheetLint
