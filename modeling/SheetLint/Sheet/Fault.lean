import SheetLint.Selector.Reading
import SheetLint.Text.Utf8
import SheetLint.Value.Reading

/-! What can be wrong with the text of a stylesheet, and where. -/
namespace SheetLint

/-- Why a text is no stylesheet. -/
inductive Fault
  | openString
  | openInterpolation
  | strayBrace
  | openBlock
  | noSelector
  | noDeclaration (text : List Char)
  | badAtRule (text : List Char)
  | value (text : List Char) (mismatch : Mismatch Value.Terminal)
  | selector (text : List Char) (mismatch : Mismatch Selector.Terminal)
  | undecodable (path : String) (reason : Text.Utf8.Reason)
  | stated (message : String)

def Fault.message : Fault → String
  | openString => "Unterminated string"
  | openInterpolation => "Unterminated interpolation"
  | strayBrace => "Unexpected '\x7d'"
  | openBlock => "Unclosed block"
  | noSelector => "Block without a selector"
  | noDeclaration text => "Expected a declaration, got " ++ Text.quoted text
  | badAtRule text => "Invalid at-rule " ++ Text.quoted text
  | value text mismatch => "Invalid value: " ++ mismatch.message text
  | selector text mismatch => "Invalid selector: " ++ mismatch.message text
  | undecodable path reason => "Invalid UTF-8 in " ++ path ++ ": " ++ reason.message
  | stated message => message

/-- A fault at an offset. -/
structure Failure where
  fault : Fault
  offset : Nat

/-- A fault at a line and a column, as far as these are known. -/
structure ParseError where
  fault : Fault
  line : Option Int
  column : Option Int

/-- The wording of the fault, followed by its place if that is known in full. -/
def ParseError.message (error : ParseError) : String :=
  match error.line, error.column with
  | some line, some column =>
    error.fault.message ++ " (line " ++ toString line ++ ", column " ++ toString column ++ ")"
  | _, _ => error.fault.message

def ParseError.at (fault : Fault) (place : Position) : ParseError :=
  ⟨fault, some place.line, some place.column⟩

def Failure.locate (index : LineIndex) (failure : Failure) : ParseError :=
  .at failure.fault (index.locate failure.offset)

/-- The value written by a part of a text that starts at an offset. -/
def readValue (text : List Char) (offset : Nat) : Except Failure (Node Nat) :=
  match Value.read text with
  | .ok node => .ok (node.map (offset + ·))
  | .error mismatch => .error ⟨.value text mismatch, offset + mismatch.offset⟩

/-- The selectors listed by a part of a text that starts at an offset. -/
def readSelectors (text : List Char) (offset : Nat) : Except Failure (List (Node Nat)) :=
  match Selector.read text with
  | .ok nodes => .ok (nodes.map (Node.map (offset + ·)))
  | .error mismatch => .error ⟨.selector text mismatch, offset + mismatch.offset⟩

end SheetLint
