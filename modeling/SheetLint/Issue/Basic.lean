import SheetLint.Datum.Basic
import SheetLint.Position

/-! Issues: what a rule has found, and how serious it is. -/
namespace SheetLint

inductive Severity
  | warning
  | error
  deriving DecidableEq, Repr

namespace Severity

def name : Severity → String
  | warning => "WARNING"
  | error => "ERROR"

/-- Level one is a warning and level two an error. -/
def ofLevel? (level : Datum) : Option Severity :=
  if level.isNat 1 then some warning
  else if level.isNat 2 then some error
  else none

def levelMessage (level : Datum) : String :=
  "Severity level must be 1 or 2, got " ++ level.written

end Severity

/-- One finding about a stylesheet. Two findings are the same when all of this is. -/
structure Issue where
  ruleId : String
  severity : Severity
  line : Int
  column : Int
  message : String
  deriving DecidableEq, Repr

namespace Issue

def isError (issue : Issue) : Bool := issue.severity == .error

def isWarning (issue : Issue) : Bool := issue.severity == .warning

/-- An issue on one line, its place first. -/
def text (issue : Issue) : String :=
  toString issue.line ++ ":" ++ toString issue.column ++ ": " ++ issue.severity.name ++ " ["
    ++ issue.ruleId ++ "] " ++ issue.message

end Issue
end SheetLint
