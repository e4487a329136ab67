import SheetLint.Issue.Collector
import SheetLint.Table

/-! The circumstances in which a rule runs. -/
namespace SheetLint

/-- The name and severity that a rule puts on its issues, and the options that it is given. -/
structure Context where
  ruleId : String
  severity : Severity := .warning
  options : Table Datum := .empty

/-- An issue of the rule at a place. -/
def Context.issue (context : Context) (place : Position) (message : String) : Issue :=
  ⟨context.ruleId, context.severity, place.line, place.column, message⟩

end SheetLint
