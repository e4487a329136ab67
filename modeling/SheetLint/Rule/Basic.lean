import SheetLint.Check.Ruleset
import SheetLint.Rule.Event
import SheetLint.Traced

/-! Rules, and the one rule that is built in. -/
namespace SheetLint

/-- A rule under its name. `maker` names what implements it, for messages. -/
structure Rule where
  name : String
  maker : String
  defaults : Table Datum
  detect : Node Position → Context → Traced Event Check.Fault (List Issue)

/-- Finds styling that gets in the way of assistive technology. -/
def accessibilityIssues : Rule where
  name := "accessibility-issues"
  maker := "AccessibilityIssuesRule"
  defaults := .ofList [("per-property", .object []), ("global", .list [])]
  detect tree context := do
    let found ← .ofExcept (Check.sheet tree context)
    .note (.found "accessibility-issues" found.size)
    return found.issues

/-- A thing that may be a rule: it is one when it has a name, defaults and a detection. -/
structure Candidate where
  maker : String
  name? : Option String := none
  defaults? : Option (Table Datum) := none
  detect? : Option (Node Position → Context → Traced Event Check.Fault (List Issue)) := none

def Candidate.rule? (candidate : Candidate) : Option Rule :=
  match candidate.name?, candidate.defaults?, candidate.detect? with
  | some name, some defaults, some detect => some ⟨name, candidate.maker, defaults, detect⟩
  | _, _, _ => none

def Candidate.ofRule (rule : Rule) : Candidate :=
  ⟨rule.maker, some rule.name, some rule.defaults, some rule.detect⟩

end SheetLint
