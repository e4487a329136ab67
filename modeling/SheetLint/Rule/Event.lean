import SheetLint.Rule.Context

/-! What a linting run has to tell of, step by step. -/
namespace SheetLint

inductive Event
  | linting (path : String)
  | groupSkipped (head : String)
  | parsed (statements : Nat)
  | ruleSkipped (name : String)
  | ruleStarted (name : String) (context : Context)
  | found (rule : String) (issues : Nat)
  | ruleReported (name : String) (issues : Nat)

/-- The line of the log that tells of an event. The start of a rule is not logged. -/
def Event.line? : Event → Option String
  | linting path => some ("INFO a11ylint.linter: Linting " ++ path)
  | groupSkipped head =>
    some ("DEBUG a11ylint.parser.stylesheet: Skipping nested property group "
      ++ Text.quoted head.toList)
  | parsed statements =>
    some ("DEBUG a11ylint.parser.stylesheet: Parsed stylesheet with " ++ toString statements
      ++ " top-level statements")
  | ruleSkipped name => some ("DEBUG a11ylint.linter: Skipping disabled rule " ++ name)
  | ruleStarted _ _ => none
  | found rule issues =>
    some ("DEBUG a11ylint.rules.accessibility: " ++ rule ++ " found " ++ toString issues
      ++ " issue(s)")
  | ruleReported name issues =>
    some ("DEBUG a11ylint.linter: Rule " ++ name ++ " reported " ++ toString issues ++ " issue(s)")

end SheetLint
