import SheetLint.Lint.Config
import SheetLint.Sheet.Parsing

/-! Runs of the enabled rules over a stylesheet. -/
namespace SheetLint

/-- Why a run has no result. -/
inductive LintFault
  | parse (error : ParseError)
  | config (fault : ConfigFault)
  | level (level : Datum)
  | check (fault : Check.Fault)
  /-- The run has a result, and there are errors in it. -/
  | errors (issues : List Issue)

/-- The message of a run with errors in its result. -/
def errorsMessage (issues : List Issue) : String :=
  let messages := (issues.filter Issue.isError).map Issue.text
  "Lint failed with " ++ toString messages.length ++ " error(s): " ++ "; ".intercalate messages

namespace Lint

/-- Runs one rule, unless it is disabled. -/
def runRule (tree : Node Position) (config : Config) (collector : Collector) (rule : Rule) :
    Traced Event LintFault Collector :=
  let level := config.level rule.name
  if level.isNat 0 then do
    .note (.ruleSkipped rule.name)
    return collector
  else match Severity.ofLevel? level with
    | none => .fail (.level level)
    | some severity => do
      let context : Context := ⟨rule.name, severity, config.optionsOf rule⟩
      .note (.ruleStarted rule.name context)
      let found ← (rule.detect tree context).mapError LintFault.check
      .note (.ruleReported rule.name found.length)
      return collector.extend found

def runRules (tree : Node Position) (config : Config) (collector : Collector) :
    List Rule → Traced Event LintFault Collector
  | [] => pure collector
  | rule :: rest => do
    let collector ← runRule tree config collector rule
    runRules tree config collector rest

/-- The issues that the enabled rules find, in the order of the rules. Without a configuration every
rule is enabled and warns. -/
def tree (registry : Registry) (config? : Option Config) (tree : Node Position) :
    Traced Event LintFault (List Issue) := do
  let registry := registry.orBuiltin
  let config := config?.getD (.uniform registry.names (.int 1))
  .ofExcept ((config.check registry.names).mapError LintFault.config)
  let found ← runRules tree config .empty registry.rules
  return found.issues

/-- The tree that a traced parse ends in, with the events on the way. -/
def parsing (parsed : Traced String ParseError (Node Position)) :
    Traced Event LintFault (Node Position) := do
  let tree ← (parsed.mapTrace Event.groupSkipped).mapError LintFault.parse
  .note (.parsed tree.children.length)
  return tree

/-- The issues of a source. -/
def source (registry : Registry) (config? : Option Config) (source : String) :
    Traced Event LintFault (List Issue) := do
  let parsed ← parsing (parseTraced source)
  tree registry config? parsed

/-- The issues of a file. -/
def file (registry : Registry) (config? : Option Config) (path : String) (bytes : List UInt8) :
    Traced Event LintFault (List Issue) := do
  .note (.linting path)
  let parsed ← parsing (parseFileTraced path bytes)
  tree registry config? parsed

/-- A result with errors in it becomes a failure. -/
def orFail (run : Traced Event LintFault (List Issue)) : Traced Event LintFault (List Issue) := do
  let issues ← run
  if issues.any Issue.isError then .fail (.errors issues) else return issues

end Lint
end SheetLint
