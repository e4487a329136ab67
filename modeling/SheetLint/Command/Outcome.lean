import SheetLint.Command.Arguments
import SheetLint.Command.Path
import SheetLint.Command.Plain
import SheetLint.Datum.Json
import SheetLint.Lint.Run

/-! What a run of the command line prints, and the code that it ends with. -/
namespace SheetLint.Command

/-- The lines printed and the exit code. Code two stands for arguments that make no sense. A fault is
what has cut a run short without a word printed about it. -/
structure Outcome where
  code : Nat
  output : List String := []
  errors : List String := []
  fault : Option LintFault := none

def usageCode : Nat := 2

def versionLine : String := "a11ylint, version 0.1.0"

/-- What has been printed and counted over the files so far. -/
structure Tally where
  output : List String := []
  errorLines : List String := []
  failed : Bool := false
  errors : Nat := 0
  warnings : Nat := 0

/-- How the look at one file ends: with the next file, or with the whole run. -/
inductive Verdict
  | proceed (tally : Tally)
  | stop (tally : Tally) (fault : Option LintFault)

/-- The rules at the severity asked for, those left out disabled. -/
def inspectionConfig (registry : Registry) (inspection : Inspection) : Config :=
  let level : Datum := match inspection.severity with
    | .warning => .int 1
    | .error => .int 2
  inspection.disabled.foldl (fun config name => config.withRule name (.int 0))
    (.uniform registry.names level)

/-- Adds what a run over a file has to tell, the log as it is and all else without control sequences.
A file that does not parse stands in no other's way, but a configuration that is wrong, or a fault in a
rule, ends everything. -/
def tellRun (verbose : Bool) (shown : String) (run : Traced Event LintFault (List Issue))
    (tally : Tally) : Verdict :=
  let log := if verbose then run.trace.filterMap Event.line? else []
  match run.result with
  | .ok issues =>
    .proceed { tally with
      output := tally.output ++ issues.map fun issue => unstyled (shown ++ ":" ++ issue.text)
      errorLines := tally.errorLines ++ log
      errors := tally.errors + (issues.filter Issue.isError).length
      warnings := tally.warnings + (issues.filter Issue.isWarning).length }
  | .error (.parse fault) =>
    .proceed { tally with
      errorLines := tally.errorLines ++ log
        ++ [unstyled (shown ++ ": Parse error: " ++ fault.message)]
      failed := true }
  | .error (.config fault) =>
    let line := unstyled ("Config error: " ++ fault.message)
    .stop { tally with errorLines := tally.errorLines ++ log ++ [line] } none
  | .error fault => .stop { tally with errorLines := tally.errorLines ++ log } (some fault)

/-- The outcome once all files have been looked at. -/
def summary (count : Nat) (tally : Tally) : Outcome where
  code := if tally.failed || tally.errors != 0 then 1 else 0
  output := tally.output ++ ["", "Summary: " ++ toString tally.errors ++ " error(s), "
    ++ toString tally.warnings ++ " warning(s) in " ++ toString count ++ " file(s)"]
  errors := tally.errorLines

/-- Looks at files in turn, each with its contents. -/
def inspectFiles (verbose : Bool) (registry : Registry) (config : Config) (count : Nat)
    (tally : Tally) : List (String × List UInt8) → Outcome
  | [] => summary count tally
  | (path, bytes) :: rest =>
    let shown := shownPath path
    match tellRun verbose shown (Lint.file registry (some config) shown bytes) tally with
    | .proceed tally => inspectFiles verbose registry config count tally rest
    | .stop tally fault => ⟨1, tally.output, tally.errorLines, fault⟩

/-- A rule and its defaults on one line, the defaults sorted by name. -/
def ruleLine (rule : Rule) : String :=
  let entries := sortNames rule.defaults.names |>.filterMap fun name =>
    (rule.defaults.get? name).map fun value => (name, value)
  rule.name ++ "  " ++ (Datum.object entries).json

/-- Runs the command line. `contents` gives the bytes of a file that is there. -/
def run (contents : String → Option (List UInt8)) (arguments : List String) : Outcome :=
  match Invocation.ofArguments arguments with
  | none => { code := usageCode }
  | some ⟨_, .version⟩ => { code := 0, output := [versionLine] }
  | some ⟨_, .help⟩ => { code := 0 }
  | some ⟨_, .rules⟩ =>
    let rules := sortNames Registry.builtin.names |>.filterMap Registry.builtin.get?
    { code := 0, output := rules.map ruleLine }
  | some ⟨verbose, .inspect inspection⟩ =>
    match inspection.files.mapM fun path => (contents path).map fun bytes => (path, bytes) with
    | none => { code := usageCode }
    | some files =>
      inspectFiles verbose .builtin (inspectionConfig .builtin inspection) files.length {} files

end SheetLint.Command
