import SheetLint.Issue.Basic

/-! The arguments of the command line, and what they ask for. -/
namespace SheetLint.Command

/-- Files to look at, the severity of what is found, and the rules to leave out. -/
structure Inspection where
  files : List String
  severity : Severity := .warning
  disabled : List String := []
  deriving DecidableEq, Repr

inductive Task
  | version
  | help
  | rules
  | inspect (inspection : Inspection)
  deriving DecidableEq, Repr

structure Invocation where
  verbose : Bool
  task : Task
  deriving DecidableEq, Repr

/-- A long option with the value written after its first equals sign, if it has one. -/
def splitOption (argument : String) : String × Option String :=
  let name := argument.toList.takeWhile (· != '=')
  let after := argument.toList.drop name.length
  (String.ofList name, if after.isEmpty then none else some (String.ofList (after.drop 1)))

/-- More than a single dash, and a dash first. -/
def isOption (argument : String) : Bool :=
  argument.toList.head? == some '-' && argument.length > 1

/-- The arguments of an inspection so far, the latest first. The severity is judged at the end. -/
structure InspectionDraft where
  files : List String := []
  severity : String := "warning"
  disabled : List String := []
  help : Bool := false

def takesValue (name : String) : Bool := name == "--severity" || name == "--disable"

/-- A draft with the value of one more option: the last severity stands, and all rules are disabled. -/
def InspectionDraft.set (draft : InspectionDraft) (name value : String) : InspectionDraft :=
  if name = "--severity" then { draft with severity := value }
  else { draft with disabled := value :: draft.disabled }

/-- Reads the arguments of an inspection. Options and files may come in any order, up to a double dash;
a value may be any argument, also one that looks like an option. -/
def inspectionDraft (draft : InspectionDraft) : List String → Option InspectionDraft
  | [] => some draft
  | argument :: rest =>
    if argument = "--" then some { draft with files := rest.reverse ++ draft.files }
    else if !isOption argument then
      inspectionDraft { draft with files := argument :: draft.files } rest
    else match splitOption argument with
      | (name, some value) =>
        if takesValue name then inspectionDraft (draft.set name value) rest else none
      | (name, none) =>
        if takesValue name then
          match rest with
          | [] => none
          | value :: later => inspectionDraft (draft.set name value) later
        else if name = "--help" then inspectionDraft { draft with help := true } rest
        else none

def severityOf? (name : String) : Option Severity :=
  if name = "warning" then some .warning
  else if name = "error" then some .error
  else none

def inspection? (arguments : List String) : Option Task := do
  let draft ← inspectionDraft {} arguments
  if draft.help then return .help
  let severity ← severityOf? draft.severity
  if draft.files.isEmpty then none
  return .inspect ⟨draft.files.reverse, severity, draft.disabled.reverse⟩

/-- The list of rules takes no arguments of its own. -/
def listing? (arguments : List String) : Option Task :=
  let options := (arguments.takeWhile (· != "--")).filter isOption
  if options.any (· != "--help") then none
  else if !options.isEmpty then some .help
  else if arguments.all (· == "--") && arguments.length ≤ 1 then some .rules
  else none

/-- What is asked for ahead of the subcommand. The first of help and version is answered. -/
structure Lead where
  verbose : Bool := false
  shown : Option Task := none
  rest : List String := []

/-- Single-letter options in one argument; only the one for more output is known. -/
def isVerboseLetters (argument : String) : Bool :=
  match argument.toList with
  | '-' :: 'v' :: letters => letters.all (· == 'v')
  | _ => false

/-- Reads the options ahead of the subcommand. -/
def leadOf (lead : Lead) : List String → Option Lead
  | [] => some lead
  | argument :: rest =>
    if argument = "--" then some { lead with rest }
    else if !isOption argument then some { lead with rest := argument :: rest }
    else if argument = "--verbose" || isVerboseLetters argument then
      leadOf { lead with verbose := true } rest
    else if argument = "--version" then
      leadOf { lead with shown := lead.shown.or (some .version) } rest
    else if argument = "--help" then leadOf { lead with shown := lead.shown.or (some .help) } rest
    else none

/-- What the arguments ask for, none if they cannot be understood. Where no subcommand is named, what
stands in its place is read once more as options, also after a double dash. -/
def Invocation.ofArguments (arguments : List String) : Option Invocation := do
  let lead ← leadOf {} arguments
  match lead.shown, lead.rest with
  | some task, _ => return ⟨lead.verbose, task⟩
  | none, "lint" :: rest => return ⟨lead.verbose, ← inspection? rest⟩
  | none, "rules" :: rest => return ⟨lead.verbose, ← listing? rest⟩
  | none, rest =>
    let again ← leadOf {} rest
    let task ← again.shown
    return ⟨lead.verbose || again.verbose, task⟩

end SheetLint.Command
