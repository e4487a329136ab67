import SheetLint.Command.Outcome
import SheetLint.Proofs.Override
import SheetLint.Proofs.Registered
import SheetLint.Proofs.Request

/-! Inspections of files. Each file adds what it has to tell, in the order of the arguments and whatever the
others have told. A file that does not parse is passed over with a message; a rule that is to be left out and
is not there ends the inspection at the first file that parses. -/
namespace SheetLint.Command

variable {registry : Registry} {config : Config} {inspection : Inspection}

/-! ### The configuration of an inspection -/

/-- The level at which the rules are run. -/
def levelOf : Severity → Datum
  | .warning => .int 1
  | .error => .int 2

theorem foldl_withRule (config : Config) (disabled : List String) (level : Datum) :
    disabled.foldl (fun config name => config.withRule name level) config =
      { config with rules := config.rules.puts (disabled.map fun name => (name, level)) } := by
  induction disabled generalizing config with
  | nil => rfl
  | cons name rest ih => exact ih (config.withRule name level)

theorem inspectionConfig_eq (registry : Registry) (inspection : Inspection) :
    inspectionConfig registry inspection =
      { rules := Table.empty.puts ((registry.names.map fun name => (name, levelOf inspection.severity)) ++
          inspection.disabled.map fun name => (name, .int 0)) } := by
  obtain ⟨files, severity, disabled⟩ := inspection
  rw [Table.puts, List.foldl_append]
  cases severity <;> exact foldl_withRule ..

theorem isNat_levelOf (severity : Severity) :
    (levelOf severity).isNat 0 ∨ (levelOf severity).isNat 1 ∨ (levelOf severity).isNat 2 := by
  cases severity <;> decide

theorem isLevel_inspectionConfig {entry : String × Datum}
    (member : entry ∈ (inspectionConfig registry inspection).rules.entries) :
    entry.2.isNat 0 ∨ entry.2.isNat 1 ∨ entry.2.isNat 2 := by
  rw [inspectionConfig_eq] at member
  rcases Table.mem_puts member with put | none
  · rcases List.mem_append.mp put with leveled | disabled
    · obtain ⟨_, _, rfl⟩ := List.mem_map.mp leveled
      exact isNat_levelOf inspection.severity
    · obtain ⟨_, _, rfl⟩ := List.mem_map.mp disabled
      exact .inl rfl
  · cases none

theorem find?_inspectionConfig (registry : Registry) (inspection : Inspection) :
    (inspectionConfig registry inspection).rules.names.find? (· ∉ registry.names) =
      inspection.disabled.find? (· ∉ registry.names) := by
  -- The rules of the registry come first in the table, and nothing is wrong with their names.
  have registered : registry.names.find? (· ∉ registry.names) = none :=
    List.find?_eq_none.mpr fun name member => by simpa using member
  rw [inspectionConfig_eq, Table.find?_names_puts, List.map_append, List.map_map, List.map_map,
    List.find?_append]
  simp only [Function.comp_def, List.map_id', registered]
  rfl

theorem findSome?_leveled {known : List String} {levels : List (String × Datum)}
    (leveled : ∀ entry ∈ levels, entry.2.isNat 0 ∨ entry.2.isNat 1 ∨ entry.2.isNat 2) :
    (levels.findSome? fun entry => (Config.Entry.level entry.1 entry.2).fault? known) =
      ((levels.map Prod.fst).find? (· ∉ known)).map fun name =>
        .unknownRule name (sortNames known.eraseDups) := by
  induction levels with
  | nil => rfl
  | cons entry rest ih =>
    obtain ⟨name, level⟩ := entry
    obtain ⟨here, later⟩ := List.forall_mem_cons.mp leveled
    rw [List.findSome?_cons, ih later, List.map_cons, List.find?_cons, Config.Entry.fault?]
    by_cases registered : name ∈ known
    · simp only [registered, not_true_eq_false, ↓reduceIte, here, decide_false]
    · simp only [registered, not_false_eq_true, ↓reduceIte, decide_true, Option.map_some]

/-- An inspection is turned away for the first rule that is to be left out and is not there, if there is
one, and for nothing else. -/
theorem fault?_check_inspectionConfig (registry : Registry) (inspection : Inspection) :
    SheetLint.Outcome.fault? ((inspectionConfig registry inspection).check registry.names) =
      (inspection.disabled.find? (· ∉ registry.names)).map fun name =>
        .unknownRule name (sortNames registry.names.eraseDups) := by
  have options : (inspectionConfig registry inspection).options.names = [] := by
    rw [inspectionConfig_eq]
    rfl
  rw [Config.fault?_check, Config.entries, options, List.map_nil, List.append_nil, List.findSome?_map]
  change List.findSome? (fun entry => _) _ = _
  rw [← find?_inspectionConfig]
  exact findSome?_leveled fun entry => isLevel_inspectionConfig

/-! ### One file -/

/-- The run over a file, which is told by its path and the bytes in it. -/
def lintOf (registry : Registry) (config : Config) (file : String × List UInt8) :
    Traced Event LintFault (List Issue) :=
  Lint.file registry (some config) (shownPath file.1) file.2

/-- A file holds a stylesheet. -/
def Parses (file : String × List UInt8) : Prop := ∃ tree, parseFile (shownPath file.1) file.2 = .ok tree

/-- A run comes to a result, or is turned away for its text or for its configuration. -/
def Settles (run : Traced Event LintFault (List Issue)) : Prop :=
  (∃ issues, run.result = .ok issues) ∨ (∃ error, run.result = .error (.parse error)) ∨
    ∃ fault, run.result = .error (.config fault)

variable {file : String × List UInt8}

theorem result_file (registry : Registry) (config? : Option Config) (path : String)
    (bytes : List UInt8) :
    (Lint.file registry config? path bytes).result =
      (parseFile path bytes).mapError LintFault.parse >>= fun tree =>
        (Lint.tree registry config? tree).result := by
  unfold Lint.file Lint.parsing parseFile
  simp only [Traced.result_bind, Traced.result_note, Traced.result_mapError, Traced.result_mapTrace]
  cases (parseFileTraced path bytes).result <;> rfl

/-- A file that does not parse is turned away with its error, whatever the configuration. -/
theorem result_lintOf_of_error {error : ParseError}
    (failed : parseFile (shownPath file.1) file.2 = .error error) :
    (lintOf registry config file).result = .error (.parse error) := by
  rw [lintOf, result_file, failed]
  rfl

theorem not_parses_iff : ¬Parses file ↔ ∃ error, parseFile (shownPath file.1) file.2 = .error error := by
  unfold Parses
  cases parseFile (shownPath file.1) file.2 <;> simp

section

variable (filled : registry.rules ≠ [])

include filled

/-- A file that parses is turned away for a configuration that is wrong. -/
theorem result_lintOf_of_fault {fault : ConfigFault} (parses : Parses file)
    (invalid : config.check registry.names = .error fault) :
    (lintOf registry config file).result = .error (.config fault) := by
  obtain ⟨tree, parsed⟩ := parses
  have invalid' : (registry.configuration (some config)).check registry.names = .error fault := invalid
  rw [lintOf, result_file, parsed]
  change (Lint.tree registry (some config) tree).result = _
  rw [Lint.tree_of_fault filled invalid']

/-- A file that parses is linted where the configuration is right. -/
theorem result_lintOf_of_valid (settles : Settles (lintOf registry config file)) (parses : Parses file)
    (valid : config.check registry.names = .ok ()) :
    ∃ issues, (lintOf registry config file).result = .ok issues := by
  obtain ⟨tree, parsed⟩ := parses
  have valid' : (registry.configuration (some config)).check registry.names = .ok () := valid
  have linted : (lintOf registry config file).result =
      ((registry.rules.mapM (Lint.outcome tree config)).mapError LintFault.check).map fun found =>
        (Collector.empty.extend found.flatten).issues := by
    rw [lintOf, result_file, parsed]
    change (Lint.tree registry (some config) tree).result = _
    rw [Lint.tree_of_valid filled valid', Traced.result_map]
    change Collector.issues <$> (Lint.runRules tree config .empty registry.rules).result = _
    rw [Lint.result_runRules valid]
    cases registry.rules.mapM (Lint.outcome tree config) <;> rfl
  rw [Settles, linted] at settles
  rw [linted]
  cases succeeded : registry.rules.mapM (Lint.outcome tree config) with
  | ok found => exact ⟨_, rfl⟩
  | error fault =>
    rw [succeeded] at settles
    rcases settles with ⟨_, same⟩ | ⟨_, same⟩ | ⟨_, same⟩ <;> cases same

end

/-! ### What a file adds -/

/-- The issues that are reported of a file, each with the path. -/
def reported (registry : Registry) (config : Config) (file : String × List UInt8) :
    List (String × Issue) :=
  ((lintOf registry config file).result.toOption.getD []).map fun issue => (shownPath file.1, issue)

/-- The line for an issue. -/
def issueLine (entry : String × Issue) : String := unstyled (entry.1 ++ ":" ++ entry.2.text)

/-- The message about a file that does not parse. -/
def complaint? (file : String × List UInt8) : Option String :=
  match parseFile (shownPath file.1) file.2 with
  | .ok _ => none
  | .error error => some (unstyled (shownPath file.1 ++ ": Parse error: " ++ error.message))

theorem complaint?_of_ok {tree : Node Position} (parsed : parseFile (shownPath file.1) file.2 = .ok tree) :
    complaint? file = none := by
  rw [complaint?, parsed]

theorem complaint?_of_error {error : ParseError}
    (failed : parseFile (shownPath file.1) file.2 = .error error) :
    complaint? file = some (unstyled (shownPath file.1 ++ ": Parse error: " ++ error.message)) := by
  rw [complaint?, failed]

theorem complaint?_isSome_iff : (complaint? file).isSome ↔ ¬Parses file := by
  rw [not_parses_iff, complaint?]
  cases parseFile (shownPath file.1) file.2 <;> simp

/-- The log of the run over a file, if it is asked for. -/
def logOf (verbose : Bool) (registry : Registry) (config : Config) (file : String × List UInt8) :
    List String :=
  if verbose then (lintOf registry config file).trace.filterMap Event.line? else []

/-- What is told of a file beside its issues. -/
def told (verbose : Bool) (registry : Registry) (config : Config) (file : String × List UInt8) :
    List String :=
  logOf verbose registry config file ++ (complaint? file).toList

/-- What some files add to a tally. -/
def tallyOf (verbose : Bool) (registry : Registry) (config : Config)
    (files : List (String × List UInt8)) : Tally where
  output := (files.flatMap (reported registry config)).map issueLine
  errorLines := files.flatMap (told verbose registry config)
  failed := files.any fun file => (complaint? file).isSome
  errors := (files.flatMap (reported registry config)).countP fun entry => entry.2.isError
  warnings := (files.flatMap (reported registry config)).countP fun entry => entry.2.isWarning

/-- A tally with another one after it. -/
def Tally.append (tally later : Tally) : Tally where
  output := tally.output ++ later.output
  errorLines := tally.errorLines ++ later.errorLines
  failed := tally.failed || later.failed
  errors := tally.errors + later.errors
  warnings := tally.warnings + later.warnings

theorem Tally.append_assoc (first second third : Tally) :
    (first.append second).append third = first.append (second.append third) := by
  simp only [append, List.append_assoc, Bool.or_assoc, Nat.add_assoc]

theorem tallyOf_cons (verbose : Bool) (registry : Registry) (config : Config)
    (file : String × List UInt8) (rest : List (String × List UInt8)) :
    tallyOf verbose registry config (file :: rest) =
      (tallyOf verbose registry config [file]).append (tallyOf verbose registry config rest) := by
  simp [tallyOf, Tally.append]

theorem Tally.append_tallyOf_nil (tally : Tally) (verbose : Bool) (registry : Registry) (config : Config) :
    tally.append (tallyOf verbose registry config []) = tally := by
  simp [tallyOf, append]

/-- The look at a file goes on to the next one. -/
def Proceeds (registry : Registry) (config : Config) (file : String × List UInt8) : Prop :=
  ¬Parses file ∨ ∃ issues, (lintOf registry config file).result = .ok issues

theorem tellRun_of_proceeds (proceeds : Proceeds registry config file) (verbose : Bool) (tally : Tally) :
    tellRun verbose (shownPath file.1) (lintOf registry config file) tally =
      .proceed (tally.append (tallyOf verbose registry config [file])) := by
  rcases proceeds with unparsable | ⟨issues, linted⟩
  · obtain ⟨error, failed⟩ := not_parses_iff.mp unparsable
    have refused : (lintOf registry config file).result = .error (.parse error) :=
      result_lintOf_of_error failed
    have silent : reported registry config file = [] := by
      rw [reported, refused]
      rfl
    rw [tellRun, refused]
    simp [Tally.append, tallyOf, told, logOf, complaint?_of_error failed, silent]
  · have parses : Parses file := by
      by_contra unparsable
      obtain ⟨error, failed⟩ := not_parses_iff.mp unparsable
      cases linted.symm.trans (result_lintOf_of_error failed)
    obtain ⟨tree, parsed⟩ := parses
    have found : reported registry config file = issues.map fun issue => (shownPath file.1, issue) := by
      rw [reported, linted]
      rfl
    rw [tellRun, linted]
    simp [Tally.append, tallyOf, told, logOf, complaint?_of_ok parsed, found, issueLine, Function.comp_def,
      ← List.countP_eq_length_filter, List.countP_map]

theorem tellRun_of_fault {fault : ConfigFault}
    (refused : (lintOf registry config file).result = .error (.config fault)) (verbose : Bool)
    (tally : Tally) :
    tellRun verbose (shownPath file.1) (lintOf registry config file) tally =
      .stop { tally with errorLines := tally.errorLines ++ logOf verbose registry config file ++
        [unstyled ("Config error: " ++ fault.message)] } none := by
  rw [tellRun, refused]
  rfl

/-! ### All files -/

theorem inspectFiles_of_proceed {verbose : Bool} {tally later : Tally}
    (told : tellRun verbose (shownPath file.1) (lintOf registry config file) tally = .proceed later)
    (count : Nat) (rest : List (String × List UInt8)) :
    inspectFiles verbose registry config count tally (file :: rest) =
      inspectFiles verbose registry config count later rest := by
  obtain ⟨path, bytes⟩ := file
  rw [lintOf] at told
  simp only [inspectFiles, told]

theorem inspectFiles_of_stop {verbose : Bool} {tally last : Tally} {fault : Option LintFault}
    (told : tellRun verbose (shownPath file.1) (lintOf registry config file) tally = .stop last fault)
    (count : Nat) (rest : List (String × List UInt8)) :
    inspectFiles verbose registry config count tally (file :: rest) =
      ⟨1, last.output, last.errorLines, fault⟩ := by
  obtain ⟨path, bytes⟩ := file
  rw [lintOf] at told
  simp only [inspectFiles, told]

/-- Files that the look goes on from add what they have to tell. -/
theorem inspectFiles_append {ahead : List (String × List UInt8)}
    (proceed : ∀ file ∈ ahead, Proceeds registry config file) (rest : List (String × List UInt8))
    (verbose : Bool) (count : Nat) (tally : Tally) :
    inspectFiles verbose registry config count tally (ahead ++ rest) =
      inspectFiles verbose registry config count (tally.append (tallyOf verbose registry config ahead))
        rest := by
  induction ahead generalizing tally with
  | nil => rw [tally.append_tallyOf_nil]; rfl
  | cons file later ih =>
    obtain ⟨here, others⟩ := List.forall_mem_cons.mp proceed
    rw [List.cons_append, inspectFiles_of_proceed (tellRun_of_proceeds here verbose tally), ih others,
      tallyOf_cons verbose registry config file later, Tally.append_assoc]

theorem Tally.nil_append (tally : Tally) : ({} : Tally).append tally = tally := by
  simp [append]

variable {files : List (String × List UInt8)} {verbose : Bool} {count : Nat}

/-- An inspection that is not cut short comes to the summary of what the files add. -/
theorem inspectFiles_eq (proceed : ∀ file ∈ files, Proceeds registry config file) :
    inspectFiles verbose registry config count {} files =
      summary count (tallyOf verbose registry config files) := by
  have all := inspectFiles_append proceed [] verbose count {}
  rwa [List.append_nil, Tally.nil_append] at all

/-- An inspection is cut short by a file at which the configuration is found wrong. -/
theorem inspectFiles_stop {ahead behind : List (String × List UInt8)}
    (proceed : ∀ other ∈ ahead, Proceeds registry config other) {fault : ConfigFault}
    (refused : (lintOf registry config file).result = .error (.config fault)) :
    inspectFiles verbose registry config count {} (ahead ++ file :: behind) =
      { code := 1
        output := (tallyOf verbose registry config ahead).output
        errors := (tallyOf verbose registry config ahead).errorLines ++
          logOf verbose registry config file ++ [unstyled ("Config error: " ++ fault.message)] } := by
  rw [inspectFiles_append proceed, Tally.nil_append,
    inspectFiles_of_stop (tellRun_of_fault refused verbose _)]

/-- Nothing is reported of a file that does not parse. -/
theorem reported_of_not_parses (unparsable : ¬Parses file) : reported registry config file = [] := by
  obtain ⟨error, failed⟩ := not_parses_iff.mp unparsable
  rw [reported, result_lintOf_of_error failed]
  rfl

theorem flatMap_reported_of_not_parses (unparsable : ∀ file ∈ files, ¬Parses file) :
    files.flatMap (reported registry config) = [] :=
  List.flatMap_eq_nil_iff.mpr fun file member => reported_of_not_parses (unparsable file member)

end SheetLint.Command
