import SheetLint.Proofs.Gathering
import SheetLint.Proofs.Inspection
import SheetLint.Proofs.Levels

/-! What the command line answers to a request for an inspection: the lines that are printed, the messages, and
the code that the run ends with. -/
namespace SheetLint.Command

variable {registry : Registry} {config : Config} {inspection : Inspection} {file : String × List UInt8}
  {files : List (String × List UInt8)} {verbose : Bool} {count : Nat}

/-- The last line of an inspection. -/
def summaryLine (errors warnings files : Nat) : String :=
  "Summary: " ++ toString errors ++ " error(s), " ++ toString warnings ++ " warning(s) in "
    ++ toString files ++ " file(s)"

/-- What an inspection comes to where all names that are to be left out are those of rules. A line for each
issue, file by file, is followed by the summary of them; a message is told for each file that does not parse. -/
structure Outcome.Lists (outcome : Outcome) (verbose : Bool) (registry : Registry) (config : Config)
    (files : List (String × List UInt8)) : Prop where
  linted : ∀ file ∈ files, Parses file → ∃ issues, (lintOf registry config file).result = .ok issues ∧
    reported registry config file = issues.map fun issue => (shownPath file.1, issue)
  silent : ∀ file ∈ files, ¬Parses file → reported registry config file = []
  output : let entries := files.flatMap (reported registry config)
    outcome.output = entries.map issueLine ++ ["", summaryLine (entries.countP fun entry => entry.2.isError)
      (entries.countP fun entry => entry.2.isWarning) files.length]
  errors : outcome.errors = files.flatMap (told verbose registry config)

/-- What an inspection comes to where a name that is to be left out is that of no rule. It ends at the first
file that parses with a message about the configuration, and nothing else is printed; where no file parses
there is a summary of nothing. -/
structure Outcome.Refuses (outcome : Outcome) (verbose : Bool) (registry : Registry) (config : Config)
    (files : List (String × List UInt8)) (fault : ConfigFault) : Prop where
  ends : ∀ ahead file behind, files = ahead ++ file :: behind → (∀ other ∈ ahead, ¬Parses other) →
    Parses file → outcome.output = [] ∧
      outcome.errors = ahead.flatMap (told verbose registry config) ++
        logOf verbose registry config file ++ [unstyled ("Config error: " ++ fault.message)]
  lasts : (∀ file ∈ files, ¬Parses file) → outcome.output = ["", summaryLine 0 0 files.length] ∧
    outcome.errors = files.flatMap (told verbose registry config)

/-- What an inspection comes to. It passes where all files parse, all names that are to be left out are those
of rules and no error is reported, and otherwise fails. -/
structure Outcome.Answers (outcome : Outcome) (verbose : Bool) (registry : Registry)
    (inspection : Inspection) (files : List (String × List UInt8)) : Prop where
  unbroken : outcome.fault = none
  code : outcome.code = 0 ∨ outcome.code = 1
  passes : outcome.code = 0 ↔ (∀ file ∈ files, Parses file) ∧
    (∀ name ∈ inspection.disabled, name ∈ registry.names) ∧
    ∀ file ∈ files, ∀ entry ∈ reported registry (inspectionConfig registry inspection) file,
      entry.2.severity ≠ .error
  lists : (∀ name ∈ inspection.disabled, name ∈ registry.names) →
    outcome.Lists verbose registry (inspectionConfig registry inspection) files
  refuses : ∀ name, inspection.disabled.find? (· ∉ registry.names) = some name →
    outcome.Refuses verbose registry (inspectionConfig registry inspection) files
      (.unknownRule name (sortNames registry.names.eraseDups))

theorem code_summary (tally : Tally) : (summary count tally).code = 0 ∨ (summary count tally).code = 1 := by
  simp only [summary]
  split
  · exact .inr rfl
  · exact .inl rfl

theorem code_summary_tallyOf :
    (summary count (tallyOf verbose registry config files)).code = 0 ↔
      (∀ file ∈ files, Parses file) ∧
        ∀ file ∈ files, ∀ entry ∈ reported registry config file, entry.2.severity ≠ .error := by
  have parsed : (tallyOf verbose registry config files).failed = false ↔ ∀ file ∈ files, Parses file := by
    rw [tallyOf, List.any_eq_false]
    exact forall₂_congr fun file _ => by rw [complaint?_isSome_iff, not_not]
  have clean : (tallyOf verbose registry config files).errors = 0 ↔
      ∀ file ∈ files, ∀ entry ∈ reported registry config file, entry.2.severity ≠ .error := by
    rw [tallyOf, List.countP_eq_zero, List.forall_mem_flatMap]
    simp only [Issue.isError, beq_iff_eq, Ne]
  rw [← parsed, ← clean]
  simp [summary]

theorem check_of_known (known : ∀ name ∈ inspection.disabled, name ∈ registry.names) :
    (inspectionConfig registry inspection).check registry.names = .ok () := by
  have none : inspection.disabled.find? (· ∉ registry.names) = none :=
    List.find?_eq_none.mpr fun name member => by simpa using known name member
  rw [← SheetLint.Outcome.fault?_eq_none_iff, fault?_check_inspectionConfig, none, Option.map_none]

theorem check_of_unknown {name : String}
    (found : inspection.disabled.find? (· ∉ registry.names) = some name) :
    (inspectionConfig registry inspection).check registry.names =
      .error (.unknownRule name (sortNames registry.names.eraseDups)) := by
  rw [← SheetLint.Outcome.fault?_eq_some_iff, fault?_check_inspectionConfig, found, Option.map_some]

theorem first_that_parses (files : List (String × List UInt8)) :
    (∀ file ∈ files, ¬Parses file) ∨ ∃ ahead file behind, files = ahead ++ file :: behind ∧
      (∀ other ∈ ahead, ¬Parses other) ∧ Parses file := by
  induction files with
  | nil => exact .inl nofun
  | cons file rest ih =>
    by_cases parses : Parses file
    · exact .inr ⟨[], file, rest, rfl, nofun, parses⟩
    · rcases ih with unparsable | ⟨ahead, first, behind, rfl, others, parses'⟩
      · exact .inl (List.forall_mem_cons.mpr ⟨parses, unparsable⟩)
      · exact .inr ⟨file :: ahead, first, behind, rfl, List.forall_mem_cons.mpr ⟨parses, others⟩, parses'⟩

section

variable (filled : registry.rules ≠ [])

include filled

theorem answers_of_known (known : ∀ name ∈ inspection.disabled, name ∈ registry.names)
    (settles : ∀ file ∈ files, Settles (lintOf registry (inspectionConfig registry inspection) file))
    (verbose : Bool) :
    (inspectFiles verbose registry (inspectionConfig registry inspection) files.length {} files).Answers
      verbose registry inspection files := by
  have linted : ∀ file ∈ files, Parses file → ∃ issues,
      (lintOf registry (inspectionConfig registry inspection) file).result = .ok issues :=
    fun file member parses =>
      result_lintOf_of_valid filled (settles file member) parses (check_of_known known)
  have proceed : ∀ file ∈ files, Proceeds registry (inspectionConfig registry inspection) file :=
    fun file member => not_or_of_imp (linted file member)
  rw [inspectFiles_eq proceed]
  refine ⟨rfl, code_summary _, ?_, fun _ => ⟨fun file member parses => ?_,
    fun file _ => reported_of_not_parses, rfl, rfl⟩, fun name found => ?_⟩
  · rw [code_summary_tallyOf]
    exact and_congr_right fun _ => (and_iff_right known).symm
  · obtain ⟨issues, ended⟩ := linted file member parses
    exact ⟨issues, ended, by rw [reported, ended]; rfl⟩
  · have missing := List.find?_some found
    exact absurd (known name (List.mem_of_find?_eq_some found)) (by simpa using missing)

theorem refuses_of_unknown {name : String}
    (found : inspection.disabled.find? (· ∉ registry.names) = some name) (verbose : Bool) :
    (inspectFiles verbose registry (inspectionConfig registry inspection) files.length {} files).Refuses
      verbose registry (inspectionConfig registry inspection) files
      (.unknownRule name (sortNames registry.names.eraseDups)) := by
  constructor
  · rintro ahead file behind rfl unparsable parses
    rw [inspectFiles_stop (fun other member => .inl (unparsable other member))
      (result_lintOf_of_fault filled parses (check_of_unknown found))]
    refine ⟨?_, rfl⟩
    rw [tallyOf, flatMap_reported_of_not_parses unparsable, List.map_nil]
  · intro unparsable
    rw [inspectFiles_eq fun file member => .inl (unparsable file member)]
    refine ⟨?_, rfl⟩
    rw [summary, tallyOf, flatMap_reported_of_not_parses unparsable]
    rfl

theorem answers_of_unknown {name : String}
    (found : inspection.disabled.find? (· ∉ registry.names) = some name) (nonempty : files ≠ [])
    (verbose : Bool) :
    (inspectFiles verbose registry (inspectionConfig registry inspection) files.length {} files).Answers
      verbose registry inspection files := by
  have missing : name ∉ registry.names := by simpa using List.find?_some found
  have member : name ∈ inspection.disabled := List.mem_of_find?_eq_some found
  -- no file parses, or else the first that does ends the inspection
  have failed : (inspectFiles verbose registry (inspectionConfig registry inspection) files.length {}
      files).fault = none ∧ (inspectFiles verbose registry (inspectionConfig registry inspection)
        files.length {} files).code = 1 := by
    rcases first_that_parses files with unparsable | ⟨ahead, file, behind, rfl, unparsable, parses⟩
    · rw [inspectFiles_eq fun file member => .inl (unparsable file member)]
      refine ⟨rfl, (code_summary _).resolve_left fun passed => ?_⟩
      obtain ⟨file, first⟩ := List.exists_mem_of_ne_nil files nonempty
      exact unparsable file first ((code_summary_tallyOf.mp passed).1 file first)
    · rw [inspectFiles_stop (fun other member => .inl (unparsable other member))
        (result_lintOf_of_fault filled parses (check_of_unknown found))]
      exact ⟨rfl, rfl⟩
  refine ⟨failed.1, .inr failed.2, ?_, fun known => absurd (known name member) missing,
    fun other same => refuses_of_unknown filled same verbose⟩
  rw [failed.2]
  exact iff_of_false Nat.one_ne_zero fun passed => missing (passed.2.1 name member)

end

/-! ### The command line -/

theorem mapM_contents {contents : String → Option (List UInt8)} {files : List (String × List UInt8)}
    (there : ∀ file ∈ files, contents file.1 = some file.2) :
    ((files.map Prod.fst).mapM fun path => (contents path).map fun bytes => (path, bytes)) =
      some files := by
  induction files with
  | nil => rfl
  | cons file rest ih =>
    obtain ⟨here, others⟩ := List.forall_mem_cons.mp there
    rw [List.map_cons, List.mapM_cons, here, ih others]
    rfl

/-- The command line answers a request for an inspection, and there is a request for every inspection of
files that are there. -/
theorem run_answers_inspection (contents : String → Option (List UInt8))
    (files : List (String × List UInt8)) (nonempty : files ≠ [])
    (there : ∀ file ∈ files, contents file.1 = some file.2) (severity : Severity)
    (disabled : List String)
    (settles : ∀ file ∈ files, Settles (lintOf .builtin
      (inspectionConfig .builtin ⟨files.map Prod.fst, severity, disabled⟩) file)) :
    let inspection : Inspection := ⟨files.map Prod.fst, severity, disabled⟩
    Invocation.ofArguments inspection.arguments = some ⟨false, .inspect inspection⟩ ∧
      ∀ verbose arguments, Invocation.ofArguments arguments = some ⟨verbose, .inspect inspection⟩ →
        (run contents arguments).Answers verbose .builtin inspection files := by
  intro inspection
  have filled : Registry.builtin.rules ≠ [] := by decide
  refine ⟨ofArguments_arguments (List.map_eq_nil_iff.not.mpr nonempty), fun verbose arguments asked => ?_⟩
  rw [run, asked]
  simp only [inspection, mapM_contents there]
  cases found : disabled.find? (· ∉ Registry.builtin.names) with
  | none =>
    refine answers_of_known filled (fun name member => ?_) settles verbose
    simpa using List.find?_eq_none.mp found name member
  | some name => exact answers_of_unknown filled found nonempty verbose

/-- A file in which a block is left open. -/
def openFile : String × List UInt8 := ("a.css", [97, 123])

theorem parseFile_openFile :
    parseFile (shownPath openFile.1) openFile.2 = .error (.at .openBlock ⟨1, 2⟩) := by
  rfl

theorem told_openFile (config : Config) :
    told false .builtin config openFile = ["a.css: Parse error: Unclosed block (line 1, column 2)"] := by
  have shown : shownPath "a.css" = "a.css" := by rfl
  have message : "a.css" ++ ": Parse error: " ++ (ParseError.at .openBlock ⟨1, 2⟩).message =
      "a.css: Parse error: Unclosed block (line 1, column 2)" := by rfl
  rw [told, complaint?_of_error parseFile_openFile]
  change [unstyled (shownPath "a.css" ++ ": Parse error: " ++ _)] = _
  rw [shown, message]
  rfl

/-- A file in which an outline is hidden. -/
def outlineFile : String × List UInt8 :=
  ("b.css", "b\x7boutline:none\x7d".toList.map fun c => c.toNat.toUInt8)

/-- The stylesheet in the file. -/
def outlineSheet : Node Position :=
  let body : Node Position := .block
    [.declaration "outline" (.value [.leaf (.ident "none") ⟨1, 11⟩] ⟨1, 11⟩) ⟨1, 3⟩] ⟨1, 2⟩
  .stylesheet [.ruleset [.selector [.leaf (.simple .type "b") ⟨1, 1⟩] "b" ⟨1, 1⟩] body ⟨1, 1⟩] ⟨1, 1⟩

theorem parseFile_outlineFile :
    parseFile (shownPath outlineFile.1) outlineFile.2 = .ok outlineSheet := by
  rfl

/-- The issue in the file where the rule is at level two. -/
def outlineIssue : Issue := ⟨"accessibility-issues", .error, 1, 3, "Outline should not be hidden"⟩

theorem issueLine_outlineIssue : issueLine ("b.css", outlineIssue) =
    "b.css:1:3: ERROR [accessibility-issues] Outline should not be hidden" := by
  have text : "b.css" ++ ":" ++ outlineIssue.text =
      "b.css:1:3: ERROR [accessibility-issues] Outline should not be hidden" := by rfl
  rw [issueLine, text]
  rfl

theorem result_lintOf_outlineFile (inspection : Inspection) (severe : inspection.severity = .error)
    (all : inspection.disabled = []) :
    (lintOf .builtin (inspectionConfig .builtin inspection) outlineFile).result = .ok [outlineIssue] := by
  have names : Registry.builtin.names = [accessibilityIssues.name] := List.mergeSort_singleton _
  have leveled : inspectionConfig .builtin inspection =
      { rules := .ofList [("accessibility-issues", .int 2)] } := by
    rw [inspectionConfig, severe, all, names]
    rfl
  have valid : (inspectionConfig .builtin inspection).check Registry.builtin.names = .ok () :=
    check_of_known (by simp [all])
  rw [leveled] at valid ⊢
  let config : Config := { rules := .ofList [("accessibility-issues", .int 2)] }
  have detected : (accessibilityIssues.detect outlineSheet (config.context accessibilityIssues)).result =
      .ok [outlineIssue] := by
    rw [result_detect, Node.rulesets, Node.walk_eq_preorder]
    rfl
  let remarks (_ : Rule) : List (Position × String) := [(⟨1, 3⟩, "Outline should not be hidden")]
  have reports : ∀ rule ∈ Registry.builtin.rules,
      rule.Reports outlineSheet (config.optionsOf rule) (remarks rule) :=
    List.forall_mem_singleton.mpr (reports_of_detect detected _)
  rw [lintOf, result_file, parseFile_outlineFile]
  change (Lint.tree .builtin (some config) outlineSheet).result = _
  rw [Lint.result_tree_of_reports (List.cons_ne_nil _ _) valid reports]
  rfl

/-- Of two files the first does not parse, which takes nothing from the second. -/
theorem run_answers_inspection_of_two :
    let contents (path : String) : Option (List UInt8) :=
      if path = "a.css" then some openFile.2 else some outlineFile.2
    let outcome := run contents ["lint", "--severity", "error", "--", "a.css", "b.css"]
    outcome.code = 1 ∧ outcome.output =
        ["b.css:1:3: ERROR [accessibility-issues] Outline should not be hidden", "",
          "Summary: 1 error(s), 0 warning(s) in 2 file(s)"] ∧
      outcome.errors = ["a.css: Parse error: Unclosed block (line 1, column 2)"] := by
  intro contents outcome
  let inspection : Inspection := ⟨["a.css", "b.css"], .error, []⟩
  have refused : (lintOf .builtin (inspectionConfig .builtin inspection) openFile).result =
      .error (.parse (.at .openBlock ⟨1, 2⟩)) := result_lintOf_of_error parseFile_openFile
  have linted := result_lintOf_outlineFile inspection rfl rfl
  have settles : ∀ file ∈ [openFile, outlineFile],
      Settles (lintOf .builtin (inspectionConfig .builtin inspection) file) :=
    List.forall_mem_cons.mpr ⟨.inr (.inl ⟨_, refused⟩), List.forall_mem_singleton.mpr (.inl ⟨_, linted⟩)⟩
  have there : ∀ file ∈ [openFile, outlineFile], contents file.1 = some file.2 :=
    List.forall_mem_cons.mpr ⟨rfl, List.forall_mem_singleton.mpr rfl⟩
  obtain ⟨asked, answers⟩ := run_answers_inspection contents [openFile, outlineFile]
    (List.cons_ne_nil _ _) there .error [] settles
  have answered : outcome.Answers false .builtin inspection [openFile, outlineFile] :=
    answers false _ asked
  have lists := answered.lists nofun
  have found : [openFile, outlineFile].flatMap
      (reported .builtin (inspectionConfig .builtin inspection)) = [("b.css", outlineIssue)] := by
    rw [List.flatMap_cons, List.flatMap_singleton, reported, reported, refused, linted]
    rfl
  refine ⟨answered.code.resolve_left fun passed => ?_, ?_, ?_⟩
  · obtain ⟨tree, parsed⟩ := (answered.passes.mp passed).1 openFile (List.mem_cons_self ..)
    cases parseFile_openFile.symm.trans parsed
  · have printed := lists.output
    simp only [found] at printed
    rw [printed, List.map_singleton, issueLine_outlineIssue]
    rfl
  · rw [lists.errors, List.flatMap_cons, List.flatMap_singleton, told_openFile, told,
      complaint?_of_ok parseFile_outlineFile]
    rfl

end SheetLint.Command
