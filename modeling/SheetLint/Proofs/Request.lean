import SheetLint.Command.Arguments

/-! Arguments that ask for an inspection. There are some for every inspection of at least one file, whatever
the names of the files and of the rules look like. -/
namespace SheetLint.Command

/-- The word for a severity among the arguments. -/
def severityWord : Severity → String
  | .warning => "warning"
  | .error => "error"

/-- The arguments that ask for an inspection. No file is taken for an option, since all stand behind a double
dash. -/
def Inspection.arguments (inspection : Inspection) : List String :=
  "lint" :: "--severity" :: severityWord inspection.severity ::
    ((inspection.disabled.flatMap fun name => ["--disable", name]) ++ "--" :: inspection.files)

theorem severityOf?_severityWord (severity : Severity) :
    severityOf? (severityWord severity) = some severity := by
  cases severity <;> rfl

/-- An option whose value is the next argument. -/
theorem inspectionDraft_option {name : String} (option : isOption name) (taken : takesValue name)
    (plain : splitOption name = (name, none)) (draft : InspectionDraft) (value : String)
    (rest : List String) :
    inspectionDraft draft (name :: value :: rest) = inspectionDraft (draft.set name value) rest := by
  have other : name ≠ "--" := by
    rintro rfl
    cases taken
  rw [inspectionDraft]
  simp [other, option, plain, taken]

theorem inspectionDraft_disabled (draft : InspectionDraft) (disabled files : List String) :
    inspectionDraft draft ((disabled.flatMap fun name => ["--disable", name]) ++ "--" :: files) =
      some { draft with
        files := files.reverse ++ draft.files
        disabled := disabled.reverse ++ draft.disabled } := by
  induction disabled generalizing draft with
  | nil => simp [inspectionDraft]
  | cons name rest ih =>
    rw [List.flatMap_cons, List.append_assoc]
    change inspectionDraft draft ("--disable" :: name :: (_ ++ "--" :: files)) = _
    rw [inspectionDraft_option (by decide) (by decide) (by decide), ih]
    simp [InspectionDraft.set]

/-- An inspection is asked for by its arguments. -/
theorem ofArguments_arguments {inspection : Inspection} (filled : inspection.files ≠ []) :
    Invocation.ofArguments inspection.arguments = some ⟨false, .inspect inspection⟩ := by
  obtain ⟨files, severity, disabled⟩ := inspection
  have nonempty : files ≠ [] := filled
  have draft : inspectionDraft {} ("--severity" :: severityWord severity ::
      ((disabled.flatMap fun name => ["--disable", name]) ++ "--" :: files)) =
        some ⟨files.reverse, severityWord severity, disabled.reverse, false⟩ := by
    rw [inspectionDraft_option (by decide) (by decide) (by decide), inspectionDraft_disabled]
    simp [InspectionDraft.set]
  have task : inspection? ("--severity" :: severityWord severity ::
      ((disabled.flatMap fun name => ["--disable", name]) ++ "--" :: files)) =
        some (.inspect ⟨files, severity, disabled⟩) := by
    simp [inspection?, draft, severityOf?_severityWord, nonempty]
  have lead : leadOf {} (Inspection.arguments ⟨files, severity, disabled⟩) =
      some { rest := Inspection.arguments ⟨files, severity, disabled⟩ } := by
    rw [Inspection.arguments, leadOf]
    simp [isOption]
  rw [Invocation.ofArguments, lead]
  simp only [Inspection.arguments, Option.bind_eq_bind, Option.bind_some, task]
  rfl

end SheetLint.Command
