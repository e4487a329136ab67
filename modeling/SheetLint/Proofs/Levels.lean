import SheetLint.Proofs.Registered
import SheetLint.Proofs.Stamping

/-! The level of one rule does not reach the issues of another one. A rule that is disabled takes its own
issues away, and one whose level is changed has its own issues in another severity; the rest of a run stays as
it is, in its order. -/
namespace SheetLint

/-- A rule comes to a result on a sheet, which is the same in every severity but for the severity. -/
def Rule.Reports (rule : Rule) (sheet : Node Position) (options : Table Datum)
    (remarks : List (Position × String)) : Prop :=
  ∀ severity : Severity, let context : Context := ⟨rule.name, severity, options⟩
    (rule.detect sheet context).result =
      .ok (remarks.map fun (place, message) => context.issue place message)

/-- An issue, in a given severity if it is of a given rule. -/
def Issue.graded (name : String) (severity : Severity) (issue : Issue) : Issue :=
  { issue with severity := if issue.ruleId = name then severity else issue.severity }

theorem Issue.graded_of_ne {name : String} {severity : Severity} {issue : Issue}
    (apart : issue.ruleId ≠ name) : issue.graded name severity = issue := by
  rw [graded, if_neg apart]

/-- Issues that agree in severity where they are of one rule are kept apart. -/
theorem Issue.graded_inj {name : String} {severity : Severity} {one other : Issue}
    (alike : one.ruleId = other.ruleId → one.severity = other.severity)
    (same : one.graded name severity = other.graded name severity) : one = other := by
  simp only [graded, Issue.mk.injEq] at same
  obtain ⟨named, -, line, column, message⟩ := same
  have severe := alike named
  cases one
  cases other
  simp_all only

/-- The built-in rule comes to a result in every severity where it does in one. -/
theorem reports_of_detect {tree : Node Position} {context : Context} {issues : List Issue}
    (detected : (accessibilityIssues.detect tree context).result = .ok issues)
    (options : Table Datum) :
    accessibilityIssues.Reports tree options
      (issues.map fun issue => (⟨issue.line, issue.column⟩, issue.message)) := by
  intro severity context'
  rw [detect_restamp detected context', List.map_map]
  rfl

namespace Config

variable {config : Config} {registry : Registry} {name : String} {level : Datum}

/-- A level for a rule that is there keeps a configuration valid. -/
theorem check_withRule (valid : config.check registry.names = .ok ())
    (registered : name ∈ registry.names) (leveled : level.isNat 0 ∨ level.isNat 1 ∨ level.isNat 2) :
    (config.withRule name level).check registry.names = .ok () := by
  obtain ⟨levels, options⟩ := check_eq_ok_iff.mp valid
  refine check_eq_ok_iff.mpr ⟨fun entry member => ?_, options⟩
  rcases Table.mem_putEntry member with rfl | old
  · exact ⟨registered, leveled⟩
  · exact levels entry old

theorem level_withRule (other : String) : (config.withRule name level).level other =
    if other = name then level else config.level other := by
  unfold Config.level withRule
  rw [Table.get?_put]
  split <;> rfl

theorem level_of_ofLevel? {severity : Severity} (graded : Severity.ofLevel? level = some severity) :
    level.isNat 1 ∧ severity = .warning ∨ level.isNat 2 ∧ severity = .error := by
  unfold Severity.ofLevel? at graded
  split at graded
  · rename_i one
    exact .inl ⟨one, (Option.some.inj graded).symm⟩
  · split at graded
    · rename_i two
      exact .inr ⟨two, (Option.some.inj graded).symm⟩
    · cases graded

/-- Errors come of level two alone. -/
theorem severity_eq_error_iff {rule : Rule} :
    (config.context rule).severity = .error ↔ (config.level rule.name).isNat 2 := by
  change (Severity.ofLevel? (config.level rule.name)).getD .warning = .error ↔ _
  unfold Severity.ofLevel?
  by_cases one : (config.level rule.name).isNat 1
  · have other : ¬(config.level rule.name).isNat 2 := fun two => absurd (Datum.isNat_inj one two) (by omega)
    simp [one, other]
  · by_cases two : (config.level rule.name).isNat 2 <;> simp [one, two]

end Config

namespace Lint

variable {config : Config} {registry : Registry} {sheet : Node Position}
  {remarks : Rule → List (Position × String)} {name : String}

/-- What a rule adds to a run that has these things to say. -/
def share (config : Config) (remarks : Rule → List (Position × String)) (rule : Rule) : List Issue :=
  if config.enables rule then
    (remarks rule).map fun (place, message) => (config.context rule).issue place message
  else []

theorem stamps_of_share {rule : Rule} {issue : Issue} (member : issue ∈ share config remarks rule) :
    (config.context rule).Stamps issue := by
  unfold share at member
  split at member
  · obtain ⟨remark, _, rfl⟩ := List.mem_map.mp member
    exact ⟨rfl, rfl⟩
  · cases member

/-- The severity of an issue is told by the rule that it is of. -/
theorem severity_of_share {rule : Rule} {issue : Issue} (member : issue ∈ share config remarks rule) :
    issue.severity = (Severity.ofLevel? (config.level issue.ruleId)).getD .warning := by
  obtain ⟨named, severe⟩ := stamps_of_share member
  rw [severe, named]
  rfl

/-- A run comes to the shares of its rules in turn, the first only of any issues that are the same. -/
theorem result_tree_of_reports (filled : registry.rules ≠ [])
    (valid : config.check registry.names = .ok ())
    (reports : ∀ rule ∈ registry.rules, rule.Reports sheet (config.optionsOf rule) (remarks rule)) :
    (tree registry (some config) sheet).result =
      .ok (registry.rules.flatMap (share config remarks)).eraseDups := by
  have asked : registry.rules.mapM (outcome sheet config) =
      .ok (registry.rules.map (share config remarks)) := by
    refine Outcome.mapM_eq_ok.mpr (List.forall₂_map_right_iff.mpr (List.forall₂_same.mpr ?_))
    intro rule member
    unfold outcome share
    split
    · exact reports rule member (config.context rule).severity
    · rfl
  have valid' : (registry.configuration (some config)).check registry.names = .ok () := valid
  rw [tree_of_valid filled valid', Traced.result_map]
  change Collector.issues <$> (runRules sheet config .empty registry.rules).result = _
  rw [result_runRules valid, asked, ← Collector.issues_ofList_eq_eraseDups, List.flatMap_def]
  rfl

theorem enables_withRule (config : Config) (level : Datum) (rule : Rule) :
    (config.withRule name level).enables rule =
      if rule.name = name then !level.isNat 0 else config.enables rule := by
  rw [Config.enables_eq, Config.enables_eq, Config.level_withRule]
  split <;> rfl

theorem share_withRule_of_ne {rule : Rule} (level : Datum) (apart : rule.name ≠ name) :
    share (config.withRule name level) remarks rule = share config remarks rule := by
  have context : (config.withRule name level).context rule = config.context rule := by
    unfold Config.context
    rw [Config.level_withRule, if_neg apart]
    rfl
  unfold share
  rw [enables_withRule, if_neg apart, context]

/-- A disabled rule takes its own issues away from a share, which is its own share or none of it. -/
theorem share_disabled {level : Datum} (off : level.isNat 0) (rule : Rule) :
    share (config.withRule name level) remarks rule =
      (share config remarks rule).filter fun issue => issue.ruleId ≠ name := by
  by_cases same : rule.name = name
  · have silent : share (config.withRule name level) remarks rule = [] := by
      unfold share
      rw [enables_withRule, if_pos same, off]
      rfl
    rw [silent, eq_comm, List.filter_eq_nil_iff]
    intro issue member
    simpa using (stamps_of_share member).1.trans same
  · rw [share_withRule_of_ne level same, eq_comm, List.filter_eq_self]
    intro issue member
    have named : issue.ruleId = rule.name := (stamps_of_share member).1
    simpa [named] using same

theorem share_graded {level : Datum} {severity : Severity}
    (graded : Severity.ofLevel? level = some severity) (active : ¬(config.level name).isNat 0)
    (rule : Rule) :
    share (config.withRule name level) remarks rule =
      (share config remarks rule).map (Issue.graded name severity) := by
  by_cases same : rule.name = name
  · subst same
    have nonzero : level.isNat 0 = false := by
      rw [Bool.eq_false_iff]
      intro zero
      rcases Config.level_of_ofLevel? graded with ⟨one, _⟩ | ⟨two, _⟩
      · exact absurd (Datum.isNat_inj zero one) (by omega)
      · exact absurd (Datum.isNat_inj zero two) (by omega)
    have enabled : config.enables rule := by simpa [Config.enables_eq] using active
    unfold share
    rw [enables_withRule, if_pos rfl, nonzero, if_pos enabled, List.map_map]
    refine List.map_congr_left fun remark _ => ?_
    simp only [Function.comp, Issue.graded, Context.issue, Config.context, Config.level_withRule,
      ↓reduceIte, graded]
    rfl
  · rw [share_withRule_of_ne level same, eq_comm]
    refine (List.map_congr_left fun issue member => ?_).trans (List.map_id _)
    have named : issue.ruleId = rule.name := (stamps_of_share member).1
    exact Issue.graded_of_ne (named ▸ same)

section

variable (filled : registry.rules ≠ []) (valid : config.check registry.names = .ok ())
  (reports : ∀ rule ∈ registry.rules, rule.Reports sheet (config.optionsOf rule) (remarks rule))

include filled valid reports

theorem result_tree_disabled {level : Datum} (off : level.isNat 0) (registered : name ∈ registry.names) :
    (tree registry (some (config.withRule name level)) sheet).result =
      .ok ((registry.rules.flatMap (share config remarks)).eraseDups.filter
        fun issue => issue.ruleId ≠ name) := by
  have valid' := Config.check_withRule valid registered (.inl off)
  rw [result_tree_of_reports filled valid' reports, ← Repeats.eraseDups_filter, List.filter_flatMap,
    funext (share_disabled off)]

theorem result_tree_graded {level : Datum} {severity : Severity}
    (graded : Severity.ofLevel? level = some severity) (active : ¬(config.level name).isNat 0)
    (registered : name ∈ registry.names) :
    (tree registry (some (config.withRule name level)) sheet).result =
      .ok ((registry.rules.flatMap (share config remarks)).eraseDups.map
        (Issue.graded name severity)) := by
  have leveled : level.isNat 0 ∨ level.isNat 1 ∨ level.isNat 2 :=
    .inr ((Config.level_of_ofLevel? graded).imp And.left And.left)
  have valid' := Config.check_withRule valid registered leveled
  rw [result_tree_of_reports filled valid' reports, ← Repeats.eraseDups_map, List.map_flatMap,
    funext (share_graded graded active)]
  -- Two issues of one rule are not told apart by their severities in the first place.
  intro one first other second
  obtain ⟨_, _, here⟩ := List.mem_flatMap.mp first
  obtain ⟨_, _, there⟩ := List.mem_flatMap.mp second
  refine Issue.graded_inj fun alike => ?_
  rw [severity_of_share here, severity_of_share there, alike]

end

/-- There are errors in a run where a rule at level two has something to say. -/
theorem any_isError_iff {rules : List Rule} :
    (rules.flatMap (share config remarks)).eraseDups.any Issue.isError ↔
      ∃ rule ∈ rules, (config.level rule.name).isNat 2 ∧
        ∃ issue ∈ (rules.flatMap (share config remarks)).eraseDups, issue.ruleId = rule.name := by
  rw [List.any_eq_true]
  constructor
  · rintro ⟨issue, member, fails⟩
    obtain ⟨rule, registered, inside⟩ := List.mem_flatMap.mp (List.mem_eraseDups.mp member)
    obtain ⟨named, severe⟩ := stamps_of_share inside
    have error : issue.severity = .error := by simpa [Issue.isError] using fails
    exact ⟨rule, registered, Config.severity_eq_error_iff.mp (severe.symm.trans error), issue, member,
      named⟩
  · rintro ⟨rule, registered, two, issue, member, named⟩
    obtain ⟨_, _, inside⟩ := List.mem_flatMap.mp (List.mem_eraseDups.mp member)
    have error : issue.severity = .error := by
      rw [severity_of_share inside, named]
      exact Config.severity_eq_error_iff.mpr two
    exact ⟨issue, member, by simp [Issue.isError, error]⟩

theorem result_orFail {run : Traced Event LintFault (List Issue)} {issues : List Issue}
    (ended : run.result = .ok issues) : (orFail run).result =
      if issues.any Issue.isError then .error (.errors issues) else .ok issues := by
  unfold orFail
  rw [Traced.result_bind, ended]
  change Traced.result (if issues.any Issue.isError then _ else _) = _
  split <;> rfl

/-- The levels of rules do not interfere. Where every rule comes to a result, to which the severity adds
nothing but itself, a run without one rule is the run with it less the issues of that; a rule that goes from
one severity to the other changes the severity of its own issues and nothing else; and a run that is to fail
on errors fails where a rule at level two has reported something, with all that the run came to. -/
theorem levels_do_not_interfere (registry : Registry) (config : Config) (sheet : Node Position)
    (filled : registry.rules ≠ []) (valid : config.check registry.names = .ok ())
    (remarks : Rule → List (Position × String))
    (reports : ∀ rule ∈ registry.rules, rule.Reports sheet (config.optionsOf rule) (remarks rule)) :
    ∃ issues, (tree registry (some config) sheet).result = .ok issues ∧
      (∀ rule ∈ registry.rules, ∀ level : Datum, level.isNat 0 →
        (tree registry (some (config.withRule rule.name level)) sheet).result =
          .ok (issues.filter fun issue => issue.ruleId ≠ rule.name)) ∧
      (∀ rule ∈ registry.rules, config.enables rule →
        ∀ level severity, Severity.ofLevel? level = some severity →
          (tree registry (some (config.withRule rule.name level)) sheet).result =
            .ok (issues.map (Issue.graded rule.name severity))) ∧
      (orFail (tree registry (some config) sheet)).result =
        if ∃ rule ∈ registry.rules, (config.level rule.name).isNat 2 ∧
          ∃ issue ∈ issues, issue.ruleId = rule.name
        then .error (.errors issues) else .ok issues := by
  have ended := result_tree_of_reports filled valid reports
  refine ⟨_, ended, fun rule member level off => ?_,
    fun rule member enabled level severity graded => ?_, ?_⟩
  · exact result_tree_disabled filled valid reports off (mem_names member)
  · have active : ¬(config.level rule.name).isNat 0 := by
      simpa [Config.enables_eq] using enabled
    exact result_tree_graded filled valid reports graded active (mem_names member)
  · rw [result_orFail ended]
    simp only [any_isError_iff]

/-- The built-in rule fails a run in which another one warns: without the other one the run comes to the
error alone, and with a warning in place of the error to two warnings. -/
theorem levels_do_not_interfere_of_two :
    let registry : Registry := ⟨[accessibilityIssues, twice "second"], by decide⟩
    let config : Config :=
      { rules := .ofList [("second", .bool true), ("accessibility-issues", .int 2)] }
    let outline (severity : Severity) : Issue :=
      ⟨"accessibility-issues", severity, 1, 3, "Outline should not be hidden"⟩
    let here : Issue := ⟨"second", .warning, 1, 1, "here"⟩
    let run (config : Config) := tree registry (some config) outlines
    config.check registry.names = .ok () ∧ (run config).result = .ok [outline .error, here] ∧
      (run (config.withRule "second" (.int 0))).result = .ok [outline .error] ∧
      (run (config.withRule "accessibility-issues" (.int 1))).result =
        .ok [outline .warning, here] ∧
      (orFail (run config)).result = .error (.errors [outline .error, here]) := by
  intro registry config outline here run
  have valid : config.check registry.names = .ok () := by
    have first : accessibilityIssues.name ∈ registry.names := mem_names (by simp [registry])
    have second : (twice "second").name ∈ registry.names := mem_names (by simp [registry])
    refine Config.check_eq_ok_iff.mpr ⟨?_, fun name member => (List.not_mem_nil member).elim⟩
    change ∀ entry ∈ [("second", Datum.bool true), ("accessibility-issues", .int 2)], _
    exact List.forall_mem_cons.mpr ⟨⟨second, .inr (.inl rfl)⟩,
      List.forall_mem_singleton.mpr ⟨first, .inr (.inr rfl)⟩⟩
  let remarks (rule : Rule) : List (Position × String) :=
    if rule.name = "second" then [(⟨1, 1⟩, "here"), (⟨1, 1⟩, "here")]
    else [(⟨1, 3⟩, "Outline should not be hidden")]
  have reports : ∀ rule ∈ registry.rules,
      rule.Reports outlines (config.optionsOf rule) (remarks rule) := by
    intro rule member
    simp only [registry, List.mem_cons, List.not_mem_nil, or_false] at member
    rcases member with rfl | rfl
    · exact reports_of_detect detect_outlines _
    · exact fun severity => rfl
  have filled : registry.rules ≠ [] := List.cons_ne_nil _ _
  obtain ⟨issues, ended, disabled, graded, raised⟩ :=
    levels_do_not_interfere registry config outlines filled valid remarks reports
  have explicit : issues = [outline .error, here] := by
    have found := ended.symm.trans (result_tree_of_reports filled valid reports)
    exact (Except.ok.inj found).trans (by rfl)
  subst explicit
  refine ⟨valid, ended, ?_, ?_, ?_⟩
  · exact disabled (twice "second") (by simp [registry]) (.int 0) rfl
  · exact graded accessibilityIssues (by simp [registry]) rfl (.int 1) .warning rfl
  · rw [raised, if_pos ⟨accessibilityIssues, by simp [registry], rfl, outline .error, by simp, rfl⟩]

end Lint
end SheetLint
