import SheetLint.Lint.Run
import SheetLint.Proofs.Checking
import SheetLint.Proofs.Repeats
import Mathlib.Data.List.Permutation

/-! Runs of the rules of a registry. A run goes through the rules in the order of registration, asks each
enabled one once and in its own context, and keeps the first of any issues that are the same. -/
namespace SheetLint

namespace Config

variable {config : Config} {known : List String}

/-- A rule is run unless its level is zero; one without a level is not run. -/
def enables (config : Config) (rule : Rule) : Bool :=
  (config.rules.get? rule.name).any (!·.isNat 0)

/-- The context in which a rule is run. -/
def context (config : Config) (rule : Rule) : Context :=
  ⟨rule.name, (Severity.ofLevel? (config.level rule.name)).getD .warning, config.optionsOf rule⟩

/-- What a configuration puts on the issues of a rule that it enables, and gives it for options: those of
the user, and for other names the defaults. -/
structure Frames (config : Config) (rule : Rule) (context : Context) : Prop where
  named : context.ruleId = rule.name
  level : ∃ level, config.rules.get? rule.name = some level ∧
    (level.isNat 1 ∧ context.severity = .warning ∨ level.isNat 2 ∧ context.severity = .error)
  options : ∀ name, context.options.get? name =
    ((config.options.get? rule.name).bind (·.get? name)).or (rule.defaults.get? name)

theorem enables_eq (config : Config) (rule : Rule) :
    config.enables rule = !(config.level rule.name).isNat 0 := by
  unfold enables level
  cases config.rules.get? rule.name <;> simp [Datum.isNat]

/-- The levels of a configuration that passes its check are levels. -/
theorem isLevel_of_check (valid : config.check known = .ok ()) {name : String} {level : Datum}
    (found : config.rules.get? name = some level) : isLevel level := by
  obtain ⟨front, back, split, _⟩ := List.lookup_eq_some_iff.mp found
  have member : (name, level) ∈ config.rules.entries := by simp [split]
  simpa [isLevel, or_assoc] using ((check_eq_ok_iff.mp valid).1 _ member).2

/-- A rule that is enabled in a valid configuration is run in a context of its own. -/
theorem frames_context {rule : Rule} (valid : config.check known = .ok ())
    (enabled : config.enables rule) : config.Frames rule (config.context rule) := by
  refine ⟨rfl, ?_, ?_⟩
  · cases found : config.rules.get? rule.name with
    | none => simp [enables, found] at enabled
    | some level =>
      have leveled := isLevel_of_check valid found
      simp only [enables, found, Option.any_some, Bool.not_eq_true'] at enabled
      simp only [isLevel, enabled, Bool.false_or, Bool.or_eq_true] at leveled
      refine ⟨level, rfl, ?_⟩
      by_cases warns : level.isNat 1
      · left
        simp [context, Config.level, found, Severity.ofLevel?, warns]
      · right
        have fails : level.isNat 2 := leveled.resolve_left warns
        simp [context, Config.level, found, Severity.ofLevel?, warns, fails]
  · intro name
    change (config.optionsOf rule).get? name = _
    rw [optionsOf, Table.get?_override]
    cases config.options.get? rule.name <;> rfl

theorem ofLevel?_of_enables {rule : Rule} (valid : config.check known = .ok ())
    (enabled : config.enables rule) :
    Severity.ofLevel? (config.level rule.name) = some (config.context rule).severity := by
  obtain ⟨level, found, warns | fails⟩ := (frames_context valid enabled).level
  · simp [context, Config.level, found, Severity.ofLevel?, warns.1]
  · by_cases one : level.isNat 1
    · simp [context, Config.level, found, Severity.ofLevel?, one]
    · simp [context, Config.level, found, Severity.ofLevel?, one, fails.1]

end Config

namespace Lint

variable {config : Config} {known : List String} {sheet : Node Position}

/-- What a rule finds in a sheet. A disabled rule is not asked. -/
def outcome (sheet : Node Position) (config : Config) (rule : Rule) : Except Check.Fault (List Issue) :=
  if config.enables rule then (rule.detect sheet (config.context rule)).result else .ok []

/-- What is told of one rule in a run. -/
def portion (sheet : Node Position) (config : Config) (rule : Rule) : List Event :=
  if config.enables rule then
    let detection := rule.detect sheet (config.context rule)
    .ruleStarted rule.name (config.context rule) :: (detection.trace ++
      detection.result.toOption.toList.map fun found => .ruleReported rule.name found.length)
  else [.ruleSkipped rule.name]

/-- A rule adds what it finds and tells its portion. -/
theorem runRule_eq (valid : config.check known = .ok ()) (collector : Collector) (rule : Rule) :
    runRule sheet config collector rule =
      ⟨portion sheet config rule,
        ((outcome sheet config rule).mapError LintFault.check).map collector.extend⟩ := by
  have asked := config.enables_eq rule
  unfold runRule portion outcome
  by_cases enabled : config.enables rule
  · have level := Config.ofLevel?_of_enables valid enabled
    have nonzero : (config.level rule.name).isNat 0 = false := by simpa [enabled] using asked.symm
    simp only [nonzero, level, enabled, ↓reduceIte, Bool.false_eq_true]
    change Traced.bind (.note (.ruleStarted rule.name (config.context rule))) (fun _ =>
      Traced.bind ((rule.detect sheet (config.context rule)).mapError LintFault.check) fun found =>
        Traced.bind (.note (.ruleReported rule.name found.length)) fun _ =>
          pure (collector.extend found)) = _
    obtain ⟨trace, result⟩ := rule.detect sheet (config.context rule)
    cases result with
    | error fault => simp [Traced.bind, Traced.note, Traced.mapError, Except.mapError, Except.map,
        Except.toOption]
    | ok found => rfl
  · have zero : (config.level rule.name).isNat 0 = true := by simpa [enabled] using asked.symm
    simp only [zero, enabled, ↓reduceIte, Bool.false_eq_true]
    rfl

/-- Rules add what they find one after another, up to the first of them that fails. -/
theorem result_runRules (valid : config.check known = .ok ()) (collector : Collector)
    (rules : List Rule) :
    (runRules sheet config collector rules).result =
      ((rules.mapM (outcome sheet config)).mapError LintFault.check).map fun found =>
        collector.extend found.flatten := by
  induction rules generalizing collector with
  | nil => rfl
  | cons rule rest ih =>
    rw [runRules, Traced.result_bind, runRule_eq valid, List.mapM_cons]
    cases outcome sheet config rule with
    | error fault => rfl
    | ok found =>
      change (runRules sheet config (collector.extend found) rest).result = _
      rw [ih]
      cases rest.mapM (outcome sheet config) with
      | error fault => rfl
      | ok others =>
        change Except.ok ((collector.extend found).extend others.flatten) = _
        rw [← Collector.extend_append]
        rfl

/-- A run tells the portions of the rules that it comes to, and comes to all of them unless it fails. -/
theorem trace_runRules (valid : config.check known = .ok ()) (sheet : Node Position)
    (collector : Collector) (rules : List Rule) :
    ∃ ran later, rules = ran ++ later ∧
      (runRules sheet config collector rules).trace = ran.flatMap (portion sheet config) ∧
      ∀ found, (runRules sheet config collector rules).result = .ok found → later = [] := by
  induction rules generalizing collector with
  | nil => exact ⟨[], [], rfl, rfl, fun _ _ => rfl⟩
  | cons rule rest ih =>
    rw [runRules, runRule_eq valid]
    cases outcome sheet config rule with
    | error fault =>
      refine ⟨[rule], rest, rfl, by simp [Bind.bind, Traced.bind, Except.mapError, Except.map], ?_⟩
      intro found succeeds
      cases succeeds
    | ok found =>
      obtain ⟨ran, later, rfl, told, final⟩ := ih (collector.extend found)
      refine ⟨rule :: ran, later, rfl, ?_, final⟩
      change portion sheet config rule ++ (runRules sheet config (collector.extend found) _).trace = _
      rw [told, List.flatMap_cons]

end Lint

/-- The configuration that stands for a missing one: every rule is enabled and warns. -/
def Registry.configuration (registry : Registry) (config? : Option Config) : Config :=
  config?.getD (.uniform registry.names (.int 1))

namespace Lint

variable {config : Config} {registry : Registry} {sheet : Node Position}

theorem orBuiltin_of_filled (filled : registry.rules ≠ []) : registry.orBuiltin = registry := by
  simp [Registry.orBuiltin, filled]

theorem tree_of_fault (filled : registry.rules ≠ []) {config? : Option Config} {fault : ConfigFault}
    (invalid : (registry.configuration config?).check registry.names = .error fault) :
    tree registry config? sheet = ⟨[], .error (.config fault)⟩ := by
  unfold tree
  rw [orBuiltin_of_filled filled]
  change Traced.bind (.ofExcept (((registry.configuration config?).check registry.names).mapError
    LintFault.config)) _ = _
  rw [invalid]
  rfl

theorem tree_of_valid (filled : registry.rules ≠ []) {config? : Option Config}
    (valid : (registry.configuration config?).check registry.names = .ok ()) :
    tree registry config? sheet =
      Collector.issues <$> runRules sheet (registry.configuration config?) .empty registry.rules := by
  unfold tree
  rw [orBuiltin_of_filled filled, map_eq_pure_bind]
  change Traced.bind (.ofExcept (((registry.configuration config?).check registry.names).mapError
    LintFault.config)) _ = _
  rw [valid]
  rfl

/-- What the rules of a run find is what the enabled ones detect. -/
theorem flatten_outcome {rules : List Rule} {found : Rule → List Issue}
    (returns : ∀ rule ∈ rules, config.enables rule →
      (rule.detect sheet (config.context rule)).result = .ok (found rule)) :
    ∃ outcomes, rules.mapM (outcome sheet config) = .ok outcomes ∧
      outcomes.flatten = (rules.filter config.enables).flatMap found := by
  induction rules with
  | nil => exact ⟨[], rfl, rfl⟩
  | cons rule rest ih =>
    obtain ⟨here, later⟩ := List.forall_mem_cons.mp returns
    obtain ⟨others, further, same⟩ := ih later
    by_cases enabled : config.enables rule
    · have asked : outcome sheet config rule = .ok (found rule) := by
        rw [outcome, if_pos enabled, here enabled]
      refine ⟨found rule :: others, Outcome.mapM_cons_eq_ok.mpr ⟨_, _, asked, further, rfl⟩, ?_⟩
      rw [List.flatten_cons, same, List.filter_cons_of_pos enabled, List.flatMap_cons]
    · have silent : outcome sheet config rule = .ok [] := by rw [outcome, if_neg enabled]
      refine ⟨[] :: others, Outcome.mapM_cons_eq_ok.mpr ⟨_, _, silent, further, rfl⟩, ?_⟩
      rw [List.flatten_cons, same, List.filter_cons_of_neg enabled, List.nil_append]

/-- Linting collects what the enabled rules detect, in the order of registration, and keeps the first of
any issues that are the same. Each of these rules is run once, in the context that the configuration gives
it; nothing is asked of the others, not even that they detect anything. -/
theorem tree_collects_in_order (registry : Registry) (config : Config) (sheet : Node Position)
    (filled : registry.rules ≠ []) (valid : config.check registry.names = .ok ())
    (found : Rule → List Issue)
    (returns : ∀ rule ∈ registry.rules, config.enables rule →
      (rule.detect sheet (config.context rule)).result = .ok (found rule)) :
    (tree registry (some config) sheet).result =
        .ok ((registry.rules.filter config.enables).flatMap found).eraseDups ∧
      (tree registry (some config) sheet).trace = registry.rules.flatMap (portion sheet config) ∧
      ∀ rule ∈ registry.rules, config.enables rule → config.Frames rule (config.context rule) := by
  have valid' : (registry.configuration (some config)).check registry.names = .ok () := valid
  obtain ⟨outcomes, succeeded, flat⟩ := flatten_outcome returns
  have ended : (runRules sheet config .empty registry.rules).result =
      .ok (.ofList ((registry.rules.filter config.enables).flatMap found)) := by
    rw [result_runRules valid, succeeded, ← flat]
    rfl
  obtain ⟨ran, later, split, told, final⟩ := trace_runRules valid sheet .empty registry.rules
  rw [final _ ended, List.append_nil] at split
  rw [tree_of_valid filled valid', Traced.result_map, Traced.trace_map]
  refine ⟨?_, ?_, fun rule _ => Config.frames_context valid⟩
  · change Collector.issues <$> (runRules sheet config .empty registry.rules).result = _
    rw [ended, ← Collector.issues_ofList_eq_eraseDups]
    rfl
  · rw [← split] at told
    exact told

/-- A rule that finds the same twice at the start of every sheet. -/
def twice (name : String) : Rule where
  name := name
  maker := "Twice"
  defaults := .ofList [("depth", .int 1), ("width", .int 1)]
  detect _ context := pure [context.issue ⟨1, 1⟩ "here", context.issue ⟨1, 1⟩ "here"]

/-- Of two rules the first is enabled by a truth value, and what it finds twice is reported once. -/
theorem tree_collects_in_order_of_twice :
    let registry : Registry := ⟨[twice "first", twice "second"], by decide⟩
    let config : Config :=
      { rules := .ofList [("first", .bool true)]
        options := .ofList [("first", .ofList [("depth", .int 2)])] }
    config.check registry.names = .ok () ∧
      (tree registry (some config) (.stylesheet [] ⟨1, 1⟩)).result =
        .ok [⟨"first", .warning, 1, 1, "here"⟩] := by
  intro registry config
  have valid : config.check registry.names = .ok () := by cbv
  have found := tree_collects_in_order registry config (.stylesheet [] ⟨1, 1⟩) (by simp [registry]) valid
    (fun rule => [(config.context rule).issue ⟨1, 1⟩ "here", (config.context rule).issue ⟨1, 1⟩ "here"])
    (by
      intro rule member _
      simp only [registry, List.mem_cons, List.not_mem_nil, or_false] at member
      rcases member with rfl | rfl <;> rfl)
  exact ⟨valid, found.1⟩

end Lint
end SheetLint
