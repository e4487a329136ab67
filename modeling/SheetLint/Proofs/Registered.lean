import SheetLint.Proofs.Running
import SheetLint.Proofs.Walk

/-! Which rules a run can come to: those of the registry that is passed, and those of the built-in one where
that has none. -/
namespace SheetLint

/-- A rule builds its issues in the context that it is given. -/
def Rule.Stamps (rule : Rule) : Prop :=
  ∀ sheet context found, (rule.detect sheet context).result = .ok found →
    ∀ issue ∈ found, ∃ place message, issue = context.issue place message

namespace Lint

variable {registry : Registry} {config? : Option Config} {sheet : Node Position}

/-- A run keeps to the rules of a registry: the configuration is checked against their names, some first
ones of them are run, and rules that build their issues in their context are the only ones named in them. -/
structure Within (registry : Registry) (config? : Option Config) (sheet : Node Position)
    (run : Traced Event LintFault (List Issue)) : Prop where
  checked : ∀ fault, run.result = .error (.config fault) ↔
    (registry.configuration config?).check registry.names = .error fault
  ran : ∃ ran, ran <+: registry.rules ∧
    run.trace = ran.flatMap (portion sheet (registry.configuration config?))
  named : (∀ rule ∈ registry.rules, rule.Stamps) →
    ∀ issues, run.result = .ok issues → ∀ issue ∈ issues, issue.ruleId ∈ registry.names

theorem mem_names {rule : Rule} (member : rule ∈ registry.rules) : rule.name ∈ registry.names :=
  List.mem_mergeSort.mpr (List.mem_map_of_mem member)

/-- What a run collects has been found by one of its rules. -/
theorem exists_outcome_of_mem {config : Config} {known : List String}
    (valid : config.check known = .ok ()) {rules : List Rule} {collector : Collector}
    (ended : (runRules sheet config .empty rules).result = .ok collector) {issue : Issue}
    (member : issue ∈ collector.issues) :
    ∃ rule ∈ rules, ∃ found, outcome sheet config rule = .ok found ∧ issue ∈ found := by
  rw [result_runRules valid] at ended
  cases succeeded : rules.mapM (outcome sheet config) with
  | error fault =>
    rw [succeeded] at ended
    cases ended
  | ok outcomes =>
    rw [succeeded] at ended
    cases ended
    rcases Collector.mem_extend.mp member with none | found
    · cases none
    · obtain ⟨part, present, inside⟩ := List.mem_flatten.mp found
      obtain ⟨rule, registered, asked⟩ := Outcome.exists_of_mem_mapM succeeded present
      exact ⟨rule, registered, part, asked, inside⟩

theorem ruleId_of_outcome {config : Config} {rule : Rule} {found : List Issue} (stamps : rule.Stamps)
    (asked : outcome sheet config rule = .ok found) : ∀ issue ∈ found, issue.ruleId = rule.name := by
  intro issue member
  unfold outcome at asked
  split at asked
  · obtain ⟨place, message, rfl⟩ := stamps _ _ _ asked issue member
    rfl
  · cases asked
    cases member

theorem within_of_filled (filled : registry.rules ≠ []) :
    Within registry config? sheet (tree registry config? sheet) := by
  cases checked : (registry.configuration config?).check registry.names with
  | error fault =>
    rw [tree_of_fault filled checked]
    refine ⟨fun other => ?_, ⟨[], List.nil_prefix, rfl⟩, fun _ _ ended => ?_⟩
    · rw [checked]
      constructor <;> intro same <;> cases same <;> rfl
    · cases ended
  | ok =>
    obtain ⟨ran, later, split, told, _⟩ :=
      trace_runRules checked sheet .empty registry.rules
    rw [tree_of_valid filled checked]
    refine ⟨fun fault => ?_, ⟨ran, ⟨later, split.symm⟩, ?_⟩, ?_⟩
    · rw [checked, Traced.result_map, result_runRules checked]
      cases registry.rules.mapM (outcome sheet (registry.configuration config?)) <;>
        constructor <;> intro same <;> cases same
    · rw [Traced.trace_map, told]
    · intro stamped issues ended issue member
      rw [Traced.result_map] at ended
      cases collected : (runRules sheet (registry.configuration config?) .empty registry.rules).result with
      | error fault =>
        rw [collected] at ended
        cases ended
      | ok collector =>
        rw [collected] at ended
        cases ended
        obtain ⟨rule, registered, found, asked, inside⟩ := exists_outcome_of_mem checked collected member
        rw [ruleId_of_outcome (stamped rule registered) asked issue inside]
        exact mem_names registered

theorem tree_of_empty (empty : registry.rules = []) :
    tree registry config? sheet = tree .builtin config? sheet := by
  simp only [tree, Registry.orBuiltin, empty]
  rfl

/-- A run keeps to the rules of its registry, but a registry without rules stands for the built-in ones:
the run then keeps to those. -/
theorem tree_within (registry : Registry) (config? : Option Config) (sheet : Node Position) :
    (registry.rules ≠ [] → Within registry config? sheet (tree registry config? sheet)) ∧
      (registry.rules = [] → Within .builtin config? sheet (tree registry config? sheet)) := by
  refine ⟨within_of_filled, ?_⟩
  intro empty
  rw [tree_of_empty empty]
  exact within_of_filled (List.cons_ne_nil _ _)

/-- A registry of one rule: what it reports is under its own name, which the registry knows. -/
theorem tree_within_of_twice :
    let registry : Registry := ⟨[twice "first"], by decide⟩
    registry.rules ≠ [] ∧ (∀ rule ∈ registry.rules, rule.Stamps) ∧
      ∀ issues, (tree registry none (.stylesheet [] ⟨1, 1⟩)).result = .ok issues →
        ∀ issue ∈ issues, issue.ruleId ∈ registry.names := by
  intro registry
  have stamped : ∀ rule ∈ registry.rules, rule.Stamps := by
    intro rule member sheet context found detected issue present
    obtain rfl : rule = twice "first" := by simpa [registry] using member
    cases detected
    exact ⟨⟨1, 1⟩, "here", by simpa using present⟩
  have filled : registry.rules ≠ [] := List.cons_ne_nil _ _
  exact ⟨filled, stamped, ((tree_within registry none _).1 filled).named stamped⟩

/-- A run for a registry without rules reports an issue of a rule that the registry does not know. -/
theorem tree_of_empty_reports :
    ∃ sheet issue, (tree .empty none sheet).result = .ok [issue] ∧
      issue.ruleId ∉ Registry.empty.names := by
  let body : Node Position := .block
    [.declaration "outline" (.value [.leaf (.ident "none") ⟨1, 11⟩] ⟨1, 11⟩) ⟨1, 3⟩] ⟨1, 2⟩
  let sheet : Node Position := .stylesheet [.ruleset [] body ⟨1, 1⟩] ⟨1, 1⟩
  let context : Context := Config.context (Registry.builtin.configuration none) accessibilityIssues
  have rulesets : sheet.rulesets = [⟨[], body, ⟨1, 1⟩⟩] := by
    simp only [sheet, body, Node.rulesets, Node.walk, Node.walkFrom_cons, Node.walkFrom_nil,
      Node.children, List.nil_append, List.append_nil]
    rfl
  have detected : (accessibilityIssues.detect sheet context).result =
      .ok [context.issue ⟨1, 3⟩ "Outline should not be hidden"] := by
    unfold accessibilityIssues
    simp only [Check.sheet, rulesets, Traced.result_bind]
    rfl
  have names : Registry.builtin.names = [accessibilityIssues.name] := List.mergeSort_singleton _
  have valid : (Registry.builtin.configuration none).check Registry.builtin.names = .ok () := by
    rw [Registry.configuration, names]
    rfl
  have enabled : (Registry.builtin.configuration none).enables accessibilityIssues := by
    rw [Registry.configuration, names]
    rfl
  have asked : outcome sheet (Registry.builtin.configuration none) accessibilityIssues = .ok _ :=
    (if_pos enabled).trans detected
  have succeeded : Registry.builtin.rules.mapM
      (outcome sheet (Registry.builtin.configuration none)) = .ok [_] :=
    Outcome.mapM_cons_eq_ok.mpr ⟨_, [], asked, rfl, rfl⟩
  refine ⟨sheet, context.issue ⟨1, 3⟩ "Outline should not be hidden", ?_, ?_⟩
  · rw [tree_of_empty rfl, tree_of_valid (List.cons_ne_nil _ _) valid, Traced.result_map,
      result_runRules valid, succeeded]
    rfl
  · simp [Registry.names, Registry.order, Registry.empty, sortNames]

end Lint
end SheetLint
