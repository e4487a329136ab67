import SheetLint.Proofs.Stamping

/-! A sheet is judged ruleset by ruleset, in document order and each without regard to the others. What is
reported of it is the first of any issues that are the same, so sheets can be judged in parts, and in another
order of their statements as much is reported. -/
namespace SheetLint

namespace Check

variable {context : Context}

/-- Rulesets are judged one by one, and what is found in each is added to the rest. -/
theorem rulesets_eq (collector : Collector) (given : List (Ruleset Position)) :
    rulesets context collector given = (given.mapM (ruleset · context)).map fun found =>
      collector.extend (found.flatMap Collector.issues) := by
  induction given generalizing collector with
  | nil => rfl
  | cons first rest ih =>
    rw [rulesets, List.mapM_cons]
    cases ruleset first context with
    | error fault => rfl
    | ok found =>
      change rulesets context (collector.merge found) rest = _
      rw [ih]
      cases rest.mapM (ruleset · context) with
      | error fault => rfl
      | ok others =>
        change Except.ok ((collector.merge found).extend _) = Except.ok (collector.extend _)
        rw [List.flatMap_cons, Collector.extend_append]
        rfl

end Check

/-- What the rulesets of a sheet are found to do wrong, in their order. -/
theorem result_detect (tree : Node Position) (context : Context) :
    (accessibilityIssues.detect tree context).result =
      (tree.rulesets.mapM (Check.ruleset · context)).map fun found =>
        (found.flatMap Collector.issues).eraseDups := by
  unfold accessibilityIssues
  simp only [Traced.result_bind, Traced.result_ofExcept, Check.sheet, Check.rulesets_eq]
  cases tree.rulesets.mapM (Check.ruleset · context) with
  | error fault => rfl
  | ok found => exact congrArg Except.ok (Collector.issues_ofList_eq_eraseDups _)

/-- The rulesets of a sheet are those of its statements. -/
theorem Node.rulesets_stylesheet {α : Type} (statements : List (Node α)) (start : α) :
    (Node.stylesheet statements start).rulesets = statements.flatMap Node.rulesets := by
  rw [Node.rulesets, Node.walk_eq_cons, Node.walkFrom_eq_flatMap, List.filterMap_cons]
  change List.filterMap Node.ruleset? (statements.flatMap Node.walk) = _
  rw [List.filterMap_flatMap]
  rfl

theorem detect_append (context : Context) (first second : List (Node Position))
    (whole front back : Position) :
    (accessibilityIssues.detect (.stylesheet (first ++ second) whole) context).result = do
      let earlier ← (accessibilityIssues.detect (.stylesheet first front) context).result
      let later ← (accessibilityIssues.detect (.stylesheet second back) context).result
      return (earlier ++ later).eraseDups := by
  simp only [result_detect, Node.rulesets_stylesheet, List.flatMap_append, List.mapM_append]
  cases (first.flatMap Node.rulesets).mapM (Check.ruleset · context) with
  | error fault => rfl
  | ok earlier =>
    cases (second.flatMap Node.rulesets).mapM (Check.ruleset · context) with
    | error fault => rfl
    | ok later =>
      change Except.ok ((earlier ++ later).flatMap Collector.issues).eraseDups = Except.ok
        ((earlier.flatMap Collector.issues).eraseDups ++
          (later.flatMap Collector.issues).eraseDups).eraseDups
      rw [List.flatMap_append, Collector.eraseDups_append_eraseDups]

theorem detect_perm {context : Context} {first second : List (Node Position)} {issues : List Issue}
    (front back : Position) (same : first.Perm second)
    (detected : (accessibilityIssues.detect (.stylesheet first front) context).result = .ok issues) :
    ∃ others, (accessibilityIssues.detect (.stylesheet second back) context).result = .ok others ∧
      others.Perm issues := by
  rw [result_detect, Node.rulesets_stylesheet] at detected
  cases succeeded : (first.flatMap Node.rulesets).mapM (Check.ruleset · context) with
  | error fault =>
    rw [succeeded] at detected
    cases detected
  | ok found =>
    rw [succeeded] at detected
    cases detected
    obtain ⟨others, again, reordered⟩ :=
      Outcome.mapM_perm (same.flatMap_right Node.rulesets) succeeded
    refine ⟨(others.flatMap Collector.issues).eraseDups, ?_, ?_⟩
    · rw [result_detect, Node.rulesets_stylesheet, again]
      rfl
    · exact Repeats.eraseDups_perm (reordered.flatMap_right _)

/-- Rulesets are judged apart. What is detected in a sheet is what its rulesets are found to do wrong one by
one, in document order at whatever depth they are, and the first only of any issues that are the same. So a
sheet can be cut into two, judged in parts and put together again; and a sheet with its statements in another
order has the same issues. -/
theorem detect_gathers_rulesets (context : Context) :
    (∀ tree : Node Position, (accessibilityIssues.detect tree context).result = do
      let found ← (tree.preorder.filterMap Node.ruleset?).mapM (Check.ruleset · context)
      return (found.flatMap Collector.issues).eraseDups) ∧
    (∀ (first second : List (Node Position)) (whole front back : Position),
      (accessibilityIssues.detect (.stylesheet (first ++ second) whole) context).result = do
        let earlier ← (accessibilityIssues.detect (.stylesheet first front) context).result
        let later ← (accessibilityIssues.detect (.stylesheet second back) context).result
        return (earlier ++ later).eraseDups) ∧
    ∀ (first second : List (Node Position)) (front back : Position) (issues : List Issue),
      first.Perm second →
      (accessibilityIssues.detect (.stylesheet first front) context).result = .ok issues →
      ∃ others, (accessibilityIssues.detect (.stylesheet second back) context).result = .ok others ∧
        others.Perm issues := by
  refine ⟨fun tree => ?_, detect_append context, fun first second front back issues => ?_⟩
  · rw [result_detect, Node.rulesets, Node.walk_eq_preorder]
    cases (tree.preorder.filterMap Node.ruleset?).mapM (Check.ruleset · context) <;> rfl
  · exact detect_perm front back

/-- A ruleset and one inside an at-rule find as much the other way round. -/
theorem detect_gathers_rulesets_of_two :
    let context : Context := ⟨"rule", .warning, .empty⟩
    let hides (property : String) : Node Position := .ruleset []
      (.block [.declaration property (.value [.leaf (.ident "none") ⟨1, 11⟩] ⟨1, 11⟩) ⟨1, 3⟩] ⟨1, 2⟩)
      ⟨1, 1⟩
    let statements := [hides "outline", .atRule "media" "print" (.block [hides "display"] ⟨2, 1⟩) ⟨2, 1⟩]
    ∃ issues, issues.length = 2 ∧
      (accessibilityIssues.detect (.stylesheet statements ⟨1, 1⟩) context).result = .ok issues ∧
      ∃ others, others.Perm issues ∧
        (accessibilityIssues.detect (.stylesheet statements.reverse ⟨1, 1⟩) context).result =
          .ok others := by
  intro context hides statements
  have detected : (accessibilityIssues.detect (.stylesheet statements ⟨1, 1⟩) context).result = .ok
      [context.issue ⟨1, 3⟩ "Outline should not be hidden", context.issue ⟨1, 3⟩
        "Content hidden by setting 'display' to 'none' is not available to assistive technology"] := by
    rw [result_detect, Node.rulesets, Node.walk_eq_preorder]
    rfl
  obtain ⟨others, again, reordered⟩ := (detect_gathers_rulesets context).2.2 statements
    statements.reverse ⟨1, 1⟩ ⟨1, 1⟩ _ (List.reverse_perm statements).symm detected
  exact ⟨_, rfl, detected, others, reordered, again⟩

end SheetLint
