import SheetLint.Proofs.Repeats
import SheetLint.Proofs.Walk

/-! What a context does to the findings of a rule: it puts its name and its severity on them, and nothing
else. Every check finds in one context what it finds in another, under another stamp; so does a whole sheet,
since issues under one stamp are the same where they are the same under another. -/
namespace SheetLint

namespace Context

/-- An issue under the name and the severity of a context. -/
def restamp (context : Context) (issue : Issue) : Issue :=
  { issue with ruleId := context.ruleId, severity := context.severity }

/-- A context has put its name and its severity on an issue. -/
def Stamps (context : Context) (issue : Issue) : Prop :=
  issue.ruleId = context.ruleId ∧ issue.severity = context.severity

theorem stamps_restamp (context : Context) (issue : Issue) : context.Stamps (context.restamp issue) :=
  ⟨rfl, rfl⟩

theorem restamp_of_stamps {context : Context} {issue : Issue} (stamped : context.Stamps issue) :
    context.restamp issue = issue := by
  obtain ⟨ruleId, severity, line, column, message⟩ := issue
  obtain ⟨rfl, rfl⟩ := stamped
  rfl

/-- Issues under one stamp are the same where they are under another. -/
theorem restamp_inj {first second : Context} {one other : Issue} (stamped : first.Stamps one)
    (stamped' : first.Stamps other) (same : second.restamp one = second.restamp other) :
    one = other := by
  rw [← restamp_of_stamps stamped, ← restamp_of_stamps stamped']
  change first.restamp (second.restamp one) = first.restamp (second.restamp other)
  rw [same]

end Context

namespace Check

variable (first second : Context) {flags : InteractionFlags} {declaration : Declaration Position}

/-- A check that passes over some declarations goes with the stamp where it does for the others. -/
theorem passing_restamp {passes : Prop} [Decidable passes] {asked : Except Foreign String}
    {report other : String → Except Foreign (List Issue)}
    (changed : ∀ value, other value = (report value).map (List.map second.restamp)) :
    (if passes then pure [] else asked >>= other) =
      (if passes then pure [] else asked >>= report).map (List.map second.restamp) := by
  split
  · rfl
  · exact Outcome.bind_changed changed

theorem generatedContent_restamp : generatedContent declaration flags second =
    (generatedContent declaration flags first).map (List.map second.restamp) :=
  passing_restamp second fun value => by split <;> rfl

theorem absolutePosition_restamp : absolutePosition declaration flags second =
    (absolutePosition declaration flags first).map (List.map second.restamp) :=
  passing_restamp second fun value => by split <;> rfl

theorem hiddenOutline_restamp : hiddenOutline declaration flags second =
    (hiddenOutline declaration flags first).map (List.map second.restamp) :=
  passing_restamp second fun value => by split <;> rfl

theorem hiddenContent_restamp : hiddenContent declaration flags second =
    (hiddenContent declaration flags first).map (List.map second.restamp) := by
  unfold hiddenContent
  exact Outcome.bind_changed fun value => by split <;> rfl

theorem relativeUnits_restamp : relativeUnits declaration flags second =
    (relativeUnits declaration flags first).map (List.map second.restamp) := by
  unfold relativeUnits
  split
  · rfl
  · simp only [Except.map, List.map_map]
    rfl

/-- Each check finds in one context what it finds in another, under the stamp of the one. -/
theorem check_restamp {check : DeclarationCheck} (member : check ∈ declarationChecks) :
    check declaration flags second =
      (check declaration flags first).map (List.map second.restamp) := by
  simp only [declarationChecks, List.mem_cons, List.not_mem_nil, or_false] at member
  rcases member with rfl | rfl | rfl | rfl | rfl
  · exact generatedContent_restamp first second
  · exact absolutePosition_restamp first second
  · exact hiddenOutline_restamp first second
  · exact hiddenContent_restamp first second
  · exact relativeUnits_restamp first second

theorem checked_restamp : checked flags second declaration =
    (checked flags first declaration).map (List.map (List.map second.restamp)) :=
  Outcome.mapM_changed fun _ member => check_restamp first second member

theorem dependence_restamp {given : Ruleset Position} :
    dependence second given = (dependence first given).map second.restamp := by
  unfold dependence
  split <;> rfl

theorem pairingIssues_restamp {block : Node Position} {pairing : Pairing} :
    pairingIssues block pairing second =
      (pairingIssues block pairing first).map (List.map second.restamp) := by
  unfold pairingIssues
  refine Outcome.bind_changed fun complaint => ?_
  cases complaint with
  | none => rfl
  | some message => cases block.start? <;> rfl

theorem parts_restamp {given : Ruleset Position} :
    parts second given = (parts first given).map (List.map (List.map second.restamp)) := by
  unfold parts
  dsimp only
  rw [Outcome.mapM_changed fun _ _ => checked_restamp first second, Outcome.mapError_map]
  refine Outcome.map_bind_changed fun found => Outcome.bind_changed fun pairing => ?_
  rw [pairingIssues_restamp first second, Outcome.mapError_map]
  refine Outcome.map_bind_changed fun colors => ?_
  rw [dependence_restamp first second]
  simp [Except.map, pure, Except.pure, List.map_flatten]

theorem findings_restamp (tree : Node Position) :
    findings second tree = (findings first tree).map (List.map (List.map second.restamp)) := by
  unfold findings
  rw [Outcome.mapM_changed fun _ _ => parts_restamp first second]
  refine Outcome.map_bind_changed fun found => ?_
  simp [Except.map, pure, Except.pure, List.map_flatten]

variable {context : Context} {tree : Node Position} {found : List (List Issue)}

theorem stamps_of_findings (succeeded : findings context tree = .ok found) :
    ∀ issue ∈ found.flatten, context.Stamps issue := by
  have same : found.map (List.map context.restamp) = found := by
    have changed := findings_restamp context context tree
    rw [succeeded] at changed
    exact (Except.ok.inj changed).symm
  intro issue member
  rw [← same, ← List.map_flatten] at member
  obtain ⟨other, _, rfl⟩ := List.mem_map.mp member
  exact context.stamps_restamp other

end Check

variable {tree : Node Position} {context : Context} {issues : List Issue}

theorem stamps_of_detect (detected : (accessibilityIssues.detect tree context).result = .ok issues) :
    ∀ issue ∈ issues, context.Stamps issue := by
  obtain ⟨found, succeeded, rfl⟩ := detect_eq_ok.mp detected
  intro issue member
  rw [Collector.issues_ofList_eq_eraseDups, List.mem_eraseDups] at member
  exact Check.stamps_of_findings succeeded issue member

/-- What is detected in one context is detected in another one, under the stamp of that. -/
theorem detect_restamp (detected : (accessibilityIssues.detect tree context).result = .ok issues)
    (other : Context) :
    (accessibilityIssues.detect tree other).result = .ok (issues.map other.restamp) := by
  obtain ⟨found, succeeded, rfl⟩ := detect_eq_ok.mp detected
  have stamped := Check.stamps_of_findings succeeded
  have changed := Check.findings_restamp context other tree
  rw [succeeded] at changed
  refine detect_eq_ok.mpr ⟨_, changed, ?_⟩
  rw [← List.map_flatten, Collector.issues_ofList_eq_eraseDups, Collector.issues_ofList_eq_eraseDups]
  refine (Repeats.eraseDups_map fun one first another second => ?_).symm
  exact Context.restamp_inj (stamped one first) (stamped another second)

/-- What is logged of a detection is the number of its issues. -/
theorem detect_eq (detected : (accessibilityIssues.detect tree context).result = .ok issues) :
    accessibilityIssues.detect tree context =
      ⟨[.found "accessibility-issues" issues.length], .ok issues⟩ := by
  obtain ⟨collector, judged, noted⟩ := Traced.result_bind_eq_ok.mp detected
  obtain ⟨_, _, same⟩ := Traced.result_bind_eq_ok.mp noted
  cases same
  unfold accessibilityIssues
  change Traced.bind (.ofExcept (Check.sheet tree context)) _ = _
  rw [show Check.sheet tree context = .ok collector from judged]
  rfl

/-- The context of the rule stamps its issues and does nothing else. What is detected in one context is
detected in every other one, place by place and word for word, under the name and the severity of that; the
options of a context change nothing. -/
theorem detect_stamps (tree : Node Position) (first second : Context) (issues : List Issue)
    (detected : (accessibilityIssues.detect tree first).result = .ok issues) :
    ∃ others, (accessibilityIssues.detect tree second).result = .ok others ∧
      List.Forall₂ (fun one other => one.line = other.line ∧ one.column = other.column ∧
        one.message = other.message) issues others ∧
      (∀ issue ∈ issues, issue.ruleId = first.ruleId ∧ issue.severity = first.severity) ∧
      (∀ issue ∈ others, issue.ruleId = second.ruleId ∧ issue.severity = second.severity) ∧
      ∀ options, accessibilityIssues.detect tree { first with options } =
        accessibilityIssues.detect tree first := by
  have restamped := detect_restamp detected second
  refine ⟨issues.map second.restamp, restamped, ?_, stamps_of_detect detected,
    stamps_of_detect restamped, fun options => ?_⟩
  · rw [List.forall₂_map_right_iff, List.forall₂_same]
    exact fun issue _ => ⟨rfl, rfl, rfl⟩
  · -- A change of options changes no stamp, and the issues bear theirs already.
    have same : issues.map ({ first with options } : Context).restamp = issues := by
      refine (List.map_congr_left fun issue member => ?_).trans (List.map_id issues)
      exact Context.restamp_of_stamps (stamps_of_detect detected issue member)
    have again := detect_restamp detected { first with options }
    rw [same] at again
    rw [detect_eq detected, detect_eq again]

/-- A sheet of two rulesets in one place, which hide the outline alike. -/
def outlines : Node Position :=
  let body : Node Position := .block
    [.declaration "outline" (.value [.leaf (.ident "none") ⟨1, 11⟩] ⟨1, 11⟩) ⟨1, 3⟩] ⟨1, 2⟩
  .stylesheet [.ruleset [] body ⟨1, 1⟩, .ruleset [] body ⟨1, 1⟩] ⟨1, 1⟩

theorem detect_outlines : (accessibilityIssues.detect outlines ⟨"first", .warning, .empty⟩).result =
    .ok [⟨"first", .warning, 1, 3, "Outline should not be hidden"⟩] := by
  unfold accessibilityIssues
  simp only [Check.sheet, Node.rulesets, Node.walk_eq_preorder, Traced.result_bind]
  rfl

/-- What the two rulesets have in common is reported once, in either context. -/
theorem detect_stamps_of_outlines :
    let second : Context := ⟨"second", .error, .ofList [("global", .list [])]⟩
    let issues : List Issue := [⟨"first", .warning, 1, 3, "Outline should not be hidden"⟩]
    (accessibilityIssues.detect outlines ⟨"first", .warning, .empty⟩).result = .ok issues ∧
      ∃ others, (accessibilityIssues.detect outlines second).result = .ok others ∧
        List.Forall₂ (fun one other => one.line = other.line ∧ one.column = other.column ∧
          one.message = other.message) issues others ∧
        ∀ issue ∈ others, issue.ruleId = "second" ∧ issue.severity = .error := by
  intro second issues
  obtain ⟨others, again, alike, _, stamped, _⟩ :=
    detect_stamps outlines ⟨"first", .warning, .empty⟩ second issues detect_outlines
  exact ⟨detect_outlines, others, again, alike, stamped⟩

end SheetLint
