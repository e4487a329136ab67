import SheetLint.Proofs.Outcome
import SheetLint.Rule.Basic

/-! What a sheet is found to do wrong, put together from its parts without collectors. The collectors of
a run pick the first of any that are the same, as one collector does that is given all of them in order. -/
namespace SheetLint

namespace Collector

variable {collector : Collector}

theorem add_of_mem {issue : Issue} (present : issue ∈ collector.issues) :
    collector.add issue = collector := by
  rw [add, dif_pos present]

theorem issues_add_of_not_mem {issue : Issue} (absent : issue ∉ collector.issues) :
    (collector.add issue).issues = collector.issues ++ [issue] := by
  rw [add, dif_neg absent]

theorem extend_cons (issue : Issue) (issues : List Issue) :
    collector.extend (issue :: issues) = (collector.add issue).extend issues := rfl

theorem mem_extend {issue : Issue} {issues : List Issue} :
    issue ∈ (collector.extend issues).issues ↔ issue ∈ collector.issues ∨ issue ∈ issues := by
  induction issues generalizing collector with
  | nil => simp [extend_nil]
  | cons first rest ih => rw [extend_cons, ih, mem_add, List.mem_cons, or_assoc]

/-- What is collected elsewhere on the way makes no difference. -/
theorem extend_issues_extend (other : Collector) (issues : List Issue) :
    collector.extend (other.extend issues).issues =
      (collector.extend other.issues).extend issues := by
  induction issues generalizing other with
  | nil => rfl
  | cons issue rest ih =>
    rw [extend_cons, ih, extend_cons]
    congr 1
    by_cases present : issue ∈ other.issues
    · rw [add_of_mem present, add_of_mem (mem_extend.mpr (.inr present))]
    · rw [issues_add_of_not_mem present, extend_append]
      rfl

theorem merge_ofList (issues : List Issue) :
    collector.merge (ofList issues) = collector.extend issues :=
  extend_issues_extend empty issues

theorem ofList_merge_ofList (first second : List Issue) :
    (ofList first).merge (ofList second) = ofList (first ++ second) := by
  rw [merge_ofList, ofList, ofList, extend_append]

theorem issues_extend {issues : List Issue} (distinct : (collector.issues ++ issues).Nodup) :
    (collector.extend issues).issues = collector.issues ++ issues := by
  induction issues generalizing collector with
  | nil => simp [extend_nil]
  | cons issue rest ih =>
    have absent : issue ∉ collector.issues := by
      intro present
      exact (List.nodup_append.mp distinct).2.2 issue present issue List.mem_cons_self rfl
    have same := issues_add_of_not_mem absent
    rw [List.append_cons, ← same] at distinct
    rw [extend_cons, ih distinct, same, List.append_assoc, List.singleton_append]

/-- Nothing is lost of issues of which no two are the same. -/
theorem issues_ofList {issues : List Issue} (distinct : issues.Nodup) :
    (ofList issues).issues = issues := by
  exact issues_extend (by simpa [empty] using distinct)

end Collector

namespace Check

/-- What each check finds in a declaration. -/
def checked (flags : InteractionFlags) (context : Context) (declaration : Declaration Position) :
    Except Foreign (List (List Issue)) :=
  declarationChecks.mapM fun check => check declaration flags context

/-- What is found in the selectors of a ruleset. -/
def dependence (context : Context) (given : Ruleset Position) : List Issue :=
  if (InteractionFlags.ofSelectors given.selectors).isDeviceDependent then
    [context.issue given.start deviceDependence]
  else []

/-- What is found in a ruleset, part by part: in its selectors, in each declaration by each check, and
in its two colours. -/
def parts (context : Context) (given : Ruleset Position) : Except Fault (List (List Issue)) := do
  let flags := InteractionFlags.ofSelectors given.selectors
  let found ← (given.block.declarations.mapM (checked flags context)).mapError Fault.foreign
  let pairing ← (given.block.declarations.foldlM Pairing.update {}).mapError Fault.color
  let colors ← (pairingIssues given.block pairing context).mapError Fault.color
  return dependence context given :: found.flatten ++ [colors]

/-- What is found in all rulesets of a tree, part by part. -/
def findings (context : Context) (tree : Node Position) : Except Fault (List (List Issue)) := do
  let found ← tree.rulesets.mapM (parts context)
  return found.flatten

variable {context : Context} {flags : InteractionFlags}

theorem runChecks_eq_ok {declaration : Declaration Position} {checks : List DeclarationCheck}
    {before after : Collector} :
    runChecks declaration flags context before checks = .ok after ↔
      ∃ found, checks.mapM (fun check => check declaration flags context) = .ok found ∧
        after = before.extend found.flatten := by
  induction checks generalizing before with
  | nil =>
    constructor
    · intro same
      cases same
      exact ⟨[], rfl, rfl⟩
    · intro holds
      obtain ⟨_, same, rfl⟩ := holds
      cases same
      rfl
  | cons check rest ih =>
    rw [runChecks, Outcome.bind_eq_ok]
    constructor
    · intro holds
      obtain ⟨issues, first, further⟩ := holds
      obtain ⟨found, others, rfl⟩ := ih.mp further
      refine ⟨issues :: found, Outcome.mapM_cons_eq_ok.mpr ⟨issues, found, first, others, rfl⟩, ?_⟩
      rw [List.flatten_cons, Collector.extend_append]
    · intro holds
      obtain ⟨_, succeeds, rfl⟩ := holds
      obtain ⟨issues, found, first, others, rfl⟩ := Outcome.mapM_cons_eq_ok.mp succeeds
      refine ⟨issues, first, ih.mpr ⟨found, others, ?_⟩⟩
      rw [List.flatten_cons, Collector.extend_append]

/-- Declarations are checked without regard to the colours that they set. -/
theorem runDeclarations_eq_ok {declarations : List (Declaration Position)} {before after : Collector}
    {first last : Pairing} :
    runDeclarations flags context before first declarations = .ok (after, last) ↔
      declarations.foldlM Pairing.update first = .ok last ∧
      ∃ found, declarations.mapM (checked flags context) = .ok found ∧
        after = before.extend found.flatten.flatten := by
  induction declarations generalizing before first with
  | nil =>
    constructor
    · intro same
      cases same
      exact ⟨rfl, [], rfl, rfl⟩
    · intro holds
      obtain ⟨same, _, none, rfl⟩ := holds
      cases same
      cases none
      rfl
  | cons declaration rest ih =>
    rw [runDeclarations, Outcome.bind_eq_ok, List.foldlM_cons, Outcome.bind_eq_ok]
    constructor
    · intro holds
      obtain ⟨pairing, updated, further⟩ := holds
      obtain ⟨collector, ran, further⟩ := Outcome.bind_eq_ok.mp further
      obtain ⟨issues, found, rfl⟩ := runChecks_eq_ok.mp (Outcome.mapError_eq_ok.mp ran)
      obtain ⟨paired, others, succeeded, rfl⟩ := ih.mp further
      refine ⟨⟨pairing, Outcome.mapError_eq_ok.mp updated, paired⟩, issues :: others,
        Outcome.mapM_cons_eq_ok.mpr ⟨issues, others, found, succeeded, rfl⟩, ?_⟩
      rw [List.flatten_cons, List.flatten_append, Collector.extend_append]
    · intro holds
      obtain ⟨⟨pairing, updated, paired⟩, _, succeeds, rfl⟩ := holds
      obtain ⟨issues, others, found, succeeded, rfl⟩ := Outcome.mapM_cons_eq_ok.mp succeeds
      refine ⟨pairing, Outcome.mapError_eq_ok.mpr updated, ?_⟩
      refine Outcome.bind_eq_ok.mpr ⟨before.extend issues.flatten, ?_, ?_⟩
      · exact Outcome.mapError_eq_ok.mpr (runChecks_eq_ok.mpr ⟨issues, found, rfl⟩)
      · refine ih.mpr ⟨paired, others, succeeded, ?_⟩
        rw [List.flatten_cons, List.flatten_append, Collector.extend_append]

theorem parts_eq_ok {given : Ruleset Position} {parts : List (List Issue)} :
    Check.parts context given = .ok parts ↔
      ∃ found pairing colors,
        given.block.declarations.mapM
          (checked (InteractionFlags.ofSelectors given.selectors) context) = .ok found ∧
        given.block.declarations.foldlM Pairing.update {} = .ok pairing ∧
        pairingIssues given.block pairing context = .ok colors ∧
        parts = dependence context given :: found.flatten ++ [colors] := by
  unfold Check.parts
  constructor
  · intro succeeds
    obtain ⟨found, succeeded, succeeds⟩ := Outcome.bind_eq_ok.mp succeeds
    obtain ⟨pairing, paired, succeeds⟩ := Outcome.bind_eq_ok.mp succeeds
    obtain ⟨colors, judged, same⟩ := Outcome.bind_eq_ok.mp succeeds
    cases same
    exact ⟨found, pairing, colors, Outcome.mapError_eq_ok.mp succeeded,
      Outcome.mapError_eq_ok.mp paired, Outcome.mapError_eq_ok.mp judged, rfl⟩
  · intro holds
    obtain ⟨found, pairing, colors, succeeded, paired, judged, rfl⟩ := holds
    refine Outcome.bind_eq_ok.mpr ⟨found, Outcome.mapError_eq_ok.mpr succeeded, ?_⟩
    refine Outcome.bind_eq_ok.mpr ⟨pairing, Outcome.mapError_eq_ok.mpr paired, ?_⟩
    exact Outcome.bind_eq_ok.mpr ⟨colors, Outcome.mapError_eq_ok.mpr judged, rfl⟩

/-- A ruleset is judged by collecting its parts. -/
theorem ruleset_eq_ok {given : Ruleset Position} {collector : Collector} :
    ruleset given context = .ok collector ↔
      ∃ found, parts context given = .ok found ∧ collector = .ofList found.flatten := by
  have collected (colors : List Issue) (found : List (List (List Issue))) :
      ((Collector.ofList (dependence context given)).merge
        (Collector.empty.extend found.flatten.flatten)).extend colors =
        .ofList (dependence context given :: found.flatten ++ [colors]).flatten := by
    change ((Collector.ofList (dependence context given)).merge
      (.ofList found.flatten.flatten)).extend colors = _
    rw [Collector.ofList_merge_ofList, Collector.ofList, ← Collector.extend_append]
    simp [Collector.ofList]
  simp only [parts_eq_ok]
  unfold ruleset
  constructor
  · intro succeeds
    obtain ⟨⟨_, pairing⟩, ran, succeeds⟩ := Outcome.bind_eq_ok.mp succeeds
    obtain ⟨colors, judged, same⟩ := Outcome.bind_eq_ok.mp succeeds
    cases same
    obtain ⟨paired, found, succeeded, rfl⟩ := runDeclarations_eq_ok.mp ran
    exact ⟨_, ⟨found, pairing, colors, succeeded, paired, Outcome.mapError_eq_ok.mp judged, rfl⟩,
      collected _ _⟩
  · intro holds
    obtain ⟨_, ⟨found, pairing, colors, succeeded, paired, judged, rfl⟩, rfl⟩ := holds
    rw [← collected]
    refine Outcome.bind_eq_ok.mpr ⟨(Collector.empty.extend found.flatten.flatten, pairing), ?_, ?_⟩
    · exact runDeclarations_eq_ok.mpr ⟨paired, found, succeeded, rfl⟩
    · exact Outcome.bind_eq_ok.mpr ⟨colors, Outcome.mapError_eq_ok.mpr judged, rfl⟩

theorem rulesets_eq_ok {given : List (Ruleset Position)} {before after : Collector} :
    rulesets context before given = .ok after ↔
      ∃ found, given.mapM (parts context) = .ok found ∧ after = before.extend found.flatten.flatten := by
  induction given generalizing before with
  | nil =>
    constructor
    · intro same
      cases same
      exact ⟨[], rfl, rfl⟩
    · intro holds
      obtain ⟨_, none, rfl⟩ := holds
      cases none
      rfl
  | cons first rest ih =>
    rw [rulesets, Outcome.bind_eq_ok]
    constructor
    · intro holds
      obtain ⟨_, judged, further⟩ := holds
      obtain ⟨found, here, rfl⟩ := ruleset_eq_ok.mp judged
      obtain ⟨others, later, rfl⟩ := ih.mp further
      refine ⟨found :: others, Outcome.mapM_cons_eq_ok.mpr ⟨found, others, here, later, rfl⟩, ?_⟩
      rw [Collector.merge_ofList, List.flatten_cons, List.flatten_append, Collector.extend_append]
    · intro holds
      obtain ⟨_, succeeds, rfl⟩ := holds
      obtain ⟨found, others, here, later, rfl⟩ := Outcome.mapM_cons_eq_ok.mp succeeds
      refine ⟨_, ruleset_eq_ok.mpr ⟨found, here, rfl⟩, ih.mpr ⟨others, later, ?_⟩⟩
      rw [Collector.merge_ofList, List.flatten_cons, List.flatten_append, Collector.extend_append]

/-- A sheet is judged by collecting all its findings. -/
theorem sheet_eq_ok {tree : Node Position} {collector : Collector} :
    sheet tree context = .ok collector ↔
      ∃ found, findings context tree = .ok found ∧ collector = .ofList found.flatten := by
  rw [sheet, rulesets_eq_ok, findings]
  constructor
  · intro holds
    obtain ⟨found, succeeded, rfl⟩ := holds
    exact ⟨found.flatten, Outcome.bind_eq_ok.mpr ⟨found, succeeded, rfl⟩, rfl⟩
  · intro holds
    obtain ⟨_, succeeds, rfl⟩ := holds
    obtain ⟨found, succeeded, same⟩ := Outcome.bind_eq_ok.mp succeeds
    cases same
    exact ⟨found, succeeded, rfl⟩

end Check

/-- The rule reports what it finds, and the first only of any that are the same. -/
theorem detect_eq_ok {tree : Node Position} {context : Context} {issues : List Issue} :
    (accessibilityIssues.detect tree context).result = .ok issues ↔
      ∃ found, Check.findings context tree = .ok found ∧
        issues = (Collector.ofList found.flatten).issues := by
  constructor
  · intro detected
    obtain ⟨collector, judged, noted⟩ := Traced.result_bind_eq_ok.mp detected
    obtain ⟨_, _, same⟩ := Traced.result_bind_eq_ok.mp noted
    cases same
    obtain ⟨found, succeeded, rfl⟩ := Check.sheet_eq_ok.mp judged
    exact ⟨found, succeeded, rfl⟩
  · intro holds
    obtain ⟨found, succeeded, rfl⟩ := holds
    refine Traced.result_bind_eq_ok.mpr ⟨_, Check.sheet_eq_ok.mpr ⟨found, succeeded, rfl⟩, ?_⟩
    exact Traced.result_bind_eq_ok.mpr ⟨(), rfl, rfl⟩

end SheetLint
