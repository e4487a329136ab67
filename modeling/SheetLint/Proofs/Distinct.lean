import SheetLint.Proofs.Checks
import SheetLint.Proofs.Descent
import SheetLint.Proofs.Findings
import Mathlib.Algebra.GroupWithZero.Nat

/-! Findings are distinct on a parsed sheet. Each one is about a ruleset, a declaration, a dimension or a
block, which its message tells by its opening; and no two findings are about the same of these. -/
namespace SheetLint

open Node (Kind placeOf? starts descend)

/-- The sort of node that a message is about. -/
def subject (message : String) : Kind :=
  match message.toList with
  | 'U' :: _ => .ruleset
  | 'T' :: _ | 'C' :: 'o' :: 'l' :: _ => .block
  | 'V' :: _ => .dimension
  | _ => .declaration

/-- What an issue is about and where. -/
def Issue.mark (issue : Issue) : Kind × Position := (subject issue.message, ⟨issue.line, issue.column⟩)

theorem mark_issue (context : Context) (place : Position) (message : String) :
    (context.issue place message).mark = (subject message, place) := rfl

namespace Check

variable {context : Context} {flags : InteractionFlags}

/-- The dimensions that a declaration is given, by place. -/
def dimensionStarts (declaration : Declaration Position) : List Position :=
  (declaration.value.children.filterMap dimension?).map Prod.snd

/-- What a declaration can be found fault with for: itself, and then its dimensions. -/
def declarationMarks (declaration : Declaration Position) : List (Kind × Position) :=
  (.declaration, declaration.start) :: (dimensionStarts declaration).map fun start => (.dimension, start)

/-- What a ruleset can be found fault with for. -/
def rulesetMarks (given : Ruleset Position) : List (Kind × Position) :=
  (.ruleset, given.start) :: given.block.declarations.flatMap declarationMarks
    ++ (given.block.start?.map fun start => (.block, start)).toList

/-- A message about content hidden or generated, a position or an outline is about a declaration. -/
theorem subject_hidden (property value : String) :
    subject ("Content hidden by setting '" ++ property ++ "' to '" ++ value
      ++ "' is not available to assistive technology") = .declaration := by
  rw [subject, String.toList_append, String.toList_append, String.toList_append, String.toList_append]
  rfl

theorem subject_units (property units : String) :
    subject ("Values for property '" ++ property ++ "' may only be specified as " ++ units) =
      .dimension := by
  rw [subject, String.toList_append, String.toList_append, String.toList_append]
  rfl

theorem marks_of_relativeUnits {declaration : Declaration Position} {issues : List Issue}
    (checked : relativeUnits declaration flags context = .ok issues) :
    (issues.map Issue.mark).Sublist
      ((dimensionStarts declaration).map fun start => (.dimension, start)) := by
  unfold relativeUnits at checked
  split at checked
  · cases checked
    exact List.nil_sublist _
  · rename_i units _
    cases checked
    have mark (entry : String × Position) : (context.issue entry.2
        ("Values for property '" ++ declaration.property ++ "' may only be specified as "
          ++ ", ".intercalate units)).mark = (.dimension, entry.2) := by
      rw [mark_issue, subject_units]
    rw [List.map_map, dimensionStarts, List.map_map]
    simp only [Function.comp_def, mark]
    exact List.filter_sublist.map _

theorem marks_of_single {condition : Prop} [Decidable condition] {place : Position} {message : String}
    (about : subject message = .declaration) :
    ((if condition then [context.issue place message] else []).map Issue.mark).Sublist
      [(.declaration, place)] := by
  split
  · rw [List.map_singleton, mark_issue, about]
  · exact List.nil_sublist _

theorem property_of_hidingValue {property value : String} (hides : hidingValue? property = some value) :
    property ≠ "content" ∧ property ≠ "position" ∧ property ≠ "outline" := by
  have content : hidingValue? "content" = none := by rfl
  have position : hidingValue? "position" = none := by rfl
  have outline : hidingValue? "outline" = none := by rfl
  refine ⟨?_, ?_, ?_⟩ <;> rintro rfl
  · rw [content] at hides
    cases hides
  · rw [position] at hides
    cases hides
  · rw [outline] at hides
    cases hides

/-- The first four checks look for different properties, so that one of them at most finds anything. -/
theorem marks_of_named {declaration : Declaration Position} {text : String}
    (written : declaration.value.render = .ok text) {content position outline hidden : List Issue}
    (ranContent : generatedContent declaration flags context = .ok content)
    (ranPosition : absolutePosition declaration flags context = .ok position)
    (ranOutline : hiddenOutline declaration flags context = .ok outline)
    (ranHidden : hiddenContent declaration flags context = .ok hidden) :
    ((content ++ position ++ outline ++ hidden).map Issue.mark).Sublist
      [(.declaration, declaration.start)] := by
  rw [generatedContent_eq written] at ranContent
  rw [absolutePosition_eq written] at ranPosition
  rw [hiddenOutline_eq written] at ranOutline
  rw [hiddenContent_eq written] at ranHidden
  cases ranContent
  cases ranPosition
  cases ranOutline
  cases ranHidden
  by_cases hides : hidingValue? declaration.property = some text
  · obtain ⟨noContent, noPosition, noOutline⟩ := property_of_hidingValue hides
    simp only [noContent, noPosition, noOutline, false_and, ↓reduceIte, List.nil_append]
    exact marks_of_single (subject_hidden _ _)
  · rw [if_neg hides, List.append_nil]
    by_cases generates : declaration.property = "content"
    · have noPosition : declaration.property ≠ "position" := by simp [generates]
      have noOutline : declaration.property ≠ "outline" := by simp [generates]
      simp only [noPosition, noOutline, false_and, ↓reduceIte, List.append_nil]
      exact marks_of_single rfl
    · by_cases positions : declaration.property = "position"
      · have noOutline : declaration.property ≠ "outline" := by simp [positions]
        simp only [generates, noOutline, false_and, ↓reduceIte, List.nil_append, List.append_nil]
        exact marks_of_single rfl
      · simp only [generates, positions, false_and, ↓reduceIte, List.nil_append]
        exact marks_of_single rfl

theorem marks_of_declaration {declaration : Declaration Position} {found : List (List Issue)}
    (checked : checked flags context declaration = .ok found) :
    (found.flatten.map Issue.mark).Sublist (declarationMarks declaration) := by
  obtain ⟨content, _, ranContent, one, rfl⟩ := Outcome.mapM_cons_eq_ok.mp checked
  obtain ⟨position, _, ranPosition, two, rfl⟩ := Outcome.mapM_cons_eq_ok.mp one
  obtain ⟨outline, _, ranOutline, three, rfl⟩ := Outcome.mapM_cons_eq_ok.mp two
  obtain ⟨hidden, _, ranHidden, four, rfl⟩ := Outcome.mapM_cons_eq_ok.mp three
  obtain ⟨units, _, ranUnits, none, rfl⟩ := Outcome.mapM_cons_eq_ok.mp four
  cases none
  obtain ⟨text, written, _⟩ := Outcome.bind_eq_ok.mp ranHidden
  have named := marks_of_named written ranContent ranPosition ranOutline ranHidden
  have all := named.append (marks_of_relativeUnits ranUnits)
  simpa [declarationMarks] using all

theorem message_of_complaint {pairing : Pairing} {message : String}
    (complained : pairing.complaint? = .ok (some message)) :
    message = missingForeground ∨ message = lowContrast := by
  unfold Pairing.complaint? at complained
  split at complained
  · cases complained
  · cases complained
    exact .inl rfl
  · obtain ⟨sufficient, _, same⟩ := Outcome.bind_eq_ok.mp complained
    cases sufficient <;> cases same
    exact .inr rfl

theorem marks_of_pairing {block : Node Position} {pairing : Pairing} {colors : List Issue}
    (judged : pairingIssues block pairing context = .ok colors) :
    (colors.map Issue.mark).Sublist (block.start?.map fun start => (Kind.block, start)).toList := by
  obtain ⟨complaint, complained, same⟩ := Outcome.bind_eq_ok.mp judged
  cases same
  cases complaint with
  | none => exact List.nil_sublist _
  | some message =>
    have about : subject message = .block := by
      rcases message_of_complaint complained with rfl | rfl <;> rfl
    cases block.start? with
    | none => exact List.nil_sublist _
    | some start =>
      change [(subject message, start)].Sublist _
      rw [about]
      exact List.Sublist.refl _

/-- The findings in a ruleset are about different things in it. -/
theorem marks_of_parts {given : Ruleset Position} {found : List (List Issue)}
    (succeeded : parts context given = .ok found) :
    (found.flatten.map Issue.mark).Sublist (rulesetMarks given) := by
  obtain ⟨results, pairing, colors, ran, _, judged, rfl⟩ := parts_eq_ok.mp succeeded
  have first : ((dependence context given).map Issue.mark).Sublist [(.ruleset, given.start)] := by
    have about : subject deviceDependence = .ruleset := by rfl
    unfold dependence
    split
    · rw [List.map_singleton, mark_issue, about]
    · exact List.nil_sublist _
  have second : (results.flatten.flatten.map Issue.mark).Sublist
      (given.block.declarations.flatMap declarationMarks) := by
    have each := Outcome.mapM_eq_ok.mp ran
    clear ran succeeded
    generalize given.block.declarations = declarations at each
    induction each with
    | nil => exact List.Sublist.refl _
    | cons here _ ih =>
      rw [List.flatten_cons, List.flatten_append, List.map_append, List.flatMap_cons]
      exact (marks_of_declaration here).append ih
  have third := marks_of_pairing judged
  have all := (first.append second).append third
  simpa [rulesetMarks] using all

/-- The places of one sort among the marks of a ruleset. -/
def placesWithin (kind : Kind) (given : Ruleset Position) : List Position :=
  match kind with
  | .ruleset => [given.start]
  | .block => given.block.start?.toList
  | .declaration => given.block.declarations.map (·.start)
  | .dimension => given.block.declarations.flatMap dimensionStarts
  | _ => []

theorem placesWithin_eq (kind : Kind) (given : Ruleset Position) :
    (rulesetMarks given).filterMap (placeOf? kind) = placesWithin kind given := by
  have each (declaration : Declaration Position) :
      (declarationMarks declaration).filterMap (placeOf? kind) =
        (if Kind.declaration = kind then [declaration.start] else []) ++
          if Kind.dimension = kind then dimensionStarts declaration else [] := by
    rw [declarationMarks, ← List.singleton_append, List.filterMap_append, Node.filterMap_placeOf?_map]
    congr 1
    exact Node.filterMap_placeOf?_map kind .declaration [declaration.start]
  have block : (given.block.start?.map fun start => (Kind.block, start)).toList =
      given.block.start?.toList.map fun start => (Kind.block, start) := by
    cases given.block.start? <;> rfl
  rw [rulesetMarks, List.filterMap_append, List.filterMap_cons, List.filterMap_flatMap, block,
    Node.filterMap_placeOf?_map]
  simp only [each]
  cases kind <;> simp [placesWithin, placeOf?, List.map_eq_flatMap]

/-- How far below a ruleset the nodes of a sort lie that it can be found fault with for. -/
def depthOf : Kind → Nat
  | .block => 1
  | .declaration => 2
  | .dimension => 4
  | _ => 0

private theorem descend_body (depth : Nat) (selectors : List (Node Position)) (body : Node Position)
    (start : Position) :
    (descend depth body.children).Sublist (descend (depth + 2) [.ruleset selectors body start]) := by
  apply Node.descend_sublist depth
  simp [Node.children]

private theorem starts_declaration (nodes : List (Node Position)) :
    (nodes.filterMap Node.declaration?).map (·.start) = starts .declaration nodes := by
  rw [List.map_filterMap, starts]
  congr 1
  funext node
  cases node with
  | leaf content start => cases content <;> rfl
  | _ => rfl

private theorem starts_dimension (nodes : List (Node Position)) :
    (nodes.filterMap dimension?).map Prod.snd = starts .dimension nodes := by
  rw [List.map_filterMap, starts]
  congr 1
  funext node
  cases node with
  | leaf content start => cases content <;> rfl
  | _ => rfl

theorem placesWithin_sublist {node : Node Position} (fits : node.Fits) {given : Ruleset Position}
    (is : node.ruleset? = some given) (kind : Kind) :
    (placesWithin kind given).Sublist (starts kind (descend (depthOf kind) [node])) := by
  cases node with
  | ruleset selectors body start =>
    cases is
    cases kind with
    | ruleset => exact List.Sublist.refl _
    | block =>
      obtain ⟨children, brace, rfl⟩ := Node.eq_block_of_isKind fits.2
      have parts : descend (depthOf .block) [.ruleset selectors (.block children brace) start] =
          selectors ++ [.block children brace] := by simp [depthOf, descend, Node.children]
      rw [parts, starts, List.filterMap_append]
      exact List.sublist_append_right _ _
    | declaration =>
      change ((body.children.filterMap Node.declaration?).map (·.start)).Sublist _
      rw [starts_declaration]
      exact (descend_body 0 selectors body start).filterMap _
    | dimension =>
      have below : (body.declarations.flatMap dimensionStarts).Sublist
          (starts .dimension (descend 2 body.children)) := by
        rw [Node.declarations, List.filterMap_eq_flatMap_toList, List.flatMap_assoc,
          Node.descend_eq_flatMap, Node.starts_flatMap]
        refine List.Sublist.flatMap_right _ fun part _ => ?_
        cases part with
        | declaration property value start =>
          have parts : descend 2 [.declaration property value start] = value.children := by
            simp [descend, Node.children]
          rw [parts, ← starts_dimension, Node.declaration?, Option.toList_some, List.flatMap_singleton]
          exact List.Sublist.refl _
        | _ => exact List.nil_sublist _
      exact below.trans ((descend_body 2 selectors body start).filterMap _)
    | _ => exact List.nil_sublist _
  | _ => cases is

end Check

/-- Nothing in a parsed sheet can be found fault with twice. -/
theorem nodup_rulesetMarks {source : String} {tree : Node Position} (parsed : parse source = .ok tree) :
    (tree.rulesets.flatMap Check.rulesetMarks).Nodup := by
  refine Node.nodup_of_places fun kind => ?_
  rw [List.filterMap_flatMap]
  simp only [Check.placesWithin_eq]
  by_cases part : kind = .stylesheet
  · subst part
    have none : (tree.rulesets.flatMap fun given => Check.placesWithin .stylesheet given) = [] :=
      List.flatMap_eq_nil_iff.mpr fun _ _ => rfl
    rw [none]
    exact List.nodup_nil
  · rw [Node.rulesets, List.filterMap_eq_flatMap_toList, List.flatMap_assoc]
    apply Node.nodup_flatMap_of_descend (Check.depthOf kind) (nodup_starts_of_parse parsed part)
    intro node member
    cases found : node.ruleset? with
    | none => exact List.nil_sublist _
    | some given =>
      rw [Option.toList_some, List.flatMap_singleton]
      exact Check.placesWithin_sublist (fits_of_parse parsed member) found kind

/-- Collectors take nothing away from what is found on a parsed sheet. -/
theorem detect_keeps_findings {source : String} {tree : Node Position} (parsed : parse source = .ok tree)
    {context : Context} {issues : List Issue}
    (detected : (accessibilityIssues.detect tree context).result = .ok issues) :
    ∃ found, Check.findings context tree = .ok found ∧ issues = found.flatten ∧ issues.Nodup ∧
      issues.length = (found.map List.length).sum := by
  obtain ⟨found, succeeded, rfl⟩ := detect_eq_ok.mp detected
  have distinct : found.flatten.Nodup := by
    apply List.Nodup.of_map Issue.mark
    obtain ⟨results, ran, same⟩ := Outcome.bind_eq_ok.mp succeeded
    cases same
    have marks : (results.flatten.flatten.map Issue.mark).Sublist
        (tree.rulesets.flatMap Check.rulesetMarks) := by
      have each := Outcome.mapM_eq_ok.mp ran
      clear ran succeeded detected
      generalize tree.rulesets = given at each
      induction each with
      | nil => exact List.Sublist.refl _
      | cons here _ ih =>
        rw [List.flatten_cons, List.flatten_append, List.map_append, List.flatMap_cons]
        exact (Check.marks_of_parts here).append ih
    exact (nodup_rulesetMarks parsed).sublist marks
  rw [Collector.issues_ofList distinct]
  exact ⟨found, succeeded, rfl, distinct, List.length_flatten⟩

/-- Two lengths of one declaration give two findings with one message. -/
theorem detect_keeps_findings_of_margin :
    ∃ (tree : Node Position) (issues : List Issue) (found : List (List Issue)),
      parse "a\x7bmargin:1px 2px\x7d" = .ok tree ∧
      (accessibilityIssues.detect tree ⟨"accessibility-issues", .warning, .empty⟩).result = .ok issues ∧
      Check.findings ⟨"accessibility-issues", .warning, .empty⟩ tree = .ok found ∧
      issues = found.flatten ∧ issues.Nodup ∧ issues.length = 2 := by
  let context : Context := ⟨"accessibility-issues", .warning, .empty⟩
  let selectors : List (Node Position) := [.selector [.leaf (.simple .type "a") ⟨1, 1⟩] "a" ⟨1, 1⟩]
  let lengths : List (Node Position) :=
    [.leaf (.dimension "1" "px") ⟨1, 10⟩, .leaf (.dimension "2" "px") ⟨1, 14⟩]
  let body : Node Position :=
    .block [.declaration "margin" (.value lengths ⟨1, 10⟩) ⟨1, 3⟩] ⟨1, 2⟩
  let tree : Node Position := .stylesheet [.ruleset selectors body ⟨1, 1⟩] ⟨1, 1⟩
  have parsed : parse "a\x7bmargin:1px 2px\x7d" = .ok tree := by rfl
  have rulesets : tree.rulesets = [⟨selectors, body, ⟨1, 1⟩⟩] := by
    simp only [tree, body, lengths, selectors, Node.rulesets, Node.walk, Node.walkFrom_cons,
      Node.walkFrom_nil, Node.children, List.cons_append, List.nil_append, List.append_nil]
    rfl
  have detected : (accessibilityIssues.detect tree context).result = .ok ([10, 14].map fun column =>
      context.issue ⟨1, column⟩ "Values for property 'margin' may only be specified as em, rem") := by
    unfold accessibilityIssues
    simp only [Check.sheet, rulesets, Traced.result_bind]
    rfl
  obtain ⟨found, succeeded, same, distinct, _⟩ := detect_keeps_findings parsed detected
  exact ⟨tree, _, found, parsed, detected, succeeded, same, distinct, rfl⟩

end SheetLint
