import SheetLint.Check.Declaration
import SheetLint.Proofs.Outcome
import SheetLint.Proofs.Walk

/-! What the checks of declarations come to. Each needs the value written out at most, which can be done
where nothing is foreign. -/
namespace SheetLint

namespace Node

variable {α : Type}

/-- A tree without foreign things. -/
def Native (node : Node α) : Prop := ∀ part ∈ node.walk, ∀ item, part ≠ .foreign item

theorem Native.inner {node inner : Node α} (native : node.Native) (member : inner ∈ node.walk) :
    inner.Native :=
  fun part inside => native part (mem_walkFrom_trans member inside)

theorem Native.child {node child : Node α} (native : node.Native) (part : child ∈ node.children) :
    child.Native :=
  native.inner (mem_walk_of_child part)

mutual

/-- What is not foreign can be written out. -/
theorem render_isOk (node : Node α) (native : node.Native) : ∃ text, node.render = .ok text := by
  cases node with
  | leaf | directive => exact ⟨_, rfl⟩
  | call _ parts | parens parts | value parts | block parts | stylesheet parts =>
    obtain ⟨texts, written⟩ := renderAll_isOk parts fun part member => native.child member
    exact ⟨_, Outcome.bind_eq_ok.mpr ⟨texts, written, rfl⟩⟩
  | selector components text =>
    by_cases empty : text.isEmpty
    · obtain ⟨texts, written⟩ := renderAll_isOk components fun part member => native.child member
      refine ⟨String.join texts, ?_⟩
      rw [render, if_pos empty]
      exact Outcome.bind_eq_ok.mpr ⟨texts, written, rfl⟩
    · refine ⟨text, ?_⟩
      rw [render, if_neg empty]
  | declaration _ part | atRule _ _ part =>
    obtain ⟨text, written⟩ := render_isOk part (native.child List.mem_cons_self)
    exact ⟨_, Outcome.bind_eq_ok.mpr ⟨text, written, rfl⟩⟩
  | ruleset selectors body =>
    obtain ⟨texts, first⟩ := renderAll_isOk selectors fun part member =>
      native.child (List.mem_append_left _ member)
    obtain ⟨text, second⟩ := render_isOk body (native.child (by simp [children]))
    exact ⟨_, Outcome.bind_eq_ok.mpr ⟨texts, first, Outcome.bind_eq_ok.mpr ⟨text, second, rfl⟩⟩⟩
  | foreign item => exact absurd rfl (native _ (by simp [walk_eq_cons]) item)

theorem renderAll_isOk (nodes : List (Node α)) (native : ∀ node ∈ nodes, node.Native) :
    ∃ texts, renderAll nodes = .ok texts := by
  cases nodes with
  | nil => exact ⟨[], rfl⟩
  | cons node rest =>
    obtain ⟨text, first⟩ := render_isOk node (native node List.mem_cons_self)
    obtain ⟨texts, second⟩ := renderAll_isOk rest fun other member =>
      native other (List.mem_cons_of_mem _ member)
    exact ⟨_, Outcome.bind_eq_ok.mpr ⟨text, first, Outcome.bind_eq_ok.mpr ⟨texts, second, rfl⟩⟩⟩

end

end Node

namespace Check

variable {declaration : Declaration Position} {flags : InteractionFlags} {context : Context}
  {text : String}

theorem generatedContent_eq (written : declaration.value.render = .ok text) :
    generatedContent declaration flags context = .ok
      (if declaration.property = "content" ∧ flags.isPseudoElement = false ∧
          Text.trim text.toList ≠ [] then
        [context.issue declaration.start
          "Content specified in a stylesheet is not available to assistive technology"]
      else []) := by
  unfold generatedContent
  rw [written]
  by_cases property : declaration.property = "content"
  · cases pseudo : flags.isPseudoElement with
    | true => simp [property, pure, Except.pure]
    | false =>
      cases trimmed : Text.trim text.toList <;>
        simp [property, trimmed, bind, Except.bind, pure, Except.pure]
  · simp [property, pure, Except.pure]

theorem absolutePosition_eq (written : declaration.value.render = .ok text) :
    absolutePosition declaration flags context = .ok
      (if declaration.property = "position" ∧ text = "absolute" then
        [context.issue declaration.start "Absolutely positioned content poses discoverability issues"]
      else []) := by
  unfold absolutePosition
  rw [written]
  by_cases property : declaration.property = "position" <;> by_cases value : text = "absolute" <;>
    simp [property, value, bind, Except.bind, pure, Except.pure]

theorem hiddenOutline_eq (written : declaration.value.render = .ok text) :
    hiddenOutline declaration flags context = .ok
      (if declaration.property = "outline" ∧ (text = "none" ∨ text = "0") then
        [context.issue declaration.start "Outline should not be hidden"]
      else []) := by
  unfold hiddenOutline
  rw [written]
  by_cases property : declaration.property = "outline"
  · by_cases none : text = "none"
    · simp [property, none, bind, Except.bind, pure, Except.pure]
    · by_cases zero : text = "0" <;> simp [property, none, zero, bind, Except.bind, pure, Except.pure]
  · simp [property, pure, Except.pure]

theorem hiddenContent_eq (written : declaration.value.render = .ok text) :
    hiddenContent declaration flags context = .ok
      (if hidingValue? declaration.property = some text then
        [context.issue declaration.start
          ("Content hidden by setting '" ++ declaration.property ++ "' to '" ++ text
            ++ "' is not available to assistive technology")]
      else []) := by
  unfold hiddenContent
  rw [written]
  by_cases hidden : hidingValue? declaration.property = some text <;>
    simp [hidden, bind, Except.bind, pure, Except.pure]

/-- Each check comes to a result on a value that can be written out. -/
theorem check_isOk (written : declaration.value.render = .ok text) {check : DeclarationCheck}
    (member : check ∈ declarationChecks) (flags : InteractionFlags) (context : Context) :
    ∃ issues, check declaration flags context = .ok issues := by
  simp only [declarationChecks, List.mem_cons, List.not_mem_nil, or_false] at member
  rcases member with rfl | rfl | rfl | rfl | rfl
  · exact ⟨_, generatedContent_eq written⟩
  · exact ⟨_, absolutePosition_eq written⟩
  · exact ⟨_, hiddenOutline_eq written⟩
  · exact ⟨_, hiddenContent_eq written⟩
  · unfold relativeUnits
    split <;> exact ⟨_, rfl⟩

end Check
end SheetLint
