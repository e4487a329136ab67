import SheetLint.Proofs.Place
import SheetLint.Proofs.SheetLayout

/-! Lines and columns of a parsed stylesheet tell where its nodes are written. -/
namespace SheetLint

/-- Every node of a parsed tree, values and the sheet itself aside, is placed at the line and column of an
offset at which the text carries the lexeme of the node. -/
theorem lexeme_at_start_of_parse {source : String} {tree node : Node Position}
    (parsed : parse source = .ok tree) (member : node ∈ tree.walk)
    (sheet : node.isKind .stylesheet = false) (value : node.isKind .value = false) :
    ∃ offset < (sheetText source).length,
      node.start? = some (Position.after ((sheetText source).take offset)) ∧
      ∃ piece, node.Lexeme piece ∧ piece <+: (sheetText source).drop offset := by
  obtain ⟨statements, laid, rfl⟩ := laid_of_parse parsed
  rw [Node.walk_map, List.mem_map] at member
  obtain ⟨placed, present, rfl⟩ := member
  rw [Node.walk_eq_cons, List.mem_cons] at present
  rcases present with rfl | inside
  · cases sheet
  · rw [Node.isKind_map] at value
    obtain ⟨kind, offset, mark⟩ := Node.mark?_of_fits (laid.fitting placed inside) value
    obtain ⟨_, within, piece, lexeme, stands⟩ := laid.carried placed inside kind offset mark
    refine ⟨offset, within, ?_, piece, (Node.lexeme_map _ placed).mpr lexeme, stands⟩
    rw [Node.start?_map, Node.start?_of_mark? mark, Option.map_some,
      LineIndex.locate_ofText _ (Nat.le_of_lt within)]

/-- The dimension on the second line of a sheet stands there in its own case. -/
theorem lexeme_at_start_of_dimension :
    ∃ offset < (sheetText "a\x7b\n b: 1PX\x7d").length,
      (⟨2, 5⟩ : Position) = Position.after ((sheetText "a\x7b\n b: 1PX\x7d").take offset) ∧
      ∃ piece, (Node.leaf (.dimension "1" "px") (⟨2, 5⟩ : Position)).Lexeme piece ∧
        piece <+: (sheetText "a\x7b\n b: 1PX\x7d").drop offset := by
  let width : Node Position := .leaf (.dimension "1" "px") ⟨2, 5⟩
  let body : Node Position := .block [.declaration "b" (.value [width] ⟨2, 5⟩) ⟨2, 2⟩] ⟨1, 2⟩
  let head : Node Position := .selector [.leaf (.simple .type "a") ⟨1, 1⟩] "a" ⟨1, 1⟩
  have parsed : parse "a\x7b\n b: 1PX\x7d" = .ok (.stylesheet [.ruleset [head] body ⟨1, 1⟩] ⟨1, 1⟩) := by rfl
  have member : width ∈ (Node.stylesheet [.ruleset [head] body ⟨1, 1⟩] ⟨1, 1⟩).walk := by
    simp [Node.walk, Node.walkFrom_cons, Node.children, head, body]
  obtain ⟨offset, within, placed, carried⟩ := lexeme_at_start_of_parse parsed member rfl rfl
  exact ⟨offset, within, Option.some.inj placed, carried⟩

end SheetLint
