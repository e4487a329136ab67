import SheetLint.Node.Render
import SheetLint.Proofs.Outcome
import SheetLint.Proofs.SelectorReading
import SheetLint.Sheet.Fault

/-! Selector lists and their commas: a text lists selectors where all of it is tokens and no comma lacks a
token on either side. Only tokens split it, so that a comma within a pseudo-class, an attribute or an
interpolation does not. -/
namespace SheetLint

namespace Selector

variable {text : List Char} {stuck : Option (Char × Nat)} {last : Option (Token Terminal)}
  {taken tokens : List (Token Terminal)}

/-- A text with all that stands before its first parenthesis in lower case. -/
def lowerHead (text : List Char) : List Char :=
  Text.lower (text.takeWhile (· != '(')) ++ text.dropWhile (· != '(')

/-- How a component writes the token that it is read from. -/
def spelling (token : Token Terminal) : List Char :=
  match token.kind with
  | .pseudo => lowerHead token.text
  | _ => token.text

/-- The kind of token that a component is read from. -/
def terminal? {α : Type} : Node α → Option Terminal
  | .leaf (.pseudo _ _ _) _ => some .pseudo
  | .leaf (.simple kind _) _ => some (.simple kind)
  | _ => none

/-- A component stands for a token: it is of its kind, at its place, and written as the token is. -/
structure Shows (place : Nat → Position) (token : Token Terminal) (component : Node Position) : Prop where
  kind : terminal? component = some token.kind
  start : component.start? = some (place token.offset)
  written : component.render = .ok (String.ofList (spelling token))

/-- A selector reaches over a segment of tokens: from the start of the first one to the end of the last. -/
def Covers (text : List Char) (place : Nat → Position) (segment : List (Token Terminal))
    (node : Node Position) : Prop :=
  ∃ first ∈ segment.head?, ∃ last ∈ segment.getLast?, ∃ components,
    List.Forall₂ (Shows place) segment components ∧
    node = .selector components
      (String.ofList ((text.drop first.offset).take (last.stop - first.offset))) (place first.offset)

theorem lowerHead_append {word rest : List Char} (plain : '(' ∉ word) (stops : ∀ c ∈ rest.head?, c = '(') :
    lowerHead (word ++ rest) = Text.lower word ++ rest := by
  have inside : ∀ c ∈ word, (c != '(') = true := by
    rintro c member
    rw [bne_iff_ne]
    rintro rfl
    exact plain member
  rw [lowerHead, List.takeWhile_append_of_pos inside, List.dropWhile_append_of_pos inside]
  cases rest with
  | nil => simp
  | cons c rest => simp [stops c rfl]

/-- The name of a pseudo-class is all that changes when it is written again. -/
theorem render_of_lexeme {name : String} {argument : Option String} {isElement : Bool} {piece : List Char}
    (lexeme : (Leaf.pseudo name argument isElement).Lexeme piece) :
    (Leaf.pseudo name argument isElement).render = String.ofList (lowerHead piece) := by
  obtain ⟨word, rfl, lower, named⟩ := lexeme
  have plain : '(' ∉ (if isElement then [':', ':'] else [':']) ++ word := by
    intro member
    rcases List.mem_append.mp member with colon | inside
    · cases isElement <;> simp at colon
    · exact Bool.noConfusion (named '(' inside)
  have stops : ∀ c ∈ (argument.elim [] fun inside => '(' :: (inside.toList ++ [')'])).head?, c = '(' := by
    cases argument <;> simp
  have colon (word : List Char) : Text.lower (':' :: word) = ':' :: Text.lower word := rfl
  rw [lowerHead_append plain stops, String.ext_iff]
  cases isElement <;> cases argument <;> simp [Leaf.render, colon, lower]

theorem shows_component {token : Token Terminal} {component : Node Nat} (place : Nat → Position)
    (stands : token.StandsIn text) (found : component? token = some component) :
    Shows place token (component.map place) := by
  have lexeme := lexeme_component stands found
  obtain ⟨kind, piece, offset⟩ := token
  cases kind with
  | pseudo =>
    cases found
    exact ⟨rfl, rfl, congrArg Except.ok (render_of_lexeme lexeme)⟩
  | simple kind =>
    cases found
    exact ⟨rfl, rfl, rfl⟩
  | comma => cases found

/-- Tokens other than commas have a component each. -/
theorem shows_components (place : Nat → Position) (standing : ∀ token ∈ tokens, token.StandsIn text)
    (kept : ∀ token ∈ tokens, isComma token = false) :
    List.Forall₂ (Shows place) tokens ((tokens.filterMap component?).map (Node.map place)) := by
  induction tokens with
  | nil => exact .nil
  | cons token rest ih =>
    obtain ⟨stands, standing⟩ := List.forall_mem_cons.mp standing
    obtain ⟨here, kept⟩ := List.forall_mem_cons.mp kept
    cases found : component? token with
    | none =>
      rw [component?_eq_none.mp found] at here
      cases here
    | some component =>
      rw [List.filterMap_cons_some found, List.map_cons]
      exact .cons (shows_component place stands found) (ih standing kept)

theorem covers_ofTokens (place : Nat → Position) (standing : ∀ token ∈ tokens, token.StandsIn text)
    (kept : ∀ token ∈ tokens, isComma token = false) (nonempty : tokens ≠ []) :
    Covers text place tokens ((ofTokens text tokens).map place) := by
  have first := List.head?_eq_some_head nonempty
  have last := List.getLast?_eq_some_getLast nonempty
  refine ⟨_, first, _, last, _, shows_components place standing kept, ?_⟩
  simp [ofTokens, node, Node.map, first, last]

/-- Where no segment is empty, the tokens are read to their end. -/
theorem assemble_isOk (nonempty : ∀ segment ∈ tokens.splitOnPPrepend isComma taken, segment ≠ []) :
    ∃ nodes, assemble text none last (gather taken) tokens = .ok nodes := by
  induction tokens generalizing last taken with
  | nil =>
    cases taken with
    | nil => simp at nonempty
    | cons => exact ⟨_, rfl⟩
  | cons token rest ih =>
    cases found : component? token with
    | some component =>
      rw [List.splitOnPPrepend_cons_neg (isComma_of_component found)] at nonempty
      obtain ⟨nodes, read⟩ := ih nonempty
      refine ⟨nodes, ?_⟩
      rw [gather_cons found] at read
      simpa [assemble, found] using read
    | none =>
      have comma := component?_eq_none.mp found
      rw [List.splitOnPPrepend_cons_pos comma, ← List.splitOnPPrepend_nil_right,
        List.forall_mem_cons] at nonempty
      obtain ⟨here, later⟩ := nonempty
      obtain ⟨nodes, read⟩ := ih later
      cases taken with
      | nil => exact absurd rfl here
      | cons previous before =>
        obtain ⟨group, gathered⟩ : ∃ group, gather (previous :: before) = some group := ⟨_, rfl⟩
        change assemble text none (some token) none rest = .ok nodes at read
        refine ⟨group.node text :: nodes, ?_⟩
        simp only [assemble, found, gathered, read]
        rfl

/-- A character that starts no token is always a fault. -/
theorem stuck_of_assemble {group : Option Group} {nodes : List (Node Nat)}
    (read : assemble text stuck last group tokens = .ok nodes) : stuck = none := by
  induction tokens generalizing last group nodes with
  | nil =>
    cases stuck with
    | none => rfl
    | some => cases read
  | cons token rest ih =>
    cases found : component? token with
    | some component =>
      simp only [assemble, found] at read
      exact ih read
    | none =>
      cases group with
      | none => simp [assemble, found] at read
      | some group =>
        simp only [assemble, found] at read
        obtain ⟨others, further, _⟩ := Outcome.bind_eq_ok.mp read
        exact ih further

/-- A text lists selectors where all of it is tokens and no segment is empty. -/
theorem read_isOk_iff (text : List Char) :
    (∃ nodes, read text = .ok nodes) ↔ (lex (κ := Terminal) text).stuck = none ∧
      ∀ segment ∈ (lex (κ := Terminal) text).tokens.splitOnP isComma, segment ≠ [] := by
  constructor
  · rintro ⟨nodes, found⟩
    exact ⟨stuck_of_assemble found, (read_eq_ok found).2⟩
  · rintro ⟨finished, nonempty⟩
    rw [← List.splitOnPPrepend_nil_right] at nonempty
    have assembled : ∃ nodes, assemble text none none none (lex (κ := Terminal) text).tokens = .ok nodes :=
      assemble_isOk nonempty
    rw [← finished] at assembled
    exact assembled

end Selector

/-- A selector list read from a part of a text, with every place in it, or the place of its fault,
located. -/
def placedSelectors (locate : Nat → Position) (text : List Char) (offset : Nat) :
    Except ParseError (List (Node Position)) :=
  ((readSelectors text offset).map (List.map (Node.map locate))).mapError fun failure =>
    .at failure.fault (locate failure.offset)

theorem placedSelectors_eq_ok {locate : Nat → Position} {text : List Char} {offset : Nat}
    {nodes : List (Node Position)} :
    placedSelectors locate text offset = .ok nodes ↔ ∃ selectors, Selector.read text = .ok selectors ∧
      nodes = selectors.map (Node.map fun start => locate (offset + start)) := by
  unfold placedSelectors readSelectors
  cases Selector.read text with
  | error mismatch => simp [Except.map, Except.mapError]
  | ok selectors =>
    have twice : selectors.map (Node.map locate ∘ Node.map (offset + ·)) =
        selectors.map (Node.map fun start => locate (offset + start)) :=
      List.map_congr_left fun node _ => Node.map_map locate _ node
    simp [Except.map, Except.mapError, twice, eq_comm]

theorem covers_of_read {text : List Char} {nodes : List (Node Nat)} (place : Nat → Position)
    (read : Selector.read text = .ok nodes) :
    List.Forall₂ (Selector.Covers text place) ((lex text).tokens.splitOnP Selector.isComma)
      (nodes.map (Node.map place)) := by
  obtain ⟨rfl, nonempty⟩ := Selector.read_eq_ok read
  rw [List.map_map, List.forall₂_map_right_iff, List.forall₂_same]
  intro segment member
  have among : ∀ token ∈ segment, token ∈ (lex text).tokens.filter (!Selector.isComma ·) :=
    fun _ inside => Selector.mem_filter_of_segment member inside
  apply Selector.covers_ofTokens place
  · intro token inside
    exact standsIn_of_mem_lex Selector.proper_extent (List.mem_of_mem_filter (among token inside))
  · intro token inside
    simpa using List.of_mem_filter (among token inside)
  · exact nonempty segment member

/-- A text lists selectors where its tokens take up all of it and every segment between commas has one. Each
segment then makes one selector, of one component for each token, and reaches from its first token to its
last. -/
theorem selectors_of_comma_segments (locate : Nat → Position) (text : List Char) (offset : Nat) :
    Divided 0 text (lex (κ := Selector.Terminal) text).tokens (lex (κ := Selector.Terminal) text).stuck ∧
    ((∃ nodes, placedSelectors locate text offset = .ok nodes) ↔
      (lex (κ := Selector.Terminal) text).stuck = none ∧
        ∀ segment ∈ (lex (κ := Selector.Terminal) text).tokens.splitOnP Selector.isComma, segment ≠ []) ∧
    ∀ nodes, placedSelectors locate text offset = .ok nodes →
      List.Forall₂ (Selector.Covers text fun start => locate (offset + start))
        ((lex text).tokens.splitOnP Selector.isComma) nodes := by
  refine ⟨divided_lexFrom Selector.proper_extent text 0, ?_, ?_⟩
  · rw [← Selector.read_isOk_iff]
    simp only [placedSelectors_eq_ok]
    constructor
    · rintro ⟨_, selectors, read, _⟩
      exact ⟨selectors, read⟩
    · rintro ⟨selectors, read⟩
      exact ⟨_, selectors, read, rfl⟩
  · intro nodes placed
    obtain ⟨selectors, read, rfl⟩ := placedSelectors_eq_ok.mp placed
    exact covers_of_read _ read

/-- A comma in the argument of a pseudo-class, one between two selectors, and one in an attribute. -/
theorem selectors_of_comma_segments_of_argument :
    ∃ nodes, placedSelectors (fun start => ⟨1, start⟩) "a:Not(b,c) ,[d=',']".toList 2 = .ok nodes ∧
      List.Forall₂ (Selector.Covers "a:Not(b,c) ,[d=',']".toList fun start => ⟨1, (2 + start : Nat)⟩)
        ((lex "a:Not(b,c) ,[d=',']".toList).tokens.splitOnP Selector.isComma) nodes := by
  have read : placedSelectors (fun start => ⟨1, start⟩) "a:Not(b,c) ,[d=',']".toList 2 = .ok
      [.selector [.leaf (.simple .type "a") ⟨1, 2⟩, .leaf (.pseudo "not" (some "b,c") false) ⟨1, 3⟩]
          "a:Not(b,c)" ⟨1, 2⟩,
        .selector [.leaf (.simple .attribute "[d=',']") ⟨1, 14⟩] "[d=',']" ⟨1, 14⟩] := by rfl
  obtain ⟨_, _, covers⟩ := selectors_of_comma_segments (fun start => ⟨1, start⟩)
    "a:Not(b,c) ,[d=',']".toList 2
  exact ⟨_, read, covers _ read⟩

end SheetLint
