import SheetLint.Proofs.Terminal
import SheetLint.Selector.Reading
import SheetLint.Value.Reading

/-! The lexeme of a node: the piece of text at its place that shows the node to be there. Every token of
a value or a selector is the lexeme of the leaf that is read from it. -/
namespace SheetLint

/-- The lexeme of a leaf. Case is lost in units and in the names of pseudo-classes, and so are the blanks
within a flag for importance. -/
def Leaf.Lexeme (piece : List Char) : Leaf → Prop
  | number text | quoted text | url text | operator text | simple _ text => piece = text.toList
  | dimension amount unit =>
    ∃ letters, piece = amount.toList ++ letters ∧ letters.map Char.toLower = unit.toList
  | percentage amount => piece = amount.toList ++ ['%']
  | color hex => piece = '#' :: hex.toList
  | ident name => piece = name.toList ∨
    ∃ blanks letters, piece = '!' :: (blanks ++ letters) ∧ name.toList = '!' :: letters ∧
      ∀ c ∈ blanks, Text.isBlank c
  | reference name => piece = '$' :: name.toList
  | pseudo name argument isElement =>
    ∃ word, piece = (if isElement then [':', ':'] else [':']) ++ word ++
        (argument.elim [] fun inside => '(' :: (inside.toList ++ [')'])) ∧
      Text.lower word = name.toList ∧ ∀ c ∈ word, Text.isName c

namespace Node

variable {α β : Type}

def selectorText? : Node α → Option String
  | selector _ text _ => some text
  | _ => none

/-- The lexeme of a node, the parts of the node left aside. A ruleset shows in its first selector, a
declaration in its property up to the colon. Values, stylesheets and foreign things have none. -/
def Lexeme (piece : List Char) : Node α → Prop
  | leaf content _ => content.Lexeme piece
  | call name _ _ => piece = name.toList ++ ['(']
  | parens _ _ => piece = ['(']
  | selector _ text _ => piece = text.toList
  | declaration property _ _ =>
    ∃ words, piece = words ++ [':'] ∧ ':' ∉ words ∧ Text.lower (Text.trim words) = property.toList
  | block _ _ => piece = ['\x7b']
  | ruleset selectors _ _ => ∃ text ∈ selectors.head?.bind selectorText?, piece = text.toList
  | directive name _ _ | atRule name _ _ _ =>
    ∃ word, piece = '@' :: word ∧ Text.lower word = name.toList
  | value _ _ | stylesheet _ _ | foreign _ => False

theorem selectorText?_map (f : α → β) (node : Node α) :
    (node.map f).selectorText? = node.selectorText? := by
  cases node <;> simp [map, selectorText?]

/-- The lexeme does not depend on how places are written. -/
theorem lexeme_map {piece : List Char} (f : α → β) (node : Node α) :
    (node.map f).Lexeme piece ↔ node.Lexeme piece := by
  cases node with
  | ruleset selectors body start =>
    cases selectors <;> simp [map, Lexeme, selectorText?_map]
  | _ => simp [map, Lexeme]

end Node

namespace Value

/-- A flag is a word behind an exclamation mark, with or without blanks between them. -/
theorem takes_important {piece rest : List Char} (taken : Atom.important.extent.Takes piece rest) :
    ∃ blanks letters, piece = '!' :: (blanks ++ letters) ∧ (∀ c ∈ blanks, Text.isBlank c) ∧
      letters ≠ [] ∧ ∀ c ∈ letters, c.isAlpha := by
  obtain ⟨_, _, rfl, sign, others⟩ := Extent.takes_seq.mp taken
  obtain ⟨blanks, letters, rfl, spaces, lettered⟩ := Extent.takes_seq.mp others
  obtain rfl := Extent.takes_sign.mp sign
  obtain ⟨nonempty, word, _⟩ := Extent.takes_many1.mp lettered
  refine ⟨blanks, letters, rfl, ?_, nonempty, word⟩
  intro c member
  have space := (Extent.takes_many.mp spaces).1 c member
  simp only [Bool.or_eq_true, beq_iff_eq] at space
  rcases space with rfl | rfl <;> decide

theorem filter_flag {blanks letters : List Char} (blank : ∀ c ∈ blanks, Text.isBlank c)
    (word : ∀ c ∈ letters, c.isAlpha) :
    ('!' :: (blanks ++ letters)).filter (!Text.isBlank ·) = '!' :: letters := by
  have visible : ∀ c ∈ letters, Text.isBlank c = false := fun c member =>
    Text.isBlank_of_isAlpha (word c member)
  have mark : Text.isBlank '!' = false := by decide
  have none : blanks.filter (!Text.isBlank ·) = [] :=
    List.filter_eq_nil_iff.mpr (by simpa using blank)
  have all : letters.filter (!Text.isBlank ·) = letters :=
    List.filter_eq_self.mpr (by simpa using visible)
  simp [mark, none, all]

/-- A token that is a part by itself is the lexeme of the leaf it stands for. -/
theorem lexeme_leaf {kind : Atom} {piece rest : List Char} (taken : kind.extent.Takes piece rest) :
    (kind.leaf piece).Lexeme piece := by
  cases kind with
  | url | interpolation | quoted | number | bracketed | ident | operator =>
    simp [Atom.leaf, Leaf.Lexeme]
  | dimension => exact ⟨piece.dropWhile (!·.isAlpha), by simp, by simp⟩
  | percentage =>
    obtain ⟨amount, _, rfl, _, sign⟩ := Extent.takes_seq.mp taken
    rw [Extent.takes_sign.mp sign]
    simp [Atom.leaf, Leaf.Lexeme]
  | color | reference =>
    obtain ⟨_, name, rfl, sign, _⟩ := Extent.takes_seq.mp taken
    rw [Extent.takes_sign.mp sign]
    simp [Atom.leaf, Leaf.Lexeme]
  | important =>
    obtain ⟨blanks, letters, rfl, blank, _, word⟩ := takes_important taken
    refine Or.inr ⟨blanks, letters, rfl, ?_, blank⟩
    simp only [filter_flag blank word, String.toList_ofList]

/-- A token that opens a function ends in its parenthesis. -/
theorem takes_function {piece rest : List Char} (taken : Terminal.function.extent.Takes piece rest) :
    piece = piece.dropLast ++ ['('] := by
  obtain ⟨_, _, rfl, _, more⟩ := Extent.takes_seq.mp taken
  obtain ⟨_, _, rfl, _, more⟩ := Extent.takes_seq.mp more
  obtain ⟨_, _, rfl, _, sign⟩ := Extent.takes_seq.mp more
  rw [Extent.takes_sign.mp sign]
  simp [← List.append_assoc]

end Value

namespace Selector

/-- A pseudo-class is taken apart at its colons and its first parenthesis. -/
theorem lexeme_pseudoLeaf {piece rest : List Char} (taken : pseudo.Takes piece rest) :
    (pseudoLeaf piece).Lexeme piece := by
  obtain ⟨colon, word, argument, rfl, colons, nonempty, named, arguments⟩ := takes_pseudo taken
  obtain ⟨c, others, rfl⟩ := List.exists_cons_of_ne_nil nonempty
  have apart (stop : Char) (other : Text.isName stop = false) : ∀ d ∈ c :: others, d ≠ stop := by
    intro d member same
    rw [← same, named d member] at other
    cases other
  have noColon := apart ':' (by decide) c (by simp)
  have noParen := apart '(' (by decide)
  have body : (':' :: (colon ++ c :: others ++ argument)).dropWhile (· == ':') =
      c :: others ++ argument := by
    rcases colons with rfl | rfl <;> simp [noColon]
  have name : (c :: others ++ argument).takeWhile (· != '(') = c :: others := by
    rw [List.takeWhile_append_of_pos (by simpa using noParen)]
    rcases arguments with rfl | ⟨_, rfl⟩ <;> simp
  have element : ((':' :: (colon ++ c :: others ++ argument)).take 2 == [':', ':']) =
      (colon == [':']) := by
    rcases colons with rfl | rfl <;> simp [noColon]
  simp only [pseudoLeaf, body, name, element, List.drop_left]
  refine ⟨c :: others, ?_, by simp, named⟩
  rcases colons with rfl | rfl <;> rcases arguments with rfl | ⟨_, rfl⟩ <;> simp

/-- Every component shows in the token that it is read from. -/
theorem lexeme_component {token : Token Terminal} {text : List Char} {component : Node Nat}
    (stands : token.StandsIn text) (read : component? token = some component) :
    component.Lexeme token.text := by
  obtain ⟨kind, piece, offset⟩ := token
  cases kind with
  | pseudo =>
    obtain ⟨rest, taken⟩ := stands.takes
    cases read
    exact lexeme_pseudoLeaf taken
  | simple kind =>
    cases read
    simp [Node.Lexeme, Leaf.Lexeme]
  | comma => cases read

end Selector
end SheetLint
