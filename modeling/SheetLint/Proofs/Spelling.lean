import SheetLint.Node.Render
import SheetLint.Proofs.Recognised
import SheetLint.Proofs.ValueReading

/-! The text that a value is rendered as: its pieces are spelled one after the other, with a space in front of
each but after an opening parenthesis and before a closing one or a comma. -/
namespace SheetLint

namespace Node

variable {α β : Type}

theorem isComma_iff {node : Node α} : node.isComma ↔ ∃ start, node = leaf (.operator ",") start := by
  unfold isComma
  split <;> simp_all

theorem isComma_map (f : α → β) (node : Node α) : (node.map f).isComma = node.isComma := by
  cases node with
  | leaf content => cases content <;> rfl
  | _ => simp [map, isComma]

/-- What is written, and some parts with their texts put to it. -/
def joinOnto (written : String) (items : List (Node α × String)) : String :=
  items.foldl (fun written (part, text) =>
    if part.isComma then written ++ ","
    else if written.isEmpty then text
    else written ++ " " ++ text) written

theorem joinOnto_cons (written : String) (part : Node α) (text : String) (items : List (Node α × String)) :
    joinOnto written ((part, text) :: items) =
      joinOnto (if part.isComma then written ++ "," else if written.isEmpty then text
        else written ++ " " ++ text) items := rfl

theorem join_zip_map (f : α → β) (parts : List (Node α)) (texts : List String) :
    join ((parts.map (map f)).zip texts) = join (parts.zip texts) := by
  simp only [join, List.zip_map_left, List.foldl_map, Prod.map, isComma_map, id]

mutual

/-- The text of a node does not depend on how places are written. -/
theorem render_map (f : α → β) (node : Node α) : (node.map f).render = node.render := by
  cases node with
  | leaf | directive | foreign => rfl
  | call _ parts | parens parts | value parts =>
    simp only [map, render, renderAll_mapAll f parts]
    simp only [mapAll_eq_map, join_zip_map]
  | selector parts | block parts | stylesheet parts =>
    simp only [map, render, renderAll_mapAll f parts]
  | declaration _ part | atRule _ _ part => simp only [map, render, render_map f part]
  | ruleset selectors body =>
    simp only [map, render, renderAll_mapAll f selectors, render_map f body]

theorem renderAll_mapAll (f : α → β) (nodes : List (Node α)) :
    renderAll (mapAll f nodes) = renderAll nodes := by
  cases nodes with
  | nil => rfl
  | cons node rest => simp only [mapAll, renderAll, render_map f node, renderAll_mapAll f rest]

end

end Node

namespace Value

/-- The text of a piece. -/
def spell : Piece → List Char
  | some (.call name _ _) => name.toList ++ ['(']
  | some (.leaf content _) => content.render.toList
  | some _ => ['(']
  | none => [')']

def Piece.opens : Piece → Bool
  | some (.call _ _ _) | some (.parens _ _) => true
  | _ => false

/-- What stands before a piece. It is tight after an opening parenthesis and at the start. -/
def gap (tight : Bool) : Piece → List Char
  | some part => if tight || part.isComma then [] else [' ']
  | none => []

/-- The text of pieces in a row. -/
def weave (tight : Bool) : List Piece → List Char
  | [] => []
  | part :: rest => gap tight part ++ spell part ++ weave (Piece.opens part) rest

/-- Pieces that leave a trace in a text. -/
def Spelled : Piece → Prop
  | some part => isPart part ∧ spell part ≠ []
  | none => True

section Weave

theorem weave_closing (tight : Bool) (parts rest : List Piece) :
    weave tight (parts ++ none :: rest) = weave tight parts ++ ')' :: weave false rest := by
  induction parts generalizing tight with
  | nil => rfl
  | cons part parts ih => simp [weave, ih]

theorem weave_enclosed {part : Node Nat} (opens : Piece.opens (some part)) (tight : Bool)
    (inner rest : List Piece) :
    weave tight (some part :: inner ++ [none] ++ rest) =
      gap tight (some part) ++ (spell (some part) ++ weave true inner ++ [')']) ++ weave false rest := by
  simp [weave, opens, weave_closing]

/-- After a part that does not open anything a text goes on with a blank, a comma, a closing parenthesis, or
not at all. -/
theorem stops_weave (parts : List Piece) : Stops (weave false parts) := by
  cases parts with
  | nil =>
    rintro _ ⟨⟩
  | cons part rest =>
    cases part with
    | none =>
      rintro _ ⟨⟩
      exact .inr (.inr rfl)
    | some part =>
      by_cases comma : part.isComma
      · obtain ⟨start, rfl⟩ := Node.isComma_iff.mp comma
        rintro _ ⟨⟩
        exact .inr (.inl rfl)
      · simp [Stops, weave, gap, comma]

theorem isEmpty_eq_false {text : String} (visible : text.toList ≠ []) : text.isEmpty = false := by
  rw [Bool.eq_false_iff, ne_eq, String.isEmpty_iff]
  rintro rfl
  exact visible rfl

mutual

/-- A part is rendered as its pieces are spelled, and something has been written then. -/
theorem render_spelled {node : Node Nat} (spelled : ∀ part ∈ pieces node, Spelled part) :
    ∃ text, node.render = .ok text ∧ text.toList ≠ [] ∧ ∀ tight rest,
      weave tight (pieces node ++ rest) = gap tight (some node) ++ text.toList ++ weave false rest := by
  cases node with
  | leaf content start =>
    exact ⟨content.render, rfl, (spelled _ List.mem_cons_self).2, fun tight rest => rfl⟩
  | call name arguments start =>
    have within : ∀ part ∈ piecesAll arguments, Spelled part := fun part member =>
      spelled part (by simp [pieces, member])
    obtain ⟨texts, rendered, joined⟩ := renderAll_spelled within
    have inside : (Node.join (arguments.zip texts)).toList = weave true (piecesAll arguments) := joined ""
    refine ⟨name ++ "(" ++ Node.join (arguments.zip texts) ++ ")", ?_, by simp, fun tight rest => ?_⟩
    · simp [Node.render, rendered, bind, Except.bind, pure, Except.pure]
    · rw [pieces, weave_enclosed rfl, ← inside]
      simp [spell, gap, Node.isComma]
  | parens parts start =>
    have within : ∀ part ∈ piecesAll parts, Spelled part := fun part member =>
      spelled part (by simp [pieces, member])
    obtain ⟨texts, rendered, joined⟩ := renderAll_spelled within
    have inside : (Node.join (parts.zip texts)).toList = weave true (piecesAll parts) := joined ""
    refine ⟨"(" ++ Node.join (parts.zip texts) ++ ")", ?_, by simp, fun tight rest => ?_⟩
    · simp [Node.render, rendered, bind, Except.bind, pure, Except.pure]
    · rw [pieces, weave_enclosed rfl, ← inside]
      simp [spell, gap, Node.isComma]
  | _ => exact Bool.noConfusion (spelled _ List.mem_cons_self).1

/-- Parts are put together as their pieces are spelled. -/
theorem renderAll_spelled {nodes : List (Node Nat)} (spelled : ∀ part ∈ piecesAll nodes, Spelled part) :
    ∃ texts, Node.renderAll nodes = .ok texts ∧ ∀ written,
      (Node.joinOnto written (nodes.zip texts)).toList =
        written.toList ++ weave written.isEmpty (piecesAll nodes) := by
  cases nodes with
  | nil => exact ⟨[], rfl, fun written => (List.append_nil _).symm⟩
  | cons node rest =>
    obtain ⟨text, rendered, visible, woven⟩ := render_spelled fun part member =>
      spelled part (List.mem_append_left _ member)
    obtain ⟨texts, others, joined⟩ := renderAll_spelled fun part member =>
      spelled part (List.mem_append_right _ member)
    refine ⟨text :: texts, ?_, ?_⟩
    · simp [Node.renderAll, rendered, others, bind, Except.bind, pure, Except.pure]
    · intro written
      rw [List.zip_cons_cons, Node.joinOnto_cons, joined, piecesAll, woven]
      by_cases comma : node.isComma
      · obtain ⟨start, rfl⟩ := Node.isComma_iff.mp comma
        cases rendered
        have begun : (written ++ ",").isEmpty = false := isEmpty_eq_false (by simp)
        simp [comma, begun, gap, Leaf.render]
      · by_cases empty : written.isEmpty
        · obtain rfl := String.isEmpty_iff.mp empty
          simp [comma, empty, gap, isEmpty_eq_false visible]
        · have begun : (written ++ " " ++ text).isEmpty = false := isEmpty_eq_false (by simp)
          simp [comma, empty, begun, gap]

end

theorem render_value {nodes : List (Node Nat)} (spelled : ∀ part ∈ piecesAll nodes, Spelled part) (start : Nat) :
    ∃ written, (Node.value nodes start).render = .ok written ∧
      written.toList = weave true (piecesAll nodes) := by
  obtain ⟨texts, rendered, joined⟩ := renderAll_spelled spelled
  refine ⟨Node.join (nodes.zip texts), ?_, joined ""⟩
  simp [Node.render, rendered, bind, Except.bind, pure, Except.pure]

end Weave

/-- How tokens are spelled: as they stand in a text, but for units, which are in lower case, and flags, which
are without blanks. -/
inductive Spelling : Terminal → List Char → List Char → Prop
  | verbatim {kind : Terminal} {text : List Char} : Spelling kind text text
  | unit {number letters rest : List Char} (counted : numeral.Takes number rest) (nonempty : letters ≠ [])
      (word : ∀ c ∈ letters, c.isAlpha) :
      Spelling (.atom .dimension) (number ++ letters) (number ++ letters.map Char.toLower)
  | flag {blanks letters : List Char} (blank : ∀ c ∈ blanks, Text.isBlank c) (nonempty : letters ≠ [])
      (word : ∀ c ∈ letters, c.isAlpha) :
      Spelling (.atom .important) ('!' :: (blanks ++ letters)) ('!' :: letters)

section Spelling

open Extent

variable {kind : Terminal} {text spelled later rest number letters blanks : List Char}

theorem dimensionLeaf_append (counted : numeral.Takes number rest) (word : ∀ c ∈ letters, c.isAlpha) :
    dimensionLeaf (number ++ letters) =
      .dimension (String.ofList number) (String.ofList (letters.map Char.toLower)) := by
  have plain : ∀ c ∈ number, (!c.isAlpha) = true := by
    intro c member
    have starts := startsNumeral_of_takes counted c member
    simp only [startsNumeral, Bool.or_eq_true, beq_iff_eq] at starts
    rcases starts with ((rfl | rfl) | rfl) | digit
    · decide
    · decide
    · decide
    · cases letter : c.isAlpha with
      | false => rfl
      | true =>
        rw [Text.isDigit_of_isAlpha letter] at digit
        cases digit
  have none : letters.takeWhile (!·.isAlpha) = [] ∧ letters.dropWhile (!·.isAlpha) = letters := by
    cases letters with
    | nil => exact ⟨rfl, rfl⟩
    | cons c letters => simp [word c List.mem_cons_self]
  rw [dimensionLeaf, List.takeWhile_append_of_pos plain, List.dropWhile_append_of_pos plain, none.1, none.2,
    List.append_nil]

theorem spelling_of_takes {token : Token Terminal} (taken : token.kind.extent.Takes token.text rest) :
    Spelling token.kind token.text (spell (piece token)) := by
  obtain ⟨kind, text, offset⟩ := token
  change kind.extent.Takes text rest at taken
  have verbatim (same : spell (piece ⟨kind, text, offset⟩) = text) :
      Spelling kind text (spell (piece ⟨kind, text, offset⟩)) := by
    rw [same]
    exact .verbatim
  cases kind with
  | function =>
    apply verbatim
    rw [takes_function taken]
    simp [piece, spell]
  | leftParen | rightParen =>
    apply verbatim
    rw [takes_sign.mp taken]
    rfl
  | atom kind =>
    cases kind with
    | url | interpolation | quoted | number | bracketed | ident | operator =>
      exact verbatim (by simp [piece, spell, Atom.leaf, Leaf.render])
    | percentage =>
      obtain ⟨amount, _, rfl, _, sign⟩ := takes_seq.mp taken
      apply verbatim
      rw [takes_sign.mp sign]
      simp [piece, spell, Atom.leaf, Leaf.render]
    | color | reference =>
      obtain ⟨_, name, rfl, sign, _⟩ := takes_seq.mp taken
      apply verbatim
      rw [takes_sign.mp sign]
      simp [piece, spell, Atom.leaf, Leaf.render]
    | dimension =>
      obtain ⟨number, letters, rfl, counted, lettered⟩ := takes_seq.mp taken
      obtain ⟨nonempty, word, _⟩ := takes_many1.mp lettered
      simpa [piece, spell, Atom.leaf, dimensionLeaf_append counted word, Leaf.render] using
        Spelling.unit counted nonempty word
    | important =>
      obtain ⟨blanks, letters, rfl, blank, nonempty, word⟩ := takes_important taken
      have same := filter_flag blank word
      simpa [piece, spell, Atom.leaf, Leaf.render, same] using Spelling.flag blank nonempty word

theorem piece_of_spelling (spelling : Spelling kind text spelled) (offset : Nat) :
    piece ⟨kind, spelled, offset⟩ = piece ⟨kind, text, offset⟩ := by
  cases spelling with
  | verbatim => rfl
  | unit counted nonempty word =>
    rename_i number letters _
    have lower : ∀ c ∈ letters.map Char.toLower, c.isAlpha := by simpa using word
    simp [piece, Atom.leaf, dimensionLeaf_append counted word, dimensionLeaf_append counted lower,
      Function.comp_def]
  | flag blank nonempty word =>
    have bare := filter_flag (List.forall_mem_nil _) word
    have same := filter_flag blank word
    rw [List.nil_append] at bare
    simp only [piece, Atom.leaf, bare, same]

theorem head?_of_spelling (spelling : Spelling kind text spelled) : spelled.head? = text.head? := by
  cases spelling with
  | verbatim => rfl
  | unit counted nonempty word =>
    have taken : (Terminal.atom .number).extent.Takes _ _ := counted
    obtain ⟨c, number, rfl⟩ := List.exists_cons_of_ne_nil (ne_nil_of_takes taken)
    rfl
  | flag => rfl

/-- A token is recognised in what it is spelled as. -/
theorem recognise_of_spelling (spelling : Spelling kind text spelled)
    (found : recognise (text ++ later) = some (kind, text.length)) (free : kind.opens = false → Stops rest)
    (noAddress : kind = .function → ¬Comment.AddressWord text)
    (noFlag : kind = .atom .operator → (Terminal.atom .important).extent (text ++ rest) = none) :
    recognise (spelled ++ rest) = some (kind, spelled.length) := by
  cases spelling with
  | verbatim => exact recognise_again found free noAddress noFlag
  | @unit number letters later' counted nonempty word =>
    have stops : Stops rest := free rfl
    have lower : ∀ c ∈ letters.map Char.toLower, c.isAlpha := by simpa using word
    have taken : (Terminal.atom .dimension).extent.Takes (number ++ letters.map Char.toLower) rest :=
      takes_dimension counted (by simpa using nonempty) lower
        (stops.head Char.isAlpha (by decide) (by decide) (by decide))
    exact recognise_dimension taken stops
  | @flag blanks letters blank nonempty word =>
    have stops : Stops rest := free rfl
    have taken : (Terminal.atom .important).extent.Takes ('!' :: ([] ++ letters)) rest :=
      takes_flag (List.forall_mem_nil _) nonempty word
        (stops.head Char.isAlpha (by decide) (by decide) (by decide))
    exact recognise_of_starts taken (by decide)

end Spelling

end Value
end SheetLint
