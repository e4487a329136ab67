import SheetLint.Proofs.Layout

/-! Values read from tokens: written out again, with a closing parenthesis after the parts of each
function and each parenthesis, the parts of a value are its tokens in order. -/
namespace SheetLint.Value

/-- A part by itself or an opening parenthesis, without what it encloses; none for a closing one. -/
abbrev Piece := Option (Node Nat)

def piece (token : Token Terminal) : Piece :=
  match token.kind with
  | .atom kind => some (.leaf (kind.leaf token.text) token.offset)
  | .function => some (.call (String.ofList token.text.dropLast) [] token.offset)
  | .leftParen => some (.parens [] token.offset)
  | .rightParen => none

mutual

/-- The pieces of a part in the order in which it writes them. -/
def pieces : Node Nat → List Piece
  | .call name arguments start => some (.call name [] start) :: piecesAll arguments ++ [none]
  | .parens parts start => some (.parens [] start) :: piecesAll parts ++ [none]
  | part => [some part]

def piecesAll : List (Node Nat) → List Piece
  | [] => []
  | part :: rest => pieces part ++ piecesAll rest

end

theorem piecesAll_append (first second : List (Node Nat)) :
    piecesAll (first ++ second) = piecesAll first ++ piecesAll second := by
  induction first with
  | nil => rfl
  | cons part rest ih => simp [piecesAll, ih]

/-- The pieces read before a place in a text: those around the openings, outermost first, and then those
of the parts before at the same depth. -/
def piecesBefore (parts : List (Node Nat)) : List Opening → List Piece
  | [] => piecesAll parts.reverse
  | opening :: outer =>
    piecesBefore opening.before outer ++ some (opening.node []) :: piecesAll parts.reverse

theorem pieces_opening (opening : Opening) (parts : List (Node Nat)) :
    pieces (opening.node parts) = some (opening.node []) :: piecesAll parts ++ [none] := by
  obtain ⟨_ | name, start, before⟩ := opening <;> simp [Opening.node, pieces]

theorem piecesBefore_cons (part : Node Nat) (parts : List (Node Nat)) (openings : List Opening) :
    piecesBefore (part :: parts) openings = piecesBefore parts openings ++ pieces part := by
  cases openings <;> simp [piecesBefore, piecesAll_append, piecesAll]

/-- What has been read and what is still to be read make up the result, token by token. -/
theorem pieces_assemble {stuck : Option (Char × Nat)} {last : Option (Token Terminal)}
    {openings : List Opening} {parts nodes : List (Node Nat)} {tokens : List (Token Terminal)}
    (read : assemble stuck last openings parts tokens = .ok nodes) :
    piecesAll nodes = piecesBefore parts openings ++ tokens.map piece := by
  induction tokens generalizing last openings parts with
  | nil =>
    cases stuck <;> cases openings <;> simp only [assemble] at read <;> cases read
    simp [piecesBefore]
  | cons token rest ih =>
    obtain ⟨kind, text, offset⟩ := token
    cases kind with
    | atom kind =>
      rw [ih read, piecesBefore_cons]
      simp [pieces, piece]
    | function =>
      rw [ih read]
      simp [piecesBefore, Opening.node, piecesAll, piece]
    | leftParen =>
      rw [ih read]
      simp [piecesBefore, Opening.node, piecesAll, piece]
    | rightParen =>
      cases openings with
      | nil => cases read
      | cons opening outer =>
        rw [ih read, piecesBefore_cons, pieces_opening]
        simp [piecesBefore, piece]

/-- A part without what it encloses. -/
def bare : Node Nat → Node Nat
  | .call name _ start => .call name [] start
  | .parens _ start => .parens [] start
  | part => part

/-- The sorts of nodes of which values are made. -/
def isPart : Node Nat → Bool
  | .leaf _ _ | .call _ _ _ | .parens _ _ => true
  | _ => false

/-- A walk meets parts in the order in which they are written. -/
theorem map_bare_walkFrom {nodes : List (Node Nat)}
    (made : ∀ part, some part ∈ piecesAll nodes → isPart part) :
    (Node.walkFrom nodes).map bare = (piecesAll nodes).filterMap id := by
  induction nodes using Node.walkFrom.induct with
  | case1 => simp [piecesAll]
  | case2 node pending ih =>
    rw [Node.walkFrom_cons, List.map_cons]
    rw [piecesAll_append] at ih
    simp only [piecesAll, List.mem_append] at made ih ⊢
    cases node with
    | leaf content start =>
      rw [ih fun part member => made part (.inr (by simpa [Node.children, piecesAll] using member))]
      simp [bare, pieces, Node.children, piecesAll]
    | call name arguments start =>
      rw [ih fun part member => made part (member.imp_left fun inside => by
        simp [pieces, Node.children] at inside ⊢
        exact .inr inside)]
      simp [bare, pieces, Node.children]
    | parens parts start =>
      rw [ih fun part member => made part (member.imp_left fun inside => by
        simp [pieces, Node.children] at inside ⊢
        exact .inr inside)]
      simp [bare, pieces, Node.children]
    | _ => exact Bool.noConfusion (made _ (.inl List.mem_cons_self))

theorem isPart_of_piece {token : Token Terminal} {part : Node Nat}
    (found : piece token = some part) : isPart part := by
  obtain ⟨kind, text, offset⟩ := token
  cases kind <;> cases found <;> rfl

theorem mark?_bare (part : Node Nat) : (bare part).mark? = part.mark? := by
  cases part <;> rfl

theorem fits_of_isPart_bare {part : Node Nat} (made : isPart (bare part)) : part.Fits := by
  cases part with
  | leaf | call | parens => trivial
  | _ => cases made

theorem lexeme_bare (lexeme : List Char) (part : Node Nat) :
    (bare part).Lexeme lexeme ↔ part.Lexeme lexeme := by
  cases part <;> simp [bare, Node.Lexeme]

/-- A token opens or is the part that stands at its offset. -/
theorem lexeme_piece {token : Token Terminal} {text : List Char} {part : Node Nat}
    (stands : token.StandsIn text) (found : piece token = some part) :
    (∃ kind, part.mark? = some (kind, token.offset)) ∧ part.Lexeme token.text := by
  obtain ⟨rest, taken⟩ := stands.takes
  obtain ⟨kind, lexeme, offset⟩ := token
  cases kind with
  | atom kind =>
    cases found
    exact ⟨⟨_, rfl⟩, lexeme_leaf taken⟩
  | function =>
    cases found
    refine ⟨⟨_, rfl⟩, ?_⟩
    simpa [Node.Lexeme] using takes_function taken
  | leftParen =>
    cases found
    exact ⟨⟨_, rfl⟩, Extent.takes_sign.mp taken⟩
  | rightParen => cases found

theorem read_eq_ok {text : List Char} {node : Node Nat} :
    read text = .ok node ↔ ∃ parts, node = .value parts (Text.leadingBlanks text) ∧
      assemble (lex (κ := Terminal) text).stuck none [] [] (lex text).tokens = .ok parts := by
  unfold read
  cases assembled : assemble (lex (κ := Terminal) text).stuck none [] [] (lex text).tokens with
  | error mismatch => simp [assembled, bind, Except.bind]
  | ok parts => simp [assembled, bind, Except.bind, pure, Except.pure, eq_comm]

theorem read_eq_error {text : List Char} {mismatch : Mismatch Terminal} :
    read text = .error mismatch ↔
      assemble (lex (κ := Terminal) text).stuck none [] [] (lex text).tokens = .error mismatch := by
  unfold read
  cases assembled : assemble (lex (κ := Terminal) text).stuck none [] [] (lex text).tokens with
  | error mismatch => simp [assembled, bind, Except.bind]
  | ok parts => simp [assembled, bind, Except.bind, pure, Except.pure]

section Assemble

variable {text : List Char} {parts : List (Node Nat)}
  (assembled : assemble (lex (κ := Terminal) text).stuck none [] [] (lex text).tokens = .ok parts)

include assembled

/-- A walk through a value meets its tokens, but for closing parentheses. -/
theorem map_bare_of_assemble :
    (Node.walkFrom parts).map bare = (lex text).tokens.filterMap piece := by
  have written : piecesAll parts = (lex text).tokens.map piece := pieces_assemble assembled
  rw [map_bare_walkFrom, written, List.filterMap_map]
  · rfl
  · intro part member
    rw [written, List.mem_map] at member
    obtain ⟨token, _, found⟩ := member
    exact isPart_of_piece found

theorem isPart_of_assemble {part : Node Nat} (member : part ∈ Node.walkFrom parts) :
    isPart (bare part) := by
  have present : bare part ∈ (lex text).tokens.filterMap piece := by
    rw [← map_bare_of_assemble assembled]
    exact List.mem_map_of_mem member
  obtain ⟨token, _, found⟩ := List.mem_filterMap.mp present
  exact isPart_of_piece found

/-- The parts of a value are laid out in its text. -/
theorem laid_of_assemble : Laid text 0 text.length parts := by
  have walked := map_bare_of_assemble assembled
  have standing (part : Node Nat) (member : part ∈ Node.walkFrom parts) :
      ∃ token : Token Terminal, token.StandsIn text ∧ piece token = some (bare part) := by
    have present : bare part ∈ (lex text).tokens.filterMap piece := by
      rw [← walked]
      exact List.mem_map_of_mem member
    obtain ⟨token, among, found⟩ := List.mem_filterMap.mp present
    exact ⟨token, standsIn_of_mem_lex proper_extent among, found⟩
  refine ⟨?_, ?_, ?_⟩
  · intro part member
    exact fits_of_isPart_bare (isPart_of_assemble assembled member)
  · intro part member kind start marked
    obtain ⟨token, stands, found⟩ := standing part member
    obtain ⟨⟨_, same⟩, written⟩ := lexeme_piece stands found
    rw [mark?_bare, marked] at same
    cases same
    refine ⟨Nat.zero_le _, ?_, token.text, (lexeme_bare _ _).mp written, stands.lexeme⟩
    exact Nat.lt_of_lt_of_le stands.offset_lt_stop stands.stop_le
  · have marks : Node.marks parts = (lex text).tokens.filterMap fun token =>
        (piece token).bind Node.mark? := by
      rw [← List.filterMap_filterMap, ← walked, List.filterMap_map, Node.marks]
      congr 1
      funext part
      exact (mark?_bare part).symm
    have marked {token : Token Terminal} (member : token ∈ (lex text).tokens) {mark : Node.Kind × Nat}
        (found : (piece token).bind Node.mark? = some mark) : mark.2 = token.offset := by
      obtain ⟨part, here, same⟩ := Option.bind_eq_some_iff.mp found
      obtain ⟨⟨kind, other⟩, _⟩ := lexeme_piece (standsIn_of_mem_lex proper_extent member) here
      rw [same] at other
      cases other
      rfl
    rw [marks, List.pairwise_filterMap]
    apply (lex_offsets_increase proper_extent text).imp_of_mem
    intro first second one two before front found back other
    have left := marked one found
    have right := marked two other
    refine ⟨by omega, ?_⟩
    rintro rfl
    omega

end Assemble
end SheetLint.Value
