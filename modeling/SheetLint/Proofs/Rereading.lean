import SheetLint.Proofs.Parentheses
import SheetLint.Proofs.Spelling
import Mathlib.Data.List.Chain

/-! Rendered values read again: the pieces of a value are the tokens of the text that it is rendered as, unless
an exclamation mark and a word come together there that a line break kept apart. -/
namespace SheetLint

namespace Value

open Extent

/-- A token that is recognised in some text, and is not the word for an address. -/
structure Settled (token : Token Terminal) : Prop where
  recognised : ∃ later, recognise (token.text ++ later) = some (token.kind, token.text.length)
  noAddress : token.kind = .function → ¬Comment.AddressWord token.text

theorem isSeparator_of_starts {c : Char} {kind : Terminal} (starts : kind.starts c) : isSeparator c = false := by
  have apart (separator : Char) (listed : separator ∈ [' ', '\t', '\x0c', '\r', '\n']) :
      ∀ kind ∈ (Vocabulary.preference : List Terminal), (!kind.starts separator) = true := by
    have all : [' ', '\t', '\x0c', '\r', '\n'].all fun separator =>
        (Vocabulary.preference : List Terminal).all fun kind => !kind.starts separator := by decide
    exact List.all_eq_true.mp (List.all_eq_true.mp all separator listed)
  rw [Bool.eq_false_iff]
  intro separates
  have listed : c ∈ [' ', '\t', '\x0c', '\r', '\n'] := by simpa [isSeparator, or_assoc] using separates
  have other := apart c listed kind (mem_preference kind)
  rw [starts] at other
  cases other

namespace Settled

variable {token : Token Terminal}

theorem takes (settled : Settled token) : ∃ later, token.kind.extent.Takes token.text later := by
  obtain ⟨later, found⟩ := settled.recognised
  exact ⟨later, (recognise_eq_some_iff.mp found).2.1⟩

theorem spelling (settled : Settled token) : Spelling token.kind token.text (spell (piece token)) := by
  obtain ⟨later, taken⟩ := settled.takes
  exact spelling_of_takes taken

theorem visible (settled : Settled token) :
    ∃ c, token.text.head? = some c ∧ (spell (piece token)).head? = some c ∧ isSeparator c = false := by
  obtain ⟨later, taken⟩ := settled.takes
  have same := head?_of_spelling settled.spelling
  obtain ⟨c, more, written⟩ := List.exists_cons_of_ne_nil (ne_nil_of_takes taken)
  rw [written] at taken same ⊢
  exact ⟨c, rfl, same, isSeparator_of_starts (starts_of_takes taken)⟩

theorem spell_ne_nil (settled : Settled token) : spell (piece token) ≠ [] := by
  obtain ⟨c, _, begun, _⟩ := settled.visible
  intro empty
  rw [empty] at begun
  cases begun

theorem spelled (settled : Settled token) : Spelled (piece token) := by
  have nonempty := settled.spell_ne_nil
  cases found : piece token with
  | none => trivial
  | some part =>
    rw [found] at nonempty
    exact ⟨isPart_of_piece found, nonempty⟩

end Settled

section Closing

variable {stuck : Option (Char × Nat)} {last : Option (Token Terminal)} {openings : List Opening}
  {parts nodes : List (Node Nat)} {token : Token Terminal} {before after : List (Token Terminal)}

/-- What is open is closed by a later token. -/
theorem exists_closing_of_open {opening : Opening}
    (assembled : assemble stuck last (opening :: openings) parts after = .ok nodes) :
    ∃ closing ∈ after, closing.kind = .rightParen := by
  induction after generalizing last openings opening parts with
  | nil => cases stuck <;> cases assembled
  | cons token rest ih =>
    by_cases closes : token.kind = .rightParen
    · exact ⟨token, List.mem_cons_self, closes⟩
    · obtain ⟨kind, text, offset⟩ := token
      have further : ∃ closing ∈ rest, closing.kind = .rightParen := by
        cases kind with
        | rightParen => exact absurd rfl closes
        | atom _ | function | leftParen => exact ih assembled
      obtain ⟨closing, member, closes⟩ := further
      exact ⟨closing, List.mem_cons_of_mem _ member, closes⟩

theorem exists_closing_after (assembled : assemble stuck last openings parts (before ++ token :: after) = .ok nodes)
    (calls : token.kind = .function) : ∃ closing ∈ after, closing.kind = .rightParen := by
  induction before generalizing last openings parts with
  | nil =>
    obtain ⟨kind, text, offset⟩ := token
    cases calls
    exact exists_closing_of_open assembled
  | cons first rest ih =>
    obtain ⟨kind, text, offset⟩ := first
    cases kind with
    | atom _ | function | leftParen => exact ih assembled
    | rightParen =>
      cases openings with
      | nil => cases assembled
      | cons opening outer => exact ih assembled

theorem url_ne_none {letters later : List Char} (spelled : Comment.AddressWord letters) (paren : ')' ∈ later) :
    (Terminal.atom .url).extent (letters ++ later) ≠ none := by
  obtain ⟨inside, more, rfl, first⟩ := List.eq_append_cons_of_mem paren
  have taken : (Terminal.atom .url).extent.Takes (letters ++ (inside ++ [')'])) more :=
    Comment.takes_address spelled first
  unfold Takes at taken
  intro missing
  simp [missing] at taken

/-- A call is closed by a parenthesis behind its opening. -/
theorem paren_behind {text : List Char}
    (assembled : assemble (lex (κ := Terminal) text).stuck none [] [] (lex text).tokens = .ok nodes)
    (member : token ∈ (lex text).tokens) (calls : token.kind = .function) : ')' ∈ text.drop token.stop := by
  obtain ⟨before, after, tokens⟩ := List.append_of_mem member
  have ordered := lex_pairwise proper_extent text
  rw [tokens] at assembled ordered
  obtain ⟨closing, among, closes⟩ := exists_closing_after assembled calls
  have precedes : token.stop ≤ closing.offset :=
    (List.pairwise_cons.mp (List.pairwise_append.mp ordered).2.1).1 closing among
  have here : closing.StandsIn text := standsIn_of_mem_lex proper_extent (by simp [tokens, among])
  obtain ⟨rest, taken⟩ := here.takes
  rw [closes] at taken
  have written : ')' ∈ text.drop closing.offset :=
    here.lexeme.subset (takes_sign.mp taken ▸ List.mem_singleton_self ')')
  exact List.drop_subset_drop_left text precedes written

/-- The tokens of a value are settled: the word for an address would take all up to the parenthesis that
closes the call. -/
theorem settled_of_assemble {text : List Char}
    (assembled : assemble (lex (κ := Terminal) text).stuck none [] [] (lex text).tokens = .ok nodes) :
    ∀ token ∈ (lex text).tokens, Settled token := by
  intro token member
  have stands := standsIn_of_mem_lex proper_extent member
  obtain ⟨later, split⟩ := stands.lexeme
  have preferred := stands.preferred
  rw [← split] at preferred
  refine ⟨⟨later, preferred⟩, ?_⟩
  intro calls spelled
  have behind : text.drop token.stop = later := by
    rw [Token.stop, ← List.drop_drop, ← split, List.drop_left]
  have paren : ')' ∈ later := by
    rw [← behind]
    exact paren_behind assembled member calls
  obtain ⟨_, _, unlike⟩ := recognise_eq_some_iff.mp preferred
  have missing : (Terminal.atom .url).extent (token.text ++ later) = none :=
    unlike (.atom .url) (by rw [calls]; decide)
  exact url_ne_none spelled paren missing

end Closing

/-- An exclamation mark by itself, and after it a token that starts with a letter. -/
def SplitFlag (first second : Token Terminal) : Prop :=
  first.kind = .atom .operator ∧ first.text = ['!'] ∧ ∃ c ∈ second.text.head?, c.isAlpha

instance (first second : Token Terminal) : Decidable (SplitFlag first second) :=
  inferInstanceAs (Decidable (_ ∧ _ ∧ _))

/-- A piece whose place is left out. -/
def unplaced (part : Piece) : Piece := part.map (Node.map fun _ => 0)

section Weaving

variable {first : Token Terminal} {tokens : List (Token Terminal)}

theorem opens_piece (token : Token Terminal) : Piece.opens (piece token) = token.kind.opens := by
  obtain ⟨kind, text, offset⟩ := token
  cases kind <;> rfl

theorem unplaced_piece (kind : Terminal) (text : List Char) (offset other : Nat) :
    unplaced (piece ⟨kind, text, offset⟩) = unplaced (piece ⟨kind, text, other⟩) := by
  cases kind <;> rfl

/-- A flag is what an exclamation mark and a letter make, also where spaces stand between them. -/
theorem important_eq_none_iff (text : List Char) : (Terminal.atom .important).extent ('!' :: text) = none ↔
    ∀ c ∈ (text.dropWhile isSpace).head?, c.isAlpha = false := by
  have mark : (sign '!').Takes ['!'] text := takes_sign.mpr rfl
  have spaces : (many isSpace).Takes (text.takeWhile isSpace) (text.dropWhile isSpace) := by
    rw [Takes, List.takeWhile_append_dropWhile]
    rfl
  have further : (many isSpace >> many1 Char.isAlpha) text = none ↔
      many1 Char.isAlpha (text.dropWhile isSpace) = none := by
    simpa only [List.takeWhile_append_dropWhile] using seq_eq_none_iff spaces
  exact (seq_eq_none_iff mark).trans (further.trans many1_eq_none_iff)

theorem gap_cases (tight : Bool) (part : Piece) : gap tight part = [] ∨ gap tight part = [' '] := by
  cases part with
  | none => exact .inl rfl
  | some part =>
    by_cases joined : tight || part.isComma
    · exact .inl (if_pos joined)
    · exact .inr (if_neg joined)

/-- The space in front of a piece is dropped. -/
theorem lexFrom_gap (tight : Bool) (part : Piece) (offset : Nat) (text : List Char) :
    ∃ start, lexFrom (κ := Terminal) offset 0 (gap tight part ++ text) = lexFrom start 0 text := by
  rcases gap_cases tight part with joined | loose
  · rw [joined]
    exact ⟨offset, rfl⟩
  · rw [loose]
    exact ⟨offset + 1, rfl⟩

/-- Behind an exclamation mark the next token follows after at most one space. -/
theorem head?_dropWhile_weave (settled : ∀ token ∈ tokens, Settled token) :
    ((weave false (tokens.map piece)).dropWhile isSpace).head? =
      tokens.head?.bind (·.text.head?) := by
  cases tokens with
  | nil => rfl
  | cons token rest =>
    obtain ⟨c, written, begun, visible⟩ := (settled token List.mem_cons_self).visible
    obtain ⟨more, spelled⟩ := List.head?_eq_some_iff.mp begun
    have apart : isSpace c = false := by
      simp only [isSeparator, isSpace, Bool.or_eq_false_iff] at visible ⊢
      exact visible.1.1.1
    rcases gap_cases false (piece token) with tight | loose
    · simp [weave, tight, spelled, apart, written]
    · have space : isSpace ' ' := by decide
      simp [weave, loose, spelled, space, apart, written]

/-- An exclamation mark by itself is met again unless a word comes after it. -/
theorem important_weave_eq_none_iff (settled : ∀ token ∈ tokens, Settled token) :
    (Terminal.atom .important).extent ('!' :: weave false (tokens.map piece)) = none ↔
      ∀ next ∈ tokens.head?, ∀ c ∈ next.text.head?, c.isAlpha = false := by
  rw [important_eq_none_iff, head?_dropWhile_weave settled]
  cases tokens <;> simp

theorem noFlag (here : Settled first) (settled : ∀ token ∈ tokens, Settled token)
    (apart : ∀ next ∈ tokens.head?, ¬SplitFlag first next) (sign : first.kind = .atom .operator) :
    (Terminal.atom .important).extent (first.text ++ weave false (tokens.map piece)) = none := by
  obtain ⟨later, taken⟩ := here.takes
  rw [sign] at taken
  obtain ⟨c, written, _⟩ := takes_char.mp taken
  rw [written]
  by_cases mark : c = '!'
  · subst mark
    refine (important_weave_eq_none_iff settled).mpr fun next begins d starts => ?_
    rw [Bool.eq_false_iff]
    intro letter
    exact apart next begins ⟨sign, written, d, starts, letter⟩
  · exact extent_eq_none (by simpa [Terminal.starts, Atom.starts] using mark) _

/-- The token that the text of pieces starts with is the first of them. -/
theorem lexFrom_weave_cons (here : Settled first)
    (free : first.kind = .atom .operator →
      (Terminal.atom .important).extent (first.text ++ weave false (tokens.map piece)) = none)
    (tight : Bool) (offset : Nat) :
    ∃ start next, lexFrom (κ := Terminal) offset 0 (weave tight ((first :: tokens).map piece)) =
      ⟨⟨first.kind, spell (piece first), start⟩ ::
        (lexFrom next 0 (weave first.kind.opens (tokens.map piece))).tokens,
        (lexFrom (κ := Terminal) next 0 (weave first.kind.opens (tokens.map piece))).stuck⟩ := by
  obtain ⟨c, _, begun, visible⟩ := here.visible
  obtain ⟨later, found⟩ := here.recognised
  have again : recognise (spell (piece first) ++ weave first.kind.opens (tokens.map piece)) =
      some (first.kind, (spell (piece first)).length) := by
    refine recognise_of_spelling here.spelling found ?_ here.noAddress ?_
    · intro closed
      rw [closed]
      exact stops_weave _
    · intro sign
      rw [sign]
      exact free sign
  have apart : ∀ d ∈ (spell (piece first)).head?, isSeparator d = false := by
    rw [begun]
    rintro _ ⟨⟩
    exact visible
  obtain ⟨start, skipped⟩ := lexFrom_gap tight (piece first) offset
    (spell (piece first) ++ weave first.kind.opens (tokens.map piece))
  refine ⟨start, start + (spell (piece first)).length, ?_⟩
  rw [List.map_cons, weave, opens_piece, List.append_assoc, skipped,
    lexFrom_of_recognise here.spell_ne_nil apart again]

/-- The tokens of the text of pieces are these pieces, if no flag comes together. -/
theorem lexFrom_weave (settled : ∀ token ∈ tokens, Settled token)
    (chained : tokens.IsChain fun first second => ¬SplitFlag first second) (tight : Bool) (offset : Nat) :
    (lexFrom offset 0 (weave tight (tokens.map piece))).tokens.map (fun token => unplaced (piece token)) =
        tokens.map (fun token => unplaced (piece token)) ∧
      (lexFrom (κ := Terminal) offset 0 (weave tight (tokens.map piece))).stuck = none := by
  induction tokens generalizing tight offset with
  | nil => exact ⟨rfl, rfl⟩
  | cons token rest ih =>
    obtain ⟨here, others⟩ := List.forall_mem_cons.mp settled
    obtain ⟨apart, chained⟩ := List.isChain_cons.mp chained
    obtain ⟨start, next, lexed⟩ := lexFrom_weave_cons here (noFlag here others apart) tight offset
    obtain ⟨same, finished⟩ := ih others chained token.kind.opens next
    rw [lexed]
    refine ⟨?_, finished⟩
    rw [List.map_cons, List.map_cons, same, piece_of_spelling here.spelling start,
      unplaced_piece _ _ start token.offset]

/-- An exclamation mark and the word after it are read as a flag. -/
theorem lexFrom_splitFlag {second : Token Terminal} (settled : ∀ token ∈ tokens, Settled token)
    (split : SplitFlag first second) (begins : second ∈ tokens.head?) (tight : Bool) (offset : Nat) :
    ∃ (flag : Token Terminal) (later : List (Token Terminal)), flag.kind = .atom .important ∧
      (lexFrom offset 0 (weave tight ((first :: tokens).map piece))).tokens = flag :: later := by
  obtain ⟨sign, written, c, starts, letter⟩ := split
  have mark : spell (piece first) = ['!'] := by
    obtain ⟨kind, text, place⟩ := first
    cases sign
    cases written
    simp [piece, spell, Atom.leaf, Leaf.render]
  obtain ⟨length, taken⟩ : ∃ length,
      (Terminal.atom .important).extent ('!' :: weave false (tokens.map piece)) = some length := by
    apply Option.ne_none_iff_exists'.mp
    rw [ne_eq, important_weave_eq_none_iff settled]
    intro plain
    rw [plain second begins c starts] at letter
    cases letter
  have unlike : ∀ other ∈ (Vocabulary.preference : List Terminal).takeWhile (· != .atom .important),
      other.starts '!' = false := by decide
  have found : recognise ('!' :: weave false (tokens.map piece)) = some (Terminal.atom .important, length) :=
    recognise_eq_some_iff.mpr ⟨mem_preference _, taken, fun other member =>
      extent_eq_none (unlike other member) _⟩
  obtain ⟨start, skipped⟩ := lexFrom_gap tight (piece first) offset ('!' :: weave false (tokens.map piece))
  have visible : isSeparator '!' = false := by decide
  have closed : first.kind.opens = false := by
    rw [sign]
    rfl
  rw [List.map_cons, weave, opens_piece, closed, mark, List.append_assoc, List.singleton_append, skipped]
  simp [lexFrom, visible, found]

/-- Where the tokens of the text of pieces are these pieces again, no flag comes together. -/
theorem isChain_of_lexFrom_weave (settled : ∀ token ∈ tokens, Settled token) (tight : Bool) (offset : Nat)
    (same : (lexFrom offset 0 (weave tight (tokens.map piece))).tokens.map (fun token => unplaced (piece token)) =
      tokens.map (fun token => unplaced (piece token))) :
    tokens.IsChain fun first second => ¬SplitFlag first second := by
  induction tokens generalizing tight offset with
  | nil => exact .nil
  | cons token rest ih =>
    obtain ⟨here, others⟩ := List.forall_mem_cons.mp settled
    have apart : ∀ next ∈ rest.head?, ¬SplitFlag token next := by
      intro next begins split
      -- A flag is read as a name, and the mark by itself was an operator.
      obtain ⟨flag, later, important, lexed⟩ := lexFrom_splitFlag others split begins tight offset
      obtain ⟨kind, text, offset⟩ := token
      obtain ⟨flagKind, flagText, flagOffset⟩ := flag
      cases important
      obtain ⟨sign, _⟩ := split
      cases sign
      rw [lexed] at same
      simp [piece, unplaced, Atom.leaf, Node.map] at same
    obtain ⟨start, next, lexed⟩ := lexFrom_weave_cons here (noFlag here others apart) tight offset
    rw [lexed, List.map_cons, List.map_cons] at same
    exact List.isChain_cons.mpr ⟨apart, ih others _ next (List.cons.inj same).2⟩

end Weaving

section Assembling

/-- Parts whose places are left out. -/
def unplacedAll (parts : List (Node Nat)) : List (Node Nat) := parts.map (Node.map fun _ => 0)

@[simp] theorem unplacedAll_cons (part : Node Nat) (parts : List (Node Nat)) :
    unplacedAll (part :: parts) = part.map (fun _ => 0) :: unplacedAll parts := rfl

@[simp] theorem unplacedAll_reverse (parts : List (Node Nat)) :
    unplacedAll parts.reverse = (unplacedAll parts).reverse := List.map_reverse

def Opening.unplaced (opening : Opening) : Opening := ⟨opening.function?, 0, unplacedAll opening.before⟩

theorem Opening.map_node (opening : Opening) (parts : List (Node Nat)) :
    (opening.node parts).map (fun _ => 0) = opening.unplaced.node (unplacedAll parts) := by
  obtain ⟨_ | name, start, before⟩ := opening <;>
    simp [Opening.node, Opening.unplaced, unplacedAll, Node.map]

mutual

theorem pieces_unplaced (node : Node Nat) :
    pieces (node.map fun _ => 0) = (pieces node).map unplaced := by
  cases node with
  | call _ parts | parens parts =>
    have inside : piecesAll (parts.map (Node.map fun _ => 0)) = (piecesAll parts).map unplaced :=
      piecesAll_unplaced parts
    simp [pieces, Node.map, unplaced, inside]
  | _ => simp [pieces, Node.map, unplaced]

theorem piecesAll_unplaced (nodes : List (Node Nat)) :
    piecesAll (unplacedAll nodes) = (piecesAll nodes).map unplaced := by
  cases nodes with
  | nil => rfl
  | cons node rest => simp [piecesAll, pieces_unplaced node, piecesAll_unplaced rest]

end

variable {stuck : Option (Char × Nat)} {last last' : Option (Token Terminal)} {openings openings' : List Opening}
  {parts parts' nodes : List (Node Nat)} {tokens tokens' : List (Token Terminal)}

/-- Tokens are put together in the same way wherever they stand. -/
theorem assemble_of_same (assembled : assemble stuck last openings parts tokens = .ok nodes)
    (sameTokens : tokens'.map (fun token => unplaced (piece token)) =
      tokens.map (fun token => unplaced (piece token)))
    (sameOpenings : openings'.map Opening.unplaced = openings.map Opening.unplaced)
    (sameParts : unplacedAll parts' = unplacedAll parts) :
    ∃ again, assemble none last' openings' parts' tokens' = .ok again ∧ unplacedAll again = unplacedAll nodes := by
  induction tokens generalizing tokens' last last' openings openings' parts parts' with
  | nil =>
    obtain rfl := List.map_eq_nil_iff.mp sameTokens
    cases stuck <;> cases openings <;> cases assembled
    obtain rfl := List.map_eq_nil_iff.mp sameOpenings
    exact ⟨parts'.reverse, rfl, by simp [sameParts]⟩
  | cons token rest ih =>
    -- The two runs go in step: tokens with the same piece are of kinds that are put together in the same way.
    obtain ⟨token', rest', rfl, here, others⟩ := List.map_eq_cons_iff.mp sameTokens
    obtain ⟨kind, text, offset⟩ := token
    obtain ⟨kind', text', offset'⟩ := token'
    cases kind with
    | atom kind =>
      cases kind' with
      | atom kind' =>
        have content : kind'.leaf text' = kind.leaf text := by simpa [unplaced, piece, Node.map] using here
        simp only [assemble] at assembled ⊢
        exact ih assembled others sameOpenings (by simp [Node.map, content, sameParts])
      | _ => cases here
    | function =>
      cases kind' with
      | function =>
        have name : String.ofList text'.dropLast = String.ofList text.dropLast := by
          simpa [unplaced, piece, Node.map] using here
        simp only [assemble] at assembled ⊢
        exact ih assembled others (by simp [Opening.unplaced, sameParts, name, sameOpenings]) rfl
      | _ => cases here
    | leftParen =>
      cases kind' with
      | leftParen =>
        simp only [assemble] at assembled ⊢
        exact ih assembled others (by simp [Opening.unplaced, sameParts, sameOpenings]) rfl
      | _ => cases here
    | rightParen =>
      cases kind' with
      | rightParen =>
        cases openings with
        | nil => cases assembled
        | cons opening outer =>
          obtain ⟨opening', outer', rfl, opened, around⟩ := List.map_eq_cons_iff.mp sameOpenings
          have before : unplacedAll opening'.before = unplacedAll opening.before := congrArg Opening.before opened
          simp only [assemble] at assembled ⊢
          refine ih assembled others around ?_
          simp [Opening.map_node, opened, sameParts, before]
      | _ => cases here

end Assembling

/-- Values are the same but for places where their parts are. -/
theorem map_value_eq_iff {α : Type} {f g : Nat → α} {first second : List (Node Nat)} {start other : Nat} :
    ((Node.value first start).map f).map (fun _ => ()) = ((Node.value second other).map g).map (fun _ => ()) ↔
      unplacedAll first = unplacedAll second := by
  simp only [Node.map, Node.mapAll_eq_map, Node.value.injEq, and_true, List.map_map, Function.comp_def,
    Node.map_map]
  constructor
  · intro same
    simpa [unplacedAll, Function.comp_def, Node.map_map] using congrArg (List.map (Node.map fun _ => 0)) same
  · intro same
    simpa [unplacedAll, Function.comp_def, Node.map_map] using congrArg (List.map (Node.map fun _ => ())) same

end Value

section Placed

variable {locate : Nat → Position} {text : List Char} {offset : Nat} {node : Node Position}

/-- A value is rendered as a text, and that text is read as the same value, but for places, exactly where no
exclamation mark comes before a word that it has been kept apart from. -/
theorem value_reads_back_iff (read : placedValue locate text offset = .ok node) :
    ∃ written, node.render = .ok written ∧ ∀ (locate' : Nat → Position) (offset' : Nat),
      (∃ again, placedValue locate' written.toList offset' = .ok again ∧
        again.map (fun _ => ()) = node.map fun _ => ()) ↔
      (lex (κ := Value.Terminal) text).tokens.IsChain fun first second => ¬Value.SplitFlag first second := by
  obtain ⟨value, found, rfl⟩ := placedValue_eq_ok.mp read
  obtain ⟨parts, rfl, assembled⟩ := Value.read_eq_ok.mp found
  have settled := Value.settled_of_assemble assembled
  have pieces : Value.piecesAll parts = (lex text).tokens.map Value.piece := Value.pieces_assemble assembled
  have spelled : ∀ part ∈ Value.piecesAll parts, Value.Spelled part := by
    rw [pieces, List.forall_mem_map]
    exact fun token member => (settled token member).spelled
  obtain ⟨written, rendered, woven⟩ := Value.render_value spelled (Text.leadingBlanks text)
  rw [pieces] at woven
  refine ⟨written, by rw [Node.render_map, rendered], fun locate' offset' => ?_⟩
  constructor
  · -- Pieces tell the tokens of both texts, so that these are the same, and then no flag can come together.
    rintro ⟨_, readAgain, same⟩
    obtain ⟨_, foundAgain, rfl⟩ := placedValue_eq_ok.mp readAgain
    obtain ⟨others, rfl, assembledAgain⟩ := Value.read_eq_ok.mp foundAgain
    have piecesAgain : Value.piecesAll others = (lex written.toList).tokens.map Value.piece :=
      Value.pieces_assemble assembledAgain
    have unplaced := congrArg Value.piecesAll (Value.map_value_eq_iff.mp same)
    rw [Value.piecesAll_unplaced, Value.piecesAll_unplaced, pieces, piecesAgain, woven, List.map_map,
      List.map_map] at unplaced
    exact Value.isChain_of_lexFrom_weave settled true 0 unplaced
  · intro chained
    obtain ⟨sameTokens, finished⟩ := Value.lexFrom_weave settled chained true 0
    obtain ⟨others, assembledAgain, sameParts⟩ : ∃ others,
        Value.assemble (lex (κ := Value.Terminal) written.toList).stuck none [] [] (lex written.toList).tokens =
          .ok others ∧ Value.unplacedAll others = Value.unplacedAll parts := by
      rw [woven, lex, finished]
      exact Value.assemble_of_same assembled sameTokens rfl rfl
    exact ⟨_, placedValue_eq_ok.mpr ⟨_, Value.read_eq_ok.mpr ⟨others, rfl, assembledAgain⟩, rfl⟩,
      Value.map_value_eq_iff.mpr sameParts⟩

end Placed

/-- A unit in capitals and a flag with blanks in it. -/
theorem value_reads_back_iff_of_unit :
    ∃ node written again, placedValue (fun start => ⟨1, start⟩) "a  1PX,\n! Important".toList 2 = .ok node ∧
      node.render = .ok written ∧ placedValue (fun start => ⟨1, start⟩) written.toList 0 = .ok again ∧
      again.map (fun _ => ()) = node.map fun _ => () := by
  have read : placedValue (fun start => ⟨1, start⟩) "a  1PX,\n! Important".toList 2 =
      .ok (.value [.leaf (.ident "a") ⟨1, 2⟩, .leaf (.dimension "1" "px") ⟨1, 5⟩, .leaf (.operator ",") ⟨1, 8⟩,
        .leaf (.ident "!Important") ⟨1, 10⟩] ⟨1, 2⟩) := by rfl
  have chained : (lex (κ := Value.Terminal) "a  1PX,\n! Important".toList).tokens.IsChain
      fun first second => ¬Value.SplitFlag first second := by decide
  obtain ⟨written, rendered, back⟩ := value_reads_back_iff read
  obtain ⟨again, readAgain, same⟩ := (back _ 0).mpr chained
  exact ⟨_, written, again, read, rendered, readAgain, same⟩

/-- A line break between an exclamation mark and a word keeps them apart, and the space that they are rendered
with does not. -/
theorem split_flag_does_not_read_back :
    ∃ node again, placedValue (fun start => ⟨1, start⟩) "!\nimportant".toList 0 = .ok node ∧
      node.render = .ok "! important" ∧
      placedValue (fun start => ⟨1, start⟩) "! important".toList 0 = .ok again ∧
      again.map (fun _ => ()) ≠ node.map fun _ => () := by
  have read : placedValue (fun start => ⟨1, start⟩) "!\nimportant".toList 0 =
      .ok (.value [.leaf (.operator "!") ⟨1, 0⟩, .leaf (.ident "important") ⟨1, 2⟩] ⟨1, 0⟩) := by rfl
  have readAgain : placedValue (fun start => ⟨1, start⟩) "! important".toList 0 =
      .ok (.value [.leaf (.ident "!important") ⟨1, 0⟩] ⟨1, 0⟩) := by rfl
  exact ⟨_, _, read, rfl, readAgain, by simp [Node.map]⟩

end SheetLint
