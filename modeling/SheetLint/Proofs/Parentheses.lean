import SheetLint.Proofs.Bracing
import SheetLint.Proofs.ValueReading

/-! Values and their parentheses: a text is a value where all of it is tokens and every parenthesis has its
partner, and otherwise the first token that departs from this is the one reported. -/
namespace SheetLint

/-- No first part of some delimiters closes more than it opens. -/
def Matched (sites : List Site) : Prop := ∀ front, front <+: sites → 0 ≤ height front

namespace Matched

variable {sites : List Site}

theorem nil : Matched [] := by
  intro front begins
  simp [List.prefix_nil.mp begins]

theorem append (matched : Matched sites) {site : Site} (above : 0 ≤ height (sites ++ [site])) :
    Matched (sites ++ [site]) := by
  intro front begins
  rcases List.prefix_concat_iff.mp begins with rfl | earlier
  · exact above
  · exact matched front earlier

end Matched

theorem balanced_iff {sites : List Site} : Balanced sites ↔ Matched sites ∧ height sites = 0 := by
  constructor
  · intro balanced
    refine ⟨?_, balanced.level⟩
    rintro front ⟨back, rfl⟩
    exact balanced.above front back rfl
  · intro holds
    obtain ⟨matched, level⟩ := holds
    exact ⟨fun front back split => matched front ⟨back, split.symm⟩, level⟩

namespace Value

variable {seen rest : List (Token Terminal)} {token : Token Terminal}

/-- The parenthesis that a token is or ends in. -/
def bracket? (token : Token Terminal) : Option Site :=
  match token.kind with
  | .atom _ => none
  | .function | .leftParen => some (token.offset, .opening)
  | .rightParen => some (token.offset, .closing)

def brackets (tokens : List (Token Terminal)) : List Site := tokens.filterMap bracket?

theorem brackets_concat_none (found : bracket? token = none) :
    brackets (seen ++ [token]) = brackets seen := by
  simp [brackets, found]

theorem brackets_concat_some {site : Site} (found : bracket? token = some site) :
    brackets (seen ++ [token]) = brackets seen ++ [site] := by
  simp [brackets, found]

/-- The place at which the tokens of a text first depart from the form of values: a closing parenthesis
without a partner, or else the character that starts no token, or else, where parentheses are still open
at the end, the last token. -/
inductive Departs (lexing : Lexing Terminal) : Nat → Prop
  | unmatched {before after : List (Token Terminal)} {token : Token Terminal}
      (split : lexing.tokens = before ++ token :: after) (closing : token.kind = .rightParen)
      (balanced : Balanced (brackets before)) : Departs lexing token.offset
  | unknown {c : Char} {offset : Nat} (stuck : lexing.stuck = some (c, offset))
      (matched : Matched (brackets lexing.tokens)) : Departs lexing offset
  | unclosed {before : List (Token Terminal)} {token : Token Terminal}
      (finished : lexing.stuck = none) (split : lexing.tokens = before ++ [token])
      (matched : Matched (brackets lexing.tokens)) (deep : 0 < height (brackets lexing.tokens)) :
      Departs lexing token.offset

/-- A text that departs from the form of values somewhere is not all tokens in balance. -/
theorem Departs.not_balanced {lexing : Lexing Terminal} {place : Nat} (departs : Departs lexing place)
    (finished : lexing.stuck = none) : ¬Balanced (brackets lexing.tokens) := by
  intro balanced
  cases departs with
  | @unmatched before after token split closing earlier =>
    have site : bracket? token = some (token.offset, .closing) := by simp [bracket?, closing]
    have closed : brackets lexing.tokens = brackets before ++ (token.offset, .closing) :: brackets after := by
      simp [split, brackets, site]
    rw [closed] at balanced
    exact earlier.not_append_closing balanced
  | unknown stuck => simp [finished] at stuck
  | unclosed _ _ _ deep =>
    rw [balanced.level] at deep
    exact absurd deep (Int.lt_irrefl 0)

/-- What has been read when a token is next: as many openings are pending as the tokens so far leave open,
and all that they close was opened by them. -/
structure Underway (openings : List Opening) (seen : List (Token Terminal)) : Prop where
  depth : height (brackets seen) = openings.length
  matched : Matched (brackets seen)

namespace Underway

variable {openings : List Opening} {opening : Opening}

theorem start : Underway [] [] := ⟨rfl, Matched.nil⟩

theorem atom (underway : Underway openings seen) (found : bracket? token = none) :
    Underway openings (seen ++ [token]) := by
  constructor <;> rw [brackets_concat_none found]
  · exact underway.depth
  · exact underway.matched

theorem opens (underway : Underway openings seen) (found : bracket? token = some (token.offset, .opening)) :
    Underway (opening :: openings) (seen ++ [token]) := by
  have deeper : height (brackets seen ++ [(token.offset, .opening)]) = (opening :: openings).length := by
    simp [underway.depth, Delimiter.rise]
  constructor <;> rw [brackets_concat_some found]
  · exact deeper
  · exact underway.matched.append (by omega)

theorem closes (underway : Underway (opening :: openings) seen)
    (found : bracket? token = some (token.offset, .closing)) : Underway openings (seen ++ [token]) := by
  have back : height (brackets seen ++ [(token.offset, .closing)]) = openings.length := by
    simp [underway.depth, Delimiter.rise, Int.add_neg_cancel_right]
  constructor <;> rw [brackets_concat_some found]
  · exact back
  · exact underway.matched.append (by omega)

/-- Where nothing is open, what has been read is balanced. -/
theorem balanced (underway : Underway [] seen) : Balanced (brackets seen) :=
  balanced_iff.mpr ⟨underway.matched, underway.depth⟩

end Underway

/-- What the outcome of reading tells about the tokens of a text. -/
def Judged (lexing : Lexing Terminal) : Except (Mismatch Terminal) (List (Node Nat)) → Prop
  | .ok _ => lexing.stuck = none ∧ Balanced (brackets lexing.tokens)
  | .error mismatch => Departs lexing mismatch.offset

/-- Reading on from a place in a text where all so far is in order. -/
theorem judged_assemble {lexing : Lexing Terminal} {openings : List Opening} {parts : List (Node Nat)}
    (split : lexing.tokens = seen ++ rest) (underway : Underway openings seen) :
    Judged lexing (assemble lexing.stuck seen.getLast? openings parts rest) := by
  induction rest generalizing seen openings parts with
  | nil =>
    rw [List.append_nil] at split
    rw [← split] at underway
    cases stuck : lexing.stuck with
    | some found => exact Departs.unknown stuck underway.matched
    | none =>
      cases openings with
      | nil => exact ⟨stuck, underway.balanced⟩
      | cons opening outer =>
        have deep : 0 < height (brackets lexing.tokens) := by
          rw [underway.depth, List.length_cons]
          omega
        rcases List.eq_nil_or_concat' seen with rfl | ⟨before, last, rfl⟩
        · simp [split, brackets] at deep
        · simpa [assemble, Judged, Mismatch.offset] using Departs.unclosed stuck split underway.matched deep
  | cons token rest ih =>
    have further : lexing.tokens = (seen ++ [token]) ++ rest := by simp [split]
    have last : (seen ++ [token]).getLast? = some token := List.getLast?_concat
    have read {openings : List Opening} {parts : List (Node Nat)}
        (underway : Underway openings (seen ++ [token])) :
        Judged lexing (assemble lexing.stuck (some token) openings parts rest) :=
      last ▸ ih further underway
    unfold assemble
    split
    next kind same => exact read (underway.atom (by simp [bracket?, same]))
    next same => exact read (underway.opens (by simp [bracket?, same]))
    next same => exact read (underway.opens (by simp [bracket?, same]))
    next same =>
      cases openings with
      | nil => exact Departs.unmatched split same underway.balanced
      | cons opening outer => exact read (underway.closes (by simp [bracket?, same]))

theorem judged_lex (text : List Char) :
    Judged (lex text) (assemble (lex (κ := Terminal) text).stuck none [] [] (lex text).tokens) :=
  judged_assemble rfl Underway.start

end Value

/-- A value read from a part of a text, with every place in it, or the place of its fault, located. -/
def placedValue (locate : Nat → Position) (text : List Char) (offset : Nat) :
    Except ParseError (Node Position) :=
  ((readValue text offset).map (Node.map locate)).mapError fun failure =>
    .at failure.fault (locate failure.offset)

section Placed

variable {locate : Nat → Position} {text : List Char} {offset : Nat}

theorem placedValue_eq_ok {node : Node Position} :
    placedValue locate text offset = .ok node ↔ ∃ value, Value.read text = .ok value ∧
      node = value.map fun start => locate (offset + start) := by
  unfold placedValue readValue
  cases Value.read text with
  | error mismatch => simp [Except.map, Except.mapError]
  | ok value => simp [Except.map, Except.mapError, Node.map_map, eq_comm]

theorem placedValue_eq_error {error : ParseError} :
    placedValue locate text offset = .error error ↔ ∃ mismatch, Value.read text = .error mismatch ∧
      error = .at (.value text mismatch) (locate (offset + mismatch.offset)) := by
  unfold placedValue readValue
  cases Value.read text with
  | error mismatch => simp [Except.map, Except.mapError, eq_comm]
  | ok value => simp [Except.map, Except.mapError]

end Placed

/-- A text is a value where its tokens take up all of it and their parentheses match. The parts of the value,
written out, are then the tokens; and otherwise the fault lies where the tokens first depart from this. -/
theorem value_of_balanced_tokens (locate : Nat → Position) (text : List Char) (offset : Nat) :
    Divided 0 text (lex (κ := Value.Terminal) text).tokens (lex (κ := Value.Terminal) text).stuck ∧
    ((∃ node, placedValue locate text offset = .ok node) ↔
      (lex (κ := Value.Terminal) text).stuck = none ∧ Balanced (Value.brackets (lex text).tokens)) ∧
    (∀ node, placedValue locate text offset = .ok node → ∃ parts,
      node = (Node.value parts (Text.leadingBlanks text)).map (fun start => locate (offset + start)) ∧
      Value.piecesAll parts = (lex text).tokens.map Value.piece) ∧
    (∀ error, placedValue locate text offset = .error error → ∃ place mismatch,
      Value.Departs (lex text) place ∧
      error = .at (.value text mismatch) (locate (offset + place))) := by
  have judged := Value.judged_lex text
  refine ⟨divided_lexFrom Value.proper_extent text 0, ?_, ?_, ?_⟩
  · simp only [placedValue_eq_ok, Value.read_eq_ok]
    cases assembled : Value.assemble (lex (κ := Value.Terminal) text).stuck none [] []
        (lex text).tokens with
    | ok parts =>
      rw [assembled] at judged
      simpa using show _ ∧ _ from judged
    | error mismatch =>
      rw [assembled] at judged
      simpa using judged.not_balanced
  · intro node read
    obtain ⟨value, found, rfl⟩ := placedValue_eq_ok.mp read
    obtain ⟨parts, rfl, assembled⟩ := Value.read_eq_ok.mp found
    exact ⟨parts, rfl, Value.pieces_assemble assembled⟩
  · intro error failed
    obtain ⟨mismatch, found, rfl⟩ := placedValue_eq_error.mp failed
    rw [Value.read_eq_error.mp found] at judged
    exact ⟨mismatch.offset, mismatch, judged, rfl⟩

/-- A call that holds a parenthesis of its own, and the same with one closing parenthesis more. -/
theorem value_of_balanced_tokens_of_call :
    (∃ node, placedValue (fun start => ⟨1, start⟩) "f((1))".toList 2 = .ok node ∧ ∃ parts,
      node = (Node.value parts 0).map (fun start => ⟨1, (2 + start : Nat)⟩) ∧
      Value.piecesAll parts = (lex "f((1))".toList).tokens.map Value.piece) ∧
    ∃ error, placedValue (fun start => ⟨1, start⟩) "f((1))) ;".toList 2 = .error error ∧
      ∃ place mismatch, Value.Departs (lex "f((1))) ;".toList) place ∧
        error = .at (.value "f((1))) ;".toList mismatch) ⟨1, (2 + place : Nat)⟩ := by
  have read : placedValue (fun start => ⟨1, start⟩) "f((1))".toList 2 =
      .ok (.value [.call "f" [.parens [.leaf (.number "1") ⟨1, 5⟩] ⟨1, 4⟩] ⟨1, 2⟩] ⟨1, 2⟩) := by rfl
  have failed : placedValue (fun start => ⟨1, start⟩) "f((1))) ;".toList 2 =
      .error (.at (.value "f((1))) ;".toList (.unexpected ⟨.rightParen, [')'], 6⟩
        (Vocabulary.listing.filter (· != .rightParen)) true)) ⟨1, 8⟩) := by rfl
  obtain ⟨_, _, written, _⟩ := value_of_balanced_tokens _ "f((1))".toList 2
  obtain ⟨_, _, _, located⟩ := value_of_balanced_tokens _ "f((1))) ;".toList 2
  exact ⟨⟨_, read, written _ read⟩, _, failed, located _ failed⟩

end SheetLint
