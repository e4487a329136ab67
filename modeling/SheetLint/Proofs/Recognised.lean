import SheetLint.Proofs.Numeral
import SheetLint.Proofs.StringReach

/-! Tokens of values that are recognised again where something else follows them: a token that closes itself
whatever comes, and any other one where a blank, a comma, a closing parenthesis or nothing comes. -/
namespace SheetLint

namespace Extent

/-- What a lexeme takes does not depend on what follows it. -/
def Closed (lexeme : Extent) : Prop := ∀ piece later rest, lexeme.Takes piece later → lexeme.Takes piece rest

theorem closed_char (ok : Char → Bool) : (char ok).Closed :=
  fun _ _ _ taken => takes_char.mpr (takes_char.mp taken)

theorem closed_sign (c : Char) : (sign c).Closed := closed_char _

theorem closed_word (letters : List Char) : (word letters).Closed :=
  fun _ _ _ taken => Comment.takes_word.mpr (Comment.takes_word.mp taken)

theorem closed_through (stop : Char) : (through stop).Closed :=
  fun _ _ _ taken => Comment.takes_through.mpr (Comment.takes_through.mp taken)

theorem closed_seq {first second : Extent} (one : first.Closed) (two : second.Closed) :
    (first >> second).Closed := by
  intro piece later rest taken
  obtain ⟨front, back, rfl, begun, continued⟩ := takes_seq.mp taken
  exact takes_seq.mpr ⟨front, back, rfl, one _ _ _ begun, two _ _ _ continued⟩

end Extent

theorem StringLiteral.closed_looseExtent : looseExtent.Closed := by
  intro piece later rest taken
  obtain ⟨mark, body, rfl, quote, closed⟩ := isLooseLiteral_of_takes taken
  simp [Extent.Takes, looseExtent, quote, closeLoose_of_looselyClosed quote closed]

/-- What may follow a part where it does not close itself. -/
def Stops (rest : List Char) : Prop := ∀ c ∈ rest.head?, c = ' ' ∨ c = ',' ∨ c = ')'

section Stops

variable {rest : List Char}

theorem Stops.head (stops : Stops rest) (ok : Char → Bool) (blank : ok ' ' = false) (comma : ok ',' = false)
    (paren : ok ')' = false) : ∀ c ∈ rest.head?, ok c = false := by
  intro c first
  rcases stops c first with rfl | rfl | rfl
  · exact blank
  · exact comma
  · exact paren

theorem Stops.ne (stops : Stops rest) {d : Char} (blank : d ≠ ' ') (comma : d ≠ ',') (paren : d ≠ ')') :
    ∀ c ∈ rest.head?, c ≠ d := by
  intro c first
  rcases stops c first with rfl | rfl | rfl
  · exact blank.symm
  · exact comma.symm
  · exact paren.symm

/-- A piece none of whose characters may follow a part ends within the part. -/
theorem prefix_of_stops {ok : Char → Bool} {piece word : List Char} (begins : piece <+: word ++ rest)
    (inside : ∀ c ∈ piece, ok c) (stops : ∀ c ∈ rest.head?, ok c = false) : piece <+: word := by
  rcases List.prefix_or_prefix_of_prefix begins (List.prefix_append word rest) with within | ⟨more, rfl⟩
  · exact within
  · have further : more <+: rest := (List.prefix_append_right_inj word).mp begins
    cases more with
    | nil => simp
    | cons c more =>
      obtain ⟨later, rfl⟩ := further
      have accepted := inside c (by simp)
      rw [stops c rfl] at accepted
      cases accepted

end Stops

namespace Value

open Extent

variable {piece word rest later : List Char}

section Names

/-- The opening of a call: a name after up to two hyphens, and its parenthesis. -/
theorem takes_function_iff : Terminal.function.extent.Takes piece rest ↔
    ∃ hyphens c names, piece = hyphens ++ c :: (names ++ ['(']) ∧ (∀ d ∈ hyphens, d == '-') ∧
      hyphens.length ≤ 2 ∧ startsIdent c ∧ ∀ d ∈ names, (Text.isName d || d == '.') := by
  change (atMost 2 (· == '-') >> char startsIdent >> many (fun c => Text.isName c || c == '.') >>
    sign '(').Takes piece rest ↔ _
  simp only [takes_seq, takes_sign, takes_char, takes_many, takes_atMost]
  constructor
  · rintro ⟨hyphens, _, rfl, ⟨all, short, _⟩, _, _, rfl, ⟨c, rfl, starts⟩, names, _, rfl, ⟨named, _⟩, rfl⟩
    exact ⟨hyphens, c, names, rfl, all, short, starts, named⟩
  · rintro ⟨hyphens, c, names, rfl, all, short, starts, named⟩
    refine ⟨hyphens, _, rfl, ⟨all, short, fun _ => ?_⟩, [c], _, rfl, ⟨c, rfl, starts⟩, names, _, rfl,
      ⟨named, ?_⟩, rfl⟩
    · rintro _ ⟨⟩
      exact beq_false_of_ne (Text.ne_of_class starts (by decide))
    · rintro _ ⟨⟩
      decide

/-- The first character of an identifier after its hyphens. -/
def opensIdent (c : Char) : Bool := startsIdent c || c == '\\'

def continuesIdent (c : Char) : Bool := Text.isName c || c == '\\'

theorem takes_ident_iff : Atom.ident.extent.Takes piece rest ↔
    ∃ hyphens c names, piece = hyphens ++ c :: names ∧ (∀ d ∈ hyphens, d == '-') ∧ hyphens.length ≤ 2 ∧
      opensIdent c ∧ (∀ d ∈ names, continuesIdent d) ∧ ∀ d ∈ rest.head?, continuesIdent d = false := by
  change (atMost 2 (· == '-') >> char opensIdent >> many continuesIdent).Takes piece rest ↔ _
  simp only [takes_seq, takes_char, takes_many, takes_atMost]
  constructor
  · rintro ⟨hyphens, _, rfl, ⟨all, short, _⟩, _, names, rfl, ⟨c, rfl, starts⟩, named, stops⟩
    exact ⟨hyphens, c, names, rfl, all, short, starts, named, stops⟩
  · rintro ⟨hyphens, c, names, rfl, all, short, starts, named, stops⟩
    refine ⟨hyphens, _, rfl, ⟨all, short, fun _ => ?_⟩, [c], names, rfl, ⟨c, rfl, starts⟩, named, stops⟩
    rintro _ ⟨⟩
    exact beq_false_of_ne (Text.ne_of_class starts (by decide))

end Names

section Openings

/-- The characters of the opening of a call. -/
def isCallOpening (c : Char) : Bool := c == '-' || startsIdent c || Text.isName c || c == '.' || c == '('

/-- Behind a word without a parenthesis no call is opened. -/
theorem function_eq_none (plain : '(' ∉ word) (stops : Stops rest) :
    Terminal.function.extent (word ++ rest) = none := by
  cases found : Terminal.function.extent (word ++ rest) with
  | none => rfl
  | some length =>
    obtain ⟨piece, later, split, taken⟩ := takes_of_eq_some (proper_extent .function).bounded found
    obtain ⟨hyphens, c, names, rfl, all, _, starts, named⟩ := takes_function_iff.mp taken
    have inside : ∀ d ∈ hyphens ++ c :: (names ++ ['(']), isCallOpening d := by
      simp only [List.forall_mem_append, List.forall_mem_cons]
      refine ⟨fun d member => ?_, by simp [isCallOpening, starts], fun d member => ?_, rfl,
        List.forall_mem_nil _⟩
      · simp [isCallOpening, all d member]
      · rcases Bool.or_eq_true_iff.mp (named d member) with name | dot
        · simp [isCallOpening, name]
        · simp [isCallOpening, dot]
    have within := prefix_of_stops ⟨later, split.symm⟩ inside
      (stops.head isCallOpening (by decide) (by decide) (by decide))
    exact absurd (within.subset (by simp)) plain

theorem url_eq_none (plain : '(' ∉ word) (stops : Stops rest) : Atom.url.extent (word ++ rest) = none := by
  apply seq_eq_none_left
  cases found : Extent.word "url(".toList (word ++ rest) with
  | none => rfl
  | some length =>
    obtain ⟨piece, later, split, taken⟩ := takes_of_eq_some (bounded_word _) found
    have spelled := Comment.takes_word.mp taken
    have inside : ∀ c ∈ piece, "url(".toList.contains c.toLower := by
      intro c member
      rw [List.contains_iff_mem, ← spelled]
      exact List.mem_map_of_mem member
    have within := prefix_of_stops ⟨later, split.symm⟩ inside
      (stops.head (fun c => "url(".toList.contains c.toLower) (by decide) (by decide) (by decide))
    have paren : '(' ∈ piece.map Char.toLower := by
      rw [spelled]
      decide
    obtain ⟨c, member, same⟩ := List.mem_map.mp paren
    obtain rfl := Text.eq_of_toLower_eq same (by decide)
    exact absurd (within.subset member) plain

end Openings

section Retakes

variable {number blanks letters : List Char}

theorem takes_dimension (counted : numeral.Takes number later) (nonempty : letters ≠ [])
    (word : ∀ c ∈ letters, c.isAlpha) (ends : ∀ c ∈ rest.head?, c.isAlpha = false) :
    Atom.dimension.extent.Takes (number ++ letters) rest := by
  refine takes_seq.mpr ⟨number, letters, rfl, ?_, takes_many1.mpr ⟨nonempty, word, ends⟩⟩
  obtain ⟨c, letters, rfl⟩ := List.exists_cons_of_ne_nil nonempty
  refine numeral_retakes counted ?_
  rintro _ ⟨⟩
  have letter := word c List.mem_cons_self
  refine ⟨Text.isDigit_of_isAlpha letter, ?_⟩
  rintro rfl
  cases letter

/-- The blanks that may stand within a flag for importance. -/
def isSpace (c : Char) : Bool := c == ' ' || c == '\t'

theorem takes_flag (spaces : ∀ c ∈ blanks, isSpace c) (nonempty : letters ≠ [])
    (word : ∀ c ∈ letters, c.isAlpha) (ends : ∀ c ∈ rest.head?, c.isAlpha = false) :
    Atom.important.extent.Takes ('!' :: (blanks ++ letters)) rest := by
  have closed : ∀ c ∈ (letters ++ rest).head?, isSpace c = false := by
    obtain ⟨c, letters, rfl⟩ := List.exists_cons_of_ne_nil nonempty
    rintro _ ⟨⟩
    have letter := word c List.mem_cons_self
    rw [isSpace, Bool.or_eq_false_iff, beq_eq_false_iff_ne, beq_eq_false_iff_ne]
    exact ⟨Text.ne_of_class letter (by decide), Text.ne_of_class letter (by decide)⟩
  exact takes_seq.mpr ⟨['!'], _, rfl, takes_sign.mpr rfl, takes_seq.mpr
    ⟨blanks, letters, rfl, takes_many.mpr ⟨spaces, closed⟩, takes_many1.mpr ⟨nonempty, word, ends⟩⟩⟩

/-- A token that opens a parenthesis. -/
def Terminal.opens : Terminal → Bool
  | .function | .leftParen => true
  | .atom _ | .rightParen => false

/-- A lexeme is taken again where something else follows. -/
theorem retakes {kind : Terminal} (taken : kind.extent.Takes piece later)
    (free : kind.opens = false → Stops rest) : kind.extent.Takes piece rest := by
  cases kind with
  | function =>
    have opening := takes_function_iff.mp taken
    exact takes_function_iff.mpr opening
  | leftParen | rightParen => exact closed_sign _ _ _ _ taken
  | atom kind =>
    have stops : Stops rest := free rfl
    have noDigit : ∀ c ∈ rest.head?, Text.isDigit c = false ∧ c ≠ '.' := fun c first =>
      ⟨stops.head Text.isDigit (by decide) (by decide) (by decide) c first,
        stops.ne (by decide) (by decide) (by decide) c first⟩
    have noLetter := stops.head Char.isAlpha (by decide) (by decide) (by decide)
    have noName := stops.head Text.isName (by decide) (by decide) (by decide)
    cases kind with
    | url => exact closed_seq (closed_word _) (closed_through _) _ _ _ taken
    | interpolation =>
      exact closed_seq (closed_sign _) (closed_seq (closed_sign _) (closed_through _)) _ _ _ taken
    | bracketed => exact closed_seq (closed_sign _) (closed_through _) _ _ _ taken
    | quoted => exact StringLiteral.closed_looseExtent _ _ _ taken
    | operator => exact closed_char _ _ _ _ taken
    | dimension =>
      obtain ⟨number, letters, rfl, counted, lettered⟩ := takes_seq.mp taken
      obtain ⟨nonempty, word, _⟩ := takes_many1.mp lettered
      exact takes_dimension counted nonempty word noLetter
    | percentage =>
      obtain ⟨number, sign, rfl, counted, signed⟩ := takes_seq.mp taken
      obtain rfl := takes_sign.mp signed
      refine takes_seq.mpr ⟨number, ['%'], rfl, numeral_retakes counted ?_, takes_sign.mpr rfl⟩
      rintro _ ⟨⟩
      decide
    | number => exact numeral_retakes taken noDigit
    | color | reference =>
      obtain ⟨sign, word, rfl, signed, named⟩ := takes_seq.mp taken
      obtain ⟨nonempty, all, _⟩ := takes_many1.mp named
      exact takes_seq.mpr ⟨sign, word, rfl, takes_sign.mpr (takes_sign.mp signed),
        takes_many1.mpr ⟨nonempty, all, noName⟩⟩
    | important =>
      obtain ⟨sign, _, rfl, signed, more⟩ := takes_seq.mp taken
      obtain rfl := takes_sign.mp signed
      obtain ⟨blanks, letters, rfl, spaces, lettered⟩ := takes_seq.mp more
      obtain ⟨nonempty, word, _⟩ := takes_many1.mp lettered
      have flag := takes_flag (takes_many.mp spaces).1 nonempty word noLetter
      exact flag
    | ident =>
      obtain ⟨hyphens, c, names, rfl, all, short, starts, named, _⟩ := takes_ident_iff.mp taken
      exact takes_ident_iff.mpr ⟨hyphens, c, names, rfl, all, short, starts, named,
        stops.head continuesIdent (by decide) (by decide) (by decide)⟩

end Retakes

section Unlike

theorem mem_preference (kind : Terminal) : kind ∈ (Vocabulary.preference : List Terminal) := by
  cases kind with
  | atom kind => cases kind <;> decide
  | _ => decide

theorem ne_nil_of_takes {kind : Terminal} (taken : kind.extent.Takes piece rest) : piece ≠ [] := by
  rintro rfl
  exact absurd (proper_extent kind _ _ taken).1 (Nat.lt_irrefl 0)

theorem recognise_of_takes {kind : Terminal} (taken : kind.extent.Takes piece rest)
    (unlike : ∀ other ∈ (Vocabulary.preference : List Terminal).takeWhile (· != kind),
      other.extent (piece ++ rest) = none) : recognise (piece ++ rest) = some (kind, piece.length) :=
  recognise_eq_some_iff.mpr ⟨mem_preference kind, taken, unlike⟩

theorem starts_of_takes {kind : Terminal} {c : Char} {more : List Char}
    (taken : kind.extent.Takes (c :: more) rest) : kind.starts c :=
  startsIn_extent kind c _ _ taken (Nat.succ_pos _)

/-- A token is recognised by its first character alone where no kind that is preferred starts with it. -/
theorem recognise_of_starts {kind : Terminal} {c : Char} {more : List Char}
    (taken : kind.extent.Takes (c :: more) rest)
    (others : ∀ other ∈ (Vocabulary.preference : List Terminal).takeWhile (· != kind), other.starts c = false) :
    recognise (c :: more ++ rest) = some (kind, (c :: more).length) :=
  recognise_of_takes taken fun other member => extent_eq_none (others other member) (more ++ rest)

/-- The kinds of parts that start with a sign of their own. -/
def signed : List Terminal :=
  [.atom .interpolation, .atom .color, .atom .quoted, .atom .important, .atom .bracketed, .atom .reference]

theorem signed_eq_none (ok : Char → Bool) {c : Char} (accepted : ok c)
    (others : ['#', '\x22', '\x27', '!', '[', '$'].all fun d => !ok d) {kind : Terminal} (member : kind ∈ signed)
    (rest : List Char) : kind.extent (c :: rest) = none := by
  have apart : ∀ d ∈ ['#', '\x22', '\x27', '!', '[', '$'], (c == d) = false := by
    intro d listed
    have other := List.all_eq_true.mp others d listed
    exact beq_false_of_ne (Text.ne_of_class accepted (by simpa using other))
  have other : kind.starts c = false := by
    simp only [signed, List.mem_cons, List.not_mem_nil, or_false] at member
    rcases member with rfl | rfl | rfl | rfl | rfl | rfl <;>
      simp [Terminal.starts, Atom.starts, StringLiteral.isMark, apart]
  exact extent_eq_none other rest

theorem recognise_dimension (taken : (Terminal.atom .dimension).extent.Takes piece rest) (stops : Stops rest) :
    recognise (piece ++ rest) = some (Terminal.atom .dimension, piece.length) := by
  have plain : '(' ∉ piece := by
    obtain ⟨number, letters, rfl, counted, lettered⟩ := takes_seq.mp taken
    rw [List.mem_append, not_or]
    exact ⟨Text.not_mem_of_class (startsNumeral_of_takes counted) (by decide),
      Text.not_mem_of_class (takes_many1.mp lettered).2.1 (by decide)⟩
  obtain ⟨c, more, rfl⟩ := List.exists_cons_of_ne_nil (ne_nil_of_takes taken)
  have starts : startsNumeral c := starts_of_takes taken
  have unlike : ∀ other ∈ [Terminal.atom .url, .atom .interpolation, .function],
      other.extent (c :: more ++ rest) = none := by
    simp only [List.forall_mem_cons]
    exact ⟨url_eq_none plain stops, signed_eq_none startsNumeral starts (by decide) (by decide) _,
      function_eq_none plain stops, List.forall_mem_nil _⟩
  exact recognise_of_takes taken unlike

theorem recognise_percentage (taken : (Terminal.atom .percentage).extent.Takes piece rest) (stops : Stops rest) :
    recognise (piece ++ rest) = some (Terminal.atom .percentage, piece.length) := by
  obtain ⟨number, sign, rfl, counted, signed⟩ := takes_seq.mp taken
  obtain rfl := takes_sign.mp signed
  have plain : '(' ∉ number ++ ['%'] := by
    rw [List.mem_append, not_or]
    exact ⟨Text.not_mem_of_class (startsNumeral_of_takes counted) (by decide), by decide⟩
  have dimension : Atom.dimension.extent (number ++ ['%'] ++ rest) = none := by
    rw [List.append_assoc]
    refine seq_eq_none counted (many1_eq_none ?_)
    rintro _ ⟨⟩
    decide
  obtain ⟨c, more, same⟩ := List.exists_cons_of_ne_nil (ne_nil_of_takes taken)
  have begun := taken
  rw [same] at begun
  have starts : startsNumeral c := starts_of_takes begun
  have unlike : ∀ other ∈ [Terminal.atom .url, .atom .interpolation, .function, .atom .dimension],
      other.extent (number ++ ['%'] ++ rest) = none := by
    simp only [List.forall_mem_cons]
    refine ⟨url_eq_none plain stops, ?_, function_eq_none plain stops, dimension, List.forall_mem_nil _⟩
    rw [same]
    exact signed_eq_none startsNumeral starts (by decide) (by decide) _
  exact recognise_of_takes taken unlike

theorem recognise_number (taken : (Terminal.atom .number).extent.Takes piece rest) (stops : Stops rest) :
    recognise (piece ++ rest) = some (Terminal.atom .number, piece.length) := by
  have counted : numeral.Takes piece rest := taken
  have plain : '(' ∉ piece := Text.not_mem_of_class (startsNumeral_of_takes counted) (by decide)
  have dimension : Atom.dimension.extent (piece ++ rest) = none :=
    seq_eq_none counted (many1_eq_none (stops.head Char.isAlpha (by decide) (by decide) (by decide)))
  have percentage : Atom.percentage.extent (piece ++ rest) = none :=
    seq_eq_none counted (sign_eq_none (stops.ne (by decide) (by decide) (by decide)))
  obtain ⟨c, more, rfl⟩ := List.exists_cons_of_ne_nil (ne_nil_of_takes taken)
  have starts : startsNumeral c := starts_of_takes taken
  have signs {kind : Terminal} (member : kind ∈ signed) : kind.extent (c :: more ++ rest) = none :=
    signed_eq_none startsNumeral starts (by decide) member _
  have unlike : ∀ other ∈ [Terminal.atom .url, .atom .interpolation, .function, .atom .dimension,
      .atom .percentage, .atom .color, .atom .quoted], other.extent (c :: more ++ rest) = none := by
    simp only [List.forall_mem_cons]
    exact ⟨url_eq_none plain stops, signs (by decide), function_eq_none plain stops, dimension, percentage,
      signs (by decide), signs (by decide), List.forall_mem_nil _⟩
  exact recognise_of_takes taken unlike

theorem recognise_ident (taken : (Terminal.atom .ident).extent.Takes piece rest) (stops : Stops rest)
    (missing : numeral (piece ++ rest) = none) :
    recognise (piece ++ rest) = some (Terminal.atom .ident, piece.length) := by
  have plain : '(' ∉ piece := by
    obtain ⟨hyphens, c, names, rfl, all, _, starts, named, _⟩ := takes_ident_iff.mp taken
    simp only [List.mem_append, List.mem_cons, not_or]
    exact ⟨Text.not_mem_of_class all (by decide), (Text.ne_of_class starts (by decide)).symm,
      Text.not_mem_of_class named (by decide)⟩
  obtain ⟨c, more, rfl⟩ := List.exists_cons_of_ne_nil (ne_nil_of_takes taken)
  have starts : Terminal.starts c (.atom .ident) := starts_of_takes taken
  have signs {kind : Terminal} (member : kind ∈ signed) : kind.extent (c :: more ++ rest) = none :=
    signed_eq_none (Terminal.starts · (.atom .ident)) starts (by decide) member _
  have unlike : ∀ other ∈ [Terminal.atom .url, .atom .interpolation, .function, .atom .dimension,
      .atom .percentage, .atom .color, .atom .quoted, .atom .number, .atom .important, .atom .bracketed,
      .atom .reference], other.extent (c :: more ++ rest) = none := by
    simp only [List.forall_mem_cons]
    exact ⟨url_eq_none plain stops, signs (by decide), function_eq_none plain stops,
      seq_eq_none_left missing, seq_eq_none_left missing, signs (by decide), signs (by decide), missing,
      signs (by decide), signs (by decide), signs (by decide), List.forall_mem_nil _⟩
  exact recognise_of_takes taken unlike

theorem recognise_color (taken : (Terminal.atom .color).extent.Takes piece rest) :
    recognise (piece ++ rest) = some (Terminal.atom .color, piece.length) := by
  obtain ⟨sign, word, rfl, signed, named⟩ := takes_seq.mp taken
  obtain rfl := takes_sign.mp signed
  obtain ⟨nonempty, all, _⟩ := takes_many1.mp named
  obtain ⟨c, word, rfl⟩ := List.exists_cons_of_ne_nil nonempty
  have interpolation : (Terminal.atom .interpolation).extent ('#' :: (c :: word ++ rest)) = none := by
    have taken : (sign '#').Takes ['#'] (c :: word ++ rest) := takes_sign.mpr rfl
    refine seq_eq_none taken (seq_eq_none_left (sign_eq_none ?_))
    rintro _ ⟨⟩
    exact Text.ne_of_class (all c List.mem_cons_self) (by decide)
  have unlike : ∀ other ∈ [Terminal.atom .url, .atom .interpolation, .function, .atom .dimension,
      .atom .percentage], other.extent ('#' :: (c :: word ++ rest)) = none := by
    simp only [List.forall_mem_cons]
    exact ⟨extent_eq_none (by decide) _, interpolation, extent_eq_none (by decide) _,
      extent_eq_none (by decide) _, extent_eq_none (by decide) _, List.forall_mem_nil _⟩
  exact recognise_of_takes taken unlike

theorem recognise_quoted (taken : (Terminal.atom .quoted).extent.Takes piece rest) :
    recognise (piece ++ rest) = some (Terminal.atom .quoted, piece.length) := by
  obtain ⟨mark, body, rfl, quote, _⟩ := StringLiteral.isLooseLiteral_of_takes taken
  have found : StringLiteral.looseExtent (mark :: (body ++ rest)) = some (mark :: body).length := taken
  rw [List.cons_append, recognise_of_isMark quote, found]
  rfl

/-- What stands before the first of some characters is told by the whole text. -/
theorem eq_of_append_cons_eq {c : Char} {one two back after : List Char} (first : c ∉ one) (second : c ∉ two)
    (same : one ++ c :: back = two ++ c :: after) : one = two := by
  rcases List.append_eq_append_iff.mp same with ⟨more, rfl, split⟩ | ⟨more, rfl, split⟩
  · rcases List.cons_eq_append_iff.mp split with ⟨rfl, _⟩ | ⟨_, rfl, _⟩
    · exact (List.append_nil one).symm
    · simp at second
  · rcases List.cons_eq_append_iff.mp split with ⟨rfl, _⟩ | ⟨_, rfl, _⟩
    · exact List.append_nil two
    · simp at first

/-- The word for an address ends in its only parenthesis. -/
theorem eq_concat_of_addressWord {letters : List Char} (spelled : Comment.AddressWord letters) :
    ∃ front, letters = front ++ ['('] ∧ '(' ∉ front := by
  have split : letters.map Char.toLower = ['u', 'r', 'l'] ++ ['('] := spelled
  obtain ⟨front, back, rfl, word, paren⟩ := List.map_eq_append_iff.mp split
  obtain ⟨c, rest, rfl, same, none⟩ := List.map_eq_cons_iff.mp paren
  obtain rfl := List.map_eq_nil_iff.mp none
  obtain rfl := Text.eq_of_toLower_eq same (by decide)
  refine ⟨front, rfl, ?_⟩
  intro member
  have lower := List.mem_map_of_mem (f := Char.toLower) member
  rw [word] at lower
  revert lower
  decide

theorem eq_concat_of_function (taken : Terminal.function.extent.Takes piece rest) :
    ∃ name, piece = name ++ ['('] ∧ '(' ∉ name := by
  obtain ⟨hyphens, c, names, rfl, all, _, starts, named⟩ := takes_function_iff.mp taken
  refine ⟨hyphens ++ c :: names, by simp, ?_⟩
  simp only [List.mem_append, List.mem_cons, not_or]
  exact ⟨Text.not_mem_of_class all (by decide), (Text.ne_of_class starts (by decide)).symm,
    Text.not_mem_of_class named (by decide)⟩

/-- A call that is not the word for an address does not start with it either: both end in their only
parenthesis. -/
theorem url_eq_none_of_function (taken : Terminal.function.extent.Takes piece rest)
    (noAddress : ¬Comment.AddressWord piece) : (Terminal.atom .url).extent (piece ++ rest) = none := by
  apply seq_eq_none_left
  cases found : Extent.word "url(".toList (piece ++ rest) with
  | none => rfl
  | some length =>
    obtain ⟨letters, later, split, spelled⟩ := takes_of_eq_some (bounded_word _) found
    have address : Comment.AddressWord letters := Comment.takes_word.mp spelled
    obtain ⟨front, rfl, early⟩ := eq_concat_of_addressWord address
    obtain ⟨name, rfl, first⟩ := eq_concat_of_function taken
    simp only [List.append_assoc, List.singleton_append] at split
    rw [eq_of_append_cons_eq first early split] at noAddress
    exact absurd address noAddress

/-- A call is recognised unless it is the word for an address. -/
theorem recognise_function (taken : Terminal.function.extent.Takes piece rest)
    (noAddress : ¬Comment.AddressWord piece) :
    recognise (piece ++ rest) = some (Terminal.function, piece.length) := by
  have url := url_eq_none_of_function taken noAddress
  obtain ⟨c, more, rfl⟩ := List.exists_cons_of_ne_nil (ne_nil_of_takes taken)
  have starts : Terminal.starts c .function := starts_of_takes taken
  have unlike : ∀ other ∈ [Terminal.atom .url, .atom .interpolation], other.extent (c :: more ++ rest) = none := by
    simp only [List.forall_mem_cons]
    exact ⟨url, signed_eq_none (Terminal.starts · .function) starts (by decide) (by decide) _,
      List.forall_mem_nil _⟩
  exact recognise_of_takes taken unlike

theorem sign_seq_eq_none {c d : Char} {second : Extent} (missing : second rest = none) :
    (sign d >> second) (c :: rest) = none := by
  by_cases same : c = d
  · subst same
    have taken : (sign c).Takes [c] rest := takes_sign.mpr rfl
    exact seq_eq_none taken missing
  · apply seq_eq_none_left
    apply sign_eq_none
    rintro _ ⟨⟩
    exact same

section Operator

variable {c : Char}

theorem numeral_eq_none_of_isOperator (sign : isOperator c) (stops : Stops rest) : numeral (c :: rest) = none := by
  rw [numeral_eq_none_iff]
  have digit : Text.isDigit c = false := by
    simpa using of_isOperator (!Text.isDigit ·) (by decide) sign
  cases rest with
  | nil => cases signed : c == '+' || c == '-' <;> simp [unsigned, signed, opensAmount, digit]
  | cons d rest =>
    have further : Text.isDigit d = false := stops.head Text.isDigit (by decide) (by decide) (by decide) d rfl
    have apart : d ≠ '.' := stops.ne (by decide) (by decide) (by decide) d rfl
    cases signed : c == '+' || c == '-' <;> simp [unsigned, signed, opensAmount, digit, further, apart]

theorem ident_eq_none_of_isOperator (sign : isOperator c) (stops : Stops rest) :
    (Terminal.atom .ident).extent (c :: rest) = none := by
  by_cases hyphen : c = '-'
  · -- A hyphen may stand before a name, but no name goes on here.
    subst hyphen
    have noName := stops.head opensIdent (by decide) (by decide) (by decide)
    have taken : (atMost 2 (· == '-')).Takes ['-'] rest :=
      takes_atMost.mpr ⟨List.forall_mem_singleton.mpr rfl, by decide, fun _ =>
        stops.head (· == '-') (by decide) (by decide) (by decide)⟩
    exact seq_eq_none taken (seq_eq_none_left (char_eq_none noName))
  · have named := of_isOperator (fun c => c == '-' || !Terminal.starts c (.atom .ident)) (by decide) sign
    exact extent_eq_none (by simpa [hyphen] using named) rest

/-- A sign is recognised by itself, but for an exclamation mark in front of a word. -/
theorem recognise_operator (taken : (Terminal.atom .operator).extent.Takes piece rest) (stops : Stops rest)
    (noFlag : (Terminal.atom .important).extent (piece ++ rest) = none) :
    recognise (piece ++ rest) = some (Terminal.atom .operator, piece.length) := by
  obtain ⟨c, rfl, sign⟩ := takes_char.mp taken
  have plain : '(' ∉ [c] := Text.not_mem_of_class (List.forall_mem_singleton.mpr sign) (by decide)
  have number : numeral (c :: rest) = none := numeral_eq_none_of_isOperator sign stops
  have interpolation : (Terminal.atom .interpolation).extent (c :: rest) = none :=
    sign_seq_eq_none (seq_eq_none_left (sign_eq_none (stops.ne (by decide) (by decide) (by decide))))
  have color : (Terminal.atom .color).extent (c :: rest) = none :=
    sign_seq_eq_none (many1_eq_none (stops.head Text.isName (by decide) (by decide) (by decide)))
  have others : ∀ other ∈ [Terminal.atom .quoted, .atom .bracketed, .atom .reference], other.starts c = false := by
    have all := of_isOperator (fun c => [Terminal.atom .quoted, .atom .bracketed, .atom .reference].all
      fun other => !other.starts c) (by decide) sign
    simpa using all
  have unlike : ∀ other ∈ [Terminal.atom .url, .atom .interpolation, .function, .atom .dimension,
      .atom .percentage, .atom .color, .atom .quoted, .atom .number, .atom .important, .atom .bracketed,
      .atom .reference, .atom .ident], other.extent ([c] ++ rest) = none := by
    simp only [List.forall_mem_cons]
    exact ⟨url_eq_none plain stops, interpolation, function_eq_none plain stops, seq_eq_none_left number,
      seq_eq_none_left number, color, extent_eq_none (others _ (by decide)) _, number, noFlag,
      extent_eq_none (others _ (by decide)) _, extent_eq_none (others _ (by decide)) _,
      ident_eq_none_of_isOperator sign stops, List.forall_mem_nil _⟩
  exact recognise_of_takes taken unlike

end Operator

end Unlike

section Again

/-- What follows a name does not make it a number. -/
theorem numeral_eq_none_of_ident (taken : (Terminal.atom .ident).extent.Takes piece later)
    (missing : numeral (piece ++ later) = none) : numeral (piece ++ rest) = none := by
  obtain ⟨hyphens, c, names, rfl, all, _, starts, _⟩ := takes_ident_iff.mp taken
  have noPoint : c ≠ '.' := Text.ne_of_class starts (by decide)
  have noSign : (c == '+' || c == '-') = false := by
    rw [Bool.or_eq_false_iff, beq_eq_false_iff_ne, beq_eq_false_iff_ne]
    exact ⟨Text.ne_of_class starts (by decide), Text.ne_of_class starts (by decide)⟩
  rw [numeral_eq_none_iff] at missing ⊢
  cases hyphens with
  | nil => simpa [unsigned, noSign, opensAmount, noPoint] using missing
  | cons first hyphens =>
    obtain ⟨here, others⟩ := List.forall_mem_cons.mp all
    obtain rfl : first = '-' := by simpa using here
    cases hyphens with
    | nil => simpa [unsigned, opensAmount, noPoint] using missing
    | cons second =>
      obtain ⟨further, _⟩ := List.forall_mem_cons.mp others
      obtain rfl : second = '-' := by simpa using further
      simp [unsigned, opensAmount]
      decide

/-- A token is recognised again where something else follows it. -/
theorem recognise_again {kind : Terminal} (found : recognise (piece ++ later) = some (kind, piece.length))
    (free : kind.opens = false → Stops rest) (noAddress : kind = .function → ¬Comment.AddressWord piece)
    (noFlag : kind = .atom .operator → (Terminal.atom .important).extent (piece ++ rest) = none) :
    recognise (piece ++ rest) = some (kind, piece.length) := by
  obtain ⟨_, taken, unlike⟩ := recognise_eq_some_iff.mp found
  change kind.extent.Takes piece later at taken
  have again : kind.extent.Takes piece rest := retakes taken free
  obtain ⟨c, more, same⟩ := List.exists_cons_of_ne_nil (ne_nil_of_takes taken)
  cases kind with
  | function => exact recognise_function again (noAddress rfl)
  | leftParen | rightParen =>
    obtain rfl := takes_sign.mp again
    exact recognise_of_starts again (by decide)
  | atom kind =>
    have stops : Stops rest := free rfl
    cases kind with
    | url =>
      have unlike : ∀ other ∈ ([] : List Terminal), other.extent (piece ++ rest) = none := List.forall_mem_nil _
      exact recognise_of_takes again unlike
    | interpolation | important | bracketed | reference =>
      obtain ⟨sign, inside, rfl, signed, _⟩ := takes_seq.mp again
      obtain rfl := takes_sign.mp signed
      exact recognise_of_starts again (by decide)
    | dimension => exact recognise_dimension again stops
    | percentage => exact recognise_percentage again stops
    | color => exact recognise_color again
    | quoted => exact recognise_quoted again
    | number => exact recognise_number again stops
    | ident =>
      have missing : numeral (piece ++ later) = none := unlike (.atom .number) (by decide)
      exact recognise_ident again stops (numeral_eq_none_of_ident taken missing)
    | operator => exact recognise_operator again stops (noFlag rfl)

end Again

end Value
end SheetLint
