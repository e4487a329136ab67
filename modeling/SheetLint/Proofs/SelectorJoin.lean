import SheetLint.Proofs.Joining
import SheetLint.Proofs.SelectorList

/-! Selector lists joined by a comma. No lexeme of a selector reaches over a comma behind the text that it
was found in, so that the tokens of the first list stay what they are, and with them its selectors. -/
namespace SheetLint

namespace Extent

/-- A comma behind a text changes nothing about the lexeme at its start. -/
def EndsAtComma (lexeme : Extent) : Prop := ∀ text more, lexeme (text ++ ',' :: more) = lexeme text

/-- A lexeme is found again with a comma behind the text, unless a parenthesis opens right after it. -/
def Survives (lexeme : Extent) : Prop :=
  ∀ text more length, lexeme text = some length → (text.drop length).head? ≠ some '(' →
    lexeme (text ++ ',' :: more) = some length

/-- Where there is no lexeme, a comma behind the text makes none. -/
def StaysMissing (lexeme : Extent) : Prop :=
  ∀ text more, lexeme text = none → lexeme (text ++ ',' :: more) = none

section Comma

variable {first second lexeme : Extent} {ok : Char → Bool}

theorem EndsAtComma.survives (ends : lexeme.EndsAtComma) : lexeme.Survives :=
  fun text more _ found _ => (ends text more).trans found

theorem EndsAtComma.staysMissing (ends : lexeme.EndsAtComma) : lexeme.StaysMissing :=
  fun text more missing => (ends text more).trans missing

theorem endsAtComma_char (outside : ok ',' = false) : (char ok).EndsAtComma := by
  intro text more
  cases text with
  | nil => simp [char, outside]
  | cons => rfl

theorem endsAtComma_sign {c : Char} (outside : (',' == c) = false) : (sign c).EndsAtComma :=
  endsAtComma_char outside

theorem endsAtComma_many (outside : ok ',' = false) : (many ok).EndsAtComma := by
  intro text more
  induction text with
  | nil => simp [many, outside]
  | cons c rest ih =>
    simp only [many, Option.some.injEq] at ih
    by_cases accepted : ok c
    · simp [many, accepted, ih]
    · simp [many, accepted]

theorem endsAtComma_optional (ends : lexeme.EndsAtComma) : (optional lexeme).EndsAtComma := by
  intro text more
  rw [optional, optional, ends]

theorem endsAtComma_orElse (one : first.EndsAtComma) (two : second.EndsAtComma) :
    (first <|> second).EndsAtComma := by
  intro text more
  rw [orElse_eq, orElse, orElse, one, two]

/-- The second of two lexemes is looked for in what the first one leaves of the text. -/
theorem seq_apply (first second : Extent) (text : List Char) :
    (first >> second) text =
      (first text).bind fun length => (second (text.drop length)).map (length + ·) := by
  change (first text).bind (fun length => (second (text.drop length)).bind fun further =>
    some (length + further)) = _
  simp only [Option.map_eq_bind, Function.comp_def]

theorem seq_comma (bounded : first.Bounded) (one : first.EndsAtComma) (text more : List Char) :
    (first >> second) (text ++ ',' :: more) = (first text).bind fun length =>
      (second (text.drop length ++ ',' :: more)).map (length + ·) := by
  rw [seq_apply, one]
  cases found : first text with
  | none => rfl
  | some length =>
    rw [Option.bind_some, Option.bind_some,
      List.drop_append_of_le_length (bounded text length found)]

theorem endsAtComma_seq (bounded : first.Bounded) (one : first.EndsAtComma) (two : second.EndsAtComma) :
    (first >> second).EndsAtComma := by
  intro text more
  simp only [seq_comma bounded one, seq_apply, two (_ : List Char) more]

theorem endsAtComma_many1 (outside : ok ',' = false) : (many1 ok).EndsAtComma :=
  endsAtComma_seq (bounded_char ok) (endsAtComma_char outside) (endsAtComma_many outside)

theorem survives_seq (bounded : first.Bounded) (one : first.EndsAtComma) (two : second.Survives) :
    (first >> second).Survives := by
  intro text more length found apart
  rw [seq_apply] at found
  obtain ⟨n, begun, found⟩ := Option.bind_eq_some_iff.mp found
  obtain ⟨m, continued, rfl⟩ := Option.map_eq_some_iff.mp found
  rw [← List.drop_drop] at apart
  rw [seq_comma bounded one, begun, Option.bind_some, two _ more m continued apart, Option.map_some]

theorem staysMissing_seq (bounded : first.Bounded) (one : first.EndsAtComma)
    (two : second.StaysMissing) : (first >> second).StaysMissing := by
  intro text more missing
  rw [seq_apply] at missing
  rw [seq_comma bounded one]
  cases begun : first text with
  | none => rfl
  | some length =>
    rw [begun, Option.bind_some, Option.map_eq_none_iff] at missing
    rw [Option.bind_some, two _ more missing, Option.map_none]

theorem staysMissing_optional : (optional lexeme).StaysMissing := by
  intro text more missing
  simp [optional] at missing

theorem survives_through (stop : Char) : (through stop).Survives :=
  fun _ more _ found _ => through_append (',' :: more) found

end Comma
end Extent

namespace Selector

open Extent

theorem argumentRest_append {nested : Bool} {text : List Char} {length : Nat} (more : List Char)
    (found : argumentRest nested text = some length) :
    argumentRest nested (text ++ more) = some length := by
  fun_induction argumentRest nested text generalizing length with
  | case1 => cases found
  | case2 => cases found
  | case3 nested rest inner ih =>
    obtain ⟨further, closed, rfl⟩ := Option.map_eq_some_iff.mp found
    simp [argumentRest, inner, ih closed]
  | case4 rest apart ih =>
    obtain ⟨further, closed, rfl⟩ := Option.map_eq_some_iff.mp found
    simp [argumentRest, ih closed]
  | case5 nested rest apart outer =>
    cases found
    simp [argumentRest, apart]
  | case6 nested c rest opens closes ih =>
    obtain ⟨further, closed, rfl⟩ := Option.map_eq_some_iff.mp found
    simp [argumentRest, opens, closes, ih closed]

/-- An argument that is complete stays, and where no parenthesis opens none starts. -/
theorem survives_argument : (Extent.optional (sign '(' >> argumentRest false)).Survives := by
  intro text more length found apart
  simp only [Extent.optional, Option.some.injEq, seq_apply] at found ⊢
  cases text with
  | nil =>
    obtain rfl : 0 = length := found
    rfl
  | cons c rest =>
    by_cases opens : c = '('
    · subst opens
      cases closed : argumentRest false rest with
      | none => simp [sign, char, closed, ← found] at apart
      | some further =>
        rw [← found]
        simp [sign, char, closed, argumentRest_append _ closed]
    · rw [← found]
      simp [sign, char, opens]

theorem pseudo_keeps : pseudo.Survives ∧ pseudo.StaysMissing := by
  have colon := endsAtComma_sign (c := ':') rfl
  have hyphen := endsAtComma_sign (c := '-') rfl
  have start : (char fun c => c.isAlpha || c == '_').EndsAtComma := endsAtComma_char rfl
  have names : (many Text.isName).EndsAtComma := endsAtComma_many rfl
  constructor
  · exact survives_seq (bounded_char _) colon <|
      survives_seq (bounded_optional (bounded_char _)) (endsAtComma_optional colon) <|
      survives_seq (bounded_optional (bounded_char _)) (endsAtComma_optional hyphen) <|
      survives_seq (bounded_char _) start <| survives_seq (bounded_many _) names survives_argument
  · exact staysMissing_seq (bounded_char _) colon <|
      staysMissing_seq (bounded_optional (bounded_char _)) (endsAtComma_optional colon) <|
      staysMissing_seq (bounded_optional (bounded_char _)) (endsAtComma_optional hyphen) <|
      staysMissing_seq (bounded_char _) start <| staysMissing_seq (bounded_many _) names
        staysMissing_optional

/-- A component that has no closing sign of its own ends at a comma. -/
theorem simple_endsAtComma (kind : SimpleKind) (named : kind ≠ .interpolation)
    (plain : kind ≠ .attribute) : (simple kind).EndsAtComma := by
  have word : name.EndsAtComma := endsAtComma_many1 rfl
  cases kind with
  | interpolation => exact absurd rfl named
  | «attribute» => exact absurd rfl plain
  | keyframe =>
    have digits : (many1 Text.isDigit).EndsAtComma := endsAtComma_many1 rfl
    refine endsAtComma_seq (proper_many1 _).bounded digits (endsAtComma_seq ?_ ?_
      (endsAtComma_sign rfl))
    · exact bounded_optional (bounded_andThen (bounded_char _) (proper_many1 _).bounded)
    · exact endsAtComma_optional (endsAtComma_seq (bounded_char _) (endsAtComma_sign rfl) digits)
  | className | id | placeholder => exact endsAtComma_seq (bounded_char _) (endsAtComma_sign rfl) word
  | type =>
    refine endsAtComma_seq (bounded_optional (bounded_char _))
      (endsAtComma_optional (endsAtComma_sign rfl)) ?_
    refine endsAtComma_seq (bounded_char _) (endsAtComma_char rfl) ?_
    refine endsAtComma_seq (bounded_many _) (endsAtComma_many rfl) (endsAtComma_optional ?_)
    exact endsAtComma_seq (bounded_char _) (endsAtComma_sign rfl) word
  | parent =>
    exact endsAtComma_seq (bounded_char _) (endsAtComma_sign rfl) (endsAtComma_many rfl)
  | combinator =>
    have arrow : (sign '>').EndsAtComma := endsAtComma_sign rfl
    refine endsAtComma_orElse ?_ (endsAtComma_char rfl)
    exact endsAtComma_seq (bounded_char _) arrow (endsAtComma_seq (bounded_char _) arrow arrow)
  | universal => exact endsAtComma_sign rfl
  | other => exact fun _ _ => rfl

theorem extent_survives (kind : Terminal) : (Vocabulary.extent kind).Survives := by
  cases kind with
  | pseudo => exact pseudo_keeps.1
  | comma =>
    intro text more length found _
    cases text with
    | nil => cases found
    | cons => exact found
  | simple kind =>
    by_cases named : kind = .interpolation
    · subst named
      exact survives_seq (bounded_char _) (endsAtComma_sign rfl)
        (survives_seq (bounded_char _) (endsAtComma_sign rfl) (survives_through _))
    · by_cases plain : kind = .attribute
      · subst plain
        exact survives_seq (bounded_char _) (endsAtComma_sign rfl) (survives_through _)
      · exact (simple_endsAtComma kind named plain).survives

theorem kind_of_hash {kind : Terminal} {rest : List Char} {length : Nat}
    (found : Vocabulary.extent kind ('#' :: '\x7b' :: rest) = some length) :
    kind = .simple .interpolation := by
  cases kind with
  | pseudo => cases found
  | comma => cases found
  | simple kind =>
    cases kind with
    | interpolation => rfl
    | _ => cases found

theorem kind_of_bracket {kind : Terminal} {rest : List Char} {length : Nat}
    (found : Vocabulary.extent kind ('[' :: rest) = some length) : kind = .simple .attribute := by
  cases kind with
  | pseudo => cases found
  | comma => cases found
  | simple kind =>
    cases kind with
    | «attribute» => rfl
    | _ => cases found

/-- A text that does not start an interpolation starts none where a comma comes behind it. -/
theorem interpolation_comma_eq_none {c : Char} {rest : List Char} (more : List Char)
    (apart : ∀ later, c :: rest ≠ '#' :: '\x7b' :: later) :
    simple .interpolation (c :: rest ++ ',' :: more) = none := by
  by_cases hash : c = '#'
  · subst hash
    have taken : (sign '#').Takes ['#'] (rest ++ ',' :: more) := rfl
    have split : '#' :: rest ++ ',' :: more = ['#'] ++ (rest ++ ',' :: more) := rfl
    rw [split]
    refine seq_eq_none taken (seq_eq_none_left (sign_eq_none ?_))
    rintro d first rfl
    cases rest with
    | nil => cases first
    | cons d rest =>
      obtain rfl := Option.some.inj first
      exact apart rest rfl
  · exact seq_eq_none_left (by simpa [sign, char] using hash)

/-- An interpolation and an attribute could go on over a comma where they are not complete, but the text
then starts with no token at all. -/
theorem extent_staysMissing {text : List Char} {kind other : Terminal} {length : Nat} (more : List Char)
    (found : Vocabulary.extent kind text = some length) (missing : Vocabulary.extent other text = none) :
    Vocabulary.extent other (text ++ ',' :: more) = none := by
  obtain ⟨positive, fits⟩ := proper_extent kind text length found
  obtain ⟨c, rest, rfl⟩ := List.exists_cons_of_length_pos (Nat.lt_of_lt_of_le positive fits)
  have apart : other ≠ kind := by
    rintro rfl
    rw [found] at missing
    cases missing
  cases other with
  | pseudo => exact pseudo_keeps.2 _ more missing
  | comma => exact missing
  | simple sort =>
    by_cases named : sort = .interpolation
    · subst named
      refine interpolation_comma_eq_none more ?_
      intro later same
      rw [same] at found
      exact apart (kind_of_hash found).symm
    · by_cases plain : sort = .attribute
      · subst plain
        by_cases bracket : c = '['
        · subst bracket
          exact absurd (kind_of_bracket found).symm apart
        · exact seq_eq_none_left (by simpa [sign, char] using bracket)
      · exact (simple_endsAtComma sort named plain).staysMissing _ more missing

section Tokens

variable {kind : Terminal} {text more : List Char} {offset length : Nat}
  {tokens later : List (Token Terminal)} {stuck : Option (Char × Nat)}

theorem preferred_comma (more : List Char) (preferred : Preferred kind text length)
    (apart : (text.drop length).head? ≠ some '(') : Preferred kind (text ++ ',' :: more) length := by
  obtain ⟨before, after, split, found, missing⟩ := preferred
  exact ⟨before, after, split, extent_survives kind text more length found apart,
    fun other member => extent_staysMissing more found (missing other member)⟩

/-- A parenthesis that stands by itself is no part of a selector. -/
theorem head_ne_parenthesis (divided : Divided (κ := Terminal) offset text tokens none) :
    text.head? ≠ some '(' := by
  cases divided with
  | finished => exact nofun
  | separator dropped next =>
    rintro ⟨⟩
    cases dropped
  | @token offset kind c piece rest tokens stuck visible preferred next =>
    rintro ⟨⟩
    obtain ⟨_, _, _, found, _⟩ := preferred
    cases kind with
    | pseudo => cases found
    | comma => cases found
    | simple kind => cases kind <;> cases found

/-- Behind a text that is all tokens a comma is a token, and the text behind the comma is divided as it is
by itself. -/
theorem divided_comma {stop : Nat} (first : Divided offset text tokens none)
    (reaches : offset + text.length = stop) (second : Divided (stop + 1) more later stuck) :
    Divided offset (text ++ ',' :: more) (tokens ++ ⟨.comma, [','], stop⟩ :: later) stuck := by
  generalize finished : (none : Option (Char × Nat)) = open? at first
  induction first with
  | finished =>
    obtain rfl : _ = stop := reaches
    have comma : recognise (κ := Terminal) (',' :: more) = some (.comma, 1) := rfl
    exact @Divided.token _ _ _ _ _ [] _ _ _ rfl (preferred_of_recognise comma) second
  | stuck => cases finished
  | separator dropped next ih =>
    rw [List.length_cons] at reaches
    exact .separator dropped (ih (by omega) finished)
  | @token offset kind c piece rest tokens stuck visible preferred next ih =>
    subst finished
    have apart := head_ne_parenthesis next
    have left : (c :: piece ++ rest).drop (c :: piece).length = rest := List.drop_left
    rw [← left] at apart
    have again := preferred_comma more preferred apart
    rw [List.append_assoc] at again ⊢
    rw [List.length_append] at reaches
    exact .token visible again (ih (by omega) rfl)

/-- The tokens of a list behind a comma are its tokens by itself, further on. -/
theorem lex_comma {first : List Char} (finished : (lex (κ := Terminal) first).stuck = none)
    (second : List Char) :
    (lex (first ++ ',' :: second)).tokens = (lex first).tokens ++ ⟨.comma, [','], first.length⟩ ::
        (lex (κ := Terminal) second).tokens.map (Token.moved (first.length + 1)) ∧
      ((lex (κ := Terminal) second).stuck = none →
        (lex (κ := Terminal) (first ++ ',' :: second)).stuck = none) := by
  have ahead := divided_lexFrom proper_extent first 0
  change (lexFrom (κ := Terminal) 0 0 first).stuck = none at finished
  rw [finished] at ahead
  have behind := divided_lexFrom proper_extent second (first.length + 1)
  have joined := lexFrom_of_divided (divided_comma ahead (Nat.zero_add _) behind)
  rw [lexFrom_eq_moved (first.length + 1)] at joined
  simp only [lex, joined]
  refine ⟨rfl, fun open? => ?_⟩
  simp [Lexing.moved, open?]

end Tokens

section Nodes

variable {text : List Char} {tokens : List (Token Terminal)}

theorem component?_moved (distance : Nat) (token : Token Terminal) :
    component? (token.moved distance) = (component? token).map (Node.map (distance + ·)) := by
  obtain ⟨kind, text, offset⟩ := token
  cases kind <;> rfl

/-- Tokens make the same selector, further on, in a text with more before it. -/
theorem ofTokens_moved (front text : List Char) (nonempty : tokens ≠ []) :
    ofTokens (front ++ text) (tokens.map (Token.moved front.length)) =
      (ofTokens text tokens).map (front.length + ·) := by
  have first := List.head?_eq_some_head nonempty
  have last := List.getLast?_eq_some_getLast nonempty
  have components : (tokens.map (Token.moved front.length)).filterMap component? =
      (tokens.filterMap component?).map (Node.map (front.length + ·)) := by
    rw [List.filterMap_map, List.map_filterMap]
    exact List.filterMap_congr fun token _ => component?_moved _ token
  simp only [ofTokens, components, List.head?_map, List.getLast?_map, first, last, Option.map_some,
    Option.getD_some, Token.moved_offset, Token.moved_stop, node, Node.map, Node.mapAll_eq_map,
    List.drop_length_add_append, Nat.add_sub_add_left]

/-- Tokens that stand in a text make the same selector where more comes behind it. -/
theorem ofTokens_append (more : List Char) (nonempty : tokens ≠ [])
    (standing : ∀ token ∈ tokens, token.StandsIn text) :
    ofTokens (text ++ more) tokens = ofTokens text tokens := by
  have first := List.head?_eq_some_head nonempty
  have last := List.getLast?_eq_some_getLast nonempty
  have opening := standing _ (List.head_mem nonempty)
  have begins : (tokens.head nonempty).offset ≤ text.length :=
    Nat.le_trans (Nat.le_of_lt opening.offset_lt_stop) opening.stop_le
  have ends := (standing _ (List.getLast_mem nonempty)).stop_le
  simp only [ofTokens, first, last, Option.map_some, Option.getD_some, node]
  rw [List.drop_append_of_le_length begins, List.take_append_of_le_length]
  rw [List.length_drop]
  omega

end Nodes

theorem splitOnP_map {α β : Type} (p : β → Bool) (f : α → β) (items : List α) :
    (items.map f).splitOnP p = (items.splitOnP (p ∘ f)).map (List.map f) := by
  induction items with
  | nil => simp
  | cons item rest ih =>
    rw [List.map_cons, List.splitOnP_cons_eq_if_modifyHead, List.splitOnP_cons_eq_if_modifyHead, ih]
    by_cases apart : p (f item)
    · simp [apart]
    · cases rest.splitOnP (p ∘ f) <;> simp [apart]

theorem standsIn_of_segment {text : List Char} {segment : List (Token Terminal)}
    (member : segment ∈ (lex text).tokens.splitOnP isComma) : ∀ token ∈ segment, token.StandsIn text :=
  fun _ inside =>
    standsIn_of_mem_lex proper_extent (List.mem_of_mem_filter (mem_filter_of_segment member inside))

/-- The selectors of a list behind a comma come after those of the list before it, further on. -/
theorem read_comma {first second : List Char} {ahead behind : List (Node Nat)}
    (front : read first = .ok ahead) (back : read second = .ok behind) :
    read (first ++ ',' :: second) =
      .ok (ahead ++ behind.map (Node.map (first.length + 1 + ·))) := by
  obtain ⟨finished, filled⟩ := (read_isOk_iff first).mp ⟨_, front⟩
  obtain ⟨finished', filled'⟩ := (read_isOk_iff second).mp ⟨_, back⟩
  obtain ⟨tokens, goesOn⟩ := lex_comma finished second
  have segments : (lex (first ++ ',' :: second)).tokens.splitOnP isComma =
      (lex first).tokens.splitOnP isComma ++ ((lex second).tokens.splitOnP isComma).map
        (List.map (Token.moved (first.length + 1))) := by
    rw [tokens, List.splitOnP_append_cons _ _ rfl, splitOnP_map]
    rfl
  have nonempty : ∀ segment ∈ (lex (first ++ ',' :: second)).tokens.splitOnP isComma, segment ≠ [] := by
    rw [segments]
    intro segment member
    rcases List.mem_append.mp member with before | after
    · exact filled segment before
    · obtain ⟨own, here, rfl⟩ := List.mem_map.mp after
      simpa using filled' own here
  obtain ⟨nodes, read⟩ :=
    (read_isOk_iff (first ++ ',' :: second)).mpr ⟨goesOn finished', nonempty⟩
  have front_kept : ∀ segment ∈ (lex first).tokens.splitOnP isComma,
      ofTokens (first ++ ',' :: second) segment = ofTokens first segment :=
    fun segment member => ofTokens_append _ (filled segment member) (standsIn_of_segment member)
  have back_moved : ∀ segment ∈ (lex second).tokens.splitOnP isComma,
      ofTokens (first ++ ',' :: second) (segment.map (Token.moved (first.length + 1))) =
        (ofTokens second segment).map (first.length + 1 + ·) := by
    intro segment member
    have moved := ofTokens_moved (first ++ [',']) second (filled' segment member)
    simpa using moved
  rw [read, (read_eq_ok read).1, segments, (read_eq_ok front).1, (read_eq_ok back).1, List.map_append,
    List.map_map, List.map_map, List.map_congr_left front_kept]
  exact congrArg (fun later => Except.ok (_ ++ later)) (List.map_congr_left back_moved)

end Selector

/-- Nodes placed by their offsets, and the same nodes with all offsets moved by a distance. -/
def Further {α : Type} (place : Nat → α) (distance : Nat) (nodes moved : List (Node α)) : Prop :=
  ∃ offsets : List (Node Nat), nodes = offsets.map (Node.map place) ∧
    moved = offsets.map (Node.map fun start => place (distance + start))

/-- A list behind a comma is read as it is by itself from there on. -/
theorem placedSelectors_comma {locate : Nat → Position} {offset : Nat} {first second : List Char}
    {ahead behind : List (Node Position)} (front : placedSelectors locate first offset = .ok ahead)
    (back : placedSelectors locate second offset = .ok behind) :
    ∃ moved, Further (fun start => locate (offset + start)) (first.length + 1) behind moved ∧
      placedSelectors locate second (offset + (first.length + 1)) = .ok moved ∧
      placedSelectors locate (first ++ ',' :: second) offset = .ok (ahead ++ moved) := by
  obtain ⟨nodes, read, rfl⟩ := placedSelectors_eq_ok.mp front
  obtain ⟨later, again, rfl⟩ := placedSelectors_eq_ok.mp back
  refine ⟨_, ⟨later, rfl, rfl⟩, placedSelectors_eq_ok.mpr ⟨later, again, ?_⟩,
    placedSelectors_eq_ok.mpr ⟨_, Selector.read_comma read again, ?_⟩⟩
  · simp only [Nat.add_assoc]
  · have twice (node : Node Nat) :=
      Node.map_map (fun start => locate (offset + start)) (first.length + 1 + ·) node
    rw [List.map_append, List.map_map]
    exact congrArg (_ ++ ·) (List.map_congr_left fun node _ => (twice node).symm)

end SheetLint
