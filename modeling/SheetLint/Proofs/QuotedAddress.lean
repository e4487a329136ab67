import SheetLint.Proofs.CommentPass

/-! Addresses with a quoted argument. The first closing parenthesis ends them, also where it is part of
the string; a pass that goes over such a string as a string comes to the same only where none is. -/
namespace SheetLint.Comment

open Extent

/-- A pass goes over a piece of text, where some rest follows, and leaves it as it is. -/
inductive Keeps (admits : List Char → Bool) : List Char → List Char → Prop
  | done {rest : List Char} : Keeps admits [] rest
  | step {piece others rest : List Char} (step : Step admits piece piece (others ++ rest))
      (next : Keeps admits others rest) : Keeps admits (piece ++ others) rest

/-- A pass over a text comes to a place: what it has gone over and what is ahead. -/
inductive Reaches (admits : List Char → Bool) (text : List Char) : List Char → List Char → Prop
  | start : Reaches admits text [] text
  | step {front piece written rest : List Char} (reached : Reaches admits text front (piece ++ rest))
      (step : Step admits piece written rest) : Reaches admits text (front ++ piece) rest

/-- Wherever the pass over a text meets an address with a quoted argument, a pass that takes it for a word
and a string goes over its argument and parenthesis just the same: no string of it reaches further, and no
comment starts in it. -/
inductive Whole : List Char → Prop
  | finished : Whole []
  | address {letters argument rest : List Char} (spelled : AddressWord letters) (first : ')' ∉ argument)
      (quoted : unquoted (argument ++ ')' :: rest) = false → Keeps unquoted (argument ++ [')']) rest)
      (next : Whole rest) : Whole (letters ++ (argument ++ [')']) ++ rest)
  | other {piece written rest : List Char} (step : Step anyArgument piece written rest)
      (noAddress : ¬AddressWord (piece.take 4)) (next : Whole rest) : Whole (piece ++ rest)

variable {admits : List Char → Bool} {piece written rest text result : List Char}

theorem Keeps.pass (keeps : Keeps admits piece rest) (next : Pass admits rest result) :
    Pass admits (piece ++ rest) (piece ++ result) := by
  induction keeps with
  | done => exact next
  | step step _ ih =>
    rw [List.append_assoc, List.append_assoc]
    exact .step step (ih next)

theorem Keeps.append {others : List Char} (first : Keeps admits piece (others ++ rest))
    (second : Keeps admits others rest) : Keeps admits (piece ++ others) rest := by
  generalize whole : others ++ rest = tail at first
  induction first with
  | done => exact second
  | @step piece more _ step _ ih =>
    subst whole
    rw [List.append_assoc]
    exact .step (by rwa [List.append_assoc]) (ih rfl)

/-- A letter or a parenthesis is gone over by itself where it does not start an address. -/
theorem step_letter {c : Char} (letter : c.toLower ∈ "url(".toList)
    (closed : ¬OpensAddress admits (c :: rest)) : Step admits [c] [c] rest := by
  have distinct : ∀ d : Char, d.toLower ∉ "url(".toList → c ≠ d := by
    rintro d other rfl
    exact other letter
  have plain : StringLiteral.isMark c = false := by
    simp [StringLiteral.isMark, distinct '\x22' (by decide), distinct '\x27' (by decide)]
  exact step_plain plain (distinct '/' (by decide)) closed

theorem Keeps.letter {c : Char} {others : List Char} (next : Keeps admits others rest)
    (letter : c.toLower ∈ "url(".toList) (closed : ¬OpensAddress admits (c :: (others ++ rest))) :
    Keeps admits (c :: others) rest :=
  .step (step_letter letter closed) next

/-- The word of an address whose argument is not admitted is gone over letter by letter. -/
theorem keeps_word {letters argument : List Char} (spelled : AddressWord letters)
    (refused : admits argument = false) : Keeps admits letters argument := by
  have spelled : letters.map Char.toLower = ['u', 'r', 'l', '('] := spelled
  obtain ⟨u, _, rfl, first, spelled⟩ := List.map_eq_cons_iff.mp spelled
  obtain ⟨r, _, rfl, second, spelled⟩ := List.map_eq_cons_iff.mp spelled
  obtain ⟨l, _, rfl, third, spelled⟩ := List.map_eq_cons_iff.mp spelled
  obtain ⟨p, _, rfl, fourth, spelled⟩ := List.map_eq_cons_iff.mp spelled
  obtain rfl := List.map_eq_nil_iff.mp spelled
  have refusing : ¬OpensAddress admits ([u, r, l, p] ++ argument) := by
    intro opens
    simpa [refused] using opens.2.1
  have unspelled : ∀ {c : Char} {others : List Char}, c.toLower ≠ 'u' →
      ¬OpensAddress admits (c :: others) := fun apart opens => apart (AddressWord.head opens.1)
  have last : Keeps admits [p] argument :=
    Keeps.done.letter (by simp [fourth]) (unspelled (by simp [fourth]))
  have third : Keeps admits [l, p] argument :=
    last.letter (by simp [third]) (unspelled (by simp [third]))
  have second : Keeps admits [r, l, p] argument :=
    third.letter (by simp [second]) (unspelled (by simp [second]))
  exact second.letter (by simp [first]) refusing

theorem pass_unquoted (whole : Whole text) (pass : Pass anyArgument text result) :
    Pass unquoted text result := by
  induction whole generalizing result with
  | finished =>
    obtain rfl := pass.unique .finished
    exact .finished
  | @address letters argument rest spelled first quoted _ ih =>
    obtain ⟨later, rfl, next⟩ := pass.of_step (.address spelled rfl first)
    have after := ih next
    cases admitted : unquoted (argument ++ ')' :: rest) with
    | true => exact .step (.address spelled admitted first) after
    | false =>
      -- One step of the one pass is many of the other: letter by letter, and then through the argument.
      have before : Keeps unquoted letters ((argument ++ [')']) ++ rest) :=
        keeps_word spelled (by simpa using admitted)
      exact (before.append (quoted admitted)).pass after
  | other step noAddress _ ih =>
    obtain ⟨later, rfl, next⟩ := pass.of_step step
    have after := ih next
    cases step with
    | literal closed => exact .step (.literal closed) after
    | address spelled =>
      have begun := spelled
      rw [← List.take_left' spelled.length] at begun
      exact absurd begun noAddress
    | block first => exact .step (.block first) after
    | unclosed endless => exact .step (.unclosed endless) after
    | line within ends => exact .step (.line within ends) after
    | character noLiteral noAddress noComment =>
      refine .step (.character noLiteral ?_ noComment) after
      exact fun opens => noAddress ⟨opens.1, rfl, opens.2.2⟩

/-- What a pass makes of a text is what it makes of the parts before and after a place that it comes to. -/
theorem Pass.of_reaches {front tail : List Char} (pass : Pass admits text result)
    (reached : Reaches admits text front tail) :
    ∃ before later, result = before ++ later ∧ before.length = front.length ∧ Pass admits tail later := by
  induction reached with
  | start => exact ⟨[], result, rfl, rfl, pass⟩
  | @step _ _ written _ _ step ih =>
    obtain ⟨before, later, rfl, size, ahead⟩ := ih
    obtain ⟨further, rfl, next⟩ := ahead.of_step step
    refine ⟨before ++ written, further, by simp, ?_, next⟩
    rw [List.length_append, List.length_append, size, step.length_written]

/-- A string that a pass comes to stands in what the pass makes of the text. -/
theorem Pass.literal_stands {front literal : List Char} (pass : Pass admits text result)
    (reached : Reaches admits text front (literal ++ rest))
    (closed : StringLiteral.extent.Takes literal rest) : literal <+: result.drop front.length := by
  obtain ⟨before, later, rfl, size, next⟩ := pass.of_reaches reached
  obtain ⟨further, rfl, _⟩ := next.of_step (.literal closed)
  rw [← size, List.drop_left]
  exact List.prefix_append literal further

/-- Blanking follows the pass that takes any address up to its first closing parenthesis. Where the quoted
addresses are whole, this is the pass that takes them as a word and a string, and none of the strings
that it comes to is blanked. -/
theorem blank_follows_pass (text : List Char) :
    (∀ result, Pass anyArgument text result ↔ result = blank text) ∧
      (Whole text →
        (∀ result, Pass unquoted text result ↔ result = blank text) ∧
          ∀ front literal rest, Reaches unquoted text front (literal ++ rest) →
            StringLiteral.extent.Takes literal rest → literal <+: (blank text).drop front.length) := by
  have blanking := pass_blank text
  constructor
  · intro result
    constructor
    · exact fun pass => pass.unique blanking
    · rintro rfl
      exact blanking
  · intro whole
    have strict := pass_unquoted whole blanking
    constructor
    · intro result
      constructor
      · exact fun pass => pass.unique strict
      · rintro rfl
        exact strict
    · intro front literal rest reached closed
      exact strict.literal_stands reached closed

theorem blank_of_whole_address :
    Whole ("url(".toList ++ ("'a//b'".toList ++ [')']) ++ "//c".toList) ∧
      ∀ result, Pass unquoted ("url(".toList ++ ("'a//b'".toList ++ [')']) ++ "//c".toList) result ↔
        result = "url('a//b')   ".toList := by
  have within : Keeps unquoted ("'a//b'".toList ++ [')']) "//c".toList :=
    .step (.literal rfl) (.step (.character rfl (by decide) (by decide)) .done)
  have comment : Step anyArgument "//c".toList "   ".toList [] := .line (by decide) (by simp)
  have ahead : Whole ("//c".toList ++ []) := .other comment (by decide) .finished
  have whole : Whole ("url(".toList ++ ("'a//b'".toList ++ [')']) ++ "//c".toList) :=
    .address rfl (by decide) (fun _ => within) ahead
  refine ⟨whole, fun result => ?_⟩
  rw [((blank_follows_pass _).2 whole).1]
  have blanked : blank ("url(".toList ++ ("'a//b'".toList ++ [')']) ++ "//c".toList) =
      "url('a//b')   ".toList := by decide
  rw [blanked]

/-- A string with a closing parenthesis in it is cut short within an address: what looks like a comment in
the rest of it is blanked. -/
theorem blank_cuts_quoted_address :
    Pass unquoted "url(')//')".toList "url(')//')".toList ∧
      blank "url(')//')".toList = "url(')    ".toList := by
  have word : Keeps unquoted "url(".toList ("')//')".toList ++ []) := keeps_word rfl (by decide)
  have argument : Keeps unquoted ("')//'".toList ++ [')']) [] :=
    .step (.literal rfl) (.step (.character rfl (by decide) (by decide)) .done)
  exact ⟨(word.append argument).pass .finished, by decide⟩

end SheetLint.Comment
