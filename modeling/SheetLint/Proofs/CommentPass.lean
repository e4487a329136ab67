import SheetLint.Proofs.Strings
import SheetLint.Sheet.Comment
import SheetLint.Text.Blank

/-! The pass over a text that blanks its comments, told step by step: a string, an address, a comment, or
one character that starts none of these. -/
namespace SheetLint.Comment

open Extent

/-- The word that an address starts with, in any case. -/
def AddressWord (letters : List Char) : Prop := letters.map Char.toLower = "url(".toList

instance (letters : List Char) : Decidable (AddressWord letters) :=
  inferInstanceAs (Decidable (letters.map Char.toLower = "url(".toList))

/-- A text starts with the word for an address, an argument that is admitted, and at some later place a
closing parenthesis. -/
def OpensAddress (admits : List Char → Bool) (text : List Char) : Prop :=
  AddressWord (text.take 4) ∧ admits (text.drop 4) ∧ ')' ∈ text.drop 4

instance (admits : List Char → Bool) (text : List Char) : Decidable (OpensAddress admits text) :=
  inferInstanceAs (Decidable (_ ∧ _ ∧ _))

def OpensComment (text : List Char) : Prop := ['/', '*'] <+: text ∨ ['/', '/'] <+: text

instance (text : List Char) : Decidable (OpensComment text) := inferInstanceAs (Decidable (_ ∨ _))

/-- One step of a pass: the piece of text that it goes over, what it leaves in place of that, and the text
after it. A string is gone over where it closes, an address up to the first closing parenthesis, a block
comment up to the first star and slash after its opening, and a line comment up to the line break. -/
inductive Step (admits : List Char → Bool) : List Char → List Char → List Char → Prop
  | literal {piece rest : List Char} (closed : StringLiteral.extent.Takes piece rest) :
      Step admits piece piece rest
  | address {letters argument rest : List Char} (spelled : AddressWord letters)
      (admitted : admits (argument ++ ')' :: rest)) (first : ')' ∉ argument) :
      Step admits (letters ++ (argument ++ [')'])) (letters ++ (argument ++ [')'])) rest
  | block {inside rest : List Char} (first : ¬['*', '/'] <:+: inside ++ ['*']) :
      Step admits ('/' :: '*' :: (inside ++ ['*', '/']))
        (('/' :: '*' :: (inside ++ ['*', '/'])).map blanked) rest
  | unclosed {inside : List Char} (endless : ¬['*', '/'] <:+: inside) :
      Step admits ('/' :: '*' :: inside) (('/' :: '*' :: inside).map blanked) []
  | line {inside rest : List Char} (within : '\n' ∉ inside) (ends : ∀ c ∈ rest.head?, c = '\n') :
      Step admits ('/' :: '/' :: inside) (('/' :: '/' :: inside).map blanked) rest
  | character {c : Char} {rest : List Char} (noLiteral : StringLiteral.extent (c :: rest) = none)
      (noAddress : ¬OpensAddress admits (c :: rest)) (noComment : ¬OpensComment (c :: rest)) :
      Step admits [c] [c] rest

/-- A pass over a whole text and what it makes of it. -/
inductive Pass (admits : List Char → Bool) : List Char → List Char → Prop
  | finished : Pass admits [] []
  | step {piece written rest result : List Char} (step : Step admits piece written rest)
      (next : Pass admits rest result) : Pass admits (piece ++ rest) (written ++ result)

/-- Every argument is admitted. -/
def anyArgument (_ : List Char) : Bool := true

/-- Past blanks, the argument starts with a character that is no quotation mark. -/
def unquoted (argument : List Char) : Bool :=
  match Text.trimStart argument with
  | [] => false
  | c :: _ => !StringLiteral.isMark c

variable {admits : List Char → Bool} {piece written rest text : List Char} {c : Char}

section Openings

theorem AddressWord.length {letters : List Char} (spelled : AddressWord letters) : letters.length = 4 := by
  simpa using congrArg List.length spelled

theorem AddressWord.head {letters : List Char} (spelled : AddressWord (c :: letters)) :
    c.toLower = 'u' := (List.cons.inj spelled).1

theorem extent_eq_none (plain : StringLiteral.isMark c = false) :
    StringLiteral.extent (c :: rest) = none := by
  simp [StringLiteral.extent, plain]

theorem extent_eq_none_of_spelled (spelled : AddressWord (text.take 4)) :
    StringLiteral.extent text = none := by
  cases text with
  | nil => rfl
  | cons c rest =>
    have head : c.toLower = 'u' := AddressWord.head spelled
    apply extent_eq_none
    simp only [StringLiteral.isMark, Bool.or_eq_false_iff, beq_eq_false_iff_ne]
    constructor <;> rintro rfl <;> revert head <;> decide

theorem takes_word {letters : List Char} :
    (word letters).Takes piece rest ↔ piece.map Char.toLower = letters := by
  unfold Takes word
  constructor
  · intro found
    simp only [Option.ite_none_right_eq_some, Option.some.injEq] at found
    obtain ⟨spelled, size⟩ := found
    simpa [size] using spelled
  · rintro rfl
    simp

theorem takes_through {stop : Char} :
    (through stop).Takes piece rest ↔ ∃ inside, piece = inside ++ [stop] ∧ stop ∉ inside := by
  rw [through, takes_seq]
  constructor
  · intro holds
    obtain ⟨inside, _, rfl, before, last⟩ := holds
    obtain ⟨c, rfl, found⟩ := takes_char.mp last
    obtain rfl : c = stop := by simpa using found
    obtain ⟨apart, _⟩ := takes_many.mp before
    refine ⟨inside, rfl, ?_⟩
    intro member
    simpa using apart c member
  · intro holds
    obtain ⟨inside, rfl, absent⟩ := holds
    refine ⟨inside, [stop], rfl, takes_many.mpr ⟨?_, by simp⟩, takes_char.mpr ⟨stop, rfl, by simp⟩⟩
    intro c member
    have apart : c ≠ stop := fun same => absent (same ▸ member)
    simpa using apart

theorem through_eq_none {stop : Char} (absent : stop ∉ text) : through stop text = none := by
  have all : (many (· != stop)).Takes text [] := by
    refine takes_many.mpr ⟨?_, by simp⟩
    intro c member
    have apart : c ≠ stop := fun same => absent (same ▸ member)
    simpa using apart
  rw [Takes, List.append_nil] at all
  change (many (· != stop)).andThen (char (· == stop)) text = none
  simp [andThen, all, char]

/-- An address with whatever argument. -/
def address : Extent := word "url(".toList >> through ')'

theorem shelter_eq (text : List Char) :
    shelter text = (StringLiteral.extent text).or (address text) := rfl

/-- An address reaches to its first closing parenthesis. -/
theorem takes_address {letters argument : List Char} (spelled : AddressWord letters)
    (first : ')' ∉ argument) : address.Takes (letters ++ (argument ++ [')'])) rest :=
  takes_seq.mpr ⟨letters, argument ++ [')'], rfl, takes_word.mpr spelled,
    takes_through.mpr ⟨argument, rfl, first⟩⟩

theorem address_eq_none (closed : ¬OpensAddress anyArgument text) : address text = none := by
  change (word "url(".toList).andThen (through ')') text = none
  by_cases spelled : AddressWord (text.take 4)
  · have absent : ')' ∉ text.drop 4 := fun member => closed ⟨spelled, rfl, member⟩
    have found : word "url(".toList text = some 4 := if_pos spelled
    simp only [andThen, found, Option.bind_eq_bind, Option.bind_some, through_eq_none absent,
      Option.bind_none]
  · have missing : word "url(".toList text = none := if_neg spelled
    simp only [andThen, missing, Option.bind_eq_bind, Option.bind_none]

/-- A character that is neither a quotation mark nor a slash is gone over by itself where it starts no
address. -/
theorem step_plain (plain : StringLiteral.isMark c = false) (noSlash : c ≠ '/')
    (noAddress : ¬OpensAddress admits (c :: rest)) : Step admits [c] [c] rest := by
  refine .character (extent_eq_none plain) noAddress ?_
  rintro (opens | opens) <;> exact noSlash (List.cons_prefix_cons.mp opens).1.symm

end Openings

section Stretches

/-- What stands at the start of a text for a pass that admits some arguments only. -/
def stretchWith (admits : List Char → Bool) (text : List Char) : Option Stretch :=
  if AddressWord (text.take 4) ∧ admits (text.drop 4) = false then none else stretch? text

/-- How much of a text a pass goes over at once. -/
def span : Option Stretch → Nat
  | some (.kept length) | some (.comment length) => length
  | none => 1

/-- What a pass leaves in place of a piece of text. -/
def shown : Option Stretch → List Char → List Char
  | some (.comment _), piece => piece.map blanked
  | _, piece => piece

theorem stretchWith_any (text : List Char) : stretchWith anyArgument text = stretch? text := by
  simp [stretchWith, anyArgument]

theorem stretchWith_of_not_spelled (misspelled : ¬AddressWord (text.take 4)) :
    stretchWith admits text = stretch? text :=
  if_neg fun holds => misspelled holds.1

theorem blockLength_cons (apart : ¬['*', '/'] <+: c :: rest) :
    blockLength (c :: rest) = blockLength rest + 1 := by
  apply blockLength.eq_2
  rintro tail rfl rfl
  exact apart (by simp)

theorem blockLength_of_first (first : ¬['*', '/'] <:+: piece ++ ['*']) :
    blockLength (piece ++ ['*', '/'] ++ rest) = piece.length + 2 := by
  induction piece with
  | nil => rfl
  | cons c more ih =>
    have apart : ¬['*', '/'] <+: c :: (more ++ ['*', '/'] ++ rest) := by
      intro starts
      apply first
      cases more with
      | nil => simp [List.cons_prefix_cons] at starts
      | cons d others =>
        obtain ⟨rfl, further⟩ := List.cons_prefix_cons.mp starts
        obtain ⟨rfl, _⟩ := List.cons_prefix_cons.mp further
        exact ⟨[], others ++ ['*'], by simp⟩
    have later : ¬['*', '/'] <:+: more ++ ['*'] :=
      fun inside => first (inside.trans (List.suffix_cons c _).isInfix)
    rw [List.cons_append, List.cons_append, blockLength_cons apart, ih later, List.length_cons]

theorem blockLength_of_endless (endless : ¬['*', '/'] <:+: piece) : blockLength piece = piece.length := by
  induction piece with
  | nil => rfl
  | cons c more ih =>
    have later : ¬['*', '/'] <:+: more :=
      fun inside => endless (inside.trans (List.suffix_cons c _).isInfix)
    rw [blockLength_cons fun starts => endless starts.isInfix, ih later, List.length_cons]

theorem stretch?_of_shelter {length : Nat} (found : shelter text = some length) :
    stretch? text = some (.kept length) := by
  simp [stretch?, found]

theorem not_spelled_of_slash : ¬AddressWord (('/' :: rest).take 4) :=
  fun spelled => absurd (AddressWord.head spelled) (by decide)

theorem shelter_eq_none_of_slash : shelter ('/' :: rest) = none := by
  have noLiteral : StringLiteral.extent ('/' :: rest) = none := extent_eq_none (by decide)
  have noAddress : address ('/' :: rest) = none := address_eq_none fun opens => not_spelled_of_slash opens.1
  rw [shelter_eq, noLiteral, noAddress, Option.or_none]

theorem stretchWith_of_slash : stretchWith admits ('/' :: rest) = stretch? ('/' :: rest) :=
  stretchWith_of_not_spelled not_spelled_of_slash

theorem stretch?_block : stretch? ('/' :: '*' :: rest) = some (.comment (blockLength rest + 2)) := by
  simp [stretch?, shelter_eq_none_of_slash]

theorem stretch?_line : stretch? ('/' :: '/' :: rest) =
    some (.comment ((rest.takeWhile (· != '\n')).length + 2)) := by
  simp [stretch?, shelter_eq_none_of_slash]

theorem stretch?_eq_none (noLiteral : StringLiteral.extent text = none)
    (noAddress : ¬OpensAddress anyArgument text) (noComment : ¬OpensComment text) :
    stretch? text = none := by
  have bare : shelter text = none := by
    rw [shelter_eq, noLiteral, address_eq_none noAddress, Option.or_none]
  unfold stretch?
  rw [bare]
  split
  · rename_i same
    cases same
  · exact absurd (.inl (by simp)) noComment
  · exact absurd (.inr (by simp)) noComment
  · rfl

/-- What a step goes over is what stands at the start of the text. -/
theorem Step.stretch (step : Step admits piece written rest) :
    piece.length = span (stretchWith admits (piece ++ rest)) ∧
      written = shown (stretchWith admits (piece ++ rest)) piece := by
  cases step with
  | literal closed =>
    -- A string starts no address, so that it makes no difference which arguments are admitted.
    have misspelled : ¬AddressWord ((piece ++ rest).take 4) := by
      intro spelled
      have none := closed.symm.trans (extent_eq_none_of_spelled spelled)
      cases none
    have found : shelter (piece ++ rest) = some piece.length := by
      rw [shelter_eq, closed, Option.some_or]
    rw [stretchWith_of_not_spelled misspelled, stretch?_of_shelter found]
    exact ⟨rfl, rfl⟩
  | @address letters argument _ spelled admitted first =>
    have four := spelled.length
    have past : (letters ++ (argument ++ [')']) ++ rest).drop 4 = argument ++ ')' :: rest := by
      rw [← four]
      simp
    have begun : (letters ++ (argument ++ [')']) ++ rest).take 4 = letters := by
      rw [← four]
      simp
    have found : shelter (letters ++ (argument ++ [')']) ++ rest) =
        some (letters ++ (argument ++ [')'])).length := by
      rw [shelter_eq, extent_eq_none_of_spelled (by rwa [begun]), Option.none_or]
      exact takes_address spelled first
    rw [stretchWith, past, admitted, stretch?_of_shelter found]
    simp [span, shown]
  | @block inside _ first =>
    have found : stretchWith admits ('/' :: '*' :: (inside ++ ['*', '/']) ++ rest) =
        some (.comment ('/' :: '*' :: (inside ++ ['*', '/'])).length) := by
      rw [List.cons_append, List.cons_append, stretchWith_of_slash, stretch?_block,
        blockLength_of_first first]
      simp
    rw [found]
    exact ⟨rfl, rfl⟩
  | @unclosed inside endless =>
    have found : stretchWith admits ('/' :: '*' :: inside ++ []) =
        some (.comment ('/' :: '*' :: inside).length) := by
      rw [List.append_nil, stretchWith_of_slash, stretch?_block, blockLength_of_endless endless]
      rfl
    rw [found]
    exact ⟨rfl, rfl⟩
  | @line inside _ within ends =>
    have body : (many (· != '\n')).Takes inside rest := by
      refine takes_many.mpr ⟨?_, fun c first => by simp [ends c first]⟩
      intro c member
      have apart : c ≠ '\n' := fun same => within (same ▸ member)
      simpa using apart
    have found : stretchWith admits ('/' :: '/' :: inside ++ rest) =
        some (.comment ('/' :: '/' :: inside).length) := by
      rw [List.cons_append, List.cons_append, stretchWith_of_slash, stretch?_line,
        Option.some.inj body]
      rfl
    rw [found]
    exact ⟨rfl, rfl⟩
  | @character c _ noLiteral noAddress noComment =>
    have found : stretchWith admits (c :: rest) = none := by
      unfold stretchWith
      split
      next refused => rfl
      next accepted =>
        refine stretch?_eq_none noLiteral ?_ noComment
        rintro ⟨spelled, -, later⟩
        rw [not_and, Bool.not_eq_false] at accepted
        exact noAddress ⟨spelled, accepted spelled, later⟩
    rw [List.singleton_append, found]
    exact ⟨rfl, rfl⟩

end Stretches

section Determined

/-- At one place of a text a pass takes one step only. -/
theorem Step.unique {piece' written' rest' : List Char} (one : Step admits piece written rest)
    (two : Step admits piece' written' rest') (same : piece ++ rest = piece' ++ rest') :
    piece = piece' ∧ written = written' ∧ rest = rest' := by
  obtain ⟨size, seen⟩ := one.stretch
  obtain ⟨size', seen'⟩ := two.stretch
  obtain ⟨rfl, rfl⟩ := List.append_inj same (by rw [size, size', same])
  exact ⟨rfl, seen.trans seen'.symm, rfl⟩

theorem Step.nonempty (step : Step admits piece written rest) : piece ≠ [] := by
  cases step with
  | literal closed =>
    rintro rfl
    cases rest <;> simp [Takes, StringLiteral.extent] at closed
  | address => simp
  | block | unclosed | line | character => simp

theorem Step.length_written (step : Step admits piece written rest) : written.length = piece.length := by
  cases step <;> simp

/-- A pass goes on with the step that can be taken. -/
theorem Pass.of_step {result : List Char} (pass : Pass admits (piece ++ rest) result)
    (step : Step admits piece written rest) :
    ∃ later, result = written ++ later ∧ Pass admits rest later := by
  generalize same : piece ++ rest = text at pass
  cases pass with
  | finished => exact absurd (List.append_eq_nil_iff.mp same).1 step.nonempty
  | step other next =>
    obtain ⟨rfl, rfl, rfl⟩ := step.unique other same
    exact ⟨_, rfl, next⟩

theorem Pass.unique {result other : List Char} (first : Pass admits text result)
    (second : Pass admits text other) : result = other := by
  induction first generalizing other with
  | finished =>
    generalize same : ([] : List Char) = text at second
    cases second with
    | finished => rfl
    | step step _ => exact absurd (List.append_eq_nil_iff.mp same.symm).1 step.nonempty
  | step step _ ih =>
    obtain ⟨later, rfl, next⟩ := second.of_step step
    rw [ih next]

end Determined

section Blanks

theorem blankFrom_eq (within : Bool) (pending : Nat) (text : List Char) :
    blankFrom within pending text =
      (if within then (text.take pending).map blanked else text.take pending) ++
        blank (text.drop pending) := by
  induction text generalizing pending with
  | nil => simp [blankFrom, blank]
  | cons c rest ih =>
    cases pending with
    | zero => simp [blank, blankFrom]
    | succ pending =>
      rw [blankFrom, ih]
      cases within <;> simp

/-- A text is blanked step by step. -/
theorem blank_of_step (step : Step anyArgument piece written rest) :
    blank (piece ++ rest) = written ++ blank rest := by
  obtain ⟨size, seen⟩ := step.stretch
  rw [stretchWith_any] at size seen
  obtain ⟨c, more, rfl⟩ := List.exists_cons_of_ne_nil step.nonempty
  rw [blank, List.cons_append, blankFrom, ← List.cons_append]
  cases found : stretch? (c :: more ++ rest) with
  | none =>
    rw [found] at size seen
    obtain rfl : more = [] := List.eq_nil_of_length_eq_zero (Nat.succ.inj size)
    subst seen
    simp [shown, blank]
  | some stretch =>
    rw [found] at size seen
    subst seen
    cases stretch with
    | kept length =>
      obtain rfl : more.length + 1 = length := size
      simp [blankFrom_eq, shown]
    | comment length =>
      obtain rfl : more.length + 1 = length := size
      simp [blankFrom_eq, shown]

/-- A text that has a star and a slash somewhere has a first pair of them. -/
theorem first_of_infix (closes : ['*', '/'] <:+: text) :
    ∃ inside rest, text = inside ++ ['*', '/'] ++ rest ∧ ¬['*', '/'] <:+: inside ++ ['*'] := by
  induction text with
  | nil => simp at closes
  | cons c others ih =>
    by_cases here : ['*', '/'] <+: c :: others
    · obtain ⟨rest, same⟩ := here
      refine ⟨[], rest, same.symm, ?_⟩
      intro inside
      simpa using inside.length_le
    · have later : ['*', '/'] <:+: others := (List.infix_cons_iff.mp closes).resolve_left here
      obtain ⟨inside, rest, rfl, first⟩ := ih later
      refine ⟨c :: inside, rest, rfl, ?_⟩
      rw [List.cons_append, List.infix_cons_iff]
      rintro (starts | further)
      · apply here
        exact starts.trans ⟨['/'] ++ rest, by simp⟩
      · exact first further

theorem exists_step (c : Char) (text : List Char) :
    ∃ piece written rest, c :: text = piece ++ rest ∧ Step anyArgument piece written rest := by
  cases literal : StringLiteral.extent (c :: text) with
  | some length =>
    obtain ⟨piece, rest, split, taken, _⟩ := StringLiteral.takes_of_extent literal
    exact ⟨piece, piece, rest, split, .literal taken⟩
  | none =>
    by_cases opens : OpensAddress anyArgument (c :: text)
    · obtain ⟨spelled, _, closes⟩ := opens
      obtain ⟨argument, rest, split, first⟩ := List.eq_append_cons_of_mem closes
      refine ⟨(c :: text).take 4 ++ (argument ++ [')']), _, rest, ?_, .address spelled rfl first⟩
      calc c :: text
          = (c :: text).take 4 ++ (c :: text).drop 4 := (List.take_append_drop 4 _).symm
        _ = (c :: text).take 4 ++ (argument ++ [')']) ++ rest := by rw [split]; simp
    · by_cases comment : OpensComment (c :: text)
      · rcases comment with ⟨inside, same⟩ | ⟨inside, same⟩
        · by_cases closes : ['*', '/'] <:+: inside
          · obtain ⟨before, rest, rfl, first⟩ := first_of_infix closes
            exact ⟨_, _, rest, by simp [← same], .block first⟩
          · exact ⟨_, _, [], by simp [← same], .unclosed closes⟩
        · have within : '\n' ∉ inside.takeWhile (· != '\n') := by
            intro member
            simpa using List.all_eq_true.mp List.all_takeWhile _ member
          have ends : ∀ c ∈ (inside.dropWhile (· != '\n')).head?, c = '\n' := by
            intro c first
            have stops := List.head?_dropWhile_not (· != '\n') inside
            rw [first] at stops
            simpa using stops
          refine ⟨_, _, inside.dropWhile (· != '\n'), ?_, .line within ends⟩
          simp [← same]
      · exact ⟨[c], [c], text, rfl, .character literal opens comment⟩

/-- Blanking is the pass that takes any address as it is, up to its first closing parenthesis. -/
theorem pass_blank (text : List Char) : Pass anyArgument text (blank text) := by
  induction length : text.length using Nat.strongRecOn generalizing text with
  | ind bound ih =>
    subst length
    cases text with
    | nil => exact .finished
    | cons c others =>
      obtain ⟨piece, written, rest, split, step⟩ := exists_step c others
      have some := List.length_pos_iff.mpr step.nonempty
      have fewer : rest.length < (c :: others).length := by
        rw [split, List.length_append]
        omega
      rw [split, blank_of_step step]
      exact .step step (ih rest.length fewer rest rfl)

end Blanks
end SheetLint.Comment
