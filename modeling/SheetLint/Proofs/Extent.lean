import SheetLint.Selector.Token
import SheetLint.Value.Token

/-! What lexemes look like. `Takes` says that an extent takes a piece of text where some rest follows;
each way to build an extent has its equation. Lexemes of values and selectors are never empty and lie
within their text. -/
namespace SheetLint.Extent

/-- Where `piece` is followed by `rest`, the lexeme reaches to the end of `piece`. -/
def Takes (lexeme : Extent) (piece rest : List Char) : Prop :=
  lexeme (piece ++ rest) = some piece.length

/-- A lexeme of at least one character that lies within its text. -/
def Proper (lexeme : Extent) : Prop :=
  ∀ text length, lexeme text = some length → 0 < length ∧ length ≤ text.length

theorem Proper.bounded {lexeme : Extent} (proper : lexeme.Proper) : lexeme.Bounded :=
  fun text length found => (proper text length found).2

section Shapes

variable {first second lexeme : Extent} {ok : Char → Bool} {piece rest : List Char}

theorem takes_char : (char ok).Takes piece rest ↔ ∃ c, piece = [c] ∧ ok c := by
  unfold Takes
  constructor
  · intro found
    cases piece with
    | nil => cases rest <;> simp [char] at found
    | cons c others =>
      simp only [List.cons_append, char, Option.ite_none_right_eq_some, Option.some.injEq,
        List.length_cons] at found
      have none : others = [] := List.eq_nil_of_length_eq_zero (by omega)
      exact ⟨c, by rw [none], found.1⟩
  · intro holds
    obtain ⟨c, rfl, accepted⟩ := holds
    simp [char, accepted]

theorem takes_sign {c : Char} : (sign c).Takes piece rest ↔ piece = [c] := by
  rw [sign, takes_char]
  simp

theorem takes_many :
    (many ok).Takes piece rest ↔ (∀ c ∈ piece, ok c) ∧ ∀ c ∈ rest.head?, ok c = false := by
  unfold Takes many
  rw [Option.some.injEq]
  induction piece with
  | nil => cases rest <;> simp [List.takeWhile_cons]
  | cons c others ih =>
    by_cases accepted : ok c
    · simp [accepted, ih]
    · simp [accepted]

theorem takes_andThen :
    (first.andThen second).Takes piece rest ↔
      ∃ front back, piece = front ++ back ∧ first.Takes front (back ++ rest) ∧
        second.Takes back rest := by
  unfold Takes
  constructor
  · intro found
    simp only [andThen, Option.bind_eq_bind, Option.bind_eq_some_iff, Option.pure_def,
      Option.some.injEq] at found
    obtain ⟨length, begun, further, continued, total⟩ := found
    refine ⟨piece.take length, piece.drop length, by simp, ?_, ?_⟩
    · rw [← List.append_assoc, List.take_append_drop, begun, List.length_take,
        Nat.min_eq_left (by omega)]
    · rw [List.drop_append_of_le_length (by omega)] at continued
      rw [continued, List.length_drop]
      congr 1
      omega
  · intro holds
    obtain ⟨front, back, rfl, begun, continued⟩ := holds
    simp only [andThen, Option.bind_eq_bind, Option.pure_def, List.append_assoc, begun,
      Option.bind_some, List.drop_left, continued, List.length_append]

theorem takes_seq :
    (first >> second).Takes piece rest ↔
      ∃ front back, piece = front ++ back ∧ first.Takes front (back ++ rest) ∧
        second.Takes back rest :=
  takes_andThen

theorem takes_optional :
    (optional lexeme).Takes piece rest ↔
      lexeme.Takes piece rest ∨ piece = [] ∧ lexeme rest = none := by
  unfold Takes optional
  cases found : lexeme (piece ++ rest) with
  | some length =>
    simp only [Option.getD_some, Option.some.injEq]
    constructor
    · exact Or.inl
    · rintro (same | ⟨rfl, missing⟩)
      · exact same
      · simp [missing] at found
  | none =>
    cases piece with
    | nil => simpa using found
    | cons => simp

theorem takes_many1 :
    (many1 ok).Takes piece rest ↔
      piece ≠ [] ∧ (∀ c ∈ piece, ok c) ∧ ∀ c ∈ rest.head?, ok c = false := by
  rw [many1, takes_seq]
  constructor
  · intro holds
    obtain ⟨front, back, rfl, head, tail⟩ := holds
    obtain ⟨c, rfl, accepted⟩ := takes_char.mp head
    obtain ⟨all, stops⟩ := takes_many.mp tail
    refine ⟨by simp, ?_, stops⟩
    simpa using ⟨accepted, all⟩
  · intro holds
    obtain ⟨nonempty, all, stops⟩ := holds
    cases piece with
    | nil => exact absurd rfl nonempty
    | cons c others =>
      refine ⟨[c], others, rfl, takes_char.mpr ⟨c, rfl, all c (by simp)⟩, takes_many.mpr ⟨?_, stops⟩⟩
      exact fun other member => all other (by simp [member])

end Shapes

section Proper

variable {first second : Extent}

theorem bounded_optional {lexeme : Extent} (bounded : lexeme.Bounded) :
    (optional lexeme).Bounded := by
  intro text length found
  simp only [optional, Option.some.injEq] at found
  subst found
  cases taken : lexeme text with
  | none => simp
  | some length => exact bounded text length taken

theorem bounded_atMost (bound : Nat) (ok : Char → Bool) : (atMost bound ok).Bounded := by
  intro text length found
  simp only [atMost, Option.some.injEq] at found
  subst found
  exact ((List.takeWhile_prefix ok).trans (List.take_prefix bound text)).length_le

theorem proper_char (ok : Char → Bool) : (char ok).Proper := by
  intro text length found
  refine ⟨?_, bounded_char ok text length found⟩
  cases text with
  | nil => simp [char] at found
  | cons c rest =>
    simp only [char, Option.ite_none_right_eq_some, Option.some.injEq] at found
    omega

theorem proper_seq_left (one : first.Proper) (two : second.Bounded) :
    (first >> second).Proper := by
  intro text length found
  refine ⟨?_, bounded_andThen one.bounded two text length found⟩
  change first.andThen second text = some length at found
  simp only [andThen, Option.bind_eq_bind, Option.bind_eq_some_iff, Option.pure_def,
    Option.some.injEq] at found
  obtain ⟨n, begun, m, _, rfl⟩ := found
  have positive := (one text n begun).1
  omega

theorem proper_seq_right (one : first.Bounded) (two : second.Proper) :
    (first >> second).Proper := by
  intro text length found
  refine ⟨?_, bounded_andThen one two.bounded text length found⟩
  change first.andThen second text = some length at found
  simp only [andThen, Option.bind_eq_bind, Option.bind_eq_some_iff, Option.pure_def,
    Option.some.injEq] at found
  obtain ⟨n, _, m, continued, rfl⟩ := found
  have positive := (two _ m continued).1
  omega

theorem proper_orElse (one : first.Proper) (two : second.Proper) : (first <|> second).Proper := by
  intro text length found
  change (first text).or (second text) = some length at found
  rw [Option.or_eq_some_iff] at found
  rcases found with here | ⟨_, there⟩
  · exact one text length here
  · exact two text length there

theorem proper_sign (c : Char) : (sign c).Proper := proper_char _

theorem proper_many1 (ok : Char → Bool) : (many1 ok).Proper :=
  proper_seq_left (proper_char ok) (bounded_many ok)

theorem proper_through (stop : Char) : (through stop).Proper :=
  proper_seq_right (bounded_many _) (proper_char _)

theorem proper_never : never.Proper := by
  intro text length found
  simp [never] at found

theorem bounded_word (letters : List Char) : (word letters).Bounded := by
  intro text length found
  simp only [word, Option.ite_none_right_eq_some, Option.some.injEq] at found
  have size := congrArg List.length found.1
  simp only [List.length_map, List.length_take] at size
  omega

end Proper

section Missing

variable {first second : Extent} {ok : Char → Bool} {front piece rest text : List Char}

theorem seq_eq (first second : Extent) : (first >> second) = first.andThen second := rfl

theorem orElse_eq (first second : Extent) : (first <|> second) = first.orElse second := rfl

theorem takes_orElse : (first <|> second).Takes piece rest ↔
    first.Takes piece rest ∨ first (piece ++ rest) = none ∧ second.Takes piece rest := by
  unfold Takes
  change (first (piece ++ rest)).or (second (piece ++ rest)) = some piece.length ↔ _
  rw [Option.or_eq_some_iff]

theorem takes_atMost {bound : Nat} : (atMost bound ok).Takes piece rest ↔
    (∀ c ∈ piece, ok c) ∧ piece.length ≤ bound ∧
      (piece.length < bound → ∀ c ∈ rest.head?, ok c = false) := by
  unfold Takes atMost
  rw [Option.some.injEq]
  induction piece generalizing bound with
  | nil => cases bound <;> cases rest <;> simp [List.takeWhile_cons]
  | cons c others ih =>
    cases bound with
    | zero => simp
    | succ bound =>
      by_cases accepted : ok c
      · simp [accepted, ih]
      · simp [accepted]

theorem seq_eq_none_left (missing : first text = none) : (first >> second) text = none := by
  change first.andThen second text = none
  simp [andThen, missing]

theorem seq_eq_none_iff (taken : first.Takes front rest) :
    (first >> second) (front ++ rest) = none ↔ second rest = none := by
  change first.andThen second (front ++ rest) = none ↔ _
  unfold Takes at taken
  cases later : second rest <;> simp [andThen, taken, later]

theorem seq_eq_none (taken : first.Takes front rest) (missing : second rest = none) :
    (first >> second) (front ++ rest) = none :=
  (seq_eq_none_iff taken).mpr missing

theorem char_eq_none_iff : char ok rest = none ↔ ∀ c ∈ rest.head?, ok c = false := by
  cases rest with
  | nil => simp [char]
  | cons c rest => simp [char]

theorem char_eq_none (stops : ∀ c ∈ rest.head?, ok c = false) : char ok rest = none :=
  char_eq_none_iff.mpr stops

theorem sign_eq_none {c : Char} (apart : ∀ d ∈ rest.head?, d ≠ c) : sign c rest = none :=
  char_eq_none fun d first => beq_false_of_ne (apart d first)

theorem many1_eq_none_iff : many1 ok rest = none ↔ ∀ c ∈ rest.head?, ok c = false := by
  rw [← char_eq_none_iff, many1, seq_eq]
  cases begun : char ok rest <;> simp [andThen, begun, many]

theorem many1_eq_none (stops : ∀ c ∈ rest.head?, ok c = false) : many1 ok rest = none :=
  many1_eq_none_iff.mpr stops

/-- A lexeme splits off the text that it is taken from. -/
theorem takes_of_eq_some {lexeme : Extent} {length : Nat} (bounded : lexeme.Bounded)
    (found : lexeme text = some length) :
    ∃ piece rest, text = piece ++ rest ∧ lexeme.Takes piece rest := by
  have fits := bounded text length found
  refine ⟨text.take length, text.drop length, (List.take_append_drop _ _).symm, ?_⟩
  rw [Takes, List.take_append_drop, found, List.length_take, Nat.min_eq_left fits]

end Missing
end SheetLint.Extent
