import SheetLint.Proofs.Letters
import SheetLint.Proofs.Starters

/-! Numerals: where a text starts with one, where it ends, and which characters are in it. -/
namespace SheetLint.Value

open Extent

variable {piece rest later : List Char}

/-- The digits of a numeral, without its sign. -/
def amount : Extent :=
  (many1 Text.isDigit >> optional (sign '.') >> many Text.isDigit) <|> (sign '.' >> many1 Text.isDigit)

theorem numeral_eq : numeral = (optional (char fun c => c == '+' || c == '-') >> amount) := rfl

/-- A text starts with digits, or with a point and digits. -/
def opensAmount : List Char → Bool
  | [] => false
  | c :: rest => Text.isDigit c || (c == '.' && rest.head?.any Text.isDigit)

/-- A text without the sign that it may start with. -/
def unsigned : List Char → List Char
  | [] => []
  | c :: rest => if c == '+' || c == '-' then rest else c :: rest

theorem amount_eq_none_iff (text : List Char) : amount text = none ↔ opensAmount text = false := by
  cases text with
  | nil => exact ⟨fun _ => rfl, fun _ => rfl⟩
  | cons c rest =>
    cases digit : Text.isDigit c with
    | true =>
      simp [amount, seq_eq, orElse_eq, orElse, andThen, many1, char, many, Extent.optional, opensAmount, digit]
    | false =>
      by_cases point : c = '.'
      · subst point
        cases rest with
        | nil => simp [amount, seq_eq, orElse_eq, orElse, andThen, many1, char, opensAmount, sign, digit]
        | cons d rest =>
          cases further : Text.isDigit d <;>
            simp [amount, seq_eq, orElse_eq, orElse, andThen, many1, char, many, opensAmount, sign, digit,
              further]
      · simp [amount, seq_eq, orElse_eq, orElse, andThen, many1, char, opensAmount, sign, digit, point]

theorem numeral_eq_none_iff (text : List Char) : numeral text = none ↔ opensAmount (unsigned text) = false := by
  rw [← amount_eq_none_iff, numeral_eq, seq_eq]
  cases text with
  | nil => exact ⟨fun _ => rfl, fun _ => rfl⟩
  | cons c rest =>
    by_cases signed : (c == '+' || c == '-') = true
    · cases found : amount rest <;> simp [unsigned, andThen, Extent.optional, char, signed, found]
    · cases found : amount (c :: rest) <;> simp [unsigned, andThen, Extent.optional, char, signed, found]

theorem head?_append_of_imp {ok : Char → Prop} {tail : List Char}
    (before : ∀ c ∈ (tail ++ later).head?, ok c) (after : ∀ c ∈ rest.head?, ok c) :
    ∀ c ∈ (tail ++ rest).head?, ok c := by
  cases tail with
  | nil => exact after
  | cons c tail => exact before

/-- A numeral ends where neither a digit nor a point follows, whatever that is. -/
theorem amount_retakes (taken : amount.Takes piece later)
    (apart : ∀ c ∈ rest.head?, Text.isDigit c = false ∧ c ≠ '.') : amount.Takes piece rest := by
  have noDigit : ∀ c ∈ rest.head?, Text.isDigit c = false := fun c first => (apart c first).1
  rcases takes_orElse.mp taken with whole | ⟨missing, part⟩
  · obtain ⟨digits, _, rfl, front, more⟩ := takes_seq.mp whole
    obtain ⟨point, back, rfl, pointed, tail⟩ := takes_seq.mp more
    obtain ⟨nonempty, all, stops⟩ := takes_many1.mp front
    obtain ⟨others, ends⟩ := takes_many.mp tail
    refine takes_orElse.mpr (.inl (takes_seq.mpr ⟨digits, point ++ back, rfl, ?_, takes_seq.mpr
      ⟨point, back, rfl, ?_, takes_many.mpr ⟨others, noDigit⟩⟩⟩))
    · exact takes_many1.mpr ⟨nonempty, all, head?_append_of_imp stops noDigit⟩
    · rcases takes_optional.mp pointed with one | ⟨rfl, none⟩
      · exact takes_optional.mpr (.inl (takes_sign.mpr (takes_sign.mp one)))
      · -- Without a point nothing is left, for the digits before were all there are.
        have empty : back = [] := by
          cases back with
          | nil => rfl
          | cons c back =>
            have digit := others c List.mem_cons_self
            rw [stops c rfl] at digit
            cases digit
        subst empty
        exact takes_optional.mpr (.inr ⟨rfl, sign_eq_none fun c first => (apart c first).2⟩)
  · obtain ⟨point, back, rfl, pointed, tail⟩ := takes_seq.mp part
    obtain rfl := takes_sign.mp pointed
    obtain ⟨nonempty, all, _⟩ := takes_many1.mp tail
    refine takes_orElse.mpr (.inr ⟨seq_eq_none_left (many1_eq_none ?_), takes_seq.mpr
      ⟨['.'], back, rfl, takes_sign.mpr rfl, takes_many1.mpr ⟨nonempty, all, noDigit⟩⟩⟩)
    rintro _ ⟨⟩
    decide

theorem amount_ne_nil (taken : amount.Takes piece later) : piece ≠ [] := by
  rintro rfl
  rcases takes_orElse.mp taken with whole | ⟨missing, part⟩
  · obtain ⟨digits, _, empty, front, _⟩ := takes_seq.mp whole
    exact (takes_many1.mp front).1 (List.append_eq_nil_iff.mp empty.symm).1
  · obtain ⟨point, _, empty, pointed, _⟩ := takes_seq.mp part
    rw [takes_sign.mp pointed] at empty
    cases empty

theorem numeral_retakes (taken : numeral.Takes piece later)
    (apart : ∀ c ∈ rest.head?, Text.isDigit c = false ∧ c ≠ '.') : numeral.Takes piece rest := by
  obtain ⟨signs, body, rfl, signed, counted⟩ := takes_seq.mp taken
  refine takes_seq.mpr ⟨signs, body, rfl, ?_, amount_retakes counted apart⟩
  rcases takes_optional.mp signed with one | ⟨rfl, none⟩
  · exact takes_optional.mpr (.inl (takes_char.mpr (takes_char.mp one)))
  · obtain ⟨c, body, rfl⟩ := List.exists_cons_of_ne_nil (amount_ne_nil counted)
    exact takes_optional.mpr (.inr ⟨rfl, none⟩)

theorem startsNumeral_of_takes (taken : numeral.Takes piece later) : ∀ c ∈ piece, startsNumeral c := by
  have digit {digits : List Char} (all : ∀ c ∈ digits, Text.isDigit c) : ∀ c ∈ digits, startsNumeral c :=
    fun c member => by simp [startsNumeral, all c member]
  obtain ⟨signs, body, rfl, signed, counted⟩ := takes_seq.mp taken
  refine List.forall_mem_append.mpr ⟨?_, ?_⟩
  · rcases takes_optional.mp signed with one | ⟨rfl, _⟩
    · obtain ⟨c, rfl, sign⟩ := takes_char.mp one
      simp_all [startsNumeral]
    · exact List.forall_mem_nil _
  · rcases takes_orElse.mp counted with whole | ⟨_, part⟩
    · obtain ⟨digits, _, rfl, front, more⟩ := takes_seq.mp whole
      obtain ⟨point, back, rfl, pointed, tail⟩ := takes_seq.mp more
      refine List.forall_mem_append.mpr ⟨digit (takes_many1.mp front).2.1, List.forall_mem_append.mpr
        ⟨?_, digit (takes_many.mp tail).1⟩⟩
      rcases takes_optional.mp pointed with one | ⟨rfl, _⟩
      · rw [takes_sign.mp one]
        exact List.forall_mem_singleton.mpr (by decide)
      · exact List.forall_mem_nil _
    · obtain ⟨point, back, rfl, pointed, tail⟩ := takes_seq.mp part
      rw [takes_sign.mp pointed]
      exact List.forall_mem_append.mpr ⟨List.forall_mem_singleton.mpr (by decide),
        digit (takes_many1.mp tail).2.1⟩

end SheetLint.Value
