import SheetLint.Proofs.Terminal

/-! The characters with which lexemes start: what stands first in a text rules out most kinds of tokens. -/
namespace SheetLint

namespace Extent

/-- A lexeme of at least one character starts with one of a class. -/
def StartsIn (lexeme : Extent) (ok : Char → Bool) : Prop :=
  ∀ c rest length, lexeme (c :: rest) = some length → 0 < length → ok c

section StartsIn

variable {first second lexeme : Extent} {ok wider : Char → Bool}

theorem StartsIn.imp (starts : lexeme.StartsIn ok) (within : ∀ c, ok c → wider c) :
    lexeme.StartsIn wider :=
  fun c rest length found positive => within c (starts c rest length found positive)

theorem startsIn_char (ok : Char → Bool) : (char ok).StartsIn ok := by
  intro c rest length found _
  simp only [char, Option.ite_none_right_eq_some] at found
  exact found.1

theorem startsIn_sign (c : Char) : (sign c).StartsIn (· == c) := startsIn_char _

theorem startsIn_atMost (bound : Nat) (ok : Char → Bool) : (atMost bound ok).StartsIn ok := by
  intro c rest length found positive
  by_cases accepted : ok c
  · exact accepted
  · cases bound <;> simp_all [atMost]

theorem startsIn_optional (starts : lexeme.StartsIn ok) : (optional lexeme).StartsIn ok := by
  intro c rest length found positive
  simp only [optional, Option.some.injEq] at found
  cases taken : lexeme (c :: rest) with
  | none =>
    rw [taken, Option.getD_none] at found
    omega
  | some other =>
    rw [taken, Option.getD_some] at found
    exact starts c rest other taken (by omega)

theorem startsIn_orElse (one : first.StartsIn ok) (two : second.StartsIn ok) :
    (first <|> second).StartsIn ok := by
  intro c rest length found
  change (first (c :: rest)).or (second (c :: rest)) = some length at found
  rcases Option.or_eq_some_iff.mp found with here | ⟨_, there⟩
  · exact one c rest length here
  · exact two c rest length there

/-- One lexeme after another starts with the second one where the first one takes nothing. -/
theorem startsIn_seq (one : first.StartsIn ok) (two : second.StartsIn ok) :
    (first >> second).StartsIn ok := by
  intro c rest length found positive
  change first.andThen second (c :: rest) = some length at found
  simp only [andThen, Option.bind_eq_bind, Option.bind_eq_some_iff, Option.pure_def,
    Option.some.injEq] at found
  obtain ⟨n, begun, m, continued, rfl⟩ := found
  rcases Nat.eq_zero_or_pos n with rfl | some
  · exact two c rest m continued (by omega)
  · exact one c rest n begun some

theorem startsIn_seq_left (one : first.StartsIn ok) (proper : first.Proper) :
    (first >> second).StartsIn ok := by
  intro c rest length found _
  change first.andThen second (c :: rest) = some length at found
  simp only [andThen, Option.bind_eq_bind, Option.bind_eq_some_iff] at found
  obtain ⟨n, begun, _⟩ := found
  exact one c rest n begun (proper _ n begun).1

theorem startsIn_sign_seq (c : Char) : (sign c >> second).StartsIn (· == c) :=
  startsIn_seq_left (startsIn_sign c) (proper_sign c)

theorem startsIn_many1 (ok : Char → Bool) : (many1 ok).StartsIn ok :=
  startsIn_seq_left (startsIn_char ok) (proper_char ok)

end StartsIn
end Extent

namespace Value

open Extent

def startsNumeral (c : Char) : Bool := c == '+' || c == '-' || c == '.' || Text.isDigit c

/-- The characters with which a part of some kind starts. -/
def Atom.starts (c : Char) : Atom → Bool
  | .url => c.toLower == 'u'
  | .interpolation | .color => c == '#'
  | .dimension | .percentage | .number => startsNumeral c
  | .quoted => StringLiteral.isMark c
  | .important => c == '!'
  | .bracketed => c == '['
  | .reference => c == '$'
  | .ident => c == '-' || startsIdent c || c == '\\'
  | .operator => isOperator c

def Terminal.starts (c : Char) : Terminal → Bool
  | .atom kind => kind.starts c
  | .function => c == '-' || startsIdent c
  | .leftParen => c == '('
  | .rightParen => c == ')'

/-- What holds of each sign that is a part by itself. -/
theorem of_isOperator (ok : Char → Bool) (all : ",/+-*=:<>~^|&.%!?#@".toList.all ok) {c : Char}
    (sign : isOperator c) : ok c :=
  List.all_eq_true.mp all c (List.contains_iff_mem.mp sign)

theorem startsIn_numeral : numeral.StartsIn startsNumeral := by
  refine startsIn_seq (startsIn_optional ((startsIn_char _).imp ?_))
    (startsIn_orElse (startsIn_seq_left ((startsIn_many1 _).imp ?_) (proper_many1 _))
      ((startsIn_sign_seq _).imp ?_))
  all_goals
    intro c starts
    simp_all [startsNumeral]

theorem startsIn_looseExtent : StringLiteral.looseExtent.StartsIn StringLiteral.isMark := by
  intro c rest length found _
  simp only [StringLiteral.looseExtent, Option.ite_none_right_eq_some] at found
  exact found.1

theorem proper_word {c : Char} {letters : List Char} : (word (c :: letters)).Proper := by
  intro text length found
  refine ⟨?_, bounded_word _ text length found⟩
  simp only [word, Option.ite_none_right_eq_some, Option.some.injEq] at found
  rw [← found.2]
  exact Nat.succ_pos _

theorem startsIn_word {c : Char} {letters : List Char} :
    (word (c :: letters)).StartsIn fun d => d.toLower == c := by
  intro d rest length found _
  simp only [word, List.length_cons, List.take_succ_cons, List.map_cons, List.cons.injEq,
    Option.ite_none_right_eq_some] at found
  exact beq_iff_eq.mpr found.1.1

theorem startsIn_extent (kind : Terminal) : kind.extent.StartsIn (kind.starts ·) := by
  have number {second : Extent} : (numeral >> second).StartsIn startsNumeral :=
    startsIn_seq_left startsIn_numeral proper_numeral
  cases kind with
  | atom kind =>
    cases kind with
    | url => exact startsIn_seq_left startsIn_word proper_word
    | interpolation | color | important | bracketed | reference => exact startsIn_sign_seq _
    | dimension | percentage => exact number
    | quoted => exact startsIn_looseExtent
    | number => exact startsIn_numeral
    | ident =>
      refine startsIn_seq ((startsIn_atMost _ _).imp ?_)
        (startsIn_seq_left ((startsIn_char _).imp ?_) (proper_char _))
      all_goals
        intro c starts
        simp_all [Terminal.starts, Atom.starts, or_assoc]
    | operator => exact startsIn_char _
  | function =>
    refine startsIn_seq ((startsIn_atMost _ _).imp ?_)
      (startsIn_seq_left ((startsIn_char _).imp ?_) (proper_char _))
    all_goals
      intro c starts
      simp_all [Terminal.starts]
  | leftParen | rightParen => exact startsIn_sign _

/-- A token of some kind starts a text only with a character of that kind. -/
theorem extent_eq_none {kind : Terminal} {c : Char} (other : kind.starts c = false) (rest : List Char) :
    kind.extent (c :: rest) = none := by
  cases found : kind.extent (c :: rest) with
  | none => rfl
  | some length =>
    have starts : kind.starts c :=
      startsIn_extent kind c rest length found (proper_extent kind _ _ found).1
    rw [other] at starts
    cases starts

end Value
end SheetLint
