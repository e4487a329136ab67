import SheetLint.Proofs.Lexing
import SheetLint.Text.Blank

/-! The terminals of values and selectors take at least one character each, and what they take has the
shape that readers rely on. -/
namespace SheetLint

open Extent

namespace Text

theorem toNat_of_isAlpha {c : Char} (letter : c.isAlpha) : 65 ≤ c.toNat ∧ c.toNat ≤ 122 := by
  change (decide ('A'.val ≤ c.val ∧ c.val ≤ 'Z'.val) ||
    (decide ('a'.val ≤ c.val) && decide (c.val ≤ 'z'.val))) = true at letter
  simp only [Bool.or_eq_true, Bool.and_eq_true, decide_eq_true_eq, UInt32.le_iff_toNat_le] at letter
  change (65 ≤ c.toNat ∧ c.toNat ≤ 90) ∨ (97 ≤ c.toNat ∧ c.toNat ≤ 122) at letter
  omega

theorem isBlank_of_isAlpha {c : Char} (letter : c.isAlpha) : isBlank c = false := by
  have bounds := toNat_of_isAlpha letter
  cases found : blankRanges.find? c.toNat with
  | none => simp [isBlank, Ranges.contains, found]
  | some range =>
    obtain ⟨member, low, high⟩ := Ranges.find?_sound found
    simp only [blankRanges, List.mem_cons, List.not_mem_nil, or_false] at member
    rcases member with rfl | rfl | rfl | rfl | rfl | rfl | rfl | rfl | rfl | rfl <;>
      simp only at low high <;> omega

theorem isBlank_of_isSeparator {c : Char} (separates : isSeparator c) : isBlank c := by
  simp only [isSeparator, Bool.or_eq_true, beq_iff_eq] at separates
  rcases separates with (((rfl | rfl) | rfl) | rfl) | rfl <;> decide

theorem isName_of_isAlpha {c : Char} (letter : c.isAlpha) : isName c := by
  have bounds := toNat_of_isAlpha letter
  have word := isWord_of_isAlphanum (c := c) (by omega) (by simp [Char.isAlphanum, letter])
  simp [isName, word]

end Text

theorem StringLiteral.proper_closeLoose (mark : Char) : (closeLoose mark).Proper := by
  intro text
  fun_induction closeLoose mark text with
  | case1 => simp
  | case2 => simp
  | case3 => simp
  | case4 c rest plain ih =>
    intro length found
    obtain ⟨further, closed, rfl⟩ := Option.map_eq_some_iff.mp found
    have bounds := ih further closed
    simp only [List.length_cons]
    omega
  | case5 rest =>
    intro length found
    cases found
    simp
  | case6 c rest _ _ apart ih =>
    intro length found
    obtain ⟨further, closed, rfl⟩ := Option.map_eq_some_iff.mp found
    have bounds := ih further closed
    simp only [List.length_cons]
    omega

theorem StringLiteral.proper_looseExtent : looseExtent.Proper := by
  intro text length found
  cases text with
  | nil => simp [looseExtent] at found
  | cons c rest =>
    simp only [looseExtent, Option.ite_none_right_eq_some, Option.map_eq_some_iff] at found
    obtain ⟨_, further, closed, rfl⟩ := found
    have bounds := proper_closeLoose c rest further closed
    simp only [List.length_cons]
    omega

namespace Value

theorem proper_numeral : numeral.Proper := by
  refine proper_seq_right (bounded_optional (bounded_char _)) (proper_orElse ?_ ?_)
  · exact proper_seq_left (proper_many1 _)
      (bounded_andThen (bounded_optional (bounded_char _)) (bounded_many _))
  · exact proper_seq_left (proper_sign _) (proper_many1 _).bounded

theorem proper_extent (kind : Terminal) : (Vocabulary.extent kind).Proper := by
  cases kind with
  | function =>
    exact proper_seq_right (bounded_atMost _ _)
      (proper_seq_left (proper_char _) (bounded_andThen (bounded_many _) (bounded_char _)))
  | leftParen => exact proper_sign _
  | rightParen => exact proper_sign _
  | atom kind =>
    cases kind with
    | url => exact proper_seq_right (bounded_word _) (proper_through _)
    | interpolation =>
      exact proper_seq_left (proper_sign _)
        (bounded_andThen (bounded_char _) (proper_through _).bounded)
    | dimension => exact proper_seq_left proper_numeral (proper_many1 _).bounded
    | percentage => exact proper_seq_left proper_numeral (bounded_char _)
    | color => exact proper_seq_left (proper_sign _) (proper_many1 _).bounded
    | quoted => exact StringLiteral.proper_looseExtent
    | number => exact proper_numeral
    | important =>
      exact proper_seq_left (proper_sign _) (bounded_andThen (bounded_many _) (proper_many1 _).bounded)
    | bracketed => exact proper_seq_left (proper_sign _) (proper_through _).bounded
    | reference => exact proper_seq_left (proper_sign _) (proper_many1 _).bounded
    | ident =>
      exact proper_seq_right (bounded_atMost _ _) (proper_seq_left (proper_char _) (bounded_many _))
    | operator => exact proper_char _

end Value

namespace Selector

theorem proper_argumentRest (nested : Bool) : (argumentRest nested).Proper := by
  intro text
  fun_induction argumentRest nested text with
  | case1 => simp
  | case2 => simp
  | case5 =>
    intro length found
    cases found
    simp
  | case3 nested rest _ ih | case4 rest _ ih | case6 nested c rest _ _ ih =>
    intro length found
    obtain ⟨further, closed, rfl⟩ := Option.map_eq_some_iff.mp found
    have bounds := ih further closed
    simp only [List.length_cons]
    omega

theorem proper_pseudo : pseudo.Proper := by
  refine proper_seq_left (proper_sign _) (bounded_andThen (bounded_optional (bounded_char _)) ?_)
  refine bounded_andThen (bounded_optional (bounded_char _)) (bounded_andThen (bounded_char _) ?_)
  exact bounded_andThen (bounded_many _) (bounded_optional
    (bounded_andThen (bounded_char _) (proper_argumentRest false).bounded))

theorem proper_simple (kind : SimpleKind) : (simple kind).Proper := by
  cases kind with
  | interpolation =>
    exact proper_seq_left (proper_sign _)
      (bounded_andThen (bounded_char _) (proper_through _).bounded)
  | keyframe =>
    refine proper_seq_left (proper_many1 _) (bounded_andThen (bounded_optional ?_) (bounded_char _))
    exact bounded_andThen (bounded_char _) (proper_many1 _).bounded
  | «attribute» => exact proper_seq_left (proper_sign _) (proper_through _).bounded
  | className => exact proper_seq_left (proper_sign _) (proper_many1 _).bounded
  | id => exact proper_seq_left (proper_sign _) (proper_many1 _).bounded
  | placeholder => exact proper_seq_left (proper_sign _) (proper_many1 _).bounded
  | type =>
    refine proper_seq_right (bounded_optional (bounded_char _)) (proper_seq_left (proper_char _) ?_)
    exact bounded_andThen (bounded_many _)
      (bounded_optional (bounded_andThen (bounded_char _) (proper_many1 _).bounded))
  | parent => exact proper_seq_left (proper_sign _) (bounded_many _)
  | combinator =>
    refine proper_orElse ?_ (proper_char _)
    exact proper_seq_left (proper_sign _) (bounded_andThen (bounded_char _) (bounded_char _))
  | universal => exact proper_sign _
  | other => exact proper_never

theorem proper_extent (kind : Terminal) : (Vocabulary.extent kind).Proper := by
  cases kind with
  | pseudo => exact proper_pseudo
  | simple kind => exact proper_simple kind
  | comma => exact proper_sign _

theorem getLast?_of_argumentRest {nested : Bool} {text : List Char} {length : Nat}
    (found : argumentRest nested text = some length) : (text.take length).getLast? = some ')' := by
  revert length
  fun_induction argumentRest nested text with
  | case1 => simp
  | case2 => simp
  | case5 => simp
  | case3 nested rest _ ih | case4 rest _ ih | case6 nested c rest _ _ ih =>
    intro length found
    obtain ⟨further, closed, rfl⟩ := Option.map_eq_some_iff.mp found
    rw [List.take_succ_cons, List.getLast?_cons, ih closed]
    rfl

/-- A pseudo-class is one or two colons, a name, and at most one argument in parentheses. -/
theorem takes_pseudo {piece rest : List Char} (taken : pseudo.Takes piece rest) :
    ∃ colon word argument, piece = ':' :: (colon ++ word ++ argument) ∧ (colon = [':'] ∨ colon = []) ∧
      word ≠ [] ∧ (∀ c ∈ word, Text.isName c) ∧
      (argument = [] ∨ ∃ inside, argument = '(' :: (inside ++ [')'])) := by
  simp only [pseudo, takes_seq, takes_sign, takes_optional, takes_char, takes_many] at taken
  obtain ⟨_, _, rfl, rfl, colon, _, rfl, colons, hyphen, _, rfl, hyphens, _, _, rfl, ⟨c, rfl, start⟩,
    names, argument, rfl, ⟨named, -⟩, arguments⟩ := taken
  refine ⟨colon, hyphen ++ c :: names, argument, by simp, ?_, by simp, ?_, ?_⟩
  · rcases colons with same | ⟨none, _⟩
    · exact .inl same
    · exact .inr none
  · intro d member
    rcases List.mem_append.mp member with front | back
    · rcases hyphens with rfl | ⟨rfl, _⟩
      · rw [List.mem_singleton.mp front]
        decide
      · simp at front
    · rcases List.mem_cons.mp back with rfl | later
      · simp only [Bool.or_eq_true, beq_iff_eq] at start
        rcases start with letter | rfl
        · exact Text.isName_of_isAlpha letter
        · decide
      · exact named d later
  · rcases arguments with ⟨_, inside, rfl, rfl, closed⟩ | ⟨none, _⟩
    · right
      have last := getLast?_of_argumentRest closed
      rw [List.take_left, List.getLast?_eq_some_iff] at last
      obtain ⟨before, rfl⟩ := last
      exact ⟨before, rfl⟩
    · exact .inl none

end Selector
end SheetLint
