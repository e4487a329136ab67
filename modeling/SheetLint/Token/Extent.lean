/-!
Extents: how many characters of a text, from its start, make up a lexeme. Each step takes as much as it
can and nothing is given back; the lexemes of stylesheets need no more.
-/
namespace SheetLint

/-- The length of the lexeme at the start of a text, none where the text starts with no such lexeme. -/
def Extent : Type := List Char → Option Nat

namespace Extent

/-- One character of a class. -/
def char (ok : Char → Bool) : Extent
  | [] => none
  | c :: _ => if ok c then some 1 else none

/-- As many characters of a class as there are. -/
def many (ok : Char → Bool) : Extent := fun text => some (text.takeWhile ok).length

/-- Up to a number of characters of a class. -/
def atMost (bound : Nat) (ok : Char → Bool) : Extent := fun text =>
  some ((text.take bound).takeWhile ok).length

/-- A lexeme or nothing. -/
def optional (lexeme : Extent) : Extent := fun text => some ((lexeme text).getD 0)

/-- One lexeme right after another. -/
def andThen (first second : Extent) : Extent := fun text => do
  let length ← first text
  let further ← second (text.drop length)
  return length + further

/-- The first lexeme, or else the second. -/
def orElse (first second : Extent) : Extent := fun text => (first text).or (second text)

instance : AndThen Extent := ⟨fun first second => first.andThen (second ())⟩

instance : OrElse Extent := ⟨fun first second => first.orElse (second ())⟩

/-- At least one character of a class. -/
def many1 (ok : Char → Bool) : Extent := char ok >> many ok

/-- The characters up to a given one, and that one. -/
def through (stop : Char) : Extent := many (· != stop) >> char (· == stop)

/-- A word of lower-case letters and signs, written in any case. -/
def word (letters : List Char) : Extent := fun text =>
  if (text.take letters.length).map Char.toLower = letters then some letters.length else none

/-- No lexeme at all. -/
def never : Extent := fun _ => none

/-- A lexeme lies within its text. -/
def Bounded (lexeme : Extent) : Prop := ∀ text length, lexeme text = some length → length ≤ text.length

theorem bounded_char (ok : Char → Bool) : (char ok).Bounded := by
  intro text length found
  cases text with
  | nil => simp [char] at found
  | cons c rest =>
    simp only [char, Option.ite_none_right_eq_some, Option.some.injEq] at found
    simp only [List.length_cons]
    omega

theorem bounded_many (ok : Char → Bool) : (many ok).Bounded := by
  intro text length found
  simp only [many, Option.some.injEq] at found
  exact found ▸ (List.takeWhile_prefix ok).length_le

theorem bounded_andThen {first second : Extent} (one : first.Bounded) (two : second.Bounded) :
    (first.andThen second).Bounded := by
  intro text length found
  simp only [andThen, Option.bind_eq_bind, Option.bind_eq_some_iff, Option.pure_def,
    Option.some.injEq] at found
  obtain ⟨n, first_found, m, second_found, rfl⟩ := found
  have fits := one _ _ first_found
  have rest := two _ _ second_found
  simp only [List.length_drop] at rest
  omega

end Extent
end SheetLint
