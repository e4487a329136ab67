import SheetLint.Proofs.Extent
import SheetLint.Token.StringLiteral

/-! Strings that close on their line: only their own characters tell how far they reach. -/
namespace SheetLint.StringLiteral

open Extent

/-- The rest of a string after its opening mark, up to the closing one. -/
inductive Closed (mark : Char) : List Char → Prop
  | closing : Closed mark [mark]
  | covered {c : Char} {body : List Char} (closed : Closed mark body) :
      Closed mark ('\\' :: c :: body)
  | plain {c : Char} {body : List Char} (uncovered : c ≠ '\\') (inside : c ≠ mark) (within : c ≠ '\n')
      (closed : Closed mark body) : Closed mark (c :: body)

/-- A string closes from a place within it on; a backslash just before the place covers what is there. -/
def closes (mark : Char) : Bool → List Char → Bool
  | _, [] => false
  | true, _ :: rest => closes mark false rest
  | false, c :: rest =>
    if c = '\\' then closes mark true rest
    else if c = mark then true
    else if c = '\n' then false
    else closes mark false rest

variable {mark c : Char} {text body rest piece : List Char} {length : Nat}

theorem ne_of_isMark (quote : isMark mark) (plain : isMark c = false) : mark ≠ c := by
  rintro rfl
  rw [quote] at plain
  cases plain

theorem ne_backslash (last : c = '\\' → rest = [] → False)
    (covers : ∀ d later, c = '\\' → rest = d :: later → False) : c ≠ '\\' := by
  intro same
  cases rest with
  | nil => exact last same rfl
  | cons d later => exact covers d later same rfl

theorem closed_of_close (found : close mark text = .ok length) :
    ∃ body rest, text = body ++ rest ∧ Closed mark body ∧ body.length = length := by
  fun_induction close mark text generalizing length with
  | case1 | case2 | case4 | case6 | case8 => cases found
  | case3 c rest further closes ih =>
    cases found
    obtain ⟨body, rest, rfl, closed, rfl⟩ := ih closes
    exact ⟨'\\' :: c :: body, rest, rfl, .covered closed, rfl⟩
  | case5 =>
    cases found
    exact ⟨_, _, rfl, .closing, rfl⟩
  | case7 c rest last covers inside within further closes ih =>
    cases found
    obtain ⟨body, rest, rfl, closed, rfl⟩ := ih closes
    exact ⟨c :: body, rest, rfl, .plain (ne_backslash last covers) inside within closed, rfl⟩

theorem close_cons (uncovered : c ≠ '\\') :
    close mark (c :: rest) =
      if c = mark then .ok 1
      else if c = '\n' then .error 0
      else match close mark rest with
        | .ok length => .ok (length + 1)
        | .error followed => .error (followed + 1) :=
  close.eq_4 _ _ _ (fun same _ => uncovered same) fun _ _ same _ => uncovered same

theorem close_of_closed (quote : isMark mark) (closed : Closed mark body) (rest : List Char) :
    close mark (body ++ rest) = .ok body.length := by
  induction closed with
  | closing =>
    rw [List.singleton_append, close_cons (ne_of_isMark quote rfl), if_pos rfl]
    rfl
  | covered _ ih => simp [close, ih]
  | plain uncovered inside within _ ih =>
    rw [List.cons_append, close_cons uncovered, if_neg inside, if_neg within, ih]
    rfl

/-- A string is a mark and what closes it, whatever follows. -/
theorem takes_extent_iff :
    extent.Takes piece rest ↔ ∃ mark body, piece = mark :: body ∧ isMark mark ∧ Closed mark body := by
  constructor
  · intro taken
    unfold Takes at taken
    cases whole : piece ++ rest with
    | nil => simp [whole, extent] at taken
    | cons mark text =>
      rw [whole] at taken
      simp only [extent, Option.ite_none_right_eq_some, Option.map_eq_some_iff] at taken
      obtain ⟨quote, length, found, size⟩ := taken
      cases closing : close mark text with
      | error followed => simp [closing, Except.toOption] at found
      | ok other =>
        obtain ⟨body, later, rfl, closed, rfl⟩ := closed_of_close closing
        obtain rfl : body.length = length := by simpa [closing, Except.toOption] using found
        have parts : piece ++ rest = (mark :: body) ++ later := whole
        obtain ⟨rfl, _⟩ := List.append_inj parts (by simp [← size])
        exact ⟨mark, body, rfl, quote, closed⟩
  · rintro ⟨mark, body, rfl, quote, closed⟩
    simp [Takes, extent, quote, close_of_closed quote closed, Except.toOption]

/-- A text that starts with a string starts with a piece that is one. -/
theorem takes_of_extent (found : extent text = some length) :
    ∃ piece rest, text = piece ++ rest ∧ extent.Takes piece rest ∧ piece.length = length := by
  cases text with
  | nil => simp [extent] at found
  | cons mark text =>
    simp only [extent, Option.ite_none_right_eq_some, Option.map_eq_some_iff] at found
    obtain ⟨quote, further, found, rfl⟩ := found
    cases closing : close mark text with
    | error followed => simp [closing, Except.toOption] at found
    | ok other =>
      obtain ⟨body, rest, rfl, closed, rfl⟩ := closed_of_close closing
      obtain rfl : body.length = further := by simpa [closing, Except.toOption] using found
      exact ⟨mark :: body, rest, rfl, takes_extent_iff.mpr ⟨mark, body, rfl, quote, closed⟩, rfl⟩

/-- Strings close where their end is found. -/
theorem closes_eq_isOk (quote : isMark mark) : closes mark false text = (close mark text).isOk := by
  have apart : mark ≠ '\\' := ne_of_isMark quote rfl
  fun_induction close mark text with
  | case1 => rfl
  | case2 => rfl
  | case3 c rest length found ih | case4 c rest length found ih =>
    simpa [found, closes, Except.isOk, Except.toBool] using ih
  | case5 => simp [closes, apart, Except.isOk, Except.toBool]
  | case6 rest last covers inside => simp [closes, inside, Except.isOk, Except.toBool]
  | case7 c rest last covers inside within length found ih
  | case8 c rest last covers inside within followed found ih =>
    have uncovered := ne_backslash last covers
    simpa [found, closes, uncovered, inside, within, Except.isOk, Except.toBool] using ih

/-- A string starts at a mark that is closed later. -/
theorem extent_ne_none_iff :
    extent (mark :: text) ≠ none ↔ isMark mark ∧ closes mark false text := by
  by_cases quote : isMark mark
  · rw [closes_eq_isOk quote]
    cases found : close mark text <;>
      simp [extent, quote, found, Except.toOption, Except.isOk, Except.toBool]
  · simp [extent, quote]

end SheetLint.StringLiteral
