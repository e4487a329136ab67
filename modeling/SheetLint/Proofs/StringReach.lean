import SheetLint.Proofs.CommentPass
import SheetLint.Proofs.Lexing
import SheetLint.Sheet.Cut

/-! How far a string reaches for those who read it: the pass that cuts a text, the pass that blanks its
comments, and the tokens of values. The first two agree on every string, and tokens with them where no
backslash covers a line break; where one does, the text starts no token. -/
namespace SheetLint

namespace StringLiteral

open Extent

/-- The rest of a string as a part of a value: a backslash covers no line break, and line breaks stand for
themselves. -/
inductive LooselyClosed (mark : Char) : List Char → Prop
  | closing : LooselyClosed mark [mark]
  | covered {c : Char} {body : List Char} (within : c ≠ '\n') (closed : LooselyClosed mark body) :
      LooselyClosed mark ('\\' :: c :: body)
  | plain {c : Char} {body : List Char} (uncovered : c ≠ '\\') (inside : c ≠ mark)
      (closed : LooselyClosed mark body) : LooselyClosed mark (c :: body)

/-- Somewhere in a text a backslash covers a line break. -/
def coversBreak : List Char → Bool
  | '\\' :: c :: rest => c == '\n' || coversBreak rest
  | _ :: rest => coversBreak rest
  | [] => false

/-- A text is one string that closes on its line. -/
def IsLiteral (piece : List Char) : Prop :=
  ∃ mark body, piece = mark :: body ∧ isMark mark ∧ Closed mark body

/-- A text is one string as a part of a value. -/
def IsLooseLiteral (piece : List Char) : Prop :=
  ∃ mark body, piece = mark :: body ∧ isMark mark ∧ LooselyClosed mark body

variable {mark c : Char} {text body rest piece : List Char} {length : Nat}

theorem closeLoose_cons (uncovered : c ≠ '\\') :
    closeLoose mark (c :: rest) =
      if c = mark then some 1 else (closeLoose mark rest).map (· + 1) :=
  closeLoose.eq_4 _ _ _ (fun same _ => uncovered same) fun _ _ same _ => uncovered same

theorem coversBreak_cons (uncovered : c ≠ '\\') : coversBreak (c :: rest) = coversBreak rest :=
  coversBreak.eq_2 _ _ fun _ _ same _ => uncovered same

theorem closeLoose_of_looselyClosed (quote : isMark mark) (closed : LooselyClosed mark body)
    (rest : List Char) : closeLoose mark (body ++ rest) = some body.length := by
  induction closed with
  | closing =>
    rw [List.singleton_append, closeLoose_cons (ne_of_isMark quote rfl), if_pos rfl]
    rfl
  | covered within _ ih => simp [closeLoose, within, ih]
  | plain uncovered inside _ ih =>
    rw [List.cons_append, closeLoose_cons uncovered, if_neg inside, ih]
    rfl

theorem looselyClosed_of_closeLoose {mark : Char} {text : List Char} {length : Nat}
    (found : closeLoose mark text = some length) :
    ∃ body rest, text = body ++ rest ∧ LooselyClosed mark body ∧ body.length = length := by
  fun_induction closeLoose mark text generalizing length with
  | case1 | case2 | case3 => cases found
  | case4 c rest within ih =>
    obtain ⟨further, closes, rfl⟩ := Option.map_eq_some_iff.mp found
    obtain ⟨body, later, rfl, closed, rfl⟩ := ih closes
    exact ⟨'\\' :: c :: body, later, rfl, .covered within closed, rfl⟩
  | case5 rest =>
    cases found
    exact ⟨[mark], rest, rfl, .closing, rfl⟩
  | case6 c rest last covers inside ih =>
    obtain ⟨further, closes, rfl⟩ := Option.map_eq_some_iff.mp found
    obtain ⟨body, later, rfl, closed, rfl⟩ := ih closes
    exact ⟨c :: body, later, rfl, .plain (ne_backslash last covers) inside closed, rfl⟩

theorem isLooseLiteral_of_takes {piece rest : List Char} (taken : looseExtent.Takes piece rest) :
    IsLooseLiteral piece := by
  unfold Extent.Takes at taken
  cases whole : piece ++ rest with
  | nil => simp [whole, looseExtent] at taken
  | cons mark text =>
    rw [whole] at taken
    simp only [looseExtent, Option.ite_none_right_eq_some, Option.map_eq_some_iff] at taken
    obtain ⟨quote, length, found, size⟩ := taken
    obtain ⟨body, later, rfl, closed, rfl⟩ := looselyClosed_of_closeLoose found
    have parts : piece ++ rest = (mark :: body) ++ later := whole
    obtain ⟨rfl, _⟩ := List.append_inj parts (by simp [← size])
    exact ⟨mark, body, rfl, quote, closed⟩

/-- A string that closes on its line closes at the same place in a value, unless a backslash in it covers a
line break: then it does not close there at all. -/
theorem closeLoose_of_closed (quote : isMark mark) (closed : Closed mark body) (rest : List Char) :
    closeLoose mark (body ++ rest) = if coversBreak body then none else some body.length := by
  induction closed with
  | closing =>
    have apart : mark ≠ '\\' := ne_of_isMark quote rfl
    rw [List.singleton_append, closeLoose_cons apart, if_pos rfl, coversBreak_cons apart]
    rfl
  | @covered c body _ ih =>
    by_cases breaks : c = '\n'
    · simp [closeLoose, coversBreak, breaks]
    · by_cases covers : coversBreak body <;> simp [closeLoose, coversBreak, breaks, ih, covers]
  | @plain c body uncovered inside _ _ ih =>
    rw [List.cons_append, closeLoose_cons uncovered, if_neg inside, ih, coversBreak_cons uncovered]
    by_cases covers : coversBreak body <;> simp [covers]

theorem looselyClosed_of_closed (closed : Closed mark body)
    (covers : coversBreak body = false) : LooselyClosed mark body := by
  induction closed with
  | closing => exact .closing
  | covered _ ih =>
    simp only [coversBreak, Bool.or_eq_false_iff, beq_eq_false_iff_ne] at covers
    exact .covered covers.1 (ih covers.2)
  | plain uncovered inside _ _ ih =>
    rw [coversBreak_cons uncovered] at covers
    exact .plain uncovered inside (ih covers)

theorem looseExtent_of_isLiteral (literal : IsLiteral piece) (rest : List Char) :
    looseExtent (piece ++ rest) = if coversBreak piece then none else some piece.length := by
  obtain ⟨mark, body, rfl, quote, closed⟩ := literal
  rw [List.cons_append, looseExtent, if_pos quote, closeLoose_of_closed quote closed,
    coversBreak_cons (ne_of_isMark quote rfl)]
  by_cases covers : coversBreak body <;> simp [covers]

/-- A text starts with one string at most. -/
theorem isLiteral_iff (literal : IsLiteral piece) {other : List Char} (starts : other <+: piece ++ rest) :
    IsLiteral other ↔ other = piece := by
  constructor
  · intro literal'
    obtain ⟨later, same⟩ := starts
    have one : extent.Takes piece rest := takes_extent_iff.mpr literal
    have two : extent.Takes other later := takes_extent_iff.mpr literal'
    rw [Takes, same, one, Option.some.injEq] at two
    exact (List.append_inj same two.symm).1
  · rintro rfl
    exact literal

/-- A string that a text starts with is the only one that it can start with in a value. -/
theorem isLooseLiteral_iff (literal : IsLiteral piece) {other : List Char}
    (starts : other <+: piece ++ rest) :
    IsLooseLiteral other ↔ other = piece ∧ coversBreak piece = false := by
  have reach := looseExtent_of_isLiteral literal rest
  constructor
  · rintro ⟨mark, body, rfl, quote, closed⟩
    obtain ⟨later, same⟩ := starts
    rw [← same, List.cons_append, looseExtent, if_pos quote,
      closeLoose_of_looselyClosed quote closed, Option.map_some] at reach
    split at reach
    · cases reach
    · rename_i covers
      exact ⟨(List.append_inj same (Option.some.inj reach)).1, Bool.eq_false_iff.mpr covers⟩
  · rintro ⟨rfl, covers⟩
    obtain ⟨mark, body, rfl, quote, closed⟩ := literal
    rw [coversBreak_cons (ne_of_isMark quote rfl)] at covers
    exact ⟨mark, body, rfl, quote, looselyClosed_of_closed closed covers⟩

end StringLiteral

open StringLiteral

variable {mark : Char} {text rest piece : List Char}

/-- No other kind of token starts with a quotation mark. -/
theorem extent_of_isMark (quote : isMark mark) (rest : List Char) {kind : Value.Terminal}
    (apart : kind ≠ .atom .quoted) : Vocabulary.extent kind (mark :: rest) = none := by
  simp only [isMark, Bool.or_eq_true, beq_iff_eq] at quote
  cases kind with
  | atom kind =>
    cases kind with
    | quoted => exact absurd rfl apart
    | _ => rcases quote with rfl | rfl <;> rfl
  | _ => rcases quote with rfl | rfl <;> rfl

theorem recognise_of_isMark (quote : isMark mark) (rest : List Char) :
    recognise (mark :: rest) =
      (looseExtent (mark :: rest)).map fun length => (Value.Terminal.atom .quoted, length) := by
  have others {kind : Value.Terminal} (apart : kind ≠ .atom .quoted) :=
    extent_of_isMark quote rest apart
  have quoted : Vocabulary.extent (.atom .quoted : Value.Terminal) (mark :: rest) =
      looseExtent (mark :: rest) := rfl
  cases found : looseExtent (mark :: rest) <;>
    simp [recognise, Vocabulary.preference, others, quoted, found]

theorem cutsFrom_pending {start depth pending : Nat} {taken text : List Char}
    (within : pending ≤ text.length) :
    cutsFrom start taken depth pending text =
      cutsFrom start ((text.take pending).reverse ++ taken) depth 0 (text.drop pending) := by
  induction text generalizing taken pending with
  | nil =>
    obtain rfl := Nat.le_zero.mp within
    rfl
  | cons c rest ih =>
    cases pending with
    | zero => rfl
    | succ pending =>
      rw [cutsFrom, ih (Nat.le_of_succ_le_succ within)]
      simp

/-- The pass that cuts a text goes over a string without a cut in it. -/
theorem cutsFrom_of_isLiteral (literal : IsLiteral piece) (start : Nat) (taken : List Char)
    (depth : Nat) (rest : List Char) :
    cutsFrom start taken depth 0 (piece ++ rest) =
      cutsFrom start (piece.reverse ++ taken) depth 0 rest := by
  obtain ⟨mark, body, rfl, quote, closed⟩ := literal
  have step : cutsFrom start taken depth 0 (mark :: (body ++ rest)) =
      cutsFrom start (mark :: taken) depth body.length (body ++ rest) := by
    simp [cutsFrom, quote, close_of_closed quote closed]
  rw [List.cons_append, step, cutsFrom_pending (by simp)]
  simp

/-- The part of a text between two offsets. -/
def slice (text : List Char) (start stop : Nat) : List Char := (text.drop start).take (stop - start)

/-- What stands between two offsets is one string. The pass that cuts the text goes over it at once, and the
pass for comments keeps it; no other piece from the first offset on is a string. The same holds in values,
and the string is one token, unless a backslash in it covers a line break: then no string and no token
starts there. -/
structure OneString (text : List Char) (start stop : Nat) : Prop where
  forward : start < stop
  within : stop ≤ text.length
  cut : ∀ origin taken depth, cutsFrom origin taken depth 0 (text.drop start) =
    cutsFrom origin ((slice text start stop).reverse ++ taken) depth 0 (text.drop stop)
  literal : ∀ piece, piece <+: text.drop start → (IsLiteral piece ↔ start + piece.length = stop)
  kept : Comment.stretch? (text.drop start) = some (.kept (stop - start))
  loose : ∀ piece, piece <+: text.drop start →
    (IsLooseLiteral piece ↔ start + piece.length = stop ∧ coversBreak (slice text start stop) = false)
  token : recognise (text.drop start) =
    if coversBreak (slice text start stop) then none
    else some (Value.Terminal.atom .quoted, stop - start)

theorem oneString_of_isLiteral {start : Nat} (literal : IsLiteral piece)
    (placed : text.drop start = piece ++ rest) : OneString text start (start + piece.length) := by
  have size := congrArg List.length placed
  rw [List.length_drop, List.length_append] at size
  have length : start + piece.length - start = piece.length := Nat.add_sub_cancel_left _ _
  have whole : slice text start (start + piece.length) = piece := by
    rw [slice, placed, length, List.take_left]
  have later : text.drop (start + piece.length) = rest := by
    rw [← List.drop_drop, placed, List.drop_left]
  have same {other : List Char} (starts : other <+: piece ++ rest) :
      other = piece ↔ start + other.length = start + piece.length := by
    rw [Nat.add_left_cancel_iff]
    constructor
    · exact congrArg List.length
    · exact fun equal => (List.prefix_of_prefix_length_le starts (List.prefix_append _ _)
        (Nat.le_of_eq equal)).eq_of_length equal
  obtain ⟨mark, body, rfl, quote, closed⟩ := literal
  have literal : IsLiteral (mark :: body) := ⟨mark, body, rfl, quote, closed⟩
  constructor
  · exact Nat.lt_add_of_pos_right (Nat.succ_pos _)
  · rw [List.length_cons] at size ⊢
    omega
  · intro origin taken depth
    rw [whole, later, placed]
    exact cutsFrom_of_isLiteral literal origin taken depth rest
  · intro other starts
    rw [placed] at starts
    rw [isLiteral_iff literal starts, same starts]
  · have found : extent (mark :: body ++ rest) = some (mark :: body).length := takes_extent_iff.mpr literal
    rw [placed, length]
    exact Comment.stretch?_of_shelter (by rw [Comment.shelter_eq, found, Option.some_or])
  · intro other starts
    rw [placed] at starts
    rw [whole, isLooseLiteral_iff literal starts, same starts]
  · rw [placed, whole, length, List.cons_append, recognise_of_isMark quote, ← List.cons_append,
      looseExtent_of_isLiteral literal]
    by_cases covers : coversBreak (mark :: body) <;> simp [covers]

/-- Where a quotation mark is closed on its line, the string has one extent for the scan, for comments and,
as long as no backslash in it covers a line break, for values. -/
theorem string_has_one_extent {text : List Char} {start length : Nat} {mark : Char}
    (begins : text[start]? = some mark) (quote : isMark mark)
    (closes : close mark (text.drop (start + 1)) = .ok length) :
    OneString text start (start + 1 + length) := by
  obtain ⟨body, rest, split, closed, rfl⟩ := closed_of_close closes
  have placed : text.drop start = (mark :: body) ++ rest := by
    rw [List.cons_append, ← split]
    obtain ⟨inside, here⟩ := List.getElem?_eq_some_iff.mp begins
    rw [← here]
    exact List.drop_eq_getElem_cons inside
  have reach := oneString_of_isLiteral ⟨mark, body, rfl, quote, closed⟩ placed
  rwa [List.length_cons, Nat.add_comm body.length, ← Nat.add_assoc] at reach

/-- A string with a mark that a backslash covers is one token. -/
theorem string_has_one_extent_of_covered_mark :
    close '\x27' ("a 'b\\'c' d".toList.drop 3) = .ok 5 ∧ OneString "a 'b\\'c' d".toList 2 8 := by
  have begins : "a 'b\\'c' d".toList[2]? = some '\x27' := by rfl
  have closes : close '\x27' ("a 'b\\'c' d".toList.drop 3) = .ok 5 := by rfl
  exact ⟨closes, string_has_one_extent begins rfl closes⟩

/-- A string in which a backslash covers a line break is closed on its line and kept with the comments
around it, but it starts no token of a value. -/
theorem covered_break_starts_no_token :
    close '\x27' "\\\n'".toList = .ok 3 ∧ Comment.stretch? "'\\\n'".toList = some (.kept 4) ∧
      recognise (κ := Value.Terminal) "'\\\n'".toList = none := by
  refine ⟨by rfl, by rfl, by rfl⟩

end SheetLint
