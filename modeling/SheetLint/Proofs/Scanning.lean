import SheetLint.Proofs.Resuming
import SheetLint.Proofs.StringReach

/-! A scan of a text by offsets: round after round, and each block by a scan of its own, which tells where it
stopped. Nothing in the form of such a scan tells how many rounds it takes, so they are given to it. Each round
goes forward and stays inside the text, and does what the pass that cuts the text does there. -/
namespace SheetLint

section Slices

variable {text : List Char} {start mid stop : Nat}

theorem length_slice (bound : stop ≤ text.length) : (slice text start stop).length = stop - start := by
  rw [slice, List.length_take, List.length_drop]
  omega

theorem slice_append (first : start ≤ mid) (second : mid ≤ stop) :
    slice text start mid ++ slice text mid stop = slice text start stop := by
  obtain ⟨a, rfl⟩ := Nat.exists_eq_add_of_le first
  obtain ⟨b, rfl⟩ := Nat.exists_eq_add_of_le second
  rw [slice, slice, slice, Nat.add_sub_cancel_left, Nat.add_sub_cancel_left, Nat.add_assoc,
    Nat.add_sub_cancel_left, ← List.drop_drop, List.take_add]

end Slices

section Interpolation

theorem Extent.through_cons (stop c : Char) (rest : List Char) :
    through stop (c :: rest) = if c = stop then some 1 else (through stop rest).map (· + 1) := by
  change (many (· != stop)).andThen (char (· == stop)) (c :: rest) =
    if c = stop then some 1 else ((many (· != stop)).andThen (char (· == stop)) rest).map (· + 1)
  by_cases last : c = stop
  · simp [andThen, many, char, last]
  · simp only [andThen, many, bne_iff_ne, ne_eq, last, not_false_eq_true, List.takeWhile_cons_of_pos,
      List.length_cons, Option.bind_eq_bind, Option.bind_some, List.drop_succ_cons]
    cases char (· == stop) (rest.drop (rest.takeWhile (· != stop)).length) with
    | none => rfl
    | some length => simp [Nat.add_right_comm]

theorem Extent.through_eq_idxOf? (stop : Char) (text : List Char) :
    through stop text = (text.idxOf? stop).map (· + 1) := by
  induction text with
  | nil => rfl
  | cons c rest ih =>
    rw [through_cons, ih, List.idxOf?_cons]
    by_cases last : c = stop <;> simp [last]

/-- An interpolation reaches to the first brace that closes. -/
theorem interpolation?_of_begun {text : List Char} (begun : ['#', '\x7b'] <+: text) :
    interpolation? text = some ((text.idxOf? '\x7d').map (· + 1)) := by
  obtain ⟨rest, rfl⟩ := begun
  change some ((Extent.through '\x7d' rest).map (· + 2)) = _
  rw [Extent.through_eq_idxOf?]
  cases found : rest.idxOf? '\x7d' <;> simp [List.idxOf?_cons, found]

theorem interpolation?_of_not_begun {c : Char} {rest : List Char} (apart : ¬['#', '\x7b'] <+: c :: rest) :
    interpolation? (c :: rest) = none := by
  rw [interpolation?_eq_none_iff]
  rintro rfl opens
  obtain ⟨later, rfl⟩ := List.head?_eq_some_iff.mp opens
  exact apart ⟨later, rfl⟩

end Interpolation

/-- A course that comes to an outcome, or to none where its rounds are used up. -/
abbrev Course := ExceptT Failure Option

namespace Course

variable {α β : Type} {result : Except Failure α} {holds : α → Prop}

/-- The course that ends at once. -/
def settled (result : Except Failure α) : Course α := ExceptT.mk (some result)

/-- The course that has no rounds left. -/
def exhausted : Course α := ExceptT.mk none

/-- A course ends, and unless it fails something holds of what it comes to. -/
def Ends (course : Course α) (holds : α → Prop) : Prop :=
  ∃ result, course.run = some result ∧ ∀ value, result = .ok value → holds value

theorem ends_settled (keeps : ∀ value, result = .ok value → holds value) : (settled result).Ends holds :=
  ⟨result, rfl, keeps⟩

/-- A course that ends at once goes on as its outcome does. -/
theorem settled_bind (result : Except Failure α) (next : α → Except Failure β) :
    settled (result >>= next) = settled result >>= fun value => settled (next value) := by
  cases result <;> rfl

end Course

namespace Scan

open Course (settled)

/-- The offset just past a string with a given mark, from an offset within it on. -/
def closing (text : List Char) (mark : Char) (i : Nat) : Except Failure Nat :=
  if inside : i < text.length then
    if text[i] = '\\' then closing text mark (i + 2)
    else if text[i] = mark then .ok (i + 1)
    else if text[i] = '\n' then .error ⟨.openString, i⟩
    else closing text mark (i + 1)
  else .error ⟨.openString, i⟩
termination_by text.length - i

/-- The offset just past the string that starts at an offset. -/
def pastString (text : List Char) (i : Nat) (inside : i < text.length) : Except Failure Nat :=
  closing text text[i] (i + 1)

/-- The offset just past the interpolation that starts at an offset. -/
def pastInterpolation (text : List Char) (i : Nat) : Except Failure Nat :=
  match (text.drop i).idxOf? '\x7d' with
  | some length => .ok (i + length + 1)
  | none => .error ⟨.openInterpolation, i⟩

/-- The chunk between two offsets. -/
def chunkAt (text : List Char) (start stop : Nat) : Chunk := ⟨slice text start stop, start⟩

/-- A scan, within the block opened at `opened?`, that goes on at `i` with `depth` parentheses open. The chunk
at hand starts at `start`, and `found` are the statements before it. It comes to the statements of the level and
the offset at which they stop. -/
abbrev Scanner := (opened? : Option Nat) → (found : List (Node Nat)) → (start depth i : Nat) →
  Course (List (Node Nat) × Nat)

variable (again : Scanner)

/-- The statement with the block that opens at `brace`, and the offset just past it. -/
def block (text : List Char) (start brace : Nat) : Course (Option (Node Nat) × Nat) := do
  let (children, stop) ← again (some brace) [] (brace + 1) 0 (brace + 1)
  let statement ← settled ((chunkAt text start brace).trim.withBlock brace (.block children brace)).result
  return (statement, stop)

/-- The round at a delimiter. After a block the scan goes on where the scan of the block stopped. -/
def delimited (text : List Char) (opened? : Option Nat) (found : List (Node Nat)) (start i : Nat) :
    Delimiter → Course (List (Node Nat) × Nat)
  | .semicolon => do
    let statement ← settled (chunkAt text start i).trim.plain
    again opened? (found ++ statement.toList) (i + 1) 0 (i + 1)
  | .opening => do
    let (statement, next) ← block again text start i
    again opened? (found ++ statement.toList) next 0 next
  | .closing =>
    match opened? with
    | none => throw ⟨.strayBrace, i⟩
    | some _ => do
      let last ← settled (chunkAt text start i).trim.plain
      return (found ++ last.toList, i + 1)

/-- One round of a scan, or its end with the text. -/
def round (text : List Char) (opened? : Option Nat) (found : List (Node Nat)) (start depth i : Nat) :
    Course (List (Node Nat) × Nat) :=
  if inside : i < text.length then
    if StringLiteral.isMark text[i] then do
      let next ← settled (pastString text i inside)
      again opened? found start depth next
    else if ['#', '\x7b'] <+: text.drop i then do
      let next ← settled (pastInterpolation text i)
      again opened? found start depth next
    else if text[i] = '(' then again opened? found start (depth + 1) (i + 1)
    else if text[i] = ')' then again opened? found start (depth - 1) (i + 1)
    else match depth, delimiter? text[i] with
      | 0, some delimiter => delimited again text opened? found start i delimiter
      | _, _ => again opened? found start depth (i + 1)
  else match opened? with
    | some brace => throw ⟨.openBlock, brace⟩
    | none => do
      let last ← settled (chunkAt text start text.length).trim.plain
      return (found ++ last.toList, text.length)

/-- A scan of so many rounds, one within the other or after the other. -/
def rounds (text : List Char) : Nat → Scanner
  | 0 => fun _ _ _ _ _ => .exhausted
  | patience + 1 => round (rounds text patience) text

/-- The statements from an offset on, up to the end of the block opened at `opened?` or of the text, and the
offset at which they stop. -/
def statements (patience : Nat) (text : List Char) (pos : Nat) (opened? : Option Nat) :
    Course (List (Node Nat) × Nat) :=
  rounds text patience opened? [] pos 0 pos

variable {text : List Char} {start depth i : Nat}

theorem stop_chunkAt {stop : Nat} (order : start ≤ stop) (bound : stop ≤ text.length) :
    (chunkAt text start stop).stop = stop := by
  change start + (slice text start stop).length = stop
  rw [length_slice bound, Nat.add_sub_cancel' order]

section Shelters

/-- An offset within a text, told from how far a string was followed. -/
def reached (i : Nat) : Except Nat Nat → Except Failure Nat
  | .ok length => .ok (i + length)
  | .error followed => .error ⟨.openString, i + followed⟩

theorem here_of_drop {c : Char} {rest : List Char} (placed : text.drop i = c :: rest) :
    ∃ inside : i < text.length, text[i] = c ∧ text.drop (i + 1) = rest := by
  have inside : i < text.length := by
    by_contra beyond
    rw [List.drop_eq_nil_of_le (Nat.le_of_not_lt beyond)] at placed
    cases placed
  rw [List.drop_eq_getElem_cons inside] at placed
  injection placed with here later
  exact ⟨inside, here, later⟩

/-- A string is followed as far as it goes, be it closed or not. -/
theorem closing_eq (mark : Char) (text : List Char) (i : Nat) :
    closing text mark i = reached i (StringLiteral.close mark (text.drop i)) := by
  generalize placed : text.drop i = rest
  fun_induction StringLiteral.close mark rest generalizing i with
  | case1 =>
    have beyond : ¬i < text.length := by simpa using placed
    rw [closing, dif_neg beyond]
    rfl
  | case2 =>
    -- The backslash covers a character past the end: the scan goes there all the same.
    obtain ⟨inside, here, later⟩ := here_of_drop placed
    have beyond : ¬i + 2 < text.length := by
      have last := List.drop_eq_nil_iff.mp later
      omega
    rw [closing, dif_pos inside, if_pos here, closing, dif_neg beyond]
    rfl
  | case3 c rest length found ih | case4 c rest length found ih =>
    obtain ⟨inside, here, later⟩ := here_of_drop placed
    obtain ⟨_, _, later⟩ := here_of_drop later
    rw [closing, dif_pos inside, if_pos here, ih (i + 2) later, found]
    simp only [reached, Nat.add_assoc, Nat.add_comm 2]
  | case5 rest last covers =>
    obtain ⟨inside, here, _⟩ := here_of_drop placed
    have uncovered : text[i] ≠ '\\' := by
      rw [here]
      exact StringLiteral.ne_backslash last covers
    rw [closing, dif_pos inside, if_neg uncovered, if_pos here]
    rfl
  | case6 rest last covers apart =>
    obtain ⟨inside, here, _⟩ := here_of_drop placed
    have uncovered := StringLiteral.ne_backslash last covers
    rw [closing, dif_pos inside, here, if_neg uncovered, if_neg apart, if_pos rfl]
    rfl
  | case7 c rest last covers apart within length found ih
  | case8 c rest last covers apart within followed found ih =>
    obtain ⟨inside, here, later⟩ := here_of_drop placed
    have uncovered := StringLiteral.ne_backslash last covers
    rw [closing, dif_pos inside, here, if_neg uncovered, if_neg apart, if_neg within, ih (i + 1) later, found]
    simp only [reached, Nat.add_assoc, Nat.add_comm 1]

theorem pastString_eq (inside : i < text.length) :
    pastString text i inside = reached (i + 1) (StringLiteral.close text[i] (text.drop (i + 1))) :=
  closing_eq _ _ _

theorem close_within {mark : Char} {length : Nat} (inside : i < text.length)
    (closed : StringLiteral.close mark (text.drop (i + 1)) = .ok length) : i + 1 + length ≤ text.length := by
  obtain ⟨body, rest, split, _, rfl⟩ := StringLiteral.closed_of_close closed
  have size := congrArg List.length split
  rw [List.length_drop, List.length_append] at size
  omega

theorem idxOf?_within {c : Char} {length : Nat} (found : (text.drop i).idxOf? c = some length) :
    i + 1 + length ≤ text.length := by
  obtain ⟨inside, _⟩ := List.idxOf?_eq_some_iff.mp found
  rw [List.length_drop] at inside
  omega

/-- A string that is closed ends further on and inside the text. -/
theorem pastString_forward {stop : Nat} (inside : i < text.length)
    (passed : pastString text i inside = .ok stop) : i < stop ∧ stop ≤ text.length := by
  rw [pastString_eq] at passed
  cases closed : StringLiteral.close text[i] (text.drop (i + 1)) with
  | error followed =>
    rw [closed] at passed
    cases passed
  | ok length =>
    rw [closed] at passed
    cases passed
    exact ⟨by omega, close_within inside closed⟩

/-- An interpolation that is closed ends further on and inside the text. -/
theorem pastInterpolation_forward {stop : Nat} (passed : pastInterpolation text i = .ok stop) :
    i < stop ∧ stop ≤ text.length := by
  rw [pastInterpolation] at passed
  cases found : (text.drop i).idxOf? '\x7d' with
  | none =>
    rw [found] at passed
    cases passed
  | some length =>
    have within := idxOf?_within found
    rw [found] at passed
    cases passed
    omega

end Shelters

/-- The cuts of a text from an offset on, with the chunk from `start` on at hand. -/
def cutsAt (text : List Char) (start depth i : Nat) : Cuts :=
  cutsFrom start (slice text start i).reverse depth 0 (text.drop i)

theorem cutsAt_self (text : List Char) (start : Nat) :
    cutsAt text start 0 start = cuts start (text.drop start) := by
  simp [cutsAt, slice, cuts]

/-- A round of a scan at a character of the text: it goes on further on, breaks off, or makes a cut. The pass
that cuts the text does the same. -/
inductive Round (text : List Char) (start depth i : Nat) : Prop
  | onward (depth' next : Nat) (forward : i < next) (within : next ≤ text.length)
      (pass : cutsAt text start depth i = cutsAt text start depth' next)
      (scan : ∀ again opened? found, round again text opened? found start depth i =
        again opened? found start depth' next)
  | broken (failure : Failure) (pass : cutsAt text start depth i = ⟨[], .broken failure⟩)
      (scan : ∀ again opened? found, round again text opened? found start depth i = settled (.error failure))
  | cut (delimiter : Delimiter)
      (pass : cutsAt text start depth i =
        .cons ⟨chunkAt text start i, delimiter⟩ (cuts (i + 1) (text.drop (i + 1))))
      (scan : ∀ again opened? found, round again text opened? found start depth i =
        delimited again text opened? found start i delimiter)

section Round

variable (order : start ≤ i) (inside : i < text.length)

theorem cutsAt_of_lt :
    cutsAt text start depth i =
      cutsFrom start (slice text start i).reverse depth 0 (text[i] :: text.drop (i + 1)) := by
  rw [cutsAt, List.drop_eq_getElem_cons inside]

include order inside

theorem offset_of_reverse : start + (slice text start i).reverse.length = i := by
  rw [List.length_reverse, length_slice (Nat.le_of_lt inside), Nat.add_sub_cancel' order]

/-- A pass that goes over a character, and over some more that belong to it, comes to the cuts from there on. -/
theorem cutsFrom_onward (depth pending : Nat) (within : i + 1 + pending ≤ text.length) :
    cutsFrom start (text[i] :: (slice text start i).reverse) depth pending (text.drop (i + 1)) =
      cutsAt text start depth (i + 1 + pending) := by
  have length : i + 1 + pending - i = pending + 1 := by omega
  have later : slice text i (i + 1 + pending) = text[i] :: (text.drop (i + 1)).take pending := by
    rw [slice, length, List.drop_eq_getElem_cons inside, List.take_succ_cons]
  have further : i ≤ i + 1 + pending := by omega
  have fits : pending ≤ (text.drop (i + 1)).length := by
    rw [List.length_drop]
    omega
  rw [cutsFrom_pending fits, cutsAt, ← slice_append order further, later, List.drop_drop]
  simp

theorem round_of_mark (quoted : StringLiteral.isMark text[i]) : Round text start depth i := by
  have offset := offset_of_reverse order inside
  cases closed : StringLiteral.close text[i] (text.drop (i + 1)) with
  | ok length =>
    have within := close_within inside closed
    refine .onward depth (i + 1 + length) (by omega) within ?_ ?_
    · rw [← cutsFrom_onward order inside depth length within, cutsAt_of_lt inside]
      simp only [cutsFrom, if_pos quoted, closed]
    · intro again opened? found
      rw [round.eq_def, dif_pos inside, if_pos quoted, pastString_eq, closed]
      rfl
  | error followed =>
    refine .broken ⟨.openString, i + 1 + followed⟩ ?_ ?_
    · rw [cutsAt_of_lt inside]
      simp only [cutsFrom, if_pos quoted, closed, offset]
    · intro again opened? found
      rw [round.eq_def, dif_pos inside, if_pos quoted, pastString_eq, closed]
      rfl

theorem round_of_begun (quoted : ¬StringLiteral.isMark text[i]) (begun : ['#', '\x7b'] <+: text.drop i) :
    Round text start depth i := by
  have offset := offset_of_reverse order inside
  have reach : interpolation? (text[i] :: text.drop (i + 1)) =
      some (((text.drop i).idxOf? '\x7d').map (· + 1)) := by
    rw [← interpolation?_of_begun begun, List.drop_eq_getElem_cons inside]
  have scanned (again : Scanner) (opened? : Option Nat) (found : List (Node Nat)) :
      round again text opened? found start depth i =
        (settled (pastInterpolation text i) >>= fun next => again opened? found start depth next) := by
    rw [round.eq_def, dif_pos inside, if_neg quoted, if_pos begun]
  cases ends : (text.drop i).idxOf? '\x7d' with
  | some length =>
    have within := idxOf?_within ends
    refine .onward depth (i + 1 + length) (by omega) within ?_ ?_
    · rw [← cutsFrom_onward order inside depth length within, cutsAt_of_lt inside]
      simp only [cutsFrom, if_neg quoted, reach, ends, Option.map_some, Nat.add_sub_cancel]
    · intro again opened? found
      rw [scanned, pastInterpolation, ends, Nat.add_right_comm]
      rfl
  | none =>
    refine .broken ⟨.openInterpolation, i⟩ ?_ ?_
    · rw [cutsAt_of_lt inside]
      simp only [cutsFrom, if_neg quoted, reach, ends, Option.map_none, offset]
    · intro again opened? found
      rw [scanned, pastInterpolation, ends]
      rfl

theorem round_of_single (quoted : ¬StringLiteral.isMark text[i]) (begun : ¬['#', '\x7b'] <+: text.drop i) :
    Round text start depth i := by
  have offset := offset_of_reverse order inside
  have outside : interpolation? (text[i] :: text.drop (i + 1)) = none := by
    rw [List.drop_eq_getElem_cons inside] at begun
    exact interpolation?_of_not_begun begun
  have onward (depth' : Nat) := cutsFrom_onward order inside depth' 0 inside
  have scanned (again : Scanner) (opened? : Option Nat) (found : List (Node Nat)) :
      round again text opened? found start depth i =
        if text[i] = '(' then again opened? found start (depth + 1) (i + 1)
        else if text[i] = ')' then again opened? found start (depth - 1) (i + 1)
        else match depth, delimiter? text[i] with
          | 0, some delimiter => delimited again text opened? found start i delimiter
          | _, _ => again opened? found start depth (i + 1) := by
    rw [round.eq_def, dif_pos inside, if_neg quoted, if_neg begun]
  by_cases opens : text[i] = '('
  · refine .onward (depth + 1) (i + 1) (Nat.lt_succ_self i) inside ?_ ?_
    · rw [← onward (depth + 1), cutsAt_of_lt inside]
      simp only [cutsFrom, if_neg quoted, outside, if_pos opens]
    · intro again opened? found
      rw [scanned, if_pos opens]
  by_cases closes : text[i] = ')'
  · refine .onward (depth - 1) (i + 1) (Nat.lt_succ_self i) inside ?_ ?_
    · rw [← onward (depth - 1), cutsAt_of_lt inside]
      simp only [cutsFrom, if_neg quoted, outside, if_neg opens, if_pos closes]
    · intro again opened? found
      rw [scanned, if_neg opens, if_pos closes]
  -- What is left is one character of a chunk, unless it is a delimiter outside parentheses.
  have plain (uncut : ∀ delimiter, depth = 0 → delimiter? text[i] ≠ some delimiter) :
      Round text start depth i := by
    refine .onward depth (i + 1) (Nat.lt_succ_self i) inside ?_ ?_
    · rw [← onward depth, cutsAt_of_lt inside]
      simp only [cutsFrom, if_neg quoted, outside, if_neg opens, if_neg closes]
    · intro again opened? found
      rw [scanned, if_neg opens, if_neg closes]
      split
      · rename_i found
        exact absurd found (uncut _ rfl)
      · rfl
  cases depth with
  | succ depth => exact plain fun _ level => absurd level (Nat.succ_ne_zero depth)
  | zero =>
    cases found : delimiter? text[i] with
    | none => exact plain (by simp [found])
    | some delimiter =>
      refine .cut delimiter ?_ ?_
      · have cut := cutsFrom_of_delimiter found start (slice text start i).reverse (text.drop (i + 1))
        rw [offset, List.reverse_reverse] at cut
        rw [cutsAt_of_lt inside]
        exact cut
      · intro again opened? statements
        rw [scanned, if_neg opens, if_neg closes, found]
        rfl

/-- Each round goes forward and stays inside the text. -/
theorem round_of_lt : Round text start depth i := by
  by_cases quoted : StringLiteral.isMark text[i]
  · exact round_of_mark order inside quoted
  · by_cases begun : ['#', '\x7b'] <+: text.drop i
    · exact round_of_begun order inside quoted begun
    · exact round_of_single order inside quoted begun

end Round

end Scan
end SheetLint
