import SheetLint.Proofs.Place

/-! The lines of a text: the place of an offset is a column of the line around the offset, one past the end
of the line at most. The starts of the lines ascend, so that a search among them finds that line, and no two
offsets have one place. -/
namespace SheetLint

/-- A place that a text has: on one of its lines, at one of the characters there or just past them. -/
def Position.LiesIn (text : List Char) (place : Position) : Prop :=
  ∃ before line after, text.splitOn '\n' = before ++ line :: after ∧
    place.line = before.length + 1 ∧ 1 ≤ place.column ∧ place.column ≤ line.length + 1

section Split

variable {α : Type} (isBreak : α → Bool)

theorem getElem?_zero_splitOnPPrepend (text taken : List α) :
    (text.splitOnPPrepend isBreak taken)[0]? = some (taken.reverse ++ text.takeWhile (!isBreak ·)) := by
  induction text generalizing taken with
  | nil => simp
  | cons c rest ih =>
    by_cases breaks : isBreak c
    · rw [List.splitOnPPrepend_cons_pos breaks]
      simp [breaks]
    · rw [List.splitOnPPrepend_cons_neg (by simpa using breaks), ih]
      simp [breaks]

/-- The part of a split at which some elements end: what they hold past their last break, and what follows up
to the next one. `taken` are those gone before, the latest first. -/
theorem getElem?_splitOnPPrepend (before rest : List α) {taken : List α}
    (unbroken : ∀ c ∈ taken, isBreak c = false) :
    ((before ++ rest).splitOnPPrepend isBreak taken)[before.countP isBreak]? =
      some (((before.reverse ++ taken).takeWhile (!isBreak ·)).reverse ++ rest.takeWhile (!isBreak ·)) := by
  induction before generalizing taken with
  | nil =>
    have all : taken.takeWhile (!isBreak ·) = taken := by
      have whole : (taken ++ []).takeWhile (!isBreak ·) = taken ++ [].takeWhile (!isBreak ·) :=
        List.takeWhile_append_of_pos (by simpa using unbroken)
      simpa using whole
    rw [List.nil_append, List.countP_nil, getElem?_zero_splitOnPPrepend, List.reverse_nil, List.nil_append,
      all]
  | cons c before ih =>
    rw [List.cons_append, List.reverse_cons, List.append_assoc, List.singleton_append]
    by_cases breaks : isBreak c
    · have apart : (before.reverse ++ c :: taken).takeWhile (!isBreak ·) =
          (before.reverse ++ []).takeWhile (!isBreak ·) := by
        rw [List.takeWhile_append, List.takeWhile_append]
        simp [breaks]
      rw [List.splitOnPPrepend_cons_pos breaks, List.countP_cons_of_pos breaks, List.getElem?_cons_succ,
        ← List.splitOnPPrepend_nil_right, ih (List.forall_mem_nil _), apart]
    · rw [List.splitOnPPrepend_cons_neg (by simpa using breaks), List.countP_cons_of_neg breaks]
      exact ih (List.forall_mem_cons.mpr ⟨by simpa using breaks, unbroken⟩)

end Split

/-- The line around an offset: the characters that its column counts, and those up to the next break. -/
theorem line_at_offset (text : List Char) (offset : Nat) :
    (text.splitOn '\n')[(text.take offset).countP (· == '\n')]? =
      some (((text.take offset).reverse.takeWhile (!· == '\n')).reverse ++
        (text.drop offset).takeWhile (!· == '\n')) := by
  have found := getElem?_splitOnPPrepend (· == '\n') (text.take offset) (text.drop offset)
    (List.forall_mem_nil _)
  rwa [List.take_append_drop, List.append_nil, List.splitOnPPrepend_nil_right] at found

theorem liesIn_after (text : List Char) (offset : Nat) :
    (Position.after (text.take offset)).LiesIn text := by
  have found := line_at_offset text offset
  obtain ⟨inside, here⟩ := List.getElem?_eq_some_iff.mp found
  refine ⟨(text.splitOn '\n').take ((text.take offset).countP (· == '\n')),
    (text.splitOn '\n')[(text.take offset).countP (· == '\n')],
    (text.splitOn '\n').drop ((text.take offset).countP (· == '\n') + 1), ?_, ?_, ?_, ?_⟩
  · rw [← List.drop_eq_getElem_cons inside, List.take_append_drop]
  · rw [List.length_take, Nat.min_eq_left (Nat.le_of_lt inside)]
    rfl
  · rw [Position.after]
    dsimp only
    omega
  · rw [here, Position.after]
    simp only [List.length_append, List.length_reverse]
    omega

/-- Past the end of its last line a text has no place. -/
theorem not_liesIn_past (text : List Char) :
    ¬Position.LiesIn text ⟨(Position.after text).line, (Position.after text).column + 1⟩ := by
  rintro ⟨before, line, later, split, number, _, bound⟩
  have found := line_at_offset text text.length
  have same : (text.splitOn '\n')[before.length]? = some line := by simp [split]
  have count : before.length = text.countP (· == '\n') := by
    simp only [Position.after] at number
    omega
  rw [List.take_length, List.drop_length, ← count, same, Option.some.injEq] at found
  simp only [found, Position.after, List.takeWhile_nil, List.append_nil, List.length_reverse] at bound
  omega

section Search

/-- The offsets just after the breaks of a text ascend. -/
theorem pairwise_startsAfterBreaks {α : Type} (isBreak : α → Bool) (offset : Nat) (text : List α) :
    (startsAfterBreaks isBreak offset text).Pairwise (· < ·) := by
  induction text generalizing offset with
  | nil => exact .nil
  | cons c rest ih =>
    rw [startsAfterBreaks]
    split
    · refine List.pairwise_cons.mpr ⟨?_, ih (offset + 1)⟩
      intro start member
      exact (mem_startsAfterBreaks isBreak member).1
    · exact ih (offset + 1)

/-- Of ascending offsets those up to a bound come first. -/
theorem le_iff_lt_takeWhile {starts : List Nat} (ascending : starts.Pairwise (· < ·)) (bound : Nat)
    {index start : Nat} (here : starts[index]? = some start) :
    start ≤ bound ↔ index < (starts.takeWhile (· ≤ bound)).length := by
  induction starts generalizing index with
  | nil => simp at here
  | cons first rest ih =>
    obtain ⟨above, ascending⟩ := List.pairwise_cons.mp ascending
    by_cases reached : first ≤ bound
    · rw [List.takeWhile_cons_of_pos (by simpa using reached), List.length_cons]
      cases index with
      | zero =>
        obtain rfl : first = start := by simpa using here
        simp [reached]
      | succ index => simpa using ih ascending here
    · rw [List.takeWhile_cons_of_neg (by simpa using reached)]
      have behind : first ≤ start := by
        rcases List.mem_cons.mp (List.mem_of_getElem? here) with rfl | later
        · exact Nat.le_refl _
        · exact Nat.le_of_lt (above start later)
      simp only [List.length_nil, Nat.not_lt_zero, iff_false]
      omega

/-- A number of lines divides an index at an offset: just the lines before it start up to the offset. -/
def LineIndex.Divides (index : LineIndex) (offset count : Nat) : Prop :=
  count ≤ index.starts.length ∧
    ∀ line start, index.starts[line]? = some start → (start ≤ offset ↔ line < count)

/-- However an index is searched for where its starts pass an offset, it is the line of the offset that is
found. -/
theorem LineIndex.divides_ofText_iff (text : List Char) (offset count : Nat) :
    (ofText text).Divides offset count ↔ ((ofText text).locate offset).line = count := by
  have ascending : (ofText text).starts.Pairwise (· < ·) := by
    refine List.pairwise_cons.mpr ⟨?_, pairwise_startsAfterBreaks _ 0 text⟩
    intro start member
    exact (mem_startsAfterBreaks _ member).1
  have divided (line start : Nat) (here : (ofText text).starts[line]? = some start) :=
    le_iff_lt_takeWhile ascending offset here
  have bound : ((ofText text).starts.takeWhile (· ≤ offset)).length ≤ (ofText text).starts.length :=
    (List.takeWhile_prefix _).length_le
  change _ ↔ (((ofText text).starts.takeWhile (· ≤ offset)).length : Int) = count
  rw [Int.natCast_inj]
  constructor
  · rintro ⟨within, splits⟩
    rcases Nat.lt_trichotomy ((ofText text).starts.takeWhile (· ≤ offset)).length count with
      fewer | same | more
    · have here := List.getElem?_eq_getElem (Nat.lt_of_lt_of_le fewer within)
      exact absurd ((divided _ _ here).mp ((splits _ _ here).mpr fewer)) (Nat.lt_irrefl _)
    · exact same
    · have here := List.getElem?_eq_getElem (Nat.lt_of_lt_of_le more bound)
      exact absurd ((splits _ _ here).mp ((divided _ _ here).mpr more)) (Nat.lt_irrefl _)
  · rintro rfl
    exact ⟨bound, divided⟩

end Search

/-- The offsets of a text, its end included, and their places correspond one to one, and in order. The line of
an offset is one more than the number of breaks before it, which is where the starts of the lines pass it, and
its column one more than the number of characters after the last of these breaks. -/
theorem offset_has_one_place (text : List Char) :
    (∀ offset ≤ text.length,
      (LineIndex.ofText text).locate offset = Position.after (text.take offset) ∧
        ∀ count : Nat, (LineIndex.ofText text).Divides offset count ↔
          ((LineIndex.ofText text).locate offset).line = count) ∧
    ∀ first ≤ text.length, ∀ second ≤ text.length,
      (first < second ↔
        ((LineIndex.ofText text).locate first).Precedes ((LineIndex.ofText text).locate second)) ∧
      ((LineIndex.ofText text).locate first = (LineIndex.ofText text).locate second → first = second) := by
  constructor
  · intro offset within
    exact ⟨LineIndex.locate_ofText text within, LineIndex.divides_ofText_iff text offset⟩
  · intro first one second two
    rw [LineIndex.locate_ofText text one, LineIndex.locate_ofText text two]
    refine ⟨⟨fun before => Position.after_take_precedes before two, ?_⟩, Position.eq_of_after_take_eq one two⟩
    intro order
    by_contra behind
    rcases Nat.lt_or_eq_of_le (Nat.le_of_not_lt behind) with after | rfl
    · exact (order.trans (Position.after_take_precedes after one)).ne rfl
    · exact order.ne rfl

/-- At a break, between two breaks, and at the end of a text. -/
theorem offset_has_one_place_of_breaks :
    (LineIndex.ofText "a\n\nb".toList).locate 1 = ⟨1, 2⟩ ∧
      (LineIndex.ofText "a\n\nb".toList).Divides 2 2 ∧
      ((LineIndex.ofText "a\n\nb".toList).locate 2).Precedes
        ((LineIndex.ofText "a\n\nb".toList).locate 4) := by
  obtain ⟨places, order⟩ := offset_has_one_place "a\n\nb".toList
  exact ⟨(places 1 (by decide)).1, ((places 2 (by decide)).2 2).mpr rfl,
    (order 2 (by decide) 4 (by decide)).1.mp (by decide)⟩

end SheetLint
