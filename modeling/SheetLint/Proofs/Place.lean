import SheetLint.Position
import Mathlib.Data.List.Induction

/-! Places counted off the text before an offset. They agree with the line index of the text, and they
lie in the order of the offsets. -/
namespace SheetLint

namespace Position

/-- The place just after some characters: one line more for every line break, one column more for every
character after the last of them. -/
def after (before : List Char) : Position :=
  ⟨before.countP (· == '\n') + 1, (before.reverse.takeWhile (!· == '\n')).length + 1⟩

/-- Reading order: by line, and by column within a line. -/
def Precedes (first second : Position) : Prop :=
  first.line < second.line ∨ first.line = second.line ∧ first.column < second.column

theorem Precedes.ne {first second : Position} (before : first.Precedes second) :
    first ≠ second := by
  intro same
  subst same
  unfold Precedes at before
  omega

theorem Precedes.trans {first second third : Position} (one : first.Precedes second)
    (two : second.Precedes third) : first.Precedes third := by
  unfold Precedes at *
  omega

theorem after_precedes_concat (before : List Char) (c : Char) :
    (after before).Precedes (after (before ++ [c])) := by
  unfold Precedes after
  by_cases breaks : c = '\n'
  · left
    have counted : (before ++ [c]).countP (· == '\n') = before.countP (· == '\n') + 1 := by
      simp [breaks]
    dsimp only
    omega
  · right
    have counted : (before ++ [c]).countP (· == '\n') = before.countP (· == '\n') := by
      simp [breaks]
    have longer : ((before ++ [c]).reverse.takeWhile (!· == '\n')).length =
        (before.reverse.takeWhile (!· == '\n')).length + 1 := by
      simp [breaks]
    dsimp only
    omega

/-- The further an offset, the later its place. -/
theorem after_take_precedes {text : List Char} {first second : Nat} (before : first < second)
    (within : second ≤ text.length) :
    (after (text.take first)).Precedes (after (text.take second)) := by
  induction second with
  | zero => omega
  | succ second ih =>
    have inside : second < text.length := within
    have step : (after (text.take second)).Precedes (after (text.take (second + 1))) := by
      rw [List.take_succ_eq_append_getElem inside]
      exact after_precedes_concat _ _
    rcases Nat.lt_or_eq_of_le (Nat.le_of_lt_succ before) with earlier | same
    · exact (ih earlier (by omega)).trans step
    · rw [same]
      exact step

/-- Offsets within a text at the same place are the same. -/
theorem eq_of_after_take_eq {text : List Char} {first second : Nat} (one : first ≤ text.length)
    (two : second ≤ text.length) (same : after (text.take first) = after (text.take second)) :
    first = second := by
  rcases Nat.lt_trichotomy first second with before | equal | behind
  · exact absurd same (after_take_precedes before two).ne
  · exact equal
  · exact absurd same.symm (after_take_precedes behind one).ne

end Position

section Breaks

variable {α : Type} (isBreak : α → Bool)

theorem startsAfterBreaks_append (offset : Nat) (before rest : List α) :
    startsAfterBreaks isBreak offset (before ++ rest) =
      startsAfterBreaks isBreak offset before ++
        startsAfterBreaks isBreak (offset + before.length) rest := by
  induction before generalizing offset with
  | nil => rfl
  | cons c before ih =>
    simp only [List.cons_append, startsAfterBreaks, ih, List.length_cons, Nat.add_assoc,
      Nat.add_comm 1]
    split <;> rfl

theorem mem_startsAfterBreaks {offset start : Nat} {text : List α}
    (member : start ∈ startsAfterBreaks isBreak offset text) :
    offset < start ∧ start ≤ offset + text.length := by
  induction text generalizing offset with
  | nil => simp [startsAfterBreaks] at member
  | cons c rest ih =>
    simp only [startsAfterBreaks] at member
    simp only [List.length_cons]
    split at member
    · rcases List.mem_cons.mp member with here | later
      · omega
      · have bounds := ih later
        omega
    · have bounds := ih member
      omega

/-- The lines started up to an offset are those of the text before it. -/
theorem takeWhile_startsAfterBreaks (before rest : List α) :
    (startsAfterBreaks isBreak 0 (before ++ rest)).takeWhile (· ≤ before.length) =
      startsAfterBreaks isBreak 0 before := by
  have none : (startsAfterBreaks isBreak (0 + before.length) rest).takeWhile
      (· ≤ before.length) = [] := by
    cases found : startsAfterBreaks isBreak (0 + before.length) rest with
    | nil => rfl
    | cons start later =>
      have member : start ∈ startsAfterBreaks isBreak (0 + before.length) rest := by
        rw [found]
        exact List.mem_cons_self
      have bounds := mem_startsAfterBreaks isBreak member
      simp only [List.takeWhile_cons, decide_eq_true_eq]
      rw [if_neg (by omega)]
  rw [startsAfterBreaks_append, List.takeWhile_append_of_pos, none, List.append_nil]
  intro start member
  have bounds := mem_startsAfterBreaks isBreak member
  simp only [decide_eq_true_eq]
  omega

theorem length_startsAfterBreaks (offset : Nat) (text : List α) :
    (startsAfterBreaks isBreak offset text).length = text.countP isBreak := by
  induction text generalizing offset with
  | nil => rfl
  | cons c rest ih =>
    simp only [startsAfterBreaks, List.countP_cons]
    split <;> simp [*]

/-- The distance from the start of the last line counts the elements after the last break. -/
theorem length_sub_last_start (text : List α) :
    (text.length : Int) - ((0 :: startsAfterBreaks isBreak 0 text).getLast?.getD 0 : Nat) =
      (text.reverse.takeWhile (!isBreak ·)).length := by
  induction text using List.reverseRecOn with
  | nil => simp [startsAfterBreaks]
  | append_singleton before c ih =>
    rw [startsAfterBreaks_append]
    by_cases breaks : isBreak c
    · have last : (0 :: (startsAfterBreaks isBreak 0 before ++ [before.length + 1])).getLast? =
          some (before.length + 1) := by
        rw [← List.cons_append, List.getLast?_concat]
      simp [startsAfterBreaks, breaks, last]
    · simp [startsAfterBreaks, breaks] at ih ⊢
      omega

/-- A line index looks up the number of breaks before an offset and the distance from the last one. -/
theorem LineIndex.locate_of_breaks (text : List α) {offset : Nat} (within : offset ≤ text.length) :
    (LineIndex.mk (0 :: startsAfterBreaks isBreak 0 text)).locate offset =
      ⟨(text.take offset).countP isBreak + 1,
        ((text.take offset).reverse.takeWhile (!isBreak ·)).length + 1⟩ := by
  have size : (text.take offset).length = offset := by simp [within]
  have reached : (0 :: startsAfterBreaks isBreak 0 text).takeWhile (· ≤ offset) =
      0 :: startsAfterBreaks isBreak 0 (text.take offset) := by
    have found := takeWhile_startsAfterBreaks isBreak (text.take offset) (text.drop offset)
    rw [List.take_append_drop, size] at found
    simp [found]
  have distance := length_sub_last_start isBreak (text.take offset)
  rw [size] at distance
  simp only [LineIndex.locate, reached, List.length_cons, length_startsAfterBreaks, distance]
  rfl

end Breaks

/-- The index of a text gives each offset within it the place counted off the text before it. -/
theorem LineIndex.locate_ofText (text : List Char) {offset : Nat} (within : offset ≤ text.length) :
    (LineIndex.ofText text).locate offset = Position.after (text.take offset) :=
  LineIndex.locate_of_breaks (· == '\n') text within

theorem LineIndex.locate_zero (text : List Char) : (LineIndex.ofText text).locate 0 = ⟨1, 1⟩ :=
  locate_ofText text (Nat.zero_le _)

/-- More text does not change the places in what stands before it. -/
theorem LineIndex.locate_ofText_append (text more : List Char) {offset : Nat}
    (within : offset ≤ text.length) :
    (LineIndex.ofText (text ++ more)).locate offset = (LineIndex.ofText text).locate offset := by
  have longer : offset ≤ (text ++ more).length := by
    rw [List.length_append]
    omega
  rw [locate_ofText _ longer, locate_ofText _ within, List.take_append_of_le_length within]

end SheetLint
