import SheetLint.Proofs.Blanking
import SheetLint.Proofs.Lines
import SheetLint.Proofs.Moving
import SheetLint.Proofs.SheetLayout

/-! Where a fault is reported: at an offset of the text. A string left open by a backslash at the end of the
text is the exception, for the backslash covers a character beyond the end. -/
namespace SheetLint

section Readers

variable {κ : Type}

/-- An end too early is reported at the last token. -/
theorem Mismatch.offset_ending_le {bound : Nat} {last : Option (Token κ)} {expected : List κ}
    (read : ∀ token ∈ last, token.offset ≤ bound) : (Mismatch.ending last expected).offset ≤ bound := by
  cases last with
  | none => exact Nat.zero_le bound
  | some token => exact read token rfl

variable [Vocabulary κ]

/-- A character that starts no token is one of the text. -/
theorem Divided.stuck_lt {offset : Nat} {text : List Char} {tokens : List (Token κ)}
    {stuck : Option (Char × Nat)} (divided : Divided offset text tokens stuck) :
    ∀ found ∈ stuck, found.2 < offset + text.length := by
  induction divided with
  | finished => simp
  | stuck =>
    rintro _ ⟨⟩
    simp
  | separator _ _ ih =>
    intro found member
    have bound := ih found member
    rw [List.length_cons]
    omega
  | token _ _ _ ih =>
    intro found member
    have bound := ih found member
    rw [List.length_append]
    omega

theorem stuck_le_length (proper : ∀ kind : κ, (Vocabulary.extent kind).Proper) (text : List Char) :
    ∀ found ∈ (lex (κ := κ) text).stuck, found.2 ≤ text.length := by
  intro found member
  have bound := (divided_lexFrom proper text 0).stuck_lt found member
  omega

theorem token_le_length (proper : ∀ kind : κ, (Vocabulary.extent kind).Proper) (text : List Char) :
    ∀ token ∈ (lex (κ := κ) text).tokens, token.offset ≤ text.length := by
  intro token member
  have stands := standsIn_of_mem_lex proper member
  exact Nat.le_trans (Nat.le_of_lt stands.offset_lt_stop) stands.stop_le

end Readers

/-- Values and selectors are at fault where a token is, or a character that starts none. -/
theorem Value.offset_le_of_assemble {bound : Nat} {stuck : Option (Char × Nat)}
    {last : Option (Token Terminal)} {openings : List Opening} {parts : List (Node Nat)}
    {tokens : List (Token Terminal)} {mismatch : Mismatch Terminal}
    (halted : ∀ found ∈ stuck, found.2 ≤ bound) (read : ∀ token ∈ last, token.offset ≤ bound)
    (left : ∀ token ∈ tokens, token.offset ≤ bound)
    (failed : assemble stuck last openings parts tokens = .error mismatch) : mismatch.offset ≤ bound := by
  induction tokens generalizing last openings parts with
  | nil =>
    cases stuck with
    | some found =>
      cases failed
      exact halted found rfl
    | none =>
      cases openings with
      | nil => cases failed
      | cons =>
        cases failed
        exact Mismatch.offset_ending_le read
  | cons token rest ih =>
    obtain ⟨here, later⟩ := List.forall_mem_cons.mp left
    have now : ∀ other ∈ some token, other.offset ≤ bound := by
      rintro _ ⟨⟩
      exact here
    unfold assemble at failed
    split at failed
    · exact ih now later failed
    · exact ih now later failed
    · exact ih now later failed
    · cases openings with
      | nil =>
        cases failed
        exact here
      | cons => exact ih now later failed

theorem Selector.offset_le_of_assemble {bound : Nat} {text : List Char} {stuck : Option (Char × Nat)}
    {last : Option (Token Terminal)} {group : Option Group} {tokens : List (Token Terminal)}
    {mismatch : Mismatch Terminal} (halted : ∀ found ∈ stuck, found.2 ≤ bound)
    (read : ∀ token ∈ last, token.offset ≤ bound) (left : ∀ token ∈ tokens, token.offset ≤ bound)
    (failed : assemble text stuck last group tokens = .error mismatch) : mismatch.offset ≤ bound := by
  induction tokens generalizing last group with
  | nil =>
    cases stuck with
    | some found =>
      cases failed
      exact halted found rfl
    | none =>
      cases group with
      | none =>
        cases failed
        exact Mismatch.offset_ending_le read
      | some => cases failed
  | cons token rest ih =>
    obtain ⟨here, later⟩ := List.forall_mem_cons.mp left
    have now : ∀ other ∈ some token, other.offset ≤ bound := by
      rintro _ ⟨⟩
      exact here
    unfold assemble at failed
    split at failed
    · exact ih now later failed
    · cases failed
      exact here
    · rcases Outcome.bind_eq_error.mp failed with further | ⟨_, _, none⟩
      · exact ih now later further
      · cases none

variable {text : List Char}

theorem offset_le_of_readValue {piece : List Char} {offset : Nat} {failure : Failure}
    (failed : readValue piece offset = .error failure) : failure.offset ≤ offset + piece.length := by
  unfold readValue at failed
  split at failed
  · cases failed
  · rename_i mismatch found
    cases failed
    exact Nat.add_le_add_left (Value.offset_le_of_assemble (stuck_le_length Value.proper_extent piece)
      (by simp) (token_le_length Value.proper_extent piece) (Value.read_eq_error.mp found)) offset

theorem offset_le_of_readSelectors {piece : List Char} {offset : Nat} {failure : Failure}
    (failed : readSelectors piece offset = .error failure) : failure.offset ≤ offset + piece.length := by
  unfold readSelectors at failed
  split at failed
  · cases failed
  · rename_i mismatch found
    cases failed
    exact Nat.add_le_add_left (Selector.offset_le_of_assemble (stuck_le_length Selector.proper_extent piece)
      (by simp) (token_le_length Selector.proper_extent piece) found) offset

namespace Chunk

variable {chunk : Chunk} {failure : Failure}

theorem offset_le_stop (chunk : Chunk) : chunk.offset ≤ chunk.stop := Nat.le_add_right _ _

theorem offset_le_of_declaration (failed : chunk.declaration = .error failure) :
    failure.offset ≤ chunk.stop := by
  dsimp only [declaration] at failed
  split at failed
  · cases failed
    exact chunk.offset_le_stop
  · rename_i proper
    have shorter : (chunk.text.takeWhile (· != ':')).length ≤ chunk.text.length :=
      (List.takeWhile_prefix _).length_le
    simp only [Bool.or_eq_true, beq_iff_eq, not_or] at proper
    rcases Outcome.bind_eq_error.mp failed with refused | ⟨_, _, none⟩
    · have bound := offset_le_of_readValue refused
      rw [List.length_drop] at bound
      unfold stop
      omega
    · cases none

/-- A statement without a block is at fault within its chunk, or at the end of that. -/
theorem offset_le_of_plain (failed : chunk.plain = .error failure) : failure.offset ≤ chunk.stop := by
  unfold plain at failed
  split at failed
  · cases failed
  · split at failed
    · cases failed
    · cases failed
      exact chunk.offset_le_stop
  · cases declared : chunk.declaration with
    | ok node =>
      rw [declared] at failed
      cases failed
    | error other =>
      rw [declared] at failed
      cases failed
      exact offset_le_of_declaration declared

/-- A statement with a block is at fault before the block, or at its brace. -/
theorem offset_le_of_withBlock {brace : Nat} {block : Node Nat} (before : chunk.stop ≤ brace)
    (failed : (chunk.withBlock brace block).result = .error failure) : failure.offset ≤ brace := by
  have start := chunk.offset_le_stop
  unfold withBlock at failed
  split at failed
  · cases failed
    exact Nat.le_refl _
  · split at failed
    · cases failed
    · cases failed
      exact Nat.le_trans start before
  · split at failed
    · cases failed
    · rw [Traced.result_bind] at failed
      rcases Outcome.bind_eq_error.mp failed with refused | ⟨_, _, none⟩
      · exact Nat.le_trans (offset_le_of_readSelectors refused) before
      · cases none

end Chunk

/-- A failure is told at an offset of a text, or one past its end for a string that a last backslash leaves
open. -/
inductive Failure.Told (text : List Char) : Failure → Prop
  | within {failure : Failure} (bound : failure.offset ≤ text.length) : Told text failure
  | beyond (covers : text.getLast? = some '\\') : Told text ⟨.openString, text.length + 1⟩

/-- A string is followed up to the end of the text at most, unless a backslash is the last there is. -/
theorem StringLiteral.followed_of_close {mark : Char} {followed : Nat}
    (failed : close mark text = .error followed) :
    followed ≤ text.length ∨ followed = text.length + 1 ∧ text.getLast? = some '\\' := by
  fun_induction close mark text generalizing followed with
  | case1 =>
    cases failed
    exact .inl (Nat.le_refl _)
  | case2 =>
    cases failed
    exact .inr ⟨rfl, rfl⟩
  | case3 | case5 | case7 => cases failed
  | case4 c rest further closes ih =>
    cases failed
    rcases ih closes with inside | ⟨rfl, last⟩
    · exact .inl (by simpa using inside)
    · exact .inr ⟨rfl, by simp [List.getLast?_cons, last]⟩
  | case6 =>
    cases failed
    exact .inl (Nat.zero_le _)
  | case8 c rest _ _ _ _ further closes ih =>
    cases failed
    rcases ih closes with inside | ⟨rfl, last⟩
    · exact .inl (by simpa using inside)
    · exact .inr ⟨rfl, by simp [List.getLast?_cons, last]⟩

theorem length_of_placed {taken rest : List Char} {start : Nat} {c : Char}
    (placed : text.drop start = taken.reverse ++ c :: rest) :
    text.length = start + taken.length + 1 + rest.length := by
  have size := congrArg List.length placed
  simp only [List.length_drop, List.length_append, List.length_reverse, List.length_cons] at size
  omega

/-- A pass that breaks off tells where. -/
theorem told_of_cutsFrom {taken rest : List Char} {start depth pending : Nat} {failure : Failure}
    (placed : text.drop start = taken.reverse ++ rest)
    (broken : (cutsFrom start taken depth pending rest).ending = .broken failure) : failure.Told text := by
  fun_induction cutsFrom start taken depth pending rest with
  | case1 => cases broken
  | case2 start taken depth c rest pending ih
  | case3 start taken depth c rest _ length _ ih
  | case5 start taken depth c rest _ length _ ih
  | case7 start taken depth rest _ _ ih
  | case8 start taken depth rest _ _ _ ih
  | case10 start taken depth c rest _ _ _ _ _ ih => exact ih (by simpa using placed) broken
  | case4 start taken depth c rest quote followed failed =>
    cases broken
    have size := length_of_placed placed
    rcases StringLiteral.followed_of_close failed with inside | ⟨rfl, last⟩
    · exact .within (by dsimp only; omega)
    · have whole : text = text.take start ++ (taken.reverse ++ [c]) ++ rest := by
        rw [List.append_assoc, List.append_assoc, List.singleton_append, ← placed, List.take_append_drop]
      have beyond : start + taken.length + 1 + (rest.length + 1) = text.length + 1 := by omega
      rw [beyond]
      exact .beyond (by rw [whole, List.getLast?_append, last, Option.some_or])
  | case6 start taken depth c rest =>
    cases broken
    have size := length_of_placed placed
    exact .within (by dsimp only; omega)
  | case9 start taken c rest _ _ _ _ _ _ _ ih =>
    have size := length_of_placed placed
    refine ih ?_ broken
    rw [Nat.add_assoc, ← List.drop_drop, placed, List.append_cons, List.drop_left' (by simp),
      List.reverse_nil, List.nil_append]

namespace Outline

/-- Wherever a level breaks off, or one within it, the failure is of a kind. -/
def BreaksAs (kind : Failure → Prop) : Outline → Prop
  | complete _ | closed _ => True
  | broken failure => kind failure
  | statement _ next => next.BreaksAs kind
  | nested _ body next => body.BreaksAs kind ∧ next.BreaksAs kind
  | unclosed _ body => body.BreaksAs kind

/-- All levels made of cuts break off as the cuts do. -/
theorem breaksAs_levels {kind : Failure → Prop} {ending : Ending} (cuts : List Cut)
    (breaks : ∀ failure, ending = .broken failure → kind failure) :
    ∀ level ∈ (levels ending cuts).1 :: (levels ending cuts).2, level.BreaksAs kind := by
  induction cuts with
  | nil =>
    cases ending with
    | complete chunk => simp [levels, BreaksAs]
    | broken failure => simpa [levels, BreaksAs] using breaks failure rfl
  | cons cut rest ih =>
    obtain ⟨chunk, delimiter⟩ := cut
    cases found : levels ending rest with
    | mk level outer =>
    rw [found] at ih
    obtain ⟨here, others⟩ := List.forall_mem_cons.mp ih
    cases delimiter with
    | semicolon =>
      simp only [levels, found]
      exact List.forall_mem_cons.mpr ⟨here, others⟩
    | closing =>
      simp only [levels, found]
      exact List.forall_mem_cons.mpr ⟨trivial, ih⟩
    | opening =>
      simp only [levels, found]
      cases outer with
      | nil => exact List.forall_mem_singleton.mpr here
      | cons next outer =>
        obtain ⟨first, further⟩ := List.forall_mem_cons.mp others
        exact List.forall_mem_cons.mpr ⟨⟨here, first⟩, further⟩

theorem told_of_plain {chunk : Chunk} {failure : Failure} (bound : chunk.stop ≤ text.length)
    (failed : chunk.trim.plain = .error failure) : failure.Told text :=
  .within (Nat.le_trans (Chunk.offset_le_of_plain failed) (Nat.le_trans chunk.trim_stop_le bound))

/-- A level that cannot be read tells where. -/
theorem told_of_read {outline : Outline} {start : Nat} {brace? : Option Nat} {failure : Failure}
    (failed : (outline.read brace?).result = .error failure) (tiles : outline.Tiles text start)
    (bound : start ≤ text.length) (opened : ∀ brace ∈ brace?, brace ≤ text.length)
    (breaks : outline.BreaksAs (Failure.Told text)) : failure.Told text := by
  induction outline generalizing start brace? failure with
  | complete chunk =>
    obtain ⟨whole⟩ := tiles
    cases brace? with
    | some brace =>
      cases failed
      exact .within (opened brace rfl)
    | none =>
      rw [read, Traced.result_bind] at failed
      rcases Outcome.bind_eq_error.mp failed with refused | ⟨_, _, none⟩
      · refine told_of_plain ?_ refused
        rw [Chunk.stop, ← whole, List.length_drop]
        omega
      · cases none
  | broken =>
    cases failed
    exact breaks
  | closed chunk =>
    obtain _ | _ | ⟨ends⟩ := tiles
    have inside := Nat.le_of_lt ends.stop_lt
    cases brace? with
    | none =>
      cases failed
      exact .within inside
    | some brace =>
      rw [read, Traced.result_bind] at failed
      rcases Outcome.bind_eq_error.mp failed with refused | ⟨_, _, none⟩
      · exact told_of_plain inside refused
      · cases none
  | statement chunk next ih =>
    obtain _ | _ | _ | ⟨ends, rest⟩ := tiles
    rw [read, Traced.result_bind] at failed
    rcases Outcome.bind_eq_error.mp failed with refused | ⟨_, _, failed⟩
    · exact told_of_plain (Nat.le_of_lt ends.stop_lt) refused
    · rw [Traced.result_bind] at failed
      rcases Outcome.bind_eq_error.mp failed with refused | ⟨_, _, none⟩
      · exact ih refused rest ends.stop_lt opened breaks
      · cases none
  | nested head body next ih ihNext =>
    obtain _ | _ | _ | _ | ⟨ends, inner, rest⟩ := tiles
    have inside := Nat.le_of_lt ends.stop_lt
    have shut : ∀ brace ∈ some head.stop, brace ≤ text.length := by
      rintro _ ⟨⟩
      exact inside
    rw [read, Traced.result_bind] at failed
    rcases Outcome.bind_eq_error.mp failed with refused | ⟨children, accepted, failed⟩
    · exact ih refused inner ends.stop_lt shut breaks.1
    · rw [Traced.result_bind] at failed
      rcases Outcome.bind_eq_error.mp failed with refused | ⟨_, _, failed⟩
      · have before := Chunk.offset_le_of_withBlock head.trim_stop_le refused
        exact .within (Nat.le_trans before inside)
      · rw [Traced.result_bind] at failed
        rcases Outcome.bind_eq_error.mp failed with refused | ⟨_, _, none⟩
        · have filled := filled_of_reads (reads_of_read accepted) inner ends.stop_lt
          exact ihNext refused rest filled.within opened breaks.2
        · cases none
  | unclosed head body ih =>
    obtain _ | _ | _ | _ | _ | ⟨ends, inner⟩ := tiles
    have inside := Nat.le_of_lt ends.stop_lt
    have shut : ∀ brace ∈ some head.stop, brace ≤ text.length := by
      rintro _ ⟨⟩
      exact inside
    rw [read, Traced.result_bind] at failed
    rcases Outcome.bind_eq_error.mp failed with refused | ⟨_, _, none⟩
    · exact ih refused inner ends.stop_lt shut breaks
    · cases none
      exact .within inside

end Outline

theorem told_of_readSheet {failure : Failure} (failed : (readSheet text).result = .error failure) :
    failure.Told text := by
  have breaks : ∀ other, (cuts 0 text).ending = .broken other → other.Told text :=
    fun _ broken => told_of_cutsFrom (by simp) broken
  rw [readSheet, Traced.result_bind] at failed
  rcases Outcome.bind_eq_error.mp failed with refused | ⟨_, _, none⟩
  · exact Outline.told_of_read refused (Outline.tiles_ofText text) (Nat.zero_le _) (by simp)
      (Outline.breaksAs_levels _ breaks _ List.mem_cons_self)
  · cases none

section Faded

variable {before after : List Char}

/-- Blanking keeps the place of every offset. -/
theorem Comment.after_of_faded (faded : List.Forall₂ Faded before after) :
    Position.after after = Position.after before := by
  have count : after.countP (· == '\n') = before.countP (· == '\n') := by
    induction faded with
    | nil => rfl
    | cons here _ ih => rw [List.countP_cons, List.countP_cons, ih, here.beq_break]
  have column {before after : List Char} (faded : List.Forall₂ Faded before after) :
      (after.takeWhile (!· == '\n')).length = (before.takeWhile (!· == '\n')).length := by
    induction faded with
    | nil => rfl
    | cons here _ ih =>
      rw [List.takeWhile_cons, List.takeWhile_cons, here.beq_break]
      split <;> simp [ih]
  rw [Position.after, Position.after, count, column (List.rel_reverse faded)]

/-- Only a backslash is left as a backslash. -/
theorem Comment.getLast?_of_faded (faded : List.Forall₂ Faded before after)
    (last : after.getLast? = some '\\') : before.getLast? = some '\\' := by
  have reversed := List.rel_reverse faded
  rw [← List.head?_reverse] at last ⊢
  generalize before.reverse = front at reversed ⊢
  generalize after.reverse = shown at reversed last
  cases reversed with
  | nil => cases last
  | cons here _ =>
    obtain rfl := Option.some.inj last
    rcases here.1 with same | space
    · rw [List.head?_cons, same]
    · cases space

end Faded

/-- One past its end, a text has the place that one more character would have. -/
theorem LineIndex.locate_past (text : List Char) :
    (LineIndex.ofText text).locate (text.length + 1) =
      ⟨(Position.after text).line, (Position.after text).column + 1⟩ := by
  have same : LineIndex.ofText (text ++ [' ']) = LineIndex.ofText text := by
    simp [LineIndex.ofText, startsAfterBreaks_append, startsAfterBreaks]
  have size : (text ++ [' ']).length = text.length + 1 := List.length_append
  rw [← same, LineIndex.locate_ofText _ (Nat.le_of_eq size.symm), ← size, List.take_length]
  simp [Position.after]

/-- A text that cannot be parsed is at fault at one of its offsets, so that the place lies in the text; or
else a backslash ends the text within a string, and the place is one past its end. -/
theorem place_of_parse_error {source : String} {error : ParseError} (failed : parse source = .error error) :
    ∃ place, error = .at error.fault place ∧
      ((∃ offset ≤ (dropMark source.toList).length,
          place = Position.after ((dropMark source.toList).take offset)) ∧
        place.LiesIn (dropMark source.toList) ∨
      error.fault = .openString ∧ (dropMark source.toList).getLast? = some '\\' ∧
        place = ⟨(Position.after (dropMark source.toList)).line,
          (Position.after (dropMark source.toList)).column + 1⟩ ∧
        ¬place.LiesIn (dropMark source.toList)) := by
  have faded : List.Forall₂ Comment.Faded (dropMark source.toList) (sheetText source) :=
    (Comment.pass_blank _).faded
  have size := faded.length_eq
  obtain ⟨failure, read, rfl⟩ : ∃ failure, (readSheet (sheetText source)).result = .error failure ∧
      error = failure.locate (LineIndex.ofText (sheetText source)) := by
    rw [parse_eq_scan] at failed
    cases read : (readSheet (sheetText source)).result with
    | ok placed =>
      rw [scan_of_read read] at failed
      cases failed
    | error failure =>
      rw [scan_of_failure read] at failed
      cases failed
      exact ⟨failure, rfl, rfl⟩
  refine ⟨_, rfl, ?_⟩
  cases told_of_readSheet read with
  | within bound =>
    left
    have place : (LineIndex.ofText (sheetText source)).locate failure.offset =
        Position.after ((dropMark source.toList).take failure.offset) := by
      rw [LineIndex.locate_ofText _ bound]
      exact Comment.after_of_faded (List.forall₂_take _ faded)
    rw [place]
    exact ⟨⟨failure.offset, by omega, rfl⟩, liesIn_after _ _⟩
  | beyond covers =>
    right
    have place : (LineIndex.ofText (sheetText source)).locate ((sheetText source).length + 1) =
        ⟨(Position.after (dropMark source.toList)).line,
          (Position.after (dropMark source.toList)).column + 1⟩ := by
      rw [LineIndex.locate_past, Comment.after_of_faded faded]
    rw [place]
    exact ⟨rfl, Comment.getLast?_of_faded faded covers, rfl, not_liesIn_past _⟩

/-- A block left open on the second line, behind a comment. -/
theorem place_of_parse_error_of_open_block :
    parse "/*'*/a\nb\x7b" = .error (.at .openBlock ⟨2, 2⟩) ∧
      Position.LiesIn "/*'*/a\nb\x7b".toList ⟨2, 2⟩ := by
  have failed : parse "/*'*/a\nb\x7b" = .error (.at .openBlock ⟨2, 2⟩) := by rfl
  obtain ⟨⟨line, column⟩, same, ⟨_, inside⟩ | ⟨fault, _⟩⟩ := place_of_parse_error failed
  · cases same
    exact ⟨failed, inside⟩
  · cases fault

/-- A quotation mark and a backslash are on one line of two characters, and the fault is told in its fourth
column. -/
theorem backslash_at_end_has_no_place :
    parse "\"\\" = .error (.at .openString ⟨1, 4⟩) ∧
      (∀ offset ≤ "\"\\".toList.length, Position.after ("\"\\".toList.take offset) ≠ ⟨1, 4⟩) ∧
      ¬Position.LiesIn "\"\\".toList ⟨1, 4⟩ := by
  refine ⟨by rfl, by decide, not_liesIn_past "\"\\".toList⟩

end SheetLint
