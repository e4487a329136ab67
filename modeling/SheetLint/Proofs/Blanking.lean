import Mathlib.Data.List.Forall2
import SheetLint.Proofs.CommentPass
import SheetLint.Sheet.Parsing

/-! Blanking keeps the layout of a text, and a text without its comments has none left: no string, address
or comment starts where a comment next to it went away. -/
namespace SheetLint

open Extent

namespace Comment

/-- What may stand in place of a character: itself or a space, and a line break just for a line break. -/
def Faded (before after : Char) : Prop :=
  (after = before ∨ after = ' ') ∧ (after = '\n' ↔ before = '\n')

variable {admits : List Char → Bool} {piece written rest later text result : List Char}

section Layout

theorem Faded.refl (c : Char) : Faded c c := ⟨.inl rfl, Iff.rfl⟩

theorem Faded.beq_break {before after : Char} (faded : Faded before after) :
    (after == '\n') = (before == '\n') := by
  rw [Bool.eq_iff_iff, beq_iff_eq, beq_iff_eq]
  exact faded.2

theorem blanked_eq (c : Char) : blanked c = '\n' ∨ blanked c = ' ' := by
  unfold blanked
  split
  next same => exact .inl same
  next => exact .inr rfl

theorem faded_blanked (c : Char) : Faded c (blanked c) := by
  unfold blanked
  split
  next same => exact Faded.refl c
  next apart => exact ⟨.inr rfl, by simp [apart]⟩

theorem faded_self (text : List Char) : List.Forall₂ Faded text text :=
  List.forall₂_same.mpr fun c _ => Faded.refl c

theorem faded_map_blanked (text : List Char) : List.Forall₂ Faded text (text.map blanked) := by
  rw [List.forall₂_map_right_iff]
  exact List.forall₂_same.mpr fun c _ => faded_blanked c

theorem Step.faded (step : Step admits piece written rest) : List.Forall₂ Faded piece written := by
  cases step with
  | literal | address | character => exact faded_self _
  | block | unclosed | line => exact faded_map_blanked _

theorem Pass.faded (pass : Pass admits text result) : List.Forall₂ Faded text result := by
  induction pass with
  | finished => exact .nil
  | step step _ ih => exact List.rel_append step.faded ih

end Layout

section Visible

/-- What is no space after a pass was there before it. -/
theorem mem_of_faded (faded : List.Forall₂ Faded text result) {c : Char} (visible : c ≠ ' ')
    (member : c ∈ result) : c ∈ text := by
  induction faded with
  | nil => exact member
  | cons first _ ih =>
    rcases List.mem_cons.mp member with rfl | further
    · rcases first.1 with rfl | space
      · exact List.mem_cons_self
      · exact absurd space visible
    · exact List.mem_cons_of_mem _ (ih further)

theorem eq_of_faded (faded : List.Forall₂ Faded text result) (visible : ' ' ∉ result) : text = result := by
  induction faded with
  | nil => rfl
  | cons first _ ih =>
    rw [List.mem_cons, not_or] at visible
    rw [ih visible.2, first.1.resolve_right fun space => visible.1 space.symm]

theorem opensAddress_of_faded (faded : List.Forall₂ Faded text result)
    (opens : OpensAddress anyArgument result) : OpensAddress anyArgument text := by
  obtain ⟨spelled, _, closes⟩ := opens
  have visible : ' ' ∉ result.take 4 := by
    intro member
    have lower := List.mem_map_of_mem (f := Char.toLower) member
    rw [spelled] at lower
    revert lower
    decide
  have same : text.take 4 = result.take 4 := eq_of_faded (List.forall₂_take 4 faded) visible
  exact ⟨same ▸ spelled, rfl, mem_of_faded (List.forall₂_drop 4 faded) (by decide) closes⟩

theorem opensComment_of_faded (faded : List.Forall₂ Faded text result) (opens : OpensComment result) :
    OpensComment text := by
  have start : ∀ opening : List Char, ' ' ∉ opening → opening <+: result → opening <+: text := by
    intro opening visible starts
    have begun := List.prefix_iff_eq_take.mp starts
    rw [begun] at visible
    rw [begun, ← eq_of_faded (List.forall₂_take _ faded) visible]
    exact List.take_prefix _ _
  exact opens.imp (start _ (by decide)) (start _ (by decide))

end Visible

section Closings

open StringLiteral

variable {mark : Char} {covered : Bool}

/-- Behind one text in front of both, a string that closes later still does. -/
theorem closes_append_of_imp (front : List Char)
    (imp : ∀ covered, closes mark covered later → closes mark covered rest)
    (closed : closes mark covered (front ++ later)) : closes mark covered (front ++ rest) := by
  induction front generalizing covered with
  | nil => exact imp covered closed
  | cons c front ih =>
    cases covered with
    | true => exact ih closed
    | false =>
      rw [List.cons_append, closes] at closed ⊢
      split_ifs at closed ⊢ with backslash here
      · exact ih closed
      · rfl
      · exact ih closed

/-- A string that closes beyond blanks met no line break among them. -/
theorem closes_of_blanks (quote : isMark mark) (closed : closes mark false (text.map blanked ++ later)) :
    '\n' ∉ text ∧ closes mark false later := by
  induction text with
  | nil => exact ⟨List.not_mem_nil, closed⟩
  | cons c text ih =>
    have space : ' ' ≠ mark := (ne_of_isMark quote rfl).symm
    have lineBreak : '\n' ≠ mark := (ne_of_isMark quote rfl).symm
    rw [List.map_cons, List.cons_append, closes, blanked] at closed
    by_cases same : c = '\n'
    · simp [same, lineBreak] at closed
    · rw [if_neg same, if_neg (by decide), if_neg space, if_neg (by decide)] at closed
      obtain ⟨within, after⟩ := ih closed
      exact ⟨List.not_mem_cons_of_ne_of_not_mem (Ne.symm same) within, after⟩

/-- A string that comes to a comment without line breaks closes within it, or goes on after it. -/
theorem closes_comment (quote : isMark mark) (inside : List Char) (within : '\n' ∉ inside)
    (closed : closes mark false rest) : closes mark covered (inside ++ '*' :: '/' :: rest) := by
  induction inside generalizing covered with
  | nil =>
    have star : '*' ≠ mark := (ne_of_isMark quote rfl).symm
    have slash : '/' ≠ mark := (ne_of_isMark quote rfl).symm
    cases covered <;> simpa [closes, star, slash] using closed
  | cons c inside ih =>
    rw [List.mem_cons, not_or] at within
    cases covered with
    | true => exact ih within.2
    | false =>
      rw [List.cons_append, closes]
      split_ifs with backslash here
      · exact ih within.2
      · rfl
      · exact absurd ‹c = '\n'›.symm within.1
      · exact ih within.2

theorem closes_after_space (quote : isMark mark) (closed : closes mark covered (' ' :: text)) :
    closes mark false text := by
  have space : ' ' ≠ mark := (ne_of_isMark quote rfl).symm
  cases covered <;> simpa [closes, space] using closed

theorem not_closes_of_ends (quote : isMark mark) (ends : ∀ c ∈ rest.head?, c = '\n') :
    ¬closes mark false rest := by
  have lineBreak : '\n' ≠ mark := (ne_of_isMark quote rfl).symm
  cases rest with
  | nil => simp [closes]
  | cons c rest =>
    obtain rfl := ends c rfl
    simp [closes, lineBreak]

/-- A string that closes after a pass over what is ahead of it closes without the pass. -/
theorem Pass.closes (quote : isMark mark) (pass : Pass admits text result) :
    ∀ covered, StringLiteral.closes mark covered result → StringLiteral.closes mark covered text := by
  -- For covered places too: a backslash before the text covers its first character.
  induction pass with
  | finished => exact fun _ closed => closed
  | step step next ih =>
    intro covered closed
    cases step with
    | literal | address | character => exact closes_append_of_imp _ ih closed
    -- Where comments were, the result has spaces for the string to cross, or a line break that ends it.
    | @block inside rest first =>
      obtain ⟨within, after⟩ := closes_of_blanks quote (closes_after_space quote closed)
      have front : '\n' ∉ '/' :: '*' :: inside := by
        intro member
        exact within (by simpa using member)
      simpa using closes_comment quote _ front (ih false after)
    | unclosed =>
      obtain ⟨_, after⟩ := closes_of_blanks quote (closes_after_space quote closed)
      exact absurd (ih false after) (not_closes_of_ends quote (by simp))
    | line _ ends =>
      obtain ⟨_, after⟩ := closes_of_blanks quote (closes_after_space quote closed)
      exact absurd (ih false after) (not_closes_of_ends quote ends)

end Closings

section Again

variable {c : Char}

theorem extent_eq_none_of_pass (pass : Pass admits rest later)
    (missing : StringLiteral.extent (c :: rest) = none) : StringLiteral.extent (c :: later) = none := by
  by_contra found
  obtain ⟨quote, closed⟩ := StringLiteral.extent_ne_none_iff.mp found
  exact StringLiteral.extent_ne_none_iff.mpr ⟨quote, pass.closes quote false closed⟩ missing

/-- Nothing starts at a blank. -/
theorem step_blanked (c : Char) : Step admits [blanked c] [blanked c] rest := by
  rcases blanked_eq c with same | same
  all_goals
    rw [same]
    exact step_plain (by decide) (by decide) fun opens => absurd (AddressWord.head opens.1) (by decide)

theorem pass_blanks (text : List Char) (pass : Pass admits later result) :
    Pass admits (text.map blanked ++ later) (text.map blanked ++ result) := by
  induction text with
  | nil => exact pass
  | cons c text ih =>
    have here : Step admits [blanked c] [blanked c] (text.map blanked ++ later) := step_blanked c
    simpa using Pass.step here ih

/-- A pass over what a pass has left changes nothing. -/
theorem Pass.again (pass : Pass anyArgument text result) : Pass anyArgument result result := by
  induction pass with
  | finished => exact .finished
  | @step piece written rest later step next ih =>
    cases step with
    | literal closed =>
      have here : StringLiteral.extent.Takes piece later :=
        StringLiteral.takes_extent_iff.mpr (StringLiteral.takes_extent_iff.mp closed)
      exact .step (.literal here) ih
    | address spelled _ first => exact .step (.address spelled rfl first) ih
    | block | unclosed | line => exact pass_blanks _ ih
    | @character c _ noLiteral noAddress noComment =>
      have faded : List.Forall₂ Faded (c :: rest) (c :: later) := .cons (Faded.refl c) next.faded
      refine .step (.character (extent_eq_none_of_pass next noLiteral) ?_ ?_) ih
      · exact fun opens => noAddress (opensAddress_of_faded faded opens)
      · exact fun opens => noComment (opensComment_of_faded faded opens)

theorem blank_blank (text : List Char) : blank (blank text) = blank text :=
  (pass_blank (blank text)).unique (pass_blank text).again

end Again

end Comment

theorem blank_cons {c : Char} {rest : List Char} (plain : StringLiteral.isMark c = false)
    (noSlash : c ≠ '/') (noAddress : c.toLower ≠ 'u') :
    Comment.blank (c :: rest) = c :: Comment.blank rest :=
  Comment.blank_of_step (Comment.step_plain plain noSlash
    fun opens => noAddress (Comment.AddressWord.head opens.1))

/-- Past a mark that the text starts with, blanking again finds nothing. -/
theorem blank_dropMark_blank (text : List Char) :
    Comment.blank (dropMark (Comment.blank text)) = Comment.blank (dropMark text) := by
  cases text with
  | nil => rfl
  | cons c rest =>
    by_cases mark : c.toNat = 0xFEFF
    · have same : c = '\uFEFF' := Char.toNat_inj.mp mark
      subst same
      rw [blank_cons (by decide) (by decide) (by decide)]
      exact Comment.blank_blank rest
    · have unmarked : dropMark (Comment.blank (c :: rest)) = Comment.blank (c :: rest) := by
        obtain ⟨d, others, first, _, shown⟩ :=
          List.forall₂_cons_left_iff.mp (Comment.pass_blank (c :: rest)).faded
        rw [shown]
        refine if_neg ?_
        rcases first.1 with rfl | rfl
        · exact mark
        · decide
      rw [unmarked, Comment.blank_blank, dropMark, if_neg mark]

/-- Blanking keeps the length of a text and its line breaks, leaves every character or puts a space in its
place, changes nothing where it is done again, and makes no difference to what a source is parsed to. -/
theorem blank_is_final (source : String) :
    (Comment.blank source.toList).length = source.toList.length ∧
      List.Forall₂ Comment.Faded source.toList (Comment.blank source.toList) ∧
      Comment.blank (Comment.blank source.toList) = Comment.blank source.toList ∧
      parse (String.ofList (Comment.blank source.toList)) = parse source := by
  refine ⟨Comment.length_blank _, (Comment.pass_blank _).faded, Comment.blank_blank _, ?_⟩
  simp only [parse, parseTraced, String.toList_ofList, blank_dropMark_blank]

end SheetLint
