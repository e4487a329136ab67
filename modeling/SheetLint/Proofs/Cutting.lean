import SheetLint.Proofs.CommentPass
import SheetLint.Proofs.Letters
import SheetLint.Proofs.Moving
import SheetLint.Proofs.Tiling

/-! A pass that has made a cut goes on as at the start of a text: the cuts of a text up to one of them do not
depend on what follows it, nor the cuts after it on what comes before. -/
namespace SheetLint

section Replace

variable {front back : List Char} {length : Nat} (more : List Char)

theorem StringLiteral.close_replace {mark : Char} (quote : isMark mark)
    (found : close mark (front ++ back) = .ok length) (within : length ≤ front.length) :
    close mark (front ++ more) = .ok length := by
  obtain ⟨body, rest, split, closed, rfl⟩ := closed_of_close found
  obtain ⟨beyond, rfl⟩ : body <+: front :=
    List.prefix_of_prefix_length_le ⟨rest, split.symm⟩ (List.prefix_append front back) within
  rw [List.append_assoc]
  exact close_of_closed quote closed _

theorem Extent.through_replace {stop : Char} (found : through stop (front ++ back) = some length)
    (within : length ≤ front.length) : through stop (front ++ more) = some length := by
  have split (rest : List Char) : front.take length ++ (front.drop length ++ rest) = front ++ rest := by
    rw [← List.append_assoc, List.take_append_drop]
  have size : (front.take length).length = length := by simp [within]
  have taken : (through stop).Takes (front.take length) (front.drop length ++ back) := by
    rw [Takes, split, size, found]
  have again : (through stop).Takes (front.take length) (front.drop length ++ more) :=
    Comment.takes_through.mpr (Comment.takes_through.mp taken)
  rwa [Takes, split, size] at again

theorem interpolation?_eq_none_iff {c : Char} {rest : List Char} :
    interpolation? (c :: rest) = none ↔ c = '#' → rest.head? ≠ some '\x7b' := by
  unfold interpolation?
  split
  · rename_i same
    cases same
    simp
  · rename_i apart
    simp only [true_iff]
    rintro rfl opens
    obtain ⟨later, rfl⟩ := List.head?_eq_some_iff.mp opens
    exact apart later rfl

theorem interpolation?_replace {c : Char}
    (found : interpolation? (c :: (front ++ back)) = some (some length))
    (within : length ≤ front.length + 1) :
    interpolation? (c :: (front ++ more)) = some (some length) := by
  unfold interpolation? at found
  split at found
  · rename_i rest same
    injection same with hash same
    simp only [Option.some.injEq, Option.map_eq_some_iff] at found
    obtain ⟨further, closes, rfl⟩ := found
    cases front with
    | nil => simp at within
    | cons d front =>
      injection same with brace same
      subst hash brace
      rw [← same] at closes
      have again := Extent.through_replace more closes (by simpa using within)
      simp [interpolation?, again]
  · cases found

end Replace

/-- A pass cuts at a delimiter, whatever follows. -/
theorem cutsFrom_of_delimiter {c : Char} {delimiter : Delimiter} (cut : delimiter? c = some delimiter)
    (start : Nat) (taken text : List Char) :
    cutsFrom start taken 0 0 (c :: text) =
      ⟨⟨⟨taken.reverse, start⟩, delimiter⟩ :: (cuts (start + taken.length + 1) text).cuts,
        (cuts (start + taken.length + 1) text).ending⟩ := by
  obtain rfl := char_of_delimiter? cut
  cases delimiter <;> rfl

/-- A pass makes some cuts in the front of a text. It then goes on with the rest, or with anything else there,
as it does at the start of a text. -/
def Resumes (start : Nat) (taken : List Char) (depth pending : Nat) (text : List Char) (found : List Cut) :
    Prop :=
  ∃ front back, text = front ++ back ∧ front ≠ [] ∧ pending ≤ front.length ∧
    found.getLast?.map (·.chunk.stop + 1) = some (start + taken.length + front.length) ∧
    ∀ more, cutsFrom start taken depth pending (front ++ more) =
      ⟨found ++ (cuts (start + taken.length + front.length) more).cuts,
        (cuts (start + taken.length + front.length) more).ending⟩

/-- A pass that goes over a character without a cut resumes where it does after it. -/
theorem Resumes.step {start depth depth' pending pending' : Nat} {taken text : List Char} {c : Char}
    {found : List Cut} (further : Resumes start (c :: taken) depth' pending' text found)
    (bound : pending ≤ pending' + 1)
    (same : ∀ front back, text = front ++ back → front ≠ [] → pending' ≤ front.length →
      ∀ more, cutsFrom start taken depth pending (c :: (front ++ more)) =
        cutsFrom start (c :: taken) depth' pending' (front ++ more)) :
    Resumes start taken depth pending (c :: text) found := by
  obtain ⟨front, back, rfl, filled, within, last, resumes⟩ := further
  have place : start + (c :: taken).length + front.length = start + taken.length + (c :: front).length := by
    simp only [List.length_cons]
    omega
  rw [place] at last resumes
  refine ⟨c :: front, back, rfl, by simp, Nat.le_trans bound (Nat.succ_le_succ within), last, ?_⟩
  intro more
  rw [List.cons_append, same front back rfl filled within more, resumes]

/-- A pass that makes a cut resumes behind it, or behind the cuts that follow. -/
theorem Resumes.cut {start : Nat} {taken rest : List Char} {c : Char} {delimiter : Delimiter}
    {others : List Cut} (cut : delimiter? c = some delimiter)
    (further : others = [] ∨ Resumes (start + taken.length + 1) [] 0 0 rest others) :
    Resumes start taken 0 0 (c :: rest) (⟨⟨taken.reverse, start⟩, delimiter⟩ :: others) := by
  have here := cutsFrom_of_delimiter cut start taken
  rcases further with rfl | ⟨front, back, rfl, _, _, last, resumes⟩
  · exact ⟨[c], rest, rfl, by simp, Nat.zero_le _, by simp [Chunk.stop], here⟩
  · have place : start + taken.length + 1 + ([] : List Char).length + front.length =
        start + taken.length + (c :: front).length := by
      simp only [List.length_cons, List.length_nil]
      omega
    rw [place] at last resumes
    refine ⟨c :: front, back, rfl, by simp, Nat.zero_le _, ?_, ?_⟩
    · obtain ⟨final, present, stop⟩ := Option.map_eq_some_iff.mp last
      rw [List.getLast?_cons, present, Option.getD_some, Option.map_some, stop]
    · intro more
      rw [List.cons_append, here, cuts, resumes]
      rfl

/-- A pass that makes cuts resumes behind any of them. -/
theorem resumes_of_cutsFrom {start depth pending : Nat} {taken text : List Char} {found later : List Cut}
    (made : (cutsFrom start taken depth pending text).cuts = found ++ later) (some : found ≠ []) :
    Resumes start taken depth pending text found := by
  fun_induction cutsFrom start taken depth pending text generalizing found with
  | case1 => exact absurd (List.append_eq_nil_iff.mp made.symm).1 some
  | case2 start taken depth c pending rest ih =>
    exact (ih made some).step (Nat.le_refl _) fun front back _ _ _ more => rfl
  | case3 start taken depth c rest quoted length closed ih =>
    refine (ih made some).step (Nat.zero_le _) ?_
    rintro front back rfl _ within more
    simp only [cutsFrom, quoted, StringLiteral.close_replace more quoted closed within, ↓reduceIte]
  | case4 => exact absurd (List.append_eq_nil_iff.mp made.symm).1 some
  | case5 start taken depth c rest quoted length inside ih =>
    refine (ih made some).step (Nat.zero_le _) ?_
    rintro front back rfl _ within more
    have again := interpolation?_replace more inside (by omega)
    simp only [cutsFrom, if_neg quoted, again]
  | case6 => exact absurd (List.append_eq_nil_iff.mp made.symm).1 some
  | case7 start taken depth rest quoted outside ih =>
    refine (ih made some).step (Nat.zero_le _) fun front back _ _ _ more => ?_
    have again : interpolation? ('(' :: (front ++ more)) = none := interpolation?_eq_none_iff.mpr (by simp)
    simp only [cutsFrom, if_neg quoted, again, ↓reduceIte]
  | case8 start taken depth rest quoted outside opens ih =>
    refine (ih made some).step (Nat.zero_le _) fun front back _ _ _ more => ?_
    have again : interpolation? (')' :: (front ++ more)) = none := interpolation?_eq_none_iff.mpr (by simp)
    simp only [cutsFrom, if_neg quoted, again, if_neg opens, ↓reduceIte]
  | case9 start taken c rest quoted outside opens closes delimiter cut after =>
    rename_i ih
    cases found with
    | nil => exact absurd rfl some
    | cons first others =>
      injection made with same made
      subst same
      apply Resumes.cut cut
      by_cases none : others = []
      · exact .inl none
      · exact .inr (ih made none)
  | case10 start taken depth c rest quoted outside opens closes uncut ih =>
    refine (ih made some).step (Nat.zero_le _) ?_
    rintro front back rfl filled _ more
    -- Whether a hash sign opens an interpolation is told by the character after it, which is in the front.
    have again : interpolation? (c :: (front ++ more)) = none := by
      rw [interpolation?_eq_none_iff] at outside ⊢
      cases front with
      | nil => exact absurd rfl filled
      | cons => exact outside
    simp only [cutsFrom, if_neg quoted, again, if_neg opens, if_neg closes]

/-- Behind some of its cuts, whatever follows is cut as a text of its own. -/
theorem cuts_split {offset : Nat} {text : List Char} {found later : List Cut}
    (made : (cuts offset text).cuts = found ++ later) :
    ∃ front back, text = front ++ back ∧
      (found.getLast?.map (·.chunk.stop + 1)).getD offset = offset + front.length ∧
      ∀ more, cuts offset (front ++ more) =
        ⟨found ++ (cuts (offset + front.length) more).cuts,
          (cuts (offset + front.length) more).ending⟩ := by
  by_cases none : found = []
  · subst none
    exact ⟨[], text, rfl, rfl, fun more => rfl⟩
  · obtain ⟨front, back, split, _, _, last, resumes⟩ := resumes_of_cutsFrom made none
    exact ⟨front, back, split, by rw [last]; rfl, resumes⟩

/-- The chunk with more text in front of it. -/
def Chunk.behind (front : List Char) (chunk : Chunk) : Chunk :=
  ⟨front ++ chunk.text, chunk.offset - front.length⟩

/-- The first chunk of some cuts, or else the last one of the text, with more text in front of it. -/
def Cuts.behind (front : List Char) : Cuts → Cuts
  | ⟨⟨chunk, delimiter⟩ :: later, ending⟩ => ⟨⟨chunk.behind front, delimiter⟩ :: later, ending⟩
  | ⟨[], .complete chunk⟩ => ⟨[], .complete (chunk.behind front)⟩
  | ⟨[], .broken failure⟩ => ⟨[], .broken failure⟩

/-- What a pass has gone over before it comes to the text at hand belongs to the first chunk. -/
theorem cutsFrom_behind {front : List Char} (start : Nat) (taken : List Char) (depth pending : Nat)
    (text : List Char) (fits : front.length ≤ start) :
    cutsFrom (start - front.length) (taken ++ front.reverse) depth pending text =
      (cutsFrom start taken depth pending text).behind front := by
  have place (start : Nat) (fits : front.length ≤ start) (taken : List Char) :
      start - front.length + (taken ++ front.reverse).length = start + taken.length := by
    simp only [List.length_append, List.length_reverse]
    omega
  fun_induction cutsFrom start taken depth pending text with
  | case1 => simp [cutsFrom, Cuts.behind, Chunk.behind]
  | case2 start taken depth c pending rest ih => exact ih fits
  | case3 start taken depth c rest quoted length closed ih =>
    simp only [cutsFrom, quoted, closed, ↓reduceIte]
    exact ih fits
  | case4 start taken depth c rest quoted followed unclosed =>
    simp only [cutsFrom, quoted, unclosed, place start fits, Cuts.behind, ↓reduceIte]
  | case5 start taken depth c rest quoted length inside ih =>
    simp only [cutsFrom, if_neg quoted, inside]
    exact ih fits
  | case6 start taken depth c rest quoted inside =>
    simp only [cutsFrom, if_neg quoted, inside, place start fits, Cuts.behind]
  | case7 start taken depth rest quoted outside ih =>
    simp only [cutsFrom, if_neg quoted, outside, ↓reduceIte]
    exact ih fits
  | case8 start taken depth rest quoted outside opens ih =>
    simp only [cutsFrom, if_neg quoted, outside, if_neg opens, ↓reduceIte]
    exact ih fits
  | case9 start taken c rest quoted outside opens closes delimiter cut after =>
    simp only [cutsFrom, if_neg quoted, outside, if_neg opens, if_neg closes, cut, place start fits,
      List.reverse_append, List.reverse_reverse]
    rfl
  | case10 start taken depth c rest quoted outside opens closes uncut ih =>
    simp only [cutsFrom, if_neg quoted, outside, if_neg opens, if_neg closes]
    exact ih fits

section Blank

variable {blanks : List Char} (blank : ∀ c ∈ blanks, Text.isBlank c)

include blank

theorem cutsFrom_of_blanks (start : Nat) (taken text : List Char) :
    cutsFrom start taken 0 0 (blanks ++ text) = cutsFrom start (blanks.reverse ++ taken) 0 0 text := by
  induction blanks generalizing taken with
  | nil => rfl
  | cons c rest ih =>
    obtain ⟨here, later⟩ := List.forall_mem_cons.mp blank
    have apart {d : Char} (visible : Text.isBlank d = false) : c ≠ d := Text.ne_of_class here visible
    have unquoted : StringLiteral.isMark c = false := by
      simp [StringLiteral.isMark, apart (d := '\x22') (by decide), apart (d := '\x27') (by decide)]
    have outside : interpolation? (c :: (rest ++ text)) = none :=
      interpolation?_eq_none_iff.mpr fun same => absurd same (apart (by decide))
    have opens : c ≠ '(' := apart (by decide)
    have closes : c ≠ ')' := apart (by decide)
    have uncut : delimiter? c = none := by
      cases found : delimiter? c with
      | none => rfl
      | some delimiter =>
        cases delimiter <;> exact absurd (char_of_delimiter? found) (apart (by decide))
    have step : cutsFrom start taken 0 0 (c :: (rest ++ text)) =
        cutsFrom start (c :: taken) 0 0 (rest ++ text) := by
      simp only [cutsFrom, unquoted, outside, if_neg opens, if_neg closes, uncut, Bool.false_eq_true,
        ↓reduceIte]
    rw [List.cons_append, step, ih later, List.reverse_cons, List.append_assoc, List.singleton_append]

/-- Blanks before a text are gone over, and belong to its first chunk. -/
theorem cuts_of_blanks (offset : Nat) (text : List Char) :
    cuts offset (blanks ++ text) = (cuts (offset + blanks.length) text).behind blanks := by
  have passed := cutsFrom_behind (offset + blanks.length) [] 0 0 text (Nat.le_add_left _ _)
  rw [Nat.add_sub_cancel, List.nil_append] at passed
  rw [cuts, cutsFrom_of_blanks blank, List.append_nil, passed]
  rfl

end Blank
end SheetLint
