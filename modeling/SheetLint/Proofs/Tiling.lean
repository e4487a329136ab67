import SheetLint.Proofs.Bracing
import SheetLint.Sheet.Outline
import Mathlib.Data.List.Infix

/-! Chunks and their delimiters tile the text: each chunk starts where the delimiter before it ends, and a
level goes on where the block within it is closed. -/
namespace SheetLint

namespace Text

section Blanks

variable {front text : List Char}

theorem trimStart_append_blanks (blank : ∀ c ∈ front, isBlank c) :
    trimStart (front ++ text) = trimStart text :=
  List.dropWhile_append_of_pos blank

theorem leadingBlanks_append_blanks (blank : ∀ c ∈ front, isBlank c) :
    leadingBlanks (front ++ text) = front.length + leadingBlanks text := by
  rw [leadingBlanks, List.takeWhile_append_of_pos blank, List.length_append]
  rfl

end Blanks

theorem trimEnd_prefix (text : List Char) : trimEnd text <+: text := by
  have suffix : trimStart text.reverse <:+ text.reverse := List.dropWhile_suffix _
  simpa [trimEnd] using List.reverse_prefix.mpr suffix

/-- What is left of a text without the blanks around it stands past the blanks that it starts with. -/
theorem trim_prefix_drop (text : List Char) : trim text <+: text.drop (leadingBlanks text) := by
  rw [trim, ← trimStart_eq_drop]
  exact trimEnd_prefix _

theorem visible_head_trim {text rest : List Char} {c : Char} (found : trim text = c :: rest) :
    isBlank c = false := by
  have begun : c :: rest <+: trimStart text := by
    rw [← found]
    exact trimEnd_prefix _
  obtain ⟨others, same⟩ := begun
  have visible := List.head?_dropWhile_not isBlank text
  change c :: rest ++ others = text.dropWhile isBlank at same
  rw [← same] at visible
  simpa using visible

end Text

namespace Chunk

variable {text : List Char} {chunk : Chunk}

theorem trim_prefix (stands : chunk.text <+: text.drop chunk.offset) :
    chunk.trim.text <+: text.drop chunk.trim.offset := by
  have inner := Text.trim_prefix_drop chunk.text
  change Text.trim chunk.text <+: text.drop (chunk.offset + Text.leadingBlanks chunk.text)
  rw [← List.drop_drop]
  exact inner.trans (List.IsPrefix.drop stands _)

theorem offset_le_trim (chunk : Chunk) : chunk.offset ≤ chunk.trim.offset :=
  Nat.le_add_right _ _

theorem trim_stop_le (chunk : Chunk) : chunk.trim.stop ≤ chunk.stop := by
  have fits := (Text.trim_prefix_drop chunk.text).length_le
  have blanks := Text.length_trimStart chunk.text
  rw [List.length_drop] at fits
  change chunk.offset + Text.leadingBlanks chunk.text + (Text.trim chunk.text).length ≤
    chunk.offset + chunk.text.length
  omega

end Chunk

def Delimiter.char : Delimiter → Char
  | .semicolon => ';'
  | .opening => '\x7b'
  | .closing => '\x7d'

theorem char_of_delimiter? {c : Char} {delimiter : Delimiter} (found : delimiter? c = some delimiter) :
    c = delimiter.char := by
  unfold delimiter? at found
  split at found
  · cases found
    assumption
  · split at found
    · cases found
      assumption
    · split at found
      · cases found
        assumption
      · cases found

/-- A chunk stands at its offset, and a character follows it. -/
def Chunk.EndsIn (text : List Char) (chunk : Chunk) (c : Char) : Prop :=
  chunk.text ++ [c] <+: text.drop chunk.offset

namespace Chunk.EndsIn

variable {text : List Char} {chunk : Chunk} {c : Char}

theorem stands (ends : chunk.EndsIn text c) : chunk.text <+: text.drop chunk.offset :=
  (List.prefix_append _ _).trans ends

theorem stop_lt (ends : chunk.EndsIn text c) : chunk.stop < text.length := by
  have fits := List.IsPrefix.length_le ends
  simp only [List.length_append, List.length_singleton, List.length_drop] at fits
  unfold Chunk.stop
  omega

theorem char_prefix (ends : chunk.EndsIn text c) : [c] <+: text.drop chunk.stop := by
  obtain ⟨rest, split⟩ := ends
  refine ⟨rest, ?_⟩
  rw [Chunk.stop, ← List.drop_drop, ← split, List.append_assoc, List.drop_left]

end Chunk.EndsIn

/-- Cuts one after the other from an offset on, to the end of the text or to where it breaks off. -/
inductive Tiling (text : List Char) (ending : Ending) : Nat → List Cut → Prop
  | last {chunk : Chunk} (final : ending = .complete chunk)
      (whole : text.drop chunk.offset = chunk.text) : Tiling text ending chunk.offset []
  | broken {start : Nat} {failure : Failure} (final : ending = .broken failure) :
      Tiling text ending start []
  | cut {chunk : Chunk} {delimiter : Delimiter} {later : List Cut}
      (ends : chunk.EndsIn text delimiter.char) (rest : Tiling text ending (chunk.stop + 1) later) :
      Tiling text ending chunk.offset (⟨chunk, delimiter⟩ :: later)

theorem Tiling.endsIn {text : List Char} {ending : Ending} {start : Nat} {cuts : List Cut}
    (tiling : Tiling text ending start cuts) :
    ∀ cut ∈ cuts, cut.chunk.EndsIn text cut.delimiter.char := by
  induction tiling with
  | last | broken => exact List.forall_mem_nil _
  | cut ends _ ih => exact List.forall_mem_cons.mpr ⟨ends, ih⟩

/-- The pass over a text tiles it from the start of the chunk at hand. -/
theorem tiling_cutsFrom {text rest taken : List Char} {start depth pending : Nat}
    (placed : text.drop start = taken.reverse ++ rest) :
    Tiling text (cutsFrom start taken depth pending rest).ending start
      (cutsFrom start taken depth pending rest).cuts := by
  induction rest generalizing start taken depth pending with
  | nil =>
    have whole : text.drop start = taken.reverse := by simpa using placed
    exact Tiling.last rfl whole
  | cons c rest ih =>
    cases step_cutsFrom start taken depth pending c rest with
    | next depth' pending' cuts =>
      rw [cuts]
      exact ih (by simpa using placed)
    | broken failure cuts =>
      rw [cuts]
      exact Tiling.broken rfl
    | cut delimiter found cuts =>
      have ends : (⟨taken.reverse, start⟩ : Chunk).EndsIn text delimiter.char := by
        rw [← char_of_delimiter? found]
        exact ⟨rest, by simpa using placed.symm⟩
      have stop : (⟨taken.reverse, start⟩ : Chunk).stop + 1 = start + taken.length + 1 := by
        simp [Chunk.stop]
      rw [cuts]
      apply Tiling.cut ends
      rw [stop]
      apply ih
      rw [Nat.add_assoc, ← List.drop_drop, placed, List.append_cons, List.drop_left' (by simp),
        List.reverse_nil, List.nil_append]

theorem tiling_cuts (text : List Char) : Tiling text (cuts 0 text).ending 0 (cuts 0 text).cuts :=
  tiling_cutsFrom (by simp)

namespace Tiling

variable {text : List Char} {ending : Ending} {start : Nat} {cut : Cut} {later cuts : List Cut}

/-- The cuts of a text are made further and further on. -/
theorem ascending (tiling : Tiling text ending start cuts) :
    (∀ cut ∈ cuts, start ≤ cut.chunk.stop) ∧ (cuts.map Cut.site).Pairwise (·.1 < ·.1) := by
  induction tiling with
  | last | broken => exact ⟨List.forall_mem_nil _, .nil⟩
  | @cut chunk delimiter later _ _ ih =>
    have forward : chunk.offset ≤ chunk.stop := Nat.le_add_right _ _
    refine ⟨List.forall_mem_cons.mpr ⟨forward, ?_⟩, List.pairwise_cons.mpr ⟨?_, ih.2⟩⟩
    · intro cut member
      have above := ih.1 cut member
      omega
    · intro site member
      obtain ⟨cut, present, rfl⟩ := List.mem_map.mp member
      exact ih.1 cut present

theorem first (tiling : Tiling text ending start (cut :: later)) :
    cut.chunk.offset = start ∧ cut.chunk.EndsIn text cut.delimiter.char := by
  cases tiling with
  | cut ends _ => exact ⟨rfl, ends⟩

end Tiling

/-- A structural delimiter stands at its offset. -/
theorem char_of_structural {text : List Char} {site : Site} (member : site ∈ structural text) :
    text[site.1]? = some site.2.char := by
  rw [← sites_cuts, List.mem_map] at member
  obtain ⟨cut, present, rfl⟩ := member
  have ends := (tiling_cuts text).endsIn cut present
  obtain ⟨rest, split⟩ := ends.char_prefix
  change text[cut.chunk.stop]? = some cut.delimiter.char
  rw [← List.head?_drop, ← split]
  rfl

namespace Outline

/-- A level laid over a text from an offset on. What follows a block starts where the block ends. -/
inductive Tiles (text : List Char) : Nat → Outline → Prop
  | complete {chunk : Chunk} (whole : text.drop chunk.offset = chunk.text) :
      Tiles text chunk.offset (.complete chunk)
  | broken {start : Nat} {failure : Failure} : Tiles text start (.broken failure)
  | closed {chunk : Chunk} (ends : chunk.EndsIn text '\x7d') : Tiles text chunk.offset (.closed chunk)
  | statement {chunk : Chunk} {next : Outline} (ends : chunk.EndsIn text ';')
      (rest : Tiles text (chunk.stop + 1) next) : Tiles text chunk.offset (.statement chunk next)
  | nested {head : Chunk} {body next : Outline} (ends : head.EndsIn text '\x7b')
      (inner : Tiles text (head.stop + 1) body) (rest : Tiles text body.stop next) :
      Tiles text head.offset (.nested head body next)
  | unclosed {head : Chunk} {body : Outline} (ends : head.EndsIn text '\x7b')
      (inner : Tiles text (head.stop + 1) body) : Tiles text head.offset (.unclosed head body)

/-- Levels each of which starts where the one before stops. -/
inductive Chain (text : List Char) : Nat → List Outline → Prop
  | nil {start : Nat} : Chain text start []
  | cons {start : Nat} {level : Outline} {outer : List Outline} (first : Tiles text start level)
      (rest : Chain text level.stop outer) : Chain text start (level :: outer)

/-- Levels made of cuts are laid over the text as the cuts are. -/
theorem chain_levels {text : List Char} {ending : Ending} {start : Nat} {cuts : List Cut}
    (tiling : Tiling text ending start cuts) :
    Chain text start ((levels ending cuts).1 :: (levels ending cuts).2) := by
  induction tiling with
  | last final whole =>
    subst final
    exact .cons (.complete whole) .nil
  | broken final =>
    subst final
    exact .cons .broken .nil
  | @cut chunk delimiter later ends rest ih =>
    cases found : levels ending later with
    | mk level outer =>
    rw [found] at ih
    obtain _ | ⟨first, others⟩ := ih
    cases delimiter with
    | semicolon =>
      simp only [levels, found]
      exact .cons (.statement ends first) others
    | closing =>
      simp only [levels, found]
      exact .cons (.closed ends) (.cons first others)
    | opening =>
      simp only [levels, found]
      obtain _ | ⟨next, outer⟩ := others
      · exact .cons (.unclosed ends first) .nil
      · exact .cons (.nested ends first next) outer

theorem tiles_ofText (text : List Char) : Tiles text 0 (ofText 0 text) := by
  obtain _ | ⟨first, _⟩ := chain_levels (tiling_cuts text)
  exact first

end Outline
end SheetLint
