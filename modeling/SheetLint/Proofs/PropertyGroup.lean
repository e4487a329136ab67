import Mathlib.Data.List.TakeWhile
import SheetLint.Proofs.Blanking
import SheetLint.Proofs.Cutting
import SheetLint.Proofs.SheetLayout

/-! A group of nested properties leaves nothing in the tree: with blanks in its place, the text is scanned to
the same tree. What follows the group then starts with those blanks, and they are trimmed. -/
namespace SheetLint

section Behind

variable {front : List Char} (blank : ∀ c ∈ front, Text.isBlank c)

namespace Chunk

variable {chunk : Chunk} (fits : front.length ≤ chunk.offset)

include fits

theorem stop_behind : (chunk.behind front).stop = chunk.stop := by
  simp only [stop, behind, List.length_append]
  omega

include blank

/-- Blanks in front of a chunk are trimmed. -/
theorem trim_behind : (chunk.behind front).trim = chunk.trim := by
  simp only [trim, behind, Text.trim, Text.trimStart_append_blanks blank,
    Text.leadingBlanks_append_blanks blank, Chunk.mk.injEq, true_and]
  omega

end Chunk

namespace Outline

/-- A level with more text in front of its first chunk. -/
def behind (front : List Char) : Outline → Outline
  | complete chunk => complete (chunk.behind front)
  | broken failure => broken failure
  | closed chunk => closed (chunk.behind front)
  | statement chunk next => statement (chunk.behind front) next
  | nested head body next => nested (head.behind front) body next
  | unclosed head body => unclosed (head.behind front) body

theorem levels_behind (front : List Char) (found : Cuts) :
    levels (found.behind front).ending (found.behind front).cuts =
      ((levels found.ending found.cuts).1.behind front, (levels found.ending found.cuts).2) := by
  obtain ⟨_ | ⟨⟨chunk, delimiter⟩, later⟩, ending⟩ := found
  · cases ending <;> rfl
  · cases split : levels ending later with
    | mk level outer =>
    cases delimiter with
    | semicolon | closing => simp [Cuts.behind, levels, split, behind]
    | opening => cases outer <;> simp [Cuts.behind, levels, split, behind]

include blank

/-- Blanks in front of a level are not read. -/
theorem read_behind {text : List Char} {start : Nat} {outline : Outline}
    (tiles : outline.Tiles text start) (fits : front.length ≤ start) (brace? : Option Nat) :
    (outline.behind front).read brace? = outline.read brace? := by
  cases tiles with
  | broken => rfl
  | complete => cases brace? <;> simp only [behind, read, Chunk.trim_behind blank fits]
  | closed => cases brace? <;> simp only [behind, read, Chunk.trim_behind blank fits, Chunk.stop_behind fits]
  | statement => simp only [behind, read, Chunk.trim_behind blank fits]
  | nested | unclosed => simp only [behind, read, Chunk.trim_behind blank fits, Chunk.stop_behind fits]

end Outline
end Behind

namespace Outline

/-- One outline comes from another where a group of nested properties is left out, and what follows it is read
as before. -/
inductive Sheds : Outline → Outline → Prop
  | group {head : Chunk} {body next next' : Outline} (left : head.trim.isGroupHead)
      (same : ∀ brace?, next'.read brace? = next.read brace?) : Sheds (nested head body next) next'
  | statement {chunk : Chunk} {next next' : Outline} (rest : Sheds next next') :
      Sheds (statement chunk next) (statement chunk next')
  | body {head : Chunk} {body body' next : Outline} (inner : Sheds body body') :
      Sheds (nested head body next) (nested head body' next)
  | next {head : Chunk} {body next next' : Outline} (rest : Sheds next next') :
      Sheds (nested head body next) (nested head body next')
  | unclosed {head : Chunk} {body body' : Outline} (inner : Sheds body body') :
      Sheds (unclosed head body) (unclosed head body')

/-- Without a group of nested properties the same statements are read. -/
theorem Sheds.read {outline outline' : Outline} {brace? : Option Nat} {nodes : List (Node Nat)}
    (sheds : outline.Sheds outline') (accepted : (outline.read brace?).result = .ok nodes) :
    (outline'.read brace?).result = .ok nodes := by
  induction sheds generalizing brace? nodes with
  | @group head body next next' left same =>
    obtain ⟨children, _, accepted⟩ := Traced.result_bind_eq_ok.mp accepted
    obtain ⟨first, found, accepted⟩ := Traced.result_bind_eq_ok.mp accepted
    obtain ⟨others, further, joined⟩ := Traced.result_bind_eq_ok.mp accepted
    cases joined
    rw [same]
    cases Chunk.blocked_of_read found with
    | group => exact further
    | atRule _ kept | ruleset _ kept => simp [left] at kept
  | statement _ ih =>
    obtain ⟨first, found, accepted⟩ := Traced.result_bind_eq_ok.mp accepted
    obtain ⟨others, further, joined⟩ := Traced.result_bind_eq_ok.mp accepted
    exact Traced.result_bind_eq_ok.mpr
      ⟨first, found, Traced.result_bind_eq_ok.mpr ⟨others, ih further, joined⟩⟩
  | body _ ih =>
    obtain ⟨children, opened, accepted⟩ := Traced.result_bind_eq_ok.mp accepted
    exact Traced.result_bind_eq_ok.mpr ⟨children, ih opened, accepted⟩
  | next _ ih =>
    obtain ⟨children, opened, accepted⟩ := Traced.result_bind_eq_ok.mp accepted
    obtain ⟨first, found, accepted⟩ := Traced.result_bind_eq_ok.mp accepted
    obtain ⟨others, further, joined⟩ := Traced.result_bind_eq_ok.mp accepted
    exact Traced.result_bind_eq_ok.mpr ⟨children, opened, Traced.result_bind_eq_ok.mpr
      ⟨first, found, Traced.result_bind_eq_ok.mpr ⟨others, ih further, joined⟩⟩⟩
  | unclosed _ _ =>
    obtain ⟨_, _, failed⟩ := Traced.result_bind_eq_ok.mp accepted
    cases failed

/-- Of some levels, each within the next one, one sheds a group. -/
inductive LevelsShed : Outline × List Outline → Outline × List Outline → Prop
  | first {level level' : Outline} {outer : List Outline} (sheds : level.Sheds level') :
      LevelsShed (level, outer) (level', outer)
  | later {level next next' : Outline} {outer outer' : List Outline}
      (sheds : LevelsShed (next, outer) (next', outer')) :
      LevelsShed (level, next :: outer) (level, next' :: outer')

theorem LevelsShed.read {level level' : Outline} {outer outer' : List Outline} {brace? : Option Nat}
    {nodes : List (Node Nat)} (sheds : LevelsShed (level, outer) (level', outer'))
    (accepted : (level.read brace?).result = .ok nodes) : (level'.read brace?).result = .ok nodes := by
  cases sheds with
  | first sheds => exact sheds.read accepted
  | later => exact accepted

theorem LevelsShed.cons {ending ending' : Ending} {cuts cuts' : List Cut} (cut : Cut)
    (sheds : LevelsShed (levels ending cuts) (levels ending' cuts')) :
    LevelsShed (levels ending (cut :: cuts)) (levels ending' (cut :: cuts')) := by
  obtain ⟨chunk, delimiter⟩ := cut
  cases one : levels ending cuts with
  | mk level outer =>
  cases two : levels ending' cuts' with
  | mk level' outer' =>
  rw [one, two] at sheds
  cases delimiter with
  | semicolon =>
    simp only [levels, one, two]
    cases sheds with
    | first sheds => exact .first (.statement sheds)
    | later sheds => exact .later sheds
  | closing =>
    simp only [levels, one, two]
    exact .later sheds
  | opening =>
    simp only [levels, one, two]
    cases sheds with
    | @first _ _ outer sheds =>
      cases outer with
      | nil => exact .first (.unclosed sheds)
      | cons => exact .first (.body sheds)
    | later sheds =>
      cases sheds with
      | first sheds => exact .first (.next sheds)
      | later sheds => exact .later sheds

theorem LevelsShed.append {ending ending' : Ending} {cuts cuts' : List Cut} (before : List Cut)
    (sheds : LevelsShed (levels ending cuts) (levels ending' cuts')) :
    LevelsShed (levels ending (before ++ cuts)) (levels ending' (before ++ cuts')) := by
  induction before with
  | nil => exact sheds
  | cons cut _ ih => exact ih.cons cut

section Balanced

variable (ending : Ending) (last : Chunk) (later : List Cut)

/-- Before a closing brace, delimiters no end of which opens more than it closes make as many levels as they
close blocks without opening them, and one more. -/
theorem levels_of_falling {inner : List Cut}
    (falls : ∀ front back, inner.map Cut.site = front ++ back → height back ≤ 0) :
    ∃ level shut, (shut.length : Int) = -height (inner.map Cut.site) ∧
      levels ending (inner ++ ⟨last, .closing⟩ :: later) =
        (level, shut ++ (levels ending later).1 :: (levels ending later).2) := by
  induction inner with
  | nil => exact ⟨closed last, [], rfl, rfl⟩
  | cons cut rest ih =>
    have behind : ∀ front back, rest.map Cut.site = front ++ back → height back ≤ 0 := by
      intro front back split
      exact falls (cut.site :: front) back (by rw [List.map_cons, split, List.cons_append])
    obtain ⟨level, shut, count, found⟩ := ih behind
    have whole := falls [] _ rfl
    obtain ⟨chunk, delimiter⟩ := cut
    simp only [List.map_cons, height_cons, Cut.site] at whole ⊢
    cases delimiter with
    | semicolon =>
      refine ⟨statement chunk level, shut, by simpa [Delimiter.rise] using count, ?_⟩
      simp only [List.cons_append, levels, found]
    | closing =>
      refine ⟨closed chunk, level :: shut, ?_, ?_⟩
      · simp only [Delimiter.rise, List.length_cons]
        omega
      · simp only [List.cons_append, levels, found]
    | opening =>
      -- The block opened here is closed among the rest, so that a level is left to follow it.
      cases shut with
      | nil =>
        simp only [Delimiter.rise, List.length_nil] at whole count
        omega
      | cons next shut =>
        refine ⟨nested chunk level next, shut, ?_, ?_⟩
        · simp only [Delimiter.rise, List.length_cons] at count ⊢
          omega
        · simp only [List.cons_append, levels, found]

/-- Balanced delimiters make one level with the brace that closes it. -/
theorem levels_of_balanced {inner : List Cut} (balanced : Balanced (inner.map Cut.site)) :
    ∃ body, levels ending (inner ++ ⟨last, .closing⟩ :: later) =
      (body, (levels ending later).1 :: (levels ending later).2) := by
  have falls : ∀ front back, inner.map Cut.site = front ++ back → height back ≤ 0 := by
    intro front back split
    have above := balanced.above front back split
    have level := balanced.level
    rw [split, height_append] at level
    omega
  obtain ⟨body, shut, count, found⟩ := levels_of_falling ending last later falls
  rw [balanced.level] at count
  obtain rfl : shut = [] := List.eq_nil_of_length_eq_zero (by omega)
  exact ⟨body, found⟩

end Balanced
end Outline

section Blanked

variable {text result : List Char}

/-- What stands before a brace, back to the structural delimiter before it or to the start of the text. -/
def headBefore (text : List Char) (brace : Nat) : Chunk :=
  let before := (structural text).takeWhile (·.1 < brace)
  let start := (before.getLast?.map (·.1 + 1)).getD 0
  ⟨(text.take brace).drop start, start⟩

/-- The text with spaces from an offset on, but for its line breaks. -/
def blankedFrom (start : Nat) (text : List Char) : List Char :=
  text.take start ++ (text.drop start).map Comment.blanked

/-- The text with spaces from one offset up to another, but for its line breaks. -/
def blankedBetween (start stop : Nat) (text : List Char) : List Char :=
  blankedFrom start (text.take stop) ++ text.drop stop

@[simp] theorem length_blankedFrom (start : Nat) (text : List Char) :
    (blankedFrom start text).length = text.length := by
  rw [blankedFrom, List.length_append, List.length_map, ← List.length_append, List.take_append_drop]

theorem blankedFrom_append (front : List Char) (start : Nat) (text : List Char) :
    blankedFrom (front.length + start) (front ++ text) = front ++ blankedFrom start text := by
  rw [blankedFrom, List.take_length_add_append, List.drop_length_add_append, List.append_assoc]
  rfl

theorem blankedBetween_append (above : List Char) (start : Nat) (block below : List Char) :
    blankedBetween (above.length + start) (above.length + block.length) (above ++ (block ++ below)) =
      above ++ (blankedFrom start block ++ below) := by
  rw [blankedBetween, List.take_length_add_append, List.take_left, List.drop_length_add_append,
    List.drop_left, blankedFrom_append, List.append_assoc]

theorem faded_blankedFrom (start : Nat) (text : List Char) :
    List.Forall₂ Comment.Faded text (blankedFrom start text) := by
  have joined := List.rel_append (Comment.faded_self (text.take start))
    (Comment.faded_map_blanked (text.drop start))
  simp only [List.take_append_drop] at joined
  exact joined

theorem faded_blankedBetween (start stop : Nat) (text : List Char) :
    List.Forall₂ Comment.Faded text (blankedBetween start stop text) := by
  have joined := List.rel_append (faded_blankedFrom start (text.take stop))
    (Comment.faded_self (text.drop stop))
  simp only [List.take_append_drop] at joined
  exact joined

theorem isBlank_blanked (c : Char) : Text.isBlank (Comment.blanked c) := by
  rcases Comment.blanked_eq c with same | same
  all_goals
    rw [same]
    decide

/-- The blanks that a text starts with are left, and what is behind them is made blank. -/
theorem isBlank_of_mem_blankedFrom {block : List Char} {start : Nat} (begun : text <+: block)
    (short : start ≤ Text.leadingBlanks text) : ∀ c ∈ blankedFrom start block, Text.isBlank c := by
  intro c member
  rcases List.mem_append.mp member with front | rest
  · have leading : text.takeWhile Text.isBlank <+: block := (List.takeWhile_prefix _).trans begun
    rw [List.prefix_iff_eq_take] at leading
    have inside : c ∈ text.takeWhile Text.isBlank := by
      rw [leading]
      exact List.take_subset_take_left block short front
    exact List.mem_takeWhile_imp inside
  · obtain ⟨d, _, rfl⟩ := List.mem_map.mp rest
    exact isBlank_blanked d

/-- Lines start where they did in a text of which line breaks stay. -/
theorem LineIndex.ofText_of_faded (faded : List.Forall₂ Comment.Faded text result) :
    ofText result = ofText text := by
  have starts (offset : Nat) : startsAfterBreaks (· == '\n') offset result =
      startsAfterBreaks (· == '\n') offset text := by
    induction faded generalizing offset with
    | nil => rfl
    | cons here _ ih => simp only [startsAfterBreaks, here.beq_break, ih]
  rw [ofText, ofText, starts]

end Blanked

/-- A text with matching braces: what stands `above` the head of a block, the head with the `block`, and what
stands `below` its closing brace. Whatever follows the first of these, it is cut as it is here, and the last is
cut as a text of its own. -/
structure BracedText where
  above : List Char
  block : List Char
  below : List Char
  before : List Cut
  head : Chunk
  inner : List Cut
  final : Chunk
  rest : Cuts
  start : (before.getLast?.map (·.chunk.stop + 1)).getD 0 = above.length
  offset : head.offset = above.length
  begun : head.text <+: block
  stop : final.stop + 1 = above.length + block.length
  balanced : Balanced (inner.map Cut.site)
  goes : ∀ more, cuts 0 (above ++ more) =
    ⟨before ++ (cuts above.length more).cuts, (cuts above.length more).ending⟩
  within : cuts above.length (block ++ below) =
    ⟨⟨head, .opening⟩ :: (inner ++ ⟨final, .closing⟩ :: rest.cuts), rest.ending⟩
  after : cuts (above.length + block.length) below = rest

/-- The cuts at matching braces and between them. -/
theorem exists_cuts_of_matching {text : List Char} {first last : Nat}
    (braces : Matching (structural text) first last) :
    ∃ before head inner final after, head.stop = first ∧ final.stop = last ∧
      Balanced (inner.map Cut.site) ∧
      (cuts 0 text).cuts = before ++ ⟨head, .opening⟩ :: (inner ++ ⟨final, .closing⟩ :: after) := by
  obtain ⟨front, within, back, split, balanced⟩ := braces
  rw [← sites_cuts] at split
  obtain ⟨before, rest, made, _, opened⟩ := List.map_eq_append_iff.mp split
  obtain ⟨⟨head, one⟩, rest, rfl, here, enclosed⟩ := List.map_eq_cons_iff.mp opened
  obtain ⟨inner, rest, rfl, rfl, closed⟩ := List.map_eq_append_iff.mp enclosed
  obtain ⟨⟨final, other⟩, after, rfl, there, _⟩ := List.map_eq_cons_iff.mp closed
  cases here
  cases there
  exact ⟨before, head, inner, final, after, rfl, rfl, balanced, made⟩

namespace BracedText

def text (braced : BracedText) : List Char :=
  braced.above ++ (braced.block ++ braced.below)

theorem exists_of_matching {text : List Char} {first last : Nat}
    (braces : Matching (structural text) first last) :
    ∃ braced : BracedText, braced.text = text ∧ braced.head.stop = first ∧
      braced.final.stop = last := by
  obtain ⟨before, head, inner, final, after, rfl, rfl, balanced, made⟩ := exists_cuts_of_matching braces
  obtain ⟨above, rest, rfl, start, goes⟩ := cuts_split made
  rw [Nat.zero_add] at start goes
  have own := congrArg Cuts.cuts (goes rest)
  rw [made] at own
  have own : (cuts above.length rest).cuts =
      (⟨head, .opening⟩ :: inner ++ [⟨final, .closing⟩]) ++ after := by
    simpa using (List.append_cancel_left own).symm
  obtain ⟨block, below, rfl, stop, resumes⟩ := cuts_split own
  rw [List.getLast?_concat] at stop
  have stop : final.stop + 1 = above.length + block.length := stop
  have tiling : Tiling (above ++ (block ++ below)) (cuts above.length (block ++ below)).ending
      above.length (cuts above.length (block ++ below)).cuts := tiling_cutsFrom (by simp)
  rw [own] at tiling
  obtain ⟨offset, ends⟩ := tiling.first
  have offset : head.offset = above.length := offset
  have stands := ends.stands
  rw [offset, List.drop_left] at stands
  -- The opening brace is cut before the closing one, so that the head is all within the block.
  have order : head.stop < final.stop := by
    have ascending := tiling.ascending.2
    rw [List.cons_append, List.cons_append, List.map_cons, List.pairwise_cons] at ascending
    exact ascending.1 (Cut.site ⟨final, .closing⟩) (by simp)
  have size : head.text.length ≤ block.length := by
    unfold Chunk.stop at order stop
    omega
  have begun := List.prefix_of_prefix_length_le stands (List.prefix_append block below) size
  have within := resumes below
  simp only [List.cons_append, List.append_assoc] at within
  exact ⟨{ above, block, below, before, head, inner, final, rest := _, start, offset, begun, stop, balanced,
           goes, within, after := rfl }, rfl, rfl, rfl⟩

variable (braced : BracedText)

theorem headBefore_eq : headBefore braced.text braced.head.stop = braced.head := by
  have made : (cuts 0 braced.text).cuts = braced.before ++ ⟨braced.head, .opening⟩ ::
      (braced.inner ++ ⟨braced.final, .closing⟩ :: braced.rest.cuts) := by
    rw [text, braced.goes, braced.within]
  have order := (tiling_cuts braced.text).ascending.2
  have sites := sites_cuts braced.text
  rw [made, List.map_append, List.map_cons] at order sites
  have earlier : ∀ site ∈ braced.before.map Cut.site,
      decide (site.1 < braced.head.stop) = true := by
    intro site member
    exact decide_eq_true ((List.pairwise_append.mp order).2.2 site member _ List.mem_cons_self)
  have opening : (structural braced.text).takeWhile (·.1 < braced.head.stop) =
      braced.before.map Cut.site := by
    rw [← sites, List.takeWhile_append_of_pos earlier]
    simp [Cut.site]
  have start : ((braced.before.map Cut.site).getLast?.map (·.1 + 1)).getD 0 =
      braced.head.offset := by
    rw [List.getLast?_map, Option.map_map, braced.offset, ← braced.start]
    rfl
  have stands : (braced.text.take braced.head.stop).drop braced.head.offset =
      braced.head.text := by
    have begun := braced.begun.trans (List.prefix_append _ braced.below)
    rw [List.drop_take, Chunk.stop, Nat.add_sub_cancel_left, braced.offset, text, List.drop_left]
    exact (List.prefix_iff_eq_take.mp begun).symm
  simp only [headBefore, opening, start, stands]

theorem tiles_below : (Outline.levels braced.rest.ending braced.rest.cuts).1.Tiles braced.text
    (braced.above.length + braced.block.length) := by
  have placed : braced.text.drop (braced.above.length + braced.block.length) =
      ([] : List Char).reverse ++ braced.below := by
    rw [text, List.drop_length_add_append, List.drop_left]
    rfl
  have tiling : Tiling braced.text braced.rest.ending (braced.above.length + braced.block.length)
      braced.rest.cuts := by
    rw [← braced.after]
    exact tiling_cutsFrom placed
  obtain _ | ⟨tiles, _⟩ := Outline.chain_levels tiling
  exact tiles

/-- Blanks in the place of a group of nested properties leave it out of the levels of the text. -/
theorem shed {blanks : List Char} (left : braced.head.trim.isGroupHead)
    (blank : ∀ c ∈ blanks, Text.isBlank c) (size : blanks.length = braced.block.length) :
    Outline.LevelsShed (Outline.levels (cuts 0 braced.text).ending (cuts 0 braced.text).cuts)
      (Outline.levels (cuts 0 (braced.above ++ (blanks ++ braced.below))).ending
        (cuts 0 (braced.above ++ (blanks ++ braced.below))).cuts) := by
  have fits : blanks.length ≤ braced.above.length + braced.block.length := by
    rw [size]
    exact Nat.le_add_left _ _
  have same (brace? : Option Nat) := Outline.read_behind blank braced.tiles_below fits brace?
  obtain ⟨body, found⟩ :=
    Outline.levels_of_balanced braced.rest.ending braced.final braced.rest.cuts braced.balanced
  rw [text, braced.goes, braced.goes, braced.within, cuts_of_blanks blank, size, braced.after]
  apply Outline.LevelsShed.append
  rw [Outline.levels_behind]
  simp only [Outline.levels, found]
  exact .first (.group left same)

end BracedText

/-- A text that is read is read to the same tree with blanks for a group of nested properties. -/
theorem read_of_group {text : List Char} {placed : Node Nat} {first last start : Nat}
    (accepted : (readSheet text).result = .ok placed) (braces : Matching (structural text) first last)
    (left : (headBefore text first).trim.isGroupHead) (behind : (headBefore text first).offset ≤ start)
    (within : start ≤ (headBefore text first).trim.offset) :
    (readSheet (blankedBetween start (last + 1) text)).result = .ok placed := by
  obtain ⟨braced, rfl, rfl, rfl⟩ := BracedText.exists_of_matching braces
  rw [braced.headBefore_eq] at left behind within
  change start ≤ braced.head.offset + Text.leadingBlanks braced.head.text at within
  rw [braced.offset] at behind within
  obtain ⟨length, rfl⟩ := Nat.exists_eq_add_of_le behind
  have short : length ≤ Text.leadingBlanks braced.head.text := Nat.le_of_add_le_add_left within
  have shed := braced.shed left (isBlank_of_mem_blankedFrom braced.begun short)
    (length_blankedFrom _ _)
  obtain ⟨statements, read, made⟩ := Traced.result_bind_eq_ok.mp accepted
  rw [braced.stop, BracedText.text, blankedBetween_append]
  exact Traced.result_bind_eq_ok.mpr ⟨statements, shed.read read, made⟩

/-- A text that is scanned to a tree is scanned to that tree, every node at its place, when a group of nested
properties in it is blanked: from where its head starts, or from within the blanks before the head, up to its
closing brace and with it. -/
theorem group_leaves_no_trace {text : List Char} {tree : Node Position} {first last start : Nat}
    (accepted : scan text = .ok tree) (braces : Matching (structural text) first last)
    (ends : (headBefore text first).trim.text.getLast? = some ':')
    (plain : (headBefore text first).trim.text.head? ≠ some '@')
    (behind : (headBefore text first).offset ≤ start)
    (within : start ≤ (headBefore text first).trim.offset) :
    scan (blankedBetween start (last + 1) text) = .ok tree := by
  have left : (headBefore text first).trim.isGroupHead := by
    simp [Chunk.isGroupHead, ends, plain]
  obtain ⟨placed, read, rfl⟩ := scan_eq_ok.mp accepted
  refine scan_eq_ok.mpr ⟨placed, read_of_group read braces left behind within, ?_⟩
  rw [LineIndex.ofText_of_faded (faded_blankedBetween start (last + 1) text)]

/-- A group of nested properties on the second line, before a declaration that keeps its place there. -/
theorem group_leaves_no_trace_of_font : ∃ tree, scan "a\x7b\n font:\x7bb:c;\x7dd:e\x7d".toList = .ok tree ∧
    scan (blankedBetween 4 15 "a\x7b\n font:\x7bb:c;\x7dd:e\x7d".toList) = .ok tree := by
  have accepted : scan "a\x7b\n font:\x7bb:c;\x7dd:e\x7d".toList = .ok (.stylesheet
      [.ruleset [.selector [.leaf (.simple .type "a") ⟨1, 1⟩] "a" ⟨1, 1⟩]
        (.block [.declaration "d" (.value [.leaf (.ident "e") ⟨2, 15⟩] ⟨2, 15⟩) ⟨2, 13⟩] ⟨1, 2⟩) ⟨1, 1⟩]
      ⟨1, 1⟩) := by rfl
  have braces : Matching (structural "a\x7b\n font:\x7bb:c;\x7dd:e\x7d".toList) 9 14 :=
    ⟨[(1, .opening)], [(13, .semicolon)], [(18, .closing)], by decide, .semicolon 13 .nil⟩
  exact ⟨_, accepted, group_leaves_no_trace accepted braces (by decide) (by decide) (by decide) (by decide)⟩

end SheetLint
