import SheetLint.Proofs.Cutting
import SheetLint.Proofs.Enclosing
import SheetLint.Proofs.Place
import SheetLint.Proofs.Starts

/-! A text that ends with a statement, and another text after it: nothing of the first one is left open
for the second, so that the two are read one after the other. -/
namespace SheetLint

variable {text : List Char} {length : Nat}

/-- The last character of a text is a semicolon or a brace outside strings, interpolation and
parentheses. In a text that is accepted the brace is a closing one. -/
def EndsStatement (text : List Char) : Prop := ∃ site ∈ structural text, site.1 + 1 = text.length

instance (text : List Char) : Decidable (EndsStatement text) :=
  inferInstanceAs (Decidable (∃ site ∈ structural text, site.1 + 1 = text.length))

section Pass

variable (more : List Char)

theorem Extent.through_append {stop : Char} (found : through stop text = some length) :
    through stop (text ++ more) = some length := by
  have within := (proper_through stop).bounded text length found
  rw [← List.append_nil text] at found
  exact through_replace more found within

/-- A pass that comes to an end just after a delimiter goes on with more text as it starts. -/
theorem cuts_append {found : List Cut} {stop : Nat} (finished : cuts 0 text = ⟨found, .complete ⟨[], stop⟩⟩) :
    cuts 0 (text ++ more) = ⟨found ++ (cuts stop more).cuts, (cuts stop more).ending⟩ := by
  have made : (cuts 0 text).cuts = found ++ [] := by rw [finished, List.append_nil]
  obtain ⟨front, back, rfl, _, goes⟩ := cuts_split made
  have own := goes back
  rw [finished, Cuts.mk.injEq, List.self_eq_append_right] at own
  have tiling : Tiling (front ++ back) (cuts (0 + front.length) back).ending (0 + front.length)
      (cuts (0 + front.length) back).cuts := tiling_cutsFrom (by simp)
  rw [own.1, ← own.2] at tiling
  -- Behind the last cut the pass finds nothing more, so that nothing is left there.
  obtain ⟨rfl, rfl⟩ : back = [] ∧ 0 + front.length = stop := by
    generalize place : 0 + front.length = start at tiling
    cases tiling with
    | last final whole =>
      cases final
      rw [← place, Nat.zero_add, List.drop_left] at whole
      exact ⟨whole, rfl⟩
    | broken final => cases final
  rw [List.append_nil, goes]

/-- A pass over a text whose last character is a delimiter ends just after it. -/
theorem ending_of_last_site {start depth pending : Nat} {taken rest : List Char} {site : Site}
    (member : site ∈ structuralFrom (start + taken.length) depth pending rest)
    (last : site.1 + 1 = start + taken.length + rest.length) :
    (cutsFrom start taken depth pending rest).ending = .complete ⟨[], site.1 + 1⟩ := by
  induction rest generalizing start taken depth pending with
  | nil => cases member
  | cons c rest ih =>
    rw [List.length_cons] at last
    cases step_cutsFrom start taken depth pending c rest with
    | next depth' pending' cuts sites =>
      rw [sites] at member
      rw [cuts]
      apply ih member
      rw [List.length_cons]
      omega
    | broken failure cuts sites =>
      rw [sites] at member
      cases member
    | cut delimiter found cuts sites =>
      rw [sites] at member
      rw [cuts]
      rcases List.mem_cons.mp member with rfl | later
      · have none : rest = [] := List.eq_nil_of_length_eq_zero (by omega)
        rw [none]
        rfl
      · apply ih later
        rw [List.length_nil]
        omega

theorem ending_of_endsStatement (ended : EndsStatement text) :
    (cuts 0 text).ending = .complete ⟨[], text.length⟩ := by
  obtain ⟨site, member, last⟩ := ended
  have member : site ∈ structuralFrom (0 + ([] : List Char).length) 0 0 text := member
  rw [← last]
  exact ending_of_last_site member (by simp [last])

end Pass

namespace Outline

/-- The cuts of a level and of the blocks within it. -/
def flat : Outline → List Cut
  | complete _ | broken _ => []
  | closed chunk => [⟨chunk, .closing⟩]
  | statement chunk next => ⟨chunk, .semicolon⟩ :: next.flat
  | nested head body next => ⟨head, .opening⟩ :: (body.flat ++ next.flat)
  | unclosed head body => ⟨head, .opening⟩ :: body.flat

/-- Levels are made of all cuts, each of them once. -/
theorem flat_levels (ending : Ending) (cuts : List Cut) :
    (levels ending cuts).1.flat ++ (levels ending cuts).2.flatMap flat = cuts := by
  induction cuts with
  | nil => cases ending <;> rfl
  | cons cut rest ih =>
    obtain ⟨chunk, delimiter⟩ := cut
    cases found : levels ending rest with
    | mk level outer =>
    rw [found] at ih
    cases delimiter with
    | semicolon | closing => simp [levels, found, flat, ih]
    | opening =>
      cases outer with
      | nil => simpa [levels, found, flat] using ih
      | cons next outer => simpa [levels, found, flat] using ih

/-- A level with other statements in the place of its last chunk. -/
def followedBy (outline later : Outline) : Outline :=
  match outline with
  | complete _ => later
  | broken failure => broken failure
  | closed chunk => closed chunk
  | statement chunk next => statement chunk (next.followedBy later)
  | nested head body next => nested head body (next.followedBy later)
  | unclosed head body => unclosed head body

namespace Whole

variable {outline : Outline} {start : Nat} (ending : Ending) (later : List Cut)

/-- Cuts after those of a level that is closed belong to the levels around it. -/
theorem levels_of_isClosed (whole : outline.Whole start) (shut : outline.isClosed) :
    levels ending (outline.flat ++ later) =
      (outline, (levels ending later).1 :: (levels ending later).2) := by
  induction whole generalizing later with
  | complete => cases shut
  | closed chunk => rfl
  | statement rest ih =>
    rw [flat, List.cons_append, levels, ih later shut]
  | @nested head body next inner _ rest ih ihNext =>
    rw [flat, List.cons_append, List.append_assoc, levels, ih _ inner, ihNext later shut]

/-- Cuts after those of a level that is left open go on with it. -/
theorem levels_of_open (whole : outline.Whole start) (left : outline.isClosed = false) :
    levels ending (outline.flat ++ later) =
      (outline.followedBy (levels ending later).1, (levels ending later).2) := by
  induction whole generalizing later with
  | complete chunk => rfl
  | closed => cases left
  | statement rest ih =>
    rw [flat, List.cons_append, levels, ih later left]
    rfl
  | @nested head body next inner within rest ih ihNext =>
    rw [flat, List.cons_append, List.append_assoc, levels, within.levels_of_isClosed _ _ inner,
      ihNext later left]
    rfl

/-- A level is read, and then what follows it. -/
theorem read_followedBy (whole : outline.Whole start) (left : outline.isClosed = false)
    (later : Outline) (stop : Nat) :
    (outline.followedBy later).read none = do
      let before ← (outline.followedBy (.complete ⟨[], stop⟩)).read none
      let after ← later.read none
      return before ++ after := by
  induction whole with
  | complete chunk =>
    have none : (Outline.complete ⟨[], stop⟩).read none = pure [] := rfl
    simp only [followedBy, none, pure_bind, List.nil_append, bind_pure]
  | closed => cases left
  | statement rest ih =>
    simp only [followedBy, read, bind_assoc, pure_bind, List.append_assoc, ih left]
  | nested shut inner rest ih ihNext =>
    simp only [followedBy, read, bind_assoc, pure_bind, List.append_assoc, ihNext left]

end Whole

section Join

variable {first : List Char} (second : List Char)

/-- Behind a text that ends with a statement, a text goes on with the level of the first. -/
theorem ofText_append {start : Nat} (whole : (ofText 0 first).Whole start)
    (left : (ofText 0 first).isClosed = false) (ended : EndsStatement first) :
    ofText 0 (first ++ second) = (ofText 0 first).followedBy (ofText first.length second) := by
  have flat := flat_levels (cuts 0 first).ending (cuts 0 first).cuts
  rw [levels_snd_eq_nil left, List.flatMap_nil, List.append_nil] at flat
  have joined : cuts 0 (first ++ second) = ⟨(cuts 0 first).cuts ++ (cuts first.length second).cuts,
      (cuts first.length second).ending⟩ :=
    cuts_append second (congrArg (Cuts.mk _) (ending_of_endsStatement ended))
  have further := whole.levels_of_open (cuts first.length second).ending
    (cuts first.length second).cuts left
  change levels _ ((levels _ _).1.flat ++ _) = _ at further
  rw [flat] at further
  rw [ofText, joined, further]
  rfl

/-- With nothing behind it, a text is followed by what is left after its last statement. -/
theorem ofText_followedBy {start : Nat} (whole : (ofText 0 first).Whole start)
    (left : (ofText 0 first).isClosed = false) (ended : EndsStatement first) :
    (ofText 0 first).followedBy (.complete ⟨[], first.length⟩) = ofText 0 first := by
  have joined := ofText_append [] whole left ended
  rw [List.append_nil] at joined
  exact joined.symm

theorem read_ofText_append {start : Nat} (whole : (ofText 0 first).Whole start)
    (left : (ofText 0 first).isClosed = false) (ended : EndsStatement first) :
    (ofText 0 (first ++ second)).read none = do
      let before ← (ofText 0 first).read none
      let after ← ((ofText 0 second).read none).moved first.length
        (List.map (Node.map (first.length + ·)))
      return before ++ after := by
  have moved := read_moved first.length none (ofText 0 second)
  rw [← ofText_moved, Nat.add_zero, Option.map_none] at moved
  rw [ofText_append second whole left ended, whole.read_followedBy left _ first.length,
    ofText_followedBy whole left ended, moved]

end Join
end Outline

/-- A text behind one that ends with a statement is read as it is by itself, further on. -/
theorem readSheet_append {first : List Char} {sheet : Node Nat} (second : List Char)
    (accepted : (readSheet first).result = .ok sheet) (ended : EndsStatement first) :
    (readSheet (first ++ second)).result =
      (fun later : Node Nat => .stylesheet
          (sheet.children ++ later.children.map (Node.map (first.length + ·))) 0) <$>
        (readSheet second).result.mapError (Failure.moved first.length) := by
  obtain ⟨statements, rfl, reads⟩ := reads_of_readSheet accepted
  obtain ⟨whole, left⟩ := Outline.whole_of_reads reads (Outline.tiles_ofText first)
  obtain ⟨before, read, same⟩ := Traced.result_bind_eq_ok.mp accepted
  cases same
  simp only [readSheet, Outline.read_ofText_append second whole left ended, Traced.result_bind, read]
  simp only [Traced.moved, Traced.result_map, Traced.result_mapError]
  cases ((Outline.ofText 0 second).read none).result with
  | error failure => rfl
  | ok later => rfl

/-- The place that an offset of a text has behind another text. -/
def placeBehind (first second : List Char) (offset : Nat) : Position :=
  (LineIndex.ofText (first ++ second)).locate (first.length + offset)

theorem map_placeBehind (first second : List Char) (node : Node Nat) :
    (node.map (first.length + ·)).map (LineIndex.ofText (first ++ second)).locate =
      node.map (placeBehind first second) :=
  Node.map_map _ _ node

/-- A text is scanned behind another one, whose tree is given, as it is by itself. Its statements come
after those of the tree, and they and a fault stand at the places of their offsets in the whole text. -/
structure ScannedBehind (first second : List Char) (sheet : Node Position) : Prop where
  succeeds : (∃ tree, scan (first ++ second) = .ok tree) ↔ ∃ tree, scan second = .ok tree
  children : ∀ later, (readSheet second).result = .ok later →
    scan second = .ok (later.map (LineIndex.ofText second).locate) ∧
      scan (first ++ second) = .ok (.stylesheet
        (sheet.children ++ later.children.map (Node.map (placeBehind first second))) ⟨1, 1⟩)
  fault : ∀ failure, (readSheet second).result = .error failure →
    scan second = .error (failure.locate (LineIndex.ofText second)) ∧
      scan (first ++ second) = .error (.at failure.fault (placeBehind first second failure.offset))

/-- Nothing of a text that ends with a statement is left open for the text behind it. -/
theorem scan_append {first : List Char} {sheet : Node Position} (accepted : scan first = .ok sheet)
    (ended : EndsStatement first) (second : List Char) : ScannedBehind first second sheet := by
  obtain ⟨placed, read, rfl⟩ := scan_eq_ok.mp accepted
  have kept : ∀ node ∈ placed.children, node.map (LineIndex.ofText (first ++ second)).locate =
      node.map (LineIndex.ofText first).locate :=
    Node.map_congr_walkFrom fun node member start found =>
      LineIndex.locate_ofText_append first second (startBy_of_readSheet read node member start found)
  have joined := readSheet_append second read ended
  cases after : (readSheet second).result with
  | error failure =>
    rw [after] at joined
    have single := scan_of_failure after
    have whole : scan (first ++ second) = .error (.at failure.fault
        (placeBehind first second failure.offset)) := scan_of_failure joined
    refine ⟨by simp [single, whole], ?_, ?_⟩
    · intro later found
      rw [after] at found
      cases found
    · intro other found
      rw [after] at found
      cases found
      exact ⟨single, whole⟩
  | ok later =>
    rw [after] at joined
    have single := scan_of_read after
    have whole : scan (first ++ second) = .ok (.stylesheet
        ((placed.map (LineIndex.ofText first).locate).children ++
          later.children.map (Node.map (placeBehind first second))) ⟨1, 1⟩) := by
      rw [scan_of_read joined, Node.children_map, ← List.map_congr_left kept]
      simp [Node.map, map_placeBehind, LineIndex.locate_zero]
    refine ⟨by simp [single, whole], ?_, ?_⟩
    · intro other found
      rw [after] at found
      cases found
      exact ⟨single, whole⟩
    · intro failure found
      rw [after] at found
      cases found

/-- Behind a block that the last brace closes: a block with a block in it, and a block left open, which is
reported at the place of its brace. -/
theorem scan_append_of_block :
    ∃ sheet, scan "a\x7bb:c\x7d".toList = .ok sheet ∧ EndsStatement "a\x7bb:c\x7d".toList ∧
      ScannedBehind "a\x7bb:c\x7d".toList "\nd\x7be\x7bf:g;\x7d\x7d".toList sheet ∧
      scan ("a\x7bb:c\x7d".toList ++ "\nd\x7b".toList) = .error (.at .openBlock ⟨2, 2⟩) := by
  have accepted : scan "a\x7bb:c\x7d".toList = .ok (.stylesheet
      [.ruleset [.selector [.leaf (.simple .type "a") ⟨1, 1⟩] "a" ⟨1, 1⟩]
        (.block [.declaration "b" (.value [.leaf (.ident "c") ⟨1, 5⟩] ⟨1, 5⟩) ⟨1, 3⟩] ⟨1, 2⟩) ⟨1, 1⟩]
      ⟨1, 1⟩) := by rfl
  have ended : EndsStatement "a\x7bb:c\x7d".toList := by decide
  have unclosed : (readSheet "\nd\x7b".toList).result = .error ⟨.openBlock, 2⟩ := by rfl
  exact ⟨_, accepted, ended, scan_append accepted ended _,
    ((scan_append accepted ended _).fault _ unclosed).2⟩

end SheetLint
