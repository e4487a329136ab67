import SheetLint.Proofs.Reading
import SheetLint.Proofs.SelectorReading
import SheetLint.Proofs.Tiling
import SheetLint.Proofs.ValueReading

/-! The statements of a stylesheet are laid out in its text: a block between its braces, everything else
where the chunk that it is read from stands. -/
namespace SheetLint

open Node (marks)

variable {text : List Char}

theorem laid_of_readValue {piece : List Char} {offset : Nat} {node : Node Nat}
    (stands : piece <+: text.drop offset) (read : readValue piece offset = .ok node) :
    Laid text offset (offset + piece.length) [node] ∧ node.isKind .value := by
  unfold readValue at read
  split at read
  · rename_i value found
    cases read
    obtain ⟨parts, rfl, assembled⟩ := Value.read_eq_ok.mp found
    exact ⟨(Value.laid_of_assemble assembled).value.shift stands, rfl⟩
  · cases read

theorem isPart_of_readSelectors {piece : List Char} {offset : Nat} {nodes : List (Node Nat)}
    (read : readSelectors piece offset = .ok nodes) {mark : Node.Kind × Nat}
    (member : mark ∈ marks nodes) : Selector.isPart mark.1 := by
  unfold readSelectors at read
  split at read
  · rename_i selectors found
    cases read
    rw [Node.marks_map, List.mem_map] at member
    obtain ⟨inner, present, rfl⟩ := member
    exact (Selector.laid_of_read found).2.1 inner present
  · cases read

/-- The selectors before a block. The first of them starts their text. -/
theorem laid_of_readSelectors {c : Char} {rest : List Char} {offset : Nat} {nodes : List (Node Nat)}
    (stands : c :: rest <+: text.drop offset) (visible : Text.isBlank c = false)
    (read : readSelectors (c :: rest) offset = .ok nodes) :
    Laid text offset (offset + (c :: rest).length) nodes ∧ (∀ node ∈ nodes, node.isKind .selector) ∧
      ∃ piece ∈ nodes.head?.bind Node.selectorText?, piece.toList <+: text.drop offset := by
  unfold readSelectors at read
  split at read
  · rename_i selectors found
    cases read
    obtain ⟨laid, _, kinds⟩ := Selector.laid_of_read found
    have apart : isSeparator c = false := by
      by_contra separates
      rw [Text.isBlank_of_isSeparator (by simpa using separates)] at visible
      cases visible
    obtain ⟨first, others, piece, rfl, shown, begun⟩ := Selector.head_of_read apart found
    refine ⟨laid.shift stands, ?_, piece, ?_, begun.trans stands⟩
    · intro node member
      obtain ⟨inner, present, rfl⟩ := List.mem_map.mp member
      rw [Node.isKind_map]
      exact kinds inner present
    · simp [Node.selectorText?_map, shown]
  · cases read

namespace Chunk

variable {chunk : Chunk}

theorem offset_lt_stop (filled : chunk.text ≠ []) : chunk.offset < chunk.stop :=
  Nat.lt_add_of_pos_right (List.length_pos_of_ne_nil filled)

theorem laid_of_declaration {property rest : List Char} {value : Node Nat}
    (stands : chunk.text <+: text.drop chunk.offset) (split : chunk.text = property ++ ':' :: rest)
    (named : ':' ∉ property)
    (read : readValue rest (chunk.offset + (property.length + 1)) = .ok value) :
    Laid text chunk.offset chunk.stop
      [.declaration (String.ofList (Text.lower (Text.trim property))) value chunk.offset] := by
  have size : chunk.offset + (property.length + 1) + rest.length = chunk.stop := by
    rw [Chunk.stop, split, List.length_append, List.length_cons]
    omega
  have placed : rest <+: text.drop (chunk.offset + (property.length + 1)) := by
    have past : chunk.text.drop (property.length + 1) = rest := by
      rw [split, List.append_cons, List.drop_left' (by simp)]
    rw [← List.drop_drop, ← past]
    exact List.IsPrefix.drop stands _
  obtain ⟨laid, kind⟩ := laid_of_readValue placed read
  rw [size] at laid
  have lexeme : property ++ [':'] <+: text.drop chunk.offset := by
    refine List.IsPrefix.trans ⟨rest, ?_⟩ stands
    rw [split, List.append_assoc, List.singleton_append]
  exact Laid.node_of_lt rfl (by omega) kind
    ⟨property ++ [':'], ⟨property, rfl, named, by simp⟩, lexeme⟩
    (laid.widen (by omega) (Nat.le_refl _))

/-- A chunk that an at-rule is read from starts with its sign and its name. -/
theorem lexeme_of_atWords {name words : String} (stands : chunk.text <+: text.drop chunk.offset)
    (begun : atWords? chunk.text = some (name, words)) :
    chunk.offset < chunk.stop ∧
      ∃ piece, (∃ word, piece = '@' :: word ∧ Text.lower word = name.toList) ∧
        piece <+: text.drop chunk.offset := by
  obtain ⟨word, others, same, lower⟩ := atWords?_eq_some begun
  refine ⟨offset_lt_stop (by simp [same]), '@' :: word, ⟨word, rfl, lower⟩, ?_⟩
  rw [same] at stands
  exact (List.prefix_append ('@' :: word) others).trans stands

/-- A statement without a block is laid out in its chunk. -/
theorem laid_of_plain {found : Option (Node Nat)} (stands : chunk.text <+: text.drop chunk.offset)
    (read : chunk.Plain found) : Laid text chunk.offset chunk.stop found.toList := by
  cases read with
  | empty => exact Laid.nil
  | directive begun =>
    obtain ⟨forward, lexeme⟩ := lexeme_of_atWords stands begun
    exact Laid.node rfl forward trivial lexeme Laid.nil (by simp [Node.children, marks])
  | declaration split named value => exact laid_of_declaration stands split named value

/-- A statement with a block reaches from its head to the end of the block. -/
theorem laid_of_blocked {brace high : Nat} {block : Node Nat} {found : Option (Node Nat)}
    (stands : chunk.text <+: text.drop chunk.offset) (before : chunk.stop ≤ brace)
    (visible : ∀ c rest, chunk.text = c :: rest → Text.isBlank c = false)
    (inner : Laid text brace high [block]) (kind : block.isKind .block) (inside : brace < high)
    (read : chunk.Blocked block found) : Laid text chunk.offset high found.toList := by
  cases read with
  | group => exact Laid.nil
  | atRule begun =>
    obtain ⟨forward, lexeme⟩ := lexeme_of_atWords stands begun
    exact Laid.node_of_lt rfl (by omega) kind lexeme (inner.widen (by omega) (Nat.le_refl _))
  | @ruleset selectors filled _ listed =>
    have forward := offset_lt_stop filled
    obtain ⟨c, rest, begins⟩ := List.exists_cons_of_ne_nil filled
    rw [begins] at listed stands
    obtain ⟨laid, kinds, piece, shown, begun⟩ :=
      laid_of_readSelectors stands (visible c rest begins) listed
    have stop : chunk.offset + (c :: rest).length = chunk.stop := by rw [Chunk.stop, begins]
    rw [stop] at laid
    have apart : (.ruleset, chunk.offset) ∉ marks (selectors ++ [block]) := by
      intro member
      rw [Node.marks_append, List.mem_append] at member
      rcases member with above | below
      · exact Bool.noConfusion (isPart_of_readSelectors listed above)
      · have bound := (inner.bounds below).1
        simp only at bound
        omega
    exact Laid.node rfl (by omega) ⟨kinds, kind⟩ ⟨piece.toList, ⟨piece, shown, rfl⟩, begun⟩
      (laid.append (inner.widen before (Nat.le_refl _)) (by omega) (by omega)) apart

end Chunk
namespace Outline

/-- Trees laid out from an offset of a text up to a later one. -/
structure Filled (text : List Char) (start stop : Nat) (nodes : List (Node Nat)) : Prop where
  laid : Laid text start stop nodes
  forward : start ≤ stop
  within : stop ≤ text.length

theorem Filled.append {start mid stop : Nat} {nodes others : List (Node Nat)}
    (first : Filled text start mid nodes) (second : Filled text mid stop others) :
    Filled text start stop (nodes ++ others) :=
  ⟨first.laid.append second.laid first.forward second.forward,
    Nat.le_trans first.forward second.forward, second.within⟩

theorem filled_of_plain {chunk : Chunk} {stop : Nat} {found : Option (Node Nat)}
    (stands : chunk.text <+: text.drop chunk.offset) (read : chunk.trim.Plain found)
    (after : chunk.stop ≤ stop) (within : stop ≤ text.length) :
    Filled text chunk.offset stop found.toList := by
  have laid := Chunk.laid_of_plain (Chunk.trim_prefix stands) read
  have forward : chunk.offset ≤ chunk.stop := Nat.le_add_right _ _
  have inner := Nat.le_trans chunk.trim_stop_le after
  exact ⟨laid.widen chunk.offset_le_trim inner, Nat.le_trans forward after, within⟩

theorem filled_of_blocked {head : Chunk} {stop : Nat} {children : List (Node Nat)}
    {found : Option (Node Nat)} (ends : head.EndsIn text '\x7b')
    (inner : Filled text (head.stop + 1) stop children)
    (read : head.trim.Blocked (.block children head.stop) found) :
    Filled text head.offset stop found.toList := by
  have forward : head.offset ≤ head.stop := Nat.le_add_right _ _
  have inside : head.stop < stop := inner.forward
  have block : Laid text head.stop stop [.block children head.stop] :=
    Laid.node_of_lt rfl inside trivial ⟨_, rfl, ends.char_prefix⟩ inner.laid
  have visible (c : Char) (rest : List Char) (begun : head.trim.text = c :: rest) :
      Text.isBlank c = false := Text.visible_head_trim begun
  have laid := Chunk.laid_of_blocked (Chunk.trim_prefix ends.stands) head.trim_stop_le visible block
    rfl inside read
  exact ⟨laid.widen head.offset_le_trim (Nat.le_refl _), by omega, inner.within⟩

/-- What is read from a level fills the text that the level is laid over. -/
theorem filled_of_reads {outline : Outline} {start : Nat} {brace? : Option Nat}
    {nodes : List (Node Nat)} (reads : outline.Reads brace? nodes) (tiles : outline.Tiles text start)
    (bound : start ≤ text.length) : Filled text start outline.stop nodes := by
  induction reads generalizing start with
  | @complete chunk last found =>
    obtain ⟨whole⟩ := tiles
    have stands : chunk.text <+: text.drop chunk.offset := by rw [whole]
    apply filled_of_plain stands found (Nat.le_refl _)
    change chunk.offset + chunk.text.length ≤ text.length
    rw [← whole, List.length_drop]
    omega
  | closed found =>
    obtain _ | _ | ⟨ends⟩ := tiles
    exact filled_of_plain ends.stands found (Nat.le_succ _) ends.stop_lt
  | statement found _ ih =>
    obtain _ | _ | _ | ⟨ends, rest⟩ := tiles
    exact (filled_of_plain ends.stands found (Nat.le_succ _) ends.stop_lt).append
      (ih rest ends.stop_lt)
  | nested _ found _ ih ihNext =>
    obtain _ | _ | _ | _ | ⟨ends, body, rest⟩ := tiles
    have inner := ih body ends.stop_lt
    exact (filled_of_blocked ends inner found).append (ihNext rest inner.within)

end Outline

/-- The statements of a stylesheet are laid out in its text. -/
theorem laid_of_readSheet {tree : Node Nat} (read : (readSheet text).result = .ok tree) :
    ∃ statements, tree = .stylesheet statements 0 ∧ Laid text 0 text.length statements := by
  obtain ⟨statements, rfl, reads⟩ := reads_of_readSheet read
  have filled := Outline.filled_of_reads reads (Outline.tiles_ofText text) (Nat.zero_le _)
  exact ⟨statements, rfl, filled.laid.widen (Nat.le_refl _) filled.within⟩

/-- The text of a source as the parser reads it, without a byte-order mark and with blanks for comments. -/
def sheetText (source : String) : List Char := Comment.blank (dropMark source.toList)

/-- The tree of a text without comments, every node at its line and column. -/
def scan (text : List Char) : Except ParseError (Node Position) :=
  Node.map (LineIndex.ofText text).locate <$>
    (readSheet text).result.mapError (Failure.locate (LineIndex.ofText text))

theorem parse_eq_scan (source : String) : parse source = scan (sheetText source) :=
  Traced.result_map _ _

theorem scan_of_read {text : List Char} {placed : Node Nat}
    (read : (readSheet text).result = .ok placed) :
    scan text = .ok (placed.map (LineIndex.ofText text).locate) := by
  rw [scan, read]
  rfl

theorem scan_of_failure {text : List Char} {failure : Failure}
    (read : (readSheet text).result = .error failure) :
    scan text = .error (failure.locate (LineIndex.ofText text)) := by
  rw [scan, read]
  rfl

theorem scan_eq_ok {text : List Char} {tree : Node Position} :
    scan text = .ok tree ↔ ∃ placed, (readSheet text).result = .ok placed ∧
      tree = placed.map (LineIndex.ofText text).locate := by
  cases read : (readSheet text).result with
  | error failure => simp [scan_of_failure read]
  | ok placed => simp [scan_of_read read, eq_comm]

/-- A parsed tree is one read from the text, with offsets turned into lines and columns. -/
theorem parse_eq_ok {source : String} {tree : Node Position} :
    parse source = .ok tree ↔ ∃ placed, (readSheet (sheetText source)).result = .ok placed ∧
      tree = placed.map (LineIndex.ofText (sheetText source)).locate := by
  rw [parse_eq_scan, scan_eq_ok]

theorem laid_of_parse {source : String} {tree : Node Position} (parsed : parse source = .ok tree) :
    ∃ statements, Laid (sheetText source) 0 (sheetText source).length statements ∧
      tree = (Node.stylesheet statements 0).map (LineIndex.ofText (sheetText source)).locate := by
  obtain ⟨placed, read, rfl⟩ := parse_eq_ok.mp parsed
  obtain ⟨statements, rfl, laid⟩ := laid_of_readSheet read
  exact ⟨statements, laid, rfl⟩

theorem fits_of_parse {source : String} {tree node : Node Position} (parsed : parse source = .ok tree)
    (member : node ∈ tree.walk) : node.Fits := by
  obtain ⟨statements, laid, rfl⟩ := laid_of_parse parsed
  rw [Node.walk_map, List.mem_map] at member
  obtain ⟨placed, present, rfl⟩ := member
  rw [Node.fits_map]
  rw [Node.walk_eq_cons, List.mem_cons] at present
  rcases present with rfl | inside
  · trivial
  · exact laid.fitting placed inside

end SheetLint
