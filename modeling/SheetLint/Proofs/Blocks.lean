import SheetLint.Proofs.Enclosing
import SheetLint.Proofs.SheetLayout

/-! The blocks of a stylesheet are the pairs of matching braces that a flat pass over its text meets. -/
namespace SheetLint

namespace Node

variable {α β : Type}

/-- The blocks anywhere in some trees. -/
def blocks (nodes : List (Node α)) : List (Node α) := (walkFrom nodes).filter (isKind .block)

theorem blocks_append (first second : List (Node α)) :
    blocks (first ++ second) = blocks first ++ blocks second := by
  simp [blocks, walkFrom_append]

theorem blocks_singleton (node : Node α) :
    blocks [node] = (if node.isKind .block then [node] else []) ++ blocks node.children := by
  rw [blocks, walkFrom_cons, List.append_nil, List.filter_cons]
  cases node.isKind .block <;> rfl

theorem blocks_map (f : α → β) (nodes : List (Node α)) :
    blocks (nodes.map (map f)) = (blocks nodes).map (map f) := by
  rw [blocks, blocks, walkFrom_map, List.filter_map]
  congr 2
  funext node
  exact isKind_map f .block node

/-- Trees without the mark of a block have no block in them. -/
theorem blocks_eq_nil {nodes : List (Node α)} (apart : ∀ mark ∈ marks nodes, mark.1 ≠ .block) :
    blocks nodes = [] := by
  apply List.filter_eq_nil_iff.mpr
  intro node member is
  obtain ⟨parts, start, rfl⟩ := eq_block_of_isKind is
  exact apart (.block, start) (List.mem_filterMap.mpr ⟨_, member, rfl⟩) rfl

end Node

open Node (blocks)

theorem blocks_of_readSelectors {piece : List Char} {offset : Nat} {nodes : List (Node Nat)}
    (read : readSelectors piece offset = .ok nodes) : blocks nodes = [] := by
  apply Node.blocks_eq_nil
  intro mark member same
  have sort := isPart_of_readSelectors read member
  rw [same] at sort
  cases sort

theorem blocks_of_readValue {piece : List Char} {offset : Nat} {node : Node Nat}
    (read : readValue piece offset = .ok node) : blocks [node] = [] := by
  unfold readValue at read
  split at read
  · rename_i value found
    cases read
    obtain ⟨parts, rfl, assembled⟩ := Value.read_eq_ok.mp found
    have none : blocks parts = [] := by
      apply List.filter_eq_nil_iff.mpr
      intro part member is
      obtain ⟨children, start, rfl⟩ := Node.eq_block_of_isKind is
      exact Bool.noConfusion (Value.isPart_of_assemble assembled member)
    rw [← List.map_singleton, Node.blocks_map, Node.blocks_singleton]
    change List.map _ ([] ++ blocks parts) = []
    rw [none]
    rfl
  · cases read

namespace Chunk

variable {chunk : Chunk}

theorem blocks_of_plain {found : Option (Node Nat)} (read : chunk.Plain found) :
    blocks found.toList = [] := by
  cases read with
  | empty => simp [blocks]
  | directive =>
    rw [Option.toList_some, Node.blocks_singleton]
    change [] ++ blocks [] = []
    simp [blocks]
  | declaration _ _ value =>
    rw [Option.toList_some, Node.blocks_singleton]
    exact blocks_of_readValue value

/-- A statement with a block has this one and those within it, unless it is left out. -/
theorem blocks_of_blocked {brace : Nat} {children : List (Node Nat)} {found : Option (Node Nat)}
    (read : chunk.Blocked (.block children brace) found) :
    blocks found.toList =
      if chunk.isGroupHead then [] else .block children brace :: blocks children := by
  have body : blocks [.block children brace] = .block children brace :: blocks children :=
    Node.blocks_singleton _
  cases read with
  | group left =>
    rw [left]
    simp [blocks]
  | atRule _ kept =>
    rw [kept, Option.toList_some, Node.blocks_singleton]
    exact body
  | ruleset _ kept listed =>
    rw [kept, Option.toList_some, Node.blocks_singleton]
    change [] ++ blocks (_ ++ [.block children brace]) = _
    rw [Node.blocks_append, blocks_of_readSelectors listed, body]
    rfl

end Chunk

/-- Where a block of an outline stands. -/
def Enclosure.place? (block : Enclosure) : Option Nat := some block.opening

namespace Outline

variable {outline : Outline} {brace? : Option Nat} {nodes : List (Node Nat)} {around : List Chunk}

/-- No block within a group of nested properties is kept. -/
theorem not_isKept_of_group {group : Chunk} (left : group.trim.isGroupHead) (member : group ∈ around) :
    ∀ block ∈ outline.enclosures around, block.isKept = false := by
  have within (block : Enclosure) (inside : group ∈ block.around ++ [block.head]) :
      block.isKept = false := by
    apply List.all_eq_false.mpr
    exact ⟨group, inside, by simp [left]⟩
  induction outline generalizing around with
  | complete | broken | closed => exact List.forall_mem_nil _
  | statement _ _ ih => exact ih member
  | unclosed head _ ih => exact ih (List.mem_append_left _ member)
  | nested head body next ih ihNext =>
    intro block present
    rcases List.mem_cons.mp present with rfl | present
    · exact within _ (List.mem_append_left _ member)
    · rcases List.mem_append.mp present with below | later
      · exact ih (List.mem_append_left _ member) block below
      · exact ihNext member block later

theorem filter_isKept_nested (whole : ∀ head ∈ around, head.trim.isGroupHead = false) (head : Chunk)
    (body next : Outline) :
    ((nested head body next).enclosures around).filter Enclosure.isKept =
      (if head.trim.isGroupHead then [] else
        ⟨around, head, body.closing⟩ ::
          (body.enclosures (around ++ [head])).filter Enclosure.isKept) ++
        (next.enclosures around).filter Enclosure.isKept := by
  rw [enclosures, List.filter_cons, List.filter_append]
  by_cases group : head.trim.isGroupHead
  · have none : (body.enclosures (around ++ [head])).filter Enclosure.isKept = [] := by
      apply List.filter_eq_nil_iff.mpr
      intro block member
      simp [not_isKept_of_group group (List.mem_append_right _ List.mem_cons_self) block member]
    have left : Enclosure.isKept ⟨around, head, body.closing⟩ = false := by
      apply List.all_eq_false.mpr
      exact ⟨head, List.mem_append_right _ List.mem_cons_self, by simp [group]⟩
    rw [left, none, if_pos group]
    rfl
  · have kept : Enclosure.isKept ⟨around, head, body.closing⟩ = true := by
      apply List.all_eq_true.mpr
      intro other member
      rcases List.mem_append.mp member with above | here
      · simp [whole other above]
      · simp [List.mem_singleton.mp here, group]
    rw [kept, if_neg group]
    rfl

private theorem whole_within {head : Chunk} (whole : ∀ head ∈ around, head.trim.isGroupHead = false)
    (kept : ¬head.trim.isGroupHead) : ∀ other ∈ around ++ [head], other.trim.isGroupHead = false := by
  intro other member
  rcases List.mem_append.mp member with above | here
  · exact whole other above
  · simp [List.mem_singleton.mp here, kept]

/-- The blocks read from a level are those of its outline that are kept. -/
theorem places_of_reads (reads : outline.Reads brace? nodes)
    (whole : ∀ head ∈ around, head.trim.isGroupHead = false) :
    (blocks nodes).map Node.start? =
      ((outline.enclosures around).filter Enclosure.isKept).map Enclosure.place? := by
  induction reads generalizing around with
  | complete found | closed found =>
    rw [Chunk.blocks_of_plain found]
    rfl
  | statement found _ ih =>
    rw [Node.blocks_append, Chunk.blocks_of_plain found]
    exact ih whole
  | @nested _ head _ _ _ _ _ _ found _ ih ihNext =>
    rw [Node.blocks_append, Chunk.blocks_of_blocked found, filter_isKept_nested whole,
      List.map_append, List.map_append, ihNext whole]
    congr 1
    by_cases group : head.trim.isGroupHead
    · rw [if_pos group, if_pos group]
      rfl
    · rw [if_neg group, if_neg group, List.map_cons, List.map_cons, ih (whole_within whole group)]
      rfl

/-- The blocks within a block are the kept ones that it encloses. -/
theorem nested_of_reads {start : Nat} (reads : outline.Reads brace? nodes)
    (closes : outline.Whole start) (whole : ∀ head ∈ around, head.trim.isGroupHead = false) :
    ∀ node ∈ blocks nodes, ∃ block ∈ outline.enclosures around,
      (node.findAll .block).map Node.start? = block.place? ::
        ((outline.enclosures around).filter fun inner => inner.isKept && block.encloses inner).map
          Enclosure.place? := by
  induction reads generalizing start around with
  | complete found | closed found =>
    rw [Chunk.blocks_of_plain found]
    exact List.forall_mem_nil _
  | statement found _ ih =>
    obtain _ | _ | ⟨rest⟩ := closes
    rw [Node.blocks_append, Chunk.blocks_of_plain found]
    exact ih rest whole
  | @nested _ head body _ _ children others opened found _ ih ihNext =>
    obtain _ | _ | _ | ⟨_, inner, rest⟩ := closes
    intro node member
    rw [Node.blocks_append, Chunk.blocks_of_blocked found] at member
    rcases List.mem_append.mp member with first | later
    · by_cases group : head.trim.isGroupHead
      · rw [if_pos group] at first
        cases first
      · have kept := whole_within whole group
        rw [if_neg group] at first
        rcases List.mem_cons.mp first with rfl | below
        · refine ⟨⟨around, head, body.closing⟩, List.mem_cons_self, ?_⟩
          rw [Whole.filter_head inner rest, ← places_of_reads opened kept]
          change (blocks [.block children head.stop]).map Node.start? = _
          rw [Node.blocks_singleton]
          rfl
        · obtain ⟨block, present, places⟩ := ih inner kept node below
          refine ⟨block, List.mem_cons_of_mem _ (List.mem_append_left _ present), ?_⟩
          rw [Whole.filter_body inner rest _ present]
          exact places
    · obtain ⟨block, present, places⟩ := ihNext rest whole node later
      refine ⟨block, List.mem_cons_of_mem _ (List.mem_append_right _ present), ?_⟩
      rw [Whole.filter_next inner rest _ present]
      exact places

end Outline

/-- The blocks of a text in the order of their opening braces, with those that its tree leaves out. -/
def scanned (text : List Char) : List Enclosure := (Outline.ofText 0 text).enclosures []

/-- The tree of a text has the blocks that the matching braces of the text make, within each other as the
braces are, and each of them at its opening brace. -/
structure BlockStructure (text : List Char) (tree : Node Nat) : Prop where
  balanced : Balanced (structural text)
  ordered : (scanned text).Pairwise fun first second => first.opening < second.opening
  standing : ∀ block ∈ scanned text,
    text[block.opening]? = some '\x7b' ∧ text[block.closing]? = some '\x7d'
  paired : ∀ one two, Matching (structural text) one two ↔
    ∃ block ∈ scanned text, block.opening = one ∧ block.closing = two
  around : ∀ block ∈ scanned text,
    block.around = ((scanned text).filter (·.encloses block)).map Enclosure.head
  kept : (tree.findAll .block).map Node.start? =
    ((scanned text).filter Enclosure.isKept).map Enclosure.place?
  nested : ∀ node ∈ tree.findAll .block, ∃ block ∈ scanned text,
    (node.findAll .block).map Node.start? = block.place? ::
      ((scanned text).filter fun inner => inner.isKept && block.encloses inner).map Enclosure.place?

theorem blockStructure_of_readSheet {text : List Char} {tree : Node Nat}
    (read : (readSheet text).result = .ok tree) : BlockStructure text tree := by
  obtain ⟨statements, rfl, reads⟩ := reads_of_readSheet read
  obtain ⟨whole, final⟩ := Outline.whole_of_reads reads (Outline.tiles_ofText text)
  obtain ⟨inner, split, balanced, pairs⟩ := whole.balanced []
  have sites : structural text = inner := by
    rw [← Outline.sites_ofText final, split, final]
    simp
  have below : (Node.stylesheet statements 0).findAll .block = blocks statements :=
    Node.blocks_singleton _
  rw [← sites] at balanced pairs
  exact {
    balanced
    ordered := whole.ordered []
    standing := by
      intro block member
      obtain ⟨front, within, back, split, _⟩ := (pairs _ _).mpr ⟨block, member, rfl, rfl⟩
      have opens : (block.opening, .opening) ∈ structural text := by
        rw [split]
        simp
      have closes : (block.closing, .closing) ∈ structural text := by
        rw [split]
        simp
      exact ⟨char_of_structural opens, char_of_structural closes⟩
    paired := pairs
    around := whole.around_eq []
    kept := by
      rw [below]
      exact Outline.places_of_reads reads (List.forall_mem_nil _)
    nested := by
      rw [below]
      exact Outline.nested_of_reads reads whole (List.forall_mem_nil _) }

/-- Blocks are read as the braces of a text match, and only where all of them do. -/
theorem blocks_match_braces (text : List Char) :
    (∀ tree, (readSheet text).result = .ok tree → BlockStructure text tree) ∧
      (¬Balanced (structural text) → ∃ failure, (readSheet text).result = .error failure) := by
  refine ⟨fun tree => blockStructure_of_readSheet, ?_⟩
  intro unbalanced
  cases read : (readSheet text).result with
  | error failure => exact ⟨failure, rfl⟩
  | ok tree => exact absurd (blockStructure_of_readSheet read).balanced unbalanced

/-- A brace within a string is none of those that match, and a group of nested properties is left out. -/
theorem blocks_match_braces_of_group :
    (∃ tree, (readSheet "a\x7bfont:\x7bb:'\x7d'\x7d\x7d".toList).result = .ok tree ∧
      BlockStructure "a\x7bfont:\x7bb:'\x7d'\x7d\x7d".toList tree) ∧
      ∃ failure, (readSheet "a\x7d".toList).result = .error failure := by
  have read : (readSheet "a\x7bfont:\x7bb:'\x7d'\x7d\x7d".toList).result =
      .ok (.stylesheet [.ruleset [.selector [.leaf (.simple .type "a") 0] "a" 0] (.block [] 1) 0] 0) := by
    rfl
  have unbalanced : ¬Balanced (structural "a\x7d".toList) := by
    intro balanced
    have level := balanced.level
    revert level
    decide
  exact ⟨⟨_, read, (blocks_match_braces _).1 _ read⟩, (blocks_match_braces _).2 unbalanced⟩

end SheetLint
