import SheetLint.Proofs.Lexeme
import SheetLint.Proofs.Walk
import Mathlib.Data.List.Infix

/-! Nodes laid out in a text: each node stands at its lexeme, and no two nodes of one sort stand at the
same offset. Values are passed over, for the place of a value is that of no lexeme. -/
namespace SheetLint

namespace Node

variable {α β : Type}

/-- The sort of a node and its place, unless it is a value or a foreign thing. -/
def mark? : Node α → Option (Kind × α)
  | leaf content start => some (leafKind content, start)
  | call _ _ start => some (.call, start)
  | parens _ start => some (.parens, start)
  | selector _ _ start => some (.selector, start)
  | declaration _ _ start => some (.declaration, start)
  | block _ start => some (.block, start)
  | ruleset _ _ start => some (.ruleset, start)
  | directive _ _ start | atRule _ _ _ start => some (.atRule, start)
  | stylesheet _ start => some (.stylesheet, start)
  | value _ _ | foreign _ => none

/-- The parts of a node are of the sorts that a stylesheet has in their places, and nothing is foreign. -/
def Fits : Node α → Prop
  | declaration _ given _ => given.isKind .value
  | ruleset selectors body _ => (∀ node ∈ selectors, node.isKind .selector) ∧ body.isKind .block
  | atRule _ _ body _ => body.isKind .block
  | foreign _ => False
  | _ => True

/-- The marks of all nodes of some trees, in the order of a walk. -/
def marks (nodes : List (Node α)) : List (Kind × α) := (walkFrom nodes).filterMap mark?

theorem mark?_map (f : α → β) (node : Node α) :
    (node.map f).mark? = node.mark?.map fun (kind, start) => (kind, f start) := by
  cases node <;> simp [map, mark?]

theorem start?_of_mark? {node : Node α} {kind : Kind} {start : α}
    (marked : node.mark? = some (kind, start)) : node.start? = some start := by
  cases node <;> cases marked <;> rfl

theorem fits_map (f : α → β) (node : Node α) : (node.map f).Fits ↔ node.Fits := by
  cases node <;> simp [map, Fits, isKind_map]

/-- Values alone have no mark among the nodes that fit. -/
theorem mark?_of_fits {node : Node α} (fits : node.Fits) (value : node.isKind .value = false) :
    ∃ kind start, node.mark? = some (kind, start) := by
  cases node with
  | value parts start => cases value
  | foreign item => cases fits
  | _ => exact ⟨_, _, rfl⟩

theorem marks_append (first second : List (Node α)) :
    marks (first ++ second) = marks first ++ marks second := by
  simp [marks, walkFrom_append]

theorem marks_map (f : α → β) (nodes : List (Node α)) :
    marks (nodes.map (map f)) = (marks nodes).map fun (kind, start) => (kind, f start) := by
  simp only [marks, walkFrom_map, List.filterMap_map, List.map_filterMap]
  congr 1
  funext node
  exact mark?_map f node

end Node

open Node (Kind)

/-- Marks in reading order, no two of them the same. -/
def MarkOrder (first second : Kind × Nat) : Prop := first.2 ≤ second.2 ∧ first ≠ second

/-- A node stands at an offset where its lexeme does. -/
def Node.StandsAt (text : List Char) (start : Nat) (node : Node Nat) : Prop :=
  ∃ piece, node.Lexeme piece ∧ piece <+: text.drop start

/-- Trees that fit together, whose nodes stand between two offsets of a text in reading order. -/
structure Laid (text : List Char) (low high : Nat) (nodes : List (Node Nat)) : Prop where
  fitting : ∀ node ∈ Node.walkFrom nodes, node.Fits
  carried : ∀ node ∈ Node.walkFrom nodes, ∀ kind start, node.mark? = some (kind, start) →
    low ≤ start ∧ start < high ∧ node.StandsAt text start
  ordered : (Node.marks nodes).Pairwise MarkOrder

namespace Laid

variable {text : List Char} {low mid high : Nat} {nodes others : List (Node Nat)}

theorem nil : Laid text low high [] := ⟨by simp, by simp, by simp [Node.marks]⟩

theorem bounds (laid : Laid text low high nodes) {mark : Kind × Nat}
    (member : mark ∈ Node.marks nodes) : low ≤ mark.2 ∧ mark.2 < high := by
  obtain ⟨node, present, found⟩ := List.mem_filterMap.mp member
  obtain ⟨above, below, _⟩ := laid.carried node present mark.1 mark.2 found
  exact ⟨above, below⟩

theorem widen {low' high' : Nat} (laid : Laid text low high nodes) (below : low' ≤ low)
    (above : high ≤ high') : Laid text low' high' nodes := by
  refine ⟨laid.fitting, ?_, laid.ordered⟩
  intro node member kind start found
  obtain ⟨left, right, stands⟩ := laid.carried node member kind start found
  exact ⟨by omega, by omega, stands⟩

/-- Trees laid out in one part of a text, and others after them. -/
theorem append (first : Laid text low mid nodes) (second : Laid text mid high others)
    (above : low ≤ mid) (below : mid ≤ high) : Laid text low high (nodes ++ others) := by
  refine ⟨?_, ?_, ?_⟩
  · intro node member
    rw [Node.walkFrom_append, List.mem_append] at member
    exact member.elim (first.fitting node) (second.fitting node)
  · intro node member
    rw [Node.walkFrom_append, List.mem_append] at member
    exact member.elim ((first.widen (Nat.le_refl _) below).carried node)
      ((second.widen above (Nat.le_refl _)).carried node)
  · rw [Node.marks_append, List.pairwise_append]
    refine ⟨first.ordered, second.ordered, ?_⟩
    intro front member back other
    have left := first.bounds member
    have right := second.bounds other
    refine ⟨by omega, ?_⟩
    rintro rfl
    omega

/-- A node stands before its parts. If a part stands at the same offset, it is of another sort. -/
theorem node {node : Node Nat} {kind : Kind} {start : Nat} (mark : node.mark? = some (kind, start))
    (inside : start < high) (fits : node.Fits) (stands : node.StandsAt text start)
    (parts : Laid text start high node.children)
    (apart : (kind, start) ∉ Node.marks node.children) : Laid text start high [node] := by
  have walked : Node.walkFrom [node] = node :: Node.walkFrom node.children := node.walk_eq_cons
  refine ⟨?_, ?_, ?_⟩
  · intro part member
    rw [walked] at member
    rcases List.mem_cons.mp member with rfl | below
    · exact fits
    · exact parts.fitting part below
  · intro part member kind' start' found
    rw [walked] at member
    rcases List.mem_cons.mp member with rfl | below
    · rw [mark] at found
      cases found
      exact ⟨Nat.le_refl _, inside, stands⟩
    · exact parts.carried part below kind' start' found
  · have marks : Node.marks [node] = (kind, start) :: Node.marks node.children := by
      simp [Node.marks, walked, mark]
    rw [marks]
    refine List.pairwise_cons.mpr ⟨?_, parts.ordered⟩
    intro other member
    refine ⟨(parts.bounds member).1, ?_⟩
    rintro rfl
    exact apart member

/-- A node whose parts all stand past its own offset. -/
theorem node_of_lt {node : Node Nat} {kind : Kind} {start : Nat}
    (mark : node.mark? = some (kind, start)) (inside : start < high) (fits : node.Fits)
    (stands : node.StandsAt text start) (parts : Laid text (start + 1) high node.children) :
    Laid text start high [node] := by
  apply Laid.node mark inside fits stands (parts.widen (Nat.le_succ _) (Nat.le_refl _))
  intro member
  have past := (parts.bounds member).1
  simp only at past
  omega

theorem value {parts : List (Node Nat)} {start : Nat} (laid : Laid text low high parts) :
    Laid text low high [.value parts start] := by
  have walked : Node.walkFrom [.value parts start] = .value parts start :: Node.walkFrom parts :=
    Node.walk_eq_cons _
  refine ⟨?_, ?_, ?_⟩
  · intro node member
    rw [walked] at member
    rcases List.mem_cons.mp member with rfl | below
    · trivial
    · exact laid.fitting node below
  · intro node member kind start' found
    rw [walked] at member
    rcases List.mem_cons.mp member with rfl | below
    · cases found
    · exact laid.carried node below kind start' found
  · have marks : Node.marks [.value parts start] = Node.marks parts := by
      rw [Node.marks, walked]
      exact List.filterMap_cons_none rfl
    rw [marks]
    exact laid.ordered

/-- Trees laid out in a piece of a text are laid out in the text, as far on as the piece is. -/
theorem shift {piece : List Char} {offset : Nat} (laid : Laid piece low high nodes)
    (placed : piece <+: text.drop offset) :
    Laid text (offset + low) (offset + high) (nodes.map (Node.map (offset + ·))) := by
  refine ⟨?_, ?_, ?_⟩
  · intro node member
    rw [Node.walkFrom_map, List.mem_map] at member
    obtain ⟨inner, present, rfl⟩ := member
    exact (Node.fits_map _ inner).mpr (laid.fitting inner present)
  · intro node member kind start found
    rw [Node.walkFrom_map, List.mem_map] at member
    obtain ⟨inner, present, rfl⟩ := member
    rw [Node.mark?_map, Option.map_eq_some_iff] at found
    obtain ⟨⟨_, start⟩, marked, same⟩ := found
    cases same
    obtain ⟨above, below, lexeme, written, stands⟩ := laid.carried inner present _ start marked
    refine ⟨by omega, by omega, lexeme, (Node.lexeme_map _ inner).mpr written, ?_⟩
    rw [← List.drop_drop]
    exact stands.trans (List.IsPrefix.drop placed start)
  · rw [Node.marks_map]
    refine List.Pairwise.map _ ?_ laid.ordered
    rintro ⟨_, first⟩ ⟨_, second⟩ ⟨order, apart⟩
    refine ⟨Nat.add_le_add_left order offset, ?_⟩
    intro same
    simp only [Prod.mk.injEq, Nat.add_left_cancel_iff] at same
    exact apart (Prod.ext same.1 same.2)

end Laid
end SheetLint
