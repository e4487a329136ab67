import SheetLint.Proofs.Place
import SheetLint.Proofs.SheetLayout
import Mathlib.Data.List.Flatten
import Mathlib.Data.List.Nodup

/-! Parts of parts, down to a depth. A walk holds all of them, so that lists made of what lies below the
nodes of a walk repeat nothing that the walk does not repeat. -/
namespace SheetLint.Node

variable {α β : Type}

/-- The parts that lie a number of levels below some nodes. -/
def descend : Nat → List (Node α) → List (Node α)
  | 0, nodes => nodes
  | depth + 1, nodes => descend depth (nodes.flatMap children)

theorem descend_eq_flatMap (depth : Nat) (nodes : List (Node α)) :
    descend depth nodes = nodes.flatMap fun node => descend depth [node] := by
  induction depth generalizing nodes with
  | zero => simp [descend]
  | succ depth ih =>
    rw [descend, ih, List.flatMap_assoc]
    congr 1
    funext node
    rw [descend, ← ih, List.flatMap_singleton]

theorem descend_sublist {first second : List (Node α)} (depth : Nat) (within : first.Sublist second) :
    (descend depth first).Sublist (descend depth second) := by
  induction depth generalizing first second with
  | zero => exact within
  | succ depth ih => exact ih (within.flatMap _)

theorem descend_subperm {nodes some : List (Node α)} (depth : Nat)
    (within : some.Subperm (walkFrom nodes)) : (descend depth some).Subperm (walkFrom nodes) := by
  induction depth generalizing some with
  | zero => exact within
  | succ depth ih =>
    obtain ⟨same, perm, sublist⟩ := within
    have parts : (some.flatMap children).Subperm ((walkFrom nodes).flatMap children) :=
      ⟨same.flatMap children, perm.flatMap_right _, sublist.flatMap _⟩
    exact ih (parts.trans (flatMap_children_subperm nodes))

/-- The place of a mark of one sort. -/
def placeOf? (kind : Kind) (mark : Kind × α) : Option α :=
  if mark.1 = kind then some mark.2 else none

theorem filterMap_placeOf?_map (kind sort : Kind) (places : List α) :
    (places.map fun place => (sort, place)).filterMap (placeOf? kind) =
      if sort = kind then places else [] := by
  rw [List.filterMap_map]
  by_cases same : sort = kind
  · rw [if_pos same]
    have all : (placeOf? kind ∘ fun place : α => (sort, place)) = some := by
      funext place
      simp [placeOf?, same]
    rw [all, List.filterMap_some]
  · simp [placeOf?, same]

/-- The places of all nodes of one sort among some. -/
def starts (kind : Kind) (nodes : List (Node α)) : List α :=
  nodes.filterMap fun node => node.mark?.bind (placeOf? kind)

theorem starts_flatMap (kind : Kind) (nodes : List β) (parts : β → List (Node α)) :
    starts kind (nodes.flatMap parts) = nodes.flatMap fun node => starts kind (parts node) :=
  List.filterMap_flatMap

/-- What is picked from a depth below each node of a walk is distinct where the walk has distinct places. -/
theorem nodup_flatMap_of_descend {nodes : List (Node α)} {kind : Kind} {pick : Node α → List α}
    (depth : Nat) (unique : (starts kind (walkFrom nodes)).Nodup)
    (below : ∀ node ∈ walkFrom nodes, (pick node).Sublist (starts kind (descend depth [node]))) :
    ((walkFrom nodes).flatMap pick).Nodup := by
  have picked : ((walkFrom nodes).flatMap pick).Sublist (starts kind (descend depth (walkFrom nodes))) := by
    rw [descend_eq_flatMap, starts_flatMap]
    exact List.Sublist.flatMap_right _ below
  obtain ⟨same, perm, sublist⟩ := descend_subperm depth (List.Subperm.refl (walkFrom nodes))
  have distinct : (starts kind same).Nodup := unique.sublist (sublist.filterMap _)
  exact (distinct.perm (perm.filterMap _)).sublist picked

/-- Marks are distinct where those of each sort are. -/
theorem nodup_of_places {marks : List (Kind × α)}
    (each : ∀ kind, (marks.filterMap (placeOf? kind)).Nodup) : marks.Nodup := by
  rw [List.nodup_iff_sublist]
  rintro ⟨kind, place⟩ twice
  have places := twice.filterMap (placeOf? kind)
  simp only [placeOf?, List.filterMap_cons, ↓reduceIte, List.filterMap_nil] at places
  exact List.nodup_iff_sublist.mp (each kind) place places

theorem starts_eq_filterMap_marks (kind : Kind) (nodes : List (Node α)) :
    starts kind (walkFrom nodes) = (marks nodes).filterMap (placeOf? kind) := by
  rw [marks, List.filterMap_filterMap]
  rfl

theorem starts_map (f : α → β) (kind : Kind) (nodes : List (Node α)) :
    starts kind (nodes.map (map f)) = (starts kind nodes).map f := by
  unfold starts
  rw [List.filterMap_map, List.map_filterMap]
  congr 1
  funext node
  simp only [Function.comp_apply, mark?_map]
  cases node.mark? with
  | none => rfl
  | some mark =>
    by_cases same : mark.1 = kind <;> simp [placeOf?, same]

end SheetLint.Node

namespace SheetLint

open Node (Kind starts)

theorem Laid.nodup_starts {text : List Char} {low high : Nat} {nodes : List (Node Nat)}
    (laid : Laid text low high nodes) (kind : Kind) : (starts kind (Node.walkFrom nodes)).Nodup := by
  have distinct : (Node.marks nodes).Nodup := laid.ordered.imp fun order => order.2
  rw [Node.starts_eq_filterMap_marks]
  apply distinct.filterMap
  rintro ⟨first, one⟩ ⟨second, two⟩ place here there
  simp only [Node.placeOf?, Option.mem_def, Option.ite_none_right_eq_some, Option.some.injEq] at here there
  rw [here.1, here.2, there.1, there.2]

/-- No two nodes of one sort stand at the same place in a parsed sheet, the sheet itself aside. -/
theorem nodup_starts_of_parse {source : String} {tree : Node Position}
    (parsed : parse source = .ok tree) {kind : Kind} (part : kind ≠ .stylesheet) :
    (starts kind tree.walk).Nodup := by
  obtain ⟨statements, laid, rfl⟩ := laid_of_parse parsed
  have inside : starts kind (Node.stylesheet statements 0).walk =
      starts kind (Node.walkFrom statements) := by
    rw [Node.walk_eq_cons, starts, List.filterMap_cons_none]
    · rfl
    · simp [Node.mark?, Node.placeOf?, part.symm]
  rw [Node.walk_map, Node.starts_map, inside]
  refine List.Nodup.map_on ?_ (laid.nodup_starts kind)
  intro first one second two same
  have bound (start : Nat) (member : start ∈ starts kind (Node.walkFrom statements)) :
      start ≤ (sheetText source).length := by
    rw [Node.starts_eq_filterMap_marks] at member
    obtain ⟨mark, present, found⟩ := List.mem_filterMap.mp member
    simp only [Node.placeOf?, Option.ite_none_right_eq_some, Option.some.injEq] at found
    rw [← found.2]
    exact Nat.le_of_lt (laid.bounds present).2
  rw [LineIndex.locate_ofText _ (bound first one), LineIndex.locate_ofText _ (bound second two)] at same
  exact Position.eq_of_after_take_eq (bound first one) (bound second two) same

end SheetLint
