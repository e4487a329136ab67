import SheetLint.Node.Walk
import Mathlib.Data.List.Perm.Subperm

/-! Walks in terms of the tree: a walk over several trees is one walk after another, a change of places
goes through it, and apart from the roots it holds what is a part of something it holds. -/
namespace SheetLint.Node

variable {α β : Type}

@[simp] theorem walkFrom_nil : walkFrom ([] : List (Node α)) = [] := by
  rw [walkFrom]

theorem walkFrom_cons (node : Node α) (pending : List (Node α)) :
    walkFrom (node :: pending) = node :: walkFrom (node.children ++ pending) := by
  rw [walkFrom]

theorem walkFrom_append (first second : List (Node α)) :
    walkFrom (first ++ second) = walkFrom first ++ walkFrom second := by
  induction first using walkFrom.induct with
  | case1 => simp
  | case2 node pending ih =>
    rw [List.cons_append, walkFrom_cons, walkFrom_cons, ← List.append_assoc, ih, List.cons_append]

/-- A node comes first, then all that its parts hold. -/
theorem walk_eq_cons (node : Node α) : node.walk = node :: walkFrom node.children := by
  rw [walk, walkFrom_cons, List.append_nil]

theorem walkFrom_eq_flatMap (nodes : List (Node α)) : walkFrom nodes = nodes.flatMap walk := by
  induction nodes with
  | nil => simp
  | cons node rest ih =>
    rw [List.flatMap_cons, ← ih, ← List.singleton_append, walkFrom_append]
    rfl

mutual

/-- What a tree holds below its root, in document order. -/
def inner : Node α → List (Node α)
  | leaf _ _ | directive _ _ _ | foreign _ => []
  | call _ parts _ | parens parts _ | value parts _ | selector parts _ _ | block parts _
  | stylesheet parts _ => innerAll parts
  | declaration _ part _ | atRule _ _ part _ => part :: inner part
  | ruleset selectors body _ => innerAll selectors ++ body :: inner body

/-- Trees in turn, each with what it holds below its root. -/
def innerAll : List (Node α) → List (Node α)
  | [] => []
  | node :: rest => node :: (inner node ++ innerAll rest)

end

/-- All nodes of a tree in document order, its root first. -/
def preorder (node : Node α) : List (Node α) := node :: node.inner

theorem innerAll_eq_flatMap (nodes : List (Node α)) : innerAll nodes = nodes.flatMap preorder := by
  induction nodes with
  | nil => rfl
  | cons node rest ih => rw [innerAll, ih, List.flatMap_cons, preorder, List.cons_append]

theorem inner_eq_flatMap (node : Node α) : node.inner = node.children.flatMap preorder := by
  cases node <;> simp [inner, children, innerAll_eq_flatMap, preorder]

theorem walkFrom_eq_preorder (nodes : List (Node α)) : walkFrom nodes = nodes.flatMap preorder := by
  induction nodes using walkFrom.induct with
  | case1 => simp
  | case2 node pending ih =>
    rw [walkFrom_cons, ih, List.flatMap_append, List.flatMap_cons, preorder, inner_eq_flatMap,
      List.cons_append]

/-- A walk meets the nodes of a tree in document order. -/
theorem walk_eq_preorder (node : Node α) : node.walk = node.preorder := by
  rw [walk, walkFrom_eq_preorder, List.flatMap_singleton]

/-- A walk over nodes without parts meets just these. -/
theorem walkFrom_eq_self {nodes : List (Node α)} (bare : ∀ node ∈ nodes, node.children = []) :
    walkFrom nodes = nodes := by
  induction nodes with
  | nil => exact walkFrom_nil
  | cons node rest ih =>
    obtain ⟨here, others⟩ := List.forall_mem_cons.mp bare
    rw [walkFrom_cons, here, List.nil_append, ih others]

/-- Changing places changes the nodes of a walk and not their order. -/
theorem walkFrom_map (f : α → β) (nodes : List (Node α)) :
    walkFrom (nodes.map (map f)) = (walkFrom nodes).map (map f) := by
  induction nodes using walkFrom.induct with
  | case1 => simp
  | case2 node pending ih =>
    rw [List.map_cons, walkFrom_cons, walkFrom_cons, children_map, ← List.map_append, ih,
      List.map_cons]

theorem walk_map (f : α → β) (node : Node α) : (node.map f).walk = node.walk.map (map f) :=
  walkFrom_map f [node]

theorem kind?_map (f : α → β) (node : Node α) : (node.map f).kind? = node.kind? := by
  cases node with
  | foreign item => cases item <;> rfl
  | _ => rfl

theorem isKind_map (f : α → β) (kind : Kind) (node : Node α) :
    (node.map f).isKind kind = node.isKind kind := by
  rw [isKind, isKind, kind?_map]

/-- Nothing is of two kinds. -/
theorem isKind_eq_false {node : Node α} {kind other : Kind} (is : node.isKind kind) (apart : kind ≠ other) :
    node.isKind other = false := by
  rw [isKind, beq_iff_eq] at is
  simp [isKind, is, apart]

theorem eq_block_of_isKind {node : Node α} (is : node.isKind .block) :
    ∃ parts start, node = .block parts start := by
  cases node with
  | block parts start => exact ⟨parts, start, rfl⟩
  | leaf content => cases content <;> simp [isKind, kind?, leafKind] at is
  | foreign item => cases item <;> simp [isKind, kind?] at is
  | _ => simp [isKind, kind?] at is

/-- What a walk holds are the roots and the parts of what it holds. -/
theorem walkFrom_perm (nodes : List (Node α)) :
    (walkFrom nodes).Perm (nodes ++ (walkFrom nodes).flatMap children) := by
  induction nodes using walkFrom.induct with
  | case1 => simp
  | case2 node pending ih =>
    rw [walkFrom_cons, List.flatMap_cons, List.cons_append]
    refine List.Perm.cons node (ih.trans ?_)
    rw [← List.append_assoc]
    exact List.Perm.append_right _ List.perm_append_comm

/-- The parts of what a walk holds are in the walk, each as often as it is a part. -/
theorem flatMap_children_subperm (nodes : List (Node α)) :
    ((walkFrom nodes).flatMap children).Subperm (walkFrom nodes) :=
  (List.sublist_append_right _ _).subperm.trans (walkFrom_perm nodes).symm.subperm

/-- A walk holds the walks of all that it holds. -/
theorem mem_walkFrom_trans {node part : Node α} {nodes : List (Node α)}
    (member : node ∈ walkFrom nodes) (inside : part ∈ node.walk) : part ∈ walkFrom nodes := by
  induction nodes using walkFrom.induct with
  | case1 => simp at member
  | case2 first pending ih =>
    rw [walkFrom_cons, List.mem_cons] at member ⊢
    rcases member with rfl | later
    · rw [walk_eq_cons, List.mem_cons] at inside
      refine inside.imp_right fun below => ?_
      rw [walkFrom_append]
      exact List.mem_append_left _ below
    · exact .inr (ih later)

theorem mem_walk_of_child {node child : Node α} (part : child ∈ node.children) : child ∈ node.walk := by
  rw [walk_eq_cons, walkFrom_eq_flatMap]
  refine List.mem_cons_of_mem _ (List.mem_flatMap.mpr ⟨child, part, ?_⟩)
  rw [walk_eq_cons]
  exact List.mem_cons_self

/-- Two changes of places that agree on the place of a node and on its parts make the same of it. -/
theorem map_congr_children {f g : α → β} {node : Node α}
    (here : ∀ start ∈ node.start?, f start = g start)
    (parts : ∀ part ∈ node.children, part.map f = part.map g) : node.map f = node.map g := by
  cases node <;> simp_all [children, map, start?]

/-- Two changes of places that agree on all places in some trees make the same of them. -/
theorem map_congr_walkFrom {f g : α → β} {nodes : List (Node α)}
    (same : ∀ node ∈ walkFrom nodes, ∀ start ∈ node.start?, f start = g start) :
    ∀ node ∈ nodes, node.map f = node.map g := by
  induction nodes using walkFrom.induct with
  | case1 => simp
  | case2 first pending ih =>
    rw [walkFrom_cons, List.forall_mem_cons] at same
    obtain ⟨parts, others⟩ := List.forall_mem_append.mp (ih same.2)
    exact List.forall_mem_cons.mpr ⟨map_congr_children same.1 parts, others⟩

end SheetLint.Node
