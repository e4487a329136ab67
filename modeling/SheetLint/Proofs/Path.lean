import SheetLint.Proofs.Walk

/-! Paths in a tree, and the order in which a walk follows them: a node comes before all below it, and what is
below one of its parts before what is below a later one. -/
namespace SheetLint.Node

variable {α : Type}

/-- The node that a path leads to. At each node a path goes on to one of the parts, counted from zero. -/
def at? : Node α → List Nat → Option (Node α)
  | node, [] => some node
  | node, index :: path => node.children[index]?.bind fun part => part.at? path

mutual

/-- The paths to a node and to all below it. -/
def paths : Node α → List (List Nat)
  | leaf _ _ | directive _ _ _ | foreign _ => [[]]
  | call _ parts _ | parens parts _ | value parts _ | selector parts _ _ | block parts _
  | stylesheet parts _ => [] :: pathsFrom 0 parts
  | declaration _ part _ | atRule _ _ part _ => [] :: (paths part).map (0 :: ·)
  | ruleset selectors body _ =>
    [] :: (pathsFrom 0 selectors ++ (paths body).map (selectors.length :: ·))

/-- The paths through parts that are counted from a number on. -/
def pathsFrom (index : Nat) : List (Node α) → List (List Nat)
  | [] => []
  | node :: rest => (paths node).map (index :: ·) ++ pathsFrom (index + 1) rest

end

theorem pathsFrom_append (index : Nat) (first second : List (Node α)) :
    pathsFrom index (first ++ second) =
      pathsFrom index first ++ pathsFrom (index + first.length) second := by
  induction first generalizing index with
  | nil => rfl
  | cons node rest ih =>
    simp only [List.cons_append, pathsFrom, ih, List.append_assoc, List.length_cons, Nat.add_assoc,
      Nat.add_comm 1]

theorem paths_eq_cons (node : Node α) : node.paths = [] :: pathsFrom 0 node.children := by
  cases node <;> simp [paths, children, pathsFrom, pathsFrom_append]

/-- What holds of a node where it holds of its parts holds of all nodes. -/
theorem induction_on_parts {motive : Node α → Prop}
    (step : ∀ node, (∀ part ∈ node.children, motive part) → motive node) (node : Node α) :
    motive node :=
  step node fun part _ => induction_on_parts step part
termination_by node.size
decreasing_by
  rename_i member
  obtain ⟨before, after, split⟩ := List.append_of_mem member
  rw [size_eq node, split, sizeAll_append, sizeAll]
  omega

theorem mem_pathsFrom_iff {index : Nat} {nodes : List (Node α)} {path : List Nat} :
    path ∈ pathsFrom index nodes ↔
      ∃ count further, path = (index + count) :: further ∧
        ∃ part, nodes[count]? = some part ∧ further ∈ part.paths := by
  induction nodes generalizing index with
  | nil => simp [pathsFrom]
  | cons node rest ih =>
    rw [pathsFrom, List.mem_append, List.mem_map, ih]
    constructor
    · rintro (⟨further, member, rfl⟩ | ⟨count, further, rfl, part, here, member⟩)
      · exact ⟨0, further, rfl, node, rfl, member⟩
      · exact ⟨count + 1, further, by rw [Nat.add_right_comm, Nat.add_assoc], part, here, member⟩
    · rintro ⟨_ | count, further, rfl, part, here, member⟩
      · cases here
        exact .inl ⟨further, member, rfl⟩
      · exact .inr ⟨count, further, by rw [Nat.add_right_comm, Nat.add_assoc], part, here, member⟩

/-- The paths of a tree are those that lead to one of its nodes. -/
theorem mem_paths_iff {node : Node α} {path : List Nat} :
    path ∈ node.paths ↔ ∃ part, node.at? path = some part := by
  induction path generalizing node with
  | nil => simp [paths_eq_cons, at?]
  | cons index path ih =>
    rw [paths_eq_cons, List.mem_cons, mem_pathsFrom_iff, at?]
    simp only [Option.bind_eq_some_iff, reduceCtorEq, false_or, List.cons.injEq, Nat.zero_add]
    constructor
    · rintro ⟨count, further, ⟨rfl, rfl⟩, child, here, member⟩
      obtain ⟨part, found⟩ := ih.mp member
      exact ⟨part, child, here, found⟩
    · rintro ⟨part, child, here, found⟩
      exact ⟨index, path, ⟨rfl, rfl⟩, child, here, ih.mpr ⟨part, found⟩⟩

theorem pairwise_pathsFrom {nodes : List (Node α)}
    (parts : ∀ part ∈ nodes, part.paths.Pairwise (· < ·)) (index : Nat) :
    (pathsFrom index nodes).Pairwise (· < ·) := by
  induction nodes generalizing index with
  | nil => exact .nil
  | cons node rest ih =>
    obtain ⟨here, others⟩ := List.forall_mem_cons.mp parts
    refine List.pairwise_append.mpr ⟨?_, ih others (index + 1), ?_⟩
    · exact here.map _ fun _ _ before => List.cons_lt_cons_iff.mpr (.inr ⟨rfl, before⟩)
    · intro first within second after
      obtain ⟨path, _, rfl⟩ := List.mem_map.mp within
      obtain ⟨count, further, rfl, _⟩ := mem_pathsFrom_iff.mp after
      exact List.cons_lt_cons_iff.mpr (.inl (by omega))

/-- A path comes before those that go on from it, and parts come in turn. -/
theorem pairwise_paths (node : Node α) : node.paths.Pairwise (· < ·) := by
  induction node using induction_on_parts with
  | step node ih =>
    rw [paths_eq_cons]
    refine List.pairwise_cons.mpr ⟨?_, pairwise_pathsFrom ih 0⟩
    intro path member
    obtain ⟨count, further, rfl, _⟩ := mem_pathsFrom_iff.mp member
    exact List.nil_lt_cons _ _

theorem map_at?_pathsFrom {node : Node α} {before nodes : List (Node α)}
    (split : node.children = before ++ nodes)
    (parts : ∀ part ∈ nodes, part.paths.map part.at? = part.walk.map some) :
    (pathsFrom before.length nodes).map node.at? = (nodes.flatMap walk).map some := by
  induction nodes generalizing before with
  | nil => rfl
  | cons part rest ih =>
    obtain ⟨here, others⟩ := List.forall_mem_cons.mp parts
    have there : node.children[before.length]? = some part := by simp [split]
    have past : node.children = (before ++ [part]) ++ rest := by simp [split]
    have further := ih past others
    have within : ((paths part).map (before.length :: ·)).map node.at? = part.walk.map some := by
      rw [List.map_map, ← here]
      apply List.map_congr_left
      intro path _
      simp [at?, there]
    rw [List.length_append, List.length_singleton] at further
    rw [pathsFrom, List.map_append, within, further, List.flatMap_cons, List.map_append]

/-- A walk follows the paths of a tree. -/
theorem map_at?_paths (node : Node α) : node.paths.map node.at? = node.walk.map some := by
  induction node using induction_on_parts with
  | step node ih =>
    have below := map_at?_pathsFrom (List.nil_append node.children).symm ih
    rw [List.length_nil] at below
    rw [paths_eq_cons, List.map_cons, below, walk_eq_cons, walkFrom_eq_flatMap, List.map_cons, at?]

theorem length_walkFrom (nodes : List (Node α)) : (walkFrom nodes).length = sizeAll nodes := by
  induction nodes using walkFrom.induct with
  | case1 => simp [sizeAll]
  | case2 node pending ih =>
    rw [walkFrom_cons, List.length_cons, ih, sizeAll_append, sizeAll, size_eq]
    omega

/-- A walk over a tree goes from a node to all below it, part after part. It meets what is at each path of the
tree once, the paths in order, so that a node comes before all below it; a search meets those of them that are
of its kind. -/
structure DocumentOrder (node : Node α) : Prop where
  unfolds : node.walk = node :: node.children.flatMap walk
  length : node.walk.length = node.size
  follows : node.walk.map some = node.paths.map node.at?
  ascends : node.paths.Pairwise (· < ·)
  covers : ∀ path, path ∈ node.paths ↔ ∃ part, node.at? path = some part
  finds : ∀ kind, (node.findAll kind).map some =
    (node.paths.filter fun path => (node.at? path).any (isKind kind)).map node.at?
  picks : ∀ kind, (node.findAll kind).Sublist node.walk ∧
    node.findAll kind = (if node.isKind kind then [node] else []) ++ node.children.flatMap (findAll kind)

theorem walk_in_document_order (node : Node α) : DocumentOrder node := by
  have unfolds : node.walk = node :: node.children.flatMap walk := by
    rw [walk_eq_cons, walkFrom_eq_flatMap]
  have follows := (map_at?_paths node).symm
  refine ⟨unfolds, ?_, follows, pairwise_paths node, fun _ => mem_paths_iff, ?_, ?_⟩
  · rw [walk, length_walkFrom, sizeAll, sizeAll, Nat.add_zero]
  · intro kind
    have among := congrArg (List.filter (Option.any (isKind kind))) follows
    rw [List.filter_map, List.filter_map] at among
    exact among
  · intro kind
    refine ⟨List.filter_sublist, ?_⟩
    rw [findAll, unfolds, List.filter_cons, List.filter_flatMap]
    cases node.isKind kind <;> rfl

end SheetLint.Node
