import SheetLint.Proofs.Place
import SheetLint.Proofs.Starts

/-! The places of a stylesheet in document order: along a walk lines and columns never decrease, but from a
value to its parts where the first of these is named with a blank in front. -/
namespace SheetLint

/-- By line, and by column within a line, the first place does not lie after the second one. -/
def Position.NotAfter (first second : Position) : Prop :=
  first.line < second.line ∨ first.line = second.line ∧ first.column ≤ second.column

instance (first second : Position) : Decidable (first.NotAfter second) :=
  inferInstanceAs (Decidable (_ ∨ _))

/-- A further offset has a later place, beyond the end of the text as well. -/
theorem LineIndex.locate_precedes (text : List Char) {first second : Nat} (before : first < second) :
    ((ofText text).locate first).Precedes ((ofText text).locate second) := by
  -- Spaces at the end of a text do not change its lines.
  have breaks (offset count : Nat) :
      startsAfterBreaks (· == '\n') offset (List.replicate count ' ') = [] := by
    induction count generalizing offset with
    | zero => rfl
    | succ count ih => simp [List.replicate_succ, startsAfterBreaks, ih]
  have same : ofText (text ++ List.replicate second ' ') = ofText text := by
    simp [ofText, startsAfterBreaks_append, breaks]
  have within : second ≤ (text ++ List.replicate second ' ').length := by simp
  rw [← same, locate_ofText _ (by omega), locate_ofText _ within]
  exact Position.after_take_precedes before within

theorem LineIndex.locate_notAfter_iff (text : List Char) (one two : Nat) :
    one ≤ two ↔ ((ofText text).locate one).NotAfter ((ofText text).locate two) := by
  constructor
  · intro order
    rcases Nat.lt_or_eq_of_le order with before | rfl
    · have place := locate_precedes text before
      unfold Position.Precedes at place
      unfold Position.NotAfter
      omega
    · exact .inr ⟨rfl, Int.le_refl _⟩
  · intro order
    by_contra behind
    have place := locate_precedes text (Nat.lt_of_not_le behind)
    unfold Position.Precedes at place
    unfold Position.NotAfter at order
    omega

namespace Node

variable {α : Type} {node : Node α} {nodes : List (Node α)}

/-- A walk meets all of a node's own walk in one go. -/
theorem walkFrom_eq_append_of_mem (member : node ∈ walkFrom nodes) :
    ∃ before after, walkFrom nodes = before ++ (node.walk ++ after) := by
  induction nodes using walkFrom.induct with
  | case1 => simp at member
  | case2 first pending ih =>
    rw [walkFrom_cons] at member ⊢
    rcases List.mem_cons.mp member with rfl | later
    · exact ⟨[], walkFrom pending, by rw [walk_eq_cons, walkFrom_append, List.cons_append]; rfl⟩
    · obtain ⟨before, after, split⟩ := ih later
      exact ⟨first :: before, after, by rw [split, List.cons_append]⟩

/-- Nodes in their turn start in order where none of them starts late. -/
theorem pairwise_starts_iff {precedes : α → α → Prop} (ordered : node.walk.Pairwise (InTurn precedes))
    (late : ∀ inner ∈ node.walk, inner.opensBlank → inner.StartsLate precedes) :
    (node.walk.filterMap start?).Pairwise precedes ↔ ∀ inner ∈ node.walk, inner.opensBlank = false := by
  rw [List.pairwise_filterMap]
  constructor
  · intro starts inner member
    by_contra opens
    obtain ⟨first, head, one, here, two, there, after⟩ := late inner member (by simpa using opens)
    obtain ⟨others, parts⟩ := List.head?_eq_some_iff.mp head
    obtain ⟨before, behind, split⟩ := walkFrom_eq_append_of_mem member
    change node.walk = _ at split
    rw [split, walk_eq_cons, parts, walkFrom_cons] at starts
    have own := (List.pairwise_append.mp (List.pairwise_append.mp starts).2.1).1
    exact after ((List.pairwise_cons.mp own).1 first List.mem_cons_self two there one here)
  · intro visible
    refine ordered.imp_of_mem ?_
    rintro first second member _ (order | ⟨opens, _⟩)
    · exact order
    · rw [visible first member] at opens
      cases opens

end Node

/-- Along a walk through a parsed tree the places of nodes never decrease, except from a value whose first part
is named with a blank in front to parts of that value. Such a value does start after its first part, so that
the places are in order just where there is none. -/
theorem starts_follow_walk {source : String} {tree : Node Position} (parsed : parse source = .ok tree) :
    tree.walk.Pairwise (Node.InTurn Position.NotAfter) ∧
      (∀ node ∈ tree.walk, node.opensBlank → node.StartsLate Position.NotAfter) ∧
      ((tree.walk.filterMap Node.start?).Pairwise Position.NotAfter ↔
        ∀ node ∈ tree.walk, node.opensBlank = false) := by
  obtain ⟨placed, read, rfl⟩ := parse_eq_ok.mp parsed
  obtain ⟨statements, rfl, _⟩ := laid_of_readSheet read
  have ranked : Ranked 0 (sheetText source).length [.stylesheet statements 0] :=
    Ranked.node rfl (Nat.zero_le _) rfl (ranked_of_readSheet read)
  have same := LineIndex.locate_notAfter_iff (sheetText source)
  have ordered : ((Node.stylesheet statements 0).map
      (LineIndex.ofText (sheetText source)).locate).walk.Pairwise (Node.InTurn Position.NotAfter) := by
    rw [Node.walk_map]
    exact ranked.ordered.map _ fun _ _ turn => turn.map same
  have late : ∀ node ∈ ((Node.stylesheet statements 0).map
      (LineIndex.ofText (sheetText source)).locate).walk, node.opensBlank →
      node.StartsLate Position.NotAfter := by
    rw [Node.walk_map, List.forall_mem_map]
    intro inner member opens
    rw [Node.opensBlank_map] at opens
    exact (ranked.late inner member opens).map same
  exact ⟨ordered, late, Node.pairwise_starts_iff ordered late⟩

/-- A rule on two lines, its value behind blanks. -/
theorem starts_follow_walk_of_rule :
    ∃ tree, parse "a\n\x7bb:\t c\x7d" = .ok tree ∧
      (tree.walk.filterMap Node.start?).Pairwise Position.NotAfter := by
  have parsed : parse "a\n\x7bb:\t c\x7d" = .ok (.stylesheet
      [.ruleset [.selector [.leaf (.simple .type "a") ⟨1, 1⟩] "a" ⟨1, 1⟩]
        (.block [.declaration "b" (.value [.leaf (.ident "c") ⟨2, 6⟩] ⟨2, 6⟩) ⟨2, 2⟩] ⟨2, 1⟩) ⟨1, 1⟩]
      ⟨1, 1⟩) := by rfl
  refine ⟨_, parsed, (starts_follow_walk parsed).2.2.mpr ?_⟩
  simp only [Node.walk, Node.walkFrom_cons, Node.children, Node.walkFrom_nil, List.append_nil,
    List.cons_append, List.nil_append]
  decide

/-- A name may start with a blank that separates no tokens, and the value then starts after it. -/
theorem value_starts_after_blank_name :
    ∃ tree, parse "a\x7bb:\u00a0c\x7d" = .ok tree ∧
      ¬(tree.walk.filterMap Node.start?).Pairwise Position.NotAfter := by
  have parsed : parse "a\x7bb:\u00a0c\x7d" = .ok (.stylesheet
      [.ruleset [.selector [.leaf (.simple .type "a") ⟨1, 1⟩] "a" ⟨1, 1⟩]
        (.block [.declaration "b" (.value [.leaf (.ident "\u00a0c") ⟨1, 5⟩] ⟨1, 6⟩) ⟨1, 3⟩] ⟨1, 2⟩) ⟨1, 1⟩]
      ⟨1, 1⟩) := by rfl
  refine ⟨_, parsed, ?_⟩
  have order : ¬[(⟨1, 1⟩ : Position), ⟨1, 1⟩, ⟨1, 1⟩, ⟨1, 1⟩, ⟨1, 2⟩, ⟨1, 3⟩, ⟨1, 6⟩, ⟨1, 5⟩].Pairwise
      Position.NotAfter := by decide
  simpa only [Node.walk, Node.walkFrom_cons, Node.children, Node.start?, Node.walkFrom_nil,
    List.filterMap_cons, List.filterMap_nil, List.append_nil, List.cons_append, List.nil_append] using order

end SheetLint
