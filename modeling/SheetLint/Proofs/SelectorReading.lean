import SheetLint.Proofs.Layout

/-! Selector lists read from tokens: commas split the tokens into segments, none of them empty, and every
segment makes one selector. -/
namespace SheetLint.Selector

def isComma (token : Token Terminal) : Bool := token.kind == .comma

/-- The selector that reaches over some tokens. -/
def ofTokens (text : List Char) (tokens : List (Token Terminal)) : Node Nat :=
  node text (tokens.filterMap component?) ((tokens.head?.map Token.offset).getD 0)
    ((tokens.getLast?.map Token.stop).getD 0)

/-- The group that some tokens make, the latest of them first. -/
def gather : List (Token Terminal) → Option Group
  | [] => none
  | token :: before =>
    some ⟨((gather before).map Group.start).getD token.offset, token.stop,
      (token :: before).filterMap component?⟩

theorem component?_eq_none {token : Token Terminal} : component? token = none ↔ isComma token := by
  obtain ⟨kind, text, offset⟩ := token
  cases kind <;> simp [component?, isComma]

theorem isComma_of_component {token : Token Terminal} {component : Node Nat}
    (found : component? token = some component) : isComma token = false := by
  rw [← Bool.not_eq_true, ← component?_eq_none, found]
  simp

theorem gather_cons {token : Token Terminal} {before : List (Token Terminal)} {component : Node Nat}
    (found : component? token = some component) :
    gather (token :: before) = some (Group.push component token (gather before)) := by
  cases before <;> simp [gather, Group.push, found]

theorem start_of_gather {taken : List (Token Terminal)} {group : Group}
    (found : gather taken = some group) :
    group.start = (taken.getLast?.map Token.offset).getD 0 := by
  induction taken generalizing group with
  | nil => cases found
  | cons token before ih =>
    cases before with
    | nil =>
      cases found
      rfl
    | cons other further =>
      cases found
      simpa [gather] using ih rfl

theorem node_of_gather (text : List Char) {taken : List (Token Terminal)} {group : Group}
    (found : gather taken = some group) : group.node text = ofTokens text taken.reverse := by
  have start := start_of_gather found
  cases taken with
  | nil => cases found
  | cons token before =>
    cases found
    rw [Group.node, start, ofTokens, List.filterMap_reverse, List.head?_reverse, List.getLast?_reverse]
    rfl

/-- Each comma ends a selector, and what was taken before goes with the tokens up to the first comma. -/
theorem segments_of_assemble {text : List Char} {stuck : Option (Char × Nat)}
    {last : Option (Token Terminal)} {taken tokens : List (Token Terminal)} {nodes : List (Node Nat)}
    (read : assemble text stuck last (gather taken) tokens = .ok nodes) :
    nodes = (tokens.splitOnPPrepend isComma taken).map (ofTokens text) ∧
      ∀ segment ∈ tokens.splitOnPPrepend isComma taken, segment ≠ [] := by
  induction tokens generalizing last taken nodes with
  | nil =>
    cases stuck with
    | some place => simp [assemble] at read
    | none =>
      cases taken with
      | nil => simp [assemble, gather] at read
      | cons token before =>
        cases read
        refine ⟨?_, by simp⟩
        rw [List.splitOnPPrepend_nil, List.map_singleton, ← node_of_gather text rfl]
  | cons token rest ih =>
    cases found : component? token with
    | some component =>
      have kept := isComma_of_component found
      have further : assemble text stuck (some token) (gather (token :: taken)) rest = .ok nodes := by
        rw [gather_cons found]
        simpa [assemble, found] using read
      rw [List.splitOnPPrepend_cons_neg kept]
      exact ih further
    | none =>
      have comma := component?_eq_none.mp found
      rw [List.splitOnPPrepend_cons_pos comma, ← List.splitOnPPrepend_nil_right]
      cases taken with
      | nil => simp [assemble, found, gather] at read
      | cons previous before =>
        simp only [assemble, found, gather] at read
        cases later : assemble text stuck (some token) none rest with
        | error mismatch => simp [later, bind, Except.bind] at read
        | ok others =>
          rw [later] at read
          cases read
          have rest : assemble text stuck (some token) (gather []) rest = .ok others := later
          obtain ⟨same, nonempty⟩ := ih rest
          refine ⟨?_, ?_⟩
          · rw [List.map_cons, ← same, ← node_of_gather text rfl]
          · simpa using nonempty

theorem flatten_splitOnPPrepend {α : Type} (p : α → Bool) (items before : List α) :
    (items.splitOnPPrepend p before).flatten = before.reverse ++ items.filter (!p ·) := by
  induction items generalizing before with
  | nil => simp
  | cons item rest ih =>
    by_cases apart : p item
    · rw [List.splitOnPPrepend_cons_pos apart, ← List.splitOnPPrepend_nil_right, List.flatten_cons, ih]
      simp [apart]
    · rw [List.splitOnPPrepend_cons_neg (by simpa using apart), ih]
      simp [apart]

/-- The segments between commas hold the tokens that are none. -/
theorem mem_filter_of_segment {tokens segment : List (Token Terminal)} {token : Token Terminal}
    (member : segment ∈ tokens.splitOnP isComma) (inside : token ∈ segment) :
    token ∈ tokens.filter (!isComma ·) := by
  rw [← List.nil_append (List.filter _ _), ← List.reverse_nil, ← flatten_splitOnPPrepend,
    List.splitOnPPrepend_nil_right]
  exact List.mem_flatten_of_mem member inside

theorem read_eq_ok {text : List Char} {nodes : List (Node Nat)} (read : read text = .ok nodes) :
    nodes = ((lex (κ := Terminal) text).tokens.splitOnP isComma).map (ofTokens text) ∧
      ∀ segment ∈ (lex (κ := Terminal) text).tokens.splitOnP isComma, segment ≠ [] := by
  have whole : assemble text (lex (κ := Terminal) text).stuck none (gather []) (lex text).tokens =
      .ok nodes := read
  rw [← List.splitOnPPrepend_nil_right]
  exact segments_of_assemble whole

section Laid

variable {text : List Char} {low high : Nat}

/-- Tokens in order, each in its place between two offsets. -/
structure Row (text : List Char) (low high : Nat) (tokens : List (Token Terminal)) : Prop where
  standing : ∀ token ∈ tokens, token.StandsIn text
  ordered : tokens.Pairwise Token.Precedes
  within : ∀ token ∈ tokens, low ≤ token.offset ∧ token.stop ≤ high

theorem Row.tail {token : Token Terminal} {rest : List (Token Terminal)}
    (row : Row text low high (token :: rest)) : Row text token.stop high rest := by
  obtain ⟨before, ordered⟩ := List.pairwise_cons.mp row.ordered
  refine ⟨fun other member => row.standing other (List.mem_cons_of_mem _ member), ordered, ?_⟩
  intro other member
  exact ⟨before other member, (row.within other (List.mem_cons_of_mem _ member)).2⟩

theorem laid_component {token : Token Terminal} {component : Node Nat} (stands : token.StandsIn text)
    (found : component? token = some component) :
    Laid text token.offset token.stop [component] := by
  have lexeme := lexeme_component stands found
  have leaf : ∃ content, component = .leaf content token.offset := by
    obtain ⟨kind, piece, offset⟩ := token
    cases kind <;> cases found <;> exact ⟨_, rfl⟩
  obtain ⟨content, rfl⟩ := leaf
  exact Laid.node rfl stands.offset_lt_stop trivial ⟨token.text, lexeme, stands.lexeme⟩ Laid.nil
    (by simp [Node.children, Node.marks])

/-- The components of a row of tokens are laid out as the tokens are. -/
theorem laid_components {tokens : List (Token Terminal)} (row : Row text low high tokens) :
    Laid text low high (tokens.filterMap component?) := by
  induction tokens generalizing low with
  | nil => exact Laid.nil
  | cons token rest ih =>
    obtain ⟨above, below⟩ := row.within token List.mem_cons_self
    have stands := row.standing token List.mem_cons_self
    have later := ih row.tail
    have forward := stands.offset_lt_stop
    cases found : component? token with
    | none =>
      rw [List.filterMap_cons_none found]
      exact later.widen (by omega) (Nat.le_refl _)
    | some component =>
      rw [List.filterMap_cons_some found, ← List.singleton_append]
      exact ((laid_component stands found).widen above (Nat.le_refl _)).append later (by omega) below

theorem kind_of_component {token : Token Terminal} {component : Node Nat}
    (found : component? token = some component) :
    ∃ content, component = .leaf content token.offset ∧
      (Node.leafKind content = .pseudo ∨ Node.leafKind content = .simple) := by
  obtain ⟨kind, piece, offset⟩ := token
  cases kind with
  | pseudo =>
    cases found
    exact ⟨_, rfl, .inl rfl⟩
  | simple kind =>
    cases found
    exact ⟨_, rfl, .inr rfl⟩
  | comma => cases found

/-- Components have no parts. -/
theorem walkFrom_components (tokens : List (Token Terminal)) :
    Node.walkFrom (tokens.filterMap component?) = tokens.filterMap component? := by
  apply Node.walkFrom_eq_self
  intro part member
  obtain ⟨token, _, found⟩ := List.mem_filterMap.mp member
  obtain ⟨content, rfl, _⟩ := kind_of_component found
  rfl

theorem kind_of_components {tokens : List (Token Terminal)} {mark : Node.Kind × Nat}
    (member : mark ∈ Node.marks (tokens.filterMap component?)) :
    mark.1 = .pseudo ∨ mark.1 = .simple := by
  induction tokens with
  | nil => simp [Node.marks] at member
  | cons token rest ih =>
    cases found : component? token with
    | none =>
      rw [List.filterMap_cons_none found] at member
      exact ih member
    | some component =>
      obtain ⟨content, rfl, sort⟩ := kind_of_component found
      rw [List.filterMap_cons_some found, ← List.singleton_append, Node.marks_append,
        List.mem_append] at member
      rcases member with here | later
      · simp [Node.marks, Node.walkFrom_cons, Node.children, Node.mark?] at here
        rw [here]
        exact sort
      · exact ih later

/-- The sorts of nodes of which selectors are made. -/
def isPart : Node.Kind → Bool
  | .selector | .pseudo | .simple => true
  | _ => false

theorem isPart_of_segments {text : List Char} {segments : List (List (Token Terminal))}
    {mark : Node.Kind × Nat} (member : mark ∈ Node.marks (segments.map (ofTokens text))) :
    isPart mark.1 := by
  induction segments with
  | nil => simp [Node.marks] at member
  | cons segment rest ih =>
    rw [List.map_cons, ← List.singleton_append, Node.marks_append, List.mem_append] at member
    rcases member with here | later
    · have parts : Node.marks [ofTokens text segment] =
          (.selector, (segment.head?.map Token.offset).getD 0) ::
            Node.marks (segment.filterMap component?) := by
        rw [Node.marks, Node.walkFrom_cons, List.append_nil]
        rfl
      rw [parts] at here
      rcases List.mem_cons.mp here with rfl | below
      · rfl
      · rcases kind_of_components below with sort | sort <;> rw [sort] <;> rfl
    · exact ih later

/-- The first and the last token of a row that is not empty. -/
theorem Row.ends {tokens : List (Token Terminal)} (row : Row text low high tokens)
    (nonempty : tokens ≠ []) :
    ∃ first ∈ tokens, ∃ last ∈ tokens, tokens.head? = some first ∧ tokens.getLast? = some last ∧
      Row text first.offset last.stop tokens := by
  have first := List.head?_eq_some_head nonempty
  have last := List.getLast?_eq_some_getLast nonempty
  refine ⟨_, List.head_mem nonempty, _, List.getLast_mem nonempty, first, last, row.standing,
    row.ordered, ?_⟩
  intro token member
  constructor
  · obtain ⟨_, rest, rfl⟩ := List.exists_cons_of_ne_nil nonempty
    rcases List.mem_cons.mp member with rfl | later
    · exact Nat.le_refl _
    · have before : Token.Precedes _ token := (List.pairwise_cons.mp row.ordered).1 token later
      have forward := (row.standing _ List.mem_cons_self).offset_lt_stop
      unfold Token.Precedes at before
      simp only [List.head_cons]
      omega
  · have split := List.dropLast_append_getLast nonempty
    have ordered := row.ordered
    rw [← split, List.pairwise_append] at ordered
    rw [← split] at member
    rcases List.mem_append.mp member with earlier | here
    · have before := ordered.2.2 token earlier _ List.mem_cons_self
      have forward := (row.standing _ (List.getLast_mem nonempty)).offset_lt_stop
      unfold Token.Precedes at before
      omega
    · rw [List.mem_singleton.mp here]

/-- A selector stands where its first component does and shows its text there. -/
theorem laid_ofTokens {tokens : List (Token Terminal)} (row : Row text low high tokens)
    (nonempty : tokens ≠ []) : Laid text low high [ofTokens text tokens] := by
  obtain ⟨first, here, last, there, head, final, tight⟩ := row.ends nonempty
  have parts := laid_components tight
  have inside : first.offset < last.stop := by
    have bounds := (tight.within first here).2
    have forward := (tight.standing first here).offset_lt_stop
    omega
  have same : ofTokens text tokens =
      node text (tokens.filterMap component?) first.offset last.stop := by
    rw [ofTokens, head, final]
    rfl
  rw [same]
  refine Laid.widen ?_ (row.within first here).1 (row.within last there).2
  refine Laid.node rfl inside trivial ?_ parts ?_
  · refine ⟨_, rfl, ?_⟩
    rw [String.toList_ofList]
    exact List.take_prefix _ _
  · intro member
    rcases kind_of_components member with sort | sort <;> cases sort

/-- Segments of a row make selectors that are laid out one after the other. -/
theorem laid_segments {segments : List (List (Token Terminal))}
    (row : Row text low high segments.flatten) (nonempty : ∀ segment ∈ segments, segment ≠ []) :
    Laid text low high (segments.map (ofTokens text)) := by
  induction segments generalizing low with
  | nil => exact Laid.nil
  | cons segment rest ih =>
    obtain ⟨ordered, others, apart⟩ := List.pairwise_append.mp row.ordered
    have first : Row text low high segment :=
      ⟨fun token member => row.standing token (List.mem_append_left _ member), ordered,
        fun token member => row.within token (List.mem_append_left _ member)⟩
    have filled := nonempty segment List.mem_cons_self
    obtain ⟨_, _, last, there, _, _, tight⟩ := first.ends filled
    have bounds := row.within last (List.mem_append_left _ there)
    have forward := (row.standing last (List.mem_append_left _ there)).offset_lt_stop
    have here : Row text low last.stop segment :=
      ⟨first.standing, ordered, fun token member =>
        ⟨(first.within token member).1, (tight.within token member).2⟩⟩
    have later : Row text last.stop high rest.flatten :=
      ⟨fun token member => row.standing token (List.mem_append_right _ member), others,
        fun token member => ⟨apart last there token member,
          (row.within token (List.mem_append_right _ member)).2⟩⟩
    rw [List.map_cons, ← List.singleton_append]
    exact (laid_ofTokens here filled).append
      (ih later fun other member => nonempty other (List.mem_cons_of_mem _ member))
      (by omega) bounds.2

theorem row_lex (text : List Char) :
    Row text 0 text.length ((lex (κ := Terminal) text).tokens.filter (!isComma ·)) := by
  have standing (token : Token Terminal) (member : token ∈ (lex text).tokens.filter (!isComma ·)) :
      token.StandsIn text :=
    standsIn_of_mem_lex proper_extent (List.mem_of_mem_filter member)
  exact ⟨standing, (lex_pairwise proper_extent text).filter _,
    fun token member => ⟨Nat.zero_le _, (standing token member).stop_le⟩⟩

/-- The selectors that a text lists are laid out in it. -/
theorem laid_of_read {nodes : List (Node Nat)} (read : read text = .ok nodes) :
    Laid text 0 text.length nodes ∧ (∀ mark ∈ Node.marks nodes, isPart mark.1) ∧
      ∀ node ∈ nodes, node.isKind .selector := by
  obtain ⟨rfl, nonempty⟩ := read_eq_ok read
  refine ⟨laid_segments ?_ nonempty, fun mark => isPart_of_segments, ?_⟩
  · rw [← List.splitOnPPrepend_nil_right, flatten_splitOnPPrepend]
    exact row_lex text
  · intro node member
    obtain ⟨segment, _, rfl⟩ := List.mem_map.mp member
    rfl

end Laid

/-- If a text starts with no separator, its first selector starts it. -/
theorem head_of_read {c : Char} {rest : List Char} (visible : isSeparator c = false)
    {nodes : List (Node Nat)} (read : read (c :: rest) = .ok nodes) :
    ∃ first others piece, nodes = first :: others ∧ first.selectorText? = some piece ∧
      piece.toList <+: c :: rest := by
  obtain ⟨rfl, nonempty⟩ := read_eq_ok read
  cases found : (lex (κ := Terminal) (c :: rest)).tokens with
  | nil => simp [found] at nonempty
  | cons token later =>
    have offset := head_lex_offset visible found
    rw [List.splitOnP_cons_eq_if_modifyHead]
    rw [found, List.splitOnP_cons_eq_if_modifyHead] at nonempty
    by_cases comma : isComma token
    · simp [comma] at nonempty
    · simp only [comma, Bool.false_eq_true, ↓reduceIte] at nonempty ⊢
      cases split : later.splitOnP isComma with
      | nil => exact absurd split (List.splitOnP_ne_nil _ _)
      | cons segment others =>
        refine ⟨ofTokens (c :: rest) (token :: segment), others.map _, _, rfl, rfl, ?_⟩
        rw [String.toList_ofList, List.head?_cons, Option.map_some, Option.getD_some, offset]
        exact List.take_prefix _ _

end SheetLint.Selector
