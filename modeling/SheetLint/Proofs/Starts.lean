import SheetLint.Proofs.Letters
import SheetLint.Proofs.SheetLayout
import SheetLint.Proofs.Starters

/-! Where the nodes of a stylesheet start: a walk meets them in the order of their offsets, values included.
A value whose first part is named with a blank in front is the exception, for it starts past that blank. -/
namespace SheetLint

namespace Text

/-- A text that starts with blanks and goes on with none of them. -/
theorem leadingBlanks_append {gap rest : List Char} {c : Char} (blank : ∀ d ∈ gap, isBlank d)
    (visible : isBlank c = false) : leadingBlanks (gap ++ c :: rest) = gap.length := by
  rw [leadingBlanks_append_blanks blank, leadingBlanks]
  simp [visible]

theorem length_lt_leadingBlanks {gap rest : List Char} {c : Char} (blank : ∀ d ∈ gap, isBlank d)
    (further : isBlank c) : gap.length < leadingBlanks (gap ++ c :: rest) := by
  rw [leadingBlanks_append_blanks blank, leadingBlanks]
  simp [further]

end Text

namespace Node

variable {α β : Type}

/-- A part of a value with a name that starts with a blank. -/
def blankNamed : Node α → Bool
  | leaf (.ident name) _ | call name _ _ => name.toList.head?.any Text.isBlank
  | _ => false

/-- A value whose first part is named with a blank in front. -/
def opensBlank : Node α → Bool
  | value (first :: _) _ => first.blankNamed
  | _ => false

/-- Of two nodes that a walk meets one after the other, the first one does not start after the second one,
unless it is a value named with a blank in front and the second one is among its parts. -/
def InTurn (precedes : α → α → Prop) (first second : Node α) : Prop :=
  (∀ one ∈ first.start?, ∀ two ∈ second.start?, precedes one two) ∨
    first.opensBlank ∧ second ∈ walkFrom first.children

/-- A node starts after its first part. -/
def StartsLate (precedes : α → α → Prop) (node : Node α) : Prop :=
  ∃ first ∈ node.children.head?, ∃ one ∈ first.start?, ∃ two ∈ node.start?, ¬precedes two one

theorem blankNamed_map (f : α → β) (node : Node α) : (node.map f).blankNamed = node.blankNamed := by
  cases node with
  | leaf content => cases content <;> rfl
  | _ => rfl

theorem opensBlank_map (f : α → β) (node : Node α) : (node.map f).opensBlank = node.opensBlank := by
  cases node with
  | value parts =>
    cases parts with
    | nil => rfl
    | cons first rest => exact blankNamed_map f first
  | _ => rfl

theorem opensBlank_of_mark? {node : Node α} (marked : node.mark?.isSome) : node.opensBlank = false := by
  cases node <;> first | rfl | cases marked

theorem InTurn.map {f : α → β} {precedes : α → α → Prop} {later : β → β → Prop} {first second : Node α}
    (turn : InTurn precedes first second) (same : ∀ one two, precedes one two ↔ later (f one) (f two)) :
    InTurn later (first.map f) (second.map f) := by
  rcases turn with order | ⟨opens, inside⟩
  · left
    simp only [start?_map, Option.mem_def, Option.map_eq_some_iff]
    rintro _ ⟨one, here, rfl⟩ _ ⟨two, there, rfl⟩
    exact (same one two).mp (order one here two there)
  · right
    rw [opensBlank_map, children_map, walkFrom_map]
    exact ⟨opens, List.mem_map_of_mem inside⟩

theorem StartsLate.map {f : α → β} {precedes : α → α → Prop} {later : β → β → Prop} {node : Node α}
    (late : node.StartsLate precedes) (same : ∀ one two, precedes one two ↔ later (f one) (f two)) :
    (node.map f).StartsLate later := by
  obtain ⟨first, head, one, here, two, there, after⟩ := late
  refine ⟨first.map f, ?_, f one, ?_, f two, ?_, fun order => after ((same two one).mpr order)⟩
  · rw [children_map, List.head?_map]
    exact Option.mem_map_of_mem _ head
  · rw [start?_map]
    exact Option.mem_map_of_mem _ here
  · rw [start?_map]
    exact Option.mem_map_of_mem _ there

end Node

open Node (InTurn StartsLate walkFrom)

/-- Trees that start between two offsets, every node in its turn. -/
structure Ranked (low high : Nat) (nodes : List (Node Nat)) : Prop where
  within : ∀ node ∈ walkFrom nodes, ∀ start ∈ node.start?, low ≤ start ∧ start ≤ high
  ordered : (walkFrom nodes).Pairwise (InTurn (· ≤ ·))
  late : ∀ node ∈ walkFrom nodes, node.opensBlank → node.StartsLate (· ≤ ·)

namespace Ranked

variable {low mid high : Nat} {nodes others : List (Node Nat)}

theorem nil : Ranked low high [] := ⟨by simp, by simp, by simp⟩

theorem widen {low' high' : Nat} (ranked : Ranked low high nodes) (below : low' ≤ low)
    (above : high ≤ high') : Ranked low' high' nodes := by
  refine ⟨?_, ranked.ordered, ranked.late⟩
  intro node member start placed
  have bounds := ranked.within node member start placed
  omega

/-- Trees of one part of a text, and others of a later part. -/
theorem append (first : Ranked low mid nodes) (second : Ranked mid high others) (above : low ≤ mid)
    (below : mid ≤ high) : Ranked low high (nodes ++ others) := by
  refine ⟨?_, ?_, ?_⟩
  · rw [Node.walkFrom_append, List.forall_mem_append]
    exact ⟨(first.widen (Nat.le_refl _) below).within, (second.widen above (Nat.le_refl _)).within⟩
  · rw [Node.walkFrom_append, List.pairwise_append]
    refine ⟨first.ordered, second.ordered, ?_⟩
    intro front member back other
    left
    intro one here two there
    exact Nat.le_trans (first.within front member one here).2 (second.within back other two there).1
  · rw [Node.walkFrom_append, List.forall_mem_append]
    exact ⟨first.late, second.late⟩

/-- A node that starts before its parts. -/
theorem node {node : Node Nat} {start : Nat} (placed : node.start? = some start) (inside : start ≤ high)
    (visible : node.opensBlank = false) (parts : Ranked start high node.children) :
    Ranked start high [node] := by
  have walked : walkFrom [node] = node :: walkFrom node.children := node.walk_eq_cons
  refine ⟨?_, ?_, ?_⟩
  · rw [walked, List.forall_mem_cons, placed]
    refine ⟨?_, parts.within⟩
    rintro _ ⟨⟩
    exact ⟨Nat.le_refl _, inside⟩
  · rw [walked, List.pairwise_cons]
    refine ⟨?_, parts.ordered⟩
    intro part member
    left
    rw [placed]
    rintro _ ⟨⟩ two there
    exact (parts.within part member two there).1
  · rw [walked, List.forall_mem_cons, visible]
    exact ⟨nofun, parts.late⟩

/-- A value named with a blank in front starts after its first part. -/
theorem blank {node : Node Nat} {start : Nat} (placed : node.start? = some start) (after : low ≤ start)
    (inside : start ≤ high) (opens : node.opensBlank) (late : node.StartsLate (· ≤ ·))
    (parts : Ranked low high node.children) : Ranked low high [node] := by
  have walked : walkFrom [node] = node :: walkFrom node.children := node.walk_eq_cons
  refine ⟨?_, ?_, ?_⟩
  · rw [walked, List.forall_mem_cons, placed]
    refine ⟨?_, parts.within⟩
    rintro _ ⟨⟩
    exact ⟨after, inside⟩
  · rw [walked, List.pairwise_cons]
    exact ⟨fun part member => .inr ⟨opens, member⟩, parts.ordered⟩
  · rw [walked, List.forall_mem_cons]
    exact ⟨fun _ => late, parts.late⟩

/-- Past its first node a ranking starts no earlier than there. -/
theorem raise {first : Node Nat} {start : Nat} (ranked : Ranked low high (first :: others))
    (placed : first.start? = some start) (visible : first.opensBlank = false) :
    Ranked start high (first :: others) := by
  have ordered := ranked.ordered
  rw [Node.walkFrom_cons, List.pairwise_cons] at ordered
  have above : ∀ node ∈ walkFrom (first :: others), ∀ later ∈ node.start?, start ≤ later := by
    rw [Node.walkFrom_cons, List.forall_mem_cons, placed]
    refine ⟨?_, ?_⟩
    · rintro _ ⟨⟩
      exact Nat.le_refl _
    · intro node member later there
      rcases ordered.1 node member with order | ⟨opens, _⟩
      · exact order start placed later there
      · rw [visible] at opens
        cases opens
  exact ⟨fun node member later there =>
    ⟨above node member later there, (ranked.within node member later there).2⟩, ranked.ordered, ranked.late⟩

theorem shift (ranked : Ranked low high nodes) (offset : Nat) :
    Ranked (offset + low) (offset + high) (nodes.map (Node.map (offset + ·))) := by
  have same (one two : Nat) : one ≤ two ↔ offset + one ≤ offset + two := by omega
  refine ⟨?_, ?_, ?_⟩
  · intro node member start placed
    rw [Node.walkFrom_map, List.mem_map] at member
    obtain ⟨inner, present, rfl⟩ := member
    rw [Node.start?_map, Option.mem_def, Option.map_eq_some_iff] at placed
    obtain ⟨before, found, rfl⟩ := placed
    have bounds := ranked.within inner present before found
    omega
  · rw [Node.walkFrom_map]
    exact ranked.ordered.map _ fun _ _ turn => turn.map same
  · rw [Node.walkFrom_map, List.forall_mem_map]
    intro inner present opens
    rw [Node.opensBlank_map] at opens
    exact (ranked.late inner present opens).map same

/-- Nodes that are laid out in a text start in their turn, as far as they have a mark. -/
theorem of_laid {text : List Char} (laid : Laid text low high nodes)
    (marked : ∀ node ∈ walkFrom nodes, node.mark?.isSome) : Ranked low high nodes := by
  have mark {node : Node Nat} (member : node ∈ walkFrom nodes) {start : Nat}
      (placed : node.start? = some start) : ∃ kind, node.mark? = some (kind, start) := by
    obtain ⟨⟨kind, offset⟩, found⟩ := Option.isSome_iff_exists.mp (marked node member)
    rw [Node.start?_of_mark? found] at placed
    cases placed
    exact ⟨kind, found⟩
  refine ⟨?_, ?_, ?_⟩
  · intro node member start placed
    obtain ⟨kind, found⟩ := mark member placed
    obtain ⟨above, below, _⟩ := laid.carried node member kind start found
    exact ⟨above, Nat.le_of_lt below⟩
  · have ordered := laid.ordered
    rw [Node.marks, List.pairwise_filterMap] at ordered
    refine ordered.imp_of_mem ?_
    intro first second front back order
    left
    intro one here two there
    obtain ⟨_, found⟩ := mark front here
    obtain ⟨_, other⟩ := mark back there
    exact (order _ found _ other).1
  · intro node member opens
    rw [Node.opensBlank_of_mark? (marked node member)] at opens
    cases opens

end Ranked

namespace Value

/-- No token starts with a blank but one with a name. -/
theorem named_of_isBlank {kind : Terminal} {c : Char} {piece rest : List Char} (blank : Text.isBlank c)
    (taken : kind.extent.Takes (c :: piece) rest) : kind = .atom .ident ∨ kind = .function := by
  have starts : kind.starts c := startsIn_extent kind c _ _ taken (Nat.succ_pos _)
  have apart (d : Char) (visible : Text.isBlank d = false) : c ≠ d := Text.ne_of_class blank visible
  have noDigit := Text.isDigit_of_isBlank blank
  cases kind with
  | atom kind =>
    cases kind with
    | ident => exact .inl rfl
    | url =>
      have letter : c.toLower.isAlpha := by
        rw [beq_iff_eq.mp starts]
        rfl
      rw [Text.isAlpha_toLower] at letter
      rw [Text.isBlank_of_isAlpha letter] at blank
      cases blank
    | interpolation | color | important | bracketed | reference =>
      exact absurd (beq_iff_eq.mp starts) (apart _ (by decide))
    | dimension | percentage | number =>
      simp [Terminal.starts, Atom.starts, startsNumeral, noDigit, apart '+' (by decide),
        apart '-' (by decide), apart '.' (by decide)] at starts
    | quoted =>
      simp [Terminal.starts, Atom.starts, StringLiteral.isMark, apart '\x22' (by decide),
        apart '\x27' (by decide)] at starts
    | operator =>
      have visible : (!Text.isBlank c) = true := of_isOperator (!Text.isBlank ·) (by decide) starts
      exact absurd rfl (apart c (by simpa using visible))
  | function => exact .inr rfl
  | leftParen | rightParen => exact absurd (beq_iff_eq.mp starts) (apart _ (by decide))

theorem blankNamed_bare (part : Node Nat) : (bare part).blankNamed = part.blankNamed := by
  cases part <;> rfl

theorem pieces_eq_cons (part : Node Nat) : ∃ inside, pieces part = some (bare part) :: inside := by
  cases part <;> exact ⟨_, rfl⟩

/-- A part is named with a blank in front where its token starts with one. -/
theorem blankNamed_of_piece {token : Token Terminal} {text more : List Char} {c : Char} {part : Node Nat}
    (stands : token.StandsIn text) (begun : token.text = c :: more) (found : piece token = some part) :
    part.blankNamed = Text.isBlank c := by
  obtain ⟨rest, taken⟩ := stands.takes
  obtain ⟨kind, lexeme, offset⟩ := token
  subst begun
  by_cases blank : Text.isBlank c
  · rcases named_of_isBlank blank taken with rfl | rfl
    · cases found
      simp [Node.blankNamed, Atom.leaf]
    · have ends := takes_function taken
      cases found
      cases more with
      | nil =>
        have opens : c = '(' := by simpa using ends
        exact absurd opens (Text.ne_of_class blank (by decide))
      | cons => simp [Node.blankNamed]
  · have visible : Text.isBlank c = false := Bool.eq_false_iff.mpr blank
    rw [visible]
    cases kind with
    | atom kind =>
      cases kind <;> cases found <;> simp [Node.blankNamed, Atom.leaf, dimensionLeaf, visible]
    | function =>
      cases found
      cases more <;> simp [Node.blankNamed, visible]
    | leftParen =>
      cases found
      rfl
    | rightParen => cases found

end Value

/-- The first token of a text follows separators only. -/
theorem Divided.first {κ : Type} [Vocabulary κ] {offset : Nat} {text : List Char} {token : Token κ}
    {later : List (Token κ)} {stuck : Option (Char × Nat)}
    (divided : Divided offset text (token :: later) stuck) :
    ∃ gap rest, text = gap ++ (token.text ++ rest) ∧ (∀ c ∈ gap, isSeparator c) ∧
      token.offset = offset + gap.length := by
  generalize tokens : token :: later = found at divided
  induction divided with
  | finished | stuck => cases tokens
  | @separator _ c _ _ _ dropped _ ih =>
    obtain ⟨gap, rest, rfl, gaps, start⟩ := ih tokens
    refine ⟨c :: gap, rest, rfl, List.forall_mem_cons.mpr ⟨dropped, gaps⟩, ?_⟩
    rw [start, List.length_cons]
    omega
  | @token _ _ _ _ rest =>
    cases tokens
    exact ⟨[], rest, rfl, List.forall_mem_nil _, rfl⟩

namespace Value

section Assemble

variable {text : List Char} {parts : List (Node Nat)} {part : Node Nat} {others : List (Node Nat)}

theorem ranked_of_assemble
    (assembled : assemble (lex (κ := Terminal) text).stuck none [] [] (lex text).tokens = .ok parts) :
    Ranked 0 text.length parts := by
  refine Ranked.of_laid (laid_of_assemble assembled) ?_
  intro part member
  have made := isPart_of_assemble assembled member
  cases part <;> first | rfl | cases made

/-- The first part of a value starts where the first characters other than blanks do. If it is named with a
blank in front, it starts before them. -/
theorem start_of_first (assembled : assemble (lex (κ := Terminal) text).stuck none [] []
    (lex text).tokens = .ok (part :: others)) :
    part.mark?.isSome ∧ ∃ start, part.start? = some start ∧
      if part.blankNamed then start < Text.leadingBlanks text else Text.leadingBlanks text = start := by
  have written : piecesAll (part :: others) = (lex text).tokens.map piece := pieces_assemble assembled
  obtain ⟨inside, begins⟩ := pieces_eq_cons part
  rw [piecesAll, begins, List.cons_append] at written
  obtain ⟨token, later, lexed, found, _⟩ := List.map_eq_cons_iff.mp written.symm
  have stands : token.StandsIn text := standsIn_of_mem_lex proper_extent (by simp [lexed])
  obtain ⟨⟨kind, marked⟩, _⟩ := lexeme_piece stands found
  rw [mark?_bare] at marked
  refine ⟨by rw [marked]; rfl, token.offset, Node.start?_of_mark? marked, ?_⟩
  obtain ⟨c, more, begun⟩ := List.exists_cons_of_ne_nil stands.nonempty
  have divided : Divided 0 text (lex text).tokens (lex (κ := Terminal) text).stuck :=
    divided_lexFrom proper_extent text 0
  rw [lexed] at divided
  obtain ⟨gap, rest, rfl, gaps, start⟩ := divided.first
  have blank : ∀ d ∈ gap, Text.isBlank d := fun d member => Text.isBlank_of_isSeparator (gaps d member)
  rw [← blankNamed_bare, blankNamed_of_piece stands begun found, start, Nat.zero_add, begun,
    List.cons_append]
  split
  · rename_i opens
    exact Text.length_lt_leadingBlanks blank opens
  · rename_i opens
    exact Text.leadingBlanks_append blank (Bool.eq_false_iff.mpr opens)

end Assemble

/-- A value starts where its first part does, or past the blank that this is named with. -/
theorem ranked_of_read {text : List Char} {node : Node Nat} (read : Value.read text = .ok node) :
    Ranked 0 text.length [node] := by
  obtain ⟨parts, rfl, assembled⟩ := read_eq_ok.mp read
  have inner := ranked_of_assemble assembled
  have inside : Text.leadingBlanks text ≤ text.length := by
    have blanks := Text.length_trimStart text
    omega
  cases parts with
  | nil => exact (Ranked.node rfl inside rfl Ranked.nil).widen (Nat.zero_le _) (Nat.le_refl _)
  | cons part others =>
    obtain ⟨marked, start, placed, order⟩ := start_of_first assembled
    split at order
    · rename_i named
      refine Ranked.blank rfl (Nat.zero_le _) inside named ?_ inner
      exact ⟨part, rfl, start, placed, _, rfl, Nat.not_le_of_lt order⟩
    · rename_i named
      have visible : (Node.value (part :: others) start).opensBlank = false := Bool.eq_false_iff.mpr named
      have raised := inner.raise placed (Node.opensBlank_of_mark? marked)
      rw [order] at inside ⊢
      exact (Ranked.node rfl inside visible raised).widen (Nat.zero_le _) (Nat.le_refl _)

end Value

theorem Selector.ranked_of_read {text : List Char} {nodes : List (Node Nat)}
    (read : Selector.read text = .ok nodes) : Ranked 0 text.length nodes := by
  refine Ranked.of_laid (laid_of_read read).1 ?_
  obtain ⟨rfl, _⟩ := read_eq_ok read
  intro node member
  rw [Node.walkFrom_eq_flatMap, List.mem_flatMap] at member
  obtain ⟨_, root, inside⟩ := member
  obtain ⟨segment, _, rfl⟩ := List.mem_map.mp root
  rw [Node.walk_eq_cons, List.mem_cons] at inside
  rcases inside with rfl | below
  · rfl
  · change node ∈ Node.walkFrom (segment.filterMap component?) at below
    rw [walkFrom_components] at below
    obtain ⟨token, _, found⟩ := List.mem_filterMap.mp below
    obtain ⟨content, rfl, _⟩ := kind_of_component found
    rfl

theorem ranked_of_readValue {piece : List Char} {offset : Nat} {node : Node Nat}
    (read : readValue piece offset = .ok node) : Ranked offset (offset + piece.length) [node] := by
  unfold readValue at read
  split at read
  · rename_i value found
    cases read
    exact (Value.ranked_of_read found).shift offset
  · cases read

theorem ranked_of_readSelectors {piece : List Char} {offset : Nat} {nodes : List (Node Nat)}
    (read : readSelectors piece offset = .ok nodes) : Ranked offset (offset + piece.length) nodes := by
  unfold readSelectors at read
  split at read
  · rename_i selectors found
    cases read
    exact (Selector.ranked_of_read found).shift offset
  · cases read

namespace Chunk

variable {chunk : Chunk}

theorem ranked_of_plain {found : Option (Node Nat)} (read : chunk.Plain found) :
    Ranked chunk.offset chunk.stop found.toList := by
  have forward : chunk.offset ≤ chunk.stop := Nat.le_add_right _ _
  cases read with
  | empty => exact Ranked.nil
  | directive => exact Ranked.node rfl forward rfl Ranked.nil
  | @declaration property rest _ split _ value =>
    have size : chunk.stop = chunk.offset + (property.length + 1) + rest.length := by
      rw [stop, split, List.length_append, List.length_cons]
      omega
    have inner := (ranked_of_readValue value).widen (Nat.le_add_right chunk.offset _) (Nat.le_of_eq size.symm)
    exact Ranked.node rfl forward rfl inner

theorem ranked_of_blocked {brace high : Nat} {block : Node Nat} {found : Option (Node Nat)}
    (before : chunk.stop ≤ brace) (inside : brace ≤ high) (inner : Ranked brace high [block])
    (read : chunk.Blocked block found) : Ranked chunk.offset high found.toList := by
  have forward : chunk.offset ≤ chunk.stop := Nat.le_add_right _ _
  cases read with
  | group => exact Ranked.nil
  | atRule => exact Ranked.node rfl (by omega) rfl (inner.widen (by omega) (Nat.le_refl _))
  | ruleset _ _ listed =>
    have selectors := (ranked_of_readSelectors listed).widen (Nat.le_refl _) before
    exact Ranked.node rfl (by omega) rfl (selectors.append inner (by omega) inside)

end Chunk

namespace Outline

theorem ranked_of_trim {chunk : Chunk} {stop : Nat} {found : Option (Node Nat)}
    (read : chunk.trim.Plain found) (after : chunk.stop ≤ stop) :
    Ranked chunk.offset stop found.toList :=
  (Chunk.ranked_of_plain read).widen chunk.offset_le_trim (Nat.le_trans chunk.trim_stop_le after)

/-- The statements of a level start in their turn, from the start of the level to its stop. -/
theorem ranked_of_reads {text : List Char} {outline : Outline} {start : Nat} {brace? : Option Nat}
    {nodes : List (Node Nat)} (reads : outline.Reads brace? nodes) (tiles : outline.Tiles text start)
    (bound : start ≤ text.length) : Ranked start outline.stop nodes := by
  induction reads generalizing start with
  | complete found =>
    obtain _ | _ := tiles
    exact ranked_of_trim found (Nat.le_refl _)
  | closed found =>
    obtain _ | _ | _ := tiles
    exact ranked_of_trim found (Nat.le_succ _)
  | @statement _ chunk _ _ _ found rest ih =>
    obtain _ | _ | _ | ⟨ends, later⟩ := tiles
    have forward := (filled_of_reads rest later ends.stop_lt).forward
    exact (ranked_of_trim found (Nat.le_succ _)).append (ih later ends.stop_lt) (by unfold Chunk.stop; omega) forward
  | @nested _ head _ _ _ _ _ inner found rest ih ihNext =>
    obtain _ | _ | _ | _ | ⟨ends, body, later⟩ := tiles
    have filled := filled_of_reads inner body ends.stop_lt
    have forward := (filled_of_reads rest later filled.within).forward
    have shut := filled.forward
    have start := head.offset_le_trim
    have stop := head.trim_stop_le
    have block : Ranked head.stop _ [.block _ head.stop] :=
      Ranked.node rfl (by omega) rfl ((ih body ends.stop_lt).widen (Nat.le_succ _) (Nat.le_refl _))
    exact ((Chunk.ranked_of_blocked stop (by omega) block found).widen start (Nat.le_refl _)).append
      (ihNext later filled.within) (by unfold Chunk.stop at *; omega) forward

end Outline

/-- The statements of a stylesheet start in their turn. -/
theorem ranked_of_readSheet {text : List Char} {tree : Node Nat}
    (read : (readSheet text).result = .ok tree) : Ranked 0 text.length tree.children := by
  obtain ⟨statements, rfl, reads⟩ := reads_of_readSheet read
  have filled := Outline.filled_of_reads reads (Outline.tiles_ofText text) (Nat.zero_le _)
  exact (Outline.ranked_of_reads reads (Outline.tiles_ofText text) (Nat.zero_le _)).widen (Nat.le_refl _)
    filled.within

/-- No node of some trees starts past an offset. -/
def Node.StartBy (bound : Nat) (nodes : List (Node Nat)) : Prop :=
  ∀ node ∈ walkFrom nodes, ∀ start ∈ node.start?, start ≤ bound

theorem startBy_of_readSheet {text : List Char} {tree : Node Nat}
    (read : (readSheet text).result = .ok tree) : Node.StartBy text.length tree.children :=
  fun node member start placed => ((ranked_of_readSheet read).within node member start placed).2

end SheetLint
