import SheetLint.Proofs.Reading
import SheetLint.Proofs.Tiling

/-! The blocks of an outline lie between matching braces of its text. -/
namespace SheetLint

/-- A block between two braces: its head, the offset of its closing brace, and the heads of the blocks
around it, outermost first. -/
structure Enclosure where
  around : List Chunk
  head : Chunk
  closing : Nat

namespace Enclosure

/-- The offset of the opening brace. -/
def opening (block : Enclosure) : Nat := block.head.stop

/-- Whether a block is a part of the tree. Groups of nested properties are left out, and so is all that
stands in them. -/
def isKept (block : Enclosure) : Bool :=
  (block.around ++ [block.head]).all fun head => !head.trim.isGroupHead

/-- Whether a block stands between the braces of another. -/
def encloses (outer inner : Enclosure) : Bool :=
  decide (outer.opening < inner.opening ∧ inner.closing < outer.closing)

theorem not_encloses_of_opening {outer inner : Enclosure} (before : inner.opening ≤ outer.opening) :
    outer.encloses inner = false :=
  decide_eq_false fun within => Nat.not_lt_of_le before within.1

theorem not_encloses_of_closing {outer inner : Enclosure} (after : outer.closing ≤ inner.closing) :
    outer.encloses inner = false :=
  decide_eq_false fun within => Nat.not_lt_of_le after within.2

end Enclosure

namespace Outline

/-- The offset of the brace that closes a level, or at which the text ends. -/
def closing : Outline → Nat
  | complete chunk => chunk.stop
  | broken failure => failure.offset
  | closed chunk => chunk.stop
  | statement _ next => next.closing
  | nested _ _ next => next.closing
  | unclosed _ body => body.closing

def isClosed : Outline → Bool
  | complete _ | broken _ | unclosed _ _ => false
  | closed _ => true
  | statement _ next => next.isClosed
  | nested _ _ next => next.isClosed

/-- The blocks of a level that are closed, in the order of their opening braces. -/
def enclosures (around : List Chunk) : Outline → List Enclosure
  | complete _ | broken _ | closed _ => []
  | statement _ next => next.enclosures around
  | nested head body next =>
    ⟨around, head, body.closing⟩ ::
      (body.enclosures (around ++ [head]) ++ next.enclosures around)
  | unclosed head body => body.enclosures (around ++ [head])

/-- The delimiters of a level and of the blocks within it. -/
def sites : Outline → List Site
  | complete _ | broken _ => []
  | closed chunk => [(chunk.stop, .closing)]
  | statement chunk next => (chunk.stop, .semicolon) :: next.sites
  | nested head body next => (head.stop, .opening) :: (body.sites ++ next.sites)
  | unclosed head body => (head.stop, .opening) :: body.sites

/-- Levels are made of all cuts, each of them once. -/
theorem sites_levels (ending : Ending) (cuts : List Cut) :
    (levels ending cuts).1.sites ++ (levels ending cuts).2.flatMap sites = cuts.map Cut.site := by
  induction cuts with
  | nil => cases ending <;> rfl
  | cons cut rest ih =>
    obtain ⟨chunk, delimiter⟩ := cut
    rw [List.map_cons, ← ih]
    cases found : levels ending rest with
    | mk level outer =>
    cases delimiter with
    | semicolon => simp [levels, found, sites, Cut.site]
    | closing => simp [levels, found, sites, Cut.site]
    | opening => cases outer <;> simp [levels, found, sites, Cut.site]

/-- Each level but the outermost is closed. -/
theorem isChain_levels (ending : Ending) (cuts : List Cut) :
    List.IsChain (fun (level _ : Outline) => level.isClosed)
      ((levels ending cuts).1 :: (levels ending cuts).2) := by
  induction cuts with
  | nil => cases ending <;> exact .singleton _
  | cons cut rest ih =>
    obtain ⟨chunk, delimiter⟩ := cut
    cases found : levels ending rest with
    | mk level outer =>
    rw [found] at ih
    cases delimiter with
    | semicolon =>
      simp only [levels, found]
      cases outer with
      | nil => exact .singleton _
      | cons next outer => simpa [List.isChain_cons_cons, isClosed] using ih
    | closing =>
      simp only [levels, found]
      exact .cons_cons rfl ih
    | opening =>
      simp only [levels, found]
      cases outer with
      | nil => exact .singleton _
      | cons next outer =>
        obtain ⟨_, others⟩ := List.isChain_cons_cons.mp ih
        cases outer with
        | nil => exact .singleton _
        | cons after outer => simpa [List.isChain_cons_cons, isClosed] using others

/-- Where no brace closes the first level there are no other levels. -/
theorem levels_snd_eq_nil {ending : Ending} {cuts : List Cut}
    (final : (levels ending cuts).1.isClosed = false) : (levels ending cuts).2 = [] := by
  have chain := isChain_levels ending cuts
  cases outer : (levels ending cuts).2 with
  | nil => rfl
  | cons next others =>
    rw [outer, List.isChain_cons_cons] at chain
    simp [final] at chain

/-- A text of which no brace closes the first level has its delimiters in that level. -/
theorem sites_ofText {text : List Char} (final : (ofText 0 text).isClosed = false) :
    (ofText 0 text).sites = structural text := by
  have whole := sites_levels (cuts 0 text).ending (cuts 0 text).cuts
  rw [levels_snd_eq_nil final, List.flatMap_nil, List.append_nil, sites_cuts] at whole
  exact whole

/-- A level that starts at an offset and in which nothing is left open. -/
inductive Whole : Nat → Outline → Prop
  | complete (chunk : Chunk) : Whole chunk.offset (.complete chunk)
  | closed (chunk : Chunk) : Whole chunk.offset (.closed chunk)
  | statement {chunk : Chunk} {next : Outline} (rest : Whole (chunk.stop + 1) next) :
      Whole chunk.offset (.statement chunk next)
  | nested {head : Chunk} {body next : Outline} (shut : body.isClosed)
      (inner : Whole (head.stop + 1) body) (rest : Whole (body.closing + 1) next) :
      Whole head.offset (.nested head body next)

theorem stop_of_isClosed {outline : Outline} (shut : outline.isClosed) :
    outline.stop = outline.closing + 1 := by
  induction outline with
  | closed => rfl
  | statement _ _ ih => exact ih shut
  | nested _ _ _ _ ih => exact ih shut
  | _ => cases shut

/-- A level that is read has nothing left open. It is closed where it belongs to a block. -/
theorem whole_of_reads {text : List Char} {outline : Outline} {start : Nat} {brace? : Option Nat}
    {nodes : List (Node Nat)} (reads : outline.Reads brace? nodes) (tiles : outline.Tiles text start) :
    outline.Whole start ∧ outline.isClosed = brace?.isSome := by
  induction reads generalizing start with
  | complete =>
    cases tiles
    exact ⟨.complete _, rfl⟩
  | closed =>
    cases tiles
    exact ⟨.closed _, rfl⟩
  | statement _ _ ih =>
    obtain _ | _ | _ | ⟨_, next⟩ := tiles
    obtain ⟨rest, final⟩ := ih next
    exact ⟨.statement rest, final⟩
  | nested _ _ _ ih ihNext =>
    obtain _ | _ | _ | _ | ⟨_, body, next⟩ := tiles
    obtain ⟨inner, shut⟩ := ih body
    obtain ⟨rest, final⟩ := ihNext next
    rw [stop_of_isClosed shut] at rest
    exact ⟨.nested shut inner rest, final⟩

namespace Whole

variable {outline : Outline} {start : Nat}

theorem start_le_closing (whole : outline.Whole start) : start ≤ outline.closing := by
  induction whole with
  | complete | closed => exact Nat.le_add_right _ _
  | @statement chunk next _ ih =>
    have forward : chunk.offset ≤ chunk.stop := Nat.le_add_right _ _
    change chunk.offset ≤ next.closing
    omega
  | @nested head body next _ _ _ ih ihNext =>
    have forward : head.offset ≤ head.stop := Nat.le_add_right _ _
    change head.offset ≤ next.closing
    omega

/-- The blocks of a level stand in it. -/
theorem bounds (whole : outline.Whole start) (around : List Chunk) :
    ∀ block ∈ outline.enclosures around,
      start ≤ block.opening ∧ block.opening < block.closing ∧ block.closing < outline.closing := by
  induction whole generalizing around with
  | complete | closed => exact List.forall_mem_nil _
  | @statement chunk next _ ih =>
    intro block member
    have forward : chunk.offset ≤ chunk.stop := Nat.le_add_right _ _
    obtain ⟨above, order, below⟩ := ih around block member
    exact ⟨by omega, order, below⟩
  | @nested head body next _ inner rest ih ihNext =>
    have forward : head.offset ≤ head.stop := Nat.le_add_right _ _
    have within := inner.start_le_closing
    have after := rest.start_le_closing
    intro block member
    change _ ∧ _ ∧ block.closing < next.closing
    rcases List.mem_cons.mp member with rfl | member
    · exact ⟨forward, within, after⟩
    · rcases List.mem_append.mp member with below | later
      · obtain ⟨above, order, before⟩ := ih _ block below
        exact ⟨by omega, order, by omega⟩
      · obtain ⟨above, order, before⟩ := ihNext _ block later
        exact ⟨by omega, order, before⟩

/-- Within a level the delimiters are balanced, and braces match where they are those of a block. -/
theorem balanced (whole : outline.Whole start) (around : List Chunk) :
    ∃ inner, outline.sites = inner ++ (if outline.isClosed then [(outline.closing, .closing)] else []) ∧
      Balanced inner ∧ ∀ one two, Matching inner one two ↔
        ∃ block ∈ outline.enclosures around, block.opening = one ∧ block.closing = two := by
  induction whole generalizing around with
  | complete | closed => exact ⟨[], rfl, .nil, by simp [Matching.not_nil, enclosures]⟩
  | @statement chunk next _ ih =>
    obtain ⟨inner, split, balanced, pairs⟩ := ih around
    refine ⟨(chunk.stop, .semicolon) :: inner, ?_, balanced.semicolon _, ?_⟩
    · rw [sites, split]
      rfl
    · intro one two
      rw [Matching.semicolon_iff]
      exact pairs one two
  | @nested head body next shut _ _ ih ihNext =>
    obtain ⟨inner, split, balanced, pairs⟩ := ih (around ++ [head])
    obtain ⟨later, splitNext, balancedNext, pairsNext⟩ := ihNext around
    rw [if_pos shut] at split
    refine ⟨(head.stop, .opening) :: (inner ++ (body.closing, .closing) :: later), ?_,
      balanced.nested _ _ balancedNext, ?_⟩
    · rw [sites, split, splitNext]
      simp only [List.cons_append, List.append_assoc, List.nil_append]
      rfl
    · intro one two
      rw [Matching.nested_iff balanced, pairs, pairsNext, enclosures]
      simp [Enclosure.opening, or_and_right, exists_or]

/-- Blocks are listed in the order in which they are opened. -/
theorem ordered (whole : outline.Whole start) (around : List Chunk) :
    (outline.enclosures around).Pairwise fun first second => first.opening < second.opening := by
  induction whole generalizing around with
  | complete | closed => exact .nil
  | statement _ ih => exact ih around
  | @nested head body next _ inner rest ih ihNext =>
    have within := inner.start_le_closing
    refine List.pairwise_cons.mpr ⟨?_, List.pairwise_append.mpr ⟨ih _, ihNext _, ?_⟩⟩
    · intro block member
      change head.stop < block.opening
      rcases List.mem_append.mp member with below | later
      · have above := (inner.bounds _ block below).1
        omega
      · have above := (rest.bounds _ block later).1
        omega
    · intro block below other later
      obtain ⟨_, order, before⟩ := inner.bounds _ block below
      have above := (rest.bounds _ other later).1
      omega

section Nested

/-! A block between others of its level: it encloses the blocks in its body and nothing else. -/

variable {head : Chunk} {body next : Outline} (inner : body.Whole (head.stop + 1))
  (rest : next.Whole (body.closing + 1)) {around : List Chunk}

include inner

theorem head_encloses {block : Enclosure} (member : block ∈ body.enclosures (around ++ [head])) :
    Enclosure.encloses ⟨around, head, body.closing⟩ block := by
  obtain ⟨above, _, below⟩ := inner.bounds _ block member
  exact decide_eq_true ⟨above, below⟩

include rest

theorem not_encloses_head {block : Enclosure}
    (member : block ∈ (Outline.nested head body next).enclosures around) :
    block.encloses ⟨around, head, body.closing⟩ = false := by
  apply Enclosure.not_encloses_of_opening
  have within := inner.start_le_closing
  change head.stop ≤ block.opening
  rcases List.mem_cons.mp member with rfl | member
  · exact Nat.le_refl _
  · rcases List.mem_append.mp member with below | later
    · have above := (inner.bounds _ block below).1
      omega
    · have above := (rest.bounds _ block later).1
      omega

theorem apart {block other : Enclosure} (below : block ∈ body.enclosures (around ++ [head]))
    (later : other ∈ next.enclosures around) :
    block.encloses other = false ∧ other.encloses block = false := by
  obtain ⟨_, order, before⟩ := inner.bounds _ block below
  obtain ⟨above, orderNext, _⟩ := rest.bounds _ other later
  constructor
  · apply Enclosure.not_encloses_of_closing
    omega
  · apply Enclosure.not_encloses_of_opening
    omega

omit inner

theorem not_head_encloses {block : Enclosure} (member : block ∈ next.enclosures around) :
    Enclosure.encloses ⟨around, head, body.closing⟩ block = false := by
  obtain ⟨above, order, _⟩ := rest.bounds _ block member
  apply Enclosure.not_encloses_of_closing
  change body.closing ≤ block.closing
  omega

include inner

/-- What a block encloses among the blocks of its level is what stands in its body. -/
theorem filter_head (among : Enclosure → Bool) :
    ((Outline.nested head body next).enclosures around).filter
      (fun block => among block && Enclosure.encloses ⟨around, head, body.closing⟩ block) =
      (body.enclosures (around ++ [head])).filter among := by
  have here : Enclosure.encloses ⟨around, head, body.closing⟩ ⟨around, head, body.closing⟩ = false :=
    not_encloses_head inner rest List.mem_cons_self
  have after : (next.enclosures around).filter
      (fun block => among block && Enclosure.encloses ⟨around, head, body.closing⟩ block) = [] := by
    apply List.filter_eq_nil_iff.mpr
    intro block later
    simp [not_head_encloses rest later]
  rw [enclosures, List.filter_cons, List.filter_append, after, here, Bool.and_false, List.append_nil]
  apply List.filter_congr
  intro block below
  rw [head_encloses inner below, Bool.and_true]

theorem filter_body (among : Enclosure → Bool) {outer : Enclosure}
    (below : outer ∈ body.enclosures (around ++ [head])) :
    ((Outline.nested head body next).enclosures around).filter
      (fun block => among block && outer.encloses block) =
      (body.enclosures (around ++ [head])).filter fun block => among block && outer.encloses block := by
  have here : outer.encloses ⟨around, head, body.closing⟩ = false := not_encloses_head inner rest
    (List.mem_cons_of_mem _ (List.mem_append_left _ below))
  have after : (next.enclosures around).filter
      (fun block => among block && outer.encloses block) = [] := by
    apply List.filter_eq_nil_iff.mpr
    intro block later
    simp [(apart inner rest below later).1]
  rw [enclosures, List.filter_cons, List.filter_append, after, here, Bool.and_false, List.append_nil]
  rfl

theorem filter_next (among : Enclosure → Bool) {outer : Enclosure}
    (later : outer ∈ next.enclosures around) :
    ((Outline.nested head body next).enclosures around).filter
      (fun block => among block && outer.encloses block) =
      (next.enclosures around).filter fun block => among block && outer.encloses block := by
  have here : outer.encloses ⟨around, head, body.closing⟩ = false := not_encloses_head inner rest
    (List.mem_cons_of_mem _ (List.mem_append_right _ later))
  have before : (body.enclosures (around ++ [head])).filter
      (fun block => among block && outer.encloses block) = [] := by
    apply List.filter_eq_nil_iff.mpr
    intro block below
    simp [(apart inner rest below later).2]
  rw [enclosures, List.filter_cons, List.filter_append, before, here, Bool.and_false, List.nil_append]
  rfl

end Nested

/-- The heads around a block are those of the blocks that enclose it. -/
theorem around_eq (whole : outline.Whole start) (around : List Chunk) :
    ∀ block ∈ outline.enclosures around, block.around =
      around ++ ((outline.enclosures around).filter (·.encloses block)).map Enclosure.head := by
  induction whole generalizing around with
  | complete | closed => exact List.forall_mem_nil _
  | statement _ ih => exact ih around
  | @nested head body next _ inner rest ih ihNext =>
    intro block member
    rcases List.mem_cons.mp member with rfl | below
    · have none : ((Outline.nested head body next).enclosures around).filter
          (·.encloses ⟨around, head, body.closing⟩) = [] := by
        apply List.filter_eq_nil_iff.mpr
        intro other present
        simp [not_encloses_head inner rest present]
      rw [none, List.map_nil, List.append_nil]
    · rw [enclosures, List.filter_cons, List.filter_append]
      rcases List.mem_append.mp below with below | later
      · have none : (next.enclosures around).filter (·.encloses block) = [] := by
          apply List.filter_eq_nil_iff.mpr
          intro other present
          simp [(apart inner rest below present).2]
        rw [if_pos (head_encloses inner below), none, List.append_nil, List.map_cons, ih _ block below]
        simp
      · have none : (body.enclosures (around ++ [head])).filter (·.encloses block) = [] := by
          apply List.filter_eq_nil_iff.mpr
          intro other present
          simp [(apart inner rest present later).1]
        rw [not_head_encloses rest later, none, List.nil_append]
        exact ihNext around block later

end Whole
end Outline
end SheetLint
