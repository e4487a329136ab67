import SheetLint.Sheet.Cut

/-! The braces that a flat pass over a text meets, and how they match. -/
namespace SheetLint

/-- A delimiter and its offset. -/
abbrev Site := Nat × Delimiter

/-- The length of the string or the interpolation that a text starts with. What is left open reaches to
the end of the text. -/
def sheltered? : List Char → Option Nat
  | [] => none
  | c :: rest =>
    if StringLiteral.isMark c then
      match StringLiteral.close c rest with
      | .ok length => some (length + 1)
      | .error _ => some (rest.length + 1)
    else (interpolation? (c :: rest)).map fun found => found.getD (rest.length + 1)

/-- One pass over a text from an offset on. `pending` characters are sheltered, and `depth` parentheses
are open. -/
def structuralFrom (offset depth pending : Nat) : List Char → List Site
  | [] => []
  | c :: rest =>
    match pending with
    | pending + 1 => structuralFrom (offset + 1) depth pending rest
    | 0 =>
      match sheltered? (c :: rest) with
      | some length => structuralFrom (offset + 1) depth (length - 1) rest
      | none =>
        if c = '(' then structuralFrom (offset + 1) (depth + 1) 0 rest
        else if c = ')' then structuralFrom (offset + 1) (depth - 1) 0 rest
        else match depth, delimiter? c with
          | 0, some delimiter => (offset, delimiter) :: structuralFrom (offset + 1) 0 0 rest
          | _, _ => structuralFrom (offset + 1) depth 0 rest

/-- The delimiters of a text outside strings, interpolation and parentheses. -/
def structural (text : List Char) : List Site := structuralFrom 0 0 0 text

/-- What a delimiter adds to the number of open blocks. -/
def Delimiter.rise : Delimiter → Int
  | .semicolon => 0
  | .opening => 1
  | .closing => -1

/-- How many more blocks some delimiters open than they close. -/
def height : List Site → Int
  | [] => 0
  | site :: rest => site.2.rise + height rest

/-- No first part of the delimiters closes more than it opens, and nothing is left open. -/
structure Balanced (sites : List Site) : Prop where
  above : ∀ front back, sites = front ++ back → 0 ≤ height front
  level : height sites = 0

/-- The brace at one offset is closed by the brace at another: what stands between them is balanced. -/
def Matching (sites : List Site) (first last : Nat) : Prop :=
  ∃ front inner back, sites = front ++ (first, .opening) :: (inner ++ (last, .closing) :: back) ∧
    Balanced inner

@[simp] theorem height_nil : height [] = 0 := rfl

@[simp] theorem height_cons (site : Site) (sites : List Site) :
    height (site :: sites) = site.2.rise + height sites := rfl

@[simp] theorem height_append (front back : List Site) :
    height (front ++ back) = height front + height back := by
  induction front with
  | nil => simp
  | cons site rest ih => rw [List.cons_append, height_cons, height_cons, ih, Int.add_assoc]

namespace Balanced

variable {sites inner rest : List Site}

theorem nil : Balanced [] := by
  refine ⟨?_, rfl⟩
  intro front back split
  obtain ⟨rfl, _⟩ := List.append_eq_nil_iff.mp split.symm
  exact Int.le_refl _

theorem semicolon (offset : Nat) (balanced : Balanced rest) :
    Balanced ((offset, .semicolon) :: rest) := by
  constructor
  · intro front back split
    rcases List.cons_eq_append_iff.mp split with ⟨rfl, _⟩ | ⟨later, rfl, remains⟩
    · exact Int.le_refl _
    · have above := balanced.above later back remains
      simpa [Delimiter.rise] using above
  · simpa [Delimiter.rise] using balanced.level

/-- A block of balanced delimiters before other balanced delimiters. -/
theorem nested (first last : Nat) (within : Balanced inner) (after : Balanced rest) :
    Balanced ((first, .opening) :: (inner ++ (last, .closing) :: rest)) := by
  constructor
  · intro front back split
    rcases List.cons_eq_append_iff.mp split with ⟨rfl, _⟩ | ⟨begun, rfl, remains⟩
    · exact Int.le_refl _
    · rcases List.append_eq_append_iff.mp remains with ⟨beyond, rfl, later⟩ | ⟨left, rfl, _⟩
      · rcases List.cons_eq_append_iff.mp later with ⟨rfl, _⟩ | ⟨past, rfl, others⟩
        · simp [within.level, Delimiter.rise]
        · have above := after.above past back others
          simp only [height_cons, height_append, within.level, Delimiter.rise]
          omega
      · have above := within.above begun left rfl
        simp only [height_cons, Delimiter.rise]
        omega
  · simp [within.level, after.level, Delimiter.rise]

/-- Balanced delimiters do not start with others that are balanced and a closing brace. -/
theorem not_append_closing {last : Nat} (within : Balanced inner) :
    ¬Balanced (inner ++ (last, .closing) :: rest) := by
  intro balanced
  have above := balanced.above (inner ++ [(last, .closing)]) rest (by simp)
  simp [within.level, Delimiter.rise] at above

/-- Where balanced delimiters end is told by the closing brace that follows them. -/
theorem append_closing_inj {other later : List Site} {one two : Nat} (first : Balanced inner)
    (second : Balanced other)
    (same : inner ++ (one, .closing) :: rest = other ++ (two, .closing) :: later) :
    inner = other ∧ one = two := by
  rcases List.append_eq_append_iff.mp same with ⟨extra, rfl, split⟩ | ⟨extra, rfl, split⟩
  · rcases List.cons_eq_append_iff.mp split with ⟨rfl, here⟩ | ⟨_, rfl, _⟩
    · cases here
      simp
    · exact absurd second first.not_append_closing
  · rcases List.cons_eq_append_iff.mp split with ⟨rfl, here⟩ | ⟨_, rfl, _⟩
    · cases here
      simp
    · exact absurd first second.not_append_closing

end Balanced

namespace Matching

variable {inner rest : List Site} {first last one two : Nat}

theorem not_nil : ¬Matching [] one two := by
  intro holds
  obtain ⟨front, _, _, split, _⟩ := holds
  simp at split

theorem semicolon_iff (offset : Nat) :
    Matching ((offset, .semicolon) :: rest) one two ↔ Matching rest one two := by
  constructor
  · intro holds
    obtain ⟨front, within, back, split, balanced⟩ := holds
    rcases List.cons_eq_append_iff.mp split with ⟨_, here⟩ | ⟨later, _, remains⟩
    · simp at here
    · exact ⟨later, within, back, remains, balanced⟩
  · intro holds
    obtain ⟨front, within, back, rfl, balanced⟩ := holds
    exact ⟨(offset, .semicolon) :: front, within, back, rfl, balanced⟩

/-- A brace that is opened among balanced delimiters is closed among them. -/
theorem of_opened_within {front within back later : List Site}
    (balanced : Balanced (front ++ (one, .opening) :: later))
    (split : later ++ (last, .closing) :: rest = within ++ (two, .closing) :: back)
    (matched : Balanced within) : ∃ left, later = within ++ (two, .closing) :: left := by
  have above := balanced.above front _ rfl
  have level := balanced.level
  simp only [height_append, height_cons, Delimiter.rise] at level
  rcases List.append_eq_append_iff.mp split with ⟨extra, rfl, remains⟩ | ⟨extra, rfl, remains⟩
  · -- The delimiters past the opening brace fall by one, which a first part of balanced ones does not.
    have risen := matched.above later extra rfl
    omega
  · rcases List.cons_eq_append_iff.mp remains with ⟨rfl, _⟩ | ⟨left, rfl, _⟩
    · simp only [height_append, matched.level, height_nil] at level
      omega
    · exact ⟨left, rfl⟩

/-- The braces around a block match, and then those within it and those after it. -/
theorem nested_iff (balanced : Balanced inner) :
    Matching ((first, .opening) :: (inner ++ (last, .closing) :: rest)) one two ↔
      (first = one ∧ last = two) ∨ Matching inner one two ∨ Matching rest one two := by
  constructor
  · intro holds
    obtain ⟨front, within, back, split, matched⟩ := holds
    rcases List.cons_eq_append_iff.mp split with ⟨_, here⟩ | ⟨begun, _, remains⟩
    · injection here with opened remains
      cases opened
      obtain ⟨_, same⟩ := matched.append_closing_inj balanced remains
      exact .inl ⟨rfl, same.symm⟩
    · rcases List.append_eq_append_iff.mp remains with ⟨extra, _, beyond⟩ | ⟨extra, rfl, inside⟩
      · rcases List.cons_eq_append_iff.mp beyond with ⟨_, here⟩ | ⟨later, _, others⟩
        · simp at here
        · exact .inr (.inr ⟨later, within, back, others, matched⟩)
      · rcases List.cons_eq_append_iff.mp inside with ⟨_, here⟩ | ⟨later, rfl, others⟩
        · simp at here
        · obtain ⟨left, rfl⟩ := of_opened_within balanced others.symm matched
          exact .inr (.inl ⟨begun, within, left, rfl, matched⟩)
  · rintro (⟨rfl, rfl⟩ | ⟨front, within, back, rfl, matched⟩ | ⟨front, within, back, rfl, matched⟩)
    · exact ⟨[], inner, rest, rfl, balanced⟩
    · exact ⟨(first, .opening) :: front, within, back ++ (last, .closing) :: rest, by simp, matched⟩
    · exact ⟨(first, .opening) :: (inner ++ (last, .closing) :: front), within, back, by simp, matched⟩

end Matching

theorem structuralFrom_of_length_le {text : List Char} {offset depth pending : Nat}
    (sheltered : text.length ≤ pending) : structuralFrom offset depth pending text = [] := by
  induction text generalizing offset pending with
  | nil => rfl
  | cons c rest ih =>
    cases pending with
    | zero => simp at sheltered
    | succ pending => exact ih (Nat.le_of_succ_le_succ sheltered)

/-- What the pass that cuts a text does at one character, and what the flat pass does there. -/
inductive PassStep (start : Nat) (taken : List Char) (depth pending : Nat) (c : Char) (rest : List Char) :
    Prop
  | next (depth' pending' : Nat)
      (cuts : cutsFrom start taken depth pending (c :: rest) =
        cutsFrom start (c :: taken) depth' pending' rest)
      (sites : ∀ offset, structuralFrom offset depth pending (c :: rest) =
        structuralFrom (offset + 1) depth' pending' rest)
  | broken (failure : Failure)
      (cuts : cutsFrom start taken depth pending (c :: rest) = ⟨[], .broken failure⟩)
      (sites : ∀ offset, structuralFrom offset depth pending (c :: rest) = [])
  | cut (delimiter : Delimiter) (found : delimiter? c = some delimiter)
      (cuts : cutsFrom start taken depth pending (c :: rest) =
        ⟨⟨⟨taken.reverse, start⟩, delimiter⟩ :: (cutsFrom (start + taken.length + 1) [] 0 0 rest).cuts,
          (cutsFrom (start + taken.length + 1) [] 0 0 rest).ending⟩)
      (sites : ∀ offset, structuralFrom offset depth pending (c :: rest) =
        (offset, delimiter) :: structuralFrom (offset + 1) 0 0 rest)

theorem step_cutsFrom (start : Nat) (taken : List Char) (depth pending : Nat) (c : Char)
    (rest : List Char) : PassStep start taken depth pending c rest := by
  have beyond (offset : Nat) : structuralFrom (offset + 1) depth rest.length rest = [] :=
    structuralFrom_of_length_le (Nat.le_refl _)
  cases pending with
  | succ pending => exact .next depth pending rfl fun _ => rfl
  | zero =>
    by_cases quoted : StringLiteral.isMark c
    · cases closed : StringLiteral.close c rest with
      | ok length =>
        apply PassStep.next depth length
        · simp [cutsFrom, quoted, closed]
        · simp [structuralFrom, sheltered?, quoted, closed]
      | error followed =>
        apply PassStep.broken ⟨.openString, start + taken.length + 1 + followed⟩
        · simp [cutsFrom, quoted, closed]
        · simp [structuralFrom, sheltered?, quoted, closed, beyond]
    · cases inside : interpolation? (c :: rest) with
      | some found =>
        cases found with
        | some length =>
          apply PassStep.next depth (length - 1)
          · simp [cutsFrom, quoted, inside]
          · simp [structuralFrom, sheltered?, quoted, inside]
        | none =>
          apply PassStep.broken ⟨.openInterpolation, start + taken.length⟩
          · simp [cutsFrom, quoted, inside]
          · simp [structuralFrom, sheltered?, quoted, inside, beyond]
      | none =>
        have free : sheltered? (c :: rest) = none := by simp [sheltered?, quoted, inside]
        by_cases opens : c = '('
        · apply PassStep.next (depth + 1) 0
          · simp only [cutsFrom, if_neg quoted, inside, if_pos opens]
          · simp only [structuralFrom, free, if_pos opens, implies_true]
        · by_cases closes : c = ')'
          · apply PassStep.next (depth - 1) 0
            · simp only [cutsFrom, if_neg quoted, inside, if_neg opens, if_pos closes]
            · simp only [structuralFrom, free, if_neg opens, if_pos closes, implies_true]
          · cases depth with
            | succ depth =>
              apply PassStep.next (depth + 1) 0
              · simp only [cutsFrom, if_neg quoted, inside, if_neg opens, if_neg closes]
              · simp only [structuralFrom, free, if_neg opens, if_neg closes, implies_true]
            | zero =>
              cases found : delimiter? c with
              | none =>
                apply PassStep.next 0 0
                · simp only [cutsFrom, if_neg quoted, inside, if_neg opens, if_neg closes, found]
                · simp only [structuralFrom, free, if_neg opens, if_neg closes, found, implies_true]
              | some delimiter =>
                apply PassStep.cut delimiter found
                · simp only [cutsFrom, if_neg quoted, inside, if_neg opens, if_neg closes, found]
                · simp only [structuralFrom, free, if_neg opens, if_neg closes, found, implies_true]

/-- A cut as the flat pass sees it. -/
def Cut.site (cut : Cut) : Site := (cut.chunk.stop, cut.delimiter)

/-- The cuts of a text are made at its structural delimiters. -/
theorem sites_cutsFrom (start : Nat) (taken : List Char) (depth pending : Nat) (rest : List Char) :
    (cutsFrom start taken depth pending rest).cuts.map Cut.site =
      structuralFrom (start + taken.length) depth pending rest := by
  induction rest generalizing start taken depth pending with
  | nil => rfl
  | cons c rest ih =>
    cases step_cutsFrom start taken depth pending c rest with
    | next depth' pending' cuts sites =>
      rw [cuts, sites]
      exact ih start (c :: taken) depth' pending'
    | broken failure cuts sites =>
      rw [cuts, sites]
      rfl
    | cut delimiter found cuts sites =>
      have stop : (⟨taken.reverse, start⟩ : Chunk).stop = start + taken.length := by
        simp [Chunk.stop]
      rw [cuts, sites, List.map_cons, Cut.site, ih, stop]
      rfl

theorem sites_cuts (text : List Char) : (cuts 0 text).cuts.map Cut.site = structural text :=
  sites_cutsFrom 0 [] 0 0 text

end SheetLint
