import SheetLint.Proofs.Extent

/-! Tokens stand where their text says: each is the preferred lexeme at its offset, and each ends before
the next one starts. -/
namespace SheetLint

variable {κ : Type} [Vocabulary κ]

/-- A token holds the preferred lexeme of a text at its offset. -/
structure Token.StandsIn (token : Token κ) (text : List Char) : Prop where
  preferred : recognise (text.drop token.offset) = some (token.kind, token.text.length)
  lexeme : token.text <+: text.drop token.offset
  nonempty : token.text ≠ []

/-- Of two tokens the first one ends before the second one starts. -/
def Token.Precedes (first second : Token κ) : Prop := first.stop ≤ second.offset

theorem extent_of_recognise {text : List Char} {kind : κ} {length : Nat}
    (found : recognise text = some (kind, length)) : Vocabulary.extent kind text = some length := by
  obtain ⟨other, _, same⟩ := List.exists_of_findSome?_eq_some found
  simp only [Option.map_eq_some_iff, Prod.mk.injEq] at same
  obtain ⟨_, taken, rfl, rfl⟩ := same
  exact taken

/-- A kind of token is recognised where its lexeme stands and none of the kinds that are preferred to it. -/
theorem recognise_eq_some_iff [DecidableEq κ] {kind : κ} {text : List Char}
    {length : Nat} : recognise text = some (kind, length) ↔
      kind ∈ (Vocabulary.preference : List κ) ∧ Vocabulary.extent kind text = some length ∧
        ∀ other ∈ (Vocabulary.preference : List κ).takeWhile (· != kind),
          Vocabulary.extent other text = none := by
  unfold recognise
  generalize (Vocabulary.preference : List κ) = kinds
  induction kinds with
  | nil => simp
  | cons first rest ih =>
    by_cases same : first = kind
    · subst same
      rw [List.findSome?_cons]
      cases found : Vocabulary.extent first text with
      | none =>
        rw [found] at ih
        simp [ih]
      | some other => simp
    · have apart : (first != kind) = true := by simpa using same
      have split : (first :: rest).takeWhile (· != kind) = first :: rest.takeWhile (· != kind) :=
        List.takeWhile_cons_of_pos apart
      cases found : Vocabulary.extent first text with
      | none => simp [split, found, ih, Ne.symm same]
      | some other => simp [split, found, same]

namespace Token.StandsIn

variable {token : Token κ} {text : List Char}

theorem takes (stands : token.StandsIn text) :
    ∃ rest, (Vocabulary.extent token.kind).Takes token.text rest := by
  obtain ⟨rest, split⟩ := stands.lexeme
  refine ⟨rest, ?_⟩
  rw [Extent.Takes, split]
  exact extent_of_recognise stands.preferred

theorem stop_le (stands : token.StandsIn text) : token.stop ≤ text.length := by
  have fits := stands.lexeme.length_le
  have some := List.length_pos_iff.mpr stands.nonempty
  rw [List.length_drop] at fits
  unfold Token.stop
  omega

theorem offset_lt_stop (stands : token.StandsIn text) : token.offset < token.stop := by
  have some := List.length_pos_iff.mpr stands.nonempty
  unfold Token.stop
  omega

end Token.StandsIn

section Lex

variable (proper : ∀ kind : κ, (Vocabulary.extent kind).Proper)
include proper

private theorem standsIn_of_recognise {whole text : List Char} {offset length : Nat} {kind : κ}
    (placed : whole.drop offset = text) (found : recognise text = some (kind, length)) :
    (Token.mk kind (text.take length) offset).StandsIn whole ∧ (text.take length).length = length := by
  obtain ⟨positive, fits⟩ := proper kind text length (extent_of_recognise found)
  have size : (text.take length).length = length := by simp [fits]
  refine ⟨⟨?_, ?_, ?_⟩, size⟩
  · rw [placed, size, found]
  · rw [placed]
    exact List.take_prefix length text
  · intro empty
    rw [← List.length_eq_zero_iff, size] at empty
    omega

/-- The tokens of the rest of a text stand in the whole of it, in order, past what was pending. -/
theorem lexFrom_standsIn {whole text : List Char} {offset pending : Nat}
    (placed : whole.drop offset = text) :
    (∀ token ∈ (lexFrom (κ := κ) offset pending text).tokens,
      token.StandsIn whole ∧ offset + pending ≤ token.offset) ∧
    (lexFrom (κ := κ) offset pending text).tokens.Pairwise Token.Precedes := by
  induction text generalizing offset pending with
  | nil => simp [lexFrom]
  | cons c rest ih =>
    have next : whole.drop (offset + 1) = rest := by
      rw [← List.drop_drop, placed, List.drop_succ_cons, List.drop_zero]
    cases pending with
    | succ pending =>
      obtain ⟨standing, ordered⟩ := @ih (offset + 1) pending next
      refine ⟨?_, ordered⟩
      intro token member
      obtain ⟨stands, bound⟩ := standing token member
      exact ⟨stands, by omega⟩
    | zero =>
      simp only [lexFrom]
      split
      · obtain ⟨standing, ordered⟩ := @ih (offset + 1) 0 next
        refine ⟨?_, ordered⟩
        intro token member
        obtain ⟨stands, bound⟩ := standing token member
        exact ⟨stands, by omega⟩
      · split
        · simp
        · rename_i kind length found
          obtain ⟨here, size⟩ := standsIn_of_recognise proper placed found
          obtain ⟨standing, ordered⟩ := @ih (offset + 1) (length - 1) next
          have apart := here.offset_lt_stop
          simp only [Token.stop, size] at apart
          constructor
          · intro token member
            rcases List.mem_cons.mp member with rfl | later
            · exact ⟨here, by simp⟩
            · obtain ⟨stands, bound⟩ := standing token later
              exact ⟨stands, by omega⟩
          · refine List.pairwise_cons.mpr ⟨?_, ordered⟩
            intro token later
            have bound := (standing token later).2
            simp only [Token.Precedes, Token.stop, size]
            omega

theorem standsIn_of_mem_lex {text : List Char} {token : Token κ} (member : token ∈ (lex text).tokens) :
    token.StandsIn text :=
  ((lexFrom_standsIn proper List.drop_zero).1 token member).1

theorem lex_pairwise (text : List Char) : (lex (κ := κ) text).tokens.Pairwise Token.Precedes :=
  (lexFrom_standsIn proper List.drop_zero).2

theorem lex_offsets_increase (text : List Char) :
    (lex (κ := κ) text).tokens.Pairwise fun first second => first.offset < second.offset := by
  apply (lex_pairwise proper text).imp_of_mem
  intro first second member _ before
  exact Nat.lt_of_lt_of_le (standsIn_of_mem_lex proper member).offset_lt_stop before

end Lex

/-- A kind of token starts a text, and none of the kinds that are preferred to it does. -/
def Preferred (kind : κ) (text : List Char) (length : Nat) : Prop :=
  ∃ before after, Vocabulary.preference = before ++ kind :: after ∧
    Vocabulary.extent kind text = some length ∧
    ∀ other ∈ before, Vocabulary.extent other text = none

/-- A text from an offset on, taken apart from left to right: separators are dropped, the preferred token
is taken wherever there is one, and the first character that starts none ends the division. -/
inductive Divided : Nat → List Char → List (Token κ) → Option (Char × Nat) → Prop
  | finished {offset : Nat} : Divided offset [] [] none
  | stuck {offset : Nat} {c : Char} {rest : List Char} (visible : isSeparator c = false)
      (unknown : ∀ kind ∈ (Vocabulary.preference : List κ), Vocabulary.extent kind (c :: rest) = none) :
      Divided offset (c :: rest) [] (some (c, offset))
  | separator {offset : Nat} {c : Char} {rest : List Char} {tokens : List (Token κ)}
      {stuck : Option (Char × Nat)} (dropped : isSeparator c)
      (next : Divided (offset + 1) rest tokens stuck) : Divided offset (c :: rest) tokens stuck
  | token {offset : Nat} {kind : κ} {c : Char} {piece rest : List Char} {tokens : List (Token κ)}
      {stuck : Option (Char × Nat)} (visible : isSeparator c = false)
      (preferred : Preferred kind (c :: piece ++ rest) (c :: piece).length)
      (next : Divided (offset + (c :: piece).length) rest tokens stuck) :
      Divided offset (c :: piece ++ rest) (⟨kind, c :: piece, offset⟩ :: tokens) stuck

theorem preferred_of_recognise {text : List Char} {kind : κ} {length : Nat}
    (found : recognise text = some (kind, length)) : Preferred kind text length := by
  obtain ⟨before, other, after, split, same, none⟩ := List.findSome?_eq_some_iff.mp found
  simp only [Option.map_eq_some_iff, Prod.mk.injEq] at same
  obtain ⟨_, taken, rfl, rfl⟩ := same
  refine ⟨before, after, split, taken, ?_⟩
  intro kind member
  simpa using none kind member

theorem recognise_of_preferred {text : List Char} {kind : κ} {length : Nat}
    (preferred : Preferred kind text length) : recognise text = some (kind, length) := by
  obtain ⟨before, after, split, found, missing⟩ := preferred
  refine List.findSome?_eq_some_iff.mpr ⟨before, kind, after, split, ?_, ?_⟩
  · rw [found, Option.map_some]
  · intro other member
    rw [missing other member, Option.map_none]

theorem lexFrom_pending {text : List Char} {offset pending : Nat} (within : pending ≤ text.length) :
    lexFrom (κ := κ) offset pending text = lexFrom (offset + pending) 0 (text.drop pending) := by
  induction text generalizing offset pending with
  | nil =>
    obtain rfl := Nat.le_zero.mp within
    rfl
  | cons c rest ih =>
    cases pending with
    | zero => rfl
    | succ pending =>
      have past : offset + 1 + pending = offset + (pending + 1) := by omega
      rw [List.drop_succ_cons, ← past]
      exact ih (Nat.le_of_succ_le_succ within)

/-- The token that a text starts with is taken, and what follows it is divided from there on. -/
theorem lexFrom_of_recognise {kind : κ} {piece rest : List Char} {offset : Nat} (nonempty : piece ≠ [])
    (visible : ∀ c ∈ piece.head?, isSeparator c = false)
    (found : recognise (piece ++ rest) = some (kind, piece.length)) :
    lexFrom (κ := κ) offset 0 (piece ++ rest) =
      ⟨⟨kind, piece, offset⟩ :: (lexFrom (offset + piece.length) 0 rest).tokens,
        (lexFrom (κ := κ) (offset + piece.length) 0 rest).stuck⟩ := by
  obtain ⟨c, piece, rfl⟩ := List.exists_cons_of_ne_nil nonempty
  have later : lexFrom (κ := κ) (offset + 1) piece.length (piece ++ rest) =
      lexFrom (offset + (c :: piece).length) 0 rest := by
    rw [lexFrom_pending (by simp), List.drop_left, List.length_cons, Nat.add_assoc, Nat.add_comm 1]
  rw [List.cons_append] at found ⊢
  simp [lexFrom, visible c rfl, found, later]

/-- Tokens are what the kinds of a grammar, in their order of preference, make of a text. -/
theorem divided_lexFrom (proper : ∀ kind : κ, (Vocabulary.extent kind).Proper) (text : List Char)
    (offset : Nat) :
    Divided (κ := κ) offset text (lexFrom offset 0 text).tokens (lexFrom (κ := κ) offset 0 text).stuck := by
  induction length : text.length using Nat.strongRecOn generalizing text offset with
  | ind bound ih =>
    subst length
    cases text with
    | nil => exact .finished
    | cons c rest =>
      by_cases dropped : isSeparator c
      · have next := ih rest.length (by simp) rest (offset + 1) rfl
        simpa [lexFrom, dropped] using Divided.separator dropped next
      · have visible : isSeparator c = false := by simpa using dropped
        cases found : recognise (κ := κ) (c :: rest) with
        | none =>
          have unknown : ∀ kind ∈ (Vocabulary.preference : List κ),
              Vocabulary.extent kind (c :: rest) = none := by
            simpa using List.findSome?_eq_none_iff.mp found
          have stuck : Divided offset (c :: rest) [] (some (c, offset)) := .stuck visible unknown
          simpa [lexFrom, dropped, found] using stuck
        | some recognised =>
          obtain ⟨kind, length⟩ := recognised
          obtain ⟨positive, fits⟩ := proper kind _ _ (extent_of_recognise found)
          obtain ⟨further, rfl⟩ := Nat.exists_eq_add_of_lt positive
          simp only [List.length_cons, Nat.zero_add, Nat.add_le_add_iff_right] at fits
          have parts : c :: rest = c :: rest.take further ++ rest.drop further := by
            rw [List.cons_append, List.take_append_drop]
          have size : 0 + further + 1 = (c :: rest.take further).length := by simp [fits]
          have fewer : (rest.drop further).length < (c :: rest).length := by
            rw [List.length_drop, List.length_cons]
            omega
          rw [parts, size] at found
          rw [parts, lexFrom_of_recognise (List.cons_ne_nil _ _) (by simpa using visible) found]
          exact .token visible (preferred_of_recognise found) (ih _ fewer _ _ rfl)

/-- There is one way only to divide a text. -/
theorem lexFrom_of_divided {text : List Char} {offset : Nat} {tokens : List (Token κ)}
    {stuck : Option (Char × Nat)} (divided : Divided offset text tokens stuck) :
    lexFrom offset 0 text = ⟨tokens, stuck⟩ := by
  induction divided with
  | finished => rfl
  | @stuck offset c rest visible unknown =>
    have none : recognise (κ := κ) (c :: rest) = none :=
      List.findSome?_eq_none_iff.mpr fun kind member => by rw [unknown kind member, Option.map_none]
    simp [lexFrom, visible, none]
  | separator dropped next ih => simpa [lexFrom, dropped] using ih
  | @token offset kind c piece rest tokens stuck visible preferred next ih =>
    have found := recognise_of_preferred preferred
    rw [lexFrom_of_recognise (List.cons_ne_nil _ _) (by simpa using visible) found, ih]

/-- A text that starts with no separator starts with its first token, if there is one. -/
theorem head_lex_offset {c : Char} {rest : List Char} (visible : isSeparator c = false)
    {token : Token κ} {later : List (Token κ)} (found : (lex (c :: rest)).tokens = token :: later) :
    token.offset = 0 := by
  simp only [lex, lexFrom, visible, Bool.false_eq_true, ↓reduceIte] at found
  split at found
  · simp at found
  · simp only [List.cons.injEq] at found
    rw [← found.1]

end SheetLint
