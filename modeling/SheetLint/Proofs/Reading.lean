import SheetLint.Proofs.Outcome
import SheetLint.Sheet.Parsing

/-! What the statements of a stylesheet are read from: the forms of a statement without a block and of one
with a block, and how a level is read, its statements one after another and a block before its head. -/
namespace SheetLint

theorem atWords?_eq_some {text : List Char} {name words : String}
    (read : atWords? text = some (name, words)) :
    ∃ word rest, text = '@' :: (word ++ rest) ∧ Text.lower word = name.toList := by
  unfold atWords? at read
  split at read
  · rename_i rest
    dsimp only at read
    split at read
    · cases read
    · cases read
      refine ⟨rest.takeWhile Text.isName, rest.dropWhile Text.isName, ?_, by simp⟩
      rw [List.takeWhile_append_dropWhile]
  · cases read

namespace Chunk

variable {chunk : Chunk}

theorem declaration_eq_ok {node : Node Nat} (read : chunk.declaration = .ok node) :
    ∃ property rest value, chunk.text = property ++ ':' :: rest ∧ ':' ∉ property ∧
      readValue rest (chunk.offset + (property.length + 1)) = .ok value ∧
      node = .declaration (String.ofList (Text.lower (Text.trim property))) value chunk.offset := by
  dsimp only [declaration] at read
  have split : chunk.text.takeWhile (· != ':') ++ chunk.text.dropWhile (· != ':') = chunk.text :=
    List.takeWhile_append_dropWhile
  have named : ':' ∉ chunk.text.takeWhile (· != ':') := by
    intro member
    simpa using List.all_eq_true.mp List.all_takeWhile ':' member
  have stopped := List.head?_dropWhile_not (· != ':') chunk.text
  generalize chunk.text.takeWhile (· != ':') = property at read split named
  generalize chunk.text.dropWhile (· != ':') = later at split stopped
  split at read
  · cases read
  · rename_i proper
    simp only [Bool.or_eq_true, List.isEmpty_iff, beq_iff_eq, not_or] at proper
    cases later with
    | nil =>
      rw [List.append_nil] at split
      exact absurd (congrArg List.length split) proper.2
    | cons colon rest =>
      obtain rfl : colon = ':' := by simpa using stopped
      have past : chunk.text.drop (property.length + 1) = rest := by
        rw [← split, List.append_cons, List.drop_left' (by simp)]
      rw [past] at read
      obtain ⟨value, found, same⟩ := Outcome.bind_eq_ok.mp read
      cases same
      exact ⟨property, rest, value, split.symm, named, found, rfl⟩

/-- The forms of a statement without a block. -/
inductive Plain (chunk : Chunk) : Option (Node Nat) → Prop
  | empty (blank : chunk.text = []) : Plain chunk none
  | directive {name words : String} (begun : atWords? chunk.text = some (name, words)) :
      Plain chunk (some (.directive name words chunk.offset))
  | declaration {property rest : List Char} {value : Node Nat}
      (split : chunk.text = property ++ ':' :: rest) (named : ':' ∉ property)
      (read : readValue rest (chunk.offset + (property.length + 1)) = .ok value) :
      Plain chunk (some
        (.declaration (String.ofList (Text.lower (Text.trim property))) value chunk.offset))

theorem plain_of_read {found : Option (Node Nat)} (read : chunk.plain = .ok found) :
    chunk.Plain found := by
  unfold plain at read
  split at read
  · rename_i blank
    cases read
    exact .empty blank
  · split at read
    · rename_i begun
      cases read
      exact .directive begun
    · cases read
  · cases declared : chunk.declaration with
    | error failure =>
      rw [declared] at read
      cases read
    | ok node =>
      rw [declared] at read
      cases read
      obtain ⟨_, _, _, split, named, value, rfl⟩ := declaration_eq_ok declared
      exact .declaration split named value

/-- The forms of a statement with a block, which stands at a brace. -/
inductive Blocked (chunk : Chunk) (block : Node Nat) : Option (Node Nat) → Prop
  | atRule {name words : String} (begun : atWords? chunk.text = some (name, words))
      (kept : chunk.isGroupHead = false) :
      Blocked chunk block (some (.atRule name words block chunk.offset))
  | group (left : chunk.isGroupHead) : Blocked chunk block none
  | ruleset {selectors : List (Node Nat)} (filled : chunk.text ≠ [])
      (kept : chunk.isGroupHead = false)
      (read : readSelectors chunk.text chunk.offset = .ok selectors) :
      Blocked chunk block (some (.ruleset selectors block chunk.offset))

theorem blocked_of_read {brace : Nat} {block : Node Nat} {found : Option (Node Nat)}
    (read : (chunk.withBlock brace block).result = .ok found) : chunk.Blocked block found := by
  unfold withBlock at read
  split at read
  · cases read
  · rename_i rest filled
    have kept : chunk.isGroupHead = false := by simp [isGroupHead, filled]
    split at read
    · rename_i begun
      cases read
      exact .atRule begun kept
    · cases read
  · rename_i filled _
    by_cases left : chunk.isGroupHead
    · rw [if_pos left] at read
      cases read
      exact .group left
    · rw [if_neg left] at read
      obtain ⟨selectors, listed, same⟩ := Traced.result_bind_eq_ok.mp read
      cases same
      exact .ruleset filled (Bool.eq_false_iff.mpr left) listed

end Chunk

namespace Outline

/-- The statements that are read from a level of a block, or of the whole text. -/
inductive Reads : Option Nat → Outline → List (Node Nat) → Prop
  | complete {chunk : Chunk} {last : Option (Node Nat)} (found : chunk.trim.Plain last) :
      Reads none (.complete chunk) last.toList
  | closed {brace : Nat} {chunk : Chunk} {last : Option (Node Nat)} (found : chunk.trim.Plain last) :
      Reads (some brace) (.closed chunk) last.toList
  | statement {brace? : Option Nat} {chunk : Chunk} {next : Outline} {first : Option (Node Nat)}
      {others : List (Node Nat)} (found : chunk.trim.Plain first)
      (rest : Reads brace? next others) :
      Reads brace? (.statement chunk next) (first.toList ++ others)
  | nested {brace? : Option Nat} {head : Chunk} {body next : Outline} {first : Option (Node Nat)}
      {children others : List (Node Nat)} (inner : Reads (some head.stop) body children)
      (found : head.trim.Blocked (.block children head.stop) first)
      (rest : Reads brace? next others) :
      Reads brace? (.nested head body next) (first.toList ++ others)

/-- A level is read where nothing in it is left open. -/
theorem reads_of_read {outline : Outline} {brace? : Option Nat} {nodes : List (Node Nat)}
    (accepted : (outline.read brace?).result = .ok nodes) : Reads brace? outline nodes := by
  induction outline generalizing brace? nodes with
  | complete chunk =>
    cases brace? with
    | some brace => cases accepted
    | none =>
      obtain ⟨last, found, same⟩ := Traced.result_bind_eq_ok.mp accepted
      cases same
      exact .complete (Chunk.plain_of_read found)
  | broken => cases accepted
  | closed chunk =>
    cases brace? with
    | none => cases accepted
    | some brace =>
      obtain ⟨last, found, same⟩ := Traced.result_bind_eq_ok.mp accepted
      cases same
      exact .closed (Chunk.plain_of_read found)
  | statement chunk next ih =>
    obtain ⟨first, found, accepted⟩ := Traced.result_bind_eq_ok.mp accepted
    obtain ⟨others, further, same⟩ := Traced.result_bind_eq_ok.mp accepted
    cases same
    exact .statement (Chunk.plain_of_read found) (ih further)
  | nested head body next ih ihNext =>
    obtain ⟨children, opened, accepted⟩ := Traced.result_bind_eq_ok.mp accepted
    obtain ⟨first, found, accepted⟩ := Traced.result_bind_eq_ok.mp accepted
    obtain ⟨others, further, same⟩ := Traced.result_bind_eq_ok.mp accepted
    cases same
    exact .nested (ih opened) (Chunk.blocked_of_read found) (ihNext further)
  | unclosed =>
    obtain ⟨_, _, failed⟩ := Traced.result_bind_eq_ok.mp accepted
    cases failed

end Outline

theorem reads_of_readSheet {text : List Char} {tree : Node Nat}
    (read : (readSheet text).result = .ok tree) :
    ∃ statements, tree = .stylesheet statements 0 ∧
      (Outline.ofText 0 text).Reads none statements := by
  obtain ⟨statements, accepted, same⟩ := Traced.result_bind_eq_ok.mp read
  cases same
  exact ⟨statements, rfl, Outline.reads_of_read accepted⟩

end SheetLint
