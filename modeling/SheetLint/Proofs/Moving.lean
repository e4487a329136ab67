import SheetLint.Proofs.Outcome
import SheetLint.Sheet.Statement

/-! Texts that start further on: tokens, cuts, levels, statements and faults are found as before, each of them
further on by the same distance. -/
namespace SheetLint

variable (distance : Nat)

/-- The chunk with its text, further on. -/
def Chunk.moved (chunk : Chunk) : Chunk := { chunk with offset := distance + chunk.offset }

/-- The same fault, further on. -/
def Failure.moved (failure : Failure) : Failure := { failure with offset := distance + failure.offset }

def Cut.moved (cut : Cut) : Cut := { cut with chunk := cut.chunk.moved distance }

def Ending.moved : Ending → Ending
  | .complete chunk => .complete (chunk.moved distance)
  | .broken failure => .broken (failure.moved distance)

def Cuts.moved (found : Cuts) : Cuts :=
  ⟨found.cuts.map (Cut.moved distance), found.ending.moved distance⟩

namespace Chunk

variable (chunk : Chunk)

@[simp] theorem moved_text : (chunk.moved distance).text = chunk.text := rfl

@[simp] theorem moved_offset : (chunk.moved distance).offset = distance + chunk.offset := rfl

@[simp] theorem moved_stop : (chunk.moved distance).stop = distance + chunk.stop :=
  Nat.add_assoc distance chunk.offset chunk.text.length

theorem trim_moved : (chunk.moved distance).trim = chunk.trim.moved distance := by
  simp [trim, moved, Nat.add_assoc]

@[simp] theorem isGroupHead_moved : (chunk.moved distance).isGroupHead = chunk.isGroupHead := rfl

end Chunk

section Lex

variable {κ : Type}

/-- The same token, further on. -/
def Token.moved (token : Token κ) : Token κ := { token with offset := distance + token.offset }

def Lexing.moved (lexing : Lexing κ) : Lexing κ :=
  ⟨lexing.tokens.map (Token.moved distance), lexing.stuck.map fun found => (found.1, distance + found.2)⟩

@[simp] theorem Token.moved_kind (token : Token κ) : (token.moved distance).kind = token.kind := rfl

@[simp] theorem Token.moved_text (token : Token κ) : (token.moved distance).text = token.text := rfl

@[simp] theorem Token.moved_offset (token : Token κ) :
    (token.moved distance).offset = distance + token.offset := rfl

@[simp] theorem Token.moved_stop (token : Token κ) : (token.moved distance).stop = distance + token.stop :=
  Nat.add_assoc distance token.offset token.text.length

/-- Tokens of a text that starts further on are the same tokens further on. -/
theorem lexFrom_moved [Vocabulary κ] (offset pending : Nat) (text : List Char) :
    lexFrom (κ := κ) (distance + offset) pending text = (lexFrom offset pending text).moved distance := by
  induction text generalizing offset pending with
  | nil => rfl
  | cons c rest ih =>
    cases pending with
    | succ pending => exact ih (offset + 1) pending
    | zero =>
      have next (pending : Nat) := ih (offset + 1) pending
      simp only [← Nat.add_assoc] at next
      simp only [lexFrom, next]
      split
      · rfl
      · split <;> rfl

theorem lexFrom_eq_moved [Vocabulary κ] (text : List Char) :
    lexFrom (κ := κ) distance 0 text = (lex text).moved distance :=
  lexFrom_moved distance 0 0 text

end Lex

/-- A pass that starts further on makes the same cuts further on. -/
theorem cutsFrom_moved (start : Nat) (taken : List Char) (depth pending : Nat) (rest : List Char) :
    cutsFrom (distance + start) taken depth pending rest =
      (cutsFrom start taken depth pending rest).moved distance := by
  fun_induction cutsFrom start taken depth pending rest with
  | case1 => rfl
  | case2 start taken depth pending c rest ih => exact ih
  | case3 start taken depth c rest quoted length closed ih =>
    simp only [cutsFrom, quoted, closed, ih, ↓reduceIte]
  | case4 start taken depth c rest quoted followed unclosed =>
    simp [cutsFrom, quoted, unclosed, Cuts.moved, Ending.moved, Failure.moved, Nat.add_assoc]
  | case5 start taken depth c rest quoted length inside ih =>
    simp only [cutsFrom, if_neg quoted, inside, ih]
  | case6 start taken depth c rest quoted inside =>
    simp [cutsFrom, quoted, inside, Cuts.moved, Ending.moved, Failure.moved, Nat.add_assoc]
  | case7 start taken depth rest quoted inside ih =>
    simp only [cutsFrom, if_neg quoted, inside, ih, ↓reduceIte]
  | case8 start taken depth rest quoted inside opens ih =>
    simp only [cutsFrom, if_neg quoted, inside, if_neg opens, ih, ↓reduceIte]
  | case9 start taken c rest quoted inside opens closes delimiter found after ih =>
    have next : distance + start + taken.length + 1 = distance + (start + taken.length + 1) := by omega
    simp only [cutsFrom, if_neg quoted, inside, if_neg opens, if_neg closes, found, next, ih]
    rfl
  | case10 start taken depth c rest quoted inside opens closes uncut ih =>
    simp only [cutsFrom, if_neg quoted, inside, if_neg opens, if_neg closes, ih]

theorem cuts_moved (offset : Nat) (text : List Char) :
    cuts (distance + offset) text = (cuts offset text).moved distance :=
  cutsFrom_moved distance offset [] 0 0 text

namespace Outline

def moved : Outline → Outline
  | complete chunk => complete (chunk.moved distance)
  | broken failure => broken (failure.moved distance)
  | closed chunk => closed (chunk.moved distance)
  | statement chunk next => statement (chunk.moved distance) next.moved
  | nested head body next => nested (head.moved distance) body.moved next.moved
  | unclosed head body => unclosed (head.moved distance) body.moved

theorem levels_moved (ending : Ending) (cuts : List Cut) :
    levels (ending.moved distance) (cuts.map (Cut.moved distance)) =
      ((levels ending cuts).1.moved distance, (levels ending cuts).2.map (moved distance)) := by
  induction cuts with
  | nil => cases ending <;> rfl
  | cons cut rest ih =>
    obtain ⟨chunk, delimiter⟩ := cut
    cases found : levels ending rest with
    | mk level outer =>
    rw [found] at ih
    cases delimiter with
    | semicolon | closing => simp [levels, Cut.moved, ih, found, moved]
    | opening => cases outer <;> simp [levels, Cut.moved, ih, found, moved]

theorem ofText_moved (offset : Nat) (text : List Char) :
    ofText (distance + offset) text = (ofText offset text).moved distance := by
  rw [ofText, cuts_moved]
  exact congrArg Prod.fst (levels_moved distance _ _)

end Outline

section Course

variable {τ α β γ δ : Type}

/-- The same course further on, with what comes of it seen as another thing. -/
def Traced.moved (f : α → β) (course : Traced τ Failure α) : Traced τ Failure β :=
  f <$> course.mapError (Failure.moved distance)

variable {distance} {f : α → β} {g : γ → δ}

theorem Traced.pure_moved (value : α) :
    (pure value : Traced τ Failure α).moved distance f = pure (f value) := rfl

theorem Traced.ofExcept_moved (result : Except Failure α) :
    (ofExcept (f <$> result.mapError (Failure.moved distance)) : Traced τ Failure β) =
      (ofExcept result).moved distance f := by
  cases result <;> rfl

/-- Of two steps, both are taken further on. -/
theorem Traced.bind_moved {first : Traced τ Failure α} {next : α → Traced τ Failure γ}
    {next' : β → Traced τ Failure δ} (same : ∀ value, next' (f value) = (next value).moved distance g) :
    first.moved distance f >>= next' = (first >>= next).moved distance g := by
  rw [moved, moved, mapError_bind, map_bind, bind_map_left]
  exact bind_congr same

end Course

theorem readValue_moved (text : List Char) (offset : Nat) :
    readValue text (distance + offset) =
      Node.map (distance + ·) <$> (readValue text offset).mapError (Failure.moved distance) := by
  unfold readValue
  cases Value.read text with
  | ok node => simp [Except.mapError, Functor.map, Except.map, Node.map_map, Nat.add_assoc]
  | error mismatch => simp [Except.mapError, Functor.map, Except.map, Failure.moved, Nat.add_assoc]

theorem readSelectors_moved (text : List Char) (offset : Nat) :
    readSelectors text (distance + offset) =
      List.map (Node.map (distance + ·)) <$>
        (readSelectors text offset).mapError (Failure.moved distance) := by
  unfold readSelectors
  cases Selector.read text with
  | ok nodes => simp [Except.mapError, Functor.map, Except.map, Node.map_map, Nat.add_assoc]
  | error mismatch => simp [Except.mapError, Functor.map, Except.map, Failure.moved, Nat.add_assoc]

namespace Chunk

variable (chunk : Chunk)

theorem declaration_moved :
    (chunk.moved distance).declaration =
      Node.map (distance + ·) <$> chunk.declaration.mapError (Failure.moved distance) := by
  dsimp only [declaration, moved]
  split
  · rfl
  · rw [Nat.add_assoc, readValue_moved]
    cases readValue (chunk.text.drop _) _ <;> rfl

theorem plain_moved :
    (chunk.moved distance).plain =
      Option.map (Node.map (distance + ·)) <$> chunk.plain.mapError (Failure.moved distance) := by
  unfold plain
  rw [moved_text]
  split
  · rfl
  · split <;> rfl
  · rw [declaration_moved]
    cases chunk.declaration <;> rfl

theorem withBlock_moved (brace : Nat) (block : Node Nat) :
    (chunk.moved distance).withBlock (distance + brace) (block.map (distance + ·)) =
      (chunk.withBlock brace block).moved distance (Option.map (Node.map (distance + ·))) := by
  unfold withBlock
  rw [moved_text]
  split
  · rfl
  · split <;> rfl
  · rw [isGroupHead_moved]
    split
    · rfl
    · rw [moved_offset, readSelectors_moved, Traced.ofExcept_moved]
      apply Traced.bind_moved
      intro selectors
      rw [Traced.pure_moved]
      simp [Node.map]

end Chunk

namespace Outline

/-- What is read from a level further on is what is read from the level, further on. -/
theorem read_moved (brace? : Option Nat) (outline : Outline) :
    (outline.moved distance).read (brace?.map (distance + ·)) =
      (outline.read brace?).moved distance (List.map (Node.map (distance + ·))) := by
  induction outline generalizing brace? with
  | broken failure => rfl
  | complete chunk =>
    cases brace? with
    | some brace => rfl
    | none =>
      simp only [moved, read, Option.map_none, Chunk.trim_moved, Chunk.plain_moved,
        Traced.ofExcept_moved]
      apply Traced.bind_moved
      intro last
      rw [Traced.pure_moved, Option.toList_map]
  | closed chunk =>
    cases brace? with
    | none =>
      simp only [moved, read, Option.map_none, Chunk.moved_stop]
      rfl
    | some brace =>
      simp only [moved, read, Option.map_some, Chunk.trim_moved, Chunk.plain_moved,
        Traced.ofExcept_moved]
      apply Traced.bind_moved
      intro last
      rw [Traced.pure_moved, Option.toList_map]
  | statement chunk next ih =>
    simp only [moved, read, Chunk.trim_moved, Chunk.plain_moved, Traced.ofExcept_moved, ih]
    apply Traced.bind_moved
    intro first
    apply Traced.bind_moved
    intro others
    rw [Traced.pure_moved, List.map_append, Option.toList_map]
  | nested head body next ih ihNext =>
    have inner := ih (some head.stop)
    rw [Option.map_some] at inner
    simp only [moved, read, Chunk.moved_stop, inner, ihNext]
    apply Traced.bind_moved
    intro children
    have block : (Node.block children head.stop).map (distance + ·) =
        .block (children.map (Node.map (distance + ·))) (distance + head.stop) := by simp [Node.map]
    rw [Chunk.trim_moved, ← block, Chunk.withBlock_moved]
    apply Traced.bind_moved
    intro first
    apply Traced.bind_moved
    intro others
    rw [Traced.pure_moved, List.map_append, Option.toList_map]
  | unclosed head body ih =>
    have inner := ih (some head.stop)
    rw [Option.map_some] at inner
    simp only [moved, read, Chunk.moved_stop, inner]
    apply Traced.bind_moved
    intro children
    rfl

end Outline

end SheetLint
