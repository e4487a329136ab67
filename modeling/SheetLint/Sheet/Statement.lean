import SheetLint.Sheet.Outline
import SheetLint.Traced

/-! Statements read from an outline, every node placed by its offset. -/
namespace SheetLint

/-- The name of an at-rule, in lower case, and the words after it. -/
def atWords? (text : List Char) : Option (String × String) :=
  match text with
  | '@' :: rest =>
    let name := rest.takeWhile Text.isName
    if name.isEmpty then none
    else some (String.ofList (Text.lower name), String.ofList (Text.trim (rest.drop name.length)))
  | _ => none

namespace Chunk

/-- The declaration in a trimmed chunk: a property, the first colon, a value. -/
def declaration (chunk : Chunk) : Except Failure (Node Nat) :=
  let property := chunk.text.takeWhile (· != ':')
  if property.isEmpty || property.length == chunk.text.length then
    .error ⟨.noDeclaration chunk.text, chunk.offset⟩
  else do
    let past := property.length + 1
    let value ← readValue (chunk.text.drop past) (chunk.offset + past)
    return .declaration (String.ofList (Text.lower (Text.trim property))) value chunk.offset

/-- The statement without a block in a trimmed chunk, if there is one. -/
def plain (chunk : Chunk) : Except Failure (Option (Node Nat)) :=
  match chunk.text with
  | [] => .ok none
  | '@' :: _ =>
    match atWords? chunk.text with
    | some (name, words) => .ok (some (.directive name words chunk.offset))
    | none => .error ⟨.badAtRule chunk.text, chunk.offset⟩
  | _ => some <$> chunk.declaration

/-- A chunk after which a group of nested properties stands. -/
def isGroupHead (chunk : Chunk) : Bool :=
  chunk.text.getLast? == some ':' && chunk.text.head? != some '@'

/-- The statement that a trimmed chunk makes with the block after it. A group of nested properties is
left out, and its head is noted. -/
def withBlock (chunk : Chunk) (brace : Nat) (block : Node Nat) :
    Traced String Failure (Option (Node Nat)) :=
  match chunk.text with
  | [] => .fail ⟨.noSelector, brace⟩
  | '@' :: _ =>
    match atWords? chunk.text with
    | some (name, words) => pure (some (.atRule name words block chunk.offset))
    | none => .fail ⟨.badAtRule chunk.text, chunk.offset⟩
  | _ =>
    if chunk.isGroupHead then do
      .note (String.ofList chunk.text)
      return none
    else do
      let selectors ← .ofExcept (readSelectors chunk.text chunk.offset)
      return some (.ruleset selectors block chunk.offset)

end Chunk

namespace Outline

/-- The statements of a level within the block opened at `brace?`, or of the whole text. What comes
first in the text is read first, and a block before its head. -/
def read (brace? : Option Nat) : Outline → Traced String Failure (List (Node Nat))
  | complete chunk =>
    match brace? with
    | some brace => .fail ⟨.openBlock, brace⟩
    | none => do
      let last ← .ofExcept chunk.trim.plain
      return last.toList
  | broken failure => .fail failure
  | closed chunk =>
    match brace? with
    | some _ => do
      let last ← .ofExcept chunk.trim.plain
      return last.toList
    | none => .fail ⟨.strayBrace, chunk.stop⟩
  | statement chunk next => do
    let first ← .ofExcept chunk.trim.plain
    let others ← next.read brace?
    return first.toList ++ others
  | nested head body next => do
    let children ← body.read (some head.stop)
    let first ← head.trim.withBlock head.stop (.block children head.stop)
    let others ← next.read brace?
    return first.toList ++ others
  | unclosed head body => do
    let _ ← body.read (some head.stop)
    .fail ⟨.openBlock, head.stop⟩

end Outline

/-- The tree of a text without comments. -/
def readSheet (text : List Char) : Traced String Failure (Node Nat) := do
  let statements ← (Outline.ofText 0 text).read none
  return .stylesheet statements 0

end SheetLint
