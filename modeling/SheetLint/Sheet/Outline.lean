import SheetLint.Sheet.Cut

/-! The outline of a text: how its blocks lie within each other, before anything in them is read. -/
namespace SheetLint

/-- The statements of one level, from some statement on. -/
inductive Outline
  /-- The text ends after a last chunk. -/
  | complete (chunk : Chunk)
  /-- The text breaks off. -/
  | broken (failure : Failure)
  /-- A brace closes the level after a last chunk. -/
  | closed (chunk : Chunk)
  /-- A statement that ends in a semicolon. -/
  | statement (chunk : Chunk) (next : Outline)
  /-- A block, its head before its opening brace. -/
  | nested (head : Chunk) (body next : Outline)
  /-- A block that is never closed. -/
  | unclosed (head : Chunk) (body : Outline)

namespace Outline

/-- The level at the start of some cuts, and then, outwards, what follows each level that is closed. -/
def levels (ending : Ending) : List Cut → Outline × List Outline
  | [] =>
    match ending with
    | .complete chunk => (complete chunk, [])
    | .broken failure => (broken failure, [])
  | ⟨chunk, .semicolon⟩ :: rest =>
    let (level, outer) := levels ending rest
    (statement chunk level, outer)
  | ⟨chunk, .closing⟩ :: rest =>
    let (level, outer) := levels ending rest
    (closed chunk, level :: outer)
  | ⟨chunk, .opening⟩ :: rest =>
    match levels ending rest with
    | (body, next :: outer) => (nested chunk body next, outer)
    | (body, []) => (unclosed chunk body, [])

/-- The first level of a text that starts at an offset. -/
def ofText (offset : Nat) (text : List Char) : Outline :=
  let found := cuts offset text
  (levels found.ending found.cuts).1

/-- The offset just past a level, its closing brace included. -/
def stop : Outline → Nat
  | complete chunk => chunk.stop
  | broken failure => failure.offset
  | closed chunk => chunk.stop + 1
  | statement _ next => next.stop
  | nested _ _ next => next.stop
  | unclosed _ body => body.stop

end Outline
end SheetLint
