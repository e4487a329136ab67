import SheetLint.Sheet.Fault

/-!
The cuts of a text: the semicolons and braces that stand outside strings, interpolation and parentheses.
One pass from left to right finds them all.
-/
namespace SheetLint

/-- A part of a text and the offset at which it starts. -/
structure Chunk where
  text : List Char
  offset : Nat
  deriving DecidableEq, Repr

namespace Chunk

/-- The offset just past a chunk. -/
def stop (chunk : Chunk) : Nat := chunk.offset + chunk.text.length

/-- A chunk without the blanks at its two ends. -/
def trim (chunk : Chunk) : Chunk :=
  ⟨Text.trim chunk.text, chunk.offset + Text.leadingBlanks chunk.text⟩

end Chunk

inductive Delimiter
  | semicolon
  | opening
  | closing
  deriving DecidableEq, Repr

def delimiter? (c : Char) : Option Delimiter :=
  if c = ';' then some .semicolon
  else if c = '\x7b' then some .opening
  else if c = '\x7d' then some .closing
  else none

/-- A delimiter and the chunk before it, which it follows at once. -/
structure Cut where
  chunk : Chunk
  delimiter : Delimiter
  deriving DecidableEq, Repr

/-- How a pass ends: with the last chunk, or where something is left open. -/
inductive Ending
  | complete (chunk : Chunk)
  | broken (failure : Failure)

/-- The cuts of a text and what comes after the last one. -/
structure Cuts where
  cuts : List Cut
  ending : Ending

/-- The length of an interpolation from its hash sign on. -/
def interpolation? : List Char → Option (Option Nat)
  | '#' :: '\x7b' :: rest => some (((Extent.through '\x7d') rest).map (· + 2))
  | _ => none

/-- Goes through a text after `taken`, the start of the chunk at hand, the latest character first.
`pending` characters belong to a string or an interpolation. -/
def cutsFrom (start : Nat) (taken : List Char) (depth pending : Nat) : List Char → Cuts
  | [] => ⟨[], .complete ⟨taken.reverse, start⟩⟩
  | c :: rest =>
    match pending with
    | pending + 1 => cutsFrom start (c :: taken) depth pending rest
    | 0 =>
      if StringLiteral.isMark c then
        match StringLiteral.close c rest with
        | .ok length => cutsFrom start (c :: taken) depth length rest
        | .error followed => ⟨[], .broken ⟨.openString, start + taken.length + 1 + followed⟩⟩
      else match interpolation? (c :: rest) with
        | some (some length) => cutsFrom start (c :: taken) depth (length - 1) rest
        | some none => ⟨[], .broken ⟨.openInterpolation, start + taken.length⟩⟩
        | none =>
          if c = '(' then cutsFrom start (c :: taken) (depth + 1) 0 rest
          else if c = ')' then cutsFrom start (c :: taken) (depth - 1) 0 rest
          else match depth, delimiter? c with
            | 0, some delimiter =>
              let after := cutsFrom (start + taken.length + 1) [] 0 0 rest
              ⟨⟨⟨taken.reverse, start⟩, delimiter⟩ :: after.cuts, after.ending⟩
            | _, _ => cutsFrom start (c :: taken) depth 0 rest

/-- The cuts of a text that starts at an offset. -/
def cuts (offset : Nat) (text : List Char) : Cuts := cutsFrom offset [] 0 0 text

end SheetLint
