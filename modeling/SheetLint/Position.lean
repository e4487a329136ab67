/-! Places in a text, as offsets and as lines and columns. -/
namespace SheetLint

/-- A line and a column, both counted from one in a text. A tree that comes from elsewhere may place its
nodes at any integers. -/
structure Position where
  line : Int := 1
  column : Int := 1
  deriving DecidableEq, Repr, Inhabited

/-- The offsets just after the line breaks of a text that starts at an offset. -/
def startsAfterBreaks {α : Type} (isBreak : α → Bool) (offset : Nat) : List α → List Nat
  | [] => []
  | c :: rest =>
    if isBreak c then (offset + 1) :: startsAfterBreaks isBreak (offset + 1) rest
    else startsAfterBreaks isBreak (offset + 1) rest

/-- The offsets at which the lines of a text start, in ascending order. -/
structure LineIndex where
  starts : List Nat

namespace LineIndex

/-- Only the line feed ends a line. -/
def ofText (text : List Char) : LineIndex := ⟨0 :: startsAfterBreaks (· == '\n') 0 text⟩

/-- The lines of bytes, whose columns count bytes. -/
def ofBytes (bytes : List UInt8) : LineIndex := ⟨0 :: startsAfterBreaks (· == 10) 0 bytes⟩

/-- The line is the number of lines started up to the offset; the column counts from the last start. -/
def locate (index : LineIndex) (offset : Nat) : Position :=
  let reached := index.starts.takeWhile (· ≤ offset)
  ⟨reached.length, offset - reached.getLast?.getD 0 + 1⟩

end LineIndex
end SheetLint
