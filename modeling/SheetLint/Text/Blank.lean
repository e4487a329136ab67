import SheetLint.Text.Ranges

/-! Blank characters, and texts without the blanks around them. -/
namespace SheetLint.Text

/-- The characters that take part in layout only: spaces, line breaks and four separators. -/
def blankRanges : Ranges :=
  [(9, 13), (28, 32), (133, 133), (160, 160), (5760, 5760), (8192, 8202), (8232, 8233),
   (8239, 8239), (8287, 8287), (12288, 12288)]

def isBlank (c : Char) : Bool := blankRanges.contains c.toNat

/-- The blanks that a text starts with, counted. -/
def leadingBlanks (text : List Char) : Nat := (text.takeWhile isBlank).length

def trimStart (text : List Char) : List Char := text.dropWhile isBlank

def trimEnd (text : List Char) : List Char := (trimStart text.reverse).reverse

/-- A text without the blanks at its two ends. -/
def trim (text : List Char) : List Char := trimEnd (trimStart text)

theorem takeWhile_append_trimStart (text : List Char) :
    text.takeWhile isBlank ++ trimStart text = text := List.takeWhile_append_dropWhile

theorem length_trimStart (text : List Char) :
    (trimStart text).length + leadingBlanks text = text.length := by
  have split := congrArg List.length (takeWhile_append_trimStart text)
  simp only [List.length_append] at split
  simp only [leadingBlanks]
  omega

theorem trimStart_eq_drop (text : List Char) : trimStart text = text.drop (leadingBlanks text) := by
  have split := takeWhile_append_trimStart text
  calc trimStart text
      = (text.takeWhile isBlank ++ trimStart text).drop (text.takeWhile isBlank).length := by simp
    _ = text.drop (leadingBlanks text) := by rw [split]; rfl

/-- Every blank of core is blank here. -/
theorem isBlank_of_isWhitespace {c : Char} (h : c.isWhitespace) : isBlank c := by
  simp only [Char.isWhitespace, Bool.or_eq_true, decide_eq_true_eq] at h
  rcases h with ((rfl | rfl) | rfl) | rfl <;> decide

end SheetLint.Text
