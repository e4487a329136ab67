import SheetLint.Proofs.Encoding
import SheetLint.Sheet.Parsing

/-! Sheets in memory and in files: a source and the file that encodes it are parsed to the same, and a byte-order
mark in front of either changes nothing. -/
namespace SheetLint

open Text.Utf8

/-- What is parsed is the source without its mark. -/
theorem parseTraced_congr {one two : String} (same : dropMark one.toList = dropMark two.toList) :
    parseTraced one = parseTraced two := by
  simp only [parseTraced, same]

theorem dropMark_of_unmarked {text : List Char} (unmarked : ∀ c ∈ text.head?, c.toNat ≠ 0xFEFF) :
    dropMark text = text := by
  cases text with
  | nil => rfl
  | cons c rest => exact if_neg (unmarked c rfl)

theorem parseTraced_marked {source : String} (unmarked : ∀ c ∈ source.toList.head?, c.toNat ≠ 0xFEFF) :
    parseTraced ("\ufeff" ++ source) = parseTraced source := by
  apply parseTraced_congr
  rw [String.toList_append, dropMark_of_unmarked unmarked]
  rfl

theorem decodeFile_toUTF8 (path source : String) : decodeFile path source.toUTF8.data.toList = .ok source := by
  rw [decodeFile, ← encode_toList, decode_encode]
  exact congrArg Except.ok String.ofList_toList

theorem parseFileTraced_toUTF8 (path source : String) :
    parseFileTraced path source.toUTF8.data.toList = parseTraced source := by
  rw [parseFileTraced, decodeFile_toUTF8]
  exact pure_bind source parseTraced

/-- The mark is written with three bytes. -/
theorem toUTF8_marked (source : String) :
    ("\ufeff" ++ source).toUTF8.data.toList = 0xEF :: 0xBB :: 0xBF :: source.toUTF8.data.toList := by
  rw [← encode_toList, ← encode_toList, String.toList_append, encode_append]
  rfl

/-- A source that starts with no byte-order mark, the source behind such a mark, the file of its bytes and the
file of the same bytes behind those of a mark are parsed to the same tree, or to the same error. -/
theorem parse_of_encoded (path : String) {source : String}
    (unmarked : ∀ c ∈ source.toList.head?, c.toNat ≠ 0xFEFF) :
    parse ("\ufeff" ++ source) = parse source ∧
      parseFile path source.toUTF8.data.toList = parse source ∧
      parseFile path (0xEF :: 0xBB :: 0xBF :: source.toUTF8.data.toList) = parse source := by
  have marked := congrArg Traced.result (parseTraced_marked unmarked)
  refine ⟨marked, ?_, ?_⟩
  · exact congrArg Traced.result (parseFileTraced_toUTF8 path source)
  · rw [← toUTF8_marked, parseFile, parseFileTraced_toUTF8]
    exact marked

/-- A selector of two bytes on a first line, and a string with a character of four bytes on the second. -/
theorem parse_of_encoded_of_wide :
    (∀ c ∈ "é\x7b\nb:'😀'\x7d".toList.head?, c.toNat ≠ 0xFEFF) ∧
      ∃ tree, parse "é\x7b\nb:'😀'\x7d" = .ok tree ∧ parse ("\ufeff" ++ "é\x7b\nb:'😀'\x7d") = .ok tree ∧
        parseFile "a.css" "é\x7b\nb:'😀'\x7d".toUTF8.data.toList = .ok tree ∧
        parseFile "a.css" (0xEF :: 0xBB :: 0xBF :: "é\x7b\nb:'😀'\x7d".toUTF8.data.toList) = .ok tree := by
  have unmarked : ∀ c ∈ "é\x7b\nb:'😀'\x7d".toList.head?, c.toNat ≠ 0xFEFF := by
    rintro _ ⟨⟩
    decide
  have tree : parse "é\x7b\nb:'😀'\x7d" = .ok (.stylesheet [.ruleset
      [.selector [.leaf (.simple .type "é") ⟨1, 1⟩] "é" ⟨1, 1⟩]
      (.block [.declaration "b" (.value [.leaf (.quoted "'😀'") ⟨2, 3⟩] ⟨2, 3⟩) ⟨2, 1⟩] ⟨1, 2⟩)
      ⟨1, 1⟩] ⟨1, 1⟩) := by rfl
  have same := parse_of_encoded "a.css" unmarked
  rw [tree] at same
  exact ⟨unmarked, _, tree, same⟩

end SheetLint
