import SheetLint.Proofs.Encoding
import SheetLint.Proofs.Place
import SheetLint.Sheet.Parsing

/-! Files whose bytes are no text. They are refused at the first bytes that encode no character: on the line
where the text before these ends, and at a column that counts the bytes of this line instead of its
characters. -/
namespace SheetLint

namespace Text

/-- What stands after the last line break of a text. -/
def lastLine (text : List Char) : List Char := (text.reverse.takeWhile (!· == '\n')).reverse

theorem lastLine_concat_break (text : List Char) : lastLine (text ++ ['\n']) = [] := by simp [lastLine]

theorem lastLine_concat {c : Char} (within : c ≠ '\n') (text : List Char) :
    lastLine (text ++ [c]) = lastLine text ++ [c] := by
  simp [lastLine, within]

/-- A character in front stands on the last line, or it changes nothing there. -/
theorem lastLine_cons {c : Char} (within : c ≠ '\n') (text : List Char) :
    lastLine (c :: text) = lastLine text ∨ lastLine (c :: text) = c :: lastLine text := by
  unfold lastLine
  rw [List.reverse_cons, List.takeWhile_append]
  split
  next whole =>
    right
    rw [(List.takeWhile_prefix _).eq_of_length whole]
    simp [within]
  next => exact .inl rfl

namespace Utf8

variable {byte : UInt8} {c : Char}

/-- The bytes of a character that is not ASCII are none of ASCII. -/
theorem toNat_of_mem_encodeChar (member : byte ∈ String.utf8EncodeChar c) :
    c.toNat ≤ 127 ∧ byte.toNat = c.toNat ∨ 127 < c.toNat ∧ 128 ≤ byte.toNat := by
  have valid : c.toNat < 55296 ∨ 57343 < c.toNat ∧ c.toNat < 1114112 := c.valid
  by_cases one : c.toNat ≤ 127
  · rw [encodeChar_one one, List.mem_singleton] at member
    rw [member, toNat_ofNat _ (by omega)]
    exact .inl ⟨one, rfl⟩
  refine .inr ⟨by omega, ?_⟩
  have last := toNat_ofNat (c.toNat % 64 + 128) (by omega)
  by_cases two : c.toNat ≤ 2047
  · have first := toNat_ofNat (c.toNat / 64 % 32 + 192) (by omega)
    rw [encodeChar_two (by omega) two] at member
    simp only [List.mem_cons, List.not_mem_nil, or_false] at member
    rcases member with rfl | rfl <;> omega
  have third := toNat_ofNat (c.toNat / 64 % 64 + 128) (by omega)
  by_cases three : c.toNat ≤ 65535
  · have first := toNat_ofNat (c.toNat / 4096 % 16 + 224) (by omega)
    rw [encodeChar_three (by omega) three] at member
    simp only [List.mem_cons, List.not_mem_nil, or_false] at member
    rcases member with rfl | rfl | rfl <;> omega
  · have first := toNat_ofNat (c.toNat / 262144 % 8 + 240) (by omega)
    have second := toNat_ofNat (c.toNat / 4096 % 64 + 128) (by omega)
    rw [encodeChar_four (by omega)] at member
    simp only [List.mem_cons, List.not_mem_nil, or_false] at member
    rcases member with rfl | rfl | rfl | rfl <;> omega

theorem encodeChar_break : String.utf8EncodeChar '\n' = [10] := rfl

/-- Only a line break has the byte of one. -/
theorem isBreak_of_mem_encodeChar (within : c ≠ '\n') :
    ∀ byte ∈ String.utf8EncodeChar c, (byte == 10) = false := by
  intro byte member
  rw [beq_eq_false_iff_ne]
  rintro rfl
  have apart : c.toNat ≠ 10 := fun same => within (Char.ext (UInt32.toNat_inj.mp same))
  have ten : (10 : UInt8).toNat = 10 := rfl
  rcases toNat_of_mem_encodeChar member with ⟨_, same⟩ | ⟨_, above⟩ <;> omega

theorem countP_encode (text : List Char) : (encode text).countP (· == 10) = text.countP (· == '\n') := by
  induction text with
  | nil => rfl
  | cons c text ih =>
    rw [encode_cons, List.countP_append, ih]
    by_cases breaks : c = '\n'
    · subst breaks
      simp [encodeChar_break, Nat.add_comm]
    · have none : (String.utf8EncodeChar c).countP (· == 10) = 0 := by
        simpa [List.countP_eq_zero] using isBreak_of_mem_encodeChar breaks
      rw [none, Nat.zero_add, List.countP_cons_of_neg (by simpa using breaks)]

/-- The bytes after the last break are those of the last line. -/
theorem takeWhile_encode (text : List Char) :
    (encode text).reverse.takeWhile (!· == 10) = (encode (lastLine text)).reverse := by
  induction text using List.reverseRecOn with
  | nil => rfl
  | append_singleton text c ih =>
    have bytes : encode [c] = String.utf8EncodeChar c := by simp [encode]
    by_cases breaks : c = '\n'
    · subst breaks
      rw [lastLine_concat_break, encode_append, bytes, encodeChar_break]
      simp
    · have kept : ∀ byte ∈ (String.utf8EncodeChar c).reverse, (!byte == 10) = true := by
        intro byte member
        rw [isBreak_of_mem_encodeChar breaks byte (List.mem_reverse.mp member)]
        rfl
      rw [lastLine_concat breaks, encode_append, encode_append, bytes, List.reverse_append,
        List.reverse_append, List.takeWhile_append_of_pos kept, ih]

theorem length_encodeChar_eq_one_iff : (String.utf8EncodeChar c).length = 1 ↔ c.toNat < 128 := by
  rw [String.length_utf8EncodeChar, Char.utf8Size_eq_one_iff, UInt32.le_iff_toNat_le]
  exact Nat.lt_succ_iff.symm

/-- A text has at least as many bytes as characters, and as many just where all are ASCII. -/
theorem length_le_length_encode (text : List Char) : text.length ≤ (encode text).length := by
  induction text with
  | nil => exact Nat.le_refl _
  | cons c text ih =>
    have some := List.length_pos_iff.mpr (encodeChar_ne_nil c)
    rw [encode_cons, List.length_append, List.length_cons]
    omega

theorem length_encode_eq_iff {text : List Char} :
    (encode text).length = text.length ↔ ∀ c ∈ text, c.toNat < 128 := by
  induction text with
  | nil => simp
  | cons c text ih =>
    have some := List.length_pos_iff.mpr (encodeChar_ne_nil c)
    have least := length_le_length_encode text
    rw [List.forall_mem_cons, ← ih, ← length_encodeChar_eq_one_iff, encode_cons, List.length_append,
      List.length_cons]
    omega

end Utf8
end Text

open Text (lastLine)
open Text.Utf8

/-- The place of an offset in bytes that encode a text up to there. -/
theorem LineIndex.locate_ofBytes {bytes : List UInt8} {text : List Char} (stands : encode text <+: bytes) :
    (LineIndex.ofBytes bytes).locate (encode text).length =
      ⟨text.countP (· == '\n') + 1, (encode (lastLine text)).length + 1⟩ := by
  have before : bytes.take (encode text).length = encode text := (List.prefix_iff_eq_take.mp stands).symm
  rw [LineIndex.ofBytes, LineIndex.locate_of_breaks (· == 10) bytes stands.length_le, before, countP_encode,
    takeWhile_encode, List.length_reverse]

theorem Position.after_eq (text : List Char) :
    Position.after text = ⟨text.countP (· == '\n') + 1, (lastLine text).length + 1⟩ := by
  rw [Position.after, lastLine, List.length_reverse]

theorem dropMark_eq (text : List Char) :
    dropMark text = text ∨ ∃ mark : Char, mark.toNat = 0xFEFF ∧ text = mark :: dropMark text := by
  cases text with
  | nil => exact .inl rfl
  | cons c rest =>
    by_cases marks : c.toNat = 0xFEFF
    · exact .inr ⟨c, marks, by rw [dropMark, if_pos marks]⟩
    · exact .inl (if_neg marks)

/-- The byte-order mark is on no line of its own, but it is a character of the first one. -/
theorem after_dropMark (text : List Char) :
    (Position.after (dropMark text)).line = text.countP (· == '\n') + 1 ∧
      (lastLine (dropMark text) = lastLine text ∨
        ∃ mark : Char, mark.toNat = 0xFEFF ∧ lastLine text = mark :: lastLine (dropMark text)) := by
  rw [Position.after_eq]
  rcases dropMark_eq text with same | ⟨mark, marks, same⟩
  · exact ⟨by rw [same], .inl (by rw [same])⟩
  have within : mark ≠ '\n' := by
    rintro rfl
    revert marks
    decide
  constructor
  · conv_rhs => rw [same, List.countP_cons_of_neg (by simpa using within)]
  · rcases Text.lastLine_cons within (dropMark text) with here | here
    · exact .inl (by rw [← here, ← same])
    · exact .inr ⟨mark, marks, by rw [← here, ← same]⟩

/-- The column counts characters just where the last line has ASCII alone, and so no byte-order mark. -/
theorem column_dropMark_iff (text : List Char) :
    (lastLine (dropMark text)).length = (encode (lastLine text)).length ↔
      ∀ c ∈ lastLine text, c.toNat < 128 := by
  rw [← length_encode_eq_iff]
  rcases (after_dropMark text).2 with same | ⟨mark, marks, same⟩
  · rw [same, eq_comm]
  · have least := length_le_length_encode (lastLine text)
    have other : ¬∀ c ∈ lastLine text, c.toNat < 128 := by
      intro ascii
      have small := ascii mark (same ▸ List.mem_cons_self)
      omega
    rw [← length_encode_eq_iff] at other
    rw [same] at least other ⊢
    simp only [List.length_cons] at least other ⊢
    omega

/-- Bytes that encode no text are refused after the longest text that they start with. The line is the one on
which this text ends, and the column counts the bytes there: it is the one that the text has without its
byte-order mark just where its last line is ASCII. -/
theorem place_of_undecodable (path : String) {bytes : List UInt8} (invalid : ∀ text, encode text ≠ bytes) :
    ∃ text reason place, LongestStart bytes text ∧
      parseFile path bytes = .error (.at (.undecodable path reason) place) ∧
      place = ⟨text.countP (· == '\n') + 1, (encode (lastLine text)).length + 1⟩ ∧
      place.line = ((LineIndex.ofText (dropMark text)).locate (dropMark text).length).line ∧
      (place = (LineIndex.ofText (dropMark text)).locate (dropMark text).length ↔
        ∀ c ∈ lastLine text, c.toNat < 128) := by
  obtain ⟨text, reason, longest, refused⟩ := decode_refuses invalid
  have located : (LineIndex.ofText (dropMark text)).locate (dropMark text).length =
      Position.after (dropMark text) := by
    rw [LineIndex.locate_ofText _ (Nat.le_refl _), List.take_length]
  have line := (after_dropMark text).1
  refine ⟨text, reason, _, longest, ?_, rfl, ?_, ?_⟩
  · simp only [parseFile, parseFileTraced, decodeFile, refused, LineIndex.locate_ofBytes longest.stands]
    rfl
  · rw [located, line]
  · rw [located, ← column_dropMark_iff]
    rw [Position.after_eq] at line ⊢
    simp only [Position.mk.injEq] at line ⊢
    omega

/-- A byte that starts no character, on a line of ASCII after one that is not. -/
theorem place_of_undecodable_of_second_line :
    (∀ text, encode text ≠ [0xC3, 0xA9, 0x0A, 0x61, 0xFF]) ∧
      ∃ text reason place, LongestStart [0xC3, 0xA9, 0x0A, 0x61, 0xFF] text ∧
        parseFile "a.css" [0xC3, 0xA9, 0x0A, 0x61, 0xFF] = .error (.at (.undecodable "a.css" reason) place) ∧
        place = ⟨text.countP (· == '\n') + 1, (encode (lastLine text)).length + 1⟩ ∧
        place.line = ((LineIndex.ofText (dropMark text)).locate (dropMark text).length).line ∧
        (place = (LineIndex.ofText (dropMark text)).locate (dropMark text).length ↔
          ∀ c ∈ lastLine text, c.toNat < 128) := by
  have refused : decode [0xC3, 0xA9, 0x0A, 0x61, 0xFF] = .error ⟨.invalidStart, 4⟩ := by rfl
  have invalid := encode_ne_of_refused refused
  exact ⟨invalid, place_of_undecodable "a.css" invalid⟩

/-- After one character of two bytes the column is the third instead of the second. -/
theorem column_counts_bytes :
    (∀ text, encode text ≠ [0xC3, 0xA9, 0xFF]) ∧ LongestStart [0xC3, 0xA9, 0xFF] ['\u00e9'] ∧
      parseFile "a.css" [0xC3, 0xA9, 0xFF] = .error (.at (.undecodable "a.css" .invalidStart) ⟨1, 3⟩) ∧
      (LineIndex.ofText (dropMark ['\u00e9'])).locate (dropMark ['\u00e9']).length = ⟨1, 2⟩ := by
  have refused : decode [0xC3, 0xA9, 0xFF] = .error ⟨.invalidStart, 2⟩ := by rfl
  have invalid := encode_ne_of_refused refused
  obtain ⟨text, reason, longest, found⟩ := decode_refuses invalid
  have size : 2 = (encode text).length :=
    congrArg Refusal.start (Except.error.inj (refused.symm.trans found))
  have bytes : encode text = [0xC3, 0xA9] := by
    rw [List.prefix_iff_eq_take.mp longest.stands, ← size]
    rfl
  have decoded : decode [0xC3, 0xA9] = .ok ['\u00e9'] := by rfl
  obtain rfl : ['\u00e9'] = text := by simpa [decoded] using decode_eq_ok_iff.mpr bytes
  exact ⟨invalid, longest, by rfl, by rfl⟩

end SheetLint
