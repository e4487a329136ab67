import SheetLint.Text.Utf8
import Mathlib.Logic.Basic

/-! Texts and the bytes that encode them. Bytes are decoded as far as they encode characters; where they go on
with no character's sequence, they are refused at the first byte of what is none. -/
namespace SheetLint.Text.Utf8

/-- The bytes that encode a text. -/
def encode (text : List Char) : List UInt8 := text.flatMap String.utf8EncodeChar

/-- A sequence and the bytes that are still missing of it come to a number. Each byte adds six bits to the
value; the first one has bounds of its own. -/
inductive Sequence.Completes : Sequence → List UInt8 → Nat → Prop
  | last {start value low high result : Nat} {byte : UInt8} (above : low ≤ byte.toNat)
      (below : byte.toNat ≤ high) (total : value * 64 + (byte.toNat - 0x80) = result) :
      Completes ⟨start, value, 1, low, high⟩ [byte] result
  | more {start value missing low high result : Nat} {byte : UInt8} {tail : List UInt8}
      (above : low ≤ byte.toNat) (below : byte.toNat ≤ high)
      (next : Completes ⟨start, value * 64 + (byte.toNat - 0x80), missing + 1, 0x80, 0xBF⟩ tail result) :
      Completes ⟨start, value, missing + 2, low, high⟩ (byte :: tail) result

variable {start value low high result offset : Nat} {pending : Sequence} {tail rest bytes : List UInt8}
  {byte : UInt8} {c : Char} {text : List Char}

theorem decodeFrom_of_completes (completes : pending.Completes tail result) (offset : Nat) (rest : List UInt8) :
    decodeFrom offset (some pending) (tail ++ rest) =
      (decodeFrom (offset + tail.length) none rest).map (Char.ofNat result :: ·) := by
  induction completes generalizing offset with
  | last above below total => simp [decodeFrom, above, below, total]
  | @more start value missing low high result byte tail above below next ih =>
    have onward : offset + 1 + tail.length = offset + (byte :: tail).length := by
      rw [List.length_cons]
      omega
    rw [List.cons_append, decodeFrom, ← onward]
    simpa [above, below] using ih (offset + 1)

/-- A sequence is completed by the bytes that come next, or they are refused at its start. -/
theorem completes_or_refused (missing offset : Nat) (bytes : List UInt8) :
    (∃ tail rest result, bytes = tail ++ rest ∧
      Sequence.Completes ⟨start, value, missing + 1, low, high⟩ tail result) ∨
    ∃ reason, decodeFrom offset (some ⟨start, value, missing + 1, low, high⟩) bytes =
      .error ⟨reason, start⟩ := by
  induction missing generalizing offset value low high bytes with
  | zero =>
    cases bytes with
    | nil => exact .inr ⟨_, rfl⟩
    | cons byte rest =>
      by_cases within : low ≤ byte.toNat ∧ byte.toNat ≤ high
      · exact .inl ⟨[byte], rest, _, rfl, .last within.1 within.2 rfl⟩
      · exact .inr ⟨.invalidContinuation, by simp [decodeFrom, within]⟩
  | succ missing ih =>
    cases bytes with
    | nil => exact .inr ⟨_, rfl⟩
    | cons byte rest =>
      by_cases within : low ≤ byte.toNat ∧ byte.toNat ≤ high
      · rcases @ih (value * 64 + (byte.toNat - 0x80)) 0x80 0xBF (offset + 1) rest with
          ⟨tail, rest, result, rfl, next⟩ | ⟨reason, refused⟩
        · exact .inl ⟨byte :: tail, rest, result, rfl, .more within.1 within.2 next⟩
        · exact .inr ⟨reason, by simpa [decodeFrom, within] using refused⟩
      · exact .inr ⟨.invalidContinuation, by simp [decodeFrom, within]⟩

section Lead

variable {byte : Nat}

theorem lead_one (below : byte < 0x80) : lead offset byte = .single (Char.ofNat byte) := if_pos below

theorem lead_two (above : 0xC2 ≤ byte) (below : byte < 0xE0) :
    lead offset byte = .sequence ⟨offset, byte - 0xC0, 1, 0x80, 0xBF⟩ := by
  rw [lead, if_neg (by omega), if_neg (by omega), if_pos below]

theorem lead_three (above : 0xE0 ≤ byte) (below : byte < 0xF0) :
    ∃ low high, lead offset byte = .sequence ⟨offset, byte - 0xE0, 2, low, high⟩ ∧
      (byte = 0xE0 ∧ 0xA0 = low ∨ byte ≠ 0xE0 ∧ 0x80 = low) ∧
      (byte = 0xED ∧ 0x9F = high ∨ byte ≠ 0xED ∧ 0xBF = high) := by
  refine ⟨_, _, ?_, ite_eq_iff.mp rfl, ite_eq_iff.mp rfl⟩
  rw [lead, if_neg (by omega), if_neg (by omega), if_neg (by omega), if_pos below]

theorem lead_four (above : 0xF0 ≤ byte) (below : byte < 0xF5) :
    ∃ low high, lead offset byte = .sequence ⟨offset, byte - 0xF0, 3, low, high⟩ ∧
      (byte = 0xF0 ∧ 0x90 = low ∨ byte ≠ 0xF0 ∧ 0x80 = low) ∧
      (byte = 0xF4 ∧ 0x8F = high ∨ byte ≠ 0xF4 ∧ 0xBF = high) := by
  refine ⟨_, _, ?_, ite_eq_iff.mp rfl, ite_eq_iff.mp rfl⟩
  rw [lead, if_neg (by omega), if_neg (by omega), if_neg (by omega), if_neg (by omega), if_pos below]

theorem lead_invalid (none : 0x80 ≤ byte ∧ byte < 0xC2 ∨ 0xF5 ≤ byte) : lead offset byte = .invalid := by
  unfold lead
  rcases none with inside | above
  · rw [if_neg (by omega), if_pos inside.2]
  · rw [if_neg (by omega), if_neg (by omega), if_neg (by omega), if_neg (by omega), if_neg (by omega)]

/-- A byte that is a character by itself is ASCII. -/
theorem single_of_lead (leads : lead offset byte = .single c) : byte < 0x80 ∧ Char.ofNat byte = c := by
  by_cases below : byte < 0x80
  · rw [lead_one below] at leads
    exact ⟨below, Lead.single.inj leads⟩
  · rw [lead, if_neg below] at leads
    repeat' split at leads
    all_goals cases leads

/-- A sequence starts at its first byte and misses at least one. -/
theorem sequence_of_lead (leads : lead offset byte = .sequence pending) :
    ∃ value missing low high, pending = ⟨offset, value, missing + 1, low, high⟩ := by
  unfold lead at leads
  repeat' split at leads
  all_goals
    cases leads
    try exact ⟨_, _, _, _, rfl⟩

end Lead

section Bytes

theorem encodeChar_one (below : c.toNat ≤ 127) : String.utf8EncodeChar c = [UInt8.ofNat c.toNat] :=
  if_pos below

theorem encodeChar_two (above : 127 < c.toNat) (below : c.toNat ≤ 2047) :
    String.utf8EncodeChar c =
      [UInt8.ofNat (c.toNat / 64 % 32 + 192), UInt8.ofNat (c.toNat % 64 + 128)] :=
  (if_neg (Nat.not_le.mpr above)).trans (if_pos below)

theorem encodeChar_three (above : 2047 < c.toNat) (below : c.toNat ≤ 65535) :
    String.utf8EncodeChar c =
      [UInt8.ofNat (c.toNat / 4096 % 16 + 224), UInt8.ofNat (c.toNat / 64 % 64 + 128),
        UInt8.ofNat (c.toNat % 64 + 128)] := by
  have several : ¬c.toNat ≤ 127 := by omega
  exact (if_neg several).trans ((if_neg (Nat.not_le.mpr above)).trans (if_pos below))

theorem encodeChar_four (above : 65535 < c.toNat) :
    String.utf8EncodeChar c =
      [UInt8.ofNat (c.toNat / 262144 % 8 + 240), UInt8.ofNat (c.toNat / 4096 % 64 + 128),
        UInt8.ofNat (c.toNat / 64 % 64 + 128), UInt8.ofNat (c.toNat % 64 + 128)] := by
  have several : ¬c.toNat ≤ 127 := by omega
  have more : ¬c.toNat ≤ 2047 := by omega
  exact (if_neg several).trans ((if_neg more).trans (if_neg (Nat.not_le.mpr above)))

theorem toNat_ofNat_of_valid (number : Nat) (valid : number < 55296 ∨ 57343 < number ∧ number < 1114112) :
    (Char.ofNat number).toNat = number := by
  rw [Char.ofNat, dif_pos valid]
  rfl

theorem toNat_ofNat (number : Nat) (small : number < 256) : (UInt8.ofNat number).toNat = number :=
  Nat.mod_eq_of_lt small

theorem ofNat_eq {number : Nat} (same : number = byte.toNat) : UInt8.ofNat number = byte := by
  rw [same, UInt8.ofNat_toNat]

end Bytes

/-- A character is encoded by one byte, or by a byte that leads to a sequence and the bytes that complete it. -/
theorem encodeChar_cases (c : Char) (offset : Nat) :
    (∃ byte : UInt8, String.utf8EncodeChar c = [byte] ∧ lead offset byte.toNat = .single c) ∨
    ∃ (byte : UInt8) (pending : Sequence) (tail : List UInt8), String.utf8EncodeChar c = byte :: tail ∧
      lead offset byte.toNat = .sequence pending ∧ pending.Completes tail c.toNat := by
  have valid : c.toNat < 55296 ∨ 57343 < c.toNat ∧ c.toNat < 1114112 := c.valid
  by_cases one : c.toNat ≤ 127
  · refine .inl ⟨_, encodeChar_one one, ?_⟩
    rw [toNat_ofNat _ (by omega), lead_one (by omega), Char.ofNat_toNat]
  have last := toNat_ofNat (c.toNat % 64 + 128) (by omega)
  by_cases two : c.toNat ≤ 2047
  · have first := toNat_ofNat (c.toNat / 64 % 32 + 192) (by omega)
    refine .inr ⟨_, _, _, encodeChar_two (by omega) two, lead_two (by omega) (by omega), ?_⟩
    exact .last (by omega) (by omega) (by omega)
  have third := toNat_ofNat (c.toNat / 64 % 64 + 128) (by omega)
  by_cases three : c.toNat ≤ 65535
  · have first := toNat_ofNat (c.toNat / 4096 % 16 + 224) (by omega)
    obtain ⟨low, high, leads, least, most⟩ := @lead_three offset (UInt8.ofNat (c.toNat / 4096 % 16 + 224)).toNat
      (by omega) (by omega)
    refine .inr ⟨_, _, _, encodeChar_three (by omega) three, leads, ?_⟩
    exact .more (by omega) (by omega) (.last (by omega) (by omega) (by omega))
  · have first := toNat_ofNat (c.toNat / 262144 % 8 + 240) (by omega)
    have second := toNat_ofNat (c.toNat / 4096 % 64 + 128) (by omega)
    obtain ⟨low, high, leads, least, most⟩ := @lead_four offset (UInt8.ofNat (c.toNat / 262144 % 8 + 240)).toNat
      (by omega) (by omega)
    refine .inr ⟨_, _, _, encodeChar_four (by omega), leads, ?_⟩
    exact .more (by omega) (by omega) (.more (by omega) (by omega) (.last (by omega) (by omega) (by omega)))

/-- A byte that leads to a sequence and the bytes that complete it encode a character. -/
theorem encodeChar_of_completes (leads : lead offset byte.toNat = .sequence pending)
    (completes : pending.Completes tail result) :
    String.utf8EncodeChar (Char.ofNat result) = byte :: tail := by
  by_cases none : byte.toNat < 0xC2 ∨ 0xF5 ≤ byte.toNat
  · by_cases one : byte.toNat < 0x80
    · rw [lead_one one] at leads
      cases leads
    · rw [lead_invalid (by omega)] at leads
      cases leads
  by_cases two : byte.toNat < 0xE0
  · rw [lead_two (by omega) two] at leads
    cases leads
    cases completes with
    | @last _ _ _ _ _ second above below total =>
    have same := toNat_ofNat_of_valid result (by omega)
    have parts : result / 64 % 32 + 192 = byte.toNat ∧ result % 64 + 128 = second.toNat := by omega
    rw [encodeChar_two (by omega) (by omega), same, ofNat_eq parts.1, ofNat_eq parts.2]
  by_cases three : byte.toNat < 0xF0
  · obtain ⟨low, high, actual, least, most⟩ := @lead_three offset byte.toNat (by omega) three
    rw [actual] at leads
    cases leads
    cases completes with
    | @more _ _ _ _ _ _ second _ above below next =>
    cases next with
    | @last _ _ _ _ _ third above' below' total =>
    have same := toNat_ofNat_of_valid result (by omega)
    have parts : result / 4096 % 16 + 224 = byte.toNat ∧ result / 64 % 64 + 128 = second.toNat ∧
        result % 64 + 128 = third.toNat := by omega
    rw [encodeChar_three (by omega) (by omega), same, ofNat_eq parts.1, ofNat_eq parts.2.1,
      ofNat_eq parts.2.2]
  · obtain ⟨low, high, actual, least, most⟩ := @lead_four offset byte.toNat (by omega) (by omega)
    rw [actual] at leads
    cases leads
    cases completes with
    | @more _ _ _ _ _ _ second _ above below next =>
    cases next with
    | @more _ _ _ _ _ _ third _ above' below' next =>
    cases next with
    | @last _ _ _ _ _ fourth above'' below'' total =>
    have same := toNat_ofNat_of_valid result (by omega)
    have parts : result / 262144 % 8 + 240 = byte.toNat ∧ result / 4096 % 64 + 128 = second.toNat ∧
        result / 64 % 64 + 128 = third.toNat ∧ result % 64 + 128 = fourth.toNat := by omega
    rw [encodeChar_four (by omega), same, ofNat_eq parts.1, ofNat_eq parts.2.1, ofNat_eq parts.2.2.1,
      ofNat_eq parts.2.2.2]

section Decode

@[simp] theorem encode_nil : encode [] = [] := rfl

theorem encode_cons (c : Char) (text : List Char) :
    encode (c :: text) = String.utf8EncodeChar c ++ encode text := List.flatMap_cons

theorem encode_append (first second : List Char) : encode (first ++ second) = encode first ++ encode second :=
  List.flatMap_append

theorem encode_toList (source : String) : encode source.toList = source.toUTF8.data.toList := by
  rw [String.toUTF8_eq_toByteArray, ← String.utf8Encode_toList, List.utf8Encode, List.data_toByteArray,
    encode]

theorem encodeChar_ne_nil (c : Char) : String.utf8EncodeChar c ≠ [] := by
  rcases encodeChar_cases c 0 with ⟨byte, bytes, _⟩ | ⟨byte, pending, tail, bytes, _, _⟩ <;> simp [bytes]

/-- The bytes of a character are decoded to it, whatever follows. -/
theorem decodeFrom_encodeChar (c : Char) (rest : List UInt8) :
    decodeFrom offset none (String.utf8EncodeChar c ++ rest) =
      (decodeFrom (offset + (String.utf8EncodeChar c).length) none rest).map (c :: ·) := by
  rcases encodeChar_cases c offset with ⟨byte, bytes, leads⟩ | ⟨byte, pending, tail, bytes, leads, completes⟩
  · simp [bytes, decodeFrom, leads]
  · have onward : offset + (byte :: tail).length = offset + 1 + tail.length := by
      rw [List.length_cons]
      omega
    have further := decodeFrom_of_completes completes (offset + 1) rest
    rw [bytes, onward, List.cons_append]
    simpa [decodeFrom, leads] using further

theorem decodeFrom_encode (offset : Nat) (text : List Char) (rest : List UInt8) :
    decodeFrom offset none (encode text ++ rest) =
      (decodeFrom (offset + (encode text).length) none rest).map (text ++ ·) := by
  induction text generalizing offset with
  | nil => cases found : decodeFrom offset none rest <;> simp [found, Except.map]
  | cons c text ih =>
    rw [encode_cons, List.append_assoc, decodeFrom_encodeChar, ih, List.length_append, ← Nat.add_assoc]
    cases decodeFrom _ none rest <;> rfl

theorem decode_encode (text : List Char) : decode (encode text) = .ok text := by
  have whole := decodeFrom_encode 0 text []
  rw [List.append_nil] at whole
  rw [decode, whole]
  simp [decodeFrom, Except.map]

/-- Bytes start with a character's, or they are refused at the first of them. -/
theorem character_or_refused (nonempty : bytes ≠ []) (offset : Nat) :
    (∃ c rest, bytes = String.utf8EncodeChar c ++ rest) ∨
      ∃ reason, decodeFrom offset none bytes = .error ⟨reason, offset⟩ := by
  obtain ⟨byte, rest, rfl⟩ := List.exists_cons_of_ne_nil nonempty
  cases leads : lead offset byte.toNat with
  | single c =>
    obtain ⟨below, rfl⟩ := single_of_lead leads
    have same : (Char.ofNat byte.toNat).toNat = byte.toNat := toNat_ofNat_of_valid _ (.inl (by omega))
    refine .inl ⟨Char.ofNat byte.toNat, rest, ?_⟩
    rw [encodeChar_one (by omega), same, UInt8.ofNat_toNat, List.singleton_append]
  | invalid => exact .inr ⟨.invalidStart, by simp [decodeFrom, leads]⟩
  | sequence pending =>
    obtain ⟨value, missing, low, high, rfl⟩ := sequence_of_lead leads
    rcases completes_or_refused missing (offset + 1) rest with
      ⟨tail, rest, result, rfl, completes⟩ | ⟨reason, refused⟩
    · refine .inl ⟨Char.ofNat result, rest, ?_⟩
      rw [encodeChar_of_completes leads completes, List.cons_append]
    · exact .inr ⟨reason, by simpa [decodeFrom, leads] using refused⟩

/-- Bytes are the encoding of a text, or they go on after one with no character and are refused there. -/
theorem encodes_or_refused (bytes : List UInt8) (offset : Nat) :
    (∃ text, bytes = encode text) ∨ ∃ text rest reason, bytes = encode text ++ rest ∧
      decodeFrom offset none bytes = .error ⟨reason, offset + (encode text).length⟩ := by
  induction size : bytes.length using Nat.strongRecOn generalizing bytes offset with
  | ind bound ih =>
    subst size
    by_cases nonempty : bytes = []
    · exact .inl ⟨[], nonempty⟩
    rcases character_or_refused nonempty offset with ⟨c, later, rfl⟩ | ⟨reason, refused⟩
    · have shorter : later.length < (String.utf8EncodeChar c ++ later).length := by
        have some := List.length_pos_iff.mpr (encodeChar_ne_nil c)
        rw [List.length_append]
        omega
      rcases ih _ shorter later (offset + (String.utf8EncodeChar c).length) rfl with
        ⟨text, rfl⟩ | ⟨text, rest, reason, rfl, refused⟩
      · exact .inl ⟨c :: text, (encode_cons c text).symm⟩
      · refine .inr ⟨c :: text, rest, reason, by rw [encode_cons, List.append_assoc], ?_⟩
        rw [decodeFrom_encodeChar, refused, encode_cons, List.length_append, ← Nat.add_assoc]
        rfl
    · exact .inr ⟨[], bytes, reason, rfl, refused⟩

/-- Exactly the bytes that encode a text are decoded, and to this text. -/
theorem decode_eq_ok_iff : decode bytes = .ok text ↔ encode text = bytes := by
  constructor
  · intro decoded
    rcases encodes_or_refused bytes 0 with ⟨other, rfl⟩ | ⟨_, _, _, _, refused⟩
    · rw [decode_encode] at decoded
      cases decoded
      rfl
    · rw [decode, refused] at decoded
      cases decoded
  · rintro rfl
    exact decode_encode text

theorem encode_ne_of_refused {refusal : Refusal} (refused : decode bytes = .error refusal) (text : List Char) :
    encode text ≠ bytes := by
  intro encodes
  rw [← decode_eq_ok_iff, refused] at encodes
  cases encodes

/-- The longest text whose bytes some bytes start with: every other such text is a start of it. -/
structure LongestStart (bytes : List UInt8) (text : List Char) : Prop where
  stands : encode text <+: bytes
  longest : ∀ other, encode other <+: bytes → other <+: text

/-- A text whose bytes stand before those of another one is a start of it. -/
theorem isPrefix_of_encode {first second : List Char} (starts : encode first <+: encode second) :
    first <+: second := by
  obtain ⟨rest, same⟩ := starts
  have decoded := decode_encode second
  rw [← same, decode, decodeFrom_encode] at decoded
  cases found : decodeFrom (0 + (encode first).length) none rest with
  | error refusal =>
    rw [found] at decoded
    cases decoded
  | ok later =>
    rw [found] at decoded
    cases decoded
    exact List.prefix_append first later

/-- Bytes are refused no earlier than where their decoding begins. -/
theorem offset_le_of_refused {refusal : Refusal} (refused : decodeFrom offset none bytes = .error refusal) :
    offset ≤ refusal.start := by
  rcases encodes_or_refused bytes offset with ⟨text, rfl⟩ | ⟨text, _, reason, _, failed⟩
  · have decoded := decodeFrom_encode offset text []
    rw [List.append_nil, refused] at decoded
    cases decoded
  · rw [failed] at refused
    cases refused
    exact Nat.le_add_right _ _

/-- Bytes that encode no text are refused right after the longest text that they start with. -/
theorem decode_refuses (invalid : ∀ text, encode text ≠ bytes) :
    ∃ text reason, LongestStart bytes text ∧ decode bytes = .error ⟨reason, (encode text).length⟩ := by
  rcases encodes_or_refused bytes 0 with ⟨text, same⟩ | ⟨text, rest, reason, rfl, refused⟩
  · exact absurd same.symm (invalid text)
  rw [Nat.zero_add] at refused
  refine ⟨text, reason, ⟨List.prefix_append _ _, ?_⟩, refused⟩
  rintro other ⟨more, same⟩
  have within : (encode other).length ≤ (encode text).length := by
    rw [← same, decodeFrom_encode, Nat.zero_add] at refused
    cases found : decodeFrom (encode other).length none more with
    | ok later =>
      rw [found] at refused
      cases refused
    | error refusal =>
      rw [found] at refused
      cases refused
      exact offset_le_of_refused found
  have starts : encode other <+: encode text ++ rest := ⟨more, same⟩
  exact isPrefix_of_encode (List.prefix_of_prefix_length_le starts (List.prefix_append _ _) within)

end Decode

end SheetLint.Text.Utf8
