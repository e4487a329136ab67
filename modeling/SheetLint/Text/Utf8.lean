/-!
Strict UTF-8: every refusal has its reason and the offset of the byte where the bad sequence starts.
-/
namespace SheetLint.Text.Utf8

/-- Why bytes are no text. -/
inductive Reason
  | invalidStart
  | invalidContinuation
  | unexpectedEnd
  deriving DecidableEq, Repr

def Reason.message : Reason → String
  | .invalidStart => "invalid start byte"
  | .invalidContinuation => "invalid continuation byte"
  | .unexpectedEnd => "unexpected end of data"

/-- A refusal of the byte sequence that starts at an offset. -/
structure Refusal where
  reason : Reason
  start : Nat
  deriving DecidableEq, Repr

/-- A sequence of which `missing` bytes are still to come, the next one from `low` to `high`. -/
structure Sequence where
  start : Nat
  value : Nat
  missing : Nat
  low : Nat
  high : Nat

/-- What a first byte announces. The bounds on the second byte leave out overlong forms, surrogates
and numbers beyond the last code point. -/
inductive Lead
  | single (c : Char)
  | sequence (pending : Sequence)
  | invalid

def lead (offset byte : Nat) : Lead :=
  if byte < 0x80 then .single (Char.ofNat byte)
  else if byte < 0xC2 then .invalid
  else if byte < 0xE0 then .sequence ⟨offset, byte - 0xC0, 1, 0x80, 0xBF⟩
  else if byte < 0xF0 then
    .sequence ⟨offset, byte - 0xE0, 2, if byte = 0xE0 then 0xA0 else 0x80,
      if byte = 0xED then 0x9F else 0xBF⟩
  else if byte < 0xF5 then
    .sequence ⟨offset, byte - 0xF0, 3, if byte = 0xF0 then 0x90 else 0x80,
      if byte = 0xF4 then 0x8F else 0xBF⟩
  else .invalid

/-- Decodes from an offset on, within the sequence that has been started there, if any. -/
def decodeFrom (offset : Nat) : Option Sequence → List UInt8 → Except Refusal (List Char)
  | none, [] => .ok []
  | some pending, [] => .error ⟨.unexpectedEnd, pending.start⟩
  | none, byte :: rest =>
    match lead offset byte.toNat with
    | .single c => (decodeFrom (offset + 1) none rest).map (c :: ·)
    | .sequence pending => decodeFrom (offset + 1) (some pending) rest
    | .invalid => .error ⟨.invalidStart, offset⟩
  | some pending, byte :: rest =>
    if pending.low ≤ byte.toNat && byte.toNat ≤ pending.high then
      let value := pending.value * 64 + (byte.toNat - 0x80)
      if pending.missing ≤ 1 then
        (decodeFrom (offset + 1) none rest).map (Char.ofNat value :: ·)
      else decodeFrom (offset + 1) (some ⟨pending.start, value, pending.missing - 1, 0x80, 0xBF⟩) rest
    else .error ⟨.invalidContinuation, pending.start⟩

/-- The text that bytes stand for. -/
def decode (bytes : List UInt8) : Except Refusal (List Char) := decodeFrom 0 none bytes

end SheetLint.Text.Utf8
