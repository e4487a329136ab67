import SheetLint.Datum.Basic

/-! Data written as JSON, in ASCII and on one line. -/
namespace SheetLint.Datum

/-- Four places in base 16 after a mark. -/
def unicodeEscape (unit : Nat) : List Char := '\\' :: 'u' :: Text.hexadecimal 4 unit

/-- One character of a JSON string. Characters beyond the basic plane are written as two surrogates. -/
def jsonChar (c : Char) : List Char :=
  if c == '\x22' || c == '\\' then ['\\', c]
  else if 32 ≤ c.toNat && c.toNat < 127 then [c]
  else if c == '\n' then ['\\', 'n']
  else if c == '\r' then ['\\', 'r']
  else if c == '\t' then ['\\', 't']
  else if c.toNat = 8 then ['\\', 'b']
  else if c.toNat = 12 then ['\\', 'f']
  else if c.toNat < 65536 then unicodeEscape c.toNat
  else unicodeEscape (0xD800 + (c.toNat - 65536) / 1024) ++
    unicodeEscape (0xDC00 + (c.toNat - 65536) % 1024)

def jsonString (text : String) : String :=
  String.ofList ('\x22' :: text.toList.flatMap jsonChar ++ ['\x22'])

def jsonFloat (number : Number.Binary64) : String :=
  match number with
  | .finite _ _ _ => number.text
  | .infinite negative => if negative then "-Infinity" else "Infinity"
  | .undefined => "NaN"

mutual

/-- A datum in JSON. The entries of an object come in their own order. -/
def json : Datum → String
  | null => "null"
  | bool value => if value then "true" else "false"
  | int value => toString value
  | float value => jsonFloat value
  | text value => jsonString value
  | list items => "[" ++ ", ".intercalate (jsonItems items) ++ "]"
  | object entries => "\x7b" ++ ", ".intercalate (jsonEntries entries) ++ "\x7d"

def jsonItems : List Datum → List String
  | [] => []
  | item :: rest => item.json :: jsonItems rest

def jsonEntries : List (String × Datum) → List String
  | [] => []
  | (key, value) :: rest => (jsonString key ++ ": " ++ value.json) :: jsonEntries rest

end

end SheetLint.Datum
