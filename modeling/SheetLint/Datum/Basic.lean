import SheetLint.Number.Shortest
import SheetLint.Text.Quoted

/-! Data of no fixed shape, as configuration holds them. -/
namespace SheetLint

open Number (Binary64)

/-- A value of a configuration: a level, an option, or a part of one. -/
inductive Datum
  | null
  | bool (value : Bool)
  | int (value : Int)
  | float (value : Binary64)
  | text (value : String)
  | list (items : List Datum)
  | object (entries : List (String × Datum))

namespace Datum

/-- Numerically equal to a whole number: truth values count as one and zero. -/
def isNat (number : Nat) : Datum → Bool
  | bool value => (if value then 1 else 0) == number
  | int value => value == number
  | float value => value.isNat number
  | _ => false

theorem isNat_inj {datum : Datum} {first second : Nat} (one : datum.isNat first)
    (other : datum.isNat second) : first = second := by
  cases datum with
  | bool | int => simp only [isNat, beq_iff_eq] at one other; omega
  | float value => exact Binary64.isNat_inj one other
  | null | text | list | object => cases one

mutual

/-- A datum written out on one line. -/
def written : Datum → String
  | null => "None"
  | bool true => "True"
  | bool false => "False"
  | int value => toString value
  | float value => value.text
  | text value => Text.quoted value.toList
  | list items => "[" ++ ", ".intercalate (itemTexts items) ++ "]"
  | object entries => "\x7b" ++ ", ".intercalate (entryTexts entries) ++ "\x7d"

def itemTexts : List Datum → List String
  | [] => []
  | item :: rest => item.written :: itemTexts rest

def entryTexts : List (String × Datum) → List String
  | [] => []
  | (key, value) :: rest => (Text.quoted key.toList ++ ": " ++ value.written) :: entryTexts rest

end

/-- The word for a datum of this sort. -/
def sort : Datum → String
  | null => "NoneType"
  | bool _ => "bool"
  | int _ => "int"
  | float _ => "float"
  | text _ => "str"
  | list _ => "list"
  | object _ => "dict"

end Datum
end SheetLint
