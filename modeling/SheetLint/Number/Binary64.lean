import SheetLint.Number.Rounding

/-! Binary floating-point numbers of 64 bits, with exact values and correctly rounded results. -/
namespace SheetLint.Number

/-- A finite number is `mantissa * 2 ^ exponent`. The mantissa is below `2 ^ 53`; it is at least
`2 ^ 52` unless the exponent is the least one, -1074. -/
inductive Binary64
  | finite (negative : Bool) (mantissa : Nat) (exponent : Int)
  | infinite (negative : Bool)
  | undefined
  deriving DecidableEq, Repr

namespace Binary64

/-- A quotient divided by a power of two, as a numerator and a denominator. -/
def scaled (num den : Nat) (exponent : Int) : Nat × Nat :=
  if 0 ≤ exponent then (num, den * Nat.pow 2 exponent.toNat)
  else (num * Nat.pow 2 (-exponent).toNat, den)

/-- The exponent for a positive quotient: with it the mantissa has 53 bits, or it is the least. -/
def exponentOf (num den : Nat) : Int :=
  let guess : Int := Nat.log2 num - Nat.log2 den - 53
  let (n, d) := scaled num den guess
  max (-1074) (if n / d < Nat.pow 2 53 then guess else guess + 1)

/-- The quotient of two numbers, the second one positive, rounded once to the nearest number;
infinite where that lies beyond the greatest finite one. -/
def ofQuotient (negative : Bool) (num den : Nat) : Binary64 :=
  if num = 0 then .finite negative 0 (-1074)
  else
    let exponent := exponentOf num den
    let (n, d) := scaled num den exponent
    let mantissa := roundQuotient n d
    let (mantissa, exponent) :=
      if mantissa = Nat.pow 2 53 then (Nat.pow 2 52, exponent + 1) else (mantissa, exponent)
    if 971 < exponent then .infinite negative else .finite negative mantissa exponent

/-- The integer that a signed mantissa stands for, in units of a lesser power of two. -/
def units (negative : Bool) (mantissa : Nat) (exponent unit : Int) : Int :=
  let size : Nat := mantissa * Nat.pow 2 (exponent - unit).toNat
  if negative then -(size : Int) else size

/-- The difference, rounded once. -/
def sub : Binary64 → Binary64 → Binary64
  | .finite s m e, .finite t n f =>
    let unit := min e f
    let difference := units s m e unit - units t n f unit
    let negative := if difference = 0 then s && !t else decide (difference < 0)
    if 0 ≤ unit then ofQuotient negative (difference.natAbs * Nat.pow 2 unit.toNat) 1
    else ofQuotient negative difference.natAbs (Nat.pow 2 (-unit).toNat)
  | .infinite s, .infinite t => if s = t then .undefined else .infinite s
  | .infinite s, .finite _ _ _ => .infinite s
  | .finite _ _ _, .infinite t => .infinite (!t)
  | .undefined, _ => .undefined
  | _, .undefined => .undefined

def abs : Binary64 → Binary64
  | .finite _ m e => .finite false m e
  | .infinite _ => .infinite false
  | .undefined => .undefined

/-- At least a whole number above zero. -/
def atLeast (bound : Nat) : Binary64 → Bool
  | .finite negative m e =>
    let (n, d) := scaled bound 1 e
    !negative && n ≤ m * d
  | .infinite negative => !negative
  | .undefined => false

/-- Equal to a whole number; both zeros are equal to zero. -/
def isNat (number : Nat) : Binary64 → Bool
  | .finite negative m e =>
    let (n, d) := scaled number 1 e
    n == m * d && (!negative || number == 0)
  | _ => false

/-- A number is equal to one whole number at most. -/
theorem isNat_inj {number : Binary64} {first second : Nat}
    (one : number.isNat first) (other : number.isNat second) : first = second := by
  cases number with
  | finite negative mantissa exponent =>
    simp only [isNat, scaled, Bool.and_eq_true, beq_iff_eq] at one other
    by_cases whole : 0 ≤ exponent
    · simp only [whole, ↓reduceIte] at one other
      exact one.1.trans other.1.symm
    · simp only [whole, ↓reduceIte] at one other
      exact Nat.eq_of_mul_eq_mul_right (Nat.pow_pos (by omega)) (one.1.trans other.1.symm)
  | infinite => cases one
  | undefined => cases one

/-- The sign, exponent and fraction fields put side by side. -/
def toBits : Binary64 → Nat
  | .finite negative m e =>
    (if negative then Nat.pow 2 63 else 0) +
      (if m < Nat.pow 2 52 then m else (e + 1075).toNat * Nat.pow 2 52 + (m - Nat.pow 2 52))
  | .infinite negative => (if negative then Nat.pow 2 63 else 0) + 2047 * Nat.pow 2 52
  | .undefined => 2047 * Nat.pow 2 52 + Nat.pow 2 51

end Binary64
end SheetLint.Number
