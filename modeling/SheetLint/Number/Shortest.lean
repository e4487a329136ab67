import SheetLint.Number.Binary64

/-! The shortest decimal texts that are nearest to one binary number and to no other. -/
namespace SheetLint.Number

/-- The number `digits * 10 ^ exponent`. -/
structure Decimal where
  digits : Nat
  exponent : Int
  deriving DecidableEq, Repr

def digitCount (n : Nat) : Nat := (Nat.toDigits 10 n).length

/-- The power of ten at or below a positive quotient. -/
def decade (num den : Nat) : Int :=
  let guess : Int := digitCount num - digitCount den
  let reached :=
    if 0 ≤ guess then den * Nat.pow 10 guess.toNat ≤ num
    else den ≤ num * Nat.pow 10 (-guess).toNat
  if reached then guess else guess - 1

/-- The quotients from `low / den` to `high / den` that round to the number `value / den`, the two
ends among them only where `closed` says so. -/
structure Interval where
  low : Nat
  value : Nat
  high : Nat
  den : Nat
  closed : Bool

/-- The interval of a positive finite number. It is narrower below a power of two. -/
def Interval.of (mantissa : Nat) (exponent : Int) : Interval :=
  let below := if mantissa = Nat.pow 2 52 && exponent != -1074 then 1 else 2
  let unit := exponent - 2
  let up := if 0 ≤ unit then Nat.pow 2 unit.toNat else 1
  let den := if 0 ≤ unit then 1 else Nat.pow 2 (-unit).toNat
  ⟨(4 * mantissa - below) * up, 4 * mantissa * up, (4 * mantissa + 2) * up, den, mantissa % 2 == 0⟩

/-- A number in units of `10 ^ grid`, over the interval's denominator and power. -/
def Interval.point (interval : Interval) (grid : Int) (digits : Nat) : Nat :=
  if 0 ≤ grid then digits * Nat.pow 10 grid.toNat * interval.den else digits * interval.den

def Interval.scale (grid : Int) (bound : Nat) : Nat :=
  if 0 ≤ grid then bound else bound * Nat.pow 10 (-grid).toNat

def Interval.holds (interval : Interval) (grid : Int) (digits : Nat) : Bool :=
  let place := interval.point grid digits
  let low := scale grid interval.low
  let high := scale grid interval.high
  if interval.closed then low ≤ place && place ≤ high else low < place && place < high

/-- The neighbour on a decimal grid that the interval holds, the nearer one of two; of two at the same
distance the even one. -/
def Interval.neighbour? (interval : Interval) (grid : Int) : Option Nat :=
  let value := scale grid interval.value
  let floor := value / interval.point grid 1
  match interval.holds grid floor, interval.holds grid (floor + 1) with
  | true, true =>
    let down := value - interval.point grid floor
    let up := interval.point grid (floor + 1) - value
    some (if down < up || (down == up && floor % 2 == 0) then floor else floor + 1)
  | true, false => some floor
  | false, true => some (floor + 1)
  | false, false => none

/-- A decimal without zeros at its end. -/
def Decimal.strip : Nat → Decimal → Decimal
  | 0, decimal => decimal
  | fuel + 1, ⟨digits, exponent⟩ =>
    if digits % 10 = 0 then Decimal.strip fuel ⟨digits / 10, exponent + 1⟩ else ⟨digits, exponent⟩

/-- Seventeen digits always suffice: the grids with one digit more each are tried in turn. -/
def shortest (mantissa : Nat) (exponent : Int) : Decimal :=
  let interval := Interval.of mantissa exponent
  let top := decade interval.value interval.den
  let tried := (List.range 17).findSome? fun (places : Nat) =>
    let grid := top - places
    (interval.neighbour? grid).map fun digits => Decimal.strip 17 ⟨digits, grid⟩
  tried.getD ⟨mantissa, 0⟩

/-- Positional from a ten-thousandth up to sixteen digits before the point, with at least one digit after
it; beyond, one digit before the point and a signed exponent of at least two digits. -/
def Decimal.text (decimal : Decimal) : String :=
  let digits := Nat.toDigits 10 decimal.digits
  let top : Int := decimal.exponent + digits.length - 1
  if -4 ≤ top && top < 16 then
    if top < 0 then
      "0." ++ String.ofList (List.replicate (-top - 1).toNat '0' ++ digits)
    else
      let whole := digits.take (top + 1).toNat
      let zeros := List.replicate (top + 1 - digits.length).toNat '0'
      let fraction := digits.drop (top + 1).toNat
      String.ofList (whole ++ zeros ++ ['.'] ++ if fraction.isEmpty then ['0'] else fraction)
  else
    let fraction := digits.drop 1
    let point := if fraction.isEmpty then [] else '.' :: fraction
    let sign := if top < 0 then '-' else '+'
    String.ofList (digits.take 1 ++ point ++ ['e', sign] ++
      (Nat.toDigits 10 top.natAbs).leftpad 2 '0')

/-- The shortest text that reads back as the number. -/
def Binary64.text : Binary64 → String
  | .finite negative mantissa exponent =>
    (if negative then "-" else "") ++
      if mantissa = 0 then "0.0" else (shortest mantissa exponent).text
  | .infinite negative => if negative then "-inf" else "inf"
  | .undefined => "nan"

end SheetLint.Number
