import SheetLint.Color.Basic
import SheetLint.Number.Binary64

/-! The contrast between two colours: how far apart they are in brightness and in hue. -/
namespace SheetLint

open Number (Binary64)

namespace Rgb

/-- A thousand times the brightness: green counts most and blue least. -/
def luma (color : Rgb) : Int := 299 * color.red + 587 * color.green + 114 * color.blue

/-- The sum of the distances between the channels. -/
def hueDifference (first second : Rgb) : Int :=
  (first.red - second.red).natAbs + (first.green - second.green).natAbs
    + (first.blue - second.blue).natAbs

/-- The brightness as a floating-point number. -/
def brightness (color : Rgb) : Except ColorFault Binary64 :=
  match Binary64.ofQuotient (decide (color.luma < 0)) color.luma.natAbs 1000 with
  | .infinite _ => .error .tooBright
  | number => .ok number

end Rgb

namespace Color

/-- The least difference in brightness that two colours need. -/
def minBrightnessDifference : Nat := 126

/-- The least difference in hue that two colours need. -/
def minHueDifference : Nat := 501

def known (color : Color) : Except ColorFault Rgb :=
  match color.rgb? with
  | some rgb => .ok rgb
  | none => .error .openChannel

def brightness (color : Color) : Except ColorFault Binary64 := do
  let rgb ← color.known
  rgb.brightness

/-- The background is worked out before the foreground. -/
def brightnessDifference (foreground background : Color) : Except ColorFault Binary64 := do
  let behind ← background.brightness
  let front ← foreground.brightness
  return (behind.sub front).abs

def hueDifference (foreground background : Color) : Except ColorFault Int := do
  let front ← foreground.known
  let behind ← background.known
  return front.hueDifference behind

/-- Both differences reach their minimum; the hue is looked at only if the brightness passes. -/
def hasContrast (foreground background : Color) : Except ColorFault Bool := do
  let difference ← brightnessDifference foreground background
  if difference.atLeast minBrightnessDifference then
    let hue ← hueDifference foreground background
    return minHueDifference ≤ hue
  else return false

end Color
end SheetLint
