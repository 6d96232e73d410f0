import Phrasebook.Decimal.Shortest

/-!
# Positional notation

The text of a number: its shortest digits without an exponent, whatever its size, and without a trailing
point. Zero keeps its sign; the numbers that are not finite are `NaN`, `inf` and `-inf`.
-/

namespace Phrasebook.Decimal

/-- A decimal cut at the point: the digits before it (at least one) and those after it. -/
def Digits.parts (d : Digits) : List Char × List Char :=
  let ds := Nat.toDigits 10 d.digits
  if 0 ≤ d.exponent then
    (if d.digits = 0 then ['0'] else ds ++ List.replicate d.exponent.toNat '0', [])
  else
    let places := (-d.exponent).toNat
    let padded := List.replicate (places + 1 - ds.length) '0' ++ ds
    (padded.take (padded.length - places), padded.drop (padded.length - places))

/-- The digits before the point, and the digits after it behind a point. -/
def Digits.positional (d : Digits) : List Char :=
  match d.parts with
  | (whole, []) => whole
  | (whole, fraction) => whole ++ '.' :: fraction

/-- Whether the sign bit of a number is set. -/
def isNegative (x : Float) : Bool :=
  x.toBits.toNat / Nat.pow 2 63 = 1

/-- The shortest digits of the magnitude of a finite number. -/
def shortest (x : Float) : Digits :=
  (Magnitude.ofBits (x.toBits.toNat % Nat.pow 2 63)).shortest

/-- The text of a number. -/
def display (x : Float) : String :=
  if x.isNaN then "NaN"
  else
    let sign := if isNegative x then "-" else ""
    if x.isInf then sign ++ "inf" else sign ++ String.ofList (shortest x).positional

end Phrasebook.Decimal
