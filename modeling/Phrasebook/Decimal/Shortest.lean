/-!
# Shortest decimals

The decimal with the fewest digits that reads back as a given binary number, found on exact natural
numbers. A finite double is `significand · 2 ^ exponent`; the reals that round to it form an interval, and
the first decimal grid with a point in that interval gives the digits.
-/

namespace Phrasebook.Decimal

/-- The magnitude of a finite double, `significand · 2 ^ exponent`. -/
structure Magnitude where
  significand : Nat
  exponent : Int
  /-- Whether the next smaller double is only half as far away as the next larger one. -/
  narrowBelow : Bool
  deriving Repr, DecidableEq

/-- A decimal `digits · 10 ^ exponent`. -/
structure Digits where
  digits : Nat
  exponent : Int
  deriving Repr, DecidableEq, Inhabited

/-- The magnitude that the bits of a finite double stand for. -/
def Magnitude.ofBits (bits : Nat) : Magnitude :=
  let fraction : Nat := bits % Nat.pow 2 52
  let biased : Nat := bits / Nat.pow 2 52 % Nat.pow 2 11
  if biased = 0 then ⟨fraction, -1074, false⟩
  else ⟨Nat.pow 2 52 + fraction, (biased : Int) - 1075, fraction = 0 && 1 < biased⟩

/-- The number of decimal digits of a natural number. -/
def digitCount (n : Nat) : Nat :=
  (Nat.toDigits 10 n).length

/-- The least `j` below `bound` with `den ≤ num · 10 ^ j`, counted from `j`. -/
def leadingZeros (num den : Nat) : Nat → Nat
  | 0 => 0
  | bound + 1 => if den ≤ num then 0 else leadingZeros (num * 10) den bound + 1

/-- The least exponent `e` with `num / den < 10 ^ e`, for a positive fraction. -/
def decimalExponent (num den : Nat) : Int :=
  if den ≤ num then digitCount (num / den) else 1 - (leadingZeros num den 400 : Int)

/-- Drop trailing zeros of a decimal, at most `bound` of them. -/
def Digits.strip (d : Digits) : Nat → Digits
  | 0 => d
  | bound + 1 =>
    if d.digits ≠ 0 && d.digits % 10 = 0 then Digits.strip ⟨d.digits / 10, d.exponent + 1⟩ bound else d

/-- The shortest decimal that rounds to the magnitude, and of several the nearest.

With `unit = 10 ^ e` all quantities are compared after multiplication by the common denominator, so the
comparison is exact. -/
def Magnitude.shortest (x : Magnitude) : Digits :=
  if x.significand = 0 then ⟨0, 0⟩ else
    -- quarters of the last place: value, lower end and upper end of the interval
    let value := 4 * x.significand
    let lower := value - (if x.narrowBelow then 1 else 2)
    let upper := value + 2
    let shift := x.exponent - 2
    let num := Nat.pow 2 shift.toNat
    let den := Nat.pow 2 (-shift).toNat
    let top := decimalExponent (value * num) den
    let candidate (length : Nat) : Option Digits :=
      let e := top - (length : Int)
      let up := Nat.pow 10 (-e).toNat
      let unit := den * Nat.pow 10 e.toNat
      let scale (quarters : Nat) := quarters * num * up
      let floor := scale value / unit
      let inside (d : Nat) : Bool :=
        if x.significand % 2 = 0 then scale lower ≤ d * unit && d * unit ≤ scale upper
        else scale lower < d * unit && d * unit < scale upper
      let nearer := if 2 * scale value < (2 * floor + 1) * unit then floor else floor + 1
      let other := if nearer = floor then floor + 1 else floor
      if inside nearer then some ⟨nearer, e⟩ else if inside other then some ⟨other, e⟩ else none
    match (List.range 17).findSome? fun n => candidate (n + 1) with
    | some d => d.strip 400
    | none => ⟨x.significand, 0⟩

end Phrasebook.Decimal
