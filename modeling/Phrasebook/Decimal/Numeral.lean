/-!
# Numerals

Reading decimal numerals: whole numbers in a radix, and numbers with a fraction and an exponent.
-/

namespace Phrasebook.Decimal

/-- A written number: `digits · 10 ^ scale`, with a sign. -/
structure Numeral where
  negative : Bool
  digits : Nat
  scale : Int
  deriving Repr, DecidableEq, Inhabited

/-- The value of a digit in a radix of at most 36. -/
def digitValue? (radix : Nat) (c : Char) : Option Nat :=
  let value :=
    if c.isDigit then some (c.toNat - 48)
    else if 'a' ≤ c ∧ c ≤ 'z' then some (c.toNat - 87)
    else if 'A' ≤ c ∧ c ≤ 'Z' then some (c.toNat - 55)
    else none
  value.filter (· < radix)

/-- The natural number written by digits of a radix; there has to be a digit. -/
def natural? (radix : Nat) : List Char → Option Nat
  | [] => none
  | cs => cs.foldlM (fun n c => (digitValue? radix c).map (n * radix + ·)) 0

/-- Split a leading sign off: whether it was a minus, and the rest. -/
def splitSign : List Char → Bool × List Char
  | '-' :: cs => (true, cs)
  | '+' :: cs => (false, cs)
  | cs => (false, cs)

/-- The whole number written by an optional sign and decimal digits. -/
def integer? (cs : List Char) : Option Int :=
  let (negative, digits) := splitSign cs
  (natural? 10 digits).map fun n => if negative then -(n : Int) else n

/-- Read digits, an optional fraction and an optional exponent, all decimal; the digits need not be on both
sides of the point. -/
def Numeral.ofChars? (cs : List Char) : Option Numeral :=
  let (negative, cs) := splitSign cs
  let whole := cs.takeWhile Char.isDigit
  let rest := cs.dropWhile Char.isDigit
  let (fraction, rest) := match rest with
    | '.' :: rest => (rest.takeWhile Char.isDigit, rest.dropWhile Char.isDigit)
    | rest => ([], rest)
  match natural? 10 (whole ++ fraction) with
  | none => none
  | some digits =>
    match rest with
    | [] => some ⟨negative, digits, -(fraction.length : Int)⟩
    | 'e' :: rest | 'E' :: rest =>
      (integer? rest).map fun e => ⟨negative, digits, e - (fraction.length : Int)⟩
    | _ => none

/-- A numeral with its scale cut to a range that does not change the nearest double. -/
def Numeral.clamped (n : Numeral) : Nat × Bool × Nat :=
  let width : Int := ((Nat.toDigits 10 n.digits).length : Nat)
  if n.digits = 0 then (0, false, 0)
  else if n.scale + width > 400 then (1, false, 400)
  else if n.scale + width < -400 then (0, false, 0)
  else (n.digits, n.scale < 0, n.scale.natAbs)

/-- The double nearest to a numeral. -/
def Numeral.toFloat (n : Numeral) : Float :=
  let (digits, below, scale) := n.clamped
  let magnitude := Float.ofScientific digits below scale
  if n.negative then -magnitude else magnitude

/-- The double of the single precision number nearest to a numeral. -/
def Numeral.toSingle (n : Numeral) : Float :=
  let (digits, below, scale) := n.clamped
  let magnitude := (Float32.ofScientific digits below scale).toFloat
  if n.negative then -magnitude else magnitude

/-- Lower-case an ASCII letter. -/
def lowerCase (cs : List Char) : List Char :=
  cs.map Char.toLower

/-- A number read as its numeral, or one of the words for infinity and for no number, in any case. -/
def read? (convert : Numeral → Float) (cs : List Char) : Option Float :=
  let (negative, word) := splitSign cs
  let infinity : Float := 1.0 / 0.0
  match String.ofList (lowerCase word) with
  | "inf" | "infinity" => some (if negative then -infinity else infinity)
  | "nan" => some (0.0 / 0.0)
  | _ => (Numeral.ofChars? cs).map convert

/-- The double that a text writes. -/
def float? (s : String) : Option Float :=
  read? Numeral.toFloat s.toList

/-- The single precision number that a text writes, widened. -/
def single? (s : String) : Option Float :=
  read? Numeral.toSingle s.toList

/-- The double nearest to a whole number. -/
def ofInteger (n : Int) : Float :=
  Numeral.toFloat ⟨n < 0, n.natAbs, 0⟩

end Phrasebook.Decimal
