import Phrasebook.Decimal.Numeral

/-!
# Words that plain YAML scalars are not texts by

A plain scalar is a text unless it is empty or spells the null value, a truth value or a number.
-/

namespace Phrasebook.Yaml

/-- Whether a text spells the null value. -/
def isNullWord (text : String) : Bool :=
  text ∈ ["null", "Null", "NULL", "~"]

/-- The truth value that a text spells. -/
def flagWord? (text : String) : Option Bool :=
  if text ∈ ["true", "True", "TRUE"] then some true
  else if text ∈ ["false", "False", "FALSE"] then some false
  else none

/-- Whether digits with an optional sign begin with a zero that is not the only digit: no number is written
so. -/
def isZeroPadded (cs : List Char) : Bool :=
  match (Decimal.splitSign cs).2 with
  | '0' :: d :: ds => (d :: ds).all Char.isDigit
  | _ => false

/-- The whole number that digits spell, after a mark for their radix unless it is ten. -/
def magnitude? (cs : List Char) : Option Nat :=
  match cs with
  | '0' :: 'x' :: ds => Decimal.natural? 16 ds
  | '0' :: 'o' :: ds => Decimal.natural? 8 ds
  | '0' :: 'b' :: ds => Decimal.natural? 2 ds
  | _ => if isZeroPadded cs then none else Decimal.natural? 10 cs

/-- The natural number that a text spells. -/
def natural? (text : String) : Option Nat :=
  match text.toList with
  | '+' :: cs => magnitude? cs
  | cs => magnitude? cs

/-- Whether a text spells a whole number of at most 128 bits. -/
def isInteger (text : String) : Bool :=
  match text.toList with
  | '-' :: cs => (magnitude? cs).any (· ≤ Nat.pow 2 127)
  | _ => (natural? text).any (· < Nat.pow 2 128)

/-- Whether a text spells a number with a point: a finite one, or a word for infinity or no number. -/
def isFloat (text : String) : Bool :=
  let cs := text.toList
  let infinities : List String := [".inf", ".Inf", ".INF"]
  text ∈ infinities || text ∈ infinities.map ("+" ++ ·) || text ∈ infinities.map ("-" ++ ·) ||
    text ∈ [".nan", ".NaN", ".NAN"] ||
    (!isZeroPadded cs && (Decimal.Numeral.ofChars? cs).any fun n => n.toFloat.isFinite)

/-- Whether a plain scalar is a text. -/
def isTextWord (text : String) : Bool :=
  !(text.isEmpty || isNullWord text || (flagWord? text).isSome || isInteger text || isFloat text)

end Phrasebook.Yaml
