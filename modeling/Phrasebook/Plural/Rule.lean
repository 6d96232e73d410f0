import Phrasebook.Decimal.Positional

/-!
# Plural rules

A plural rule sorts numbers into categories by the digits with which they are written. A rule is a list of
categories with conditions; a condition is a disjunction of conjunctions of relations.
-/

namespace Phrasebook.Plural

/-- The categories that plural forms are made for. -/
inductive Category where
  | zero
  | one
  | two
  | few
  | many
  | other
  deriving DecidableEq, Repr

/-- The category with the given name. -/
def Category.ofName? (name : String) : Option Category :=
  [("zero", .zero), ("one", .one), ("two", .two), ("few", .few), ("many", .many),
    ("other", .other)].lookup name

/-- What a rule sees of a number. -/
structure Operands where
  /-- The digits before the point. -/
  whole : Nat
  /-- The number of digits after the point. -/
  places : Nat
  /-- The digits after the point. -/
  fraction : Nat
  /-- The digits after the point without trailing zeros. -/
  stripped : Nat
  /-- Whether the number is the whole number that its digits before the point say. -/
  isWhole : Bool
  deriving DecidableEq, Repr

/-- Whole numbers are machine words. -/
def maxWhole : Nat := UInt64.size - 1

/-- The operands of a number that is written with at least so many places. -/
def Operands.ofFloat (x : Float) (minPlaces : Option Nat) : Operands :=
  let written : Operands :=
    if x.isNaN then ⟨0, 0, 0, 0, false⟩
    else if x.isInf then ⟨maxWhole, 0, 0, 0, true⟩
    else
      let digits := Decimal.shortest x
      let power := Nat.pow 10 (-digits.exponent).toNat
      let whole := if 0 ≤ digits.exponent then digits.digits * Nat.pow 10 digits.exponent.toNat
        else digits.digits / power
      let fraction := digits.digits % power
      let places := if 0 ≤ digits.exponent then 0 else (-digits.exponent).toNat
      ⟨min whole maxWhole, places, fraction, fraction, fraction = 0⟩
  match minPlaces with
  | some places =>
    if written.places < places then
      { written with
        places
        fraction := written.fraction * Nat.pow 10 (places - written.places) % UInt64.size }
    else written
  | none => written

/-- The operands that relations are about: the number itself, its whole part, the number of places, and
the fraction with and without trailing zeros. -/
inductive Operand where
  | n
  | i
  | v
  | f
  | t
  deriving DecidableEq, Repr

/-- A relation between an operand, taken modulo a number if one is given, and ranges of values. -/
structure Relation where
  operand : Operand
  modulus : Option Nat
  ranges : List (Nat × Nat)
  negated : Bool := false
  deriving DecidableEq, Repr

/-- Whether the operand has a value in a range. The number itself equals a single value only if it is
whole; taken modulo a number, or compared with a longer range, its whole part counts, and then a longer
range is compared without the modulus. -/
def Relation.within (relation : Relation) (operands : Operands) (range : Nat × Nat) : Bool :=
  let reduce (value : Nat) : Nat :=
    match relation.modulus with
    | some modulus => value % modulus
    | none => value
  let inside (value : Nat) : Bool := range.1 ≤ value && value ≤ range.2
  match relation.operand with
  | .n =>
    if range.1 = range.2 then
      match relation.modulus with
      | some modulus => operands.whole % modulus = range.1
      | none => operands.isWhole && operands.whole = range.1
    else inside operands.whole
  | .i => inside (reduce operands.whole)
  | .v => inside (reduce operands.places)
  | .f => inside (reduce operands.fraction)
  | .t => inside (reduce operands.stripped)

/-- Whether a relation holds. -/
def Relation.holds (relation : Relation) (operands : Operands) : Bool :=
  (relation.ranges.any (relation.within operands)) != relation.negated

/-- Alternatives, each of them relations that hold together. -/
abbrev Condition := List (List Relation)

/-- Whether a condition holds. -/
def Condition.holds (condition : Condition) (operands : Operands) : Bool :=
  condition.any fun relations => relations.all (Relation.holds · operands)

/-- Categories with their conditions; the first condition that holds counts. -/
abbrev Rule := List (Category × Condition)

/-- The category of a number. -/
def Rule.category (rule : Rule) (operands : Operands) : Category :=
  match rule.find? fun entry => Condition.holds entry.2 operands with
  | some entry => entry.1
  | none => .other

end Phrasebook.Plural
