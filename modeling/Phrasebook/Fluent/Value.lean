import Phrasebook.Args
import Phrasebook.Decimal.Numeral
import Phrasebook.Fluent.Pattern
import Phrasebook.Plural.Rule

/-!
# Fluent values

What operands stand for, how a value is written, and which variant it selects.
-/

namespace Phrasebook.Fluent

/-- The value of an operand. A number written in a pattern is shown with at least the places it is written
with. -/
inductive Value where
  | text (content : String)
  | number (value : Float) (minPlaces : Option Nat)
  /-- There is no value. -/
  | missing
  deriving Repr

/-- The value of an argument. -/
def Value.ofArg : Arg → Value
  | .text content => .text content
  | .number value => .number value none

/-- The value of a number that is written in a pattern. -/
def Value.ofDigits (digits : String) : Value :=
  match Decimal.float? digits with
  | some value =>
    let places := match digits.toList.dropWhile (· ≠ '.') with
      | [] => none
      | _ :: places => some places.length
    .number value places
  | none => .text digits

/-- The text of a value. -/
def Value.display : Value → String
  | .text content => content
  | .number value minPlaces =>
    let digits := (Decimal.display value).toList
    match minPlaces with
    | none => String.ofList digits
    | some places =>
      match digits.dropWhile (· ≠ '.') with
      | [] => String.ofList (digits ++ '.' :: List.replicate places '0')
      | _ :: written => String.ofList (digits ++ List.replicate (places - written.length) '0')
  | .missing => ""

/-- The value that a variant is chosen by. -/
def VariantKey.value : VariantKey → Value
  | .name text => .text text
  | .number digits => .ofDigits digits

/-- Whether a variant's value meets the selector: equal texts, equal numbers written with the same places,
or the plural category of a number. -/
def Value.meets (rule : Plural.Rule) : Value → Value → Bool
  | .text key, .text selector => key = selector
  | .number key keyPlaces, .number selector places => key == selector && keyPlaces = places
  | .text key, .number selector places =>
    match Plural.Category.ofName? key with
    | some category => rule.category (Plural.Operands.ofFloat selector places) = category
    | none => false
  | _, _ => false

/-- The character that an escape names; an unknown code point becomes the replacement character. -/
def codePoint (digits : List Char) : Char :=
  match Decimal.natural? 16 digits with
  | some code => if code.isValidChar then Char.ofNat code else Char.ofNat 0xFFFD
  | none => Char.ofNat 0xFFFD

/-- The text that a quoted text stands for. -/
def unescape : List Char → List Char
  | [] => []
  | '\\' :: 'u' :: a :: b :: c :: d :: cs => codePoint [a, b, c, d] :: unescape cs
  | '\\' :: 'U' :: a :: b :: c :: d :: e :: f :: cs => codePoint [a, b, c, d, e, f] :: unescape cs
  | '\\' :: c :: cs => c :: unescape cs
  | c :: cs => c :: unescape cs

end Phrasebook.Fluent
