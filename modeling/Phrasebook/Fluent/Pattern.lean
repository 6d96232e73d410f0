/-!
# Fluent patterns

A pattern is text with placeables in it. A placeable holds an expression: something to insert, or a
selection among variants, which are patterns again.
-/

namespace Phrasebook.Fluent

/-- What a variant is chosen by. -/
inductive VariantKey where
  | name (text : String)
  | number (digits : String)
  deriving DecidableEq, Repr

mutual

/-- A part of a pattern. -/
inductive Element where
  | text (content : String)
  | placeable (expression : Expression)

/-- What stands between the braces of a placeable. -/
inductive Expression where
  | inline (operand : Operand)
  | select (selector : Operand) (variants : List Variant)

/-- Something that has a value. -/
inductive Operand where
  /-- A quoted text with its escapes as written. -/
  | string (content : String)
  | number (digits : String)
  | variable (name : String)
  /-- A message, or one of its attributes. -/
  | message (name : String) (part : Option String)
  /-- A term, or one of its attributes, with the arguments passed to it. -/
  | term (name : String) (part : Option String) (positional : List Operand) (named : List NamedOperand)
  | function (name : String) (positional : List Operand) (named : List NamedOperand)
  | placeable (expression : Expression)

/-- An argument with a name. -/
inductive NamedOperand where
  | mk (name : String) (operand : Operand)

/-- One of the patterns of a selection. -/
inductive Variant where
  | mk (key : VariantKey) (value : List Element) (isDefault : Bool)

end

/-- Text with placeables. -/
abbrev Pattern := List Element

deriving instance BEq, Repr for Element, Expression, Operand, NamedOperand, Variant

/-- A message: its own pattern, if it has one, and the patterns of its attributes. -/
structure Message where
  value : Option Pattern
  attributes : List (String × Pattern)

end Phrasebook.Fluent
