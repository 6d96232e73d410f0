import Phrasebook.Decimal.Positional
import Phrasebook.Entries

/-!
# Arguments

The named values that a translation is formatted with.
-/

namespace Phrasebook

/-- A value passed to a template. -/
inductive Arg where
  | text (content : String)
  | number (value : Float)
  deriving Repr, BEq, Inhabited

/-- The text that stands for the value where it is inserted. -/
def Arg.display : Arg → String
  | .text content => content
  | .number value => Decimal.display value

/-- Named values, ordered by name. -/
structure Args where
  entries : Entries Arg := []
  deriving Repr, BEq, Inhabited

namespace Args

/-- Set an argument, replacing any earlier value. -/
def set (args : Args) (name : String) (value : Arg) : Args :=
  ⟨args.entries.put name value⟩

/-- The value of an argument. -/
def get? (args : Args) (name : String) : Option Arg :=
  args.entries.lookup name

/-- Arguments set one after another. -/
def ofList (pairs : List (String × Arg)) : Args :=
  pairs.foldl (fun args pair => args.set pair.1 pair.2) {}

/-- Setting an argument changes that argument and no other. -/
@[simp] theorem get?_set (args : Args) (name n : String) (value : Arg) :
    (args.set name value).get? n = if n = name then some value else args.get? n :=
  Entries.lookup_put name n value args.entries

end Args

end Phrasebook
