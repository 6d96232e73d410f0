import Phrasebook.Document.View
import Phrasebook.Json.Reader
import Phrasebook.Resource.Basic

/-!
# Reading JSON as something

What a JSON value is as a resource, and how a configuration is read from it.
-/

namespace Phrasebook.Json

mutual

/-- The resource that a value is: a text, or a record of resources. -/
def Value.resource? : Value → Option Resource
  | .text content => content.map Resource.text
  | .record entries => (resourceEntries? entries).map Resource.ofList
  | _ => none

/-- The entries of a record of resources. -/
def resourceEntries? : List (Option String × Value) → Option (List (String × Resource))
  | [] => some []
  | (none, _) :: _ => none
  | (some name, value) :: rest =>
    match value.resource?, resourceEntries? rest with
    | some resource, some entries => some ((name, resource) :: entries)
    | _, _ => none

end

/-- How deep the tables of a resource file may be nested. -/
def maxResourceDepth : Nat := 127

/-- The resource in a JSON file. -/
def readResource? (text : String) : Option Resource :=
  ((read? text).filter fun value => value.depth ≤ maxResourceDepth).bind Value.resource?

/-- An entry whose name is a text. -/
def textEntry? (entry : Option String × Value) : Option (String × Value) :=
  entry.1.map fun name => (name, entry.2)

/-- How a configuration is read from JSON values. Fields can be written by name or in order. -/
def view : View Value where
  text?
    | .text content => content
    | _ => none
  flag?
    | .flag value => some value
    | _ => none
  natural?
    | .number digits => Decimal.natural? 10 digits.toList
    | _ => none
  items?
    | .list items => some items
    | _ => none
  fields? names
    | .record entries =>
      (entries.mapM textEntry?).bind (View.namedFields? names)
    | .list items => if items.length ≤ names.length then some (View.orderedFields names items) else none
    | _ => none
  optional?
    | .null => some none
    | value => some (some value)
  choice?
    | .text content => content
    | .record [(name, .null)] => name
    | _ => none

end Phrasebook.Json
