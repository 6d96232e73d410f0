import Phrasebook.Document.View
import Phrasebook.Resource.Basic
import Phrasebook.Toml.Reader

/-!
# Reading TOML as something

What a TOML value is as a resource, and how a configuration is read from it.
-/

namespace Phrasebook.Toml

/-- The name under which a moment is a table. -/
def momentKey : String := "$__toml_private_datetime"

/-- The table that a moment is. -/
def Moment.entries (moment : Moment) : Table :=
  [(momentKey, .text (String.ofList moment.text))]

mutual

/-- The resource that a value is: a text, or a table of resources. -/
def Value.resource? : Value → Option Resource
  | .text content => some (.text content)
  | .moment moment => some (.table [(momentKey, .text (String.ofList moment.text))])
  | .table _ entries => (resourceEntries? entries).map Resource.ofList
  | _ => none

/-- The entries of a table of resources. -/
def resourceEntries? : List (String × Value) → Option (List (String × Resource))
  | [] => some []
  | (name, value) :: rest =>
    match value.resource?, resourceEntries? rest with
    | some resource, some entries => some ((name, resource) :: entries)
    | _, _ => none

end

/-- The resource in a TOML file. -/
def readResource? (text : String) : Option Resource :=
  (read? text).bind fun root => (Value.table .header root).resource?

/-- The items of a list, or of tables with the same header. -/
def Value.items? : Value → Option (List Value)
  | .list items => some items
  | .tables earlier last => some ((earlier ++ [last]).map (Value.table .header))
  | _ => none

/-- Whether a value holds nothing that would belong to a chosen alternative. -/
def Value.isEmpty : Value → Bool
  | .list [] | .table _ [] => true
  | _ => false

/-- How a configuration is read from TOML values. Fields can be written by name or in order; further items
are ignored. -/
def view : View Value where
  text?
    | .text content => some content
    | _ => none
  flag?
    | .flag value => some value
    | _ => none
  natural?
    | .integer value => if 0 ≤ value then some value.toNat else none
    | _ => none
  items? := Value.items?
  fields? names
    | .table _ entries => View.namedFields? names entries
    | .moment moment => View.namedFields? names moment.entries
    | value => value.items?.map (View.orderedFields names)
  optional? value := some (some value)
  choice?
    | .text content => some content
    | .table _ [(name, value)] => if value.isEmpty then some name else none
    | _ => none

end Phrasebook.Toml
