import Phrasebook.Entries
import Phrasebook.Toml.Moment

/-!
# TOML values and tables

A table can be made in several ways, which decide how it may be extended later: a table in braces is closed,
a table with a header gets no second header, and dotted keys only extend tables that dotted keys made.
-/

namespace Phrasebook.Toml

/-- How a table came about. -/
inductive Origin where
  /-- Written in braces. -/
  | braces
  /-- Written under a header, as is the root. -/
  | header
  /-- Named on the way to the table of a header. -/
  | implied
  /-- Named on the way of a dotted key. -/
  | dotted
  deriving DecidableEq, Repr

/-- A TOML value. -/
inductive Value where
  | text (content : String)
  | flag (value : Bool)
  | integer (value : Int)
  | float
  | moment (moment : Moment)
  | list (items : List Value)
  | table (origin : Origin) (entries : List (String × Value))
  /-- Tables with the same header; the last one is still open. -/
  | tables (earlier : List (List (String × Value))) (last : List (String × Value))
  deriving Repr

/-- The entries of a table. -/
abbrev Table := List (String × Value)

namespace Table

/-- Change the table that a path leads to. Tables on the way that are missing are made with the given
origin, and dotted keys do not lead through tables with a header. -/
def changeAt? (made : Origin) (change : Origin → Table → Option Table) :
    List String → Origin → Table → Option Table
  | [], origin, table => change origin table
  | name :: path, _, table =>
    match table.lookup name with
    | none => (changeAt? made change path made []).map fun inner => Entries.put name (.table made inner) table
    | some (.table origin inner) =>
      if origin = .braces || (made = .dotted && origin = .header) then none
      else
        (changeAt? made change path origin inner).map fun inner =>
          Entries.put name (.table origin inner) table
    | some (.tables earlier last) =>
      (changeAt? made change path .header last).map fun last => Entries.put name (.tables earlier last) table
    | some _ => none

/-- Set the value of a new key. -/
def add? (name : String) (value : Value) (table : Table) : Option Table :=
  if (table.lookup name).isSome then none else some (Entries.put name value table)

/-- Set the value that a dotted key leads to. Unless the key is a single name, the table that gets the value
has to be made by dotted keys, though tables on the way may be implied by a header. -/
def addAt? (path : List String) (name : String) (value : Value) (origin : Origin) (table : Table) :
    Option Table :=
  changeAt? .dotted
    (fun reached inner => if path ≠ [] && reached ≠ .dotted then none else add? name value inner)
    path origin table

/-- Begin the table of a header. Its name is new or was only implied. -/
def begin? (path : List String) (name : String) (root : Table) : Option Table :=
  changeAt? .implied
    (fun _ parent =>
      match parent.lookup name with
      | none => some (Entries.put name (.table .header []) parent)
      | some (.table .implied inner) => some (Entries.put name (.table .header inner) parent)
      | some _ => none)
    path .header root

/-- Begin another table of the header that several tables share. -/
def beginAnother? (path : List String) (name : String) (root : Table) : Option Table :=
  changeAt? .implied
    (fun _ parent =>
      match parent.lookup name with
      | none => some (Entries.put name (.tables [] []) parent)
      | some (.tables earlier last) => some (Entries.put name (.tables (earlier ++ [last]) []) parent)
      | some _ => none)
    path .header root

end Table

end Phrasebook.Toml
