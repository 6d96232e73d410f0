/-!
# Views of documents

A configuration can be written in several formats. A view says what the nodes of one format can be read
as, so that the configuration is read in one way from all of them.
-/

namespace Phrasebook

/-- What the nodes of a document format can be read as. -/
structure View (ν : Type) where
  text? : ν → Option String
  flag? : ν → Option Bool
  natural? : ν → Option Nat
  items? : ν → Option (List ν)
  /-- The values of the named fields, in any order; a field that is not there is left out. -/
  fields? : List String → ν → Option (List (String × ν))
  /-- The node itself, or nothing where it stands for nothing. -/
  optional? : ν → Option (Option ν)
  /-- The name of one of several alternatives. -/
  choice? : ν → Option String

namespace View

variable {ν α : Type}

/-- The value of a field, or its default where the field is left out. -/
def field (fields : List (String × ν)) (name : String) (default : α) (read : ν → Option α) : Option α :=
  match fields.lookup name with
  | none => some default
  | some node => read node

/-- A list of texts. -/
def texts? (view : View ν) (node : ν) : Option (List String) :=
  (view.items? node).bind fun items => items.mapM view.text?

/-- The values of fields that are written by name: each known field at most once, others ignored. -/
def namedFields? (names : List String) (entries : List (String × ν)) : Option (List (String × ν)) :=
  let known := entries.filter fun entry => entry.1 ∈ names
  if (known.map Prod.fst).Nodup then some known else none

/-- The values of fields that are written in order. -/
def orderedFields (names : List String) (items : List ν) : List (String × ν) :=
  names.zip items

end View

end Phrasebook
