import Phrasebook.Key
import Phrasebook.Name

/-!
# Reference targets

The inner text of a marker names a key, and before it, behind a colon, possibly a module.
-/

namespace Phrasebook

/-- What a marker refers to; without a module it is a key of the module that holds the marker. -/
structure Target where
  moduleId : Option ModuleId
  key : Key
  deriving DecidableEq, Repr

/-- Read an inner text: of the pieces between colons the last is the key and the one before it the module;
earlier pieces are ignored. -/
def Target.ofInner (inner : List Char) : Target :=
  match (pieces ':' inner).reverse with
  | [] => ⟨none, []⟩
  | [key] => ⟨none, Key.split (String.ofList key)⟩
  | key :: moduleId :: _ => ⟨some ⟨String.ofList moduleId⟩, Key.split (String.ofList key)⟩

/-- The key of a module as error chains write it. -/
def addressLabel (moduleId : ModuleId) (key : Key) : String :=
  moduleId.name ++ ":" ++ Key.dotted key

end Phrasebook
