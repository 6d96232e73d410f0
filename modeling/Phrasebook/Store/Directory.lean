import Phrasebook.Document.Reading
import Phrasebook.Files.Location
import Phrasebook.Files.Tree
import Phrasebook.Store.Loader

/-!
# Resource directories

A loader that reads the resource of a pair from its file.
-/

namespace Phrasebook

/-- The resource of a pair, read from its file. -/
def loadFile (settings : ResourceSettings) (files : FileTree) (pair : Pair) :
    Except LoadFault Resource :=
  let path := resourcePath settings pair
  match files.readText path with
  | .error fault => .error ⟨["failed to read " ++ path, fault.message]⟩
  | .ok text =>
    match settings.format.readResource? text with
    | some resource => .ok resource
    | none => .error ⟨["failed to parse " ++ path]⟩

/-- Resources in files, which take the given time to be read. -/
def Loader.ofDirectory (settings : ResourceSettings) (files : FileTree) (delay : Nat) : Loader where
  load := loadFile settings files
  delay := fun _ => delay
  opens pair := some (resourcePath settings pair)

end Phrasebook
