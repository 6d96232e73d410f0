import Phrasebook.Config.Basic
import Phrasebook.Files.Path

/-!
# Locations of resource files

The resource of a pair is in `dir/locale/module.extension`.
-/

namespace Phrasebook

/-- The file that holds the resource of a pair. -/
def resourcePath (settings : ResourceSettings) (pair : Pair) : String :=
  Path.join (Path.join settings.dir pair.locale.name)
    (pair.moduleId.name ++ "." ++ settings.format.name)

end Phrasebook
