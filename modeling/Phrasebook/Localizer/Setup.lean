import Phrasebook.Config.Basic
import Phrasebook.Fluent.Engine
import Phrasebook.Localizer.Basic
import Phrasebook.Store.Directory
import Phrasebook.Template.Placeholder

/-!
# Setting a localizer up

A localizer can be made from a configuration, which need not be valid.
-/

namespace Phrasebook

/-- The engine that a configuration chooses. -/
def EngineChoice.engine : EngineChoice → Engine
  | .interpolate => Engine.interpolation
  | .fluent => Fluent.engine

namespace Localizer

/-- The localizer of a configuration: its modules and locales are set, in this order, and resources are read
from files, without waiting unless loads run in the background. -/
def ofConfig (config : Config) (files : FileTree) (background : Bool) :
    Localizer String × List Event :=
  let loader := Loader.ofDirectory config.resources files (if background then 1 else 0)
  let localizer : Localizer String :=
    { store := { loader, background }
      engine := config.templates.engine.engine
      maxDepth := config.templates.maxDepth
      fallback := Markup.concatenate }
  let (localizer, moduleEvents) := localizer.setModules config.moduleIds
  let (localizer, localeEvents) := localizer.setLocales config.localeIds
  (localizer, moduleEvents ++ localeEvents ++ [.configured config.locales config.modules])

end Localizer

end Phrasebook
