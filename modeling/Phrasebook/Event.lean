import Phrasebook.Problem
import Phrasebook.Resource.Basic
import Phrasebook.Store.Selection

/-!
# Events

What can be observed while the library works: the calls it makes on behalf of its user and the lines it
logs, in the order in which they happen.
-/

namespace Phrasebook

/-- One observable step. -/
inductive Event where
  /-- A load was scheduled for a pair that was not requested before. -/
  | scheduled (pair : Pair)
  /-- The notify hook built the access notifier of a pair. -/
  | hooked (pair : Pair)
  /-- A resource file is about to be read. -/
  | opening (path : String)
  /-- The loader asked its table for a pair. -/
  | asked (pair : Pair)
  /-- The resource of a pair was loaded. -/
  | loaded (pair : Pair)
  /-- The resource of a pair could not be loaded. -/
  | loadFailed (problem : Problem)
  /-- A handler was called with a selection. -/
  | delivered (label : String) (selection : Selection)
  /-- A handler unsubscribed a subscription; the flag says whether it was registered. -/
  | unsubscribed (label : String) (registered : Bool)
  /-- A notifier was told that a key was read, and what stood there. -/
  | accessed (pair : Pair) (key : Key) (found : Option Resource)
  /-- A reference marker is being followed to a module of the locale. -/
  | expanding (locale : Locale) (target : ModuleId) (inner : String)
  /-- A template is being compiled from its expanded text. -/
  | compiling (pair : Pair) (key : Key) (raw : String)
  /-- A translation failed and the next locale is tried. -/
  | fellThrough (pair : Pair) (problem : Problem)
  /-- A localizer was set up from a configuration. -/
  | configured (locales modules : List String)
  deriving DecidableEq, Repr

end Phrasebook
