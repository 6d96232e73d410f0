import Phrasebook.Event

/-!
# Log lines

The line that an event writes to the log, if it writes one: a level, a message and named fields.
-/

namespace Phrasebook

/-- How important a log line is. -/
inductive Level where
  | error
  | warn
  | info
  | debug
  | trace
  deriving DecidableEq, Repr

namespace Level

/-- The name of a level. -/
def name : Level → String
  | .error => "error"
  | .warn => "warn"
  | .info => "info"
  | .debug => "debug"
  | .trace => "trace"

/-- The place of a level, from the most important one on. -/
def rank : Level → Nat
  | .error => 1
  | .warn => 2
  | .info => 3
  | .debug => 4
  | .trace => 5

/-- All levels, the most important one first. -/
def all : List Level := [.error, .warn, .info, .debug, .trace]

end Level

/-- A line of the log. -/
structure LogLine where
  level : Level
  message : String
  fields : List (String × String) := []
  deriving DecidableEq, Repr

namespace Event

/-- The fields that name a pair. -/
def pairFields (pair : Pair) : List (String × String) :=
  [("locale", pair.locale.name), ("module", pair.moduleId.name)]

/-- The log line of an event. Calls of hooks, notifiers and handlers write none. -/
def logLine? : Event → Option LogLine
  | .scheduled pair => some ⟨.debug, "Scheduling resource load", pairFields pair⟩
  | .opening path => some ⟨.debug, "Loading resource file: " ++ Quoted.path path, []⟩
  | .loaded pair => some ⟨.info, "Loaded resource", pairFields pair⟩
  | .loadFailed problem => some ⟨.error, problem.message, []⟩
  | .expanding locale target inner =>
    some ⟨.trace, "Expanding nested reference",
      [("locale", locale.name), ("target", target.name), ("key", inner)]⟩
  | .compiling pair key _ =>
    some ⟨.debug, "Compiling template", pairFields pair ++ [("key", Key.dotted key)]⟩
  | .fellThrough pair problem =>
    some ⟨.warn, "Translation failed, trying next locale: " ++ problem.message, pairFields pair⟩
  | .configured locales modules =>
    some ⟨.info, "Localizer initialized from configuration",
      [("locales", Quoted.texts locales), ("modules", Quoted.texts modules)]⟩
  | .hooked _ | .asked _ | .delivered .. | .unsubscribed .. | .accessed .. => none

end Event

end Phrasebook
