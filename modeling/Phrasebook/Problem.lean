import Phrasebook.Key
import Phrasebook.Name
import Phrasebook.Text.Quoted

/-!
# Problems

What can go wrong between a key and its text, and how each problem is worded.
-/

namespace Phrasebook

/-- Why a text is no template. -/
inductive TemplateFault where
  /-- The text has attributes only. -/
  | noValue
  /-- An engine of the caller turned it down. -/
  | rejected (reason : String)
  /-- The text does not follow the grammar of the engine. -/
  | malformed
  deriving DecidableEq, Repr

/-- The wording of a template fault. -/
def TemplateFault.message : TemplateFault → String
  | .noValue => "template has no value"
  | .rejected reason => reason
  | .malformed => "malformed pattern"

/-- A reason why there is no text for a key in one locale, or why a resource is empty. -/
inductive Problem where
  /-- The resource of a pair could not be loaded. -/
  | loadFailure (pair : Pair) (reason : String)
  /-- Nothing stands at the key. -/
  | keyMissing (pair : Pair) (key : Key)
  /-- A table stands at the key. -/
  | keyPartial (pair : Pair) (key : Key)
  /-- Following references went deeper than allowed; the chain names what was followed. -/
  | cyclicReference (locale : Locale) (chain : List String)
  /-- The text is no template. -/
  | parse (key : Key) (fault : TemplateFault)
  /-- The template reported faults when it was applied. -/
  | format (key : Key) (faults : List String)
  /-- The locale is no language tag. -/
  | invalidLocale (locale : Locale)
  deriving DecidableEq, Repr

/-- The wording of a problem. -/
def Problem.message : Problem → String
  | .loadFailure pair reason =>
    "Failed to load resource " ++ pair.locale.name ++ "/" ++ pair.moduleId.name ++ ": " ++ reason
  | .keyMissing pair key =>
    "Missing key " ++ pair.moduleId.name ++ ":" ++ Key.dotted key ++ " for locale " ++ pair.locale.name
  | .keyPartial pair key =>
    "Key " ++ pair.moduleId.name ++ ":" ++ Key.dotted key ++ " for locale " ++ pair.locale.name
      ++ " is not a leaf"
  | .cyclicReference locale chain =>
    "Nested reference chain too deep for locale " ++ locale.name ++ ": " ++ joinTexts " -> " chain
  | .parse key fault => "Failed to parse template " ++ Key.dotted key ++ ": " ++ fault.message
  | .format key faults =>
    "Failed to format template " ++ Key.dotted key ++ ": " ++ Quoted.texts faults
  | .invalidLocale locale => "Invalid language identifier: " ++ locale.name

end Phrasebook
