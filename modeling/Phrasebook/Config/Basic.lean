import Phrasebook.Name

/-!
# Configuration

The settings of a localizer and their defaults.
-/

namespace Phrasebook

/-- The format of a document. -/
inductive Format where
  | json
  | yaml
  | toml
  deriving DecidableEq, Repr, Inhabited

namespace Format

/-- The name of a format, which is also the extension of its files. -/
def name : Format → String
  | .json => "json"
  | .yaml => "yaml"
  | .toml => "toml"

/-- The format with the given name. -/
def ofName? (name : String) : Option Format :=
  [Format.json, Format.yaml, Format.toml].find? fun format => format.name = name

/-- The format of files with an extension, in upper or lower case. -/
def ofExtension? (extension : String) : Option Format :=
  let lower := String.ofList (extension.toList.map Char.toLower)
  if lower = "yml" then some .yaml else ofName? lower

end Format

/-- Which engine compiles the texts. -/
inductive EngineChoice where
  | interpolate
  | fluent
  deriving DecidableEq, Repr, Inhabited

namespace EngineChoice

/-- The name of an engine. -/
def name : EngineChoice → String
  | .interpolate => "interpolate"
  | .fluent => "fluent"

/-- The engine with the given name. -/
def ofName? (name : String) : Option EngineChoice :=
  [EngineChoice.interpolate, EngineChoice.fluent].find? fun choice => choice.name = name

end EngineChoice

/-- How many references may follow one another unless configured. -/
def defaultMaxDepth : Nat := 32

/-- Where resource files are. -/
structure ResourceSettings where
  dir : String := "locales"
  format : Format := .json
  deriving DecidableEq, Repr, Inhabited

/-- How texts become templates. -/
structure TemplateSettings where
  engine : EngineChoice := .interpolate
  maxDepth : Nat := defaultMaxDepth
  deriving DecidableEq, Repr, Inhabited

/-- What is logged and where. -/
structure LogSettings where
  level : String := "info"
  json : Bool := false
  file : Option String := none
  deriving DecidableEq, Repr, Inhabited

/-- The settings of a localizer. -/
structure Config where
  locales : List String := []
  modules : List String := []
  resources : ResourceSettings := {}
  templates : TemplateSettings := {}
  logging : LogSettings := {}
  deriving DecidableEq, Repr, Inhabited

namespace Config

/-- The configured locales. -/
def localeIds (config : Config) : List Locale := config.locales.map Locale.mk

/-- The configured modules. -/
def moduleIds (config : Config) : List ModuleId := config.modules.map ModuleId.mk

end Config

end Phrasebook
