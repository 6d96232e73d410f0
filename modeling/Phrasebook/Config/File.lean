import Phrasebook.Config.Validation
import Phrasebook.Document.Reading
import Phrasebook.Files.Path
import Phrasebook.Files.Tree

/-!
# Configuration files

A configuration file is read in the format that its extension names, and only a valid configuration is
given. Main statement: a text gives a configuration exactly if it holds it and it is valid (`parse_eq_ok`).
-/

namespace Phrasebook

/-- Why there is no configuration. -/
inductive ConfigFault where
  | unsupported (path : String)
  | unreadable (path : String) (fault : FileFault)
  | malformed (format : Format)
  | invalid (violation : Violation)
  deriving DecidableEq, Repr

/-- The wording of a configuration fault. -/
def ConfigFault.message : ConfigFault → String
  | .unsupported path => "Unsupported configuration format: " ++ path
  | .unreadable path fault => "Failed to read configuration file " ++ path ++ ": " ++ fault.message
  | .malformed format => "Failed to parse " ++ format.name ++ " configuration"
  | .invalid violation => "Invalid configuration: " ++ violation.message

namespace Config

/-- The configuration, if it is valid. -/
def checked (config : Config) : Except ConfigFault Config :=
  match config.validate with
  | .ok _ => .ok config
  | .error violation => .error (.invalid violation)

/-- Read a configuration from a text and check it. -/
def parse (format : Format) (text : String) : Except ConfigFault Config :=
  match format.readConfig? text with
  | none => .error (.malformed format)
  | some config => config.checked

/-- Read a configuration from a file and check it. -/
def load (files : FileTree) (path : String) : Except ConfigFault Config :=
  match (Path.extension? path).bind Format.ofExtension? with
  | none => .error (.unsupported path)
  | some format =>
    match files.readText path with
    | .error fault => .error (.unreadable path fault)
    | .ok text => parse format text

/-- Exactly the valid configurations pass the check, unchanged. -/
theorem checked_eq_ok {config result : Config} :
    config.checked = .ok result ↔ config.validate = .ok () ∧ config = result := by
  unfold checked
  split
  · rename_i valid
    simp [valid]
  · rename_i violation invalid
    simp [invalid]

/-- A text gives a configuration exactly if it holds that configuration and it is valid. -/
theorem parse_eq_ok {format : Format} {text : String} {result : Config} :
    parse format text = .ok result ↔
      format.readConfig? text = some result ∧ result.validate = .ok () := by
  unfold parse
  split
  · rename_i unread
    simp [unread]
  · rename_i config held
    rw [checked_eq_ok, held, Option.some.injEq]
    constructor
    · rintro ⟨valid, rfl⟩
      exact ⟨rfl, valid⟩
    · rintro ⟨rfl, valid⟩
      exact ⟨valid, rfl⟩

end Config

end Phrasebook
