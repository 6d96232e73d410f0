import Phrasebook.Config.Reading
import Phrasebook.Json.Reading
import Phrasebook.Toml.Reading
import Phrasebook.Yaml.Reading

/-!
# Reading documents

Resources and configurations in any of the formats.
-/

namespace Phrasebook.Format

/-- The resource that a text holds. -/
def readResource? (format : Format) (text : String) : Option Resource :=
  match format with
  | .json => Json.readResource? text
  | .yaml => Yaml.readResource? text
  | .toml => Toml.readResource? text

/-- The configuration that a text holds. -/
def readConfig? (format : Format) (text : String) : Option Config :=
  match format with
  | .json => (Json.read? text).bind (Config.ofView? Json.view)
  | .yaml => (Yaml.read? text).bind fun document => Config.ofView? (Yaml.view document) document.root
  | .toml => (Toml.read? text).bind fun root => Config.ofView? Toml.view (.table .header root)

end Phrasebook.Format
