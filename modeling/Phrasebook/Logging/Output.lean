import Phrasebook.Config.Basic
import Phrasebook.Files.Tree

/-!
# Log output

How log lines are written, and what happens when logging is set up: a log file is opened first, and there
can be only one receiver of log lines.
-/

namespace Phrasebook

/-- How and where log lines are written. -/
structure LogOutput where
  /-- The filter of the lines that are written. -/
  level : String := "info"
  jsonLines : Bool := false
  colored : Bool := false
  file : Option String := none
  spans : Bool := false
  targets : Bool := true
  deriving DecidableEq, Repr, Inhabited

/-- The output that the settings of a configuration ask for. -/
def LogOutput.ofSettings (settings : LogSettings) : LogOutput :=
  { level := settings.level, jsonLines := settings.json, file := settings.file }

/-- Why logging could not be set up. -/
inductive LogFault where
  | file (fault : FileFault)
  | alreadySet
  deriving DecidableEq, Repr

/-- The wording of a log fault. -/
def LogFault.message : LogFault → String
  | .file fault => fault.message
  | .alreadySet => "a global default trace dispatcher has already been set"

/-- Set logging up: the files afterwards, and a fault if there is one. -/
def LogOutput.install (output : LogOutput) (files : FileTree) (receiverSet : Bool) :
    FileTree × Except LogFault Unit :=
  let receiver : Except LogFault Unit := if receiverSet then .error .alreadySet else .ok ()
  match output.file with
  | none => (files, receiver)
  | some path =>
    match files.openAppend path with
    | .ok files => (files, receiver)
    | .error fault => (files, .error (.file fault))

end Phrasebook
