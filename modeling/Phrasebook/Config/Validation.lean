import Phrasebook.Config.Basic
import Phrasebook.Text.Blank

/-!
# Validation

Names must not be blank or given twice, module names hold no colon (a colon ends the module in a reference
marker), and at least one reference has to be allowed. The first violation is reported.
-/

namespace Phrasebook

/-- What a list of names is for. -/
inductive NameKind where
  | locale
  | moduleId
  deriving DecidableEq, Repr

/-- The word for what a name is for. -/
def NameKind.word : NameKind → String
  | .locale => "locale"
  | .moduleId => "module"

/-- What is wrong with a configuration. -/
inductive Violation where
  | blankName (kind : NameKind)
  | repeatedName (kind : NameKind) (name : String)
  | colonInModule (name : String)
  | noDepth
  deriving DecidableEq, Repr

/-- The wording of a violation. -/
def Violation.message : Violation → String
  | .blankName kind => "empty " ++ kind.word ++ " name"
  | .repeatedName kind name => "duplicate " ++ kind.word ++ " '" ++ name ++ "'"
  | .colonInModule name => "module name '" ++ name ++ "' must not contain ':'"
  | .noDepth => "templates.max_nesting_depth must be at least 1"

namespace Config

/-- Check names from left to right, given those already seen. -/
def checkNames (kind : NameKind) (seen : List String) : List String → Except Violation Unit
  | [] => .ok ()
  | name :: names =>
    if isBlankText name then .error (.blankName kind)
    else if name ∈ seen then .error (.repeatedName kind name)
    else checkNames kind (name :: seen) names

/-- Check that no module name holds a colon. -/
def checkColons (modules : List String) : Except Violation Unit :=
  match modules.find? fun name => ':' ∈ name.toList with
  | some name => .error (.colonInModule name)
  | none => .ok ()

/-- Report the first violation of a configuration. -/
def validate (config : Config) : Except Violation Unit := do
  checkNames .locale [] config.locales
  checkNames .moduleId [] config.modules
  checkColons config.modules
  if config.templates.maxDepth = 0 then .error .noDepth

end Config

end Phrasebook
