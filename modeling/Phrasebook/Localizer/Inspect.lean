import Phrasebook.Localizer.Basic
import Phrasebook.Text.Quoted

/-!
# Inspection

A short account of the state of a localizer and of its parts, for diagnostics.
-/

namespace Phrasebook

/-- An account with named fields; `more` tells that there are fields that are not shown. -/
def account (name : String) (fields : List (String × String)) (more : Bool) : String :=
  let shown := fields.map fun (field, value) => field ++ ": " ++ value
  let shown := if more then shown ++ [".."] else shown
  name ++ " \x7b " ++ joinTexts ", " shown ++ " \x7d"

/-- An account of a name. -/
def accountOfName (kind name : String) : String :=
  kind ++ "(" ++ Quoted.text name ++ ")"

namespace Selection

/-- An account of a selection. -/
def inspect (selection : Selection) : String :=
  account "Selection"
    [("locales", Quoted.list (selection.locales.map fun l => accountOfName "Locale" l.name)),
      ("modules", Quoted.list (selection.modules.map fun m => accountOfName "Module" m.name))] false

end Selection

namespace Store

/-- An account of a store. -/
def inspect (store : Store) : String :=
  account "ResourceStore"
    [("selection", store.selection.inspect), ("records", toString store.records.length),
      ("subscribers", toString store.registered.length)] true

end Store

namespace Localizer

variable {α : Type}

/-- An account of what formats keys. -/
def inspectFormatter (localizer : Localizer α) : String :=
  account "Formatter"
    [("resolver", account "KeyResolver"
        [("store", localizer.store.inspect), ("max_depth", toString localizer.maxDepth)] false),
      ("templates", toString localizer.templates.length)] true

/-- An account of a localizer. -/
def inspect (localizer : Localizer α) : String :=
  account "Localizer"
    [("store", localizer.store.inspect), ("formatter", localizer.inspectFormatter)] true

end Localizer

namespace KeyNode

/-- An account of a node of the key tree. -/
def inspect (node : KeyNode) : String :=
  let moduleId := match node.moduleId with
    | none => "None"
    | some moduleId => "Some(" ++ accountOfName "Module" moduleId.name ++ ")"
  account "KeyPath"
    [("module", moduleId), ("key", Quoted.texts node.key),
      ("children", toString node.children.length)] false

end KeyNode

end Phrasebook
