import Phrasebook.Markup.Render
import Phrasebook.Navigation
import Phrasebook.Reference.Expansion
import Phrasebook.Store.Delivery
import Phrasebook.Store.Waiting
import Phrasebook.Template.Engine

/-!
# Localizers

A localizer answers with the text of a key in the first active locale that has one. Compiled templates are
kept: the text that a key expands to does not change once it is there, so a template is compiled once.
-/

namespace Phrasebook

/-- What stands for a translation that no locale has: the locales, the module and the dotted key. -/
def missingTranslation (locales : List Locale) (moduleId : ModuleId) (key : Key) : String :=
  joinTexts "|" (locales.map Locale.name) ++ ":" ++ moduleId.name ++ ":" ++ Key.dotted key

/-- A store with everything that turns its resources into texts. -/
structure Localizer (α : Type) where
  store : Store
  engine : Engine
  maxDepth : Nat
  fallback : Markup.Wrapper α
  templates : List ((Pair × Key) × Template) := []
  tree : KeyTree := {}

namespace Localizer

variable {α : Type}

/-- What reading a key depends on at this moment. -/
def library (localizer : Localizer α) : Library where
  resource? := localizer.store.resource?
  notifies := localizer.store.notifies
  maxDepth := localizer.maxDepth

/-- The template of an expanded text: the one that is kept, or a new one. -/
def template (localizer : Localizer α) (pair : Pair) (key : Key) (raw : String) :
    Localizer α × Traced Template :=
  match localizer.templates.lookup (pair, key) with
  | some template => (localizer, .done template)
  | none =>
    match localizer.engine.compile pair key raw with
    | .ok template =>
      ({ localizer with templates := ((pair, key), template) :: localizer.templates },
        ⟨[.compiling pair key raw], .ok template⟩)
    | .error problem => (localizer, ⟨[.compiling pair key raw], .error problem⟩)

/-- The text of a key for one pair. -/
def formatPair (localizer : Localizer α) (pair : Pair) (key : Key) (args : Option Args) :
    Localizer α × Traced String :=
  let reading := localizer.library.read pair key
  match reading.result with
  | .error problem => (localizer, ⟨reading.events, .error problem⟩)
  | .ok raw =>
    let compiled := localizer.template pair key raw
    (compiled.1, (compiled.2.andThen fun template => ⟨[], template args⟩).after reading.events)

/-- The text of a key in the first of the locales that has one. -/
def formatAmong (localizer : Localizer α) (moduleId : ModuleId) (key : Key) (args : Option Args) :
    List Locale → Localizer α × List Event × Option String
  | [] => (localizer, [], none)
  | locale :: locales =>
    let pair : Pair := ⟨locale, moduleId⟩
    let tried := localizer.formatPair pair key args
    match tried.2.result with
    | .ok text => (tried.1, tried.2.events, some text)
    | .error problem =>
      -- a pair that is not loaded yet is expected to have nothing
      let warning := if tried.1.store.isLoaded pair then [Event.fellThrough pair problem] else []
      let rest := formatAmong tried.1 moduleId key args locales
      (rest.1, tried.2.events ++ warning ++ rest.2.1, rest.2.2)

/-- The text of a key in the first active locale that has one, or the marker of a missing translation. -/
def format (localizer : Localizer α) (moduleId : ModuleId) (key : Key) (args : Option Args) :
    Localizer α × List Event × String :=
  let locales := localizer.store.selection.locales
  let formatted := localizer.formatAmong moduleId key args locales
  (formatted.1, formatted.2.1, formatted.2.2.getD (missingTranslation locales moduleId key))

/-- Render the tags of a text with wrappers and the localizer's fallback. -/
def render (localizer : Localizer α) (wrappers : List (String × Markup.Wrapper α)) (text : String) :
    Markup.Node α :=
  Markup.render wrappers localizer.fallback text

/-- The text at a place of the key tree; the root stands for the module with the empty name. -/
def formatAt (localizer : Localizer α) (place : Nat) (args : Option Args) :
    Localizer α × List Event × String :=
  let node := localizer.tree.node place
  localizer.format (node.moduleId.getD ⟨""⟩) node.key args

/-- Change the store, and keep what happened. -/
def withStore (localizer : Localizer α) (changed : Store × List Event) : Localizer α × List Event :=
  ({ localizer with store := changed.1 }, changed.2)

/-- Replace the active locales. -/
def setLocales (localizer : Localizer α) (locales : List Locale) : Localizer α × List Event :=
  localizer.withStore (localizer.store.setLocales locales)

/-- Replace the active modules. -/
def setModules (localizer : Localizer α) (modules : List ModuleId) : Localizer α × List Event :=
  localizer.withStore (localizer.store.setModules modules)

/-- Go to a node of the key tree. -/
def navigate (localizer : Localizer α) (moved : KeyTree × Nat) : Localizer α × Nat :=
  ({ localizer with tree := moved.1 }, moved.2)

end Localizer

end Phrasebook
