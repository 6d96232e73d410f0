import Phrasebook.Config.Basic
import Phrasebook.Document.View

/-!
# Reading a configuration

Every setting that a document leaves out has its default, and fields that are no settings are ignored.
-/

namespace Phrasebook.Config

variable {ν : Type}

/-- Depths are machine words. -/
def depth? (view : View ν) (node : ν) : Option Nat :=
  (view.natural? node).filter (· < UInt64.size)

/-- The settings of the resource section. -/
def resources? (view : View ν) (node : ν) : Option ResourceSettings := do
  let fields ← view.fields? ["dir", "format"] node
  let defaults : ResourceSettings := {}
  let dir ← View.field fields "dir" defaults.dir view.text?
  let format ← View.field fields "format" defaults.format fun node =>
    (view.choice? node).bind Format.ofName?
  return { dir, format }

/-- The settings of the template section. -/
def templates? (view : View ν) (node : ν) : Option TemplateSettings := do
  let fields ← view.fields? ["engine", "max_nesting_depth"] node
  let defaults : TemplateSettings := {}
  let engine ← View.field fields "engine" defaults.engine fun node =>
    (view.choice? node).bind EngineChoice.ofName?
  let maxDepth ← View.field fields "max_nesting_depth" defaults.maxDepth (depth? view)
  return { engine, maxDepth }

/-- The settings of the logging section. -/
def logging? (view : View ν) (node : ν) : Option LogSettings := do
  let fields ← view.fields? ["level", "json", "file"] node
  let defaults : LogSettings := {}
  let level ← View.field fields "level" defaults.level view.text?
  let json ← View.field fields "json" defaults.json view.flag?
  let file ← View.field fields "file" defaults.file fun node => do
    match ← view.optional? node with
    | none => return none
    | some node => return some (← view.text? node)
  return { level, json, file }

/-- The configuration that a document holds. -/
def ofView? (view : View ν) (node : ν) : Option Config := do
  let fields ← view.fields? ["locales", "modules", "resources", "templates", "logging"] node
  let locales ← View.field fields "locales" [] view.texts?
  let modules ← View.field fields "modules" [] view.texts?
  let resources ← View.field fields "resources" {} (resources? view)
  let templates ← View.field fields "templates" {} (templates? view)
  let logging ← View.field fields "logging" {} (logging? view)
  return { locales, modules, resources, templates, logging }

end Phrasebook.Config
