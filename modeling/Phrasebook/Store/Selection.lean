import Phrasebook.Distinct
import Phrasebook.Name

/-!
# Selections

A selection is the active locales in order of priority and the active modules, each without repetition
when built by `withLocales` and `withModules`.
-/

namespace Phrasebook

/-- The active locales, first choice first, and the active modules. -/
structure Selection where
  locales : List Locale := []
  modules : List ModuleId := []
  deriving DecidableEq, Repr, Inhabited

namespace Selection

/-- Every pair of the selection, locale by locale. -/
def pairs (selection : Selection) : List Pair :=
  selection.locales.flatMap fun locale => selection.modules.map fun moduleId => ⟨locale, moduleId⟩

/-- Replace the locales, dropping repetitions. -/
def withLocales (selection : Selection) (locales : List Locale) : Selection :=
  { selection with locales := firstOccurrences locales }

/-- Replace the modules, dropping repetitions. -/
def withModules (selection : Selection) (modules : List ModuleId) : Selection :=
  { selection with modules := firstOccurrences modules }

/-- The pairs are the product of the locales and the modules. -/
@[simp] theorem mem_pairs {selection : Selection} {pair : Pair} :
    pair ∈ selection.pairs ↔ pair.locale ∈ selection.locales ∧ pair.moduleId ∈ selection.modules := by
  obtain ⟨locale, moduleId⟩ := pair
  simp [pairs]

end Selection

end Phrasebook
