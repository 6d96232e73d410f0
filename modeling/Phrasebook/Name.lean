/-!
# Names

Locales and modules are named by opaque text: names are compared for equality and order, shown, and
joined into markers, and never taken apart. A `Pair` names one loadable resource.
-/

namespace Phrasebook

/-- The name of a locale, such as `en-US`. -/
structure Locale where
  name : String
  deriving DecidableEq, Repr, Inhabited

/-- The name of a module, one bundle of translations. -/
structure ModuleId where
  name : String
  deriving DecidableEq, Repr, Inhabited

/-- A locale and a module, which together name one resource. -/
structure Pair where
  locale : Locale
  moduleId : ModuleId
  deriving DecidableEq, Repr, Inhabited

instance : ToString Locale := ⟨Locale.name⟩
instance : ToString ModuleId := ⟨ModuleId.name⟩

/-- Locales are ordered by the code points of their names. -/
instance : LT Locale := ⟨fun a b => a.name < b.name⟩

instance (a b : Locale) : Decidable (a < b) := inferInstanceAs (Decidable (a.name < b.name))

end Phrasebook
