import Phrasebook.Localizer.Setup
import Phrasebook.Proofs.Config.Breach
import Phrasebook.Proofs.Store.Ledger

/-!
# Configured localizers

The localizer of a configuration holds the configured selection without repetitions and one record for each of its
pairs (`store_ofConfig`). A valid configuration has no repetitions, so what it says is what the localizer holds.
Main statement: `validation_makes_literal`.
-/

namespace Phrasebook.Localizer

/-- The selection of a configuration: its names without repetitions. -/
def configuredSelection (config : Config) : Selection where
  locales := firstOccurrences config.localeIds
  modules := firstOccurrences config.moduleIds

/-- The localizer of a configuration holds its selection, and its loads are those of the pairs of the selection.
Without locales the modules have no pairs, so all loads start with the locales, in the order of the selection. -/
theorem store_ofConfig (config : Config) (files : FileTree) (background : Bool) :
    let store := (ofConfig config files background).1.store
    store.selection = configuredSelection config ∧
      store.records.map Prod.fst = (configuredSelection config).pairs := by
  let loader := Loader.ofDirectory config.resources files (if background then 1 else 0)
  let initial := Store.fresh loader false background
  let modulesSet := (initial.setModules config.moduleIds).1
  have hmodules : modulesSet = { initial with selection := ⟨[], firstOccurrences config.moduleIds⟩ } := by
    have hselect : modulesSet = (initial.select (initial.selection.withModules config.moduleIds)).1 :=
      congrArg Prod.fst (Store.run_act_eq_select rfl rfl)
    rw [hselect]
    -- no locale is selected yet, so there is no pair and no record is made
    simp [initial, Store.fresh, Store.select, Store.reconcile, Store.unrequested, Selection.withModules,
      Selection.pairs]
  have hstore : (ofConfig config files background).1.store =
      (modulesSet.select (modulesSet.selection.withLocales config.localeIds)).1 := by
    have hregistered : modulesSet.registered = [] := by rw [hmodules]; rfl
    exact congrArg Prod.fst (Store.run_act_eq_select hregistered rfl)
  intro store
  have hselection : modulesSet.selection.withLocales config.localeIds = configuredSelection config := by
    rw [hmodules]
    rfl
  have heq : store = (modulesSet.select (configuredSelection config)).1 := hselection ▸ hstore
  refine ⟨by rw [heq]; rfl, ?_⟩
  have hrecords : modulesSet.records = [] := by rw [hmodules]; rfl
  simp [heq, Store.select, Store.reconcile, Store.unrequested, Store.isRequested, Store.record?, hrecords,
    Function.comp_def]

/-- Different names make different locales. -/
theorem nodup_localeIds {config : Config} (h : config.locales.Nodup) : config.localeIds.Nodup :=
  h.map fun _ _ heq => congrArg Locale.name heq

/-- Different names make different modules. -/
theorem nodup_moduleIds {config : Config} (h : config.modules.Nodup) : config.moduleIds.Nodup :=
  h.map fun _ _ heq => congrArg ModuleId.name heq

/-- The selection of a configuration without repetitions is what it says. -/
theorem configuredSelection_of_nodup {config : Config} (hlocales : config.locales.Nodup)
    (hmodules : config.modules.Nodup) : configuredSelection config = ⟨config.localeIds, config.moduleIds⟩ := by
  rw [configuredSelection, firstOccurrences_of_nodup (nodup_localeIds hlocales),
    firstOccurrences_of_nodup (nodup_moduleIds hmodules)]

/-- There are as many pairs as locales times modules. -/
theorem length_pairs (selection : Selection) :
    selection.pairs.length = selection.locales.length * selection.modules.length := by
  simp [Selection.pairs, List.length_flatMap]

/-- **Validation is exact, and what passes it is taken literally.** A configuration passes exactly if no name is
blank after trimming, the locales are distinct, the modules are distinct, no module name holds a colon and at least
one reference is allowed. Otherwise the first breach is reported, in the order of the checks (locales, modules,
colons, depth) and within a check from left to right. The localizer of a configuration that passes holds the
configured locales and modules in their order, and one record for each of their pairs. -/
theorem validation_makes_literal (config : Config) :
    (config.validate = .ok () ↔
      (∀ name ∈ config.locales, trim name.toList ≠ []) ∧ (∀ name ∈ config.modules, trim name.toList ≠ []) ∧
        config.locales.Nodup ∧ config.modules.Nodup ∧ (∀ name ∈ config.modules, ':' ∉ name.toList) ∧
        1 ≤ config.templates.maxDepth) ∧
    (∀ violation, config.validate = .error violation ↔
      ∃ place, config.Breach place violation ∧
        ∀ other violation', config.Breach other violation' → place ≤ other) ∧
    (config.validate = .ok () → ∀ files background,
      let store := (ofConfig config files background).1.store
      store.selection.locales.map Locale.name = config.locales ∧
        store.selection.modules.map ModuleId.name = config.modules ∧
        store.records.length = config.locales.length * config.modules.length ∧
        (store.records.map Prod.fst).Nodup ∧
        ∀ pair, pair ∈ store.records.map Prod.fst ↔
          pair.locale.name ∈ config.locales ∧ pair.moduleId.name ∈ config.modules) := by
  refine ⟨?_, (Config.reports_validate config).error_iff, fun hvalid files background => ?_⟩
  · rw [Config.validate_eq_ok_iff]
    constructor
    · rintro ⟨hnames, hcolons, hdepth⟩
      exact ⟨(hnames .locale).1, (hnames .moduleId).1, (hnames .locale).2, (hnames .moduleId).2, hcolons, hdepth⟩
    · rintro ⟨hlocales, hmodules, hdistinct, hdistinct', hcolons, hdepth⟩
      refine ⟨fun kind => ?_, hcolons, hdepth⟩
      cases kind with
      | locale => exact ⟨hlocales, hdistinct⟩
      | moduleId => exact ⟨hmodules, hdistinct'⟩
  · obtain ⟨hnames, -, -⟩ := Config.validate_eq_ok_iff.1 hvalid
    obtain ⟨hselection, hrecords⟩ := store_ofConfig config files background
    rw [configuredSelection_of_nodup (hnames .locale).2 (hnames .moduleId).2] at hselection hrecords
    intro store
    -- records are counted by their pairs, which are those of the selection
    have hlength : store.records.length = (store.records.map Prod.fst).length := by simp
    rw [hlength, hselection, hrecords]
    refine ⟨by simp [Config.localeIds, Function.comp_def], by simp [Config.moduleIds, Function.comp_def], ?_,
      Selection.nodup_pairs (nodup_localeIds (hnames .locale).2) (nodup_moduleIds (hnames .moduleId).2),
      fun pair => ?_⟩
    · simp [length_pairs, Config.localeIds, Config.moduleIds]
    · obtain ⟨⟨locale⟩, ⟨moduleId⟩⟩ := pair
      simp [Config.localeIds, Config.moduleIds]

/-- Two locales and three modules are a valid configuration, with six loads. -/
theorem validation_makes_six_loads :
    let config : Config := { locales := ["pt-BR", "en"], modules := ["app", "menu", "a>b"] }
    config.validate = .ok () ∧ (ofConfig config {} true).1.store.records.length = 6 := by
  intro config
  have hvalid : config.validate = .ok () := by cbv
  exact ⟨hvalid, ((validation_makes_literal config).2.2 hvalid {} true).2.2.1⟩

end Phrasebook.Localizer
