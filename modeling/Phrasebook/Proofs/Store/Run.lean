import Phrasebook.Proofs.Store.Step

/-!
# Runs of a store

A run does commands one after another, in any order: the locales or the modules are replaced, loads are
driven, pairs are awaited. Each command of a store without handlers either selects or drives loads
(`perform_cases`), and which selections a run holds follows from the commands alone (`held_eq_scanl`).
-/

namespace Phrasebook.Store

/-- What is asked of a store, handlers apart. -/
inductive Command where
  | setLocales (locales : List Locale)
  | setModules (modules : List ModuleId)
  /-- Ask the load of a pair for its result. -/
  | poll (pair : Pair)
  /-- Wait until pairs are loaded. -/
  | await (pairs : List Pair)
  /-- Let the loads of the background advance for a number of turns. -/
  | yield (turns : Nat)
  deriving DecidableEq, Repr

/-- The selection that a command leaves. -/
def Command.select (selection : Selection) : Command → Selection
  | .setLocales locales => selection.withLocales locales
  | .setModules modules => selection.withModules modules
  | .poll _ | .await _ | .yield _ => selection

/-- A store that nothing was asked of. -/
def fresh (loader : Loader) (hook background : Bool) : Store :=
  { loader, hook, background }

/-- Do a command. -/
def perform (store : Store) : Command → Store × List Event
  | .setLocales locales => store.setLocales locales
  | .setModules modules => store.setModules modules
  | .poll pair => store.poll pair
  | .await pairs => store.await pairs
  | .yield turns => store.yield turns

/-- Do commands one after another. -/
def performAll (store : Store) : List Command → Store × List Event
  | [] => (store, [])
  | command :: commands =>
    let first := store.perform command
    let rest := performAll first.1 commands
    (rest.1, first.2 ++ rest.2)

/-- The selections that a store holds while commands are done, the first and the last one included. -/
def held (store : Store) : List Command → List Selection
  | [] => [store.selection]
  | command :: commands => store.selection :: held (store.perform command).1 commands

variable {store : Store}

/-- A command is a history. -/
theorem steps_perform (store : Store) (command : Command) :
    History Step store (store.perform command).2 (store.perform command).1 := by
  cases command with
  | setLocales locales => exact steps_run store [.act (.setLocales locales)]
  | setModules modules => exact steps_run store [.act (.setModules modules)]
  | poll pair => exact .single (.drive (.poll store pair))
  | await pairs => exact (drives_await store pairs).mono Step.drive
  | yield turns => exact (drives_yield store turns).mono Step.drive

/-- A run is a history. -/
theorem steps_performAll (store : Store) (commands : List Command) :
    History Step store (store.performAll commands).2 (store.performAll commands).1 := by
  induction commands generalizing store with
  | nil => exact .refl store
  | cons command commands ih => exact (steps_perform store command).trans (ih _)

/-! ## Without handlers -/

/-- With nobody to tell, an action that chooses a selection selects it and does no more. -/
theorem run_act_eq_select (h : store.registered = []) {action : Action} {selection : Selection}
    (hchosen : store.chosen? action = some selection) : store.run [.act action] = store.select selection := by
  have hcalls : (store.select selection).1.calls = [] := by
    simp [calls, select, reconcile, h]
  simp [run, act_of_chosen hchosen, hcalls]

/-- Driving loads leaves everything but the records and the queue alone. -/
theorem History.drives_eq {final : Store} {events : List Event} (h : History Drive store events final) :
    ∃ (records : List (Pair × LoadRecord)) (queue : List Pair),
      records.map Prod.fst = store.records.map Prod.fst ∧ final = { store with records, queue } := by
  induction h with
  | refl store => exact ⟨store.records, store.queue, rfl, rfl⟩
  | head step _ ih =>
    obtain ⟨records, queue, hfst, rfl⟩ := step.eq
    obtain ⟨records', queue', hfst', rfl⟩ := ih
    exact ⟨records', queue', hfst'.trans hfst, rfl⟩

/-- A command selects what it tells to select, or it drives loads and keeps the selection. -/
theorem perform_cases (h : store.registered = []) (command : Command) :
    store.perform command = store.select (command.select store.selection) ∨
      command.select store.selection = store.selection ∧
        History Drive store (store.perform command).2 (store.perform command).1 := by
  cases command with
  | setLocales locales => exact .inl (run_act_eq_select h rfl)
  | setModules modules => exact .inl (run_act_eq_select h rfl)
  | poll pair => exact .inr ⟨rfl, .single (.poll store pair)⟩
  | await pairs => exact .inr ⟨rfl, drives_await store pairs⟩
  | yield turns => exact .inr ⟨rfl, drives_yield store turns⟩

/-- Besides the records and the queue a command changes the selection only. -/
theorem perform_eq (h : store.registered = []) (command : Command) :
    ∃ (records : List (Pair × LoadRecord)) (queue : List Pair), (store.perform command).1 =
      { store with selection := command.select store.selection, records, queue } := by
  rcases perform_cases h command with hselect | ⟨hkeep, hdrives⟩
  · rw [hselect]
    exact ⟨_, _, rfl⟩
  · obtain ⟨records, queue, -, heq⟩ := hdrives.drives_eq
    exact ⟨records, queue, by rw [heq, hkeep]⟩

/-- A command registers nobody. -/
theorem registered_perform (h : store.registered = []) (command : Command) :
    (store.perform command).1.registered = [] := by
  obtain ⟨records, queue, heq⟩ := perform_eq h command
  rw [heq, h]

/-- A command leaves the selection that it asks for, whatever loads do meanwhile. -/
theorem selection_perform (h : store.registered = []) (command : Command) :
    (store.perform command).1.selection = command.select store.selection := by
  obtain ⟨records, queue, heq⟩ := perform_eq h command
  rw [heq]

/-- Besides the records and the queue a run changes the selection only. -/
theorem performAll_eq (h : store.registered = []) (commands : List Command) :
    ∃ (records : List (Pair × LoadRecord)) (queue : List Pair), (store.performAll commands).1 =
      { store with selection := commands.foldl Command.select store.selection, records, queue } := by
  induction commands generalizing store with
  | nil => exact ⟨_, _, rfl⟩
  | cons command commands ih =>
    obtain ⟨records, queue, heq⟩ := perform_eq h command
    obtain ⟨records', queue', heq'⟩ := ih (registered_perform h command)
    refine ⟨records', queue', heq'.trans ?_⟩
    rw [heq, List.foldl_cons]

/-- The selections held depend on the commands and on nothing that loads do. -/
theorem held_eq_scanl (h : store.registered = []) (commands : List Command) :
    store.held commands = commands.scanl Command.select store.selection := by
  induction commands generalizing store with
  | nil => rfl
  | cons command commands ih =>
    rw [held, List.scanl_cons, ih (registered_perform h command), selection_perform h]

/-- A run holds the selection with which it begins. -/
theorem selection_mem_held (store : Store) (commands : List Command) : store.selection ∈ store.held commands := by
  cases commands with
  | nil => simp [held]
  | cons => simp [held]

/-- A command requests the pairs of the selection that it leaves. -/
theorem isRequested_perform (h : store.registered = [])
    (hselected : ∀ pair ∈ store.selection.pairs, store.isRequested pair = true) (command : Command) (pair : Pair) :
    (store.perform command).1.isRequested pair = true ↔
      store.isRequested pair = true ∨ pair ∈ (store.perform command).1.selection.pairs := by
  rcases perform_cases h command with hselect | ⟨-, hdrives⟩
  · rw [hselect, isRequested_select]
    rfl
  · obtain ⟨records, queue, hfst, heq⟩ := hdrives.drives_eq
    rw [heq, isRequested_congr hfst]
    exact ⟨.inl, fun hor => hor.elim id (hselected pair)⟩

/-- A pair is requested by the end of a run if it was before or some selection of the run has it. -/
theorem isRequested_performAll (h : store.registered = [])
    (hselected : ∀ pair ∈ store.selection.pairs, store.isRequested pair = true) (commands : List Command)
    (pair : Pair) :
    (store.performAll commands).1.isRequested pair = true ↔
      store.isRequested pair = true ∨ ∃ selection ∈ store.held commands, pair ∈ selection.pairs := by
  induction commands generalizing store with
  | nil =>
    -- the selection at the beginning adds nothing, as it has records already
    simp only [performAll, held, List.mem_singleton, exists_eq_left]
    exact ⟨.inl, fun hor => hor.elim id (hselected pair)⟩
  | cons command commands ih =>
    have hnext := isRequested_perform h hselected command
    have hrest := ih (registered_perform h command) fun pair hpair => (hnext pair).2 (.inr hpair)
    rw [performAll, hrest, hnext, held]
    simp only [List.mem_cons, exists_eq_or_imp]
    -- the selection after the command is the first one that the rest of the run holds
    have hfirst := selection_mem_held (store.perform command).1 commands
    constructor
    · rintro ((hpair | hpair) | hpair)
      · exact .inl hpair
      · exact .inr (.inr ⟨_, hfirst, hpair⟩)
      · exact .inr (.inr hpair)
    · rintro (hpair | hpair | hpair)
      · exact .inl (.inl hpair)
      · exact .inl (.inl (hselected pair hpair))
      · exact .inr hpair

end Phrasebook.Store
