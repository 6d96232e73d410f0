import Phrasebook.Proofs.Store.Step

/-!
# Changes of the selection

Replacing the locales or the modules settles no load, whatever the handlers do when they are told
(`resource?_run`). If the handlers only listen, it leaves the selection that was asked for
(`Listening.selection_run_act`).
-/

namespace Phrasebook.Store

variable {store : Store} {pair : Pair}

/-! ## No load settles -/

/-- Calling a handler touches no cell. -/
theorem resource?_answer (store : Store) (id : Nat) (selection : Selection) (pair : Pair) :
    (store.answer id selection).1.resource? pair = store.resource? pair := by
  unfold answer
  split
  · rfl
  · split <;> rfl

/-- Whatever a handler does, it fills no cell. -/
theorem resource?_act (store : Store) (action : Action) (pair : Pair) :
    (store.act action).1.resource? pair = store.resource? pair := by
  cases action with
  | setLocales locales => exact resource?_select store _ pair
  | setModules modules => exact resource?_select store _ pair
  | unsubscribe label =>
    simp only [act]
    split <;> rfl

/-- Telling handlers and doing what they ask for settles nothing. -/
theorem resource?_run (store : Store) (tasks : List Task) (pair : Pair) :
    (store.run tasks).1.resource? pair = store.resource? pair := by
  induction store, tasks using run.induct with
  | case1 store => rw [run]
  | case2 store id selection tasks step ih =>
    rw [run]
    exact ih.trans (resource?_answer store id selection pair)
  | case3 store action tasks step ih =>
    rw [run]
    exact ih.trans (resource?_act store action pair)

/-- So no load settles meanwhile. -/
theorem isLoaded_run (store : Store) (tasks : List Task) (pair : Pair) :
    (store.run tasks).1.isLoaded pair = store.isLoaded pair := by
  rw [isLoaded, isLoaded, resource?_run]

/-! ## Handlers that only listen -/

/-- No registered handler does anything to the store when it is called. -/
def Listening (store : Store) : Prop :=
  ∀ id ∈ store.registered, ∀ handler, store.handlers[id]? = some handler → ∀ actions ∈ handler.script, actions = []

/-- Calling a handler that only listens uses up its turn and does nothing else. -/
theorem Listening.answer (h : store.Listening) {id : Nat} (hid : id ∈ store.registered) (selection : Selection) :
    (store.answer id selection).2.1 = [] ∧
      ∃ handlers, (store.answer id selection).1 = { store with handlers } ∧ Listening { store with handlers } := by
  unfold Store.answer
  split
  · exact ⟨rfl, store.handlers, rfl, h⟩
  · rename_i handler hhandler
    have hscript := h id hid handler hhandler
    split
    · exact ⟨rfl, store.handlers, rfl, h⟩
    · rename_i actions script heq
      rw [heq] at hscript
      refine ⟨hscript actions (by simp), _, rfl, fun other hother current hcurrent => ?_⟩
      rw [List.getElem?_set] at hcurrent
      split at hcurrent
      · -- the handler that was called has one turn less
        split at hcurrent
        · obtain rfl := Option.some.inj hcurrent
          exact fun later hlater => hscript later (List.mem_cons_of_mem _ hlater)
        · simp at hcurrent
      · exact h other hother current hcurrent

/-- Calling registered handlers that only listen leaves everything but the handlers as it is. -/
theorem Listening.run_calls (h : store.Listening) (selection : Selection) (ids : List Nat)
    (hids : ∀ id ∈ ids, id ∈ store.registered) :
    ∃ handlers, (store.run (ids.map fun id => .call id selection)).1 = { store with handlers } ∧
      Listening { store with handlers } := by
  induction ids generalizing store with
  | nil => exact ⟨store.handlers, by rw [List.map_nil, run], h⟩
  | cons id ids ih =>
    obtain ⟨hactions, handlers, hstore, hlistening⟩ := h.answer (hids id (by simp)) selection
    -- no task comes before the other calls, since this handler asked for none
    obtain ⟨handlers', hrest, hstill⟩ := ih hlistening fun other hother => hids other (by simp [hother])
    refine ⟨handlers', ?_, hstill⟩
    rw [List.map_cons, run, hactions, hstore]
    exact hrest

/-- Selecting does not touch the handlers. -/
theorem Listening.select (h : store.Listening) (selection : Selection) : (store.select selection).1.Listening :=
  h

/-- With listeners only, an action that chooses a selection leaves just that one. -/
theorem Listening.selection_run_act (h : store.Listening) {action : Action} {selection : Selection}
    (hchosen : store.chosen? action = some selection) :
    (store.run [.act action]).1.selection = selection := by
  obtain ⟨handlers, hrun, -⟩ := (h.select selection).run_calls selection store.registered fun _ hid => hid
  rw [run, act_of_chosen hchosen, List.append_nil]
  exact congrArg Store.selection hrun

end Phrasebook.Store
