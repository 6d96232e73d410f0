import Phrasebook.Store.Basic

/-!
# Delivery

A change of the selection calls every handler that is registered at that moment, in the order of the
subscriptions. Handlers can act on the store while they are called: what they set off is done at once,
before the handlers that still wait for their call.
-/

namespace Phrasebook

/-- Work that is still to be done: calling the handler of a subscription, or an action. -/
inductive Task where
  | call (id : Nat) (selection : Selection)
  | act (action : Action)
  deriving DecidableEq, Repr

namespace Store

/-- The calls that tell every registered handler about the selection. -/
def calls (store : Store) : List Task :=
  store.registered.map fun id => .call id store.selection

/-- Change the selection and start the loads that it lacks. -/
def select (store : Store) (selection : Selection) : Store × List Event :=
  { store with selection }.reconcile

/-- The newest subscription with a label. -/
def newest? (store : Store) (label : String) : Option Nat :=
  ((List.range store.handlers.length).filter fun id =>
    (store.handlers[id]?.map Handler.label) = some label).getLast?

/-- Remove a subscription, and tell whether it was registered. -/
def unsubscribe (store : Store) (id : Nat) : Store × Bool :=
  ({ store with registered := store.registered.filter (· ≠ id) }, id ∈ store.registered)

/-- Call a handler: the new state, what the handler does, and the call as an event. -/
def answer (store : Store) (id : Nat) (selection : Selection) : Store × List Action × List Event :=
  match store.handlers[id]? with
  | none => (store, [], [])
  | some handler =>
    match handler.script with
    | [] => (store, [], [.delivered handler.label selection])
    | actions :: script =>
      ({ store with handlers := store.handlers.set id { handler with script } }, actions,
        [.delivered handler.label selection])

/-- Do an action: the new state, the calls that it sets off, and what happened before them. -/
def act (store : Store) : Action → Store × List Task × List Event
  | .setLocales locales =>
    let changed := store.select (store.selection.withLocales locales)
    (changed.1, changed.1.calls, changed.2)
  | .setModules modules =>
    let changed := store.select (store.selection.withModules modules)
    (changed.1, changed.1.calls, changed.2)
  | .unsubscribe label =>
    match store.newest? label with
    | none => (store, [], [.unsubscribed label false])
    | some id =>
      let removed := store.unsubscribe id
      (removed.1, [], [.unsubscribed label removed.2])

/-- How many actions the handlers have still to do. -/
def unspent (store : Store) : Nat :=
  (store.handlers.flatMap fun handler => handler.script.flatten).length

/-- How many of the tasks are actions. -/
def actionCount (tasks : List Task) : Nat :=
  tasks.countP fun task => task matches .act _

/-- How many of the tasks are calls. -/
def callCount (tasks : List Task) : Nat :=
  tasks.countP fun task => task matches .call _ _

/-- Replacing one element changes the length of all that the elements give by the difference of what the two give. -/
theorem length_flatMap_set {α β : Type} (f : α → List β) (xs : List α) (i : Nat) (x y : α) (h : xs[i]? = some x) :
    ((xs.set i y).flatMap f).length + (f x).length = (xs.flatMap f).length + (f y).length := by
  induction xs generalizing i with
  | nil => simp at h
  | cons z zs ih =>
    cases i with
    | zero =>
      simp only [List.getElem?_cons_zero, Option.some.injEq] at h
      simp only [List.set_cons_zero, List.flatMap_cons, List.length_append, h]
      omega
    | succ i =>
      have := ih i (by simpa using h)
      simp only [List.set_cons_succ, List.flatMap_cons, List.length_append]
      omega

/-- A call hands planned actions over and spends none. -/
theorem unspent_answer (store : Store) (id : Nat) (selection : Selection) :
    (store.answer id selection).1.unspent + (store.answer id selection).2.1.length = store.unspent := by
  unfold answer
  split
  · rfl
  · rename_i handler hid
    split
    · rfl
    · rename_i actions script hscript
      have := length_flatMap_set (fun handler : Handler => handler.script.flatten) store.handlers id
        handler { handler with script } hid
      simp only [hscript, List.flatten_cons, List.length_append] at this
      simp only [unspent]
      omega

/-- An action changes nothing of what the handlers have planned. -/
theorem unspent_act (store : Store) (action : Action) : (store.act action).1.unspent = store.unspent := by
  cases action with
  | setLocales locales => rfl
  | setModules modules => rfl
  | unsubscribe label => simp only [act]; split <;> rfl

/-- An action sets off calls only. -/
theorem actionCount_act (store : Store) (action : Action) : actionCount (store.act action).2.1 = 0 := by
  have hcalls (s : Store) : actionCount s.calls = 0 := by
    simp [actionCount, calls, List.countP_map, Function.comp_def]
  cases action with
  | setLocales locales => exact hcalls _
  | setModules modules => exact hcalls _
  | unsubscribe label => simp only [act]; split <;> rfl

/-- Do tasks until none is left, the first one first and what it sets off before the others. Each action
is done once, and only actions set off new calls, so this ends. -/
def run (store : Store) : List Task → Store × List Event
  | [] => (store, [])
  | .call id selection :: tasks =>
    let step := store.answer id selection
    let final := run step.1 (step.2.1.map Task.act ++ tasks)
    (final.1, step.2.2 ++ final.2)
  | .act action :: tasks =>
    let step := store.act action
    let final := run step.1 (step.2.1 ++ tasks)
    (final.1, step.2.2 ++ final.2)
termination_by tasks => (store.unspent + actionCount tasks, callCount tasks)
decreasing_by
  · have hspent := unspent_answer store id selection
    have hactions : actionCount ((store.answer id selection).2.1.map Task.act)
        = (store.answer id selection).2.1.length := by
      simp [actionCount, List.countP_map, Function.comp_def]
    have happend : actionCount ((store.answer id selection).2.1.map Task.act ++ tasks)
        = (store.answer id selection).2.1.length + actionCount tasks := by
      rw [← hactions]; simp [actionCount]
    have hsame : (store.answer id selection).1.unspent
        + actionCount ((store.answer id selection).2.1.map Task.act ++ tasks)
        = store.unspent + actionCount (Task.call id selection :: tasks) := by
      have : actionCount (Task.call id selection :: tasks) = actionCount tasks := by simp [actionCount]
      omega
    rw [hsame]
    apply Prod.Lex.right
    have : callCount ((store.answer id selection).2.1.map Task.act ++ tasks) = callCount tasks := by
      simp [callCount]
    rw [this]
    simp [callCount]
  · apply Prod.Lex.left
    have happend : actionCount ((store.act action).2.1 ++ tasks) = actionCount tasks := by
      simpa [actionCount] using actionCount_act store action
    rw [unspent_act, happend]
    simp [actionCount]

/-- Replace the active locales, start missing loads, and tell the handlers. -/
def setLocales (store : Store) (locales : List Locale) : Store × List Event :=
  store.run [.act (.setLocales locales)]

/-- Replace the active modules, start missing loads, and tell the handlers. -/
def setModules (store : Store) (modules : List ModuleId) : Store × List Event :=
  store.run [.act (.setModules modules)]

/-- Register a handler and call it with the current selection. -/
def subscribe (store : Store) (handler : Handler) : Store × List Event :=
  let id := store.handlers.length
  { store with handlers := store.handlers ++ [handler], registered := store.registered ++ [id] }.run
    [.call id store.selection]

end Store

end Phrasebook
