import Phrasebook.Localizer.Basic
import Phrasebook.Proofs.Store.Run

/-!
# Sessions

A session does commands to a localizer, in any order: the store is changed or waited for, handlers are
subscribed, keys are visited, and texts are asked for. Asking changes the kept templates and nothing else
(`ask_eq`), and nothing else looks at them, so without questions a session ends in the same state
(`performAll_eq_filter`).
-/

namespace Phrasebook.Localizer

variable {α : Type}

/-- What a localizer is built from. -/
structure Blueprint (α : Type) where
  loader : Loader
  hook : Bool
  background : Bool
  engine : Engine
  maxDepth : Nat
  fallback : Markup.Wrapper α

/-- A localizer that nothing was asked of. -/
def Blueprint.build (blueprint : Blueprint α) : Localizer α where
  store := .fresh blueprint.loader blueprint.hook blueprint.background
  engine := blueprint.engine
  maxDepth := blueprint.maxDepth
  fallback := blueprint.fallback

/-- What is done to a localizer. -/
inductive Change where
  /-- The selection is changed, or loads are driven. -/
  | store (command : Store.Command)
  | subscribe (handler : Handler)
  | unsubscribe (id : Nat)
  /-- Go down in the key tree from a place. -/
  | visit (place : Nat) (segments : List String)

/-- What text a localizer is asked for. -/
inductive Question where
  | format (moduleId : ModuleId) (key : Key) (args : Option Args)
  | formatPair (pair : Pair) (key : Key) (args : Option Args)
  | formatAt (place : Nat) (args : Option Args)

/-- One command of a session. -/
inductive Command where
  | change (change : Change)
  | ask (question : Question)

/-- Whether a command asks for no text. -/
def Command.isChange : Command → Bool
  | .change _ => true
  | .ask _ => false

/-- Make a change. -/
def change (localizer : Localizer α) : Change → Localizer α × List Event
  | .store command => localizer.withStore (localizer.store.perform command)
  | .subscribe handler => localizer.withStore (localizer.store.subscribe handler)
  | .unsubscribe id => localizer.withStore ((localizer.store.unsubscribe id).1, [])
  | .visit place segments => ((localizer.navigate (localizer.tree.follow place segments)).1, [])

/-- Ask for a text, and leave the text aside. -/
def ask (localizer : Localizer α) : Question → Localizer α × List Event
  | .format moduleId key args =>
    let formatted := localizer.format moduleId key args
    (formatted.1, formatted.2.1)
  | .formatPair pair key args =>
    let formatted := localizer.formatPair pair key args
    (formatted.1, formatted.2.events)
  | .formatAt place args =>
    let formatted := localizer.formatAt place args
    (formatted.1, formatted.2.1)

/-- Do a command. -/
def perform (localizer : Localizer α) : Command → Localizer α × List Event
  | .change change => localizer.change change
  | .ask question => localizer.ask question

/-- Do commands one after another. -/
def performAll (localizer : Localizer α) : List Command → Localizer α × List Event
  | [] => (localizer, [])
  | command :: commands =>
    let first := localizer.perform command
    let rest := performAll first.1 commands
    (rest.1, first.2 ++ rest.2)

/-! ## What a question changes -/

variable (localizer : Localizer α)

/-- Compiling changes the kept templates and nothing else. -/
theorem template_eq (pair : Pair) (key : Key) (raw : String) :
    ∃ templates, (localizer.template pair key raw).1 = { localizer with templates } := by
  unfold template
  split
  · exact ⟨localizer.templates, rfl⟩
  · split
    · exact ⟨_, rfl⟩
    · exact ⟨localizer.templates, rfl⟩

/-- Formatting for one locale changes the kept templates and nothing else. -/
theorem formatPair_eq (pair : Pair) (key : Key) (args : Option Args) :
    ∃ templates, (localizer.formatPair pair key args).1 = { localizer with templates } := by
  cases hread : (localizer.library.read pair key).result with
  | ok raw =>
    obtain ⟨templates, htemplate⟩ := localizer.template_eq pair key raw
    exact ⟨templates, by simp only [formatPair, hread, htemplate]⟩
  | error problem => exact ⟨localizer.templates, by simp only [formatPair, hread]⟩

/-- Formatting for the first locale that succeeds changes the kept templates and nothing else. -/
theorem formatAmong_eq (moduleId : ModuleId) (key : Key) (args : Option Args) (locales : List Locale) :
    ∃ templates, (localizer.formatAmong moduleId key args locales).1 = { localizer with templates } := by
  induction locales generalizing localizer with
  | nil => exact ⟨localizer.templates, rfl⟩
  | cons locale locales ih =>
    obtain ⟨templates, htried⟩ := localizer.formatPair_eq ⟨locale, moduleId⟩ key args
    obtain ⟨templates', hrest⟩ := ih (localizer.formatPair ⟨locale, moduleId⟩ key args).1
    rw [formatAmong]
    split
    · exact ⟨templates, htried⟩
    · exact ⟨templates', hrest.trans (by rw [htried])⟩

/-- A question changes the kept templates only. -/
theorem ask_eq (question : Question) : ∃ templates, (localizer.ask question).1 = { localizer with templates } := by
  cases question with
  | format moduleId key args => exact localizer.formatAmong_eq moduleId key args _
  | formatPair pair key args => exact localizer.formatPair_eq pair key args
  | formatAt place args => exact localizer.formatAmong_eq _ _ args _

/-- A change does not look at the kept templates. -/
theorem change_with_templates (change : Change) (templates : List ((Pair × Key) × Template)) :
    (Localizer.change { localizer with templates } change).1 =
      { (localizer.change change).1 with templates } := by
  cases change <;> rfl

/-- Without questions a session ends in the same state, apart from the kept templates. -/
theorem performAll_eq_filter (commands : List Command) (templates : List ((Pair × Key) × Template)) :
    ∃ templates', (performAll { localizer with templates } commands).1 =
      { (localizer.performAll (commands.filter Command.isChange)).1 with templates := templates' } := by
  induction commands generalizing localizer templates with
  | nil => exact ⟨templates, rfl⟩
  | cons command commands ih =>
    cases command with
    | change change =>
      rw [List.filter_cons_of_pos rfl, performAll, performAll, perform, perform, change_with_templates]
      exact ih (localizer.change change).1 templates
    | ask question =>
      obtain ⟨templates', hfirst⟩ := ask_eq { localizer with templates } question
      rw [List.filter_cons_of_neg (by simp [Command.isChange]), performAll, perform, hfirst]
      exact ih localizer templates'

/-! ## What a session does to the store -/

/-- A change is a history of the store, with what it tells. -/
theorem steps_change (change : Change) :
    Store.History Store.Step localizer.store (localizer.change change).2 (localizer.change change).1.store := by
  cases change with
  | store command => exact Store.steps_perform localizer.store command
  | subscribe handler => exact Store.steps_subscribe localizer.store handler
  | unsubscribe id => exact Store.steps_unsubscribe localizer.store id
  | visit place segments => exact .refl localizer.store

/-- A command is a history of the store. -/
theorem steps_perform (command : Command) :
    ∃ told, Store.History Store.Step localizer.store told (localizer.perform command).1.store := by
  cases command with
  | change change => exact ⟨_, localizer.steps_change change⟩
  | ask question =>
    obtain ⟨templates, heq⟩ := localizer.ask_eq question
    rw [perform, heq]
    exact ⟨[], .refl localizer.store⟩

end Phrasebook.Localizer
