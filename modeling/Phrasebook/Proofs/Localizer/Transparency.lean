import Phrasebook.Proofs.Localizer.Session
import Phrasebook.Proofs.Reference.Tree

/-!
# Kept templates cannot be noticed

Keeping templates is right as long as every template that is kept is what its key would be compiled to now
(`Faithful`). This holds of a new localizer, questions keep it as they compile what they read, and changes keep
it as a text that a key has stays the text of the key (`Library.Grows.read_eq_ok`). Main statement: in every
session a localizer answers as one that compiles each text anew (`format_eq_formatAnew`).
-/

namespace Phrasebook.Localizer

variable {α : Type}

/-- The text of a key for one pair, with its template compiled anew. -/
def translate (localizer : Localizer α) (pair : Pair) (key : Key) (args : Option Args) : Except Problem String := do
  let raw ← (localizer.library.read pair key).result
  let template ← localizer.engine.compile pair key raw
  template args

/-- The text of a key in the first active locale for which it can be translated, or the marker of a missing
translation; templates are neither looked up nor kept. -/
def formatAnew (localizer : Localizer α) (moduleId : ModuleId) (key : Key) (args : Option Args) : String :=
  let locales := localizer.store.selection.locales
  let text? := locales.findSome? fun locale => (localizer.translate ⟨locale, moduleId⟩ key args).toOption
  text?.getD (missingTranslation locales moduleId key)

/-- Every kept template is what its key is compiled to. -/
structure Faithful (localizer : Localizer α) : Prop where
  kept : ∀ {pair : Pair} {key : Key} {template : Template},
    localizer.templates.lookup (pair, key) = some template →
      ∃ raw, (localizer.library.read pair key).result = .ok raw ∧
        localizer.engine.compile pair key raw = .ok template

/-- Where no template is kept, none is out of date. -/
theorem Blueprint.faithful (blueprint : Blueprint α) : Faithful blueprint.build where
  kept h := by simp [build] at h

variable {localizer : Localizer α}

/-! ## Questions -/

/-- A kept template of the text is the one that the text compiles to, as a key has one text only. -/
theorem Faithful.result_template (h : Faithful localizer) {pair : Pair} {key : Key} {raw : String}
    (hread : (localizer.library.read pair key).result = .ok raw) :
    (localizer.template pair key raw).2.result = localizer.engine.compile pair key raw := by
  unfold template
  split
  · rename_i template hkept
    obtain ⟨raw', hread', hcompile⟩ := h.kept hkept
    -- it was compiled from what the key reads to, and that is `raw`
    obtain rfl : raw = raw' := Except.ok.inj (hread.symm.trans hread')
    exact hcompile.symm
  · split
    · rename_i template hcompile
      exact hcompile.symm
    · rename_i problem hcompile
      exact hcompile.symm

/-- The template that a text compiles to may be kept. -/
theorem Faithful.keep (h : Faithful localizer) {pair : Pair} {key : Key} {raw : String} {template : Template}
    (hread : (localizer.library.read pair key).result = .ok raw)
    (hcompile : localizer.engine.compile pair key raw = .ok template) :
    Faithful { localizer with templates := ((pair, key), template) :: localizer.templates } := by
  refine ⟨fun {pair' key' template'} hkept => ?_⟩
  have hlookup : List.lookup (pair', key') (((pair, key), template) :: localizer.templates) = some template' :=
    hkept
  rw [Entries.lookup_cons] at hlookup
  by_cases heq : (pair', key') = (pair, key)
  · rw [if_pos heq] at hlookup
    obtain ⟨rfl, rfl⟩ := Prod.mk.inj heq
    obtain rfl := Option.some.inj hlookup
    exact ⟨raw, hread, hcompile⟩
  · rw [if_neg heq] at hlookup
    exact h.kept hlookup

/-- A template that is compiled from what the key reads to may be kept. -/
theorem Faithful.template (h : Faithful localizer) {pair : Pair} {key : Key} {raw : String}
    (hread : (localizer.library.read pair key).result = .ok raw) :
    Faithful (localizer.template pair key raw).1 := by
  unfold Localizer.template
  split
  · exact h
  · split
    · rename_i template hcompile
      exact h.keep hread hcompile
    · exact h

/-- Formatting for one locale keeps templates faithful. -/
theorem Faithful.formatPair (h : Faithful localizer) (pair : Pair) (key : Key) (args : Option Args) :
    Faithful (localizer.formatPair pair key args).1 := by
  cases hread : (localizer.library.read pair key).result with
  | ok raw =>
    simp only [Localizer.formatPair, hread]
    exact h.template hread
  | error problem =>
    simp only [Localizer.formatPair, hread]
    exact h

/-- One pair is translated as if its text were compiled anew. -/
theorem Faithful.result_formatPair (h : Faithful localizer) (pair : Pair) (key : Key) (args : Option Args) :
    (localizer.formatPair pair key args).2.result = localizer.translate pair key args := by
  cases hread : (localizer.library.read pair key).result with
  | ok raw =>
    have htemplate := h.result_template hread
    simp only [Localizer.formatPair, hread, translate, Traced.result_after, Traced.andThen, htemplate, bind,
      Except.bind]
    cases localizer.engine.compile pair key raw with
    | ok template => rfl
    | error problem => rfl
  | error problem =>
    simp only [Localizer.formatPair, hread, translate]
    rfl

/-- A question about several locales is answered with the first translation there is. -/
theorem Faithful.formatAmong (h : Faithful localizer) (moduleId : ModuleId) (key : Key) (args : Option Args)
    (locales : List Locale) :
    Faithful (localizer.formatAmong moduleId key args locales).1 ∧
      (localizer.formatAmong moduleId key args locales).2.2 =
        locales.findSome? fun locale => (localizer.translate ⟨locale, moduleId⟩ key args).toOption := by
  induction locales generalizing localizer with
  | nil => exact ⟨h, rfl⟩
  | cons locale locales ih =>
    have htried := h.formatPair ⟨locale, moduleId⟩ key args
    have hresult := h.result_formatPair ⟨locale, moduleId⟩ key args
    obtain ⟨templates, heq⟩ := localizer.formatPair_eq ⟨locale, moduleId⟩ key args
    rw [Localizer.formatAmong, List.findSome?_cons]
    split
    · rename_i text hok
      rw [← hresult, hok]
      exact ⟨htried, rfl⟩
    · rename_i problem herror
      obtain ⟨hrest, hfound⟩ := ih htried
      rw [← hresult, herror]
      refine ⟨hrest, hfound.trans ?_⟩
      -- translations do not depend on the templates that the first locale left
      rw [heq]
      rfl

/-- So does every question. -/
theorem Faithful.ask (h : Faithful localizer) (question : Question) : Faithful (localizer.ask question).1 := by
  cases question with
  | format moduleId key args => exact (h.formatAmong moduleId key args _).1
  | formatPair pair key args => exact h.formatPair pair key args
  | formatAt place args => exact (h.formatAmong _ _ args _).1

/-! ## Changes -/

/-- A change loads more and leaves all else that templates depend on. -/
theorem change_grows (localizer : Localizer α) (change : Change) :
    localizer.library.Grows (localizer.change change).1.library ∧
      (localizer.change change).1.engine = localizer.engine ∧
      (localizer.change change).1.templates = localizer.templates := by
  obtain ⟨told, hsteps⟩ := localizer.steps_perform (.change change)
  refine ⟨⟨fun hresource => hsteps.resource?_eq_some hresource, ?_⟩, ?_, ?_⟩ <;> cases change <;> rfl

/-- So does every change: what is read already stays as it is. -/
theorem Faithful.change (h : Faithful localizer) (change : Change) : Faithful (localizer.change change).1 := by
  obtain ⟨hgrows, hengine, htemplates⟩ := localizer.change_grows change
  refine ⟨fun {pair key template} hkept => ?_⟩
  rw [htemplates] at hkept
  obtain ⟨raw, hread, hcompile⟩ := h.kept hkept
  exact ⟨raw, hgrows.read_eq_ok hread, by rw [hengine, hcompile]⟩

/-- So does whatever is done with a localizer. -/
theorem Faithful.perform (h : Faithful localizer) (command : Command) :
    Faithful (localizer.perform command).1 := by
  cases command with
  | change change => exact h.change change
  | ask question => exact h.ask question

/-- Sessions keep faithful what is kept. -/
theorem Faithful.performAll (h : Faithful localizer) (commands : List Command) :
    Faithful (localizer.performAll commands).1 := by
  induction commands generalizing localizer with
  | nil => exact h
  | cons command commands ih => exact ih (h.perform command)

/-! ## Sessions -/

/-- With faithful templates the answer is that of compiling anew. -/
theorem Faithful.format_eq (h : Faithful localizer) (moduleId : ModuleId) (key : Key) (args : Option Args) :
    (localizer.format moduleId key args).2.2 = localizer.formatAnew moduleId key args := by
  simp only [format, formatAnew]
  rw [(h.formatAmong moduleId key args _).2]

/-- **Kept templates cannot be noticed.** After any session a localizer answers with the text of the first
active locale for which the key can be read, compiled and given the arguments now, or with the marker of a
missing translation. No text that was asked for before makes a difference: the answer is the same after the
changes of the session alone. -/
theorem format_eq_formatAnew (blueprint : Blueprint α) (commands : List Command) (moduleId : ModuleId) (key : Key)
    (args : Option Args) :
    let localizer := (blueprint.build.performAll commands).1
    let unasked := (blueprint.build.performAll (commands.filter Command.isChange)).1
    (localizer.format moduleId key args).2.2 = localizer.formatAnew moduleId key args ∧
      (localizer.format moduleId key args).2.2 = unasked.formatAnew moduleId key args := by
  intro localizer unasked
  have hfaithful : Faithful localizer := blueprint.faithful.performAll commands
  -- the two sessions end alike but for the templates, and compiling anew looks at none
  obtain ⟨templates, heq⟩ := blueprint.build.performAll_eq_filter commands []
  have hsame : localizer.formatAnew moduleId key args = unasked.formatAnew moduleId key args := by
    rw [show localizer = { unasked with templates } from heq]
    rfl
  exact ⟨hfaithful.format_eq moduleId key args, (hfaithful.format_eq moduleId key args).trans hsame⟩

end Phrasebook.Localizer
