import Mathlib.Data.List.Nodup
import Phrasebook.Proofs.Localizer.Session
import Phrasebook.Proofs.Reference.Visits
import Phrasebook.Template.Placeholder

/-!
# The trace of a question

What can be observed of a question are the calls of notifiers, the calls that compile texts, and the warnings. They
follow the locales in order, and within a locale the reading comes first (`observed_formatPair`). Which texts are
compiled depends on the whole session: `Localizer.Accounted` ties the kept templates to what was compiled with success
so far. Main statement: `Localizer.observed_format`.
-/

namespace Phrasebook

/-! ## Templates that were compiled -/

/-- Of which pair and key a template was compiled with success. -/
def Event.compiled? (engine : Engine) : Event → Option (Pair × Key)
  | .compiling pair key raw => if (engine.compile pair key raw).isOk then some (pair, key) else none
  | _ => none

/-- The pairs and keys whose templates were compiled with success, in the order of the events. -/
def compiled (engine : Engine) (events : List Event) : List (Pair × Key) :=
  events.filterMap (Event.compiled? engine)

section Compiled

variable {engine : Engine}

/-- Nothing was compiled where nothing happened. -/
@[simp] theorem compiled_nil : compiled engine [] = [] := rfl

/-- What was compiled comes in the order of the events. -/
@[simp] theorem compiled_append (events later : List Event) :
    compiled engine (events ++ later) = compiled engine events ++ compiled engine later :=
  List.filterMap_append

/-- A compilation counts if it succeeds. -/
theorem compiled_compiling (pair : Pair) (key : Key) (raw : String) :
    compiled engine [.compiling pair key raw] = if (engine.compile pair key raw).isOk then [(pair, key)] else [] := by
  rw [compiled, List.filterMap_cons, Event.compiled?]
  split <;> simp_all

/-- Remarks compile nothing. -/
theorem compiled_observed (events : List Event) : compiled engine (observed events) = compiled engine events := by
  rw [compiled, compiled, observed, List.filterMap_filter]
  refine List.filterMap_congr fun event _ => ?_
  cases event <;> rfl

/-- Reading compiles nothing. -/
theorem compiled_read (library : Library) (pair : Pair) (key : Key) :
    compiled engine (library.read pair key).events = [] := by
  rw [← compiled_observed, (library.observed_read pair key).1]
  refine List.filterMap_eq_nil_iff.2 fun event hmem => ?_
  obtain ⟨visit, -, htold⟩ := List.mem_flatMap.1 hmem
  cases visit with
  | node address =>
    simp only [Visit.told] at htold
    split at htold
    · rw [List.mem_singleton.1 htold]
      rfl
    · simp at htold
  | cut chain => simp [Visit.told] at htold

namespace Store

variable {start final : Store} {events : List Event}

/-- A store compiles nothing. -/
theorem History.compiled_eq_nil (h : History Step start events final) : compiled engine events = [] := by
  refine List.filterMap_eq_nil_iff.2 fun event hmem => ?_
  have htold := h.forall_told Step.isLoading_or_isDelivery event hmem
  cases event with
  | compiling => simp [Event.isLoading, Event.isDelivery] at htold
  | _ => rfl

/-- A selection holds each locale once. -/
theorem History.locales_nodup (h : History Step start events final) (hstart : start.selection.locales.Nodup) :
    final.selection.locales.Nodup := by
  refine h.induct (P := fun store => store.selection.locales.Nodup) (fun step hnodup => ?_) hstart
  cases step with
  | drive driven =>
    obtain ⟨records, queue, -, rfl⟩ := driven.eq
    exact hnodup
  | setLocales locales => exact nodup_firstOccurrences locales
  | setModules modules => exact hnodup
  | deliver => exact hnodup

end Store

end Compiled

namespace Localizer

variable {α : Type} {localizer : Localizer α}

/-! ## One pair -/

/-- What is told while a pair is tried of which these templates were compiled before: the calls for what reading
visits, the call that compiles the text unless that was done before, and a warning if there is no translation for a
pair that is loaded. -/
def attempt (localizer : Localizer α) (known : List (Pair × Key)) (pair : Pair) (key : Key) (args : Option Args) :
    List Event :=
  let reading := localizer.library.read pair key
  (localizer.library.visits pair key).flatMap (Visit.told localizer.library pair.locale) ++
    (match reading.result with
      | .ok raw => if (pair, key) ∈ known then [] else [.compiling pair key raw]
      | .error _ => []) ++
    match (localizer.formatPair pair key args).2.result with
    | .ok _ => []
    | .error problem => if localizer.store.isLoaded pair then [.fellThrough pair problem] else []

/-- The keys of the kept templates. -/
def keptKeys (localizer : Localizer α) : List (Pair × Key) :=
  localizer.templates.map Prod.fst

/-- The kept keys are those that have a template. -/
theorem mem_keptKeys_iff {pair : Pair} {key : Key} :
    (pair, key) ∈ localizer.keptKeys ↔ (localizer.templates.lookup (pair, key)).isSome = true := by
  simp only [keptKeys, List.lookup_isSome_iff, List.mem_map, beq_iff_eq]
  exact exists_congr fun entry => and_congr_right fun _ => eq_comm

/-- The template of a text is kept, or the text is compiled; that adds to what is kept if it succeeds. -/
theorem template_cases (localizer : Localizer α) (pair : Pair) (key : Key) (raw : String) :
    ((pair, key) ∈ localizer.keptKeys ∧ (localizer.template pair key raw).1 = localizer ∧
      (localizer.template pair key raw).2.events = []) ∨
    ((pair, key) ∉ localizer.keptKeys ∧ (localizer.template pair key raw).2.events = [.compiling pair key raw] ∧
      (localizer.template pair key raw).1.keptKeys =
        (compiled localizer.engine [.compiling pair key raw]) ++ localizer.keptKeys) := by
  rw [mem_keptKeys_iff]
  unfold template
  split
  · rename_i template hkept
    exact .inl ⟨by simp [hkept], rfl, rfl⟩
  · rename_i hnone
    refine .inr ⟨by simp [hnone], ?_⟩
    split
    · rename_i template hcompile
      exact ⟨rfl, by rw [compiled_compiling, hcompile]; rfl⟩
    · rename_i problem hcompile
      exact ⟨rfl, by rw [compiled_compiling, hcompile]; rfl⟩

/-- A key that can be read is read and then compiled, unless its template is kept. -/
theorem formatPair_of_ok {pair : Pair} {key : Key} {raw : String}
    (hread : (localizer.library.read pair key).result = .ok raw) (args : Option Args) :
    (localizer.formatPair pair key args).1 = (localizer.template pair key raw).1 ∧
      (localizer.formatPair pair key args).2.events =
        (localizer.library.read pair key).events ++ (localizer.template pair key raw).2.events := by
  simp only [formatPair, hread, Traced.after, Traced.andThen, true_and, List.append_cancel_left_eq]
  split
  · exact List.append_nil _
  · rfl

/-- A key that cannot be read leaves all as it was. -/
theorem formatPair_of_error {pair : Pair} {key : Key} {problem : Problem}
    (hread : (localizer.library.read pair key).result = .error problem) (args : Option Args) :
    localizer.formatPair pair key args =
      (localizer, ⟨(localizer.library.read pair key).events, .error problem⟩) := by
  simp only [formatPair, hread]

/-- What is told about a pair apart from the warning. -/
theorem observed_formatPair (localizer : Localizer α) (pair : Pair) (key : Key) (args : Option Args) :
    observed (localizer.formatPair pair key args).2.events =
      (localizer.library.visits pair key).flatMap (Visit.told localizer.library pair.locale) ++
        match (localizer.library.read pair key).result with
        | .ok raw => if (pair, key) ∈ localizer.keptKeys then [] else [.compiling pair key raw]
        | .error _ => [] := by
  rw [← (localizer.library.observed_read pair key).1]
  cases hread : (localizer.library.read pair key).result with
  | ok raw =>
    rw [(formatPair_of_ok hread args).2, observed_append]
    obtain ⟨hkept, -, hevents⟩ | ⟨hnew, hevents, -⟩ := localizer.template_cases pair key raw
    · simp [hevents, hkept]
    · simp [hevents, hnew, observed, Event.isRemark]
  | error problem => simp [formatPair_of_error hread args]

/-- An attempt tells what is told about the pair, and the warning. -/
theorem attempt_keptKeys (localizer : Localizer α) (pair : Pair) (key : Key) (args : Option Args) :
    localizer.attempt localizer.keptKeys pair key args =
      observed (localizer.formatPair pair key args).2.events ++
        match (localizer.formatPair pair key args).2.result with
        | .ok _ => []
        | .error problem => if localizer.store.isLoaded pair then [.fellThrough pair problem] else [] := by
  rw [observed_formatPair, attempt]

/-! ## Several locales -/

/-- Only the template of the pair and the key counts. -/
theorem formatPair_congr {templates : List ((Pair × Key) × Template)} {pair : Pair} {key : Key}
    (h : templates.lookup (pair, key) = localizer.templates.lookup (pair, key)) (args : Option Args) :
    (Localizer.formatPair { localizer with templates } pair key args).2 = (localizer.formatPair pair key args).2 := by
  have hlibrary : library { localizer with templates } = localizer.library := rfl
  have htemplate (raw : String) :
      (Localizer.template { localizer with templates } pair key raw).2 = (localizer.template pair key raw).2 := by
    simp only [template, h]
    split
    · rfl
    · split <;> rfl
  simp only [formatPair, hlibrary]
  split
  · rfl
  · simp only [htemplate]

/-- Trying a pair leaves the templates of other pairs alone. -/
theorem lookup_formatPair {pair other : Pair} (hne : other ≠ pair) (key : Key) (args : Option Args) :
    (localizer.formatPair pair key args).1.templates.lookup (other, key) =
      localizer.templates.lookup (other, key) := by
  cases hread : (localizer.library.read pair key).result with
  | ok raw =>
    rw [(formatPair_of_ok hread args).1, template]
    split
    · rfl
    · split
      · simp [Entries.lookup_cons, hne]
      · rfl
  | error problem => rw [formatPair_of_error hread args]

/-- A pair is tried in the same way whatever the templates of other pairs are. -/
theorem attempt_congr {templates : List ((Pair × Key) × Template)} {pair : Pair} {key : Key}
    (h : templates.lookup (pair, key) = localizer.templates.lookup (pair, key)) (args : Option Args) :
    attempt { localizer with templates } (keptKeys { localizer with templates }) pair key args =
      localizer.attempt localizer.keptKeys pair key args := by
  rw [attempt_keptKeys, attempt_keptKeys, formatPair_congr h]

/-- What is told about different locales is what is told about each, up to the first that has a translation. -/
theorem observed_formatAmong (moduleId : ModuleId) (key : Key) (args : Option Args) {locales : List Locale}
    (hnodup : locales.Nodup) :
    observed (localizer.formatAmong moduleId key args locales).2.1 =
      (through (fun locale => (localizer.formatPair ⟨locale, moduleId⟩ key args).2.result.isOk) locales).flatMap
        fun locale => localizer.attempt localizer.keptKeys ⟨locale, moduleId⟩ key args := by
  induction locales generalizing localizer with
  | nil => rfl
  | cons locale locales ih =>
    obtain ⟨hfirst, hrest⟩ := List.nodup_cons.1 hnodup
    obtain ⟨templates, htried⟩ := localizer.formatPair_eq ⟨locale, moduleId⟩ key args
    rw [Localizer.formatAmong, through, List.flatMap_cons, attempt_keptKeys]
    cases hresult : (localizer.formatPair ⟨locale, moduleId⟩ key args).2.result with
    | ok text =>
      simp [Except.isOk, Except.toBool]
    | error problem =>
      have hwarning : observed (if localizer.store.isLoaded ⟨locale, moduleId⟩ then
          [.fellThrough ⟨locale, moduleId⟩ problem] else []) =
          if localizer.store.isLoaded ⟨locale, moduleId⟩ then [.fellThrough ⟨locale, moduleId⟩ problem] else [] := by
        split <;> rfl
      -- the other locales are tried with the templates that the first one left, which are none of theirs
      have hothers : ∀ other ∈ locales, templates.lookup (⟨other, moduleId⟩, key) =
          localizer.templates.lookup (⟨other, moduleId⟩, key) := by
        intro other hmem
        have hne : (⟨other, moduleId⟩ : Pair) ≠ ⟨locale, moduleId⟩ := by
          rintro ⟨⟩
          exact hfirst hmem
        rw [← lookup_formatPair hne key args, htried]
      have hlater := @ih { localizer with templates } hrest
      rw [flatMap_through_congr fun other hmem => ⟨by rw [formatPair_congr (hothers other hmem)],
        attempt_congr (hothers other hmem) args⟩] at hlater
      simp only [htried, observed_append, hwarning, hlater]
      rfl

/-! ## Accounts -/

/-- The kept templates are those that were compiled with success, each of them once. -/
structure Accounted (localizer : Localizer α) (events : List Event) : Prop where
  keptKeys_eq : localizer.keptKeys = (compiled localizer.engine events).reverse
  nodup : (compiled localizer.engine events).Nodup
  locales_nodup : localizer.store.selection.locales.Nodup

namespace Accounted

variable {events told : List Event}

/-- A localizer that nothing was asked of has compiled nothing. -/
theorem fresh (blueprint : Blueprint α) : Accounted blueprint.build [] :=
  ⟨rfl, .nil, .nil⟩

/-- What was compiled with success is what is kept. -/
theorem mem_compiled_iff (h : Accounted localizer events) {pair : Pair} {key : Key} :
    (pair, key) ∈ compiled localizer.engine events ↔ (pair, key) ∈ localizer.keptKeys := by
  rw [h.keptKeys_eq, List.mem_reverse]

/-- Events that compile nothing need no account. -/
theorem quiet (h : Accounted localizer events) (hquiet : compiled localizer.engine told = []) :
    Accounted localizer (events ++ told) := by
  have hsame : compiled localizer.engine (events ++ told) = compiled localizer.engine events := by
    rw [compiled_append, hquiet, List.append_nil]
  refine ⟨?_, ?_, h.locales_nodup⟩
  · rw [hsame, h.keptKeys_eq]
  · rw [hsame]
    exact h.nodup

/-- Compiling keeps the account: a template is either kept already or compiled now and kept. -/
theorem template (h : Accounted localizer events) (pair : Pair) (key : Key) (raw : String) :
    Accounted (localizer.template pair key raw).1 (events ++ (localizer.template pair key raw).2.events) := by
  obtain ⟨-, hsame, hevents⟩ | ⟨hnew, hevents, hkept⟩ := localizer.template_cases pair key raw
  · rw [hsame, hevents, List.append_nil]
    exact h
  · obtain ⟨templates, heq⟩ := localizer.template_eq pair key raw
    have hengine : (localizer.template pair key raw).1.engine = localizer.engine := by rw [heq]
    -- it was not kept, so by the account it was not compiled before
    rw [← h.mem_compiled_iff] at hnew
    rw [hevents]
    refine ⟨?_, ?_, ?_⟩
    · rw [hengine, hkept, h.keptKeys_eq, compiled_append, List.reverse_append, compiled_compiling]
      split <;> rfl
    · rw [hengine, compiled_append, compiled_compiling]
      split
      · exact List.nodup_append_comm.1 (List.nodup_cons.2 ⟨hnew, h.nodup⟩)
      · simpa using h.nodup
    · rw [heq]
      exact h.locales_nodup

/-- Formatting for one locale keeps the account. -/
theorem formatPair (h : Accounted localizer events) (pair : Pair) (key : Key) (args : Option Args) :
    Accounted (localizer.formatPair pair key args).1
      (events ++ (localizer.formatPair pair key args).2.events) := by
  have hread : Accounted localizer (events ++ (localizer.library.read pair key).events) :=
    h.quiet (compiled_read localizer.library pair key)
  cases hresult : (localizer.library.read pair key).result with
  | ok raw =>
    obtain ⟨hstate, hevents⟩ := formatPair_of_ok hresult args
    rw [hstate, hevents, ← List.append_assoc]
    exact hread.template pair key raw
  | error problem =>
    rw [formatPair_of_error hresult args]
    exact hread

/-- Formatting for the first locale that succeeds keeps the account. -/
theorem formatAmong (h : Accounted localizer events) (moduleId : ModuleId) (key : Key) (args : Option Args)
    (locales : List Locale) :
    Accounted (localizer.formatAmong moduleId key args locales).1
      (events ++ (localizer.formatAmong moduleId key args locales).2.1) := by
  induction locales generalizing localizer events with
  | nil =>
    rw [Localizer.formatAmong, List.append_nil]
    exact h
  | cons locale locales ih =>
    have htried := h.formatPair ⟨locale, moduleId⟩ key args
    rw [Localizer.formatAmong]
    split
    · exact htried
    · rename_i problem _
      -- a warning compiles nothing
      have hwarning (warns : Bool) : compiled (localizer.formatPair ⟨locale, moduleId⟩ key args).1.engine
          (if warns then [.fellThrough ⟨locale, moduleId⟩ problem] else []) = [] := by
        cases warns <;> rfl
      simp only [← List.append_assoc]
      exact ih (htried.quiet (hwarning _))

/-- Every question keeps the account. -/
theorem ask (h : Accounted localizer events) (question : Question) :
    Accounted (localizer.ask question).1 (events ++ (localizer.ask question).2) := by
  cases question with
  | format moduleId key args => exact h.formatAmong moduleId key args _
  | formatPair pair key args => exact h.formatPair pair key args
  | formatAt place args => exact h.formatAmong _ _ args _

/-- Every change keeps the account, as it compiles nothing. -/
theorem change (h : Accounted localizer events) (change : Change) :
    Accounted (localizer.change change).1 (events ++ (localizer.change change).2) := by
  have hsteps := localizer.steps_change change
  have hengine : (localizer.change change).1.engine = localizer.engine := by cases change <;> rfl
  have hkept : (localizer.change change).1.keptKeys = localizer.keptKeys := by cases change <;> rfl
  have hquiet := h.quiet hsteps.compiled_eq_nil
  refine ⟨?_, ?_, hsteps.locales_nodup h.locales_nodup⟩
  · rw [hengine, hkept]
    exact hquiet.keptKeys_eq
  · rw [hengine]
    exact hquiet.nodup

/-- Whatever is done with a localizer keeps the account. -/
theorem perform (h : Accounted localizer events) (command : Command) :
    Accounted (localizer.perform command).1 (events ++ (localizer.perform command).2) := by
  cases command with
  | change change => exact h.change change
  | ask question => exact h.ask question

/-- Every session keeps the account. -/
theorem performAll (h : Accounted localizer events) (commands : List Command) :
    Accounted (localizer.performAll commands).1 (events ++ (localizer.performAll commands).2) := by
  induction commands generalizing localizer events with
  | nil =>
    rw [Localizer.performAll, List.append_nil]
    exact h
  | cons command commands ih =>
    rw [Localizer.performAll, ← List.append_assoc]
    exact ih (h.perform command)

end Accounted

/-! ## Sessions -/

/-- A localizer keeps its engine. -/
theorem engine_perform (localizer : Localizer α) (command : Command) :
    (localizer.perform command).1.engine = localizer.engine := by
  cases command with
  | change change => cases change <;> rfl
  | ask question =>
    obtain ⟨templates, heq⟩ := localizer.ask_eq question
    rw [perform, heq]

/-- A localizer keeps its engine over every run. -/
theorem engine_performAll (localizer : Localizer α) (commands : List Command) :
    (localizer.performAll commands).1.engine = localizer.engine := by
  induction commands generalizing localizer with
  | nil => rfl
  | cons command commands ih => exact (ih _).trans (localizer.engine_perform command)

/-- **The trace of a question.** In every state of a session, a question calls and warns as follows, for each active
locale in order, up to the first that has a translation. First it calls a notifier for each visit of the reading that
looks a node up, if the pair that is read has one, with the node that is found. The visits go through the key and what
it refers to depth first and from left to right, up to the first one that has a problem, which is then the problem of
the reading. Then, if the key has a text, the text is compiled, unless that was done before with success in the course
of the session. Last it warns if the locale has no translation and its pair is loaded. So in the whole session each
pair and key is compiled with success once at most, and as many templates are kept as were. -/
theorem observed_format (blueprint : Blueprint α) (commands : List Command) (moduleId : ModuleId) (key : Key)
    (args : Option Args) :
    let session := blueprint.build.performAll commands
    let localizer := session.1
    let known := compiled blueprint.engine session.2
    let translates (locale : Locale) : Bool := (localizer.formatPair ⟨locale, moduleId⟩ key args).2.result.isOk
    observed (localizer.format moduleId key args).2.1 =
        (through translates localizer.store.selection.locales).flatMap
          (fun locale => localizer.attempt known ⟨locale, moduleId⟩ key args) ∧
      (∀ pair, (localizer.library.read pair key).problem? =
        (localizer.library.visits pair key).findSome? (Visit.problem? localizer.library pair.locale)) ∧
      known.Nodup ∧ localizer.templates.map Prod.fst = known.reverse ∧
      localizer.templates.length = known.length := by
  intro session localizer known translates
  have hengine : localizer.engine = blueprint.engine := blueprint.build.engine_performAll commands
  have haccounted : Accounted localizer session.2 := (Accounted.fresh blueprint).performAll commands
  have hkept : localizer.keptKeys = known.reverse := by
    rw [haccounted.keptKeys_eq, hengine]
  refine ⟨?_, fun pair => (localizer.library.observed_read pair key).2, ?_, hkept, ?_⟩
  · have hmem (pair : Pair) : (pair, key) ∈ known ↔ (pair, key) ∈ localizer.keptKeys := by
      rw [hkept, List.mem_reverse]
    have hattempt (pair : Pair) :
        localizer.attempt known pair key args = localizer.attempt localizer.keptKeys pair key args := by
      simp only [attempt, hmem]
    simp only [hattempt]
    exact observed_formatAmong moduleId key args haccounted.locales_nodup
  · have hnodup := haccounted.nodup
    rwa [hengine] at hnodup
  · simpa [keptKeys] using congrArg List.length hkept

/-- A text that is asked for twice is compiled once. -/
example :
    let blueprint : Blueprint String :=
      { loader := .ofTable [(⟨⟨"en"⟩, ⟨"app"⟩⟩, .table [("hi", .text "Hi")])], hook := false, background := false,
        engine := .interpolation, maxDepth := 32, fallback := Markup.concatenate }
    let hi : Command := .ask (.format ⟨"app"⟩ ["hi"] none)
    observed (blueprint.build.performAll [.change (.store (.setModules [⟨"app"⟩])),
        .change (.store (.setLocales [⟨"en"⟩])), .change (.store (.await [⟨⟨"en"⟩, ⟨"app"⟩⟩])), hi, hi]).2 =
      [.scheduled ⟨⟨"en"⟩, ⟨"app"⟩⟩, .loaded ⟨⟨"en"⟩, ⟨"app"⟩⟩, .compiling ⟨⟨"en"⟩, ⟨"app"⟩⟩ ["hi"] "Hi"] := by
  cbv

end Localizer

end Phrasebook
