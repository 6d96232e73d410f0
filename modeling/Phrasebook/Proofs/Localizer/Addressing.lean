import Mathlib
import Phrasebook.Proofs.Localizer.Handles
import Phrasebook.Template.Placeholder

/-!
# Two ways to address a key

The text of a dotted key can be asked for directly, or at the node of the key tree that the dotted text leads to.
The tree leaves out empty segments and the direct question does not, so both ways agree on every text without empty
segments and on no other. Main statement: `formatPath_eq_formatDotted_iff`.
-/

namespace Phrasebook.Localizer

variable {α : Type}

/-- The text of a dotted key of a module. -/
def formatDotted (localizer : Localizer α) (moduleId : ModuleId) (dotted : String) (args : Option Args) :
    Localizer α × List Event × String :=
  localizer.format moduleId (Key.split dotted) args

/-- The text at the node that a dotted text leads to from the node of a module. -/
def formatPath (localizer : Localizer α) (name dotted : String) (args : Option Args) :
    Localizer α × List Event × String :=
  let entered := localizer.tree.get KeyTree.root name
  let moved := localizer.navigate (entered.1.path entered.2 dotted)
  moved.1.formatAt moved.2 args

/-! ## The tree of a session -/

/-- Whatever is done with a localizer, its key tree stays coherent. -/
theorem coherent_perform {localizer : Localizer α} (h : localizer.tree.Coherent) (command : Command) :
    (localizer.perform command).1.tree.Coherent := by
  cases command with
  | change change =>
    cases change with
    | visit place segments => exact h.follow place segments
    | _ => exact h
  | ask question =>
    obtain ⟨templates, heq⟩ := localizer.ask_eq question
    rw [perform, heq]
    exact h

/-- Over every run the key tree stays coherent. -/
theorem coherent_performAll {localizer : Localizer α} (h : localizer.tree.Coherent) (commands : List Command) :
    (localizer.performAll commands).1.tree.Coherent := by
  induction commands generalizing localizer with
  | nil => exact h
  | cons command commands ih => exact ih (coherent_perform h command)

/-! ## Questions do not look at the tree -/

variable (localizer : Localizer α) (tree : KeyTree)

/-- Compiling does not depend on the key tree. -/
theorem template_with_tree (pair : Pair) (key : Key) (raw : String) :
    template { localizer with tree } pair key raw =
      ({ (localizer.template pair key raw).1 with tree }, (localizer.template pair key raw).2) := by
  simp only [template]
  split
  · rfl
  · split <;> rfl

/-- Nor does formatting for one locale, -/
theorem formatPair_with_tree (pair : Pair) (key : Key) (args : Option Args) :
    formatPair { localizer with tree } pair key args =
      ({ (localizer.formatPair pair key args).1 with tree }, (localizer.formatPair pair key args).2) := by
  have hlibrary : library { localizer with tree } = localizer.library := rfl
  simp only [formatPair, hlibrary, template_with_tree]
  split <;> rfl

/-- nor formatting for the first locale that succeeds, -/
theorem formatAmong_with_tree (moduleId : ModuleId) (key : Key) (args : Option Args) (locales : List Locale) :
    formatAmong { localizer with tree } moduleId key args locales =
      ({ (localizer.formatAmong moduleId key args locales).1 with tree },
        (localizer.formatAmong moduleId key args locales).2) := by
  induction locales generalizing localizer with
  | nil => rfl
  | cons locale locales ih =>
    simp only [formatAmong, formatPair_with_tree, ih]
    split <;> rfl

/-- so that a key is formatted the same whatever nodes there are. -/
theorem format_with_tree (moduleId : ModuleId) (key : Key) (args : Option Args) :
    (format { localizer with tree } moduleId key args).2 = (localizer.format moduleId key args).2 := by
  simp only [format, formatAmong_with_tree]

/-! ## Both ways -/

variable {localizer}

/-- The tree leads to the text of the key without its empty segments. -/
theorem formatPath_eq (h : localizer.tree.Coherent) (name dotted : String) (args : Option Args) :
    (localizer.formatPath name dotted args).2 = (localizer.format ⟨name⟩ (Key.steps dotted) args).2 := by
  let entered := localizer.tree.get KeyTree.root name
  let moved := localizer.navigate (entered.1.path entered.2 dotted)
  have hentered : (entered.1.node entered.2).At [name] := h.node_get h.root
  have hmoved : (moved.1.tree.node moved.2).At (name :: Key.steps dotted) :=
    (h.get KeyTree.root name).node_follow hentered (Key.steps dotted)
  calc (localizer.formatPath name dotted args).2
    _ = (moved.1.formatAt moved.2 args).2 := rfl
    _ = (moved.1.format ⟨name⟩ (Key.steps dotted) args).2 := congrArg Prod.snd (formatAt_eq_format hmoved args)
    _ = (localizer.format ⟨name⟩ (Key.steps dotted) args).2 := format_with_tree localizer moved.1.tree _ _ _

/-- Steps have no empty pieces and no dots, so they survive being written and split. -/
theorem split_dotted_steps (dotted : String) : Key.split (Key.dotted (Key.steps dotted)) = Key.steps dotted := by
  rw [Key.steps_eq_filter_split]
  refine Key.split_dotted (fun segment hmem => Key.undotted_split dotted segment (List.mem_filter.1 hmem).1) ?_
  intro heq
  have hmem : "" ∈ (Key.split dotted).filter (· ≠ "") := heq ▸ List.mem_singleton_self ""
  simp at hmem

/-- Without active locales the marker of a missing translation shows which key was asked for. -/
theorem dotted_eq_of_format_eq (hnone : localizer.store.selection.locales = []) {moduleId : ModuleId}
    {key key' : Key} {args : Option Args}
    (h : (localizer.format moduleId key args).2 = (localizer.format moduleId key' args).2) :
    Key.dotted key = Key.dotted key' := by
  have htext := congrArg Prod.snd h
  simp only [format, hnone, formatAmong, Option.getD_none, missingTranslation] at htext
  exact String.append_right_inj _ |>.1 htext

/-- **Both ways agree exactly if no segment is empty.** In every state of a session, asking at the node that a
dotted text leads to is asking for the key without the empty segments of the text. So it is the same as asking for
the text directly, in every state and for all arguments, if and only if no segment between the dots of the text is
empty; the empty text has no segments. -/
theorem formatPath_eq_formatDotted_iff (blueprint : Blueprint α) (name dotted : String) :
    (∀ commands args,
      let localizer := (blueprint.build.performAll commands).1
      (localizer.formatPath name dotted args).2 =
        (localizer.formatDotted ⟨name⟩ (Key.dotted (Key.steps dotted)) args).2) ∧
    ((∀ commands args,
      let localizer := (blueprint.build.performAll commands).1
      (localizer.formatPath name dotted args).2 = (localizer.formatDotted ⟨name⟩ dotted args).2) ↔
      "" ∉ Key.split dotted) := by
  have hpath (commands : List Command) (args : Option Args) :
      ((blueprint.build.performAll commands).1.formatPath name dotted args).2 =
        ((blueprint.build.performAll commands).1.format ⟨name⟩ (Key.steps dotted) args).2 :=
    formatPath_eq (coherent_performAll KeyTree.Coherent.initial commands) name dotted args
  refine ⟨fun commands args => ?_, fun hagree hempty => ?_, fun hempty commands args => ?_⟩
  · simp only [formatDotted, split_dotted_steps]
    exact hpath commands args
  · have hfresh := (hpath [] none).symm.trans (hagree [] none)
    have hdotted : Key.dotted (Key.steps dotted) = dotted :=
      (dotted_eq_of_format_eq rfl hfresh).trans (Key.dotted_split dotted)
    -- so the text has the segments that are not empty and no others
    have hsteps : Key.split dotted = Key.steps dotted := by
      rw [← split_dotted_steps, hdotted]
    rw [hsteps, Key.steps_eq_filter_split] at hempty
    simp at hempty
  · have hsteps : Key.steps dotted = Key.split dotted := by
      rw [Key.steps_eq_filter_split, List.filter_eq_self]
      intro segment hmem
      simpa using fun heq : segment = "" => hempty (heq ▸ hmem)
    simp only [formatDotted, ← hsteps]
    exact hpath commands args

/-- A sentence as the key of a flat entry is found directly, and not along the tree, where its dots are lost. -/
theorem formatPath_loading :
    let blueprint : Blueprint String :=
      { loader := .ofTable [(⟨⟨"en"⟩, ⟨"app"⟩⟩, .table [("Loading...", .text "Please wait")])], hook := false,
        background := false, engine := .interpolation, maxDepth := 32, fallback := Markup.concatenate }
    let localizer := (blueprint.build.performAll
      [.change (.store (.setLocales [⟨"en"⟩])), .change (.store (.setModules [⟨"app"⟩])),
        .change (.store (.await [⟨⟨"en"⟩, ⟨"app"⟩⟩]))]).1
    (localizer.formatPath "app" "Loading..." none).2.2 = "en:app:Loading" ∧
      (localizer.formatDotted ⟨"app"⟩ "Loading..." none).2.2 = "Please wait" := by
  constructor
  · cbv
  · cbv

end Phrasebook.Localizer
