import Mathlib
import Phrasebook.Proofs.Fluent.Texts

/-!
# Texts without placeables are kept

The template of a text without placeables needs no arguments, and gives what precedes the first line that begins with a
point, except for blanks (`template_text`). Main statement: it gives the whole text, for all arguments, exactly if no
line begins with a point (`compile_keeps_text`).
-/

namespace Phrasebook.Fluent

variable {elements pattern : Pattern} {pair : Pair} {key : Key} {raw : String} {template : Template}

/-! ## Resolution -/

/-- Text is written as it is. -/
theorem writeElements_text (env : Environment) (follow : Pattern → Scope → String × Scope) (whole : Pattern)
    {scope : Scope} (hscope : scope.exhausted = false) (h : ∀ element ∈ elements, element.IsText) :
    writeElements env follow whole elements scope = (String.ofList (elements.flatMap Element.content), scope) := by
  induction elements with
  | nil => rw [writeElements]; rfl
  | cons element elements ih =>
    obtain ⟨hhead, htail⟩ := List.forall_mem_cons.1 h
    cases element with
    | placeable => exact hhead.elim
    | text content =>
      rw [writeElements, hscope]
      simp [writeElement, ih htail, Element.content]

/-- A pattern whose elements are all text resolves to their contents one after another, in every environment and
without an error. -/
theorem resolve_text (env : Environment) (h : ∀ element ∈ pattern, element.IsText) :
    resolve env pattern = (String.ofList (pattern.flatMap Element.content), []) := by
  rw [resolve, Environment.maxDepth, writeWithin, writeElements_text _ _ _ rfl h]

/-- The template of a message whose value is text. -/
theorem template_of_holds {message : Message} {cs : List Char} (h : Holds message.value cs) (rule : Plural.Rule)
    (key : Key) (args : Option Args) :
    (∃ text, Fluent.template rule key message args = .ok text ∧ nonblank text.toList = nonblank (beforePoint cs)) ∨
      (nonblank (beforePoint cs) = [] ∧ Fluent.template rule key message args = .error (.parse key .noValue)) := by
  rcases h with ⟨hnone, hblank⟩ | ⟨pattern, hvalue, htexts, hpattern⟩
  · exact .inr ⟨hblank, by rw [Fluent.template, hnone]⟩
  · refine .inl ⟨String.ofList (pattern.flatMap Element.content), ?_, by rw [String.toList_ofList, hpattern]⟩
    rw [Fluent.template, hvalue]
    simp only [resolve_text _ htexts]

/-! ## Compilation -/

/-- A text is blank when nothing is left of it without its blanks. -/
theorem isBlankText_iff : isBlankText raw = true ↔ nonblank raw.toList = [] := by
  rw [nonblank_eq_nil_iff, isBlankText, List.all_eq_true]

/-- A blank text is never read as a message: it becomes a template that shows it as it is. -/
theorem compile_of_isBlankText (h : isBlankText raw = true) : engine.compile pair key raw = .ok fun _ => .ok raw :=
  if_pos h

/-- A text that is not blank becomes the template of the message that is read from it. -/
theorem compile_eq_ok_iff (hblank : isBlankText raw = false) :
    engine.compile pair key raw = .ok template ↔
      ∃ message tag, message? (indented raw.toList) = some message ∧ LanguageTag.ofText? pair.locale.name = some tag ∧
        template = Fluent.template (Plural.ruleOf tag) key message := by
  have hcompile : engine.compile pair key raw = _ := if_neg (by simp [hblank])
  rw [hcompile]
  cases message? (indented raw.toList) with
  | none => simp
  | some message =>
    cases LanguageTag.ofText? pair.locale.name with
    | none => simp
    | some tag => simp [eq_comm]

/-- The template of a text without placeables gives what precedes the first line that begins with a point, or it has no
value if that is blank and the text is not. -/
theorem template_text (h : engine.compile pair key raw = .ok template) (hopen : '{' ∉ raw.toList)
    (args : Option Args) :
    (∃ text, template args = .ok text ∧ nonblank text.toList = nonblank (beforePoint raw.toList)) ∨
      (nonblank raw.toList ≠ [] ∧ nonblank (beforePoint raw.toList) = [] ∧
        template args = .error (.parse key .noValue)) := by
  cases hblank : isBlankText raw with
  | true =>
    rw [compile_of_isBlankText hblank] at h
    obtain rfl := Except.ok.inj h
    have hraw := isBlankText_iff.1 hblank
    have hbefore : nonblank (beforePoint raw.toList) = [] :=
      nonblank_eq_nil_iff.2 fun c hc => nonblank_eq_nil_iff.1 hraw c (mem_of_mem_beforePoint hc)
    exact .inl ⟨raw, rfl, hraw.trans hbefore.symm⟩
  | false =>
    obtain ⟨message, tag, hmessage, -, rfl⟩ := (compile_eq_ok_iff hblank).1 h
    have hholds := message?_text (by rwa [mem_indented (by decide) (by decide)]) hmessage
    have htext := template_of_holds hholds (Plural.ruleOf tag) key args
    rw [nonblank_beforePoint_indented] at htext
    refine htext.imp_right fun herror => ⟨fun hraw => ?_, herror⟩
    rw [← isBlankText_iff, hblank] at hraw
    contradiction

/-- **Text is kept.** Let a text without placeables be accepted. Its template gives the whole text, up to blanks, for
all arguments if and only if no line but the first begins, behind spaces, with a point. In any case it gives what
precedes the first such line, or an error if that is blank. -/
theorem compile_keeps_text (h : engine.compile pair key raw = .ok template) (hopen : '{' ∉ raw.toList) :
    ((∀ args, ∃ text, template args = .ok text ∧ nonblank text.toList = nonblank raw.toList) ↔
      ¬ HasPointLine raw.toList) ∧
    ∀ args, (∃ text, template args = .ok text ∧ nonblank text.toList = nonblank (beforePoint raw.toList)) ∨
      (nonblank (beforePoint raw.toList) = [] ∧ template args = .error (.parse key .noValue)) := by
  have htext := template_text h hopen
  rw [← nonblank_beforePoint_eq_iff]
  refine ⟨⟨fun hwhole => ?_, fun heq args => ?_⟩, fun args => (htext args).imp_right And.right⟩
  · obtain ⟨text, hok, hraw⟩ := hwhole none
    rcases htext none with ⟨text', hok', hbefore⟩ | ⟨-, -, herror⟩
    · obtain rfl := Except.ok.inj (hok.symm.trans hok')
      exact hbefore.symm.trans hraw
    · simp [hok] at herror
  · rcases htext args with ⟨text, hok, hbefore⟩ | ⟨hraw, hblank, -⟩
    · exact ⟨text, hok, hbefore.trans heq⟩
    · exact absurd (heq.symm.trans hblank) hraw

/-- Blank lines and indentation do not keep a text from being given whole. -/
theorem compile_keeps_lines :
    let raw := "One,\n\n  two\nthree."
    ∃ template, engine.compile ⟨⟨"en"⟩, ⟨"app"⟩⟩ ["count"] raw = .ok template ∧ '{' ∉ raw.toList ∧
      ∀ args, ∃ text, template args = .ok text ∧ nonblank text.toList = nonblank raw.toList := by
  intro raw
  have hmessage : message? (indented raw.toList) = some ⟨some [.text "One,\n", .text "\n", .text "  two\n",
    .text "three."], []⟩ := by cbv
  have hcompile : engine.compile ⟨⟨"en"⟩, ⟨"app"⟩⟩ ["count"] raw = .ok _ := (compile_eq_ok_iff (by decide)).2
    ⟨_, { language := "en" }, hmessage, by cbv, rfl⟩
  have hopen : '{' ∉ raw.toList := by decide
  have hnone : ¬ HasPointLine raw.toList := nonblank_beforePoint_eq_iff.1 (by decide)
  exact ⟨_, hcompile, hopen, (compile_keeps_text hcompile hopen).1.2 hnone⟩

/-- A line that begins with a point can be lost: it is read as an attribute, and nothing refers to it. -/
theorem attribute_is_lost :
    let raw := "Hello\n.note = there"
    '{' ∉ raw.toList ∧ '}' ∉ raw.toList ∧
      ∃ template, engine.compile ⟨⟨"en"⟩, ⟨"app"⟩⟩ ["greeting"] raw = .ok template ∧
        template none = .ok "Hello" ∧ nonblank "Hello".toList ≠ nonblank raw.toList := by
  intro raw
  have hmessage : message? (indented raw.toList) = some ⟨some [.text "Hello"], [("note", [.text "there"])]⟩ := by cbv
  have hcompile : engine.compile ⟨⟨"en"⟩, ⟨"app"⟩⟩ ["greeting"] raw = .ok _ := (compile_eq_ok_iff (by decide)).2
    ⟨_, { language := "en" }, hmessage, by cbv, rfl⟩
  refine ⟨by decide, by decide, _, hcompile, ?_, by decide⟩
  rw [Fluent.template]
  simp only [resolve_text _ (List.forall_mem_singleton.2 trivial : ∀ element ∈ [Element.text "Hello"], element.IsText)]
  rfl

end Phrasebook.Fluent
