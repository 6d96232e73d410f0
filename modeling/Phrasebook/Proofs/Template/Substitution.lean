import Mathlib
import Phrasebook.Template.Placeholder

/-!
# Placeholders are substituted at once

A placeholder is a pair of braces around a text that has no brace and is not blank (`Segment.IsContent`), wherever one
stands in a text. Two of them never overlap, so they can be replaced independently of each other
(`Segment.Substituted`). Main statement: formatting replaces them all by their arguments and changes nothing else
(`Engine.interpolation_substitutes`).
-/

namespace Phrasebook

namespace Segment

/-- What may stand between the braces of a placeholder. -/
def IsContent (content : List Char) : Prop :=
  (∀ c ∈ content, c ≠ '{' ∧ c ≠ '}') ∧ trim content ≠ []

/-- The placeholder stands somewhere in the text. -/
def Occurs (content cs : List Char) : Prop :=
  IsContent content ∧ (placeholder content).source <:+: cs

/-- The name of the argument that a placeholder stands for. -/
def argumentName (content : List Char) : String :=
  String.ofList (trim content)

/-- The argument that a placeholder stands for, if it is passed. -/
def argument? (args : Option Args) (content : List Char) : Option Arg :=
  args.bind (·.get? (argumentName content))

/-- The second text is the first one with its placeholders replaced by the arguments they name. A text without
placeholders is plain; otherwise the two sides of a placeholder, whichever it is, are treated each on their own, and the
placeholder is kept if its argument is not passed. -/
inductive Substituted (args : Option Args) : List Char → List Char → Prop
  | plain {cs : List Char} (hnone : ∀ content, ¬ Occurs content cs) : Substituted args cs cs
  | replaced {before content after before' after' : List Char} {value : Arg} (hcontent : IsContent content)
      (hvalue : argument? args content = some value) (hbefore : Substituted args before before')
      (hafter : Substituted args after after') :
      Substituted args (before ++ (placeholder content).source ++ after) (before' ++ value.display.toList ++ after')
  | kept {before content after before' after' : List Char} (hcontent : IsContent content)
      (hvalue : argument? args content = none) (hbefore : Substituted args before before')
      (hafter : Substituted args after after') :
      Substituted args (before ++ (placeholder content).source ++ after)
        (before' ++ (placeholder content).source ++ after')

variable {cs content rest before after text : List Char} {args : Option Args}

/-! ## Scanning -/

/-- An opening brace begins a placeholder when the next brace closes it and something stands between them. -/
theorem content?_eq_some_iff :
    content? cs = some (content, rest) ↔ IsContent content ∧ cs = content ++ '}' :: rest := by
  constructor
  · intro h
    refine ⟨?_, eq_of_content? h⟩
    unfold content? at h
    simp only at h
    split at h
    · split at h
      · simp at h
      · rename_i hblank
        obtain ⟨rfl, -⟩ := Prod.mk.inj (Option.some.inj h)
        refine ⟨fun c hc => by simpa using List.mem_takeWhile_imp hc, fun htrim => hblank ?_⟩
        exact List.all_eq_true.2 (trim_eq_nil_iff.1 htrim)
    · simp at h
  · rintro ⟨⟨hbraces, hblank⟩, rfl⟩
    have hcontent : ∀ c ∈ content, (!(c == '{' || c == '}')) = true := by simpa using hbraces
    have hall : ¬ content.all isBlank = true := fun h => hblank (trim_eq_nil_iff.2 (List.all_eq_true.1 h))
    unfold content?
    simp only
    rw [List.dropWhile_append_of_pos hcontent, List.takeWhile_append_of_pos hcontent]
    simp [hall]

/-- A brace that is closed begins a placeholder. -/
theorem segments_cons_of_content? (h : content? cs = some (content, rest)) :
    segments ('{' :: cs) = .placeholder content :: segments rest := by
  rw [segments]
  split
  · rename_i hsome
    rw [h] at hsome
    obtain ⟨rfl, rfl⟩ := Prod.mk.inj (Option.some.inj hsome)
    rfl
  · rename_i hnone
    rw [h] at hnone
    contradiction

/-- A brace that is not closed is text. -/
theorem segments_cons_of_content?_eq_none (h : content? cs = none) :
    segments ('{' :: cs) = .literal '{' :: segments cs := by
  rw [segments]
  split
  · rename_i hsome
    rw [h] at hsome
    contradiction
  · rfl

/-- A brace that begins no placeholder begins none when one follows further right: that one's opening brace would have
to stand inside. -/
theorem content?_append_eq_none (h : content? cs = none) : content? (cs ++ '{' :: rest) = none := by
  rw [Option.eq_none_iff_forall_not_mem]
  rintro ⟨content, after⟩ hsome
  obtain ⟨hcontent, heq⟩ := content?_eq_some_iff.1 hsome
  rcases List.append_eq_append_iff.1 heq with ⟨between, rfl, hbetween⟩ | ⟨between, rfl, hbetween⟩
  · rcases between with _ | ⟨c, between⟩
    · simp at hbetween
    · obtain ⟨rfl, -⟩ := List.cons.inj hbetween
      exact (hcontent.1 '{' (by simp)).1 rfl
  · rcases between with _ | ⟨c, between⟩
    · simp at hbetween
    · obtain ⟨rfl, -⟩ := List.cons.inj hbetween
      rw [content?_eq_some_iff.2 ⟨hcontent, rfl⟩] at h
      contradiction

/-- Where a placeholder stands it is cut out, and the text on either side is cut as if it stood alone. -/
theorem segments_append_placeholder (hcontent : IsContent content) (before after : List Char) :
    segments (before ++ (placeholder content).source ++ after) =
      segments before ++ .placeholder content :: segments after := by
  fun_induction segments before with
  | case1 =>
    have hscan : content? (content ++ '}' :: after) = some (content, after) := content?_eq_some_iff.2 ⟨hcontent, rfl⟩
    simpa [source] using segments_cons_of_content? hscan
  | case2 cs found rest hfound ih =>
    obtain ⟨hinner, rfl⟩ := content?_eq_some_iff.1 hfound
    have hscan : content? (found ++ '}' :: rest ++ (placeholder content).source ++ after) =
        some (found, rest ++ (placeholder content).source ++ after) :=
      content?_eq_some_iff.2 ⟨hinner, by simp⟩
    rw [List.cons_append, List.cons_append, segments_cons_of_content? hscan, ih, List.cons_append]
  | case3 cs hnone ih =>
    have hscan : content? (cs ++ (placeholder content).source ++ after) = none := by
      rw [List.append_assoc]
      exact content?_append_eq_none hnone
    rw [List.cons_append, List.cons_append, segments_cons_of_content?_eq_none hscan, ih, List.cons_append]
  | case4 c cs hopen ih =>
    rw [List.cons_append, List.cons_append, segments, ih, List.cons_append]
    exact hopen

/-- The placeholders that are cut out of a text are those that stand in it. -/
theorem mem_segments_iff : .placeholder content ∈ segments cs ↔ Occurs content cs := by
  constructor
  · intro hmem
    refine ⟨?_, ?_⟩
    · fun_induction segments cs with
      | case1 => simp at hmem
      | case2 cs found rest hfound ih =>
        rcases List.mem_cons.1 hmem with heq | hmem
        · obtain rfl := placeholder.inj heq
          exact (content?_eq_some_iff.1 hfound).1
        · exact ih hmem
      | case3 cs hnone ih => exact ih (by simpa using hmem)
      | case4 c cs hopen ih => exact ih (by simpa using hmem)
    · obtain ⟨left, right, hsplit⟩ := List.append_of_mem hmem
      refine ⟨left.flatMap source, right.flatMap source, ?_⟩
      rw [← flatten_segments cs, hsplit]
      simp
  · rintro ⟨hcontent, before, after, rfl⟩
    rw [segments_append_placeholder hcontent]
    simp

/-! ## Filling -/

/-- A placeholder that names an argument is filled with it. -/
theorem fill_of_argument? {value : Arg} (h : argument? args content = some value) :
    fill args (.placeholder content) = value.display.toList := by
  have hget : (args.bind fun args => args.get? (String.ofList (trim content))) = some value := h
  simp only [fill, hget]

/-- A placeholder that names no argument is left as it was written. -/
theorem fill_of_argument?_eq_none (h : argument? args content = none) :
    fill args (.placeholder content) = (placeholder content).source := by
  have hget : (args.bind fun args => args.get? (String.ofList (trim content))) = none := h
  simp only [fill, hget]

/-- What a text becomes depends on the arguments that its placeholders name, and on no others. -/
theorem flatMap_fill_congr {args' : Option Args}
    (h : ∀ content, Occurs content cs → argument? args content = argument? args' content) :
    (segments cs).flatMap (fill args) = (segments cs).flatMap (fill args') := by
  refine List.flatMap_congr fun segment hmem => ?_
  cases segment with
  | literal c => rfl
  | placeholder content =>
    have hsame := h content (mem_segments_iff.1 hmem)
    cases hvalue : argument? args' content with
    | none => rw [fill_of_argument?_eq_none hvalue, fill_of_argument?_eq_none (hsame.trans hvalue)]
    | some value => rw [fill_of_argument? hvalue, fill_of_argument? (hsame.trans hvalue)]

/-- Without arguments every placeholder is left as it was written. -/
theorem fill_none : fill none = source := by
  funext segment
  cases segment <;> rfl

/-- A text none of whose placeholders has an argument stays as it is. -/
theorem flatMap_fill_eq_self (h : ∀ content, Occurs content cs → argument? args content = none) :
    (segments cs).flatMap (fill args) = cs := by
  have hnone : ∀ content, Occurs content cs → argument? args content = argument? none content := h
  rw [flatMap_fill_congr hnone, fill_none, flatten_segments]

/-! ## Substitution -/

/-- There is only one way to substitute: segment by segment. -/
theorem Substituted.eq_flatMap_fill (h : Substituted args cs text) : text = (segments cs).flatMap (fill args) := by
  induction h with
  | plain hnone => exact (flatMap_fill_eq_self fun content hoccurs => absurd hoccurs (hnone content)).symm
  | replaced hcontent hvalue hbefore hafter ihbefore ihafter =>
    rw [segments_append_placeholder hcontent, List.flatMap_append, List.flatMap_cons, fill_of_argument? hvalue,
      ← ihbefore, ← ihafter, List.append_assoc]
  | kept hcontent hvalue hbefore hafter ihbefore ihafter =>
    rw [segments_append_placeholder hcontent, List.flatMap_append, List.flatMap_cons,
      fill_of_argument?_eq_none hvalue, ← ihbefore, ← ihafter, List.append_assoc]

/-- Every text has a substitution: it is split at any of its placeholders, and its sides are shorter. -/
theorem exists_substituted (args : Option Args) (cs : List Char) : ∃ text, Substituted args cs text := by
  induction hlength : cs.length using Nat.strong_induction_on generalizing cs with
  | _ n ih =>
    by_cases hnone : ∀ content, ¬ Occurs content cs
    · exact ⟨cs, .plain hnone⟩
    · -- any placeholder will do: the sides are shorter, so they have their substitutions by `ih`
      push Not at hnone
      obtain ⟨content, hcontent, before, after, rfl⟩ := hnone
      have hshort : before.length < n ∧ after.length < n := by
        simp only [source, List.length_append, List.length_cons] at hlength
        omega
      obtain ⟨before', hbefore⟩ := ih _ hshort.1 before rfl
      obtain ⟨after', hafter⟩ := ih _ hshort.2 after rfl
      cases hvalue : argument? args content with
      | none => exact ⟨_, .kept hcontent hvalue hbefore hafter⟩
      | some value => exact ⟨_, .replaced hcontent hvalue hbefore hafter⟩

/-- The filled segments of a text are its substitution, and the only one. -/
theorem substituted_iff : Substituted args cs text ↔ text = (segments cs).flatMap (fill args) := by
  refine ⟨Substituted.eq_flatMap_fill, ?_⟩
  rintro rfl
  obtain ⟨text, htext⟩ := exists_substituted args cs
  exact htext.eq_flatMap_fill ▸ htext

end Segment

open Segment

/-- **Simultaneous substitution.** Every text is a template, and what the template gives is the text with its
placeholders replaced by the arguments they name. Without such arguments that is the text itself, and no other arguments
matter. -/
theorem Engine.interpolation_substitutes (raw : String) :
    ∃ template, (∀ pair key, Engine.interpolation.compile pair key raw = .ok template) ∧
      (∀ args, ∃ output, template args = .ok output ∧
        ∀ text, Substituted args raw.toList text ↔ text = output.toList) ∧
      template none = .ok raw ∧
      (∀ args, (∀ content, Occurs content raw.toList → argument? args content = none) → template args = .ok raw) ∧
      (∀ args args', (∀ content, Occurs content raw.toList → argument? args content = argument? args' content) →
        template args = template args') ∧
      ∀ args unused value, (∀ content, Occurs content raw.toList → argumentName content ≠ unused) →
        template (some (args.set unused value)) = template (some args) := by
  have hself (args : Option Args) (h : ∀ content, Occurs content raw.toList → argument? args content = none) :
      interpolate raw args = raw := by
    rw [interpolate, flatMap_fill_eq_self h, String.ofList_toList]
  have hcongr (args args' : Option Args)
      (h : ∀ content, Occurs content raw.toList → argument? args content = argument? args' content) :
      interpolate raw args = interpolate raw args' := by
    rw [interpolate, interpolate, flatMap_fill_congr h]
  refine ⟨fun args => .ok (interpolate raw args), fun _ _ => rfl, fun args => ⟨_, rfl, fun text => ?_⟩,
    congrArg _ (hself none fun _ _ => rfl), fun args h => congrArg _ (hself args h),
    fun args args' h => congrArg _ (hcongr args args' h), fun args unused value h => congrArg _ (hcongr _ _ ?_)⟩
  · rw [substituted_iff, interpolate, String.toList_ofList]
  · intro content hoccurs
    simp [argument?, h content hoccurs]

/-- Braces that make no placeholder stay, and so does a placeholder whose argument is not passed. -/
example : interpolate "{missing}, { x }, {{x}}, { }" (some (Args.ofList [("x", .text "{y}"), ("y", .text "Y")])) =
    "{missing}, {y}, {{y}}, { }" := by
  cbv

end Phrasebook
