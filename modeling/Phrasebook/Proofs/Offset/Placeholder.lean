import Phrasebook.Proofs.Offset.Loop
import Phrasebook.Proofs.Offset.Slice
import Phrasebook.Proofs.Template.Substitution

/-!
# Scanning placeholders by offset

A template text can be cut in one pass that drops what it has read from the front of the rest (`spanPass`). Main
statements: the pass gives the segments of the text, the literal characters between two placeholders gathered in one
span (`spans?_eq_some`), and the spans are filled as the segments are (`interpolate?_eq_some`).
-/

namespace Phrasebook

namespace Segment

variable {content cs : List Char} {c : Char}

/-- Whether an opening brace begins a placeholder is decided at the next brace. -/
theorem content?_append_brace (hcontent : ∀ d ∈ content, (d == '{' || d == '}') = false)
    (hc : (c == '{' || c == '}') = true) :
    content? (content ++ c :: cs) =
      if c = '}' then if trim content = [] then none else some (content, cs) else none := by
  have hnot : ∀ d ∈ content, (!(d == '{' || d == '}')) = true := fun d hd => by rw [hcontent d hd]; rfl
  have hblank : content.all isBlank = true ↔ trim content = [] := List.all_eq_true.trans trim_eq_nil_iff.symm
  unfold content?
  simp only
  rw [List.dropWhile_append_of_pos hnot, List.takeWhile_append_of_pos hnot,
    List.dropWhile_cons_of_neg (by simp [hc]), List.takeWhile_cons_of_neg (by simp [hc]), List.append_nil]
  by_cases hclosing : c = '}'
  · subst hclosing
    simp only [hblank, if_true]
  · simp [hclosing]

end Segment

namespace Offset

/-- A span of a template text: literal text, or a placeholder with the name of its argument and its source. -/
inductive Span where
  | literal (text : String)
  | placeholder (name source : String)
  deriving DecidableEq, Repr

/-- How far a pass has come: the spans so far, the literal text behind them, and the rest of the text. -/
structure Cut where
  spans : List Span
  literal : String
  rest : String

/-- The span of a literal text, unless the text is empty. -/
def literalSpan (text : String) : List Span :=
  if text.isEmpty then [] else [.literal text]

/-- The placeholder that an opening brace begins, if it begins one: the name of its argument, and where its closing
brace stands in the text behind the opening one. -/
def placeholderAt? (after : String) : Option (Option (String × Nat)) :=
  match charOffset? after fun c => c == '{' || c == '}' with
  | none => some none
  | some closing => do
    let tail ← sliceFrom? after closing
    match stripStart? tail '}' with
    | none => some none
    | some _ => do
      let content ← sliceTo? after closing
      let name := Segment.argumentName content.toList
      some (if name.isEmpty then none else some (name, closing))

/-- Cut a text into spans. A round takes the next opening brace; one that begins no placeholder is literal text. -/
def spanPass : Loop Cut (List Span) where
  left state := state.rest.utf8ByteSize
  round state :=
    match charOffset? state.rest (· == '{') with
    | none => some (.done (state.spans ++ literalSpan (state.literal ++ state.rest)))
    | some opening => do
      let after ← sliceFrom? state.rest (opening + 1)
      match ← placeholderAt? after with
      | some (name, closing) =>
        let before ← sliceTo? state.rest opening
        let source ← slice? state.rest opening (opening + closing + 2)
        let rest ← sliceFrom? after (closing + 1)
        some (.next ⟨state.spans ++ literalSpan (state.literal ++ before) ++ [.placeholder name source], "", rest⟩)
      | none =>
        let before ← sliceTo? state.rest (opening + 1)
        some (.next ⟨state.spans, state.literal ++ before, after⟩)

/-- The spans of a text. -/
def spans? (raw : String) : Option (List Span) :=
  spanPass.run ⟨[], "", raw⟩

/-- The text of a span for the given arguments. -/
def Span.fill (args : Option Args) : Span → String
  | .literal text => text
  | .placeholder name source =>
    match args.bind fun args => args.get? name with
    | some value => value.display
    | none => source

/-- Replace the placeholders of a text by arguments. -/
def interpolate? (raw : String) (args : Option Args) : Option String :=
  (spans? raw).map fun spans => String.join (spans.map (Span.fill args))

open Segment

/-- The spans of segments that follow a literal text. -/
def gather (literal : String) : List Segment → List Span
  | [] => literalSpan literal
  | .literal c :: segments => gather (literal.push c) segments
  | .placeholder content :: segments =>
    literalSpan literal ++
      .placeholder (argumentName content) (String.ofList (placeholder content).source) :: gather "" segments

/-- Text without an opening brace is literal. -/
theorem gather_segments_append (literal : String) {plain : List Char} (hplain : '{' ∉ plain) (cs : List Char) :
    gather literal (segments (plain ++ cs)) = gather (literal ++ String.ofList plain) (segments cs) := by
  induction plain generalizing literal with
  | nil => simp
  | cons c plain ih =>
    have hrest : literal ++ String.ofList (c :: plain) = literal.push c ++ String.ofList plain := by
      rw [← String.toList_inj]
      simp
    rw [List.cons_append, segments, gather, ih _ fun hmem => hplain (List.mem_cons_of_mem c hmem), hrest]
    rintro rfl
    exact hplain List.mem_cons_self

/-- A placeholder is found by offsets where it is found by characters, and never with a bad slice. -/
theorem placeholderAt?_eq_some (after : String) :
    placeholderAt? after = some ((content? after.toList).map fun (content, _) =>
      (argumentName content, (String.ofList content).utf8ByteSize)) := by
  cases hbrace : charOffset? after fun c => c == '{' || c == '}' with
  | none =>
    -- a placeholder would end with a brace, and there is none
    have hnone : content? after.toList = none := by
      refine Option.eq_none_iff_forall_not_mem.2 fun ⟨content, rest⟩ hmem => ?_
      have hclosing := charOffset?_eq_none_iff.1 hbrace '}' (by simp [eq_of_content? hmem])
      simp at hclosing
    simp only [placeholderAt?, hbrace, hnone, Option.map_none]
  | some closing =>
    obtain ⟨content, c, rest, rfl, rfl, hc, hcontent⟩ := charOffset?_eq_some_iff.1 hbrace
    have htail : sliceFrom? (content ++ (String.singleton c ++ rest)) content.utf8ByteSize =
        some (String.ofList (c :: rest.toList)) := by
      rw [sliceFrom?_append, String.ofList_cons, String.ofList_toList]
    have htext : (content ++ (String.singleton c ++ rest)).toList = content.toList ++ c :: rest.toList := by simp
    -- both scanners decide at this brace
    simp only [placeholderAt?, hbrace, htail, htext, content?_append_brace hcontent hc, stripStart?_ofList_cons,
      sliceTo?_append, Option.bind_eq_bind, Option.bind_some]
    by_cases hclosing : c = '}'
    · have hname : (argumentName content.toList).isEmpty = true ↔ trim content.toList = [] := by
        rw [String.isEmpty_iff, argumentName, String.ofList_eq_empty_iff]
      simp only [if_pos hclosing, hname]
      by_cases hblank : trim content.toList = []
      · rw [if_pos hblank, if_pos hblank, Option.map_none]
      · rw [if_neg hblank, if_neg hblank, Option.map_some, String.ofList_toList]
    · simp only [if_neg hclosing, Option.map_none]

/-- A placeholder is a slice: a brace takes one byte. -/
theorem slice?_placeholder (before rest : String) (content : List Char) :
    slice? (before ++ (String.singleton '{' ++ (String.ofList content ++ (String.singleton '}' ++ rest))))
      before.utf8ByteSize (before.utf8ByteSize + (String.ofList content).utf8ByteSize + 2) =
        some (String.ofList (placeholder content).source) := by
  have hsource : String.ofList (placeholder content).source =
      String.singleton '{' ++ String.ofList content ++ String.singleton '}' := by
    simp [← String.toList_inj, source]
  refine slice?_eq_some_iff.2 ⟨before, rest, ?_, rfl, ?_⟩
  · simp only [hsource, String.append_assoc]
  · have hopen : (String.singleton '{').utf8ByteSize = 1 := rfl
    have hclose : (String.singleton '}').utf8ByteSize = 1 := rfl
    simp only [hsource, String.utf8ByteSize_append, hopen, hclose]
    omega

/-- What the pass is meant to give from a state on: the spans so far, and behind them those of the rest. -/
def MeantSpans (state : Cut) (result : List Span) : Prop :=
  result = state.spans ++ gather state.literal (segments state.rest.toList)

/-- A round takes a placeholder, or passes over a brace, or takes the rest; what is cut with what is left to cut stays
the same. -/
theorem spanPass_keeps : spanPass.Keeps MeantSpans := by
  rintro ⟨spans, literal, rest⟩ result rfl
  cases hopening : charOffset? rest (· == '{') with
  | none =>
    left
    have hgather := gather_segments_append literal (charOffset?_beq_eq_none_iff.1 hopening) []
    rw [List.append_nil, String.ofList_toList] at hgather
    simp only [spanPass, hopening, hgather]
    rw [segments, gather]
  | some opening =>
    obtain ⟨plain, after, rfl, rfl, hplain⟩ := exists_of_charOffset?_beq hopening
    have hopen : (String.singleton '{').utf8ByteSize = 1 := rfl
    have hclose : (String.singleton '}').utf8ByteSize = 1 := rfl
    have hafter := sliceFrom?_singleton (c := '{') plain after rfl
    -- on characters, what stands before the brace is literal as well
    have htext : (plain ++ (String.singleton '{' ++ after)).toList = plain.toList ++ '{' :: after.toList := by simp
    have hgather := gather_segments_append literal hplain ('{' :: after.toList)
    rw [String.ofList_toList] at hgather
    simp only [htext, hgather, spanPass, hopening, hafter, placeholderAt?_eq_some, Option.bind_eq_bind,
      Option.bind_some]
    cases hscan : content? after.toList with
    | none =>
      have hbefore := sliceTo?_singleton (c := '{') plain after rfl
      have hliteral : literal ++ (plain ++ String.singleton '{') = (literal ++ plain).push '{' := by
        simp [← String.toList_inj]
      simp only [Option.map_none, hbefore, Option.bind_some]
      refine .inr ⟨_, rfl, ?_, ?_⟩
      · simp only [String.utf8ByteSize_append, hopen]
        omega
      · rw [MeantSpans, segments_cons_of_content?_eq_none hscan, gather, hliteral]
    | some found =>
      obtain ⟨content, rest⟩ := found
      obtain rfl : after = String.ofList content ++ (String.singleton '}' ++ String.ofList rest) := by
        rw [← String.toList_inj, eq_of_content? hscan]
        simp
      have hrest := sliceFrom?_singleton (c := '}') (String.ofList content) (String.ofList rest) rfl
      simp only [Option.map_some, sliceTo?_append, slice?_placeholder, hrest, Option.bind_some]
      refine .inr ⟨_, rfl, ?_, ?_⟩
      · simp only [String.utf8ByteSize_append, hopen, hclose]
        omega
      · rw [MeantSpans, segments_cons_of_content? hscan, gather, String.toList_ofList]
        simp only [List.append_assoc, List.singleton_append]

/-- The pass ends, without a bad slice, with the segments of the text. -/
theorem spanPass_completes (raw : String) :
    spanPass.Completes ⟨[], "", raw⟩ (gather "" (segments raw.toList)) :=
  spanPass_keeps.completes rfl

/-- Cutting a text by offsets gives the segments of its characters. -/
theorem spans?_eq_some (raw : String) : spans? raw = some (gather "" (segments raw.toList)) :=
  (spanPass_completes raw).run_eq

/-- A literal text is filled in as it is, even if there is no span for it. -/
theorem join_literalSpan (literal : String) (args : Option Args) :
    String.join ((literalSpan literal).map (Span.fill args)) = literal := by
  by_cases hliteral : literal = ""
  · simp [literalSpan, hliteral]
  · simp [literalSpan, hliteral, Span.fill]

/-- A placeholder is filled as its span is. -/
theorem fill_placeholder (content : List Char) (args : Option Args) :
    Span.fill args (.placeholder (argumentName content) (String.ofList (placeholder content).source)) =
      String.ofList (Segment.fill args (.placeholder content)) := by
  simp only [Span.fill, Segment.fill, argumentName]
  cases args.bind fun args => args.get? (String.ofList (trim content)) with
  | some value => rw [String.ofList_toList]
  | none => rfl

/-- Neighbouring literals may be joined to one span: what is filled in is the same. -/
theorem join_fill_gather (literal : String) (segments : List Segment) (args : Option Args) :
    String.join ((gather literal segments).map (Span.fill args)) =
      literal ++ String.ofList (segments.flatMap (Segment.fill args)) := by
  fun_induction gather literal segments with
  | case1 literal =>
    rw [join_literalSpan]
    simp
  | case2 literal c segments ih =>
    rw [ih, ← String.toList_inj]
    simp [Segment.fill]
  | case3 literal content segments ih =>
    rw [List.map_append, String.join_append, join_literalSpan, List.map_cons, String.join_cons, fill_placeholder, ih,
      String.empty_append, List.flatMap_cons, String.ofList_append]

/-- Replacing placeholders by offsets is replacing them. -/
theorem interpolate?_eq_some (raw : String) (args : Option Args) :
    interpolate? raw args = some (interpolate raw args) := by
  rw [interpolate?, spans?_eq_some, Option.map_some, join_fill_gather, String.empty_append]
  rfl

end Offset
end Phrasebook
