import Mathlib.Data.List.Infix
import Phrasebook.Proofs.Fluent.Lines

/-!
# Reading texts without placeables

Where a text holds no braces, a pattern is read from it slice by slice, and nothing but blanks is lost up to the first
line that does not go on with the pattern (`elements?_text`). If a message is read from such a text, that line begins
with a point (`message?_text`): every other line that does not go on with the pattern is a fault.
-/

namespace Phrasebook.Fluent

/-- The text of a part of a pattern. -/
def RawElement.content : RawElement → List Char
  | .text content .. => content
  | .placeable .. => []

/-- A part that is text, with nothing but blanks in it unless it is solid. -/
def RawElement.IsText : RawElement → Prop
  | .text content _ _ solid => solid = false → nonblank content = []
  | .placeable .. => False

/-- The text of an element. -/
def Element.content : Element → List Char
  | .text content => content.toList
  | .placeable _ => []

/-- An element that is text. -/
def Element.IsText : Element → Prop
  | .text _ => True
  | .placeable _ => False

/-- No further line of a pattern is read: the text is over, or a line begins here that is not blank. -/
def Stops (cs : List Char) : Prop :=
  cs = [] ∨ ∃ c rest, cs.dropWhile (· = ' ') = c :: rest ∧ c ≠ '\n' ∧ c ≠ '\r'

variable {cs rest content : List Char} {fuel indent : Nat} {atLineStart solid : Bool} {ending : SliceEnd}
  {elements : List RawElement}

/-! ## Slices -/

/-- A slice is a part of the text; nothing but blanks is left out of it, and lines that begin with a point can only
begin behind it. -/
theorem slice?_text (hopen : '{' ∉ cs) (h : slice? cs = some (content, solid, ending, rest)) :
    ∃ taken, cs = taken ++ rest ∧ nonblank content = nonblank taken ∧ (solid = false → nonblank content = []) ∧
      beforePoint cs = taken ++ if ending = .lineEnd then lineBeforePoint rest else beforePoint rest := by
  unfold slice? at h
  generalize htext : (cs.takeWhile fun c => c ≠ '\n' && c ≠ '{' && c ≠ '}') = text at h
  have hcs : cs = text ++ cs.drop text.length := List.prefix_append_drop (htext ▸ List.takeWhile_prefix _)
  have hline : '\n' ∉ text := fun hmem => by
    rw [← htext] at hmem
    simpa using List.mem_takeWhile_imp hmem
  dsimp only at h
  split at h
  · -- the text ends
    rename_i hdrop
    obtain ⟨rfl, rfl, rfl, rfl⟩ := by simpa using h
    rw [hdrop, List.append_nil] at hcs
    refine ⟨text, by rw [hcs, List.append_nil], rfl, fun hsolid => nonblank_spaces (by simpa using hsolid), ?_⟩
    rw [hcs]
    simpa using beforePoint_append hline []
  · rename_i after hdrop
    rw [hdrop] at hcs
    split at h
    · -- a carriage return is left out of the slice, and the line feed is left for the next one
      rename_i hlast
      obtain ⟨rfl, rfl, rfl, rfl⟩ := by simpa using h
      obtain ⟨part, rfl⟩ := List.getLast?_eq_some_iff.1 hlast
      refine ⟨part ++ ['\r'], hcs, by simp; rfl, fun hsolid => nonblank_spaces (by simpa using hsolid), ?_⟩
      rw [hcs, beforePoint_append hline, if_pos rfl, lineBeforePoint_of_false rfl]
    · obtain ⟨rfl, rfl, rfl, rfl⟩ := by simpa using h
      refine ⟨text ++ ['\n'], by simpa using hcs, rfl, fun hsolid => ?_, ?_⟩
      · have htext : nonblank text = [] := nonblank_spaces (by simpa using hsolid)
        rw [nonblank_append, htext]
        rfl
      · rw [hcs, beforePoint_append hline, beforePoint_newline, if_pos rfl, List.append_assoc]
        rfl
  · rename_i after hdrop
    exact absurd (hcs ▸ by simp [hdrop]) hopen
  · simp at h

/-! ## The parts of a pattern -/

/-- A slice is read behind so many spaces, and kept unless nothing but blanks is in it; the reader goes on behind
it. -/
def ReadsSlice (fuel indent : Nat) (atLineStart : Bool) (after : List Char) (elements : List RawElement)
    (rest : List Char) : Prop :=
  ∃ content solid ending middle more, slice? after = some (content, solid, ending, middle) ∧
    elements? fuel (ending = .lineEnd) middle = some (more, rest) ∧
    (elements = .text content indent atLineStart solid :: more ∨ elements = more ∧ (content = [] ∨ solid = false))

/-- A step of a reader where no placeable begins: it stops at a line that does not go on with the pattern, or reads a
slice. -/
theorem elements?_step (hopen : '{' ∉ cs) (hne : cs ≠ [])
    (h : elements? (fuel + 1) atLineStart cs = some (elements, rest)) :
    if atLineStart then
      if continuesPattern (skipSpaces cs).1 (skipSpaces cs).2 then
        ReadsSlice fuel (skipSpaces cs).1 true (skipSpaces cs).2 elements rest
      else elements = [] ∧ rest = if (skipSpaces cs).2 = [] then [] else cs
    else ReadsSlice fuel 0 false cs elements rest := by
  -- both ways to a slice end alike: it is read, the reader goes on, and the slice is dropped if nothing is in it to
  -- keep
  have reads {indent : Nat} {after content middle : List Char} {solid : Bool} {ending : SliceEnd}
      (hslice : slice? after = some (content, solid, ending, middle))
      (h : (elements? fuel (ending = .lineEnd) middle).map (fun read =>
        (if content ≠ [] && (!atLineStart || solid || content.getLast? = some '\n') then
          .text content indent atLineStart solid :: read.1 else read.1, read.2)) = some (elements, rest)) :
      ReadsSlice fuel indent atLineStart after elements rest := by
    obtain ⟨⟨more, rest'⟩, hmore, heq⟩ := Option.map_eq_some_iff.1 h
    obtain ⟨rfl, rfl⟩ := Prod.mk.inj heq
    refine ⟨content, solid, ending, middle, more, hslice, hmore, ?_⟩
    split
    · exact .inl rfl
    · rename_i hkept
      refine .inr ⟨rfl, ?_⟩
      by_contra hnot
      simp_all
  obtain ⟨c, cs, rfl⟩ := List.exists_cons_of_ne_nil hne
  have hc : c ≠ '{' := fun heq => hopen (heq ▸ List.mem_cons_self)
  rw [elements?] at h
  case x_3 => simp
  case x_4 => simpa using hc
  cases atLineStart with
  | false =>
    rw [if_neg (by simp)]
    simp only [Bool.false_and, Bool.false_eq_true, if_false] at h
    split at h
    · simp at h
    · exact reads ‹_› h
  | true =>
    rw [if_pos rfl]
    simp only [Bool.true_and, if_true, Bool.not_eq_eq_eq_not, Bool.not_true] at h
    split at h
    · rename_i hstops
      rw [if_neg (by simp [hstops])]
      obtain ⟨rfl, rfl⟩ := Prod.mk.inj (Option.some.inj h)
      exact ⟨rfl, rfl⟩
    · rename_i hgoes
      rw [if_pos (by simpa using hgoes)]
      split at h
      · simp at h
      · exact reads ‹_› h

/-- The spaces that are skipped stand before what follows them, which begins with no space. -/
theorem skipSpaces_spec (cs : List Char) :
    ∃ spaces, (∀ c ∈ spaces, c = ' ') ∧ cs = spaces ++ (skipSpaces cs).2 ∧ (skipSpaces cs).2.head? ≠ some ' ' := by
  refine ⟨cs.takeWhile (· = ' '), fun c hc => by simpa using List.mem_takeWhile_imp hc,
    List.takeWhile_append_dropWhile.symm, fun hhead => ?_⟩
  have := List.head?_dropWhile_not (fun c : Char => decide (c = ' ')) cs
  simp_all [skipSpaces]

/-- A line that goes on with the pattern does not begin with a point. -/
theorem isPointLine_of_continues (hspace : cs.head? ≠ some ' ') (h : continuesPattern indent cs = true) :
    isPointLine cs = false := by
  cases cs with
  | nil => rfl
  | cons c cs =>
    refine isPointLine_cons_of_ne (by simpa using hspace) fun hpoint => ?_
    simp [continuesPattern, hpoint] at h

/-- A line that does not go on with the pattern is not blank. -/
theorem stops_of_not_continues (hne : (skipSpaces cs).2 ≠ []) (h : continuesPattern indent (skipSpaces cs).2 = false) :
    Stops cs := by
  obtain ⟨c, after, hafter⟩ := List.exists_cons_of_ne_nil hne
  refine .inr ⟨c, after, hafter, ?_⟩
  rw [hafter, continuesPattern] at h
  split at h <;> constructor <;> rintro rfl <;> simp at h

/-- What is read of a pattern is text, up to a line that does not go on with it. Where the text is over or that line
begins with a point, what is read differs from the given text in blanks only. -/
structure ReadsText (elements : List RawElement) (rest text : List Char) : Prop where
  isText : ∀ element ∈ elements, element.IsText
  stops : Stops rest
  nonblank_eq : rest = [] ∨ isPointLine rest = true →
    nonblank (elements.flatMap RawElement.content) = nonblank text

/-- What is read behind a slice determines what is read with it. -/
theorem ReadsSlice.readsText (hopen : '{' ∉ cs) (h : ReadsSlice fuel indent atLineStart cs elements rest)
    (hmore : ∀ {atLineStart : Bool} {cs : List Char} {elements : List RawElement}, '{' ∉ cs →
      elements? fuel atLineStart cs = some (elements, rest) →
      ReadsText elements rest (if atLineStart then lineBeforePoint cs else beforePoint cs)) :
    ReadsText elements rest (beforePoint cs) := by
  obtain ⟨content, solid, ending, middle, more, hslice, hread, hkept⟩ := h
  obtain ⟨taken, rfl, hcontent, hsolid, hbefore⟩ := slice?_text hopen hslice
  have htexts := hmore (fun hmem => hopen (List.mem_append_right _ hmem)) hread
  have hbefore' (hover : rest = [] ∨ isPointLine rest = true) :
      nonblank (beforePoint (taken ++ middle)) =
        nonblank content ++ nonblank (more.flatMap RawElement.content) := by
    rw [hbefore, nonblank_append, hcontent, htexts.nonblank_eq hover]
    simp
  rcases hkept with rfl | ⟨rfl, hdropped⟩
  · constructor
    case isText => exact List.forall_mem_cons.2 ⟨hsolid, htexts.isText⟩
    case stops => exact htexts.stops
    case nonblank_eq =>
      intro hover
      rw [hbefore' hover, List.flatMap_cons, nonblank_append]
      rfl
  · have hnone : nonblank content = [] := hdropped.elim (by rintro rfl; rfl) hsolid
    constructor
    case isText => exact htexts.isText
    case stops => exact htexts.stops
    case nonblank_eq =>
      intro hover
      rw [hbefore' hover, hnone, List.nil_append]

/-- What is read of a pattern without placeables is the text before the first line that begins with a point. -/
theorem elements?_text (hopen : '{' ∉ cs) (h : elements? fuel atLineStart cs = some (elements, rest)) :
    ReadsText elements rest (if atLineStart then lineBeforePoint cs else beforePoint cs) := by
  induction fuel generalizing atLineStart cs elements with
  | zero => simp [elements?] at h
  | succ fuel ih =>
    by_cases hne : cs = []
    · subst hne
      obtain ⟨rfl, rfl⟩ := by simpa [elements?] using h
      exact ⟨by simp, .inl rfl, fun _ => by cases atLineStart <;> rfl⟩
    -- the induction is on the fuel, so what is read behind a slice is text by `ih`, and only the step is left to look
    -- at
    have hstep := elements?_step hopen hne h
    cases atLineStart with
    | false => exact ReadsSlice.readsText hopen hstep ih
    | true =>
      obtain ⟨spaces, hspaces, hcs, hhead⟩ := skipSpaces_spec cs
      have hblank : nonblank (lineBeforePoint cs) = nonblank (lineBeforePoint (skipSpaces cs).2) := by
        conv_lhs => rw [hcs]
        exact nonblank_lineBeforePoint_append hspaces _
      simp only [if_true] at hstep ⊢
      split at hstep
      · rename_i hgoes
        have hopen' : '{' ∉ (skipSpaces cs).2 := fun hmem => hopen (hcs ▸ List.mem_append_right _ hmem)
        have htexts := ReadsSlice.readsText hopen' hstep ih
        rw [← lineBeforePoint_of_false (isPointLine_of_continues hhead hgoes)] at htexts
        exact ⟨htexts.isText, htexts.stops, fun hover => (htexts.nonblank_eq hover).trans hblank.symm⟩
      · rename_i hends
        obtain ⟨rfl, rfl⟩ := hstep
        split
        · rename_i hafter
          exact ⟨by simp, .inl rfl, fun _ => by rw [hblank, hafter]; rfl⟩
        · rename_i hafter
          refine ⟨by simp, stops_of_not_continues hafter (by simpa using hends), fun hover => ?_⟩
          rw [lineBeforePoint, if_pos (hover.resolve_left hne)]
          rfl

/-! ## Putting the parts together -/

/-- Taking the common indentation off a text loses spaces only. -/
theorem RawElement.IsText.dedent {element : RawElement} (h : element.IsText) (common : Option Nat) :
    (element.dedent common).IsText ∧ nonblank (element.dedent common).content = nonblank element.content := by
  cases element with
  | placeable => exact h.elim
  | text content indent atLineStart solid =>
    refine ⟨trivial, ?_⟩
    rw [RawElement.dedent, Element.content, String.toList_ofList, nonblank_append,
      nonblank_spaces fun c hc => (List.mem_replicate.1 hc).2]
    rfl

/-- Cutting off the end of a text loses blanks only. -/
theorem Element.IsText.trimEnd {element : Element} (h : element.IsText) :
    (Fluent.trimEnd element).IsText ∧ nonblank (Fluent.trimEnd element).content = nonblank element.content := by
  cases element with
  | placeable => exact h.elim
  | text content => exact ⟨trivial, by simp [Fluent.trimEnd, Element.content, nonblank_trimRight]⟩

/-- Taking the common indentation off all texts loses spaces only. -/
theorem nonblank_flatMap_dedent (h : ∀ element ∈ elements, element.IsText) (common : Option Nat) :
    nonblank ((elements.map (RawElement.dedent common)).flatMap Element.content) =
      nonblank (elements.flatMap RawElement.content) := by
  induction elements with
  | nil => rfl
  | cons element elements ih =>
    obtain ⟨hhead, htail⟩ := List.forall_mem_cons.1 h
    simp only [List.map_cons, List.flatMap_cons, nonblank_append, (hhead.dedent common).2, ih htail]

/-- The parts behind the last solid one are blank. -/
theorem nonblank_flatMap_rdropWhile (h : ∀ element ∈ elements, element.IsText) :
    nonblank ((elements.rdropWhile (!·.isSolid)).flatMap RawElement.content) =
      nonblank (elements.flatMap RawElement.content) := by
  -- a part that is not solid holds nothing but blanks, and all parts that are dropped are of that kind
  have hdropped : nonblank ((elements.rtakeWhile (!·.isSolid)).flatMap RawElement.content) = [] := by
    refine nonblank_eq_nil_iff.2 fun c hc => ?_
    obtain ⟨element, helement, hc⟩ := List.mem_flatMap.1 hc
    have hsolid := List.mem_rtakeWhile_imp helement
    have htext := h element ((List.rtakeWhile_suffix _ _).subset helement)
    cases element with
    | placeable => exact htext.elim
    | text => exact nonblank_eq_nil_iff.1 (htext (by simpa [RawElement.isSolid] using hsolid)) c hc
  conv_rhs => rw [← List.rdropWhile_append_rtakeWhile (p := (!·.isSolid)) (l := elements)]
  rw [List.flatMap_append, nonblank_append, hdropped, List.append_nil]

/-- The elements of a pattern, before blanks are dropped from its end. -/
def keptElements (elements : List RawElement) : List Element :=
  (elements.rdropWhile (!·.isSolid)).map (RawElement.dedent (commonIndent elements))

/-- Nothing is put together of parts none of which is kept. -/
theorem assemble_of_eq_nil (h : keptElements elements = []) : assemble elements = none := by
  unfold keptElements List.rdropWhile at h
  simp only [assemble, h, List.reverse_nil]

/-- The end of the last element that is kept is cut off, and the others stay as they are. -/
theorem assemble_of_eq_concat {before : List Element} {last : Element} (h : keptElements elements = before ++ [last]) :
    assemble elements = some (before ++ [trimEnd last]) := by
  unfold keptElements List.rdropWhile at h
  simp [assemble, h]

/-- The parts that are kept hold everything that is not blank. -/
theorem keptElements_text (h : ∀ element ∈ elements, element.IsText) :
    (∀ element ∈ keptElements elements, element.IsText) ∧
      nonblank ((keptElements elements).flatMap Element.content) =
        nonblank (elements.flatMap RawElement.content) := by
  have hkept : ∀ element ∈ elements.rdropWhile (!·.isSolid), element.IsText := fun element helement =>
    h element ((List.rdropWhile_prefix _ _).subset helement)
  refine ⟨fun element helement => ?_, (nonblank_flatMap_dedent hkept _).trans (nonblank_flatMap_rdropWhile h)⟩
  obtain ⟨raw, hraw, rfl⟩ := List.mem_map.1 helement
  exact ((hkept raw hraw).dedent _).1

/-- Putting the parts together loses nothing but blanks. -/
theorem assemble_text (h : ∀ element ∈ elements, element.IsText) :
    (assemble elements = none ∧ nonblank (elements.flatMap RawElement.content) = []) ∨
      ∃ pattern, assemble elements = some pattern ∧ (∀ element ∈ pattern, element.IsText) ∧
        nonblank (pattern.flatMap Element.content) = nonblank (elements.flatMap RawElement.content) := by
  obtain ⟨htexts, hlost⟩ := keptElements_text h
  rcases List.eq_nil_or_concat (keptElements elements) with heq | ⟨before, last, heq⟩
  · exact .inl ⟨assemble_of_eq_nil heq, by rw [← hlost, heq]; rfl⟩
  · rw [List.concat_eq_append] at heq
    rw [heq] at htexts hlost
    have hlast := (htexts last (by simp)).trimEnd
    refine .inr ⟨_, assemble_of_eq_concat heq, fun element helement => ?_, ?_⟩
    · rcases List.mem_append.1 helement with hbefore | hend
      · exact htexts element (List.mem_append_left _ hbefore)
      · exact List.mem_singleton.1 hend ▸ hlast.1
    · rw [← hlost]
      simp [hlast.2]

/-! ## Patterns and messages -/

/-- A line end that is skipped ends a line that does not begin with a point, and is blank. -/
theorem skipLineEnd?_spec (h : skipLineEnd? cs = some rest) :
    rest <:+ cs ∧ isPointLine cs = false ∧ nonblank (beforePoint cs) = nonblank (lineBeforePoint rest) := by
  unfold skipLineEnd? at h
  split at h
  · obtain rfl := Option.some.inj h
    exact ⟨List.suffix_cons .., rfl, by rw [beforePoint_newline, nonblank_newline]⟩
  · obtain rfl := Option.some.inj h
    refine ⟨⟨['\r', '\n'], rfl⟩, rfl, ?_⟩
    rw [beforePoint_cons_of_ne (by decide), beforePoint_newline]
    rfl
  · simp at h

/-- Blank lines are no lines that begin with a point. -/
theorem skipBlankLines_spec (bound : Nat) (cs : List Char) :
    skipBlankLines bound cs <:+ cs ∧
      nonblank (lineBeforePoint (skipBlankLines bound cs)) = nonblank (lineBeforePoint cs) := by
  induction bound generalizing cs with
  | zero => exact ⟨List.suffix_rfl, rfl⟩
  | succ bound ih =>
    unfold skipBlankLines
    split
    · rename_i rest hrest
      obtain ⟨spaces, hspaces, hcs, -⟩ := skipSpaces_spec cs
      obtain ⟨hsuffix, hline, hbefore⟩ := skipLineEnd?_spec hrest
      refine ⟨((ih rest).1.trans hsuffix).trans (List.dropWhile_suffix _), ?_⟩
      calc nonblank (lineBeforePoint (skipBlankLines bound rest))
        _ = nonblank (beforePoint (skipSpaces cs).2) := by rw [(ih rest).2, hbefore]
        _ = nonblank (lineBeforePoint (spaces ++ (skipSpaces cs).2)) := by
          rw [nonblank_lineBeforePoint_append hspaces, lineBeforePoint_of_false hline]
        _ = nonblank (lineBeforePoint cs) := by rw [← hcs]
    · exact ⟨List.suffix_rfl, rfl⟩

/-- No blank line begins where the reader of a pattern stops. -/
theorem Stops.skipBlankLines_eq (h : Stops cs) (bound : Nat) : skipBlankLines bound cs = cs := by
  cases bound with
  | zero => rfl
  | succ bound =>
    have hnone : skipLineEnd? (skipSpaces cs).2 = none := by
      rcases h with rfl | ⟨c, rest, hcs, hline, hreturn⟩
      · rfl
      · rw [skipSpaces, hcs]
        unfold skipLineEnd?
        split
        · exact absurd (List.cons.inj ‹_›).1 hline
        · exact absurd (List.cons.inj ‹_›).1 hreturn
        · rfl
    rw [skipBlankLines, hnone]

/-- Whether a value holds the texts before the first line that begins with a point: it is missing where they are blank
only, and otherwise all text. -/
def Holds (value : Option Pattern) (cs : List Char) : Prop :=
  (value = none ∧ nonblank (beforePoint cs) = []) ∨
    ∃ pattern, value = some pattern ∧ (∀ element ∈ pattern, element.IsText) ∧
      nonblank (pattern.flatMap Element.content) = nonblank (beforePoint cs)

/-- A pattern is read up to a line that does not go on with it, and holds the texts before that line if it begins with
a point. -/
theorem pattern?_text {value : Option Pattern} (hopen : '{' ∉ cs) (h : pattern? fuel cs = some (value, rest)) :
    Stops rest ∧ (rest = [] ∨ isPointLine rest = true → Holds value cs) := by
  cases fuel with
  | zero => simp [pattern?] at h
  | succ fuel =>
    obtain ⟨spaces, hspaces, hcs, -⟩ := skipSpaces_spec cs
    have hline : '\n' ∉ spaces := fun hmem => absurd (hspaces _ hmem) (by decide)
    have hafter : nonblank (beforePoint cs) = nonblank (beforePoint (skipSpaces cs).2) := by
      conv_lhs => rw [hcs, beforePoint_append hline, nonblank_append, nonblank_spaces hspaces, List.nil_append]
    -- the elements are read here or, behind blank lines, from the next line on; what they lead to is the same
    have holds {atLineStart : Bool} {more : List Char} (hsuffix : more <:+ (skipSpaces cs).2)
        (hbefore : nonblank (beforePoint (skipSpaces cs).2) =
          nonblank (if atLineStart then lineBeforePoint more else beforePoint more))
        (h : (elements? fuel atLineStart more).map (fun read => (assemble read.1, read.2)) = some (value, rest)) :
        Stops rest ∧ (rest = [] ∨ isPointLine rest = true → Holds value cs) := by
      obtain ⟨⟨elements, rest⟩, helements, heq⟩ := Option.map_eq_some_iff.1 h
      obtain ⟨rfl, rfl⟩ := Prod.mk.inj heq
      have hsuffix' := hsuffix.trans (List.dropWhile_suffix _)
      have htexts := elements?_text (fun hmem => hopen (hsuffix'.subset hmem)) helements
      refine ⟨htexts.stops, fun hover => ?_⟩
      have hkept := assemble_text htexts.isText
      rw [htexts.nonblank_eq hover, ← hbefore, ← hafter] at hkept
      exact hkept
    rw [pattern?] at h
    dsimp only at h
    split at h
    · rename_i more hmore
      obtain ⟨hsuffix, -, hbefore⟩ := skipLineEnd?_spec hmore
      obtain ⟨hblank, hlines⟩ := skipBlankLines_spec more.length more
      exact holds (hblank.trans hsuffix) (by rw [hbefore, if_pos rfl, hlines]) h
    · exact holds List.suffix_rfl rfl h

/-- No attribute is read of a line that does not begin with a point. -/
theorem attributes_of_not_isPointLine (h : isPointLine cs = false) (bound : Nat) :
    attributes fuel bound cs = ([], cs) := by
  cases bound with
  | zero => rfl
  | succ bound =>
    have hpoint (after : List Char) : (skipSpaces cs).2 ≠ '.' :: after := fun heq => by
      dsimp only [skipSpaces] at heq
      simp [isPointLine, heq] at h
    rw [attributes]
    split
    · rfl
    · rename_i hentry
      split at hentry
      · exact absurd ‹_› (hpoint _)
      · simp at hentry

/-- The value of a message that is read from a text without placeables holds what precedes the first line that begins
with a point. -/
theorem message?_text {message : Message} (hopen : '{' ∉ cs) (h : message? cs = some message) :
    Holds message.value cs := by
  obtain ⟨⟨value, rest⟩, hvalue, h⟩ := Option.bind_eq_some_iff.1 h
  obtain ⟨hstops, hholds⟩ := pattern?_text hopen hvalue
  dsimp only at h
  rw [hstops.skipBlankLines_eq] at h
  split at h
  · simp at h
  · split at h
    · rename_i hover
      obtain rfl := Option.some.inj h
      refine hholds ?_
      by_contra hnot
      obtain ⟨hne, hline⟩ := not_or.1 hnot
      rw [attributes_of_not_isPointLine (by simpa using hline)] at hover
      exact hne (hstops.skipBlankLines_eq _ ▸ hover)
    · simp at h

end Phrasebook.Fluent
