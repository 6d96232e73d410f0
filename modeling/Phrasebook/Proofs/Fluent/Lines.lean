import Mathlib.Data.List.DropRight
import Mathlib.Data.List.TakeWhile
import Phrasebook.Fluent.Engine

/-!
# Lines of a pattern

A line that begins, behind spaces, with a point does not belong to the pattern before it but is one of the attributes
of a message. `beforePoint` is what precedes the first such line, and indenting a text changes nothing but blanks in
it (`nonblank_beforePoint_indented`).
-/

namespace Phrasebook.Fluent

/-- The characters of a text that are not blank. -/
def nonblank (cs : List Char) : List Char :=
  cs.filter fun c => !isBlank c

/-- Whether the line that begins here begins, behind spaces, with a point. -/
def isPointLine (cs : List Char) : Bool :=
  (cs.dropWhile (· = ' ')).head? = some '.'

/-- What precedes the first line that begins with a point. The first line of the text does not count. -/
def beforePoint : List Char → List Char
  | [] => []
  | c :: cs => c :: if c = '\n' ∧ isPointLine cs then [] else beforePoint cs

/-- What precedes the first line that begins with a point, where the text begins with a line that counts. -/
def lineBeforePoint (cs : List Char) : List Char :=
  if isPointLine cs then [] else beforePoint cs

/-- Some line of a text, the first one apart, begins, behind spaces, with a point. -/
def HasPointLine (cs : List Char) : Prop :=
  ∃ before line, cs = before ++ '\n' :: line ∧ isPointLine line = true

variable {c : Char} {cs text : List Char}

/-! ## Characters that are not blank -/

@[simp] theorem nonblank_nil : nonblank [] = [] := rfl

@[simp] theorem nonblank_append (cs more : List Char) : nonblank (cs ++ more) = nonblank cs ++ nonblank more :=
  List.filter_append ..

theorem nonblank_cons (c : Char) (cs : List Char) : nonblank (c :: cs) = nonblank [c] ++ nonblank cs :=
  nonblank_append [c] cs

theorem nonblank_newline (cs : List Char) : nonblank ('\n' :: cs) = nonblank cs := rfl

/-- Nothing but blanks is in a text of which nothing is left without them. -/
theorem nonblank_eq_nil_iff : nonblank cs = [] ↔ ∀ c ∈ cs, isBlank c = true := by
  simp [nonblank, List.filter_eq_nil_iff]

theorem nonblank_spaces (h : ∀ c ∈ cs, c = ' ') : nonblank cs = [] :=
  nonblank_eq_nil_iff.2 fun c hc => by rw [h c hc]; rfl

/-- What is cut off the end of a text is blank. -/
theorem nonblank_trimRight (cs : List Char) : nonblank (trimRight cs) = nonblank cs := by
  have hdropped : nonblank (cs.rtakeWhile isBlank) = [] :=
    nonblank_eq_nil_iff.2 fun c hc => List.mem_rtakeWhile_imp hc
  calc nonblank (trimRight cs)
    _ = nonblank (cs.rdropWhile isBlank) ++ nonblank (cs.rtakeWhile isBlank) := by
      rw [hdropped, List.append_nil]
      rfl
    _ = nonblank cs := by rw [← nonblank_append, List.rdropWhile_append_rtakeWhile]

/-! ## Lines that begin with a point -/

@[simp] theorem beforePoint_nil : beforePoint [] = [] := rfl

/-- Behind a line feed a line begins that counts. -/
theorem beforePoint_newline (cs : List Char) : beforePoint ('\n' :: cs) = '\n' :: lineBeforePoint cs := by
  simp [beforePoint, lineBeforePoint]

theorem beforePoint_cons_of_ne (h : c ≠ '\n') (cs : List Char) : beforePoint (c :: cs) = c :: beforePoint cs := by
  simp [beforePoint, h]

/-- What stands in the line that goes on precedes the next lines. -/
theorem beforePoint_append (h : '\n' ∉ text) (rest : List Char) :
    beforePoint (text ++ rest) = text ++ beforePoint rest := by
  induction text with
  | nil => rfl
  | cons c text ih =>
    obtain ⟨hc, htext⟩ := List.ne_and_not_mem_of_not_mem_cons h
    rw [List.cons_append, beforePoint_cons_of_ne hc.symm, ih htext, List.cons_append]

/-- What precedes the first line that begins with a point is a part of the text. -/
theorem mem_of_mem_beforePoint (h : c ∈ beforePoint cs) : c ∈ cs := by
  induction cs with
  | nil => exact h
  | cons d cs ih =>
    rw [beforePoint, List.mem_cons] at h
    rcases h with rfl | htail
    · exact List.mem_cons_self
    · split at htail
      · simp at htail
      · exact List.mem_cons_of_mem _ (ih htail)

/-- Whether a line begins with a point does not depend on the spaces before it. -/
theorem isPointLine_append (h : ∀ c ∈ text, c = ' ') (rest : List Char) :
    isPointLine (text ++ rest) = isPointLine rest := by
  rw [isPointLine, isPointLine, List.dropWhile_append_of_pos (by simpa using h)]

/-- A line that begins with neither a space nor a point is no line that begins with a point. -/
theorem isPointLine_cons_of_ne (hspace : c ≠ ' ') (hpoint : c ≠ '.') : isPointLine (c :: cs) = false := by
  simp [isPointLine, hspace, hpoint]

/-- Where the first line does not begin with a point, it does not matter whether it counts. -/
theorem lineBeforePoint_of_false (h : isPointLine cs = false) : lineBeforePoint cs = beforePoint cs := by
  rw [lineBeforePoint, h]
  rfl

/-- Spaces at the beginning of a line do not matter. -/
theorem nonblank_lineBeforePoint_append (h : ∀ c ∈ text, c = ' ') (rest : List Char) :
    nonblank (lineBeforePoint (text ++ rest)) = nonblank (lineBeforePoint rest) := by
  have hline : '\n' ∉ text := fun hmem => absurd (h _ hmem) (by decide)
  rw [lineBeforePoint, lineBeforePoint, isPointLine_append h]
  split
  · rfl
  · rw [beforePoint_append hline, nonblank_append, nonblank_spaces h, List.nil_append]

/-- The point a line begins with is in it. -/
theorem mem_of_isPointLine (h : isPointLine cs = true) : '.' ∈ cs :=
  (List.dropWhile_suffix _).subset (List.mem_of_mem_head? (by simpa [isPointLine] using h))

/-- The first line that begins with a point begins behind the first character or further on. -/
theorem hasPointLine_cons : HasPointLine (c :: cs) ↔ (c = '\n' ∧ isPointLine cs = true) ∨ HasPointLine cs := by
  constructor
  · rintro ⟨before, line, heq, hline⟩
    rcases before with _ | ⟨d, before⟩
    · obtain ⟨rfl, rfl⟩ := List.cons.inj heq
      exact .inl ⟨rfl, hline⟩
    · exact .inr ⟨before, line, (List.cons.inj heq).2, hline⟩
  · rintro (⟨rfl, hline⟩ | ⟨before, line, rfl, hline⟩)
    · exact ⟨[], cs, rfl, hline⟩
    · exact ⟨c :: before, line, rfl, hline⟩

/-- Without such a line the whole text precedes it, and with one its point does not. -/
theorem nonblank_beforePoint_eq_iff : nonblank (beforePoint cs) = nonblank cs ↔ ¬ HasPointLine cs := by
  induction cs with
  | nil => simp [HasPointLine]
  | cons c cs ih =>
    rw [hasPointLine_cons, beforePoint]
    by_cases hhere : c = '\n' ∧ isPointLine cs = true
    · -- the point of the line is what is lost, and a point is not blank
      have hpoint : '.' ∈ nonblank cs := List.mem_filter.2 ⟨mem_of_isPointLine hhere.2, rfl⟩
      rw [if_pos hhere, hhere.1, nonblank_newline, nonblank_newline]
      refine iff_of_false (fun heq => ?_) fun hnone => hnone (.inl ⟨rfl, hhere.2⟩)
      rw [← heq] at hpoint
      simp at hpoint
    · rw [if_neg hhere, or_iff_right hhere, ← ih, nonblank_cons, nonblank_cons c cs, List.append_right_inj]

/-! ## Indentation -/

theorem indented_newline (raw : List Char) : indented ('\n' :: raw) = '\n' :: ([' ', ' ', ' ', ' '] ++ indented raw) :=
  rfl

theorem indented_cons_of_ne (h : c ≠ '\n') (raw : List Char) : indented (c :: raw) = c :: indented raw := by
  simp [indented, h]

/-- Indenting a text adds spaces only. -/
theorem mem_indented (h : c ≠ ' ') (hline : c ≠ '\n') {raw : List Char} : c ∈ indented raw ↔ c ∈ raw := by
  induction raw with
  | nil => simp [indented, hline]
  | cons d raw ih =>
    by_cases hd : d = '\n'
    · subst hd
      simp [indented_newline, h, hline, ih]
    · rw [indented_cons_of_ne hd, List.mem_cons, List.mem_cons, ih]

/-- The first line is not indented, so it begins with a point exactly if it did. -/
theorem isPointLine_indented (raw : List Char) : isPointLine (indented raw) = isPointLine raw := by
  induction raw with
  | nil => rfl
  | cons c raw ih =>
    by_cases hline : c = '\n'
    · subst hline
      rfl
    · rw [indented_cons_of_ne hline]
      by_cases hspace : c = ' '
      · subst hspace
        exact ih
      · simp [isPointLine, hspace]

/-- Indenting the lines of a text changes nothing but blanks before the first line that begins with a point. -/
theorem nonblank_beforePoint_indented (raw : List Char) :
    nonblank (beforePoint (indented raw)) = nonblank (beforePoint raw) := by
  induction raw with
  | nil => rfl
  | cons c raw ih =>
    by_cases hline : c = '\n'
    · subst hline
      rw [indented_newline, beforePoint_newline, beforePoint_newline, nonblank_newline, nonblank_newline,
        nonblank_lineBeforePoint_append (by simp), lineBeforePoint, lineBeforePoint, isPointLine_indented]
      split
      · rfl
      · exact ih
    · rw [indented_cons_of_ne hline, beforePoint_cons_of_ne hline, beforePoint_cons_of_ne hline,
        nonblank_cons, nonblank_cons c (beforePoint raw), ih]

end Phrasebook.Fluent
