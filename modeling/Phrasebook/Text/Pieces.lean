/-!
# Separated pieces

Cutting a text at every occurrence of a separator, and joining pieces with it again. Main statements:
joining undoes cutting (`joinWith_pieces`), no piece holds the separator (`not_mem_of_mem_pieces`), and cutting
undoes joining if that is so (`pieces_joinWith`).
-/

namespace Phrasebook

/-- Cut a text at every `sep`; there is one piece more than there are separators. -/
def pieces (sep : Char) : List Char → List (List Char)
  | [] => [[]]
  | c :: cs =>
    if c = sep then [] :: pieces sep cs
    else match pieces sep cs with
      | [] => [[c]]
      | p :: ps => (c :: p) :: ps

/-- Join pieces with `sep` between neighbours. -/
def joinWith (sep : List Char) : List (List Char) → List Char
  | [] => []
  | [p] => p
  | p :: q :: ps => p ++ sep ++ joinWith sep (q :: ps)

/-- Join texts with `sep` between neighbours. -/
def joinTexts (sep : String) (texts : List String) : String :=
  String.ofList (joinWith sep.toList (texts.map String.toList))

/-- There is always a piece, if only an empty one. -/
theorem pieces_ne_nil (sep : Char) (cs : List Char) : pieces sep cs ≠ [] := by
  cases cs with
  | nil => simp [pieces]
  | cons c cs =>
    simp only [pieces]
    split
    · simp
    · split <;> simp

/-- Joining the pieces of a text gives the text back. -/
theorem joinWith_pieces (sep : Char) (cs : List Char) : joinWith [sep] (pieces sep cs) = cs := by
  induction cs with
  | nil => rfl
  | cons c cs ih =>
    cases hp : pieces sep cs with
    | nil => exact absurd hp (pieces_ne_nil sep cs)
    | cons p ps =>
      rw [hp] at ih
      by_cases h : c = sep
      · simp [pieces, h, hp, joinWith, ih]
      · cases ps with
        | nil => simp [pieces, h, hp, joinWith] at ih ⊢; exact ih
        | cons q ps => simp [pieces, h, hp, joinWith] at ih ⊢; exact ih

/-- No piece holds the separator. -/
theorem not_mem_of_mem_pieces {sep : Char} {cs p : List Char} (h : p ∈ pieces sep cs) : sep ∉ p := by
  induction cs generalizing p with
  | nil => simp [pieces] at h; simp [h]
  | cons c cs ih =>
    simp only [pieces] at h
    split at h
    · rcases List.mem_cons.1 h with rfl | h
      · simp
      · exact ih h
    · rename_i hc
      split at h
      · simp at h; subst h; simpa using Ne.symm hc
      · rename_i q qs hq
        rcases List.mem_cons.1 h with rfl | h
        · have := ih (p := q) (by simp [hq])
          simpa [this] using Ne.symm hc
        · exact ih (by simp [hq, h])

/-- A text without the separator is one piece. -/
theorem pieces_of_not_mem {sep : Char} {p : List Char} (h : sep ∉ p) : pieces sep p = [p] := by
  induction p with
  | nil => rfl
  | cons c cs ih =>
    obtain ⟨hc, hcs⟩ := List.ne_and_not_mem_of_not_mem_cons h
    rw [pieces, if_neg hc.symm, ih hcs]

/-- Cutting a text behind and before a separator in it cuts the text. -/
theorem pieces_append_sep (sep : Char) (cs rest : List Char) :
    pieces sep (cs ++ sep :: rest) = pieces sep cs ++ pieces sep rest := by
  induction cs with
  | nil => simp [pieces]
  | cons c cs ih =>
    rw [List.cons_append, pieces, pieces, ih]
    by_cases h : c = sep
    · rw [if_pos h, if_pos h, List.cons_append]
    · rw [if_neg h, if_neg h]
      cases hp : pieces sep cs with
      | nil => exact absurd hp (pieces_ne_nil sep cs)
      | cons p ps => rfl

/-- What stands before the first separator is the first piece. -/
theorem pieces_append {sep : Char} {p : List Char} (h : sep ∉ p) (rest : List Char) :
    pieces sep (p ++ sep :: rest) = p :: pieces sep rest := by
  rw [pieces_append_sep, pieces_of_not_mem h, List.singleton_append]

/-- The first separator divides a text in one way only. -/
theorem append_cons_inj_of_not_mem_left {sep : Char} {before before' after after' : List Char} (h : sep ∉ before)
    (h' : sep ∉ before') (heq : before ++ sep :: after = before' ++ sep :: after') :
    before = before' ∧ after = after' := by
  have hpieces := congrArg (pieces sep) heq
  rw [pieces_append h, pieces_append h'] at hpieces
  obtain ⟨rfl, -⟩ := List.cons.inj hpieces
  exact ⟨rfl, (List.cons.inj (List.append_cancel_left heq)).2⟩

/-- So does the last one, which is the first one from behind. -/
theorem append_cons_inj_of_not_mem_right {sep : Char} {before before' after after' : List Char} (h : sep ∉ after)
    (h' : sep ∉ after') (heq : before ++ sep :: after = before' ++ sep :: after') :
    before = before' ∧ after = after' := by
  have hreversed : after.reverse ++ sep :: before.reverse = after'.reverse ++ sep :: before'.reverse := by
    simpa using congrArg List.reverse heq
  obtain ⟨hafter, hbefore⟩ := append_cons_inj_of_not_mem_left (by simpa using h) (by simpa using h') hreversed
  exact ⟨List.reverse_inj.1 hbefore, List.reverse_inj.1 hafter⟩

/-- Cutting undoes joining if no piece holds the separator. -/
theorem pieces_joinWith {sep : Char} {ps : List (List Char)} (hne : ps ≠ []) (h : ∀ p ∈ ps, sep ∉ p) :
    pieces sep (joinWith [sep] ps) = ps := by
  induction ps with
  | nil => exact absurd rfl hne
  | cons p ps ih =>
    have hp : sep ∉ p := h p (List.mem_cons_self ..)
    cases ps with
    | nil => exact pieces_of_not_mem hp
    | cons q qs =>
      have hrest : pieces sep (joinWith [sep] (q :: qs)) = q :: qs :=
        ih (List.cons_ne_nil q qs) fun p' hp' => h p' (List.mem_cons_of_mem p hp')
      rw [joinWith, List.append_assoc, List.singleton_append, pieces_append hp, hrest]

end Phrasebook
