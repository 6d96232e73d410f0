import Phrasebook.Text.Pieces

/-!
# Keys

A key is the path of segments to a translation. Its dotted form writes the segments with dots between
them. Main statements: the dotted form of a split text is that text (`Key.dotted_split`), and splitting the dotted
form gives the key back if no segment holds a dot (`Key.split_dotted`).
-/

namespace Phrasebook

/-- The segments that lead to a translation, outermost first. -/
abbrev Key := List String

namespace Key

/-- The segments between the dots of a text; an empty text has none. -/
def split (dotted : String) : Key :=
  if dotted = "" then [] else (pieces '.' dotted.toList).map String.ofList

/-- The segments with a dot between neighbours. -/
def dotted (key : Key) : String :=
  joinTexts "." key

@[simp] theorem dotted_nil : dotted [] = "" := rfl

/-- Splitting and joining again gives the text back. -/
theorem dotted_split (s : String) : dotted (split s) = s := by
  by_cases h : s = ""
  · simp [split, h]
  · have cancel : String.toList ∘ String.ofList = id := by funext l; simp
    simp [split, h, dotted, joinTexts, joinWith_pieces, cancel]

/-- The segments of a text that are not empty, for navigation. -/
def steps (dotted : String) : Key :=
  ((pieces '.' dotted.toList).filter (· ≠ [])).map String.ofList

/-- No segment of the key holds a dot. -/
def Undotted (key : Key) : Prop :=
  ∀ segment ∈ key, '.' ∉ segment.toList

/-- Splitting leaves no dot inside a piece. -/
theorem undotted_split (s : String) : (split s).Undotted := by
  intro segment hmem
  unfold split at hmem
  split at hmem
  · simp at hmem
  · obtain ⟨p, hp, rfl⟩ := List.mem_map.1 hmem
    rw [String.toList_ofList]
    exact not_mem_of_mem_pieces hp

/-- The segments are the pieces of the dotted form, if there are any. -/
theorem pieces_dotted {key : Key} (h : key.Undotted) (hne : key ≠ []) :
    pieces '.' (dotted key).toList = key.map String.toList := by
  rw [dotted, joinTexts, String.toList_ofList]
  refine pieces_joinWith (by simpa using hne) fun p hp => ?_
  obtain ⟨segment, hsegment, rfl⟩ := List.mem_map.1 hp
  exact h segment hsegment

/-- Keys with the same dotted form are the same. The empty key is an exception, since its dotted form is the one of
the key of one empty segment. -/
theorem dotted_inj {key key' : Key} (h : key.Undotted) (h' : key'.Undotted) (hne : key ≠ []) (hne' : key' ≠ []) :
    dotted key = dotted key' ↔ key = key' := by
  refine ⟨fun heq => ?_, congrArg dotted⟩
  have hpieces := pieces_dotted h hne
  rw [heq, pieces_dotted h' hne'] at hpieces
  exact (List.map_inj_right fun _ _ => String.toList_inj.1).1 hpieces.symm

/-- Splitting the dotted form gives the key back. The key of one empty segment is an exception, since its dotted
form is the one of the empty key. -/
theorem split_dotted {key : Key} (h : key.Undotted) (hne : key ≠ [""]) : split (dotted key) = key := by
  by_cases hnil : key = []
  · simp [hnil, split]
  · have hpieces := pieces_dotted h hnil
    have hempty : dotted key ≠ "" := by
      intro hempty
      rw [hempty] at hpieces
      obtain ⟨segment, rfl, hsegment⟩ := List.map_eq_singleton_iff.1 hpieces.symm
      exact hne (by rw [String.toList_eq_nil_iff.1 hsegment])
    rw [split, if_neg hempty, hpieces, List.map_map]
    simp [Function.comp_def]

/-- The segments for navigation are the segments between the dots, without the empty ones. -/
theorem steps_eq_filter_split (s : String) : steps s = (split s).filter (· ≠ "") := by
  by_cases h : s = ""
  · simp [h, steps, split, pieces]
  · simp [steps, split, h, List.filter_map, Function.comp_def]

end Key

end Phrasebook
