/-!
# Byte offsets

A text is stored as UTF-8, and a part of it is named by the byte offsets of its two ends. Such a slice exists only
between offsets at which characters begin or the text ends. Main statements: which slices exist (`slice?_eq_some_iff`),
and where the search for a character or for a text ends (`charOffset?_eq_some_iff`, `textOffset?_eq_some_iff`).
-/

namespace Phrasebook.Offset

/-- The offset is where a character of the text begins, or where the text ends. -/
abbrev OnBoundary (text : String) (offset : Nat) : Prop :=
  String.Pos.Raw.IsValid text ⟨offset⟩

/-- The part of a text between two byte offsets. There is none if the first lies behind the last, if one of them lies
outside of the text, or if one lies inside a character. -/
def slice? (text : String) (first last : Nat) : Option String :=
  if h : first ≤ last ∧ OnBoundary text first ∧ OnBoundary text last then
    some (String.extract (text.pos ⟨first⟩ h.2.1) (text.pos ⟨last⟩ h.2.2))
  else none

/-- The part of a text from a byte offset on. -/
def sliceFrom? (text : String) (first : Nat) : Option String :=
  slice? text first text.utf8ByteSize

/-- The part of a text before a byte offset. -/
def sliceTo? (text : String) (last : Nat) : Option String :=
  slice? text 0 last

/-- Where the first character with a property begins. -/
def charOffset? (text : String) (p : Char → Bool) : Option Nat :=
  (text.find? p).map (·.offset.byteIdx)

/-- Where a part first begins. -/
def textOffset? (text part : String) : Option Nat :=
  (text.find? part).map (·.offset.byteIdx)

/-- What follows a character at the beginning of a text. -/
def stripStart? (text : String) (c : Char) : Option String :=
  (text.dropPrefix? c).map (·.copy)

/-- What precedes a part at the end of a text. -/
def stripEnd? (text part : String) : Option String :=
  (text.dropSuffix? part).map (·.copy)

variable {text before part after rest : String} {first last offset : Nat} {c : Char} {p : Char → Bool}

/-! ## Slices -/

/-- An offset lies between characters exactly if it is the size of a beginning. -/
theorem onBoundary_iff :
    OnBoundary text offset ↔ ∃ before after, text = before ++ after ∧ offset = before.utf8ByteSize := by
  rw [OnBoundary, String.Pos.Raw.isValid_iff_exists_append]
  refine exists_congr fun before => exists_congr fun after => and_congr_right fun _ => ?_
  exact String.Pos.Raw.ext_iff

/-- The size of a beginning is such an offset. -/
theorem onBoundary_append (before after : String) : OnBoundary (before ++ after) before.utf8ByteSize :=
  onBoundary_iff.2 ⟨before, after, rfl, rfl⟩

/-- Between the sizes of two beginnings lies what one has behind the other. -/
theorem slice?_append (before part after : String) :
    slice? (before ++ part ++ after) before.utf8ByteSize (before ++ part).utf8ByteSize = some part := by
  have hfirst : OnBoundary (before ++ part ++ after) before.utf8ByteSize := by
    rw [String.append_assoc]
    exact onBoundary_append before (part ++ after)
  have hlast : OnBoundary (before ++ part ++ after) (before ++ part).utf8ByteSize :=
    onBoundary_append (before ++ part) after
  have hle : before.utf8ByteSize ≤ (before ++ part).utf8ByteSize := by simp
  rw [slice?, dif_pos ⟨hle, hfirst, hlast⟩]
  refine congrArg some (String.toByteArray_inj.1 ?_)
  rw [String.toByteArray_extract, String.toByteArray_append, String.toByteArray_append]
  -- on bytes it is a fact about arrays that are put together
  show (before.toByteArray ++ part.toByteArray ++ after.toByteArray).extract before.toByteArray.size
    (before ++ part).toByteArray.size = part.toByteArray
  rw [← String.toByteArray_append, ByteArray.extract_append_size_left, String.toByteArray_append,
    ByteArray.extract_append_eq_right rfl ByteArray.size_append]

/-- A slice is there exactly between two such offsets. -/
theorem slice?_eq_some_iff : slice? text first last = some part ↔
    ∃ before after, text = before ++ part ++ after ∧ first = before.utf8ByteSize ∧
      last = (before ++ part).utf8ByteSize := by
  constructor
  · intro h
    have hbounds : first ≤ last ∧ OnBoundary text first ∧ OnBoundary text last := by
      by_cases hb : first ≤ last ∧ OnBoundary text first ∧ OnBoundary text last
      · exact hb
      · rw [slice?, dif_neg hb] at h
        contradiction
    obtain ⟨hle, hfirst, hlast⟩ := hbounds
    obtain ⟨before, behind, htext, rfl⟩ := onBoundary_iff.1 hfirst
    obtain ⟨before', after, htext', rfl⟩ := onBoundary_iff.1 hlast
    have hsplits : (text.pos ⟨before.utf8ByteSize⟩ hfirst).Splits before behind := ⟨htext, rfl⟩
    have hsplits' : (text.pos ⟨before'.utf8ByteSize⟩ hlast).Splits before' after := ⟨htext', rfl⟩
    -- both offsets split the text, and the first split has less in front
    obtain ⟨between, rfl, rfl⟩ := (hsplits.le_iff_exists_eq_append hsplits').1 hle
    rw [htext', slice?_append] at h
    obtain rfl := Option.some.inj h
    exact ⟨before, after, htext', rfl, rfl⟩
  · rintro ⟨before, after, rfl, rfl, rfl⟩
    exact slice?_append before part after

/-- Half a character is no slice. -/
example : slice? "é" 1 2 = none := by decide

/-- From the size of a beginning on there is the rest. -/
theorem sliceFrom?_append (before after : String) : sliceFrom? (before ++ after) before.utf8ByteSize = some after :=
  slice?_eq_some_iff.2 ⟨before, "", by simp, rfl, by simp⟩

/-- Up to the size of a beginning there is the beginning. -/
theorem sliceTo?_append (before after : String) : sliceTo? (before ++ after) before.utf8ByteSize = some before :=
  slice?_eq_some_iff.2 ⟨"", after, by simp, by simp, by simp⟩

/-- A delimiter that takes one byte can be left out. -/
theorem sliceFrom?_singleton (before after : String) (hc : c.utf8Size = 1) :
    sliceFrom? (before ++ (String.singleton c ++ after)) (before.utf8ByteSize + 1) = some after := by
  have hslice := sliceFrom?_append (before ++ String.singleton c) after
  rwa [String.append_assoc, String.utf8ByteSize_append, String.utf8ByteSize_singleton, hc] at hslice

/-- Up to an offset behind a character of one byte there is the beginning with that character. -/
theorem sliceTo?_singleton (before after : String) (hc : c.utf8Size = 1) :
    sliceTo? (before ++ (String.singleton c ++ after)) (before.utf8ByteSize + 1) =
      some (before ++ String.singleton c) := by
  have hslice := sliceTo?_append (before ++ String.singleton c) after
  rwa [String.append_assoc, String.utf8ByteSize_append, String.utf8ByteSize_singleton, hc] at hslice

/-! ## Searching -/

/-- The first character with a property is found at the size of what stands in front of it. -/
theorem charOffset?_eq_some_iff : charOffset? text p = some offset ↔
    ∃ before c after, text = before ++ (String.singleton c ++ after) ∧ offset = before.utf8ByteSize ∧ p c = true ∧
      ∀ d ∈ before.toList, p d = false := by
  rw [charOffset?, Option.map_eq_some_iff]
  constructor
  · rintro ⟨pos, hfind, rfl⟩
    obtain ⟨before, c, after, hsplits, hc, hbefore⟩ := String.find?_bool_eq_some_iff_splits.1 hfind
    exact ⟨before, c, after, hsplits.eq_append, by rw [hsplits.offset_eq_rawEndPos]; rfl, hc, hbefore⟩
  · rintro ⟨before, c, after, rfl, rfl, hc, hbefore⟩
    refine ⟨(before ++ (String.singleton c ++ after)).pos ⟨before.utf8ByteSize⟩ (onBoundary_append _ _), ?_, rfl⟩
    exact String.find?_bool_eq_some_iff_splits.2 ⟨before, c, after, ⟨rfl, rfl⟩, hc, hbefore⟩

/-- None is found exactly if no character has the property. -/
theorem charOffset?_eq_none_iff : charOffset? text p = none ↔ ∀ c ∈ text.toList, p c = false := by
  rw [charOffset?, Option.map_eq_none_iff, String.find?_eq_find?_toSlice, Option.map_eq_none_iff,
    String.Slice.find?_eq_none_iff, String.Slice.contains_bool_eq]
  simp

/-- Where a character first stands. -/
theorem exists_of_charOffset?_beq (h : charOffset? text (· == c) = some offset) :
    ∃ before after, text = before ++ (String.singleton c ++ after) ∧ offset = before.utf8ByteSize ∧
      c ∉ before.toList := by
  obtain ⟨before, d, after, rfl, rfl, hd, hbefore⟩ := charOffset?_eq_some_iff.1 h
  obtain rfl := eq_of_beq hd
  exact ⟨before, after, rfl, rfl, fun hmem => by simpa using hbefore d hmem⟩

/-- A character is not found exactly if it is not there. -/
theorem charOffset?_beq_eq_none_iff : charOffset? text (· == c) = none ↔ c ∉ text.toList := by
  rw [charOffset?_eq_none_iff]
  exact ⟨fun h hmem => by simpa using h c hmem, fun h d hmem => beq_false_of_ne fun heq => h (heq ▸ hmem)⟩

open String.Slice.Pattern.Model in
/-- A part is found at the size of what stands in front of its first occurrence. -/
theorem textOffset?_eq_some_iff (hpart : part ≠ "") : textOffset? text part = some offset ↔
    ∃ before after, text = before ++ (part ++ after) ∧ offset = before.utf8ByteSize ∧
      ∀ front back rest, before = front ++ back → back ++ (part ++ after) = part ++ rest → back = "" := by
  have hstrict := ForwardStringSearcher.strictPatternModel hpart
  have hlawful := ForwardStringSearcher.lawfulToForwardSearcherModel hpart
  have hfind : textOffset? text part = (text.toSlice.find? part).map (·.offset.byteIdx) := by
    rw [textOffset?, String.find?_eq_find?_toSlice, Option.map_map]
    rfl
  rw [hfind, Option.map_eq_some_iff]
  constructor
  · rintro ⟨pos, hpos, rfl⟩
    obtain ⟨hmatch, hfirst⟩ := (find?_eq_some_iff part).1 hpos
    obtain ⟨before, after, hsplits⟩ := ForwardStringSearcher.matchesAt_iff_splits.1 hmatch
    refine ⟨before, after, by simpa using hsplits.eq_append, congrArg (·.byteIdx) hsplits.offset_eq_rawEndPos, ?_⟩
    -- the part would begin at an earlier position, too
    rintro front back rest rfl hback
    refine Decidable.byContradiction fun hne => ?_
    have hearlier : (hsplits.rotateLeft).Splits front (back ++ (part ++ after)) := hsplits.splits_rotateLeft
    refine hfirst hsplits.rotateLeft ?_ (ForwardStringSearcher.matchesAt_iff_splits.2 ⟨front, rest, hback ▸ hearlier⟩)
    exact (hearlier.lt_iff_exists_eq_append hsplits).2 ⟨back, hne, rfl, rfl⟩
  · rintro ⟨before, after, rfl, rfl, hfirst⟩
    have hsplits :
        ((before ++ (part ++ after)).pos _ (onBoundary_append before _)).toSlice.Splits before (part ++ after) :=
      String.Pos.Splits.toSlice ⟨rfl, rfl⟩
    refine ⟨_, (find?_eq_some_iff part).2 ⟨ForwardStringSearcher.matchesAt_iff_splits.2 ⟨before, after, hsplits⟩,
      fun earlier hlt hmatch => ?_⟩, rfl⟩
    obtain ⟨front, rest, hearlier⟩ := ForwardStringSearcher.matchesAt_iff_splits.1 hmatch
    obtain ⟨back, hne, hbefore, hback⟩ := (hearlier.lt_iff_exists_eq_append hsplits).1 hlt
    exact hne (hfirst front back rest hbefore hback.symm)

/-- A part is not found exactly if it occurs nowhere. -/
theorem textOffset?_eq_none_iff : textOffset? text part = none ↔ ∀ before after, text ≠ before ++ (part ++ after) := by
  rw [textOffset?, Option.map_eq_none_iff, String.find?_eq_find?_toSlice, Option.map_eq_none_iff,
    String.Slice.find?_eq_none_iff, String.Slice.contains_string_eq_false_iff, String.copy_toSlice]
  refine ⟨?_, ?_⟩
  · rintro h before after rfl
    exact h ⟨before.toList, after.toList, by simp⟩
  · rintro h ⟨before, after, heq⟩
    refine h (String.ofList before) (String.ofList after) (String.toList_inj.1 ?_)
    simp [← heq]

/-! ## Stripping -/

/-- A character is stripped from the front exactly if the text begins with it. -/
theorem stripStart?_eq_some_iff : stripStart? text c = some rest ↔ text = String.singleton c ++ rest := by
  -- what was stripped off stood there, so only the case that nothing is stripped is left
  have hsound {slice : String.Slice} (h : text.dropPrefix? c = some slice) : text = String.singleton c ++ slice.copy :=
    String.eq_append_of_dropPrefix?_char_eq_some h
  constructor
  · intro h
    obtain ⟨slice, hdrop, rfl⟩ := Option.map_eq_some_iff.1 h
    exact hsound hdrop
  · intro htext
    cases hdrop : text.dropPrefix? c with
    | none =>
      rw [String.dropPrefix?_eq_dropPrefix?_toSlice, String.Slice.dropPrefix?_eq_none_iff, String.startsWith_toSlice,
        String.startsWith_char_eq_false_iff_forall_append] at hdrop
      exact absurd htext (hdrop rest)
    | some slice =>
      rw [stripStart?, hdrop, Option.map_some]
      rw [hsound hdrop, String.append_right_inj] at htext
      rw [htext]

/-- From an empty text no character is stripped. -/
theorem stripStart?_ofList_nil (c : Char) : stripStart? (String.ofList []) c = none := by
  rw [Option.eq_none_iff_forall_not_mem]
  intro rest hrest
  have htext := congrArg String.toList (stripStart?_eq_some_iff.1 hrest)
  simp at htext

/-- Stripping looks at the first character only. -/
theorem stripStart?_ofList_cons (c d : Char) (cs : List Char) :
    stripStart? (String.ofList (d :: cs)) c = if d = c then some (String.ofList cs) else none := by
  refine Option.ext fun rest => ?_
  rw [stripStart?_eq_some_iff, ← String.toList_inj]
  by_cases hd : d = c
  · subst hd
    simp [← String.toList_inj]
  · simp [hd]

/-- A part is stripped from the end exactly if the text ends with it. -/
theorem stripEnd?_eq_some_iff : stripEnd? text part = some rest ↔ text = rest ++ part := by
  have hsound {slice : String.Slice} (h : text.dropSuffix? part = some slice) : text = slice.copy ++ part := by
    rw [String.dropSuffix?_eq_dropSuffix?_toSlice] at h
    simpa using String.Slice.eq_append_of_dropSuffix?_string_eq_some h
  constructor
  · intro h
    obtain ⟨slice, hdrop, rfl⟩ := Option.map_eq_some_iff.1 h
    exact hsound hdrop
  · intro htext
    cases hdrop : text.dropSuffix? part with
    | none =>
      rw [String.dropSuffix?_eq_dropSuffix?_toSlice, String.Slice.dropSuffix?_eq_none_iff,
        String.Slice.endsWith_string_eq_false_iff] at hdrop
      refine absurd ?_ hdrop
      rw [htext]
      simp
    | some slice =>
      rw [stripEnd?, hdrop, Option.map_some]
      rw [hsound hdrop, String.append_left_inj] at htext
      rw [htext]

end Phrasebook.Offset
