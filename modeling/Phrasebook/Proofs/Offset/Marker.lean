import Phrasebook.Proofs.Offset.Loop
import Phrasebook.Proofs.Offset.Slice
import Phrasebook.Proofs.Reference.Occurrence
import Phrasebook.Text.Pieces

/-!
# Finding markers by offset

The first marker of a text can be searched for with a cursor, a byte offset behind which the text has yet to be
searched (`markerSearch`). Main statements: `markerSearch_completes`, that from every character on the search finds what
`Marker.next?` finds there, and `nextMarker?_eq_none_iff`, that it goes wrong from no other offsets than those inside a
character or outside of the text.
-/

namespace Phrasebook.Offset

/-- A marker in a text: where it begins, where it ends, and its inner text. -/
structure Site where
  start : Nat
  stop : Nat
  inner : String
  deriving DecidableEq, Repr

/-- The search for a marker. A round takes the first opener behind the cursor; if it opens no marker, the search goes on
right behind it. -/
def markerSearch (text : String) : Loop Nat (Option Site) where
  left cursor := text.utf8ByteSize - cursor
  round cursor := do
    let rest ← sliceFrom? text cursor
    match textOffset? rest "<:" with
    | none => some (.done none)
    | some offset =>
      let start := cursor + offset
      let innerStart := start + "<:".utf8ByteSize
      let behind ← sliceFrom? text innerStart
      match charOffset? behind (· == '>') with
      | none => some (.done none)
      | some bracket =>
        let stop := innerStart + bracket + 1
        let enclosed ← slice? text innerStart stop
        match (stripEnd? enclosed "/>").filter (!·.isEmpty) with
        | none => some (.next innerStart)
        | some inner => some (.done (some ⟨start, stop, inner⟩))

/-- The first marker from an offset on. -/
def nextMarker? (text : String) (cursor : Nat) : Option (Option Site) :=
  (markerSearch text).run cursor

/-- Where a marker is that was found from an offset on: the text before it, its inner text, and what follows. -/
def Site.behind (cursor : Nat) : List Char × List Char × List Char → Site
  | (before, inner, _) =>
    let start := cursor + (String.ofList before).utf8ByteSize
    ⟨start, start + (String.ofList (Piece.marker inner).source).utf8ByteSize, String.ofList inner⟩

end Phrasebook.Offset

namespace Phrasebook.Marker

variable {before cs inner rest : List Char}

/-! ## The search on characters -/

/-- Where no opener begins, the search passes over the characters. -/
theorem next?_append_of_no_opener
    (h : ∀ front back rest', before = front ++ back → back ++ rest = '<' :: ':' :: rest' → back = []) :
    next? (before ++ rest) = (next? rest).map fun (literal, found) => (before ++ literal, found) := by
  induction before with
  | nil => simp
  | cons c before ih =>
    have hrest := ih fun front back rest' heq => h (c :: front) back rest' (congrArg (c :: ·) heq)
    rw [List.cons_append, next?, hrest, Option.map_map]
    · rfl
    · rintro tail rfl htail
      exact absurd (h [] ('<' :: before) tail rfl (congrArg ('<' :: ·) htail)) (by simp)

/-- An opener with an end behind it is the first marker, with nothing in front. -/
theorem next?_opener_of_close? {after : List Char} (h : close? cs = some (inner, after)) :
    next? ('<' :: ':' :: cs) = some ([], inner, after) := by
  simp only [next?, h]

/-- An opener without an end is part of the literal in front of the next marker. -/
theorem next?_opener_of_close?_eq_none (h : close? cs = none) :
    next? ('<' :: ':' :: cs) = (next? cs).map fun (literal, found) => ('<' :: ':' :: literal, found) := by
  simp only [next?, h]

/-- A text without an opener has no marker, and neither has one without the bracket that ends markers. -/
theorem next?_eq_none_of_no_opener_or_bracket (h : ¬ ['<', ':'] <:+: cs ∨ '>' ∉ cs) : next? cs = none := by
  rw [next?_eq_none_iff]
  rintro inner - ⟨front, back, rfl⟩
  rcases h with h | h
  · exact h ⟨front, inner ++ ['/', '>'] ++ back, by simp [Piece.source]⟩
  · simp [Piece.source] at h

/-- What an opener opens depends on the text up to the first bracket. -/
theorem close?_append_bracket (h : '>' ∉ before) {after : List Char} :
    close? (before ++ '>' :: rest) = some (inner, after) ↔ inner ≠ [] ∧ before = inner ++ ['/'] ∧ after = rest := by
  rw [close?_eq_some_iff]
  constructor
  · rintro ⟨⟨hne, hinner⟩, heq⟩
    have hslash : '>' ∉ inner ++ ['/'] := by simpa using hinner
    have hsplit : before ++ '>' :: rest = (inner ++ ['/']) ++ '>' :: after := by simpa using heq
    -- the first bracket is the same one on both sides
    obtain ⟨hbefore, hafter⟩ := append_cons_inj_of_not_mem_left h hslash hsplit
    exact ⟨hne, hbefore, hafter.symm⟩
  · rintro ⟨hne, rfl, rfl⟩
    exact ⟨⟨hne, fun hmem => h (List.mem_append_left _ hmem)⟩, by simp⟩

end Phrasebook.Marker

namespace Phrasebook.Offset

open Marker

variable {text : String} {cursor offset : Nat}

/-! ## The search by offset -/

/-- Where a marker is does not depend on whether the text in front counts to the literal or to the offset. -/
theorem Site.behind_append (cursor : Nat) (front : String) (literal : List Char) (found : List Char × List Char) :
    Site.behind cursor (front.toList ++ literal, found) =
      Site.behind (cursor + front.utf8ByteSize) (literal, found) := by
  simp [Site.behind, String.ofList_append, Nat.add_assoc]

/-- The bytes of a marker: those of its opener, of its inner text and of its end. -/
theorem Site.utf8ByteSize_source (inner : String) :
    (String.ofList (Piece.marker inner.toList).source).utf8ByteSize =
      "<:".utf8ByteSize + inner.utf8ByteSize + "/>".utf8ByteSize := by
  have hsource : String.ofList (Piece.marker inner.toList).source = "<:" ++ inner ++ "/>" :=
    String.toList_inj.1 (by simp [Piece.source])
  rw [hsource, String.utf8ByteSize_append, String.utf8ByteSize_append]

/-- The search on characters passes over what stands before the first opener. -/
theorem exists_opener (h : textOffset? text "<:" = some offset) :
    ∃ literal tail, text = literal ++ ("<:" ++ tail) ∧ offset = literal.utf8ByteSize ∧
      next? text.toList =
        (next? ('<' :: ':' :: tail.toList)).map fun (front, found) => (literal.toList ++ front, found) := by
  obtain ⟨literal, tail, rfl, rfl, hfirst⟩ := (textOffset?_eq_some_iff (by decide)).1 h
  refine ⟨literal, tail, rfl, rfl, ?_⟩
  rw [String.toList_append, String.toList_append]
  refine next?_append_of_no_opener fun front back rest hliteral hback => ?_
  have hfront : literal = String.ofList front ++ String.ofList back := by
    rw [← String.ofList_append, ← hliteral, String.ofList_toList]
  have hrest : String.ofList back ++ ("<:" ++ tail) = "<:" ++ String.ofList rest :=
    String.toList_inj.1 (by simpa using hback)
  simpa using hfirst _ _ _ hfront hrest

/-- An opener opens a marker if a slash stands before the first bracket, and something before the slash. -/
theorem close?_toList {enclosed : String} (rest : String) (h : '>' ∉ enclosed.toList) :
    close? (enclosed ++ (">" ++ rest)).toList =
      ((stripEnd? (enclosed ++ ">") "/>").filter (!·.isEmpty)).map fun inner => (inner.toList, rest.toList) := by
  have htext : (enclosed ++ (">" ++ rest)).toList = enclosed.toList ++ '>' :: rest.toList := by simp
  -- the bracket is part of the end that is stripped off, so a slash has to stand before it
  have hstrip (inner : String) : stripEnd? (enclosed ++ ">") "/>" = some inner ↔ enclosed = inner ++ "/" := by
    have hend : inner ++ "/>" = inner ++ "/" ++ ">" := by simp [String.append_assoc]
    rw [stripEnd?_eq_some_iff, hend, String.append_left_inj]
  rw [htext]
  refine Option.ext fun ⟨inner, after⟩ => ?_
  rw [close?_append_bracket h]
  simp only [Option.map_eq_some_iff, Option.filter_eq_some_iff, hstrip]
  constructor
  · rintro ⟨hne, henclosed, rfl⟩
    refine ⟨String.ofList inner, ⟨?_, ?_⟩, by simp⟩
    · rw [← String.toList_inj]
      simpa using henclosed
    · simpa using hne
  · rintro ⟨inner, ⟨rfl, hne⟩, heq⟩
    obtain ⟨rfl, rfl⟩ := Prod.mk.inj heq
    exact ⟨by simpa using hne, by simp, rfl⟩

/-- What is found behind an opener that opens no marker is found from the text before the opener on, too. -/
theorem Site.behind_opener {tail : List Char} (cursor : Nat) (literal : String) (h : close? tail = none) :
    ((next? ('<' :: ':' :: tail)).map fun (front, found) => (literal.toList ++ front, found)).map (Site.behind cursor) =
      (next? tail).map (Site.behind (cursor + literal.utf8ByteSize + "<:".utf8ByteSize)) := by
  rw [next?_opener_of_close?_eq_none h, Option.map_map, Option.map_map]
  refine Option.map_congr fun ⟨front, found⟩ _ => ?_
  have happend := Site.behind_append cursor (literal ++ "<:") front found
  simpa [Nat.add_assoc] using happend

/-- A marker ends right behind the first bracket. -/
theorem Site.behind_marker {tail rest : List Char} {enclosed inner : String} (cursor : Nat) (literal : String)
    (henclosed : enclosed ++ ">" = inner ++ "/>") (h : close? tail = some (inner.toList, rest)) :
    ((next? ('<' :: ':' :: tail)).map fun (front, found) => (literal.toList ++ front, found)).map (Site.behind cursor) =
      some ⟨cursor + literal.utf8ByteSize,
        cursor + literal.utf8ByteSize + "<:".utf8ByteSize + enclosed.utf8ByteSize + 1, inner⟩ := by
  have hsize := congrArg String.utf8ByteSize henclosed
  have hbracket : ">".utf8ByteSize = 1 := rfl
  rw [String.utf8ByteSize_append, String.utf8ByteSize_append, hbracket] at hsize
  rw [next?_opener_of_close? h]
  simp only [Option.map_some, List.append_nil, Site.behind, String.ofList_toList, Site.utf8ByteSize_source,
    Option.some.injEq, Site.mk.injEq, and_true, true_and]
  omega

/-- The text up to the first bracket is a slice: a bracket takes one byte. -/
theorem slice?_bracket (before enclosed rest : String) :
    slice? (before ++ (enclosed ++ (">" ++ rest))) before.utf8ByteSize
      (before.utf8ByteSize + enclosed.utf8ByteSize + 1) = some (enclosed ++ ">") := by
  refine slice?_eq_some_iff.2 ⟨before, rest, ?_, rfl, ?_⟩
  · simp only [String.append_assoc]
  · have hbracket : ">".utf8ByteSize = 1 := rfl
    simp only [String.utf8ByteSize_append, hbracket, Nat.add_assoc]

/-- What the search is meant to find from a cursor on. -/
def MeantMarker (text : String) (cursor : Nat) (found : Option Site) : Prop :=
  ∃ before after, text = before ++ after ∧ cursor = before.utf8ByteSize ∧
    found = (next? after.toList).map (Site.behind cursor)

/-- A round finds a marker, or ends the search, or passes over an opener that opens none; what is still to be found
stays the same. -/
theorem markerSearch_keeps (text : String) : (markerSearch text).Keeps (MeantMarker text) := by
  rintro cursor found ⟨before, after, rfl, rfl, rfl⟩
  simp only [markerSearch, sliceFrom?_append, Option.bind_eq_bind, Option.bind_some]
  cases hopener : textOffset? after "<:" with
  | none =>
    have hnone : ¬ ['<', ':'] <:+: after.toList := by
      rintro ⟨front, back, heq⟩
      refine textOffset?_eq_none_iff.1 hopener (String.ofList front) (String.ofList back) (String.toList_inj.1 ?_)
      simp [← heq]
    rw [next?_eq_none_of_no_opener_or_bracket (.inl hnone)]
    exact .inl rfl
  | some offset =>
    obtain ⟨literal, tail, rfl, rfl, hskip⟩ := exists_opener hopener
    -- everything from here on is a slice behind the opener
    have htext : before ++ (literal ++ ("<:" ++ tail)) = before ++ literal ++ "<:" ++ tail := by
      simp only [String.append_assoc]
    have hsize : before.utf8ByteSize + literal.utf8ByteSize + "<:".utf8ByteSize =
        (before ++ literal ++ "<:").utf8ByteSize := by
      simp only [String.utf8ByteSize_append]
    simp only [htext, hsize, sliceFrom?_append, Option.bind_some, hskip]
    cases hbracket : charOffset? tail (· == '>') with
    | none =>
      have hnone : next? ('<' :: ':' :: tail.toList) = none := by
        refine next?_eq_none_of_no_opener_or_bracket (.inr ?_)
        simpa using charOffset?_beq_eq_none_iff.1 hbracket
      rw [hnone]
      exact .inl rfl
    | some bracket =>
      obtain ⟨enclosed, rest, rfl, rfl, henclosed⟩ : ∃ enclosed rest, tail = enclosed ++ (">" ++ rest) ∧
          bracket = enclosed.utf8ByteSize ∧ '>' ∉ enclosed.toList := exists_of_charOffset?_beq hbracket
      have hclose := close?_toList rest henclosed
      simp only [slice?_bracket, Option.bind_some]
      cases hinner : (stripEnd? (enclosed ++ ">") "/>").filter (!·.isEmpty) with
      | none =>
        rw [hinner] at hclose
        refine .inr ⟨_, rfl, ?_, before ++ literal ++ "<:", enclosed ++ (">" ++ rest), rfl, rfl, ?_⟩
        · have hopen : "<:".utf8ByteSize = 2 := rfl
          simp only [String.utf8ByteSize_append]
          omega
        · rw [Site.behind_opener _ literal hclose, hsize]
      | some inner =>
        have hmarker : enclosed ++ ">" = inner ++ "/>" :=
          stripEnd?_eq_some_iff.1 (Option.filter_eq_some_iff.1 hinner).1
        rw [hinner] at hclose
        rw [Site.behind_marker _ literal hmarker hclose, hsize]
        exact .inl rfl

/-- From every character on, the search by offset finds what the search on characters finds. -/
theorem markerSearch_completes (before after : String) :
    (markerSearch (before ++ after)).Completes before.utf8ByteSize
      ((next? after.toList).map (Site.behind before.utf8ByteSize)) :=
  (markerSearch_keeps (before ++ after)).completes ⟨before, after, rfl, rfl, rfl⟩

/-- From an offset on the search finds what the scanner of characters finds in the rest. -/
theorem nextMarker?_append (before after : String) :
    nextMarker? (before ++ after) before.utf8ByteSize =
      some ((next? after.toList).map (Site.behind before.utf8ByteSize)) :=
  (markerSearch_completes before after).run_eq

/-- The search goes wrong only if it begins inside a character or outside of the text. -/
theorem nextMarker?_eq_none_iff : nextMarker? text cursor = none ↔ ¬ OnBoundary text cursor := by
  constructor
  · rintro hnone hcursor
    obtain ⟨before, after, rfl, rfl⟩ := onBoundary_iff.1 hcursor
    rw [nextMarker?_append] at hnone
    contradiction
  · intro hcursor
    have hslice : sliceFrom? text cursor = none := dif_neg fun hbounds => hcursor hbounds.2.1
    have hround : (markerSearch text).round cursor = none := by
      simp only [markerSearch, hslice]
      rfl
    rw [nextMarker?, Loop.run, hround]

end Phrasebook.Offset
