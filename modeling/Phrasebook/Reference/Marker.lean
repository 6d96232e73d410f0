/-!
# Reference markers

A marker `<:inner/>` stands for the translation that its inner text names. The inner text is not empty and
holds no `>`. `Marker.decompose` cuts a text into literals and markers, from left to right;
`Marker.flatten_decompose` says that nothing is lost.
-/

namespace Phrasebook

/-- A part of a text: characters that stand for themselves, or the inner text of a marker. -/
inductive Piece where
  | literal (text : List Char)
  | marker (inner : List Char)
  deriving DecidableEq, Repr

/-- The characters that a piece was read from. -/
def Piece.source : Piece → List Char
  | .literal text => text
  | .marker inner => ['<', ':'] ++ inner ++ ['/', '>']

namespace Marker

/-- After an opener: the inner text of the marker and what follows it. The first `>` closes the marker, or
shows that the opener opens none. -/
def close? (cs : List Char) : Option (List Char × List Char) :=
  match cs.dropWhile (· ≠ '>') with
  | [] => none
  | _ :: after =>
    match (cs.takeWhile (· ≠ '>')).reverse with
    | '/' :: c :: before => some ((c :: before).reverse, after)
    | _ => none

/-- The first marker of a text: what precedes it, its inner text, and what follows it. -/
def next? : List Char → Option (List Char × List Char × List Char)
  | [] => none
  | '<' :: ':' :: cs =>
    match close? cs with
    | some (inner, after) => some ([], inner, after)
    | none => (next? cs).map fun (before, found) => ('<' :: ':' :: before, found)
  | c :: cs => (next? cs).map fun (before, found) => (c :: before, found)

/-- What is found behind an opener is followed by the end of a marker. -/
theorem eq_of_close? {cs inner after : List Char} (h : close? cs = some (inner, after)) :
    cs = inner ++ ['/', '>'] ++ after := by
  unfold close? at h
  split at h
  · simp at h
  · rename_i c rest hdrop
    split at h
    · rename_i d before hrev
      obtain ⟨rfl, rfl⟩ := by simpa using h
      have htake : cs.takeWhile (· ≠ '>') = (d :: before).reverse ++ ['/'] := by
        simpa using congrArg List.reverse hrev
      have hc : c = '>' := by
        have hne : cs.dropWhile (· ≠ '>') ≠ [] := by rw [hdrop]; exact List.cons_ne_nil _ _
        have := List.head_dropWhile_not (fun c : Char => decide (c ≠ '>')) hne
        simp only [hdrop, List.head_cons] at this
        simpa using this
      rw [← List.takeWhile_append_dropWhile (p := fun c : Char => decide (c ≠ '>')) (l := cs), htake, hdrop, hc]
      simp
    · simp at h

/-- The text is what precedes the first marker, the marker and what follows it. -/
theorem eq_of_next? {cs before inner after : List Char} (h : next? cs = some (before, inner, after)) :
    cs = before ++ (Piece.marker inner).source ++ after := by
  fun_induction next? cs generalizing before with
  | case1 => simp at h
  | case2 cs inner' after' hclose =>
    obtain ⟨rfl, rfl, rfl⟩ := by simpa using h
    simp [Piece.source, eq_of_close? hclose]
  | case3 cs hclose ih =>
    simp only [Option.map_eq_some_iff] at h
    obtain ⟨⟨before', found⟩, hnext, heq⟩ := h
    obtain ⟨rfl, rfl⟩ := by simpa using heq
    simp [ih hnext]
  | case4 c cs hne ih =>
    simp only [Option.map_eq_some_iff] at h
    obtain ⟨⟨before', found⟩, hnext, heq⟩ := h
    obtain ⟨rfl, rfl⟩ := by simpa using heq
    simp [ih hnext]

/-- A marker takes at least one character, so cutting ends. -/
theorem length_of_next? {cs before inner after : List Char}
    (h : next? cs = some (before, inner, after)) : after.length < cs.length := by
  have := congrArg List.length (eq_of_next? h)
  simp [Piece.source] at this
  omega

/-- Cut a text into the literals between its markers and the markers. -/
def decompose (cs : List Char) : List Piece :=
  match _h : next? cs with
  | none => [.literal cs]
  | some (before, inner, after) => .literal before :: .marker inner :: decompose after
termination_by cs.length
decreasing_by exact length_of_next? ‹_›

/-- The pieces of a text, written one after another, are the text. -/
theorem flatten_decompose (cs : List Char) : (decompose cs).flatMap Piece.source = cs := by
  fun_induction decompose cs with
  | case1 => simp [Piece.source]
  | case2 cs before inner after h ih =>
    rw [List.flatMap_cons, List.flatMap_cons, ih, ← List.append_assoc]
    exact (eq_of_next? h).symm

end Marker

end Phrasebook
