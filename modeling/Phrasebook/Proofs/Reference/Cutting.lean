import Mathlib
import Phrasebook.Proofs.Reference.Occurrence
import Phrasebook.Reference.Expansion

/-!
# Cutting at markers

Of all markers in a text the leftmost one is taken, and the search goes on behind it (`Marker.Cut`); markers that begin
inside a marker are part of its inner text. Main statement: `Marker.decompose` cuts a text in this way, and no other
pieces are such a cut (`Marker.decompose_leftmost`).
-/

namespace Phrasebook

/-- Literals with a marker between neighbours: each part is the inner text of a marker and the literal behind it. -/
def Piece.alternating (first : List Char) (parts : List (List Char × List Char)) : List Piece :=
  .literal first :: parts.flatMap fun part => [.marker part.1, .literal part.2]

namespace Marker

/-- A text cut at its markers, from left to right: no marker begins further left than the first one, what precedes it
is a literal, and what follows it is cut in turn. -/
inductive Cut : List Char → List Piece → Prop
  | last {text : List Char} (hnone : ∀ inner, IsInner inner → ¬ (Piece.marker inner).source <:+: text) :
      Cut text [.literal text]
  | marker {before inner after : List Char} {pieces : List Piece} (hinner : IsInner inner)
      (hleftmost : ∀ left other right, IsInner other →
        before ++ (Piece.marker inner).source ++ after = left ++ (Piece.marker other).source ++ right →
        before.length ≤ left.length)
      (hafter : Cut after pieces) :
      Cut (before ++ (Piece.marker inner).source ++ after) (.literal before :: .marker inner :: pieces)

variable {cs before inner after left other right : List Char}

/-! ## The first marker -/

/-- What the search finds between its brackets may stand inside a marker. -/
theorem isInner_of_next? (h : next? cs = some (before, inner, after)) : IsInner inner := by
  fun_induction next? cs generalizing before with
  | case1 => simp at h
  | case2 cs inner' after' hclose =>
    obtain ⟨-, rfl, rfl⟩ := by simpa using h
    exact (close?_eq_some_iff.1 hclose).1
  | case3 cs hclose ih =>
    obtain ⟨⟨before', found⟩, hnext, heq⟩ := Option.map_eq_some_iff.1 h
    obtain ⟨-, rfl⟩ := Prod.mk.inj heq
    exact ih hnext
  | case4 c cs hopen ih =>
    obtain ⟨⟨before', found⟩, hnext, heq⟩ := Option.map_eq_some_iff.1 h
    obtain ⟨-, rfl⟩ := Prod.mk.inj heq
    exact ih hnext

/-- No marker begins further left than the one that is found. -/
theorem length_le_of_next? (h : next? cs = some (before, inner, after)) (hother : IsInner other)
    (heq : cs = left ++ (Piece.marker other).source ++ right) : before.length ≤ left.length := by
  fun_induction next? cs generalizing before left with
  | case1 => simp at h
  | case2 cs inner' after' hclose =>
    obtain ⟨rfl, -⟩ := Prod.mk.inj (Option.some.inj h)
    exact Nat.zero_le _
  | case3 cs hclose ih =>
    obtain ⟨⟨before', found⟩, hnext, hpair⟩ := Option.map_eq_some_iff.1 h
    obtain ⟨rfl, rfl⟩ := Prod.mk.inj hpair
    -- the scan passes over an opener that opens no marker, and over the colon in it
    rcases left with _ | ⟨c, _ | ⟨d, left⟩⟩
    · exact absurd ⟨right, heq.symm⟩ (not_prefix_of_close?_eq_none hclose hother)
    · simp [Piece.source] at heq
    · have hle := ih hnext (List.cons.inj (List.cons.inj heq).2).2
      simpa using hle
  | case4 c cs hopen ih =>
    obtain ⟨⟨before', found⟩, hnext, hpair⟩ := Option.map_eq_some_iff.1 h
    obtain ⟨rfl, rfl⟩ := Prod.mk.inj hpair
    rcases left with _ | ⟨d, left⟩
    · obtain ⟨rfl, rfl⟩ := by simpa [Piece.source] using heq
      exact absurd rfl (hopen _ rfl)
    · have hle := ih hnext (List.cons.inj heq).2
      simpa using hle

/-- Where a marker begins, only one does. -/
theorem eq_of_source_append_eq {rest : List Char} (hinner : IsInner inner) (hother : IsInner other)
    (heq : (Piece.marker inner).source ++ after = (Piece.marker other).source ++ rest) :
    inner = other ∧ after = rest := by
  have hcs : inner ++ ['/', '>'] ++ after = other ++ ['/', '>'] ++ rest := by simpa [Piece.source] using heq
  have hclose : close? (inner ++ ['/', '>'] ++ after) = some (inner, after) := close?_eq_some_iff.2 ⟨hinner, rfl⟩
  rw [hcs, close?_eq_some_iff.2 ⟨hother, rfl⟩] at hclose
  obtain ⟨rfl, rfl⟩ := Prod.mk.inj (Option.some.inj hclose)
  exact ⟨rfl, rfl⟩

/-- The leftmost marker is found. -/
theorem next?_of_leftmost (hinner : IsInner inner)
    (hleftmost : ∀ left other right, IsInner other →
      before ++ (Piece.marker inner).source ++ after = left ++ (Piece.marker other).source ++ right →
      before.length ≤ left.length) :
    next? (before ++ (Piece.marker inner).source ++ after) = some (before, inner, after) := by
  cases hnext : next? (before ++ (Piece.marker inner).source ++ after) with
  | none => exact absurd ⟨before, after, rfl⟩ (next?_eq_none_iff.1 hnext inner hinner)
  | some found =>
    obtain ⟨before', inner', after'⟩ := found
    have heq := eq_of_next? hnext
    have hinner' := isInner_of_next? hnext
    -- each of the two markers begins no further right than the other
    have hlength : before.length = before'.length :=
      Nat.le_antisymm (hleftmost before' inner' after' hinner' heq) (length_le_of_next? hnext hinner rfl)
    rw [List.append_assoc, List.append_assoc] at heq
    obtain ⟨rfl, hsource⟩ := List.append_inj heq hlength
    obtain ⟨rfl, rfl⟩ := eq_of_source_append_eq hinner hinner' hsource
    rfl

/-! ## Cuts -/

/-- A text without a marker is one literal. -/
theorem decompose_of_next?_eq_none (h : next? cs = none) : decompose cs = [.literal cs] := by
  rw [decompose]
  split
  · rfl
  · rename_i hsome
    rw [h] at hsome
    contradiction

/-- A text is cut at its first marker, and the rest is cut alike. -/
theorem decompose_of_next? (h : next? cs = some (before, inner, after)) :
    decompose cs = .literal before :: .marker inner :: decompose after := by
  rw [decompose]
  split
  · rename_i hnone
    rw [h] at hnone
    contradiction
  · rename_i hsome
    rw [h] at hsome
    obtain ⟨rfl, rfl, rfl⟩ := by simpa using hsome
    rfl

/-- A text is cut by scanning it. -/
theorem cut_decompose (cs : List Char) : Cut cs (decompose cs) := by
  fun_induction decompose cs with
  | case1 cs hnone => exact .last (next?_eq_none_iff.1 hnone)
  | case2 cs before inner after hnext ih =>
    have heq := eq_of_next? hnext
    have hleftmost (left other right : List Char) (hother : IsInner other)
        (hoccurs : before ++ (Piece.marker inner).source ++ after = left ++ (Piece.marker other).source ++ right) :
        before.length ≤ left.length := length_le_of_next? hnext hother (heq.trans hoccurs)
    rw [heq]
    exact .marker (isInner_of_next? hnext) hleftmost ih

/-- A text can be cut at its markers in one way only. -/
theorem Cut.eq_decompose {pieces : List Piece} (h : Cut cs pieces) : pieces = decompose cs := by
  induction h with
  | last hnone => exact (decompose_of_next?_eq_none (next?_eq_none_iff.2 hnone)).symm
  | marker hinner hleftmost hafter ih => rw [decompose_of_next? (next?_of_leftmost hinner hleftmost), ih]

/-- The markers of a cut have what a marker may have inside. -/
theorem Cut.isInner_of_mem {pieces : List Piece} (h : Cut cs pieces) (hmem : .marker inner ∈ pieces) :
    IsInner inner := by
  induction h with
  | last => simp at hmem
  | marker hinner hleftmost hafter ih =>
    rcases List.mem_cons.1 hmem with heq | hmem
    · contradiction
    · rcases List.mem_cons.1 hmem with heq | hmem
      · obtain rfl := Piece.marker.inj heq
        exact hinner
      · exact ih hmem

/-! ## Literals without openers -/

/-- No marker begins in a literal without an opener, whatever marker follows it. -/
theorem length_le_of_not_infix {text rest : List Char} (htext : ¬ ['<', ':'] <:+: text)
    (heq : text ++ '<' :: rest = left ++ '<' :: ':' :: right) : text.length ≤ left.length := by
  rcases List.append_eq_append_iff.1 heq with ⟨between, rfl, -⟩ | ⟨opening, rfl, hopening⟩
  · simp
  · rcases opening with _ | ⟨c, _ | ⟨d, opening⟩⟩
    · simp
    · simp at hopening
    · obtain ⟨rfl, rfl, -⟩ := by simpa using hopening
      exact absurd ⟨left, opening, by simp⟩ htext

/-- Literals without openers, with markers between them, are cut into just these. -/
theorem cut_alternating {first : List Char} {parts : List (List Char × List Char)}
    (hfirst : ¬ ['<', ':'] <:+: first) (hparts : ∀ part ∈ parts, IsInner part.1 ∧ ¬ ['<', ':'] <:+: part.2) :
    Cut ((Piece.alternating first parts).flatMap Piece.source) (Piece.alternating first parts) := by
  induction parts generalizing first with
  | nil =>
    -- a marker begins with an opener, and the literal has none
    have hnone (inner : List Char) (_ : IsInner inner) : ¬ (Piece.marker inner).source <:+: first := by
      intro hsource
      refine hfirst (List.IsInfix.trans ?_ hsource)
      exact ⟨[], inner ++ ['/', '>'], by simp [Piece.source]⟩
    simpa [Piece.alternating, Piece.source] using Cut.last hnone
  | cons part parts ih =>
    obtain ⟨⟨hinner, hliteral⟩, hrest⟩ := List.forall_mem_cons.1 hparts
    have hcut := ih hliteral hrest
    have hleftmost (left other right : List Char) (_ : IsInner other)
        (hoccurs : first ++ (Piece.marker part.1).source ++ (Piece.alternating part.2 parts).flatMap Piece.source =
          left ++ (Piece.marker other).source ++ right) : first.length ≤ left.length := by
      rw [List.append_assoc, List.append_assoc] at hoccurs
      exact length_le_of_not_infix hfirst hoccurs
    have hwhole := Cut.marker hinner hleftmost hcut
    simpa [Piece.alternating, Piece.source] using hwhole

/-- **A text is cut at its leftmost markers.** -/
theorem decompose_leftmost (cs : List Char) :
    (∀ pieces, Cut cs pieces ↔ pieces = decompose cs) ∧ (decompose cs).flatMap Piece.source = cs ∧
      (∀ inner, .marker inner ∈ decompose cs → IsInner inner) ∧
      (∀ text, .literal text ∈ decompose cs → ∀ inner, IsInner inner → ¬ (Piece.marker inner).source <:+: text) ∧
      ((∀ inner, IsInner inner → ¬ (Piece.marker inner).source <:+: cs) →
        ∀ locale home follow, Library.expandPieces locale home follow (decompose cs) = .done cs) ∧
      ∀ first parts, ¬ ['<', ':'] <:+: first → (∀ part ∈ parts, IsInner part.1 ∧ ¬ ['<', ':'] <:+: part.2) →
        decompose ((Piece.alternating first parts).flatMap Piece.source) = Piece.alternating first parts := by
  refine ⟨fun pieces => ⟨Cut.eq_decompose, fun h => h ▸ cut_decompose cs⟩, flatten_decompose cs,
    fun inner => (cut_decompose cs).isInner_of_mem, fun text hmem => next?_eq_none_iff.1 (next?_of_literal_mem hmem),
    fun hnone locale home follow => ?_,
    fun first parts hfirst hparts => (cut_alternating hfirst hparts).eq_decompose.symm⟩
  rw [decompose_of_next?_eq_none (next?_eq_none_iff.2 hnone)]
  simp [Library.expandPieces, Traced.andThen, Traced.done, Traced.after]

/-- Nothing stands inside the first opener; the next one takes the opener behind it into its marker. -/
example : decompose "<:/>a<:b<:c/>d/>".toList =
    [.literal "<:/>a".toList, .marker "b<:c".toList, .literal "d/>".toList] := by
  cbv

end Marker

end Phrasebook
