import Mathlib
import Phrasebook.Proofs.Reference.Occurrence
import Phrasebook.Proofs.Reference.Tree
import Phrasebook.Proofs.Store.Run

/-!
# Splices

The reading of a key is spliced from strands, the literals of all texts in its reference tree. No strand
holds a marker, but a reading can: a marker comes into being where strands meet, since what has been put
together is not scanned again. Main statement: a reading holds a marker exactly when one lies across a splice
(`Library.read_spliced`), as one does in `Library.straddling`.
-/

namespace Phrasebook

/-- The literals among pieces, with the strands of a reading in the place of each marker. -/
def Piece.weave : List Piece → List (List (List Char)) → List (List Char)
  | .literal text :: pieces, strands => text :: weave pieces strands
  | .marker _ :: pieces, below :: strands => below ++ weave pieces strands
  | _, _ => []

/-- The strands that are woven together spell the pieces filled with what their markers expand to. -/
theorem Piece.flatten_weave (pieces : List Piece) (strands : List (List (List Char))) :
    (weave pieces strands).flatten = fill pieces (strands.map List.flatten) := by
  induction pieces generalizing strands with
  | nil => rfl
  | cons piece pieces ih =>
    cases piece with
    | literal text => simp only [weave, fill, List.flatten_cons, ih]
    | marker inner =>
      cases strands with
      | nil => rfl
      | cons below strands => simp only [weave, fill, List.map_cons, List.flatten_append, ih]

/-- A strand comes from a literal or from the text of a marker. -/
theorem Piece.mem_weave {pieces : List Piece} {strands : List (List (List Char))} {strand : List Char}
    (h : strand ∈ weave pieces strands) :
    Piece.literal strand ∈ pieces ∨ ∃ below ∈ strands, strand ∈ below := by
  induction pieces generalizing strands with
  | nil => simp [weave] at h
  | cons piece pieces ih =>
    cases piece with
    | literal text =>
      rcases List.mem_cons.1 h with rfl | h
      · exact .inl (by simp)
      · exact (ih h).imp_left (List.mem_cons_of_mem _)
    | marker inner =>
      cases strands with
      | nil => simp [weave] at h
      | cons below strands =>
        rcases List.mem_append.1 h with h | h
        · exact .inr ⟨below, by simp, h⟩
        · refine (ih h).imp (List.mem_cons_of_mem _) ?_
          rintro ⟨other, hother, hmem⟩
          exact ⟨other, List.mem_cons_of_mem _ hother, hmem⟩

namespace ReferenceTree

mutual

/-- The literals of all texts of the tree, in the order in which the expansion has them. -/
def strands : ReferenceTree → List (List Char)
  | .node _ text children => Piece.weave (Marker.decompose text.toList) (strandsAbove children)

/-- The strands of trees, tree by tree. -/
def strandsAbove : List ReferenceTree → List (List (List Char))
  | [] => []
  | child :: children => child.strands :: strandsAbove children

end

mutual

/-- The expansion is what the strands are when written one after another. -/
theorem flatten_strands : (tree : ReferenceTree) → tree.strands.flatten = tree.expansion
  | .node _ text children => by
    rw [strands, expansion, Piece.flatten_weave, flatten_strandsAbove children]

/-- The strands of each of some trees spell its expansion. -/
theorem flatten_strandsAbove : (trees : List ReferenceTree) →
    (strandsAbove trees).map List.flatten = expansions trees
  | [] => rfl
  | tree :: trees => by
    rw [strandsAbove, expansions, List.map_cons, flatten_strands tree, flatten_strandsAbove trees]

end

mutual

/-- No strand holds a marker. -/
theorem next?_of_mem_strands : (tree : ReferenceTree) → ∀ strand ∈ tree.strands, Marker.next? strand = none
  | .node _ text children, strand, h => by
    rcases Piece.mem_weave h with h | ⟨below, hbelow, h⟩
    · exact Marker.next?_of_literal_mem h
    · exact next?_of_mem_strandsAbove children below hbelow strand h

/-- No strand of some trees has a marker in it. -/
theorem next?_of_mem_strandsAbove : (trees : List ReferenceTree) →
    ∀ strands ∈ strandsAbove trees, ∀ strand ∈ strands, Marker.next? strand = none
  | [], strands, hstrands, _, _ => by simp [strandsAbove] at hstrands
  | tree :: trees, strands, hstrands, strand, h => by
    rcases List.mem_cons.1 hstrands with rfl | hstrands
    · exact next?_of_mem_strands tree strand h
    · exact next?_of_mem_strandsAbove trees strands hstrands strand h

end

/-- An expansion holds a marker exactly when one lies across a splice. -/
theorem next?_expansion_eq_none_iff (tree : ReferenceTree) :
    Marker.next? tree.expansion = none ↔
      ∀ left right, tree.strands = left ++ right → ¬ Marker.Straddles left.flatten right.flatten := by
  rw [← flatten_strands]
  exact Marker.next?_flatten_eq_none_iff tree.next?_of_mem_strands

/-- An expansion of strands without loose ends holds no marker. -/
theorem next?_expansion_of_closed {tree : ReferenceTree} (h : ∀ strand ∈ tree.strands, Marker.Closed strand) :
    Marker.next? tree.expansion = none := by
  refine (next?_expansion_eq_none_iff tree).2 fun left right hsplit => ?_
  -- a marker across the splice would begin in the strands to its left
  have hleft : ∀ strand ∈ left, Marker.Closed strand := fun strand hmem =>
    h strand (by rw [hsplit]; exact List.mem_append_left _ hmem)
  exact (Marker.Closed.flatten hleft).not_straddles

end ReferenceTree

/-! ## Readings -/

namespace Library

/-- **Markers in a reading lie across splices.** A reading is what the strands of its reference tree are when
written one after another. No strand holds a marker, and the reading holds one exactly when it straddles a
place where strands meet; that cannot be if no strand leaves a marker open at its end. -/
theorem read_spliced (library : Library) (pair : Pair) (key : Key) (text : String)
    (h : (library.read pair key).result = .ok text) :
    ∃ tree : ReferenceTree, tree.IsTreeOf library pair key ∧ tree.strands.flatten = text.toList ∧
      (∀ strand ∈ tree.strands, Marker.next? strand = none) ∧
      (Marker.next? text.toList = none ↔
        ∀ left right, tree.strands = left ++ right → ¬ Marker.Straddles left.flatten right.flatten) ∧
      ((∀ strand ∈ tree.strands, Marker.Closed strand) → Marker.next? text.toList = none) := by
  obtain ⟨tree, htree, -, rfl⟩ := result_read_eq_ok_iff.1 h
  refine ⟨tree, htree, ?_, tree.next?_of_mem_strands, ?_, fun hclosed => ?_⟩
  · rw [ReferenceTree.flatten_strands, String.toList_ofList]
  · rw [String.toList_ofList]
    exact tree.next?_expansion_eq_none_iff
  · rw [String.toList_ofList]
    exact ReferenceTree.next?_expansion_of_closed hclosed

/-- What a run has loaded: a text with `<` in front of a reference, whose own text goes on with `:x/>`. -/
def straddling : Library :=
  let texts : Resource := .table [("c", .text ":x/>"), ("t", .text "<<:c/>"), ("x", .text "X")]
  let initial := Store.fresh (Loader.ofTable [(⟨⟨"en"⟩, ⟨"app"⟩⟩, texts)]) false false
  let store := (initial.performAll
    [.setLocales [⟨"en"⟩], .setModules [⟨"app"⟩], .await [⟨⟨"en"⟩, ⟨"app"⟩⟩]]).1
  { resource? := store.resource?, notifies := store.notifies, maxDepth := 16 }

/-- The reading holds a marker that none of its texts holds. -/
theorem read_straddling :
    (straddling.read ⟨⟨"en"⟩, ⟨"app"⟩⟩ ["t"]).result = .ok "<:x/>" ∧
      Marker.next? "<:x/>".toList = some ([], ['x'], []) := by
  constructor
  · cbv
  · cbv

/-- That marker lies across a splice. -/
theorem exists_straddles_straddling :
    (straddling.read ⟨⟨"en"⟩, ⟨"app"⟩⟩ ["t"]).result = .ok "<:x/>" ∧
      ∃ tree : ReferenceTree, tree.IsTreeOf straddling ⟨⟨"en"⟩, ⟨"app"⟩⟩ ["t"] ∧
        ∃ left right, tree.strands = left ++ right ∧ Marker.Straddles left.flatten right.flatten := by
  have hread : (straddling.read ⟨⟨"en"⟩, ⟨"app"⟩⟩ ["t"]).result = .ok "<:x/>" := by cbv
  have hmarker : Marker.next? "<:x/>".toList = some ([], ['x'], []) := by cbv
  obtain ⟨tree, htree, -, -, hiff, -⟩ := read_spliced straddling ⟨⟨"en"⟩, ⟨"app"⟩⟩ ["t"] "<:x/>" hread
  refine ⟨hread, tree, htree, ?_⟩
  by_contra hnone
  rw [hiff.2 fun left right hsplit hstraddles => hnone ⟨left, right, hsplit, hstraddles⟩] at hmarker
  simp at hmarker

end Library

end Phrasebook
