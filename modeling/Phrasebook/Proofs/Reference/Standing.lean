import Phrasebook.Proofs.Reference.Cutting
import Phrasebook.Proofs.Reference.Tree

/-!
# Reference trees without a scanner

What a reference tree stands for can be said without the function that looks for markers: its topmost text is cut at
the leftmost markers (`Marker.Cut`), below it stands one tree for each of them, and in the place of each marker stands
the text of its tree (`ReferenceTree.StandsFor`). Main statement: reading gives what such a tree stands for
(`Library.result_read_eq_ok_iff_standsFor`).
-/

namespace Phrasebook

namespace ReferenceTree

variable {library : Library} {locale : Locale} {tree : ReferenceTree} {text : List Char}

/-- The tree stands for a text: there is a cut of the topmost text at its leftmost markers such that the trees below
are those of the targets of the markers, from left to right, and what they stand for takes the place of the markers. -/
inductive StandsFor (library : Library) (locale : Locale) : ReferenceTree → List Char → Prop
  | node {root : Address} {raw : String} {pieces : List Piece} {below : List (ReferenceTree × List Char)}
      (found : library.node? ⟨locale, root.moduleId⟩ root.key = some (.text raw))
      (cut : Marker.Cut raw.toList pieces)
      (roots : (below.map Prod.fst).map ReferenceTree.root = Piece.references root.moduleId pieces)
      (stand : ∀ part ∈ below, StandsFor library locale part.1 part.2) :
      StandsFor library locale (.node root raw (below.map Prod.fst)) (Piece.fill pieces (below.map Prod.snd))

/-- The expansions of trees that stand for texts are these texts. -/
theorem expansions_map_fst {below : List (ReferenceTree × List Char)}
    (h : ∀ part ∈ below, part.1.expansion = part.2) : expansions (below.map Prod.fst) = below.map Prod.snd := by
  induction below with
  | nil => rfl
  | cons part below ih =>
    obtain ⟨hpart, hbelow⟩ := List.forall_mem_cons.1 h
    rw [List.map_cons, expansions, List.map_cons, hpart, ih hbelow]

/-- A tree stands for its expansion if it holds what is loaded, and for nothing else. -/
theorem standsFor_iff : tree.StandsFor library locale text ↔ tree.Resolves library locale ∧ tree.expansion = text := by
  constructor
  · intro h
    induction h with
    | @node root raw pieces below found cut roots _ ih =>
      -- there is one cut only, and the scanner makes it
      obtain rfl := cut.eq_decompose
      refine ⟨.node found roots fun child hchild => ?_, ?_⟩
      · obtain ⟨part, hpart, rfl⟩ := List.mem_map.1 hchild
        exact (ih part hpart).1
      · rw [expansion, expansions_map_fst fun part hpart => (ih part hpart).2]
  · rintro ⟨hresolves, rfl⟩
    induction hresolves with
    | @node root raw children found roots _ ih =>
      obtain ⟨below, hbelow⟩ : ∃ below, children.map (fun child => (child, child.expansion)) = below := ⟨_, rfl⟩
      have hfst : below.map Prod.fst = children := by
        rw [← hbelow]
        simp [Function.comp_def]
      have hpart : ∀ part ∈ below, part.1 ∈ children ∧ part.1.expansion = part.2 := by
        rw [← hbelow]
        simp
      have hstands := StandsFor.node found (Marker.cut_decompose raw.toList) (hfst.symm ▸ roots) fun part hmem =>
        (hpart part hmem).2 ▸ ih part.1 (hpart part hmem).1
      rwa [← expansions_map_fst fun part hmem => (hpart part hmem).2, hfst] at hstands

end ReferenceTree

namespace Library

/-- Reading gives a text exactly when the key has a tree that is not too high and stands for the text. -/
theorem result_read_eq_ok_iff_standsFor {library : Library} {pair : Pair} {key : Key} {text : String} :
    (library.read pair key).result = .ok text ↔
      ∃ tree : ReferenceTree, tree.root = ⟨pair.moduleId, key⟩ ∧
        tree.StandsFor library pair.locale text.toList ∧ tree.height ≤ library.heightLimit := by
  simp only [result_read_eq_ok_iff, ReferenceTree.standsFor_iff]
  constructor
  · rintro ⟨tree, ⟨hroot, hresolves⟩, hheight, rfl⟩
    exact ⟨tree, hroot, ⟨hresolves, String.toList_ofList.symm⟩, hheight⟩
  · rintro ⟨tree, hroot, ⟨hresolves, hexpansion⟩, hheight⟩
    exact ⟨tree, ⟨hroot, hresolves⟩, hheight, by rw [hexpansion, String.ofList_toList]⟩

end Library

end Phrasebook
