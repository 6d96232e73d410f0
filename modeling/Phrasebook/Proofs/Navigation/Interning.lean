import Phrasebook.Proofs.Navigation.Coherence

/-!
# Interned nodes

A coherent tree in which every node but the root hangs on an older one is interned (`Interned`): each node is led to
by one list of segments, and no other node is (`Interned.eq_iff_of_at`). Going on from a node of the tree keeps that
(`Interned.follow`), and nodes that are there keep what they address (`Keeps`).
-/

namespace Phrasebook

/-- One list of segments leads to a node at most. -/
theorem KeyNode.At.unique {node : KeyNode} {segments segments' : List String} (h : node.At segments)
    (h' : node.At segments') : segments = segments' := by
  have hhead := h.moduleId.symm.trans h'.moduleId
  have htail := h.key.symm.trans h'.key
  cases segments with
  | nil =>
    cases segments' with
    | nil => rfl
    | cons first' rest' => simp at hhead
  | cons first rest =>
    cases segments' with
    | nil => simp at hhead
    | cons first' rest' =>
      obtain rfl : first = first' := by simpa using hhead
      exact congrArg (first :: ·) htail

namespace KeyTree

/-- Every node but the root hangs on an older node. -/
structure Interned (tree : KeyTree) : Prop extends Coherent tree where
  above : ∀ {place}, place ≠ KeyTree.root → place < tree.nodes.length →
    ∃ parent segment, parent < place ∧ (tree.node parent).children.lookup segment = some place

/-- The nodes of a tree are there later and address what they addressed. -/
structure Keeps (tree later : KeyTree) : Prop where
  length_le : tree.nodes.length ≤ later.nodes.length
  moduleId : ∀ {place}, place < tree.nodes.length → (later.node place).moduleId = (tree.node place).moduleId
  key : ∀ {place}, place < tree.nodes.length → (later.node place).key = (tree.node place).key

variable {tree later : KeyTree} {place place' : Nat} {segment : String} {segments segments' : List String}

/-! ## Identity -/

/-- The tree that is only a root holds one node for its only route. -/
theorem Interned.initial : Interned {} where
  toCoherent := .initial
  above hne hlt := absurd (Nat.lt_one_iff.1 hlt) hne

/-- Some list of segments leads to each node. -/
theorem Interned.exists_at (h : tree.Interned) (hplace : place < tree.nodes.length) :
    ∃ segments, (tree.node place).At segments := by
  induction place using Nat.strongRecOn with
  | ind place ih =>
    by_cases hroot : place = KeyTree.root
    · exact ⟨[], hroot ▸ h.root⟩
    · obtain ⟨parent, segment, hlt, hlink⟩ := h.above hroot hplace
      obtain ⟨segments, hat⟩ := ih parent hlt (by omega)
      exact ⟨segments ++ [segment], h.child_at hlink hat⟩

/-- A node other than the root hangs, by the last of its segments, on the node that the others lead to. -/
theorem Interned.exists_link (h : tree.Interned) (hplace : place < tree.nodes.length) (hroot : place ≠ KeyTree.root)
    (hat : (tree.node place).At segments) :
    ∃ parent above segment, parent < place ∧ (tree.node parent).At above ∧ segments = above ++ [segment] ∧
      (tree.node parent).children.lookup segment = some place := by
  obtain ⟨parent, segment, hlt, hlink⟩ := h.above hroot hplace
  obtain ⟨above, habove⟩ := h.exists_at (Nat.lt_trans hlt hplace)
  exact ⟨parent, above, segment, hlt, habove, hat.unique (h.child_at hlink habove), hlink⟩

/-- No two nodes are led to by the same segments: their parents are, so they hang on one node by one link. -/
theorem Interned.eq_of_at (h : tree.Interned) (hplace : place < tree.nodes.length)
    (hplace' : place' < tree.nodes.length) (hat : (tree.node place).At segments)
    (hat' : (tree.node place').At segments) : place = place' := by
  induction place using Nat.strongRecOn generalizing place' segments with
  | ind place ih =>
    by_cases hroot : place = KeyTree.root <;> by_cases hroot' : place' = KeyTree.root
    · exact hroot.trans hroot'.symm
    · -- the root is led to by no segment, and any other node by one at least
      obtain ⟨parent, above, segment, -, -, rfl, -⟩ := h.exists_link hplace' hroot' hat'
      have heq := h.root.unique (hroot ▸ hat)
      simp at heq
    · obtain ⟨parent, above, segment, -, -, rfl, -⟩ := h.exists_link hplace hroot hat
      have heq := h.root.unique (hroot' ▸ hat')
      simp at heq
    · obtain ⟨parent, above, segment, hlt, habove, rfl, hlink⟩ := h.exists_link hplace hroot hat
      obtain ⟨parent', above', segment', hlt', habove', heq, hlink'⟩ := h.exists_link hplace' hroot' hat'
      obtain ⟨rfl, hlast⟩ := List.append_inj' heq rfl
      obtain rfl := List.singleton_inj.1 hlast
      obtain rfl := ih parent hlt (by omega) (by omega) habove habove'
      exact Option.some.inj (hlink.symm.trans hlink')

/-- Nodes are the same exactly if the same segments lead to them. -/
theorem Interned.eq_iff_of_at (h : tree.Interned) (hplace : place < tree.nodes.length)
    (hplace' : place' < tree.nodes.length) (hat : (tree.node place).At segments)
    (hat' : (tree.node place').At segments') : place = place' ↔ segments = segments' := by
  constructor
  · rintro rfl
    exact hat.unique hat'
  · rintro rfl
    exact h.eq_of_at hplace hplace' hat hat'

/-! ## Growth -/

/-- A tree keeps its own nodes. -/
theorem Keeps.refl (tree : KeyTree) : tree.Keeps tree where
  length_le := Nat.le_refl _
  moduleId _ := rfl
  key _ := rfl

/-- What is kept all along the way is kept. -/
theorem Keeps.trans {last : KeyTree} (h : tree.Keeps later) (hlater : later.Keeps last) : tree.Keeps last where
  length_le := Nat.le_trans h.length_le hlater.length_le
  moduleId hplace := (hlater.moduleId (Nat.lt_of_lt_of_le hplace h.length_le)).trans (h.moduleId hplace)
  key hplace := (hlater.key (Nat.lt_of_lt_of_le hplace h.length_le)).trans (h.key hplace)

/-- What leads to a node goes on leading to it. -/
theorem Keeps.at (h : tree.Keeps later) (hplace : place < tree.nodes.length) (hat : (tree.node place).At segments) :
    (later.node place).At segments where
  moduleId := (h.moduleId hplace).trans hat.moduleId
  key := (h.key hplace).trans hat.key

/-- Going to a child keeps every node that is there. -/
theorem keeps_get (tree : KeyTree) (place : Nat) (segment : String) : tree.Keeps (tree.get place segment).1 := by
  cases hlookup : (tree.node place).children.lookup segment with
  | some child =>
    rw [get_of_some hlookup]
    exact .refl tree
  | none =>
    -- a node that is there may get one more child, and changes in nothing else
    have hsame {other : Nat} (hother : other < tree.nodes.length) :
        ((tree.get place segment).1.node other).moduleId = (tree.node other).moduleId ∧
          ((tree.get place segment).1.node other).key = (tree.node other).key := by
      rw [node_get_old hlookup hother]
      split
      · rename_i heq
        rw [heq]
        exact ⟨rfl, rfl⟩
      · exact ⟨rfl, rfl⟩
    refine ⟨?_, fun hother => (hsame hother).1, fun hother => (hsame hother).2⟩
    rw [length_get hlookup]
    exact Nat.le_succ _

/-- Following a route keeps every node that is there. -/
theorem keeps_follow (tree : KeyTree) (place : Nat) (segments : List String) :
    tree.Keeps (tree.follow place segments).1 := by
  induction segments generalizing tree place with
  | nil => exact .refl tree
  | cons segment segments ih => exact (keeps_get tree place segment).trans (ih _ _)

/-- A link stays when a node is added. -/
theorem lookup_get (h : (tree.node place).children.lookup segment = none) {other child : Nat} {label : String}
    (hlink : (tree.node other).children.lookup label = some child) (hother : other < tree.nodes.length) :
    ((tree.get place segment).1.node other).children.lookup label = some child := by
  rw [node_get_old h hother]
  split
  · rename_i heq
    subst heq
    rw [List.lookup_append, hlink, Option.some_or]
  · exact hlink

/-- Going to a node below leads to a node of the tree and keeps the nodes interned. -/
theorem Interned.get (h : tree.Interned) (hplace : place < tree.nodes.length) (segment : String) :
    (tree.get place segment).1.Interned ∧
      (tree.get place segment).2 < (tree.get place segment).1.nodes.length := by
  cases hlookup : (tree.node place).children.lookup segment with
  | some child =>
    rw [get_of_some hlookup]
    exact ⟨h, h.child_lt hlookup⟩
  | none =>
    have hlength := length_get hlookup
    have hnew : (tree.get place segment).2 = tree.nodes.length := by rw [get_of_none hlookup]
    refine ⟨⟨h.toCoherent.get place segment, fun {other} hroot hother => ?_⟩, by omega⟩
    by_cases hold : other < tree.nodes.length
    · obtain ⟨parent, label, hlt, hlink⟩ := h.above hroot hold
      exact ⟨parent, label, hlt, lookup_get hlookup hlink (Nat.lt_trans hlt hold)⟩
    · -- the new node hangs on the one that was gone on from
      obtain rfl : other = tree.nodes.length := by omega
      refine ⟨place, segment, hplace, ?_⟩
      rw [node_get_old hlookup hplace, if_pos rfl, List.lookup_append, hlookup, Option.none_or, Entries.lookup_cons,
        if_pos rfl]

/-- Following a route leads to a node of a tree that holds one node for each route. -/
theorem Interned.follow (h : tree.Interned) (hplace : place < tree.nodes.length) (segments : List String) :
    (tree.follow place segments).1.Interned ∧
      (tree.follow place segments).2 < (tree.follow place segments).1.nodes.length := by
  induction segments generalizing tree place with
  | nil => exact ⟨h, hplace⟩
  | cons segment segments ih =>
    obtain ⟨hnext, hlt⟩ := h.get hplace segment
    exact ih hnext hlt

/-! ## Dotted texts -/

/-- Following a route is going to one child after another. -/
theorem follow_eq_foldl (tree : KeyTree) (place : Nat) (segments : List String) :
    tree.follow place segments =
      segments.foldl (fun reached segment => reached.1.get reached.2 segment) (tree, place) := by
  induction segments generalizing tree place with
  | nil => rfl
  | cons segment segments ih => exact ih _ _

/-- A route is followed part by part. -/
theorem follow_append (tree : KeyTree) (place : Nat) (segments more : List String) :
    tree.follow place (segments ++ more) =
      (tree.follow place segments).1.follow (tree.follow place segments).2 more := by
  induction segments generalizing tree place with
  | nil => rfl
  | cons segment segments ih => exact ih _ _

/-- Going along a dotted text is going down segment by segment, the empty ones left out. -/
theorem path_eq_foldl (tree : KeyTree) (place : Nat) (dotted : String) :
    tree.path place dotted = ((Key.split dotted).filter (· ≠ "")).foldl
      (fun reached segment => reached.1.get reached.2 segment) (tree, place) := by
  rw [path, follow_eq_foldl, Key.steps_eq_filter_split]

/-- The empty path leads nowhere else. -/
theorem path_empty (tree : KeyTree) (place : Nat) : tree.path place "" = (tree, place) := by
  rw [path_eq_foldl]
  rfl

/-- Texts joined by a dot are gone along one after the other. -/
theorem path_dot (tree : KeyTree) (place : Nat) (dotted more : String) :
    tree.path place (dotted ++ "." ++ more) =
      (tree.path place dotted).1.path (tree.path place dotted).2 more := by
  have hsteps : Key.steps (dotted ++ "." ++ more) = Key.steps dotted ++ Key.steps more := by
    simp only [Key.steps, String.toList_append]
    rw [show ".".toList = ['.'] from rfl, List.append_assoc, List.singleton_append, pieces_append_sep,
      List.filter_append, List.map_append]
  rw [path, hsteps, follow_append]
  rfl

end KeyTree

end Phrasebook
