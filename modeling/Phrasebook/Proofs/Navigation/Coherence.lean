import Phrasebook.Entries
import Phrasebook.Navigation

/-!
# Coherent key trees

A node of a key tree addresses the segments that lead to it from the root: the first one names the module and the
others are the key (`KeyNode.At`). A tree is coherent if every link between its nodes adds the segment that it
stands for. Going to a node keeps that (`Coherent.get`), so following segments leads to the node that they address,
whatever was visited before (`Coherent.node_follow`).
-/

namespace Phrasebook

/-- The segments lead from the root to the node: the first one names its module, and the others are its key. -/
structure KeyNode.At (node : KeyNode) (segments : List String) : Prop where
  moduleId : node.moduleId = segments.head?.map ModuleId.mk
  key : node.key = segments.tail

/-- The root stands at the empty route. -/
theorem KeyNode.at_root : KeyNode.root.At [] :=
  ⟨rfl, rfl⟩

/-- A node one segment below is led to by one segment more. -/
theorem KeyNode.At.extend {node : KeyNode} {segments : List String} (h : node.At segments) (segment : String) :
    (node.extend segment).At (segments ++ [segment]) := by
  obtain ⟨hmodule, hkey⟩ := h
  cases segments with
  | nil =>
    have hnone : node.moduleId = none := hmodule
    rw [KeyNode.extend, hnone]
    exact ⟨rfl, rfl⟩
  | cons first rest =>
    have hsome : node.moduleId = some ⟨first⟩ := hmodule
    rw [KeyNode.extend, hsome, hkey]
    exact ⟨rfl, rfl⟩

namespace KeyTree

/-- A link to a node below stands for a segment that the node has more, and there is such a node. -/
structure Coherent (tree : KeyTree) : Prop where
  length_pos : 0 < tree.nodes.length
  root : (tree.node KeyTree.root).At []
  child_lt : ∀ {place segment child}, (tree.node place).children.lookup segment = some child →
    child < tree.nodes.length
  child_at : ∀ {place segment child segments}, (tree.node place).children.lookup segment = some child →
    (tree.node place).At segments → (tree.node child).At (segments ++ [segment])

/-- The tree that is only a root is coherent. -/
theorem Coherent.initial : Coherent {} where
  length_pos := Nat.zero_lt_one
  root := KeyNode.at_root
  child_lt {place segment child} h := by
    cases place <;> simp [node, KeyNode.root] at h
  child_at {place segment child segments} h := by
    cases place <;> simp [node, KeyNode.root] at h

variable {tree : KeyTree} {place : Nat} {segment : String}

/-! ## Going to a node below -/

/-- A child that exists is found, and the tree stays as it is. -/
theorem get_of_some {child : Nat} (h : (tree.node place).children.lookup segment = some child) :
    tree.get place segment = (tree, child) := by
  simp only [get, h]

/-- A child that does not exist is hung up behind all other nodes. -/
theorem get_of_none (h : (tree.node place).children.lookup segment = none) :
    tree.get place segment =
      (⟨tree.nodes.set place { tree.node place with
          children := (tree.node place).children ++ [(segment, tree.nodes.length)] } ++
        [(tree.node place).extend segment]⟩, tree.nodes.length) := by
  simp only [get, h]

/-- The node that is new. -/
theorem node_get_new (h : (tree.node place).children.lookup segment = none) :
    (tree.get place segment).1.node tree.nodes.length = (tree.node place).extend segment := by
  rw [get_of_none h, node, List.getElem?_append_right (by simp)]
  simp

/-- A node that was there gets one link more if it is the one above the new node, and no other node changes. -/
theorem node_get_old (h : (tree.node place).children.lookup segment = none) {other : Nat}
    (hother : other < tree.nodes.length) :
    (tree.get place segment).1.node other =
      if other = place then { tree.node place with
        children := (tree.node place).children ++ [(segment, tree.nodes.length)] }
      else tree.node other := by
  rw [get_of_none h, node, List.getElem?_append_left (by simpa using hother), List.getElem?_set]
  by_cases heq : place = other
  · subst heq
    rw [if_pos rfl, if_pos rfl, if_pos hother]
    rfl
  · rw [if_neg heq, if_neg (Ne.symm heq)]
    rfl

/-- Where there is no node there is nothing below. -/
theorem node_of_le (h : tree.nodes.length ≤ place) : tree.node place = KeyNode.root := by
  rw [node, List.getElem?_eq_none h]
  rfl

/-- A child that is made is one node more. -/
theorem length_get (h : (tree.node place).children.lookup segment = none) :
    (tree.get place segment).1.nodes.length = tree.nodes.length + 1 := by
  rw [get_of_none h]
  simp

/-- The segments that lead to a node stay the same. -/
theorem at_get_old (h : (tree.node place).children.lookup segment = none) {other : Nat}
    (hother : other < tree.nodes.length) {segments : List String} :
    ((tree.get place segment).1.node other).At segments ↔ (tree.node other).At segments := by
  rw [node_get_old h hother]
  by_cases heq : other = place
  · rw [if_pos heq, heq]
    exact ⟨fun ⟨hmodule, hkey⟩ => ⟨hmodule, hkey⟩, fun ⟨hmodule, hkey⟩ => ⟨hmodule, hkey⟩⟩
  · rw [if_neg heq]

/-- A link that is there afterwards was there before, or it is the one to the new node. -/
theorem link_get (h : (tree.node place).children.lookup segment = none) {other child : Nat} {label : String}
    (hlink : ((tree.get place segment).1.node other).children.lookup label = some child) :
    other < tree.nodes.length ∧ ((tree.node other).children.lookup label = some child ∨
      other = place ∧ label = segment ∧ child = tree.nodes.length) := by
  -- an old node, the new one, or none at all
  rcases Nat.lt_trichotomy other tree.nodes.length with hlt | rfl | hgt
  · refine ⟨hlt, ?_⟩
    rw [node_get_old h hlt] at hlink
    by_cases heq : other = place
    · subst heq
      rw [if_pos rfl] at hlink
      rcases hold : (tree.node other).children.lookup label with _ | old
      · rw [List.lookup_append, hold, Option.none_or, Entries.lookup_cons] at hlink
        split at hlink
        · rename_i hlabel
          exact .inr ⟨rfl, hlabel, (Option.some.inj hlink).symm⟩
        · simp at hlink
      · rw [List.lookup_append, hold, Option.some_or] at hlink
        exact .inl hlink
    · rw [if_neg heq] at hlink
      exact .inl hlink
  · -- the new node has no links yet
    rw [node_get_new h] at hlink
    cases hmodule : (tree.node place).moduleId <;> simp [KeyNode.extend, hmodule] at hlink
  · rw [node_of_le (by rw [length_get h]; omega)] at hlink
    simp [KeyNode.root] at hlink

/-- Going to a node below leads to the node that has one segment more. -/
theorem Coherent.node_get (h : tree.Coherent) {segments : List String} (hat : (tree.node place).At segments) :
    ((tree.get place segment).1.node (tree.get place segment).2).At (segments ++ [segment]) := by
  cases hlookup : (tree.node place).children.lookup segment with
  | some child =>
    rw [get_of_some hlookup]
    exact h.child_at hlookup hat
  | none =>
    have hplace : (tree.get place segment).2 = tree.nodes.length := by rw [get_of_none hlookup]
    rw [hplace, node_get_new hlookup]
    exact hat.extend segment

/-- Going to a node keeps the tree coherent. -/
theorem Coherent.get (h : tree.Coherent) (place : Nat) (segment : String) : (tree.get place segment).1.Coherent := by
  cases hlookup : (tree.node place).children.lookup segment with
  | some child =>
    rw [get_of_some hlookup]
    exact h
  | none =>
    have hlength := length_get hlookup
    constructor
    case length_pos => omega
    case root => exact (at_get_old hlookup h.length_pos).2 h.root
    case child_lt =>
      intro other label child hlink
      rcases link_get hlookup hlink with ⟨-, hold | ⟨-, -, rfl⟩⟩
      · have := h.child_lt hold
        omega
      · omega
    case child_at =>
      intro other label child segments hlink hat
      obtain ⟨hother, hold | ⟨rfl, rfl, rfl⟩⟩ := link_get hlookup hlink
      · rw [at_get_old hlookup hother] at hat
        exact (at_get_old hlookup (h.child_lt hold)).2 (h.child_at hold hat)
      · rw [at_get_old hlookup hother] at hat
        rw [node_get_new hlookup]
        exact hat.extend label

/-! ## Following segments -/

/-- Following segments leads to the node that they address, below the node where they begin. -/
theorem Coherent.node_follow (h : tree.Coherent) {segments : List String} (hat : (tree.node place).At segments)
    (more : List String) :
    ((tree.follow place more).1.node (tree.follow place more).2).At (segments ++ more) := by
  induction more generalizing tree place segments with
  | nil => simpa [follow] using hat
  | cons segment more ih => simpa [follow] using ih (h.get place segment) (h.node_get hat)

/-- Following a route keeps the tree coherent, by induction on the route. -/
theorem Coherent.follow (h : tree.Coherent) (place : Nat) (segments : List String) :
    (tree.follow place segments).1.Coherent := by
  induction segments generalizing tree place with
  | nil => exact h
  | cons segment segments ih => exact ih (h.get place segment) _

end KeyTree

end Phrasebook
