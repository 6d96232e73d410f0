import Phrasebook.Key
import Phrasebook.Name

/-!
# Navigation

Keys can be reached step by step from a root: the first segment names the module, every further one
extends the key. The nodes are kept in a tree that grows as it is walked, so the same steps always lead
to the same node.
-/

namespace Phrasebook

/-- A place in the tree: what it addresses, and the nodes below it that were visited. -/
structure KeyNode where
  moduleId : Option ModuleId
  key : Key
  children : List (String × Nat)
  deriving DecidableEq, Repr, Inhabited

namespace KeyNode

/-- The node above all modules. -/
def root : KeyNode := ⟨none, [], []⟩

/-- A node one segment below this one. -/
def extend (node : KeyNode) (segment : String) : KeyNode :=
  match node.moduleId with
  | none => ⟨some ⟨segment⟩, [], []⟩
  | some moduleId => ⟨some moduleId, node.key ++ [segment], []⟩

/-- The address that a node shows; the root shows none. -/
def display (node : KeyNode) : String :=
  match node.moduleId with
  | none => ""
  | some moduleId => moduleId.name ++ ":" ++ Key.dotted node.key

end KeyNode

/-- The nodes visited so far; a node is known by its place, and the root comes first. -/
structure KeyTree where
  nodes : List KeyNode := [KeyNode.root]
  deriving DecidableEq, Repr, Inhabited

namespace KeyTree

/-- The place of the root. -/
def root : Nat := 0

/-- The node at a place. -/
def node (tree : KeyTree) (place : Nat) : KeyNode :=
  tree.nodes[place]?.getD KeyNode.root

/-- Go to the node one segment below, which is new only the first time. -/
def get (tree : KeyTree) (place : Nat) (segment : String) : KeyTree × Nat :=
  let node := tree.node place
  match node.children.lookup segment with
  | some child => (tree, child)
  | none =>
    let child := tree.nodes.length
    let parent := { node with children := node.children ++ [(segment, child)] }
    (⟨tree.nodes.set place parent ++ [node.extend segment]⟩, child)

/-- Go down along segments. -/
def follow (tree : KeyTree) (place : Nat) : List String → KeyTree × Nat
  | [] => (tree, place)
  | segment :: segments =>
    let next := tree.get place segment
    follow next.1 next.2 segments

/-- Go down along the segments of a dotted text, leaving out empty ones. -/
def path (tree : KeyTree) (place : Nat) (dotted : String) : KeyTree × Nat :=
  tree.follow place (Key.steps dotted)

end KeyTree

end Phrasebook
