import Phrasebook.Yaml.Node

/-!
# YAML documents

Anchors are numbered by how many names are known when one is met, so a name that is used again can share its
number with the next new one. An alias means the last node of the whole document that has its number; such
nodes can hold aliases to themselves.
-/

namespace Phrasebook.Yaml

/-- The names of anchors so far with their numbers, each name once. -/
abbrev AnchorNumbers := List (String × Nat)

/-- Give the anchor of a node its number. -/
def Properties.number (known : AnchorNumbers) (p : Properties String) : Properties Nat × AnchorNumbers :=
  match p.anchor with
  | none => ({ tag := p.tag }, known)
  | some name =>
    ({ anchor := some known.length, tag := p.tag },
      (name, known.length) :: known.filter fun entry => entry.1 ≠ name)

mutual

/-- Replace names by numbers in a node. An alias to a name that is not known yet is a fault. -/
def Node.number? (known : AnchorNumbers) : Node String → Option (Node Nat × AnchorNumbers)
  | .alias name => (known.lookup name).map fun n => (.alias n, known)
  | .scalar p style text =>
    let (p, known) := p.number known
    some (.scalar p style text, known)
  | .list p items =>
    let (p, known) := p.number known
    (numberItems? known items).map fun (items, known) => (.list p items, known)
  | .record p entries =>
    let (p, known) := p.number known
    (numberEntries? known entries).map fun (entries, known) => (.record p entries, known)

/-- Replace names by numbers in items, from left to right. -/
def numberItems? (known : AnchorNumbers) : List (Node String) → Option (List (Node Nat) × AnchorNumbers)
  | [] => some ([], known)
  | item :: items => do
    let (item, known) ← item.number? known
    let (items, known) ← numberItems? known items
    return (item :: items, known)

/-- Replace names by numbers in entries, from left to right. -/
def numberEntries? (known : AnchorNumbers) :
    List (Node String × Node String) → Option (List (Node Nat × Node Nat) × AnchorNumbers)
  | [] => some ([], known)
  | (key, value) :: entries => do
    let (key, known) ← key.number? known
    let (value, known) ← value.number? known
    let (entries, known) ← numberEntries? known entries
    return ((key, value) :: entries, known)

end

/-- A node under its number, if it has one. -/
def Properties.mark {ι : Type} (p : Properties ι) (node : Node ι) : List (ι × Node ι) :=
  (p.anchor.map fun n => (n, node)).toList

mutual

/-- The nodes that have anchors, in the order in which they begin. -/
def Node.anchored {ι : Type} : Node ι → List (ι × Node ι)
  | .alias _ => []
  | .scalar p style text => p.mark (.scalar p style text)
  | .list p items => p.mark (.list p items) ++ anchoredItems items
  | .record p entries => p.mark (.record p entries) ++ anchoredEntries entries

/-- The nodes among items that have anchors. -/
def anchoredItems {ι : Type} : List (Node ι) → List (ι × Node ι)
  | [] => []
  | item :: items => item.anchored ++ anchoredItems items

/-- The nodes among entries that have anchors. -/
def anchoredEntries {ι : Type} : List (Node ι × Node ι) → List (ι × Node ι)
  | [] => []
  | (key, value) :: entries => key.anchored ++ value.anchored ++ anchoredEntries entries

end

mutual

/-- How long a node is: one for each scalar and alias, and one for each end of a list or record. -/
def Node.extent {ι : Type} : Node ι → Nat
  | .alias _ | .scalar .. => 1
  | .list _ items => extentOfItems items + 2
  | .record _ entries => extentOfEntries entries + 2

/-- How long items are together. -/
def extentOfItems {ι : Type} : List (Node ι) → Nat
  | [] => 0
  | item :: items => item.extent + extentOfItems items

/-- How long entries are together. -/
def extentOfEntries {ι : Type} : List (Node ι × Node ι) → Nat
  | [] => 0
  | (key, value) :: entries => key.extent + value.extent + extentOfEntries entries

end

/-- A document: its root, and the nodes that aliases can mean, of which the first of a number counts. -/
structure Document where
  root : Node Nat
  targets : List (Nat × Node Nat)

namespace Document

/-- The document whose root is read from tokens. -/
def ofRoot? (root : Node String) : Option Document :=
  (root.number? []).map fun (root, _) => { root, targets := root.anchored.reverse }

/-- The node that a node stands for: itself, unless it is an alias. -/
def follow (document : Document) : Node Nat → Node Nat
  | .alias n => (document.targets.lookup n).getD .missing
  | node => node

end Document

/-- The document that a text holds. -/
def read? (text : String) : Option Document := do
  Document.ofRoot? (← document? (← tokens? text))

end Phrasebook.Yaml
