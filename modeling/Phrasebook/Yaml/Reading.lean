import Phrasebook.Document.View
import Phrasebook.Resource.Basic
import Phrasebook.Yaml.Document
import Phrasebook.Yaml.Plain

/-!
# Reading YAML as something

What a YAML node is as a resource, and how a configuration is read from it. Following aliases is limited, so
that a small text cannot stand for a huge resource.
-/

namespace Phrasebook.Yaml

/-- The tag with the given name that needs no directive. -/
def coreTag (name : String) : String := "tag:yaml.org,2002:" ++ name

/-- Whether a tag is private to a text. -/
def isPrivateTag (tag : String) : Bool := tag.toList.head? = some '!'

/-- Whether a scalar is a text. -/
def isText (tag : Option String) (style : Style) (text : String) : Bool :=
  match tag with
  | some tag => !isPrivateTag tag && tag ∉ ["null", "bool", "int", "float"].map coreTag
  | none => style ≠ .plain || isTextWord text

/-- How deep the tables of a resource file may be nested. -/
def maxResourceDepth : Nat := 128

/-- How often aliases may be followed, for each event of a document. -/
def aliasesPerEvent : Nat := 100

namespace Document

/-- How often aliases of the document may be followed. -/
def aliasLimit (document : Document) : Nat := document.root.extent * aliasesPerEvent

/-- Follow an alias, if the node is one, given how often aliases may still be followed. -/
def visit? (document : Document) (left : Nat) (node : Node Nat) : Option (Nat × Node Nat) :=
  match node with
  | .alias _ => if left = 0 then none else some (left - 1, document.follow node)
  | node => some (left, node)

/-- The text that a node is. -/
def textOf? (document : Document) (left : Nat) (node : Node Nat) : Option (Nat × String) :=
  match document.visit? left node with
  | some (left, .scalar p style text) => if isText p.tag style text then some (left, text) else none
  | _ => none

/-- The resource that a node is: a text, or a record of resources of limited depth. -/
def resourceOf? (document : Document) : (depth left : Nat) → Node Nat → Option (Nat × Resource)
  | 0, left, node => (document.textOf? left node).map fun (left, text) => (left, .text text)
  | depth + 1, left, node =>
    match document.visit? left node with
    | some (left, .record p entries) =>
      if p.tag.any isPrivateTag then none
      else do
        let (left, entries) ← entries.foldlM (fun (left, done) (key, value) => do
          let (left, name) ← document.textOf? left key
          let (left, resource) ← document.resourceOf? depth left value
          return (left, (name, resource) :: done)) (left, [])
        return (left, Resource.ofList entries.reverse)
    | some (left, .scalar p style text) => if isText p.tag style text then some (left, .text text) else none
    | _ => none

end Document

/-- The resource in a YAML file. -/
def readResource? (text : String) : Option Resource := do
  let document ← read? text
  let (_, resource) ← document.resourceOf? maxResourceDepth document.aliasLimit document.root
  return resource

/-! ## Configurations -/

/-- Whether a scalar can be read as a value of the given kind. -/
def canBe (kind : String) (p : Properties Nat) (style : Style) : Bool :=
  style = .plain || (style = .literal && p.tag = some (coreTag kind))

/-- The text of a scalar, whatever it spells. -/
def scalarText? : Node Nat → Option String
  | .scalar _ _ text => some text
  | _ => none

/-- How a configuration is read from the nodes of a document. Where a list or a record is expected, it can be
left out. -/
def view (document : Document) : View (Node Nat) where
  text? node := scalarText? (document.follow node)
  flag? node :=
    match document.follow node with
    | .scalar p style text => if canBe "bool" p style then flagWord? text else none
    | _ => none
  natural? node :=
    match document.follow node with
    | .scalar p style text => if canBe "int" p style then natural? text else none
    | _ => none
  items? node :=
    match document.follow node with
    | .list _ items => some items
    | .scalar _ .plain "" => some []
    | _ => none
  fields? names node :=
    match document.follow node with
    | .record _ entries => do
      let entries ← entries.mapM fun (key, value) => do
        return (← scalarText? (document.follow key), value)
      View.namedFields? names entries
    | .scalar _ .plain "" => some []
    | _ => none
  optional? node :=
    match document.follow node with
    | .scalar p .plain text =>
      if p.tag = some (coreTag "null") then (if isNullWord text then some none else none)
      else if p.tag = none && (text = "" || isNullWord text) then some none
      else some (some node)
    | _ => some (some node)
  choice? node :=
    match document.follow node with
    | .scalar p style text =>
      match p.tag with
      | some tag =>
        if isPrivateTag tag then
          if style = .plain && (text = "" || isNullWord text) then some (String.ofList (tag.toList.drop 1))
          else none
        else some text
      | none => some text
    | _ => none

end Phrasebook.Yaml
