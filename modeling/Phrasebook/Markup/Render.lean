import Phrasebook.Markup.Token

/-!
# Rendering markup

Tags are turned into values by wrappers, which get the rendered nodes inside a tag and its name. A closer
belongs to the last opener that is still open, whatever their names; an opener that is never closed leaves
its content where it stands. The whole text is rendered by the fallback wrapper under an empty name.
-/

namespace Phrasebook.Markup

/-- A rendered node: text, or the value of a wrapper. -/
inductive Node (α : Type) where
  | text (content : String)
  | tag (value : α)
  deriving Repr, DecidableEq

/-- The text of a node that is text. -/
def Node.asText {α : Type} : Node α → Option String
  | .text content => some content
  | .tag _ => none

/-- The string in a node over strings. -/
def Node.toString : Node String → String
  | .text content => content
  | .tag value => value

/-- Renders a tag from the nodes inside it and its name. -/
abbrev Wrapper (α : Type) := List (Node α) → String → Node α

/-- The wrapper that keeps the strings inside a tag and drops the tag. -/
def concatenate : Wrapper String := fun nodes _ => .text (String.join (nodes.map Node.toString))

/-- Nodes collected so far: those of the enclosing open tags, innermost first, and those of the tag being
read. -/
structure Frames (α : Type) where
  outer : List (List (Node α))
  current : List (Node α)

namespace Frames

variable {α : Type}

/-- Nothing read yet. -/
def start : Frames α := ⟨[], []⟩

/-- Add a node to the tag being read. -/
def push (frames : Frames α) (node : Node α) : Frames α :=
  { frames with current := frames.current ++ [node] }

/-- Take up one item of the text. -/
def step (render : Wrapper α) (frames : Frames α) : Item → Frames α
  | .literal text => frames.push (.text (String.ofList text))
  | .token (.selfClosing name) => frames.push (render [] name)
  | .token (.opener _) => ⟨frames.current :: frames.outer, []⟩
  | .token (.closer name) =>
    match frames.outer with
    | [] => frames.push (render [] name)
    | enclosing :: outer => ⟨outer, enclosing ++ [render frames.current name]⟩

/-- All nodes in the order of the text. -/
def nodes (frames : Frames α) : List (Node α) :=
  frames.outer.reverse.flatten ++ frames.current

end Frames

/-- Render the tags of a text. Tags without a wrapper of their own, and the whole text, are rendered by
the fallback. -/
def render {α : Type} (wrappers : List (String × Wrapper α)) (fallback : Wrapper α) (text : String) :
    Node α :=
  let wrap : Wrapper α := fun nodes name => (wrappers.lookup name).getD fallback nodes name
  fallback (((Item.scan text.toList).foldl (Frames.step wrap) Frames.start).nodes) ""

end Phrasebook.Markup
