import Phrasebook.Text.Blank

/-!
# Markup tokens

Inline tags are `<name>`, `</name>` and `<name/>`. A name is not empty and holds no colon, no slash, no
`>` and no blank. `Item.scan` cuts a text into tokens and the literals between them.
-/

namespace Phrasebook.Markup

/-- A tag in a text. -/
inductive Token where
  | opener (name : String)
  | closer (name : String)
  | selfClosing (name : String)
  deriving DecidableEq, Repr

/-- A character that cannot be part of a tag name. -/
def endsName (c : Char) : Bool :=
  c == ':' || c == '>' || c == '/' || isBlank c

/-- Drop one slash from the front, and tell whether there was one. -/
def slash : List Char → Bool × List Char
  | '/' :: cs => (true, cs)
  | cs => (false, cs)

/-- The token at the start of a text, and what follows it. A slash behind the name makes a tag close
itself, also if there is one in front. -/
def Token.match? : List Char → Option (Token × List Char)
  | '<' :: cs =>
    let (closing, cs) := slash cs
    let name := cs.takeWhile (!endsName ·)
    let (closed, rest) := slash (cs.dropWhile (!endsName ·))
    match name, rest with
    | [], _ => none
    | _, '>' :: after =>
      let name := String.ofList name
      some (if closed then .selfClosing name else if closing then .closer name else .opener name, after)
    | _, _ => none
  | _ => none

/-- Looking for a slash takes one character at most. -/
theorem length_slash_le (cs : List Char) : (slash cs).2.length ≤ cs.length := by
  unfold slash; split <;> simp

/-- A token takes at least one character, so scanning ends. -/
theorem Token.length_of_match? {cs after : List Char} {token : Token}
    (h : Token.match? cs = some (token, after)) : after.length < cs.length := by
  unfold Token.match? at h
  split at h
  · rename_i cs
    simp only at h
    split at h
    · simp at h
    · rename_i after' hrest _
      have h1 := length_slash_le ((slash cs).2.dropWhile (!endsName ·))
      have h2 := (List.dropWhile_suffix (p := (!endsName ·)) (l := (slash cs).2)).length_le
      have h3 := length_slash_le cs
      rw [hrest] at h1
      obtain ⟨-, rfl⟩ := by simpa using h
      simp at h1 ⊢
      omega
    · simp at h
  · simp at h

/-- A part of a marked text. -/
inductive Item where
  | literal (text : List Char)
  | token (token : Token)
  deriving DecidableEq, Repr

/-- Put a literal character in front of items, into the literal that they begin with. -/
def Item.consLiteral (c : Char) : List Item → List Item
  | .literal text :: items => .literal (c :: text) :: items
  | items => .literal [c] :: items

/-- Cut a text into tokens and literals. -/
def Item.scan (cs : List Char) : List Item :=
  match _h : Token.match? cs with
  | some (tag, after) => .token tag :: scan after
  | none =>
    match cs with
    | [] => []
    | c :: cs => Item.consLiteral c (scan cs)
termination_by cs.length
decreasing_by
  · exact Token.length_of_match? ‹_›
  · simp

end Phrasebook.Markup
