import Phrasebook.Template.Engine
import Phrasebook.Text.Blank

/-!
# Placeholders

The plain template engine replaces `{name}` by an argument. Text between braces that is blank or holds a
brace is no placeholder, and a placeholder without an argument is left as it stands. Main statement: the
segments of a text, written again, are the text (`Segment.flatten_segments`).
-/

namespace Phrasebook

/-- A part of a template text: a character that stands for itself, or the content of a placeholder. -/
inductive Segment where
  | literal (c : Char)
  | placeholder (content : List Char)
  deriving DecidableEq, Repr

namespace Segment

/-- The characters that a segment was read from. -/
def source : Segment → List Char
  | .literal c => [c]
  | .placeholder content => '{' :: content ++ ['}']

/-- After an opening brace: the content of a placeholder and what follows it, if the next brace closes
and the content is not blank. -/
def content? (cs : List Char) : Option (List Char × List Char) :=
  let isBrace (c : Char) : Bool := c == '{' || c == '}'
  let content := cs.takeWhile (!isBrace ·)
  match cs.dropWhile (!isBrace ·) with
  | '}' :: rest => if content.all isBlank then none else some (content, rest)
  | _ => none

/-- What is found behind an opening brace is followed by a closing one. -/
theorem eq_of_content? {cs content rest : List Char} (h : content? cs = some (content, rest)) :
    cs = content ++ '}' :: rest := by
  unfold content? at h
  simp only at h
  split at h
  · rename_i rest' hdrop
    split at h
    · simp at h
    · simp only [Option.some.injEq, Prod.mk.injEq] at h
      obtain ⟨rfl, rfl⟩ := h
      rw [← hdrop]
      exact List.takeWhile_append_dropWhile.symm
  · simp at h

/-- Cut a template text into segments. -/
def segments (cs : List Char) : List Segment :=
  match cs with
  | [] => []
  | '{' :: cs =>
    match _h : content? cs with
    | some (content, rest) => .placeholder content :: segments rest
    | none => .literal '{' :: segments cs
  | c :: cs => .literal c :: segments cs
termination_by cs.length
decreasing_by
  · have := congrArg List.length (eq_of_content? ‹_›)
    simp at this ⊢
    omega
  · simp
  · simp

/-- The segments of a text, written one after another, are the text. -/
theorem flatten_segments (cs : List Char) : (segments cs).flatMap source = cs := by
  fun_induction segments cs with
  | case1 => rfl
  | case2 cs content rest h ih =>
    rw [List.flatMap_cons, ih, eq_of_content? h]
    simp [source]
  | case3 cs h ih => rw [List.flatMap_cons, ih]; rfl
  | case4 c cs _ ih => rw [List.flatMap_cons, ih]; rfl

/-- The text of a segment for the given arguments. -/
def fill (args : Option Args) : Segment → List Char
  | .literal c => [c]
  | .placeholder content =>
    match args.bind fun args => args.get? (String.ofList (trim content)) with
    | some value => value.display.toList
    | none => (placeholder content).source

end Segment

/-- Replace the placeholders of a text by arguments; inserted values are not read again. -/
def interpolate (raw : String) (args : Option Args) : String :=
  String.ofList ((Segment.segments raw.toList).flatMap (Segment.fill args))

/-- The engine that replaces placeholders and accepts every text. -/
def Engine.interpolation : Engine where
  compile _ _ raw := .ok fun args => .ok (interpolate raw args)

end Phrasebook
