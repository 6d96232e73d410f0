import Phrasebook.Text.Pieces

/-!
# File paths

Paths are text with slashes between components. Joining to an absolute path gives that path.
-/

namespace Phrasebook.Path

/-- A path below another one; an absolute path replaces what precedes it. -/
def join (base part : String) : String :=
  let cs := base.toList
  if part.toList.head? = some '/' then part
  else if cs.isEmpty || cs.getLast? = some '/' then base ++ part
  else base ++ "/" ++ part

/-- The components of a path that name something. -/
def components (path : String) : List (List Char) :=
  (pieces '/' path.toList).filter fun component => component ≠ [] && component ≠ ['.']

/-- The name of the file that a path leads to. -/
def fileName? (path : String) : Option (List Char) :=
  match (components path).getLast? with
  | some name => if name = ['.', '.'] then none else some name
  | none => none

/-- What follows the last dot of the file name, unless that dot begins the name. -/
def extension? (path : String) : Option String :=
  match fileName? path with
  | none => none
  | some name =>
    match (pieces '.' name).reverse with
    | last :: before :: rest =>
      if rest = [] && before = [] then none else some (String.ofList last)
    | _ => none

end Phrasebook.Path
