import Phrasebook.Text.Pieces

/-!
# File trees

A directory with files and further directories below it, and what reading and opening paths in it gives.
Paths are walked component by component; nothing outside the tree exists.
-/

namespace Phrasebook

/-- What is at a place of a file tree. -/
inductive FileEntry where
  | directory
  | file (bytes : ByteArray)
  deriving Inhabited

/-- Files and directories by their components, below a directory that always exists. -/
structure FileTree where
  entries : List (List String × FileEntry) := []

/-- Why a path cannot be read or opened. -/
inductive FileFault where
  | notFound
  | notDirectory
  | isDirectory
  | nameTooLong
  | holdsNul
  | notText
  deriving DecidableEq, Repr

/-- The wording of a file fault. -/
def FileFault.message : FileFault → String
  | .notFound => "No such file or directory (os error 2)"
  | .notDirectory => "Not a directory (os error 20)"
  | .isDirectory => "Is a directory (os error 21)"
  | .nameTooLong => "File name too long (os error 36)"
  | .holdsNul => "file name contained an unexpected NUL byte"
  | .notText => "stream did not contain valid UTF-8"

namespace FileTree

/-- The entry at a place; the place without components is the directory itself. -/
def entry? (tree : FileTree) (place : List String) : Option FileEntry :=
  if place = [] then some .directory else tree.entries.lookup place

/-- Put an entry at a place, and directories above it where there is nothing. -/
def insert (tree : FileTree) (place : List String) (entry : FileEntry) : FileTree :=
  let above := (List.range place.length).map place.take
  let missing := above.filter fun dir => (tree.entry? dir).isNone
  ⟨(place, entry) :: missing.map (·, FileEntry.directory) ++ tree.entries⟩

/-- The components of a path as they are written, with empty ones. -/
def components (path : String) : List String :=
  (pieces '/' path.toList).map String.ofList

/-- Put an entry at a path, and directories above it. -/
def insertPath (tree : FileTree) (path : String) (entry : FileEntry) : FileTree :=
  tree.insert ((components path).filter fun name => name ≠ "" && name ≠ ".") entry

/-- The longest name of a file, in bytes. -/
def maxNameLength : Nat := 255

/-- Walk down from a place along components. -/
def walk (tree : FileTree) (place : List String) : List String → Except FileFault (List String)
  | [] => .ok place
  | name :: names =>
    match tree.entry? place with
    | none => .error .notFound
    | some (.file _) => .error .notDirectory
    | some .directory =>
      if name = "" || name = "." then walk tree place names
      else if name = ".." then
        if place = [] then .error .notFound else walk tree place.dropLast names
      else if maxNameLength < name.utf8ByteSize then .error .nameTooLong
      else if (tree.entry? (place ++ [name])).isNone then .error .notFound
      else walk tree (place ++ [name]) names

/-- Check what every use of a path needs: it is not empty, holds no NUL and does not begin outside. -/
def checkPath (path : String) : Except FileFault (List String) :=
  if path.toList.any (·.toNat = 0) then .error .holdsNul
  else if path.toList.head? = none || path.toList.head? = some '/' then .error .notFound
  else .ok (components path)

/-- The place that a path leads to. -/
def find (tree : FileTree) (path : String) : Except FileFault (List String) := do
  tree.walk [] (← checkPath path)

/-- The text in the file at a path. -/
def readText (tree : FileTree) (path : String) : Except FileFault String := do
  match tree.entry? (← tree.find path) with
  | some (.file bytes) =>
    match String.fromUTF8? bytes with
    | some text => .ok text
    | none => .error .notText
  | some .directory => .error .isDirectory
  | none => .error .notFound

/-- Whether a path leads to a file. -/
def isFile (tree : FileTree) (path : String) : Bool :=
  match (tree.find path).toOption.bind tree.entry? with
  | some (.file _) => true
  | _ => false

/-- Open the file at a path for appending, making it if it is not there. -/
def openAppend (tree : FileTree) (path : String) : Except FileFault FileTree := do
  let names ← checkPath path
  -- slashes at the end ask for a directory, and so do `.` and `..`
  let trimmed := (names.reverse.dropWhile (· = "")).reverse
  let dir ← tree.walk [] trimmed.dropLast
  match trimmed.getLast? with
  | none => .error .isDirectory
  | some name =>
    match tree.entry? dir with
    | some (.file _) => .error .notDirectory
    | _ =>
      if name = "." || name = ".." || trimmed.length < names.length then .error .isDirectory
      else if maxNameLength < name.utf8ByteSize then .error .nameTooLong
      else match tree.entry? (dir ++ [name]) with
        | some .directory => .error .isDirectory
        | some (.file _) => .ok tree
        | none => .ok (tree.insert (dir ++ [name]) (.file .empty))

end FileTree

end Phrasebook
