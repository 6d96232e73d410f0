import Phrasebook.Entries
import Phrasebook.Key

/-!
# Resources

A resource is the tree of translations of one pair. A key finds an entry of the root table under its
dotted form first, and otherwise the node that its segments lead to, so both layouts can be used.
-/

namespace Phrasebook

/-- A translation, or named resources. -/
inductive Resource where
  | text (content : String)
  | table (entries : List (String × Resource))
  deriving Repr

namespace Resource

mutual

/-- Decide whether two resources are equal. -/
def decEq : (a b : Resource) → Decidable (a = b)
  | .text s, .text t =>
    if h : s = t then isTrue (congrArg text h) else isFalse fun e => h (Resource.text.inj e)
  | .table es, .table fs =>
    match decEqEntries es fs with
    | isTrue h => isTrue (congrArg table h)
    | isFalse h => isFalse fun e => h (Resource.table.inj e)
  | .text _, .table _ => isFalse nofun
  | .table _, .text _ => isFalse nofun

/-- Decide whether two lists of entries are equal. -/
def decEqEntries : (es fs : List (String × Resource)) → Decidable (es = fs)
  | [], [] => isTrue rfl
  | [], _ :: _ => isFalse nofun
  | _ :: _, [] => isFalse nofun
  | (k, a) :: es, (l, b) :: fs =>
    if hk : k = l then
      match decEq a b, decEqEntries es fs with
      | isTrue ha, isTrue hs => isTrue (by rw [hk, ha, hs])
      | isFalse ha, _ => isFalse fun e => ha (Prod.mk.inj (List.cons.inj e).1).2
      | _, isFalse hs => isFalse fun e => hs (List.cons.inj e).2
    else isFalse fun e => hk (Prod.mk.inj (List.cons.inj e).1).1

end

instance : DecidableEq Resource := decEq

/-- The table without entries, which also stands for a resource that could not be loaded. -/
def empty : Resource := .table []

instance : Inhabited Resource := ⟨empty⟩

/-- The table of the given entries; of entries with one name the last counts. -/
def ofList (entries : List (String × Resource)) : Resource :=
  .table (Entries.ofList entries)

/-- The translation, if the resource is one. -/
def asText : Resource → Option String
  | .text content => some content
  | .table _ => none

/-- Whether the resource is the table without entries. -/
def isEmpty : Resource → Bool
  | .table [] => true
  | _ => false

/-- The entry of a table under a name. -/
def child (r : Resource) (name : String) : Option Resource :=
  match r with
  | .text _ => none
  | .table entries => entries.lookup name

/-- The node reached by following the segments one table at a time. -/
def descend (r : Resource) : Key → Option Resource
  | [] => some r
  | segment :: key => (r.child segment).bind fun node => node.descend key

/-- The node at a key: the root's entry under the dotted key, or else the node its segments lead to. -/
def lookup (r : Resource) (key : Key) : Option Resource :=
  match r.child (Key.dotted key) with
  | some entry => some entry
  | none => r.descend key

/-- A dotted entry of the root hides what the segments lead to. -/
theorem lookup_of_child {r node : Resource} {key : Key} (h : r.child (Key.dotted key) = some node) :
    r.lookup key = some node := by
  simp [lookup, h]

end Resource

end Phrasebook
