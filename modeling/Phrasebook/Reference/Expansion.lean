import Phrasebook.Event
import Phrasebook.Reference.Marker
import Phrasebook.Reference.Target

/-!
# Reference expansion

Reading a key means looking up its translation and replacing every marker in it by the reading of the
marker's target, always for one locale. The chain of keys that lead to a node is bounded, so reading ends
even when references form a cycle.
-/

namespace Phrasebook

/-- A result together with the events that happened on the way to it. -/
structure Traced (α : Type) where
  events : List Event
  result : Except Problem α

namespace Traced

variable {α β : Type}

/-- A result without events. -/
def done (a : α) : Traced α := ⟨[], .ok a⟩

/-- A problem without events. -/
def failed (problem : Problem) : Traced α := ⟨[], .error problem⟩

/-- Put events in front. -/
def after (events : List Event) (t : Traced α) : Traced α := ⟨events ++ t.events, t.result⟩

/-- Go on with the result, unless there is a problem. -/
def andThen (t : Traced α) (f : α → Traced β) : Traced β :=
  match t.result with
  | .ok a => (f a).after t.events
  | .error problem => ⟨t.events, .error problem⟩

end Traced

/-- What reading depends on: the loaded resources, which pairs have an access notifier, and how many
references may follow one another. -/
structure Library where
  resource? : Pair → Option Resource
  notifies : Pair → Bool
  maxDepth : Nat

namespace Library

/-- Keys are counted with machine words, so a chain holds fewer than this many keys. -/
def wordLimit : Nat := UInt64.size - 1

/-- How many keys a chain may hold: one more than the references it follows. -/
def chainLimit (library : Library) : Nat :=
  min (library.maxDepth + 1) wordLimit

/-- Put a text together from its pieces, replacing each marker by what `follow` reads for its target. -/
def expandPieces (locale : Locale) (home : ModuleId) (follow : ModuleId → Key → Traced (List Char)) :
    List Piece → Traced (List Char)
  | [] => .done []
  | .literal text :: rest =>
    (expandPieces locale home follow rest).andThen fun tail => .done (text ++ tail)
  | .marker inner :: rest =>
    let target := Target.ofInner inner
    let moduleId := target.moduleId.getD home
    Traced.after [.expanding locale moduleId (String.ofList inner)]
      ((follow moduleId target.key).andThen fun text =>
        (expandPieces locale home follow rest).andThen fun tail => .done (text ++ tail))

/-- Read a key whose chain may still take `room` keys, this one included; `chain` names the keys that led
here. -/
def readWithin (library : Library) (locale : Locale) :
    Nat → List String → ModuleId → Key → Traced (List Char)
  | 0, chain, moduleId, key =>
    .failed (.cyclicReference locale (chain ++ [addressLabel moduleId key]))
  | room + 1, chain, moduleId, key =>
    let pair : Pair := ⟨locale, moduleId⟩
    let found := (library.resource? pair).bind fun resource => resource.lookup key
    let access := if library.notifies pair then [Event.accessed pair key found] else []
    Traced.after access <|
      match found with
      | some (.text text) =>
        expandPieces locale moduleId
          (readWithin library locale room (chain ++ [addressLabel moduleId key]))
          (Marker.decompose text.toList)
      | some (.table _) => .failed (.keyPartial pair key)
      | none => .failed (.keyMissing pair key)

/-- Read the fully expanded text of a key for a pair. -/
def read (library : Library) (pair : Pair) (key : Key) : Traced String :=
  (readWithin library pair.locale library.chainLimit [] pair.moduleId key).andThen fun text =>
    .done (String.ofList text)

end Library

end Phrasebook
