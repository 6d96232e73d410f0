import Phrasebook.Resource.Basic
import Phrasebook.Name

/-!
# Loaders

A loader gives the resource of a pair, at once or after it was asked a few times.
-/

namespace Phrasebook

/-- Why a load failed: what was attempted first, its cause behind it, and so on. -/
structure LoadFault where
  causes : List String
  deriving DecidableEq, Repr

/-- All causes in one line. -/
def LoadFault.message (fault : LoadFault) : String :=
  joinTexts ": " fault.causes

/-- Where resources come from. -/
structure Loader where
  /-- The result of a load. -/
  load : Pair → Except LoadFault Resource
  /-- How often the load of a pair is asked for its result without being ready. -/
  delay : Pair → Nat := fun _ => 0
  /-- The file that is opened when a load begins. -/
  opens : Pair → Option String := fun _ => none
  /-- Whether the loader tells when it looks a pair up. -/
  announces : Bool := false

namespace Loader

/-- Resources kept in a table; the last one given for a pair counts. -/
def ofTable (resources : List (Pair × Resource)) : Loader where
  load pair :=
    match resources.reverse.lookup pair with
    | some resource => .ok resource
    | none =>
      .error ⟨["no resource registered for " ++ pair.locale.name ++ "/" ++ pair.moduleId.name]⟩

/-- Resources given by a function that tells when it is called, after the same delay for all pairs. -/
def ofFunction (load : Pair → Except LoadFault Resource) (delay : Nat) : Loader where
  load := load
  delay := fun _ => delay
  announces := true

/-- How often whoever waits for pairs asks in vain at most: as often as for the slowest of them. -/
def patience (loader : Loader) (pairs : List Pair) : Nat :=
  pairs.foldr (fun pair slowest => max (loader.delay pair) slowest) 0

/-- None of the pairs is slower than the slowest. -/
theorem delay_le_patience {loader : Loader} {pairs : List Pair} {pair : Pair} (h : pair ∈ pairs) :
    loader.delay pair ≤ loader.patience pairs := by
  induction pairs with
  | nil => simp at h
  | cons first pairs ih =>
    rw [patience, List.foldr_cons]
    rcases List.mem_cons.1 h with rfl | h
    · exact Nat.le_max_left _ _
    · exact Nat.le_trans (ih h) (Nat.le_max_right _ _)

end Loader

end Phrasebook
