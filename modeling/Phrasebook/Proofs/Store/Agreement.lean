import Phrasebook.Proofs.Store.Run

/-!
# Cells and futures

A load leaves its result in two places: the cell of its record, into which whoever reads looks, and the future,
which whoever awaits it polls. The cell is filled in the very poll that ends the future and never again, so in
every state of a store each cell holds what the future beside it came to (`Agrees.step`).
-/

namespace Phrasebook

/-- A record in order: the cell holds what the future came to, and nothing before that. -/
def LoadRecord.Agrees (record : LoadRecord) : Prop :=
  record.cell = record.future.output?

namespace LoadRecord.Agrees

variable {record : LoadRecord} {polls : Nat}

/-- The cell of a load that is not over is empty. -/
theorem cell_eq_none (h : record.Agrees) (hpending : record.future = .pending polls) : record.cell = none := by
  rw [h, hpending]
  rfl

/-- A question in vain leaves the cell empty. -/
theorem tick (h : record.Agrees) (hpending : record.future = .pending polls) (left : Nat) :
    (record.tick left).Agrees :=
  h.cell_eq_none hpending

/-- The last poll finds the cell empty, so it fills it with what it gives to those who await the load. -/
theorem settle (h : record.Agrees) (hpending : record.future = .pending polls) (resource : Resource) :
    (record.settle resource).Agrees := by
  rw [LoadRecord.Agrees, LoadRecord.settle, h.cell_eq_none hpending]
  rfl

end LoadRecord.Agrees

namespace Store

variable {store start final : Store} {events : List Event}

/-- All records are in order. -/
def Agrees (store : Store) : Prop :=
  ∀ pair record, store.record? pair = some record → record.Agrees

/-- A store without records has none out of order. -/
theorem Agrees.fresh (loader : Loader) (hook background : Bool) : (fresh loader hook background).Agrees := by
  intro pair record hrecord
  simp [Store.fresh, record?] at hrecord

/-- Whoever reads finds what those who await the load are given. -/
theorem Agrees.resource?_eq (h : store.Agrees) (pair : Pair) : store.resource? pair = store.output? pair := by
  rw [resource?, output?, progress?]
  cases hrecord : store.record? pair with
  | none => rfl
  | some record => exact h pair record hrecord

/-- A cell is filled exactly if the future beside it is over. -/
theorem Agrees.isLoaded_eq (h : store.Agrees) (pair : Pair) : store.isLoaded pair = store.isOver pair := by
  rw [isLoaded, h.resource?_eq, isOver]

/-- Changing the record of one pair keeps the others in order. -/
theorem Agrees.updateRecord (h : store.Agrees) {pair : Pair} {change : LoadRecord → LoadRecord}
    (hchange : ∀ record, store.record? pair = some record → (change record).Agrees) :
    (store.updateRecord pair change).Agrees := by
  intro other record hrecord
  rw [record?_updateRecord] at hrecord
  split at hrecord
  · rename_i heq
    obtain ⟨old, hold, rfl⟩ := Option.map_eq_some_iff.1 hrecord
    exact hchange old (heq ▸ hold)
  · exact h other record hrecord

/-- A poll keeps the records in order, as it fills the cell and ends the future together. -/
theorem Agrees.poll (h : store.Agrees) (pair : Pair) : (store.poll pair).1.Agrees := by
  have hfuture {polls : Nat} {record : LoadRecord} (hpending : store.progress? pair = some (.pending polls))
      (hrecord : store.record? pair = some record) : record.future = .pending polls := by
    rw [progress?, hrecord] at hpending
    exact Option.some.inj hpending
  -- only the polls of a load that is not over change its record, and then the cell is empty
  rcases hpair : store.progress? pair with _ | (_ | polls) | output
  · rwa [poll_of_none hpair]
  · obtain ⟨opening, hpoll⟩ := poll_of_pending_zero hpair
    rw [hpoll]
    exact h.updateRecord fun record hrecord => (h pair record hrecord).settle (hfuture hpair hrecord) _
  · obtain ⟨opening, hpoll⟩ := poll_of_pending_succ hpair
    rw [hpoll]
    exact h.updateRecord fun record hrecord => (h pair record hrecord).tick (hfuture hpair hrecord) _
  · rwa [poll_of_settled hpair]

/-- New records are in order: their loads are not over, and their cells are empty. -/
theorem Agrees.select (h : store.Agrees) (selection : Selection) : (store.select selection).1.Agrees := by
  intro pair record hrecord
  rw [record?_select] at hrecord
  cases hpair : store.record? pair with
  | some old =>
    rw [hpair] at hrecord
    exact Option.some.inj hrecord ▸ h pair old hpair
  | none =>
    rw [hpair, Option.none_or] at hrecord
    split at hrecord
    · exact Option.some.inj hrecord ▸ rfl
    · simp at hrecord

/-- Every step keeps the records in order. -/
theorem Agrees.step (h : start.Agrees) (hstep : Step start events final) : final.Agrees := by
  cases hstep with
  | drive driven =>
    cases driven with
    | poll pair => exact h.poll pair
    | enqueue queue => exact h
  | setLocales locales => exact h.select _
  | setModules modules => exact h.select _
  | deliver handlers registered quiet => exact h

/-- Every history keeps the records in order. -/
theorem Agrees.history (h : start.Agrees) (hsteps : History Step start events final) : final.Agrees :=
  hsteps.induct (P := fun store => store.Agrees) (fun step hagrees => Agrees.step hagrees step) h

/-- The records are in order after every run. -/
theorem agrees_performAll (loader : Loader) (hook background : Bool) (commands : List Command) :
    ((fresh loader hook background).performAll commands).1.Agrees :=
  (Agrees.fresh loader hook background).history (steps_performAll _ commands)

end Store

end Phrasebook
